import TypedScript.Layout.Descriptor
import TypedScript.Machine.Value

/-!
# Machine memory

The heap keeps every object that was ever allocated, so that the use of one that was given back is noticed. The
stack keeps every cell.
-/

namespace TypedScript.Machine

open TypedScript.Layout

/-- A heap object. Its slots appear when they are first stored to. -/
structure Object where
  size : Int
  slots : Array Value := #[]
  isReleased : Bool := false
  deriving Inhabited

namespace Object

/-- The word at a slot if it is an integer, and minus one otherwise. -/
def word (o : Object) (slot : Nat) : Int :=
  match o.slots[slot]? with
  | some (.int v) => v
  | _ => -1

def tag (o : Object) : Int := o.word tagSlot

def count (o : Object) : Int := o.word countSlot

/-- Stores at a slot, the slots before it staying invalid if they were never stored to. -/
def store (o : Object) (slot : Nat) (v : Value) : Object :=
  let missing := slot + 1 - o.slots.size
  { o with slots := (o.slots ++ Array.replicate missing Value.invalid).setIfInBounds slot v }

end Object

structure Memory where
  /-- The objects; the first has number one. -/
  objects : Array Object := #[]
  /-- How many objects were given back. -/
  releases : Nat := 0
  cells : Array Value := #[]
  deriving Inhabited

namespace Memory

def allocs (m : Memory) : Nat := m.objects.size

def object (m : Memory) (id : Nat) : Object := m.objects.getD (id - 1) default

/-- The objects with their numbers. -/
def numbered (m : Memory) : List (Nat × Object) := m.objects.toList.zipIdx.map fun (o, i) => (i + 1, o)

/-- The objects that were not given back, with their numbers. -/
def live (m : Memory) : List (Nat × Object) := m.numbered.filter fun (_, o) => !o.isReleased

/-- Fails unless the object may still be used. -/
def checkLive (m : Memory) (id slot : Nat) : Except Failure Unit :=
  if (m.object id).isReleased then .error ⟨.useAfterRelease, s!"use after release: obj#{id} slot {slot}", []⟩
  else .ok ()

/-- Reads through a pointer. -/
def load (m : Memory) (addr : Value) : Except Failure Value :=
  match addr with
  | .ptr .null => .error ⟨.nullDeref, "load through null", []⟩
  | .ptr (.stack cell) =>
    match m.cells.getD cell .invalid with
    | .invalid => .error ⟨.useBeforeInit, "stack slot read before store", []⟩
    | v => .ok v
  | .ptr (.field id slot) => do
    m.checkLive id slot
    match (m.object id).slots.getD slot .invalid with
    | .invalid => .error ⟨.useBeforeInit, s!"obj#{id} slot {slot} read before store", []⟩
    | v => .ok v
  | .ptr (.codeField f slot) =>
    if slot = tagSlot then .ok (.int 0)
    else .error ⟨.invalidPointer, s!"slot {slot} read through code pointer @{f}", []⟩
  | .ptr p => .error ⟨.invalidPointer, s!"load through {p.text}", []⟩
  | v => .error ⟨.typeMismatch, s!"load through {v.kindName}", []⟩

/-- Fails unless a pointer can be written through. -/
def checkStore (m : Memory) (addr : Value) : Except Failure Unit :=
  match addr with
  | .ptr .null => .error ⟨.nullDeref, "store through null", []⟩
  | .ptr (.stack _) => .ok ()
  | .ptr (.field id slot) => m.checkLive id slot
  | .ptr p => .error ⟨.invalidPointer, s!"store through {p.text}", []⟩
  | a => .error ⟨.typeMismatch, s!"store through {a.kindName}", []⟩

/-- Writes through a pointer that can be written through. -/
def put (m : Memory) (addr v : Value) : Memory :=
  match m, addr with
  | ⟨objects, releases, cells⟩, .ptr (.stack cell) => ⟨objects, releases, cells.setIfInBounds cell v⟩
  | ⟨objects, releases, cells⟩, .ptr (.field id slot) => ⟨objects.modify (id - 1) (·.store slot v), releases, cells⟩
  | m, _ => m

/-- Writes through a pointer. -/
def store (m : Memory) (addr v : Value) : Except Failure Memory := do
  m.checkStore addr
  return m.put addr v

/-- The address of a slot of what is pointed to. -/
def fieldAddr (base : Value) (slot : Nat) : Except Failure Value :=
  match base with
  | .ptr (.object id) => .ok (.ptr (.field id slot))
  | .ptr (.code f) => .ok (.ptr (.codeField f slot))
  | .ptr .null => .error ⟨.nullDeref, s!"field {slot} of null", []⟩
  | .ptr p => .error ⟨.invalidPointer, s!"field address of {p.text}", []⟩
  | v => .error ⟨.typeMismatch, s!"field address of {v.kindName}", []⟩

/-- Fails unless an object can have the size: sizes are positive. -/
def checkSize (size : Int) : Except Failure Unit :=
  if size ≤ 0 then .error ⟨.invalidPointer, s!"allocation of {size} bytes", []⟩ else .ok ()

/-- Adds an object. Its number is the number of objects after that. -/
def addObject (m : Memory) (size : Int) : Memory :=
  match m with
  | ⟨objects, releases, cells⟩ => ⟨objects.push { size }, releases, cells⟩

/-- The number of an object that may be given back: no one owns it, and it was not given back before. -/
def checkRelease (m : Memory) (v : Value) : Except Failure Nat :=
  match v with
  | .ptr (.object id) =>
    let o := m.object id
    if o.isReleased then .error ⟨.doubleRelease, s!"double release: obj#{id} tag={o.tag}", []⟩
    else if o.count > 0 then
      .error ⟨.releasedLive, s!"release of obj#{id} tag={o.tag} with refcount {o.count}", []⟩
    else .ok id
  | v => .error ⟨.invalidPointer, s!"release of {v.text}", []⟩

/-- Takes back an object. -/
def giveBack (m : Memory) (id : Nat) : Memory :=
  match m with
  | ⟨objects, releases, cells⟩ =>
    ⟨objects.modify (id - 1) fun o => { o with isReleased := true }, releases + 1, cells⟩

/-- Fails if an object was never given back. -/
def checkBalanced (m : Memory) : Except Failure Unit :=
  let live := m.live
  if live.isEmpty then .ok ()
  else
    let parts := live.map fun (id, o) => s!"obj#{id}(tag={o.tag} rc={o.count})"
    .error ⟨.leak, s!"{live.length} object(s) never released: " ++ ", ".intercalate parts, []⟩

end Memory

end TypedScript.Machine
