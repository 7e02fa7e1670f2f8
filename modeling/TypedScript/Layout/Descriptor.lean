import TypedScript.Order.Sorted
import TypedScript.Text.Quoted

/-!
# Object layouts

A heap object starts with a header of two words, its tag and its reference count, and goes on with its fields in
order of their names, each at the first offset that is a multiple of its alignment.
-/

namespace TypedScript.Layout

/-- Sizes and offsets are words, which wrap around; none is negative unless that happens. -/
instance coeNatInt64 : Coe Nat Int64 := ⟨Int64.ofNat⟩

instance coeInt64Nat : Coe Int64 Nat := ⟨Int64.toNatClampNeg⟩

/-- The machine that code is made for. -/
structure Target where
  triple : String := "x86_64-linux-gnu"
  pointerSize : Int64 := 8
  pointerAlign : Int64 := 8
  deriving Inhabited

/-- The target with the given name; without one, the default. -/
def Target.ofTriple (triple : String) : Target := if triple = "" then {} else { triple }

/-- The layout that a pointer refers to. -/
structure LayoutRef where
  tag : Int
  name : String
  deriving DecidableEq, Inhabited, Repr

/-- How values of a static type are represented. -/
inductive Rep where
  | void
  | bool
  | int (bits : Nat)
  | float
  /-- A pointer to immutable bytes that are not counted. -/
  | string (type : Nat)
  /-- A pointer to a counted object, of a known layout unless it is only ever null. -/
  | object (layout : Option LayoutRef) (type : Nat)
  /-- A function: a code pointer, or a pointer to a closure object. -/
  | func (type : Nat)
  /-- A pointer to a counted scope object of any layout. -/
  | scope
  /-- A code pointer. -/
  | code
  /-- A pointer of which nothing is known. -/
  | unknown
  deriving DecidableEq, Inhabited, Repr

namespace Rep

def isPointer : Rep → Bool
  | string _ | object .. | func _ | scope | code => true
  | _ => false

/-- Whether who holds the value owns a reference count. -/
def isCounted : Rep → Bool
  | object .. | func _ | scope => true
  | _ => false

/-- The size and the alignment, in bytes. -/
def sizeAlign (t : Target) : Rep → Int64 × Int64
  | void => (0, 1)
  | bool => (1, 1)
  | int bits => (.ofNat (bits / 8), .ofNat (bits / 8))
  | float => (8, 8)
  | _ => (t.pointerSize, t.pointerAlign)

def text : Rep → String
  | void => "void"
  | bool => "i1"
  | int bits => s!"i{bits}"
  | float => "f64"
  | string _ => "str"
  | object (some l) _ => "ptr<" ++ l.name ++ ">"
  | object none _ => "ptr<?>"
  | func _ => "fn"
  | scope => "ptr<scope>"
  | code => "code"
  | unknown => "?"

/-- The static type, where it matters; zero otherwise. -/
def type : Rep → Nat
  | string t | object _ t | func t => t
  | _ => 0

/-- The layout of the objects that are pointed to. -/
def layout? : Rep → Option LayoutRef
  | object l _ => l
  | _ => none

/-- A text that is equal for values that may share a field. -/
def fingerprint : Rep → String
  | object (some l) _ => s!"obj#{l.tag}"
  | func t => s!"fn#{t}"
  | r => r.text

end Rep

/-- What a layout describes. -/
inductive Kind where
  | object
  | scope
  | closure
  deriving DecidableEq, Inhabited, Repr

def Kind.name : Kind → String
  | object => "object"
  | scope => "scope"
  | closure => "closure"

/-- The kind with the given name; any other word stands for objects. -/
def Kind.ofName (word : String) : Kind := ([scope, closure].find? (·.name = word)).getD object

/-- The slot of the tag word. -/
def tagSlot : Nat := 0

/-- The slot of the reference count. -/
def countSlot : Nat := 1

def headerSlots : Nat := 2

/-- The size of the header in bytes. -/
def headerSize : Int64 := 8

/-- The tag of closure objects. No tag is zero, which is what a code pointer shows in place of one. -/
def closureTag : Int := 1

structure Field where
  name : String
  rep : Rep
  slot : Nat
  offset : Int64
  deriving DecidableEq, Inhabited, Repr

/-- A field before it has got its place. -/
structure FieldSpec where
  name : String
  rep : Rep
  deriving DecidableEq, Inhabited, Repr

structure Descriptor where
  tag : Int
  name : String
  kind : Kind
  /-- The object type it was made for; zero if there is none. -/
  type : Nat := 0
  fields : List Field
  size : Int64
  align : Int64
  deriving DecidableEq, Inhabited, Repr

/-- The least multiple of `a` that is not below `n`. -/
def alignUp (n a : Int64) : Int64 := if a ≤ 1 then n else (n + a - 1) / a * a

/-- Places fields one after another, the first at slot `slot` and not before `offset`. Gives the fields, where
they end, and the largest alignment. -/
def place (t : Target) : Nat → Int64 → List FieldSpec → List Field × Int64 × Int64
  | _, offset, [] => ([], offset, 4)
  | slot, offset, s :: rest =>
    let (size, align) := s.rep.sizeAlign t
    let align := max align 1
    let start := alignUp offset align
    let (fields, stop, widest) := place t (slot + 1) (start + size) rest
    (⟨s.name, s.rep, slot, start⟩ :: fields, stop, max widest align)

/-- The fields in order of their names; those of one name keep their order. -/
def sortSpecs (specs : List FieldSpec) : List FieldSpec := Order.sorted (fun a b => a.name ≤ b.name) specs

/-- The layout of an object with the given fields. -/
def build (t : Target) (tag : Int) (name : String) (kind : Kind) (specs : List FieldSpec) : Descriptor :=
  let (fields, stop, align) := place t headerSlots headerSize (sortSpecs specs)
  { tag, name, kind, fields, size := alignUp stop align, align }

namespace Descriptor

def ref (d : Descriptor) : LayoutRef := ⟨d.tag, d.name⟩

def field? (d : Descriptor) (name : String) : Option Field := d.fields.find? (·.name = name)

/-- The number of slots, header included. -/
def slotCount (d : Descriptor) : Nat := headerSlots + d.fields.length

/-- The fields that hold a reference count. -/
def countedFields (d : Descriptor) : List Field := d.fields.filter (·.rep.isCounted)

def render (d : Descriptor) : String :=
  s!"{d.kind.name} {d.name} tag={d.tag} size={d.size} align={d.align}\n  [0] +0 $tag i32\n  [1] +4 $rc i32\n"
    ++ String.join (d.fields.map fun f => s!"  [{f.slot}] +{f.offset} {f.name} {f.rep.text}\n")

end Descriptor

end TypedScript.Layout
