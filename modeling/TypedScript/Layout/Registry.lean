import TypedScript.Layout.Descriptor
import TypedScript.Ty.Interner

/-!
# The registry of layouts

A registry finds the representation of types and owns the layouts of one program. Object types of one shape share a
layout; every scope object has its own. A layout is made when it is first needed and never changes.
-/

namespace TypedScript.Layout

/-- Why a type or a field has no layout. -/
inductive Error where
  /-- The object type contains itself; the types of the cycle are named in order. -/
  | recursive (type : Nat) (cycle : List String)
  | fieldNotFound (layout field : String)
  /-- The type is no object type. -/
  | notStructural (type : Nat) (text : String)
  deriving DecidableEq, Repr

def Error.message : Error → String
  | recursive type [] => s!"recursive type has no finite layout (type#{type})"
  | recursive _ cycle => "recursive type has no finite layout (cycle: " ++ " -> ".intercalate cycle ++ ")"
  | fieldNotFound layout field => "field " ++ Text.quote field ++ " not found in layout " ++ layout
  | notStructural _ text => "type " ++ text ++ " has no structural layout"

/-- The field of a layout. -/
def Descriptor.field (d : Descriptor) (name : String) : Except Error Field :=
  match d.field? name with
  | some f => .ok f
  | none => .error (.fieldNotFound d.name name)

/-- The name of the field of a scope object that links to the enclosing scope object. -/
def parentField : String := "$parent"

/-- The layout of closure objects. -/
def closureDescriptor (t : Target) : Descriptor :=
  build t closureTag "$closure" .closure [⟨"code", .code⟩, ⟨"env", .scope⟩]

/-- The representation that a word names. -/
def Rep.ofWord (word : String) : Rep :=
  match word with
  | "scope" => scope
  | "closure" => object (some (closureDescriptor {}).ref) 0
  | "obj" => object none 0
  | word =>
    let plain := [void, bool, int 8, int 16, int 32, int 64, float, string 0, func 0, code]
    (plain.find? (·.text = word)).getD unknown

structure Registry where
  target : Target := {}
  /-- All layouts, the closure layout first. Tags count them from one. -/
  all : List Descriptor
  /-- The layouts of object types that were asked for. -/
  byType : List (Nat × Int) := []
  /-- The layouts of object types by shape. -/
  byShape : List (String × Int) := []
  /-- The layouts of scope objects by key. -/
  scopes : List (String × Int) := []
  /-- The number of object types without a name that have got a layout. -/
  unnamed : Nat := 0
  /-- The object types whose fields are being resolved, outermost first, as they were reached. -/
  stack : List Nat := []
  /-- Where on the stack the structure of each of them stands. -/
  index : List (Nat × Nat) := []
  deriving Inhabited

/-- The registry with the closure layout alone. -/
def Registry.ofTarget (target : Target) : Registry := { target, all := [closureDescriptor target] }

namespace Registry

def closure (r : Registry) : Descriptor := closureDescriptor r.target

def descriptor? (r : Registry) (tag : Int) : Option Descriptor := r.all.find? (·.tag = tag)

/-- Makes a layout with the next tag. -/
def install (r : Registry) (name : String) (kind : Kind) (type : Nat) (specs : List FieldSpec) :
    Registry × Descriptor :=
  let d := { build r.target (r.all.length + 1) name kind specs with type }
  ({ r with all := r.all ++ [d] }, d)

/-- The layout of the scope object with the given key, made from the variables it holds when it is first asked
for. -/
def scope (r : Registry) (key : String) (locals : List FieldSpec) : Registry × Descriptor :=
  match (r.scopes.lookup key).bind r.descriptor? with
  | some d => (r, d)
  | none =>
    let (r, d) := r.install ("scope." ++ key) .scope 0 (⟨parentField, .scope⟩ :: locals)
    ({ r with scopes := (key, d.tag) :: r.scopes }, d)

/-- A text that is equal for object types that share a layout. -/
def shapeKey (specs : List FieldSpec) : String :=
  let parts := Order.sorted (fun a b => a ≤ b) (specs.map fun s => s.name ++ ":" ++ s.rep.fingerprint)
  "object\x7b" ++ ",".intercalate parts ++ "\x7d"

/-- The name of a type in messages. -/
def displayName (types : Ty.Interner) (type : Nat) : String :=
  if types.aliasName type ≠ "" then types.aliasName type else types.render type

/-- A computation that may make layouts; those made before an error stay. -/
abbrev LayoutM := ExceptT Error (StateM Registry)

/-- The layout for a shape: the one that has it, or a new one. -/
def layoutOfShape (types : Ty.Interner) (type canon : Nat) (specs : List FieldSpec) : LayoutM Descriptor := do
  let key := shapeKey specs
  let r ← get
  match (r.byShape.lookup key).bind r.descriptor? with
  | some d =>
    set { r with byType := (canon, d.tag) :: r.byType }
    return d
  | none =>
    let named := types.aliasName type ≠ ""
    let unnamed := if named then r.unnamed else r.unnamed + 1
    let name := if named then types.aliasName type else s!"anon.{unnamed}"
    let (r, d) := r.install name .object canon specs
    set { r with byType := (canon, d.tag) :: r.byType, byShape := (key, d.tag) :: r.byShape, unnamed }
    return d

/-- Puts an object type on the stack. -/
def enter (r : Registry) (canon type : Nat) : Registry :=
  { r with stack := r.stack ++ [type], index := (canon, r.stack.length) :: r.index }

/-- Takes the object type that was entered last off the stack. -/
def leave (r : Registry) (canon : Nat) : Registry :=
  { r with stack := r.stack.dropLast, index := r.index.filter (·.1 ≠ canon) }

/-- Does what is to be done while an object type is on the stack, which it leaves however that ends. -/
def within {α : Type} (canon type : Nat) (act : LayoutM α) : LayoutM α := ExceptT.mk do
  modify (·.enter canon type)
  let result ← act.run
  modify (·.leave canon)
  return result

theorem run_within {α : Type} (canon type : Nat) (act : LayoutM α) (r : Registry) :
    (within canon type act).run.run r =
      ((act.run.run (r.enter canon type)).1, (act.run.run (r.enter canon type)).2.leave canon) := rfl

mutual

/-- The representation of a type. No more than `depth` object types are entered one inside the other. -/
def resolveFrom (types : Ty.Interner) : Nat → Nat → LayoutM Rep
  | 0, type => throw (.notStructural type (types.render type))
  | depth + 1, type =>
    match types.resolved? type with
    | some .void => return .void
    | some .bool => return .bool
    | some .number => return .float
    | some (.int width) => return .int width
    | some .string => return .string type
    | some (.func ..) => return .func (types.unalias type)
    | some (.object _) => do
      let d ← layoutFrom types depth type
      return .object (some d.ref) type
    | _ => throw (.notStructural type (types.render type))

/-- The layout of an object type. -/
def layoutFrom (types : Ty.Interner) : Nat → Nat → LayoutM Descriptor
  | 0, type => throw (.notStructural type (types.render type))
  | depth + 1, type => do
    let canon := types.unalias type
    let r ← get
    match (r.byType.lookup canon).bind r.descriptor? with
    | some d => return d
    | none =>
      match types.lookup? canon with
      | some (.object props) =>
        match r.index.lookup canon with
        | some place =>
          let cycle := r.stack.drop place ++ [type]
          throw (.recursive canon (cycle.map (displayName types)))
        | none =>
          within canon type do
            let specs ← props.mapM fun p => return (⟨p.1, ← resolveFrom types depth p.2⟩ : FieldSpec)
            layoutOfShape types type canon specs
      | _ => throw (.notStructural type (types.render type))

end

/-- More object types cannot be entered one inside the other. -/
def depthFor (types : Ty.Interner) : Nat := 2 * types.types.size + 4

/-- The representation of a type, its layout being made on the way. -/
def resolve (types : Ty.Interner) (type : Nat) : LayoutM Rep := resolveFrom types (depthFor types) type

/-- The layout of an object type. -/
def layoutOf (types : Ty.Interner) (type : Nat) : LayoutM Descriptor := layoutFrom types (depthFor types) type

end Registry

end TypedScript.Layout
