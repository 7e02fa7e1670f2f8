import TypedScript.Order.Sorted
import TypedScript.Ty.Basic

/-!
# Interning

An interner gives every structural type one number: interning a type again, or an object type with its properties in
another order, gives the number it has. Aliases always get a new number.
-/

namespace TypedScript.Ty

/-- The types by number: type `i` stands at place `i - 1`. -/
structure Interner where
  types : Array Ty := (primitives.map (·.2)).toArray
  deriving Inhabited

/-- A text that tells structural types apart; aliases have none. -/
def key? : Ty → Option String
  | void => some "1:"
  | bool => some "2:"
  | number => some "3:"
  | string => some "4:"
  | null => some "5:"
  | int width => some s!"6:{width}"
  | object props => some ("7:" ++ String.join (props.map fun p => s!"{p.1}={p.2};"))
  | func params result => some ("8:" ++ String.join (params.map fun p => s!"{p},") ++ s!"->{result}")
  | synonym .. => none

/-- The properties in order of their names; those of one name keep their order. -/
def sortProps (props : List (String × Nat)) : List (String × Nat) :=
  Order.sorted (fun a b => a.1 ≤ b.1) props

namespace Interner

def lookup? (ts : Interner) (id : Nat) : Option Ty := if id = 0 then none else ts.types[id - 1]?

/-- The number of a structural type. -/
def intern (ts : Interner) (t : Ty) : Nat × Interner :=
  match ts.types.findIdx? fun u => u.key?.isSome && u.key? == t.key? with
  | some i => (i + 1, ts)
  | none => (ts.types.size + 1, ⟨ts.types.push t⟩)

/-- The number of the object type with the given properties. -/
def object (ts : Interner) (props : List (String × Nat)) : Nat × Interner :=
  ts.intern (.object (sortProps props))

/-- The number of a function type. -/
def func (ts : Interner) (params : List Nat) (result : Nat) : Nat × Interner :=
  ts.intern (.func params result)

/-- A new alias, whose target is still open. -/
def newAlias (ts : Interner) (name : String) : Nat × Interner :=
  (ts.types.size + 1, ⟨ts.types.push (.synonym name 0)⟩)

/-- Gives an alias its target; other types are left alone. -/
def setAlias (ts : Interner) (id target : Nat) : Interner :=
  match ts.lookup? id with
  | some (.synonym name _) => ⟨ts.types.setIfInBounds (id - 1) (.synonym name target)⟩
  | _ => ts

/-- Follows at most `fuel` aliases. -/
def follow (ts : Interner) : Nat → Nat → Nat
  | 0, _ => 0
  | fuel + 1, id =>
    match ts.lookup? id with
    | some (.synonym _ target) => ts.follow fuel target
    | _ => id

/-- The type behind any aliases; zero if aliases only lead to one another. -/
def unalias (ts : Interner) (id : Nat) : Nat := ts.follow (ts.types.size + 1) id

/-- The structure behind any aliases. -/
def resolved? (ts : Interner) (id : Nat) : Option Ty := ts.lookup? (ts.unalias id)

def aliasName (ts : Interner) (id : Nat) : String :=
  match ts.lookup? id with
  | some (.synonym name _) => name
  | _ => ""

/-- The place of the first property whose name does not come before `name`. -/
def placeOf (props : List (String × Nat)) (name : String) : Nat :=
  Order.search (fun i => (props[i]?).any (·.1 < name)) 0 props.length

/-- The property of an object type, whose properties are sorted. -/
def prop? (ts : Interner) (obj : Nat) (name : String) : Option (String × Nat) :=
  match ts.resolved? obj with
  | some (.object props) => (props[placeOf props name]?).filter (·.1 = name)
  | _ => none

/-- Compares the pairs of a worklist one after another. The pairs that were met before, which are taken to be
identical, are threaded through; `none` says that a difference was found. -/
def comparePairs (compare : Nat → Nat → List (Nat × Nat) → Option (List (Nat × Nat))) :
    List (Nat × Nat) → List (Nat × Nat) → Option (List (Nat × Nat))
  | [], met => some met
  | (a, b) :: rest, met =>
    match compare a b met with
    | some met => comparePairs compare rest met
    | none => none

/-- The pairs of parts that have to be identical for two structures to be; `none` if the structures differ
themselves. -/
def matchParts : Ty → Ty → Option (List (Nat × Nat))
  | .int v, .int w => if v = w then some [] else none
  | .object ps, .object qs =>
    if ps.map (·.1) = qs.map (·.1) then some ((ps.map (·.2)).zip (qs.map (·.2))) else none
  | .func ps r, .func qs s => if ps.length = qs.length then some ((r, s) :: ps.zip qs) else none
  | .void, .void | .bool, .bool | .number, .number | .string, .string | .null, .null => some []
  | _, _ => none

/-- Compares two types, going at most `depth` constructors deep. -/
def identicalFrom (ts : Interner) : Nat → Nat → Nat → List (Nat × Nat) → Option (List (Nat × Nat))
  | 0, _, _, _ => none
  | depth + 1, a, b, met =>
    if a = b ∨ (a, b) ∈ met then some met
    else
      match ts.resolved? a, ts.resolved? b with
      | some ta, some tb =>
        match matchParts ta tb with
        | some parts => comparePairs (ts.identicalFrom depth) parts ((a, b) :: met)
        | none => none
      | _, _ => none

/-- Every step into a part meets a new pair, and there are no more than these. -/
def pairBound (ts : Interner) : Nat := (ts.types.size + 1) * (ts.types.size + 1) + 1

/-- Whether two types have the same structure behind their aliases. -/
def identical (ts : Interner) (a b : Nat) : Bool := (ts.identicalFrom ts.pairBound a b []).isSome

/-- Whether a value of type `src` may be stored where `dst` is expected: the types are identical, or null meets an
object or a function. -/
def assignable (ts : Interner) (dst src : Nat) : Bool :=
  ts.identical dst src ||
    (ts.resolved? src = some .null && (ts.resolved? dst).elim false isNullable)

/-- Whether values of the type are reference-counted objects. -/
def isHeap (ts : Interner) (id : Nat) : Bool := (ts.resolved? id).elim false isObject

/-- How deep a type is written out. -/
def renderDepth : Nat := 5

/-- The text of a type, written out at most `depth` constructors deep. -/
def renderFrom (ts : Interner) : Nat → Nat → String
  | depth, id =>
    match ts.lookup? id with
    | none => "<invalid>"
    | some t =>
      match depth with
      | 0 => "..."
      | depth + 1 =>
        match t with
        | .synonym name _ => name
        | .int width => s!"i{width}"
        | .object props =>
          "\x7b " ++ ", ".intercalate (props.map fun p => p.1 ++ ": " ++ ts.renderFrom depth p.2) ++ " \x7d"
        | .func params result =>
          let ps := params.zipIdx.map fun p => s!"p{p.2}: " ++ ts.renderFrom depth p.1
          "(" ++ ", ".intercalate ps ++ ") => " ++ ts.renderFrom depth result
        | t => t.kindName

/-- The text of a type. -/
def render (ts : Interner) (id : Nat) : String := ts.renderFrom renderDepth id

end Interner

end TypedScript.Ty
