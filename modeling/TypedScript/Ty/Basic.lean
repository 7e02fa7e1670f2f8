/-!
# Types

Types refer to one another by number. Objects and functions are structural, aliases are nominal: an alias has a
name and a target, which may lead back to it. Number zero is no type.
-/

namespace TypedScript

inductive Ty where
  | void
  | bool
  | number
  | string
  | null
  /-- A signed integer of the given width in bits. -/
  | int (width : Nat)
  /-- Named properties, sorted by name. -/
  | object (props : List (String × Nat))
  | func (params : List Nat) (result : Nat)
  | synonym (name : String) (target : Nat)
  deriving DecidableEq, Inhabited, Repr

namespace Ty

def kindName : Ty → String
  | void => "void"
  | bool => "boolean"
  | number => "number"
  | string => "string"
  | null => "null"
  | int _ => "int"
  | object _ => "object"
  | func .. => "function"
  | synonym .. => "alias"

/-- The numbers of the primitive types. -/
def voidId : Nat := 1
def boolId : Nat := 2
def numberId : Nat := 3
def stringId : Nat := 4
def nullId : Nat := 5

/-- The primitive types, in the order of their numbers, with the names they are written by. -/
def primitives : List (String × Ty) :=
  [("void", .void), ("boolean", .bool), ("number", .number), ("string", .string), ("null", .null), ("i8", .int 8),
    ("i16", .int 16), ("i32", .int 32), ("i64", .int 64)]

def isPrimitiveName (name : String) : Bool := primitives.any (·.1 = name)

/-- The number of the primitive type with the given name. -/
def primitive? (name : String) : Option Nat := (primitives.findIdx? (·.1 = name)).map (· + 1)

def isNumeric : Ty → Bool
  | number | int _ => true
  | _ => false

def isObject : Ty → Bool
  | object _ => true
  | _ => false

/-- Whether null may stand for a value of the type. -/
def isNullable : Ty → Bool
  | object _ | func .. => true
  | _ => false

end Ty

end TypedScript
