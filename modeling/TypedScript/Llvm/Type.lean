import TypedScript.Decimal.Reading
import TypedScript.Text.Utf8

/-!
# LLVM types and names

Pointers say what they point to here, so that values have to be cast between pointer types. Names that are not plain
identifiers are written between quotes.
-/

namespace TypedScript.Llvm

inductive Ty where
  | void
  | int (bits : Nat)
  | double
  | ptr (target : Ty)
  /-- A struct that is known by name. -/
  | struct (name : String)
  | func (ret : Ty) (params : List Ty)
  /-- An array of bytes. -/
  | bytes (count : Nat)
  deriving Inhabited, Repr

mutual

/-- Whether two types have the same parts. -/
def Ty.same : Ty → Ty → Bool
  | .void, .void | .double, .double => true
  | .int bits, .int bits' => bits == bits'
  | .ptr target, .ptr target' => target.same target'
  | .struct name, .struct name' => name == name'
  | .func ret params, .func ret' params' => ret.same ret' && sameList params params'
  | .bytes count, .bytes count' => count == count'
  | _, _ => false

def sameList : List Ty → List Ty → Bool
  | [], [] => true
  | t :: ts, t' :: ts' => t.same t' && sameList ts ts'
  | _, _ => false

end

instance : BEq Ty := ⟨Ty.same⟩

namespace Ty

/-- The pointer that stands for all pointers of which nothing is known. -/
def bytePtr : Ty := ptr (int 8)

def isPtr : Ty → Bool
  | ptr _ => true
  | _ => false

/-- The class of a type, in messages. -/
def className : Ty → String
  | void => "*types.VoidType"
  | int _ => "*types.IntType"
  | double => "*types.FloatType"
  | ptr _ => "*types.PointerType"
  | struct _ => "*types.StructType"
  | func .. => "*types.FuncType"
  | bytes _ => "*types.ArrayType"

end Ty

/-! ### Names -/

def upperHexDigit (n : Nat) : Char := if n < 10 then Char.ofNat (48 + n) else Char.ofNat (55 + n)

/-- A byte between quotes: as it is if it is a printable character that does not end or escape, and else its code.
-/
def escapeByte (b : UInt8) : List Char :=
  let n := b.toNat
  if 0x20 ≤ n ∧ n < 0x7F ∧ n ≠ 34 ∧ n ≠ 92 then [Char.ofNat n]
  else ['\\', upperHexDigit (n / 16), upperHexDigit (n % 16)]

/-- A text between quotes. -/
def quoted (s : String) : String := String.ofList ('"' :: (Text.encode s).flatMap escapeByte ++ ['"'])

/-- Whether a character may stand in a name without quotes. -/
def isNameChar (c : Char) : Bool := c.isAlphanum || c = '$' || c = '.' || c = '_' || c = '-'

/-- A name, between quotes if it has to be. -/
def identifier (name : String) : String := if name.toList.all isNameChar then name else quoted name

/-- Whether a name could be taken for a number. -/
def isNumeral (name : String) : Bool :=
  match name.toList with
  | [] => false
  | cs => cs.all Char.isDigit && Decimal.natOfDigits cs < Decimal.wordBound

/-- A name of a value or a block; one that looks like a number is quoted. -/
def valueName (name : String) : String := if isNumeral name then quoted name else identifier name

def localName (name : String) : String := "%" ++ valueName name

/-- The name of a function or global. One without a name has the first number. -/
def globalName (name : String) : String := if name = "" then "@0" else "@" ++ valueName name

/-- The name of a function in messages. One that spells a number is shown as that number between quotes. -/
def shownName (name : String) : String :=
  if name = "" then "0"
  else
    match Decimal.readInt64? name with
    | some n => "\"" ++ toString n ++ "\""
    | none => name

mutual

def Ty.text : Ty → String
  | .void => "void"
  | .int bits => s!"i{bits}"
  | .double => "double"
  | .ptr target => target.text ++ "*"
  | .struct name => "%" ++ identifier name
  | .func ret params => ret.text ++ " (" ++ ", ".intercalate (textList params) ++ ")"
  | .bytes count => s!"[{count} x i8]"

def textList : List Ty → List String
  | [] => []
  | t :: ts => t.text :: textList ts

end

end TypedScript.Llvm
