import TypedScript.Decimal.Text
import TypedScript.Llvm.Type

/-!
# LLVM values

Casts of constants are constants. Instructions number their results in the order of the text, so a result is known
by a key until the function is written.
-/

namespace TypedScript.Llvm

open TypedScript.Decimal

inductive Const where
  | int (bits : Nat) (value : Int)
  | double (value : Float)
  | null
  /-- The bytes of a text, with a zero byte at the end. -/
  | text (index count : Nat)
  | function (name : String) (ret : Ty) (params : List Ty)
  | cast (c : Const) (target : Ty)
  deriving Inhabited, Repr

def Const.type : Const → Ty
  | int bits _ => .int bits
  | double _ => .double
  | null => .bytePtr
  | text _ count => .ptr (.bytes count)
  | function _ ret params => .ptr (.func ret params)
  | cast _ target => target

inductive Val where
  /-- The result of an instruction. -/
  | result (key : Nat) (type : Ty)
  | param (name : String) (type : Ty)
  | const (c : Const)
  deriving Inhabited, Repr

def Val.type : Val → Ty
  | result _ t | param _ t => t
  | const c => c.type

/-! ### Numbers -/

/-- The part of the digits that are different. -/
def entropy (base : Nat) (digits : List Char) : Float :=
  Float.ofNat digits.eraseDups.length / Float.ofNat (min digits.length base)

/-- How many different digits a hexadecimal number may have to be preferred, by its length. -/
def fewDigits (length : Nat) : Nat := if length ≤ 6 then 2 else if length ≤ 10 then 3 else 4

def upperHex (n : Nat) : List Char := (Nat.toDigits 16 n).map Char.toUpper

/-- Whether a large number reads better in hexadecimal: it then has few different digits, and in decimal many. -/
def prefersHex (n : Nat) : Bool :=
  let hex := upperHex n
  let length := min hex.length 16
  let hexEntropy := entropy 16 hex
  n ≥ 4096 && hexEntropy ≤ Float.ofNat (fewDigits length) / Float.ofNat length + 0.01
    && entropy 10 (Nat.toDigits 10 n) ≥ hexEntropy + 0.2

def intText (v : Int) : String :=
  match v with
  | .ofNat n => if prefersHex n then "u0x" ++ String.ofList (upperHex n) else toString n
  | v => toString v

/-- Whether the shortest decimal of a finite double is the double itself, not only nearest to it. -/
def isExact (mantissa : Nat) (exponent : Int) : Bool :=
  let d := shortest mantissa exponent
  let n := d.digits.foldl (fun n x => n * 10 + x) 0
  let e := d.exponent - (d.digits.length - 1 : Nat)
  let lhs := mantissa * Nat.pow 2 exponent.toNat * Nat.pow 10 (-e).toNat
  let rhs := n * Nat.pow 10 e.toNat * Nat.pow 2 (-exponent).toNat
  lhs = rhs

/-- Puts a point into a decimal that has none, in front of the exponent. -/
def withPoint (s : String) : String :=
  let cs := s.toList
  if cs.contains '.' then s
  else String.ofList (cs.takeWhile (· ≠ 'e') ++ ['.', '0'] ++ cs.dropWhile (· ≠ 'e'))

/-- A double: in decimal if that is exact, and else by its bits. -/
def doubleText (v : Float) : String :=
  let bits := "0x" ++ String.ofList (upperHex v.toBits.toNat)
  match Binary.ofBits v.toBits with
  | .nan => "0x7FF8000000000000"
  | .infinite _ => bits
  | .finite _ m e => if isExact m e then withPoint (Decimal.text v) else bits

/-! ### Text of values -/

/-- The name or the digits of a constant. A one-bit integer has to be zero or one. -/
def Const.ident : Const → Except String String
  | int 1 v =>
    if v = 0 then .ok "false"
    else if v = 1 then .ok "true"
    else .error s!"invalid integer value of boolean type; expected 0 or 1, got {v}"
  | int _ v => .ok (intText v)
  | double v => .ok (doubleText v)
  | null => .ok "null"
  | text index _ => .ok s!"@.str.{index}"
  | function name .. => .ok (globalName name)
  | cast c target =>
    let inner := match c.ident with
      | .ok s => c.type.text ++ " " ++ s
      | .error m => "%!s(PANIC=String method: " ++ m ++ ")"
    .ok ("bitcast (" ++ inner ++ " to " ++ target.text ++ ")")

/-- The name or the digits of a value; `number` gives the numbers of results. -/
def Val.ident (number : Nat → Nat) : Val → Except String String
  | result key _ => .ok s!"%{number key}"
  | param name _ => .ok (localName name)
  | const c => c.ident

/-- A value with its type. A constant that cannot be written is told in its place. -/
def Val.typed (number : Nat → Nat) (v : Val) : String :=
  match v.ident number with
  | .ok s => v.type.text ++ " " ++ s
  | .error m => "%!s(PANIC=String method: " ++ m ++ ")"

end TypedScript.Llvm
