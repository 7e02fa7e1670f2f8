import TypedScript.Decimal.Reading
import TypedScript.Decimal.Text
import TypedScript.Text.Blank
import TypedScript.Text.Quoted

/-!
# Machine values

A value is one word that knows its kind. Pointers know what they point to, so that every misuse can be told. A run
that goes wrong ends with a code, a message and the functions that were active.
-/

namespace TypedScript.Machine

/-- What a pointer points to. Objects are numbered from one, stack cells from zero. -/
inductive Ptr where
  | null
  /-- The start of a heap object. -/
  | object (id : Nat)
  /-- A slot of a heap object. -/
  | field (id slot : Nat)
  /-- A stack cell. -/
  | stack (cell : Nat)
  /-- A function. -/
  | code (function : String)
  /-- A slot counted from a function. Only the slot of the tag can be read, as zero. -/
  | codeField (function : String) (slot : Nat)
  /-- Immutable bytes. -/
  | string (value : String)
  deriving DecidableEq, Inhabited, Repr

def Ptr.text : Ptr → String
  | null => "null"
  | object id => s!"obj#{id}"
  | field id slot => s!"obj#{id}[{slot}]"
  | stack _ => "stack"
  | code f | codeField f _ => "@" ++ f
  | string v => v

/-- One word. -/
inductive Value where
  /-- What was never stored, and the result of a call without one. -/
  | invalid
  | int (v : Int)
  | bool (v : Bool)
  | float (v : Float)
  | ptr (p : Ptr)
  deriving Inhabited, Repr

namespace Value

def null : Value := ptr .null

def kindName : Value → String
  | invalid => "invalid"
  | int _ => "int"
  | bool _ => "bool"
  | float _ => "float"
  | ptr _ => "ptr"

def isInvalid : Value → Bool
  | invalid => true
  | _ => false

/-- The text that printing a value shows. -/
def format : Value → String
  | invalid => "<invalid>"
  | int v => toString v
  | bool v => if v then "true" else "false"
  | float v => Decimal.text v
  | ptr p => p.text

/-- The text that messages show: strings are quoted. -/
def text : Value → String
  | ptr (.string v) => Text.quote v
  | v => v.format

/-- The value that is spelled after its kind, as in `int:7` or `str:text`; null for all other words but `invalid`.
-/
def ofWord (word : String) : Value :=
  match Text.after? "int:" word, Text.after? "float:" word, Text.after? "bool:" word, Text.after? "str:" word with
  | some v, _, _, _ => int (Decimal.parseInt v)
  | _, some v, _, _ => float (Decimal.parse v)
  | _, _, some v, _ => bool (v = "true")
  | _, _, _, some v => ptr (.string v)
  | _, _, _, _ => if word = "invalid" then invalid else null

/-- Whether two words are equal. Different kinds are never equal, and neither are two NaNs. -/
def same : Value → Value → Bool
  | invalid, invalid => true
  | int a, int b => a = b
  | bool a, bool b => a = b
  | float a, float b => a == b
  | ptr a, ptr b => a = b
  | _, _ => false

end Value

/-! ### Failures -/

inductive FailureCode where
  /-- A slot was read before anything was stored there. -/
  | useBeforeInit
  | typeMismatch
  | nullDeref
  /-- The host does not provide the function, or it failed. -/
  | unknownHost
  | useAfterRelease
  | doubleRelease
  /-- An object with owners was given back. -/
  | releasedLive
  | invalidPointer
  /-- Objects were never given back. -/
  | leak
  | divisionByZero
  | stepLimit
  | malformed
  /-- A register was read that its function does not have. This ends the machine itself and not only the run. -/
  | crash
  deriving DecidableEq, Inhabited, Repr

/-- The number of a code; a crash has none. -/
def FailureCode.number : FailureCode → Nat
  | useBeforeInit => 1001
  | typeMismatch => 1003
  | nullDeref => 1004
  | unknownHost => 1005
  | useAfterRelease => 1101
  | doubleRelease => 1102
  | releasedLive => 1103
  | invalidPointer => 1104
  | leak => 1105
  | divisionByZero => 1201
  | stepLimit => 1202
  | malformed => 1999
  | crash => 0

def FailureCode.text (c : FailureCode) : String := s!"VM{c.number}"

structure Failure where
  code : FailureCode
  message : String
  /-- The active functions, innermost first. -/
  backtrace : List String := []
  deriving Inhabited, Repr

namespace Failure

def text (f : Failure) : String := s!"panic {f.code.text}: {f.message}"

/-- The failure with its backtrace. -/
def format (f : Failure) : String :=
  let calls := f.backtrace.zipIdx.map fun (name, i) => s!"  {i}: {name}\n"
  f.text ++ "\n" ++ if calls.isEmpty then "" else "backtrace:\n" ++ String.join calls

end Failure

end TypedScript.Machine
