import TypedScript.Decimal.Reading
import TypedScript.Text.Quoted
import TypedScript.Text.Utf8

/-!
# Values of flags

A flag takes a text, a truth value, an integer or a duration. Every kind has its own spelling, and its own words
for a spelling that is wrong.

* Integers are decimal unless they begin with `0x`, `0o`, `0b` or another `0`, which stands for octal. Underscores
  may separate digits.
* Durations are numbers with units, one after another, such as `1m30.5s`.
-/

namespace TypedScript.Cli

inductive Value where
  | text (s : String)
  | bool (v : Bool)
  | integer (n : Int)
  /-- A duration in nanoseconds. -/
  | duration (nanos : Int)
  deriving DecidableEq, Inhabited, Repr

/-! ### Integers -/

/-- What is wrong with the spelling of a number. -/
inductive NumberError where
  | malformed
  | outOfRange
  deriving DecidableEq, Repr

def NumberError.text : NumberError → String
  | malformed => "invalid syntax"
  | outOfRange => "value out of range"

/-- The base that digits are in, and the digits. -/
def splitBase (cs : List Char) : Nat × List Char :=
  match cs with
  | '0' :: rest =>
    match rest with
    | c :: d :: more =>
      match c.toLower with
      | 'b' => (2, d :: more)
      | 'o' => (8, d :: more)
      | 'x' => (16, d :: more)
      | _ => (8, rest)
    | _ => (8, rest)
  | _ => (10, cs)

/-- The value of a digit, letters standing for ten and more. -/
def digitValue? (c : Char) : Option Nat :=
  if c.isDigit then some (c.toNat - 48)
  else if c.isAlpha then some (c.toLower.toNat - 87)
  else none

/-- Reads digits after others. Too large a number ends the reading, whatever follows. -/
def readDigits (base : Nat) : Nat → List Char → Except NumberError Nat
  | n, [] => .ok n
  | n, '_' :: rest => readDigits base n rest
  | n, c :: rest =>
    match digitValue? c with
    | none => .error .malformed
    | some d =>
      if d ≥ base then .error .malformed
      else if n * base + d ≥ Decimal.wordBound then .error .outOfRange
      else readDigits base (n * base + d) rest

/-- Whether every underscore stands between digits; `afterDigit` tells whether a digit precedes. -/
def underscoresSeparate (afterDigit : Bool) : List Char → Bool
  | [] => true
  | ['_'] => false
  | '_' :: c :: rest => afterDigit && c ≠ '_' && underscoresSeparate true rest
  | _ :: rest => underscoresSeparate true rest

/-- Reads an integer of 64 bits. -/
def readInteger (s : String) : Except NumberError Int := do
  let (negative, cs) := Decimal.splitSign s.toList
  if cs.isEmpty then throw .malformed
  let (base, digits) := splitBase cs
  let n ← readDigits base 0 digits
  -- a mark of the base counts as a digit
  if !underscoresSeparate (base ≠ 10) digits then throw .malformed
  let v : Int := if negative then -n else n
  if Decimal.fitsInt64 v then return v else throw .outOfRange

/-! ### Truth values -/

def readBool? (s : String) : Option Bool :=
  if ["1", "t", "T", "TRUE", "true", "True"].contains s then some true
  else if ["0", "f", "F", "FALSE", "false", "False"].contains s then some false
  else none

/-! ### Durations -/

/-- What is wrong with the spelling of a duration. -/
inductive DurationError where
  | malformed
  | missingUnit
  | unknownUnit (u : String)
  deriving DecidableEq, Repr

/-- A text in quotes, with everything beyond ASCII as bytes. -/
def quoteBytes (s : String) : String :=
  let char (c : Char) : List Char :=
    if c = '"' || c = '\\' then ['\\', c]
    else if c.toNat < 0x20 || c.toNat ≥ 0x80 then
      (Text.encodeChar c).flatMap fun b => '\\' :: 'x' :: Text.hexPadded 2 b.toNat
    else [c]
  String.ofList ('"' :: s.toList.flatMap char ++ ['"'])

def DurationError.text (spelling : String) : DurationError → String
  | malformed => "time: invalid duration " ++ quoteBytes spelling
  | missingUnit => "time: missing unit in duration " ++ quoteBytes spelling
  | unknownUnit u => "time: unknown unit " ++ quoteBytes u ++ " in duration " ++ quoteBytes spelling

/-- The units in nanoseconds. The micro sign and the Greek letter are both in use. -/
def units : List (String × Nat) :=
  [("ns", 1), ("us", 1000), ("µs", 1000), ("μs", 1000), ("ms", 1000000), ("s", 1000000000),
    ("m", 60 * 1000000000), ("h", 3600 * 1000000000)]

/-- The longest duration. -/
def longestDuration : Nat := Nat.pow 2 63

/-- Whether a character belongs to a number rather than to a unit. -/
def isNumeral (c : Char) : Bool := c = '.' || c.isDigit

/-- Reads one number with its unit, and gives what follows. -/
def readComponent (cs : List Char) : Except DurationError (Nat × List Char) := do
  let whole := cs.takeWhile Char.isDigit
  let rest := cs.dropWhile Char.isDigit
  if Decimal.natOfDigits whole > longestDuration then throw .malformed
  let (fraction, rest) := match rest with
    | '.' :: r => (r.takeWhile Char.isDigit, r.dropWhile Char.isDigit)
    | _ => ([], rest)
  if whole.isEmpty && fraction.isEmpty then throw .malformed
  let u := String.ofList (rest.takeWhile fun c => !isNumeral c)
  if u = "" then throw .missingUnit
  let some unit := units.lookup u | throw (.unknownUnit u)
  let nanos := Decimal.natOfDigits whole * unit + Decimal.natOfDigits fraction * unit / Nat.pow 10 fraction.length
  if nanos > longestDuration then throw .malformed
  return (nanos, rest.dropWhile fun c => !isNumeral c)

/-- Reads the numbers with their units; `total` is the sum of those before. The fuel bounds their number. -/
def readComponents : Nat → Nat → List Char → Except DurationError Nat
  | _, total, [] => .ok total
  | 0, _, _ => .error .malformed
  | fuel + 1, total, cs => do
    let (nanos, rest) ← readComponent cs
    if total + nanos > longestDuration then throw .malformed
    readComponents fuel (total + nanos) rest

/-- Reads a duration. Zero needs no unit. -/
def readDuration (s : String) : Except DurationError Int := do
  let (negative, cs) := Decimal.splitSign s.toList
  if cs = ['0'] then return 0
  if cs.isEmpty then throw .malformed
  let total ← readComponents cs.length 0 cs
  if negative then return -total
  if total < longestDuration then return total else throw .malformed

/-! ### Values -/

/-- Reads a value of the same kind as another. -/
def Value.read (like : Value) (s : String) : Except String Value :=
  match like with
  | text _ => .ok (text s)
  | bool _ =>
    match readBool? s with
    | some v => .ok (bool v)
    | none => .error ("strconv.ParseBool: parsing " ++ Text.quote s ++ ": " ++ NumberError.malformed.text)
  | integer _ =>
    match readInteger s with
    | .ok n => .ok (integer n)
    | .error e => .error ("strconv.ParseInt: parsing " ++ Text.quote s ++ ": " ++ e.text)
  | duration _ =>
    match readDuration s with
    | .ok n => .ok (duration n)
    | .error e => .error (e.text s)

end TypedScript.Cli
