/-!
# Reading numbers

A spelling is split into its digits, taken as one whole number, and a power of ten or of two; the floating-point
number nearest to the product is its value.
-/

namespace TypedScript.Decimal

/-- The number `digits · 10 ^ exponent`. -/
structure Scientific where
  digits : Nat
  exponent : Int
  deriving DecidableEq, Repr

/-- The value of a string of decimal digits. -/
def natOfDigits (cs : List Char) : Nat := cs.foldl (fun n c => n * 10 + (c.toNat - 48)) 0

/-- The value of one hexadecimal digit. -/
def hexValue? (c : Char) : Option Nat :=
  if c.isDigit then some (c.toNat - 48)
  else if 'a' ≤ c ∧ c ≤ 'f' then some (c.toNat - 87)
  else if 'A' ≤ c ∧ c ≤ 'F' then some (c.toNat - 55)
  else none

/-- The value of a non-empty string of hexadecimal digits. -/
def natOfHex? (cs : List Char) : Option Nat :=
  if cs.isEmpty then none else cs.foldlM (fun n c => (hexValue? c).map (n * 16 + ·)) 0

/-- The sign of a spelling, and the rest. -/
def splitSign (cs : List Char) : Bool × List Char :=
  match cs with
  | '-' :: r => (true, r)
  | '+' :: r => (false, r)
  | _ => (false, cs)

/-- The digits of an unsigned spelling, how many of them stand behind the point, and the exponent behind its mark
if there is one: digits with at most one point among them, at least one digit in all, and at least one in the
exponent. -/
def splitNumeral? (isDigit : Char → Bool) (mark : Char) (cs : List Char) : Option (List Char × Nat × Option Int) :=
  let whole := cs.takeWhile isDigit
  let rest := cs.dropWhile isDigit
  let (fraction, rest) := match rest with
    | '.' :: tail => (tail.takeWhile isDigit, tail.dropWhile isDigit)
    | _ => ([], rest)
  if whole.isEmpty && fraction.isEmpty then none
  else
    match rest with
    | [] => some (whole ++ fraction, fraction.length, none)
    | m :: tail =>
      if m.toLower ≠ mark then none
      else
        let (negative, tail) := splitSign tail
        if tail.isEmpty || !tail.all Char.isDigit then none
        else
          let e : Int := natOfDigits tail
          some (whole ++ fraction, fraction.length, some (if negative then -e else e))

/-- The digits and power of ten of an unsigned decimal spelling. -/
def readScientific? (cs : List Char) : Option Scientific :=
  (splitNumeral? Char.isDigit 'e' cs).map fun (digits, places, e) => ⟨natOfDigits digits, e.getD 0 - places⟩

/-- The number of decimal digits. -/
def digitCount (n : Nat) : Nat := (Nat.toDigits 10 n).length

/-- The floating-point number nearest to a decimal; infinite if it is too large. Decimals far beyond the range are
decided by their order of magnitude alone. -/
def Scientific.toFloat (s : Scientific) : Float :=
  let magnitude : Int := digitCount s.digits + s.exponent
  if s.digits = 0 ∨ magnitude < -400 then 0.0
  else if magnitude > 400 then 1.0 / 0.0
  else if s.exponent < 0 then Float.ofScientific s.digits true s.exponent.natAbs
  else Float.ofScientific s.digits false s.exponent.natAbs

/-- The floating-point number nearest to `n · 2 ^ exponent`; infinite if it is too large. -/
def ofBinary (n : Nat) (exponent : Int) : Float :=
  let magnitude : Int := n.log2 + exponent
  if n = 0 ∨ magnitude < -1200 then 0.0
  else if magnitude > 1200 then 1.0 / 0.0
  else if exponent < 0 then Float.ofScientific (n * Nat.pow 5 exponent.natAbs) true exponent.natAbs
  else Float.ofScientific (n * Nat.pow 2 exponent.natAbs) false 0

/-- The number that digits with base sixteen and a power of two spell; the power must be there. -/
def readBinary? (cs : List Char) : Option Float :=
  match splitNumeral? (fun c => (hexValue? c).isSome) 'p' cs with
  | some (digits, places, some e) => (natOfHex? digits).map (ofBinary · (e - 4 * places))
  | _ => none

/-- Whether every underscore stands between digits; `before` tells whether there is a digit, or what counts as
one, in front of the text. -/
def separatorsFit (isDigit : Char → Bool) (before : Bool) : List Char → Bool
  | [] => true
  | c :: rest =>
    if c = '_' then before && rest.head?.any isDigit && separatorsFit isDigit false rest
    else separatorsFit isDigit (isDigit c) rest

/-- The number that an unsigned spelling has, in decimal or, after `0x`, by a power of two. Underscores may divide
digits. -/
def readNumber? (cs : List Char) : Option Float :=
  let plain (cs : List Char) := cs.filter (· ≠ '_')
  let decimal := if separatorsFit Char.isDigit false cs then (readScientific? (plain cs)).map (·.toFloat) else none
  match cs with
  | '0' :: x :: rest =>
    if x.toLower ≠ 'x' then decimal
    else if separatorsFit (fun c => (hexValue? c).isSome) true rest then readBinary? (plain rest)
    else none
  | _ => decimal

/-- The least number that no signed integer of 64 bits reaches. -/
def int64Bound : Int := 9223372036854775808

/-- Whether a number is a signed integer of 64 bits. -/
def fitsInt64 (v : Int) : Bool := -int64Bound ≤ v ∧ v < int64Bound

/-- The least number that no word of 64 bits reaches. -/
def wordBound : Nat := 18446744073709551616

/-- The integer that is spelled, if it is one of 64 bits. -/
def readInt64? (s : String) : Option Int :=
  let (negative, digits) := splitSign s.toList
  if digits.isEmpty || !digits.all Char.isDigit then none
  else
    let v : Int := if negative then -natOfDigits digits else natOfDigits digits
    if fitsInt64 v then some v else none

/-- The 64-bit integer that is spelled, or the nearest one if it is out of range; zero if nothing is spelled. -/
def parseInt (s : String) : Int :=
  let (negative, digits) := splitSign s.toList
  if digits.isEmpty || !digits.all Char.isDigit then 0
  else
    let v : Int := natOfDigits digits
    if negative then max (-int64Bound) (-v) else min (int64Bound - 1) v

/-- The number that is spelled, by digits or by the name of an infinity or of no number; zero if nothing is
spelled. -/
def parse (s : String) : Float :=
  let (negative, body) := splitSign s.toList
  let sign (x : Float) : Float := if negative then -x else x
  let word := String.ofList (body.map Char.toLower)
  if word = "inf" ∨ word = "infinity" then sign (1.0 / 0.0)
  else if word = "nan" ∧ body.length = s.length then 0.0 / 0.0
  else
    match readNumber? body with
    | some x => sign x
    | none => 0.0

end TypedScript.Decimal
