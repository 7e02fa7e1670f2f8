/-!
# The text of a floating-point number

A finite double is `m · 2 ^ q`. Among the decimals that read back as it, the ones with the fewest digits are
sought, and of those the nearest is taken. The search is done in whole numbers: for 1, 2, … 17 digits the two
neighbours of the value on that decimal grid are compared with the ends of the interval of reals that round to the
value.

Numbers are written with these digits, positionally unless their order of magnitude is small or large.
-/

namespace TypedScript.Decimal

/-- The sign and the magnitude `mantissa · 2 ^ exponent` of a finite double, or its class. -/
inductive Binary where
  | nan
  | infinite (negative : Bool)
  | finite (negative : Bool) (mantissa : Nat) (exponent : Int)
  deriving DecidableEq, Repr

/-- Takes the bits of a double apart. -/
def Binary.ofBits (bits : UInt64) : Binary :=
  let n := bits.toNat
  let negative := n / Nat.pow 2 63 = 1
  let e : Nat := n / Nat.pow 2 52 % 2048
  let f : Nat := n % Nat.pow 2 52
  if e = 2047 then if f = 0 then .infinite negative else .nan
  else if e = 0 then .finite negative f (-1074)
  else .finite negative (f + Nat.pow 2 52) ((e : Int) - 1075)

/-- Significant digits, the first not zero, and the power of ten of the first: `d.ddd · 10 ^ exponent`. -/
structure Digits where
  digits : List Nat
  exponent : Int
  deriving DecidableEq, Repr

/-- The digits of `n`, most significant first, without the zeros at the end. -/
def trimmedDigits (n : Nat) : List Nat :=
  (((Nat.toDigits 10 n).map fun c => c.toNat - 48).reverse.dropWhile (· = 0)).reverse

/-- A positive rational `num / den` with the ends of an interval around it, on one denominator; `closed` says
whether the ends belong to it. -/
structure Window where
  low : Nat
  num : Nat
  high : Nat
  den : Nat
  closed : Bool

/-- The reals that round to `mantissa · 2 ^ exponent`: halfway to the neighbours, which below a power of two is
half as far. -/
def Window.ofBinary (mantissa : Nat) (exponent : Int) : Window :=
  let narrow := mantissa = Nat.pow 2 52 ∧ exponent > -1074
  let num := mantissa * 4
  let low := if narrow then num - 1 else num - 2
  let high := num + 2
  let e := exponent - 2
  let closed := mantissa % 2 = 0
  let scale := Nat.pow 2 e.natAbs
  if e ≥ 0 then ⟨low * scale, num * scale, high * scale, 1, closed⟩ else ⟨low, num, high, scale, closed⟩

/-- Whether the integer `k` lies in the window. -/
def Window.contains (w : Window) (k : Nat) : Bool :=
  let v := k * w.den
  if w.closed then w.low ≤ v && v ≤ w.high else w.low < v && v < w.high

/-- The window in units of `10 ^ unit`. -/
def Window.inUnits (w : Window) (unit : Int) : Window :=
  if unit ≥ 0 then { w with den := w.den * Nat.pow 10 unit.toNat }
  else
    let s := Nat.pow 10 unit.natAbs
    { w with low := w.low * s, num := w.num * s, high := w.high * s }

/-- The integer in the window nearest to its middle, if one of the middle's two neighbours is in it. -/
def Window.nearest? (w : Window) : Option Nat :=
  let below := w.num / w.den
  let above := below + 1
  match w.contains below, w.contains above with
  | true, true =>
    let twice := 2 * w.num
    let mid := (2 * below + 1) * w.den
    if twice < mid then some below
    else if twice > mid then some above
    else if below % 2 = 0 then some below else some above
  | true, false => some below
  | false, true => some above
  | false, false => none

/-- The power of ten of the first digit of `num / den`. -/
def orderOfMagnitude (num den : Nat) : Int :=
  if num ≥ den then (Nat.toDigits 10 (num / den)).length - 1
  else
    -- the quotient of the denominator by the numerator, rounded up, has one digit more than the leading zeros
    -((Nat.toDigits 10 ((den + num - 1) / num - 1)).length : Int)

/-- Tries `count`, `count + 1`, … digits, `fuel` times. -/
def Window.shortestFrom (w : Window) (order : Int) : Nat → Nat → Option Nat × Int
  | 0, _ => (none, 0)
  | fuel + 1, count =>
    let unit := order - (count - 1 : Nat)
    match (w.inUnits unit).nearest? with
    | some k => if k = 0 then w.shortestFrom order fuel (count + 1) else (some k, unit)
    | none => w.shortestFrom order fuel (count + 1)

/-- The fewest digits that read back as `mantissa · 2 ^ exponent`, and the nearest such. -/
def shortest (mantissa : Nat) (exponent : Int) : Digits :=
  if mantissa = 0 then ⟨[0], 0⟩
  else
    let w := Window.ofBinary mantissa exponent
    let order := orderOfMagnitude w.num w.den
    match w.shortestFrom order 18 1 with
    | (some k, unit) => ⟨trimmedDigits k, unit + ((Nat.toDigits 10 k).length - 1 : Nat)⟩
    | (none, _) => ⟨[0], 0⟩

/-! ### Positions and exponents -/

/-- From which orders of magnitude on a number is written with an exponent. -/
structure Layout where
  /-- The least order written positionally. -/
  least : Int
  /-- The least order above it that is not. -/
  beyond : Int

/-- Numbers from 0.0001 to below 1000000 are written positionally. -/
def general : Layout := ⟨-4, 6⟩

def digitChars (ds : List Nat) : List Char := ds.map fun d => Char.ofNat (48 + d)

/-- An exponent with its sign and at least two digits. -/
def exponentText (e : Int) : String :=
  let digits := toString e.natAbs
  "e" ++ (if e < 0 then "-" else "+") ++ (if digits.length < 2 then "0" ++ digits else digits)

/-- The digits written out, with an exponent or positionally. -/
def Digits.text (layout : Layout) (d : Digits) : String :=
  let chars := digitChars d.digits
  if d.exponent < layout.least ∨ layout.beyond ≤ d.exponent then
    let fraction := chars.drop 1
    String.ofList (chars.take 1 ++ if fraction.isEmpty then [] else '.' :: fraction) ++ exponentText d.exponent
  else if d.exponent < 0 then
    "0." ++ String.ofList (List.replicate (d.exponent.natAbs - 1) '0' ++ chars)
  else
    let whole := d.exponent.toNat + 1
    let fraction := chars.drop whole
    let padded := chars.take whole ++ List.replicate (whole - chars.length) '0'
    String.ofList (padded ++ if fraction.isEmpty then [] else '.' :: fraction)

/-- The text of a double given by its bits. -/
def textOfBits (layout : Layout) (bits : UInt64) : String :=
  match Binary.ofBits bits with
  | .nan => "NaN"
  | .infinite negative => if negative then "-Inf" else "+Inf"
  | .finite negative mantissa exponent =>
    (if negative then "-" else "") ++ (shortest mantissa exponent).text layout

/-- The text of a number. -/
def text (x : Float) : String := textOfBits general x.toBits

end TypedScript.Decimal
