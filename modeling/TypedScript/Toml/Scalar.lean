import TypedScript.Decimal.Reading

/-!
# TOML scalars

Strings, numbers, and dates and times. The functions that read from a text give what they read and the rest of it,
or nothing if the text is not well formed.
-/

namespace TypedScript.Toml

open TypedScript.Decimal

/-- Whether the character separates words within a line. -/
def isGap (c : Char) : Bool := c = ' ' || c = '\t'

def isLineEnd (c : Char) : Bool := c = '\n' || c = '\r'

/-! ### Strings -/

/-- The character with the given number, if it is one. -/
def scalar? (n : Nat) : Option Char := if h : n.isValidChar then some (Char.ofNatAux n h) else none

/-- The character that an escape sequence stands for, behind its backslash. -/
def readEscape : List Char → Option (Char × List Char)
  | 'b' :: r => some (Char.ofNat 8, r)
  | 't' :: r => some ('\t', r)
  | 'n' :: r => some ('\n', r)
  | 'f' :: r => some (Char.ofNat 12, r)
  | 'r' :: r => some ('\r', r)
  | '"' :: r => some ('"', r)
  | '\\' :: r => some ('\\', r)
  | 'u' :: r => code 4 r
  | 'U' :: r => code 8 r
  | _ => none
where
  code (digits : Nat) (r : List Char) : Option (Char × List Char) := do
    if r.length < digits then none
    let n ← natOfHex? (r.take digits)
    return (← scalar? n, r.drop digits)

/-- The rest of a string up to its closing quote. -/
def readBasic : Nat → List Char → Option (List Char × List Char)
  | 0, _ => none
  | fuel + 1, cs =>
    match cs with
    | [] => none
    | '"' :: r => some ([], r)
    | '\\' :: r => do
      let (c, r) ← readEscape r
      let (s, r) ← readBasic fuel r
      return (c :: s, r)
    | c :: r =>
      if isLineEnd c then none
      else do
        let (s, r) ← readBasic fuel r
        return (c :: s, r)

/-- The rest of a string without escapes up to its closing quote. -/
def readLiteral : List Char → Option (List Char × List Char)
  | [] => none
  | '\'' :: r => some ([], r)
  | c :: r =>
    if isLineEnd c then none
    else do
      let (s, r) ← readLiteral r
      return (c :: s, r)

/-- How many quotes of a kind a text starts with. -/
def quoteRun (q : Char) (cs : List Char) : Nat := (cs.takeWhile (· = q)).length

/-- The rest of a string over several lines. Up to two quotes may stand right before the three that close it, and
a third one if there is an escaped backslash in front of them. A backslash at the end of a line removes the blanks
and line ends behind it. -/
def readLines (q : Char) (escapes : Bool) : Nat → Bool → List Char → Option (List Char × List Char)
  | 0, _, _ => none
  | fuel + 1, behindBackslash, cs =>
    match cs with
    | [] => none
    | c :: r =>
      if c = q then
        let run := quoteRun q cs
        if run > (if behindBackslash then 6 else 5) then none
        else if run ≥ 3 then some (List.replicate (run - 3) q, cs.drop run)
        else do
          let (s, rest) ← readLines q escapes fuel false (cs.drop run)
          return (List.replicate run q ++ s, rest)
      else if escapes && c = '\\' then
        let blanks := r.takeWhile fun c => isGap c || isLineEnd c
        if blanks.contains '\n' then readLines q escapes fuel false (r.drop blanks.length)
        else do
          let (c, rest) ← readEscape r
          let (s, rest) ← readLines q escapes fuel (r.head? = some '\\') rest
          return (c :: s, rest)
      else do
        let (s, r) ← readLines q escapes fuel false r
        return (c :: s, r)

/-- A line end right behind the opening quotes does not count. -/
def dropFirstLineEnd : List Char → List Char
  | '\n' :: r => r
  | '\r' :: '\n' :: r => r
  | cs => cs

/-- A string that starts with a quote. -/
def readString (cs : List Char) : Option (String × List Char) := do
  let (s, r) ← match cs with
    | '"' :: '"' :: '"' :: r => readLines '"' true (r.length + 1) false (dropFirstLineEnd r)
    | '\'' :: '\'' :: '\'' :: r => readLines '\'' false (r.length + 1) false (dropFirstLineEnd r)
    | '"' :: r => readBasic (r.length + 1) r
    | '\'' :: r => readLiteral r
    | _ => none
  return (String.ofList s, r)

/-! ### Numbers -/

def isHexDigit (c : Char) : Bool := (hexValue? c).isSome

/-- Whether every underscore stands between digits, the last of which ends the word. -/
def underscoresOk (word : List Char) : Bool :=
  let ok := word.foldl (fun (s : Bool × Bool) c => (s.1 && (c ≠ '_' || s.2), isHexDigit c)) (true, false)
  ok.1 && ok.2

/-- Whether a number starts with a zero that does not count. -/
def hasLeadingZero (word : List Char) : Bool :=
  match word with
  | '0' :: c :: _ => !(c = 'b' || c = 'o' || c = 'x')
  | '-' :: '0' :: _ :: _ | '+' :: '0' :: _ :: _ => true
  | _ => false

/-- The value of digits of a base. -/
def natOfBase? (base : Nat) (cs : List Char) : Option Nat :=
  if cs.isEmpty then none
  else cs.foldlM (fun n c => (hexValue? c).bind fun d => if d < base then some (n * base + d) else none) 0

/-- The 64-bit integer that a word spells. -/
def integerOf? (word : List Char) : Option Int := do
  if !underscoresOk word || hasLeadingZero word then none
  let (negative, digits) := splitSign (word.filter (· ≠ '_'))
  let n ← match digits with
    | '0' :: 'x' :: r => natOfBase? 16 r
    | '0' :: 'o' :: r => natOfBase? 8 r
    | '0' :: 'b' :: r => natOfBase? 2 r
    | r => natOfBase? 10 r
  let v : Int := if negative then -n else n
  if Decimal.fitsInt64 v then some v else none

/-- The pieces of a word between the characters that satisfy a condition; empty pieces do not count. -/
def pieces (p : Char → Bool) (word : List Char) : List (List Char) :=
  let split := word.foldr (fun c (acc : List (List Char)) => if p c then [] :: acc else match acc with
    | [] => [[c]]
    | w :: ws => (c :: w) :: ws) [[]]
  split.filter (!·.isEmpty)

/-- Whether every point is followed by a digit. -/
def pointsOk : List Char → Bool
  | [] => true
  | ['.'] => false
  | '.' :: c :: r => c.isDigit && pointsOk (c :: r)
  | _ :: r => pointsOk r

/-- Whether a word spells a floating-point number that is not too large. -/
def isFloat (word : List Char) : Bool :=
  let parts := pieces (fun c => c = '.' || c = 'e' || c = 'E') word
  let plain := (splitSign (word.filter (· ≠ '_'))).2
  parts.all underscoresOk && !hasLeadingZero (parts.headD []) && pointsOk word
    && (readScientific? plain).any fun d => d.toFloat.isFinite

/-! ### Dates and times -/

/-- Exactly `n` digits. -/
def readDigits (n : Nat) (cs : List Char) : Option (Nat × List Char) :=
  let ds := cs.take n
  if ds.length = n && ds.all Char.isDigit then some (natOfDigits ds, cs.drop n) else none

def expectChar (c : Char) : List Char → Option (List Char)
  | d :: r => if c = d then some r else none
  | [] => none

def isLeapYear (year : Nat) : Bool := year % 4 = 0 && (year % 100 ≠ 0 || year % 400 = 0)

def daysIn (year month : Nat) : Nat :=
  if month = 2 then if isLeapYear year then 29 else 28
  else if [4, 6, 9, 11].contains month then 30 else 31

/-- A date of the calendar. -/
def readDate (cs : List Char) : Option (List Char) := do
  let (year, cs) ← readDigits 4 cs
  let (month, cs) ← readDigits 2 (← expectChar '-' cs)
  let (day, cs) ← readDigits 2 (← expectChar '-' cs)
  if 1 ≤ month && month ≤ 12 && 1 ≤ day && day ≤ daysIn year month then some cs else none

/-- A time of the day, with any number of places for the seconds. The hour may have one digit. -/
def readTime (cs : List Char) : Option (List Char) := do
  let (hour, cs) ← readDigits (if (cs.drop 1).head?.any Char.isDigit then 2 else 1) cs
  let (minute, cs) ← readDigits 2 (← expectChar ':' cs)
  let (second, cs) ← readDigits 2 (← expectChar ':' cs)
  if hour ≥ 24 || minute ≥ 60 || second ≥ 60 then none
  return match cs with
    | '.' :: d :: r => if d.isDigit then r.dropWhile Char.isDigit else cs
    | cs => cs

/-- The difference from universal time. -/
def readZone (cs : List Char) : Option (List Char) :=
  match cs with
  | 'Z' :: r => some r
  | c :: r => do
    if c ≠ '+' && c ≠ '-' then none
    let (hour, r) ← readDigits 2 r
    let (minute, r) ← readDigits 2 (← expectChar ':' r)
    if hour ≤ 24 && minute ≤ 60 then some r else none
  | [] => none

/-- Whether a word is a date, a time, or both, perhaps with a zone. -/
def isMoment (word : List Char) : Bool :=
  let word := word.map fun c => if c = 'z' then 'Z' else if c = 't' || c = ' ' then 'T' else c
  let whole (r : Option (List Char)) : Bool := r = some []
  whole (readTime word) || whole (readDate word) ||
    (((readDate word).bind (expectChar 'T')).bind readTime).any fun r => r.isEmpty || whole (readZone r)

end TypedScript.Toml
