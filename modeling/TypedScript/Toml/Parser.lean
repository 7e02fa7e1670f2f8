import TypedScript.Text.Category
import TypedScript.Text.Utf8
import TypedScript.Toml.Document
import TypedScript.Toml.Scalar

/-!
# Reading TOML

A document is read from its first character to its last. There is no telling why a text is not a document.
-/

namespace TypedScript.Toml

/-- The text that is left, and what has been read. -/
structure Source where
  rest : List Char
  document : Document := {}

abbrev ReadM := StateT Source Option

namespace Source

def peek : ReadM (Option Char) := return (← get).rest.head?

/-- Replaces the text that is left. -/
def setRest (rest : List Char) : ReadM Unit := modify fun s => { s with rest }

def skipWhile (p : Char → Bool) : ReadM Unit := do setRest ((← get).rest.dropWhile p)

/-- Takes characters as long as they satisfy a condition. -/
def takeWhile (p : Char → Bool) : ReadM (List Char) := do
  let cs := (← get).rest
  setRest (cs.dropWhile p)
  return cs.takeWhile p

/-- Takes the given character. -/
def expect (c : Char) : ReadM Unit := do
  match (← get).rest with
  | d :: rest => if c = d then setRest rest else failure
  | [] => failure

/-- Reads with a function on texts. -/
def read {α : Type} (f : List Char → Option (α × List Char)) : ReadM α := do
  let (a, rest) ← f (← get).rest
  setRest rest
  return a

/-- Changes the document. -/
def update (f : Document → Option Document) : ReadM Unit := do
  let s ← get
  set { s with document := ← f s.document }

/-! ### Keys -/

/-- One name of a key. -/
def name : ReadM String := do
  match ← peek with
  | some '"' =>
    expect '"'
    return String.ofList (← read fun cs => readBasic (cs.length + 1) cs)
  | some '\'' =>
    expect '\''
    return String.ofList (← read readLiteral)
  | _ =>
    let cs ← takeWhile isBareChar
    if cs.isEmpty then failure
    return String.ofList cs

/-- The names of a key with points between them, and the blanks behind it. -/
def path : Nat → ReadM Key
  | 0 => failure
  | fuel + 1 => do
    skipWhile isGap
    let first ← name
    skipWhile isGap
    if (← peek) = some '.' then
      expect '.'
      return first :: (← path fuel)
    return [first]

/-- A key with at most as many names as there are characters left. -/
def key : ReadM Key := do path ((← get).rest.length + 1)

/-! ### Values -/

/-- An integer with the mark of its base in front. -/
def basedInteger (base : Nat) : ReadM Value := do
  let isDigitOf (c : Char) : Bool := (Decimal.hexValue? c).any (· < base)
  let mark := (← get).rest.take 2
  setRest ((← get).rest.drop 2)
  if !(← peek).any isDigitOf then failure
  let digits ← takeWhile fun c => isDigitOf c || c = '_'
  return .integer (← integerOf? (mark ++ digits))

/-- Whether the character may stand in a date or time. -/
def isMomentChar (c : Char) : Bool :=
  c.isDigit || c = '-' || c = ':' || c = 'T' || c = 't' || c = ' ' || c = '.' || c = 'Z' || c = 'z' || c = '+'

/-- A decimal number or, if there is no sign in front, a date or time. -/
def decimal (sign : List Char) : ReadM Value := do
  let lead ← takeWhile Char.isDigit
  if lead.isEmpty then failure
  let next ← peek
  if sign.isEmpty && lead ≠ ['0'] && (next = some '-' || next = some ':') then
    let word := lead ++ (← takeWhile isMomentChar)
    if isMoment (word.reverse.dropWhile (· = ' ')).reverse then return .moment else failure
  let whole := sign ++ lead ++ (← takeWhile fun c => c.isDigit || c = '_')
  match ← peek with
  | some '.' | some 'e' | some 'E' =>
    let tail ← takeWhile fun c => c.isDigit || c = '_' || c = '.' || c = '-' || c = '+' || c = 'e' || c = 'E'
    if isFloat (whole ++ tail) then return .float else failure
  | _ => return .integer (← integerOf? whole)

/-- A number or date. -/
def number : ReadM Value := do
  match (← get).rest with
  | '0' :: 'x' :: _ => basedInteger 16
  | '0' :: 'o' :: _ => basedInteger 8
  | '0' :: 'b' :: _ => basedInteger 2
  | c :: rest =>
    if c ≠ '+' && c ≠ '-' then decimal []
    else do
      setRest rest
      match rest with
      | 'i' :: 'n' :: 'f' :: r | 'n' :: 'a' :: 'n' :: r =>
        setRest r
        return .float
      | _ => decimal [c]
  | [] => failure

/-- A word: true, false, infinity or no number. -/
def word : ReadM Value := do
  match (← get).rest with
  | 'i' :: 'n' :: 'f' :: r | 'n' :: 'a' :: 'n' :: r =>
    setRest r
    return .float
  | _ =>
    match String.ofList (← takeWhile Text.isLetter) with
    | "true" => return .boolean true
    | "false" => return .boolean false
    | _ => failure

/-- Skips blanks, line ends and comments. -/
def skipLines : Nat → ReadM Unit
  | 0 => failure
  | fuel + 1 => do
    skipWhile fun c => isGap c || isLineEnd c
    if (← peek) = some '#' then
      skipWhile fun c => !isLineEnd c
      skipLines fuel

mutual

/-- The value of the key with the given name. Inline tables in an array are elements of it. The value of an inline
table has its members by their last names alone; it only counts where the tables that its keys made are replaced
by it. -/
def value : Nat → String → Bool → ReadM Value
  | 0, _, _ => failure
  | fuel + 1, name, inArray => do
    skipWhile isGap
    match ← peek with
    | some '[' =>
      expect '['
      update fun d => some (d.markArray name true)
      items fuel name
      return .array
    | some '\x7b' =>
      expect '\x7b'
      let outer := (← get).document.context
      let here := outer ++ [name]
      update fun d => if inArray then (d.imply here).enterElement here else (d.imply here).enterTable here
      skipWhile isGap
      let t ← if (← peek) = some '\x7d' then do expect '\x7d'; pure [] else members fuel here []
      let (number, d) := (← get).document.make t
      update fun _ => some { d with context := outer }
      return .table number
    | some '"' | some '\'' => return .string (← read readString)
    | some c => if c.isDigit || c = '+' || c = '-' then number else word
    | none => failure

/-- The items of an array behind its opening bracket. -/
def items : Nat → String → ReadM Unit
  | 0, _ => failure
  | fuel + 1, name => do
    skipLines (fuel + 1)
    if (← peek) = some ']' then expect ']'
    else
      let _ ← value fuel name true
      skipLines (fuel + 1)
      if (← peek) = some ',' then
        expect ','
        items fuel name
      else expect ']'

/-- The members of an inline table up to its closing brace, added to those in front. -/
def members : Nat → Key → Table → ReadM Table
  | 0, _, _ => failure
  | fuel + 1, here, before => do
    let (name, v) ← definition fuel
    let t := before.put name v
    update fun d => some { d with context := here }
    skipWhile isGap
    if (← peek) = some ',' then
      expect ','
      members fuel here t
    else
      expect '\x7d'
      return t

/-- A key and its value, which are given by the last name of the key. The context is left where the key ended. -/
def definition : Nat → ReadM (String × Value)
  | 0 => failure
  | fuel + 1 => do
    let k ← key
    expect '='
    update (·.enterDotted k.dropLast)
    let name := k.getLastD ""
    update fun d => some { d with order := d.order ++ [d.context ++ [name]] }
    let v ← value fuel name false
    update fun d => do return (← d.define name v).markArray name (v = .array)
    return (name, v)

end

/-! ### Lines -/

/-- The header of a table or of an element of an array of tables. -/
def header : ReadM Unit := do
  expect '['
  let isElement := (← peek) = some '['
  if isElement then expect '['
  let k ← key
  expect ']'
  if isElement then expect ']'
  update fun d => do
    let d ← if isElement then d.enterElement k else d.enterTable k
    return { d.markArray "" false with order := d.order ++ [k] }

/-- Nothing but a comment may follow on a line. -/
def lineEnd : ReadM Unit := do
  skipWhile isGap
  if (← peek) = some '#' then skipWhile fun c => !isLineEnd c
  match ← peek with
  | none => return
  | some c => if !isLineEnd c then failure

/-- Reads lines up to the end. -/
def lines : Nat → ReadM Unit
  | 0 => failure
  | fuel + 1 => do
    skipLines (fuel + 1)
    match ← peek with
    | none => return
    | some '[' =>
      header
      lineEnd
      lines fuel
    | some _ =>
      let context := (← get).document.context
      let _ ← definition (fuel + 1)
      update fun d => some { d with context }
      lineEnd
      lines fuel

end Source

/-- Whether no character is a control, but for tabs and line ends, and carriage returns only stand before line
feeds. -/
def isPlain : List Char → Bool
  | [] => true
  | '\r' :: '\n' :: r => isPlain r
  | c :: r => (c = '\t' || c = '\n' || (c.toNat ≥ 0x20 && c.toNat ≠ 0x7F && c ≠ Text.replacementChar)) && isPlain r

/-- The text without a mark of its encoding. -/
def dropEncodingMark : List UInt8 → List UInt8
  | 0xFF :: 0xFE :: r | 0xFE :: 0xFF :: r | 0xEF :: 0xBB :: 0xBF :: r => r
  | bytes => bytes

/-- Reads a document. -/
def parse? (bytes : List UInt8) : Option Document := do
  let cs ← Text.decode? (dropEncodingMark bytes)
  if !isPlain cs then failure
  let (_, s) ← (Source.lines (2 * cs.length + 2)).run { rest := cs }
  return s.document

end TypedScript.Toml
