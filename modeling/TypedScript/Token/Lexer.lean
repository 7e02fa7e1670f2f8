import TypedScript.Diagnostic.Basic
import TypedScript.Source.File
import TypedScript.Text.Category
import TypedScript.Text.Composition
import TypedScript.Token.Basic

/-!
# The lexer

Scanning works on the bytes that are left. `trivia` measures the blanks and comments in front of a token and
`lexeme` the token at the head; both speak of offsets relative to where they start, so that `scan` only has to add
them up. A lexeme takes at least its first byte, which is why scanning a file ends.
-/

namespace TypedScript.Token

open TypedScript.Source TypedScript.Text

/-- What can be wrong with the spelling of a token. -/
inductive Problem where
  | unexpectedCharacter
  | unknownEscape
  | unterminatedString
  | unterminatedComment
  | missingHexDigit
  | missingExponentDigit
  | identifierAfterNumber
  deriving DecidableEq, Repr

namespace Problem

def code : Problem → Diagnostic.Code
  | .unexpectedCharacter | .unknownEscape => .unknownCharacter
  | .unterminatedString => .unterminatedString
  | .unterminatedComment => .unterminatedComment
  | .missingHexDigit | .missingExponentDigit | .identifierAfterNumber => .badNumber

def message : Problem → String
  | .unexpectedCharacter => "unexpected character"
  | .unknownEscape => "unknown escape sequence"
  | .unterminatedString => "string literal is not terminated"
  | .unterminatedComment => "block comment is not closed"
  | .missingHexDigit => "expected hex digit after 0x"
  | .missingExponentDigit => "expected digit in exponent"
  | .identifierAfterNumber => "identifier directly after number"

end Problem

/-! ### Character classes -/

def byte (c : Char) : UInt8 := c.toUInt8

def isDigitByte (b : UInt8) : Bool := byte '0' ≤ b && b ≤ byte '9'

def isHexByte (b : UInt8) : Bool :=
  isDigitByte b || (byte 'a' ≤ b && b ≤ byte 'f') || (byte 'A' ≤ b && b ≤ byte 'F')

def isIdentStartByte (b : UInt8) : Bool :=
  b == byte '_' || b == byte '$' || (byte 'A' ≤ b && b ≤ byte 'Z') || (byte 'a' ≤ b && b ≤ byte 'z')

def isIdentByte (b : UInt8) : Bool := isIdentStartByte b || isDigitByte b

def isIdentStart (c : Char) : Bool := c == '_' || c == '$' || isLetter c

def isIdentChar (c : Char) : Bool := isIdentStart c || isDecimalDigit c || isCombiningMark c

def isBlank (b : UInt8) : Bool := b == byte ' ' || b == 9 || b == 10 || b == 13

/-! ### Blanks and comments -/

/-- The bytes of a block comment after its opening, through its close; `none` if it is never closed. -/
def commentTail? : List UInt8 → Option Nat
  | 42 :: 47 :: _ => some 2
  | _ :: rest => (commentTail? rest).map (· + 1)
  | [] => none

/-- The bytes that separate tokens. -/
structure Trivia where
  length : Nat
  /-- Where a block comment starts that is never closed. -/
  unclosed : Option Nat := none

def Trivia.after (n : Nat) (t : Trivia) : Trivia := ⟨t.length + n, t.unclosed.map (· + n)⟩

/-- The blanks and comments at the head. -/
def trivia (bytes : List UInt8) : Trivia :=
  match bytes with
  | [] => ⟨0, none⟩
  | b :: rest =>
    if isBlank b then (trivia rest).after 1
    else if b = byte '/' then
      match rest with
      | 47 :: body =>
        let k := (body.takeWhile (· ≠ lineFeed)).length
        (trivia (body.drop k)).after (k + 2)
      | 42 :: body =>
        match commentTail? body with
        | some k => (trivia (body.drop k)).after (k + 2)
        | none => ⟨body.length + 2, some 0⟩
      | _ => ⟨0, none⟩
    else ⟨0, none⟩
  termination_by bytes.length
  decreasing_by all_goals simp only [List.length_cons, List.length_drop]; omega

/-! ### Lexemes -/

/-- The spelling of one token: its kind, the bytes it takes after the first, its text, and what is wrong with it,
each problem with the offsets at which its place starts and stops. -/
structure Lexeme where
  kind : Kind
  tail : Nat := 0
  text : String := ""
  problems : List (Problem × Nat × Nat) := []

def Lexeme.length (l : Lexeme) : Nat := l.tail + 1

/-- A token that could not be made, of `tail + 1` bytes. -/
def Lexeme.bad (p : Problem) (tail : Nat) : Lexeme := ⟨.invalid, tail, "", [(p, 0, tail + 1)]⟩

/-- The number of bytes of the identifier characters at the head. -/
def identLength (bytes : List UInt8) : Nat :=
  match bytes with
  | [] => 0
  | b :: rest =>
    match decodeHead (b :: rest) with
    | none => 0
    | some (c, k) => if isIdentChar c then identLength (rest.drop (k - 1)) + (k - 1) + 1 else 0
  termination_by bytes.length
  decreasing_by all_goals simp only [List.length_cons, List.length_drop]; omega

/-- The identifier or keyword at the head. -/
def identLexeme (b : UInt8) (rest : List UInt8) : Lexeme :=
  match decodeHead (b :: rest) with
  | none => .bad .unexpectedCharacter 0
  | some (c, k) =>
    if isIdentStart c then
      let tail := (k - 1) + identLength (rest.drop (k - 1))
      let text := compose (ofBytesLossy (b :: rest.take tail))
      ⟨(Kind.ofKeyword? text).getD .ident, tail, text, []⟩
    else .bad .unexpectedCharacter (k - 1)

/-- The number of bytes at the head that satisfy `p`. -/
def runLength (p : UInt8 → Bool) (bytes : List UInt8) : Nat := (bytes.takeWhile p).length

/-- A number of `n` bytes, provided that no identifier follows it directly. -/
def numberLexeme (bytes : List UInt8) (n : Nat) : Lexeme :=
  match bytes.drop n with
  | b :: rest =>
    if isIdentStartByte b then .bad .identifierAfterNumber (n + runLength isIdentByte rest)
    else ⟨.number, n - 1, ofBytesLossy (bytes.take n), []⟩
  | [] => ⟨.number, n - 1, ofBytesLossy (bytes.take n), []⟩

/-- The bytes of a decimal number before its exponent: digits, and a point if a digit follows it. -/
def mantissaLength (bytes : List UInt8) : Nat :=
  let whole := runLength isDigitByte bytes
  match bytes.drop whole with
  | 46 :: b :: rest => if isDigitByte b then whole + 2 + runLength isDigitByte rest else whole
  | _ => whole

/-- The number at the head. -/
def scanNumber (bytes : List UInt8) : Lexeme :=
  match bytes with
  | 48 :: 120 :: rest | 48 :: 88 :: rest =>
    let digits := runLength isHexByte rest
    if digits = 0 then .bad .missingHexDigit 1 else numberLexeme bytes (digits + 2)
  | _ =>
    let n := mantissaLength bytes
    match bytes.drop n with
    | e :: rest =>
      if e = byte 'e' ∨ e = byte 'E' then
        let sign := match rest with
          | s :: _ => if s = byte '+' ∨ s = byte '-' then 1 else 0
          | [] => 0
        let digits := runLength isDigitByte (rest.drop sign)
        if digits = 0 then .bad .missingExponentDigit (n + sign)
        else numberLexeme bytes (n + 1 + sign + digits)
      else numberLexeme bytes n
    | [] => numberLexeme bytes n

/-- What follows the opening quote of a string literal. -/
structure StringTail where
  length : Nat := 0
  value : List Char := []
  closed : Bool
  /-- Where unknown escapes start, and how many bytes each takes. -/
  badEscapes : List (Nat × Nat) := []

def StringTail.after (n : Nat) (chars : List Char) (bad : List (Nat × Nat)) (t : StringTail) : StringTail :=
  ⟨t.length + n, chars ++ t.value, t.closed, bad ++ t.badEscapes.map fun p => (p.1 + n, p.2)⟩

/-- The character that an escape letter stands for. -/
def escape? (b : UInt8) : Option Char :=
  if b = byte 'n' then some '\n'
  else if b = byte 't' then some '\t'
  else if b = byte 'r' then some '\r'
  else if b = byte '0' then some (Char.ofNat 0)
  else if b = byte '\\' ∨ b = byte '\'' ∨ b = byte '"' then some (Char.ofNat b.toNat)
  else none

/-- The rest of a string literal: it runs to its quote, to the end of the line or to the end of the file. -/
def stringTail (quote : UInt8) (bytes : List UInt8) : StringTail :=
  match bytes with
  | [] => { closed := false }
  | b :: rest =>
    if b = lineFeed then { closed := false }
    else if b = quote then { length := 1, closed := true }
    else if b = byte '\\' then
      match rest with
      | [] => { length := 1, closed := false, badEscapes := [(0, 1)] }
      | e :: rest =>
        match escape? e with
        | some c => (stringTail quote rest).after 2 [c] []
        | none => (stringTail quote rest).after 2 [] [(0, 2)]
    else
      match decodeHead (b :: rest) with
      | some (c, k) => (stringTail quote (rest.drop (k - 1))).after (k - 1 + 1) [c] []
      | none => (stringTail quote rest).after 1 [replacementChar] []
  termination_by bytes.length
  decreasing_by all_goals simp only [List.length_cons, List.length_drop]; omega

/-- The string literal at the head. -/
def stringLexeme (quote : UInt8) (rest : List UInt8) : Lexeme :=
  let t := stringTail quote rest
  let escapes := t.badEscapes.map fun p => (Problem.unknownEscape, p.1 + 1, p.1 + 1 + p.2)
  let ending := if t.closed then [] else [(Problem.unterminatedString, 0, t.length + 1)]
  ⟨.string, t.length, String.ofList t.value, escapes ++ ending⟩

/-- The longest symbol at the head. -/
def symbolLexeme (bytes : List UInt8) : Lexeme :=
  match Kind.symbols.find? fun k => (encode k.name).isPrefixOf bytes with
  | some k => ⟨k, k.name.utf8ByteSize - 1, "", []⟩
  | none => .bad .unexpectedCharacter 0

/-- The token that starts with the byte `b`. -/
def lexeme (b : UInt8) (rest : List UInt8) : Lexeme :=
  let pointNumber := b = byte '.' && (rest.head?.elim false isDigitByte)
  if isIdentStartByte b || 0x80 ≤ b then identLexeme b rest
  else if isDigitByte b || pointNumber then scanNumber (b :: rest)
  else if b = byte '"' || b = byte '\'' then stringLexeme b rest
  else symbolLexeme (b :: rest)

/-! ### Scanning a file -/

def report (file off : Nat) (p : Problem × Nat × Nat) : Diagnostic :=
  { code := p.1.code, span := ⟨file, off + p.2.1, off + p.2.2⟩, message := p.1.message }

/-- The token that a lexeme at offset `off` is. -/
def ofLexeme (file off : Nat) (bytes : List UInt8) (l : Lexeme) : Token :=
  { kind := l.kind, span := ⟨file, off, off + l.length⟩, text := l.text,
    raw := if l.kind = .invalid then bytes.take l.length else [] }

/-- What one scan yields: a token, what was reported on the way, and where the next scan starts. -/
structure Scan where
  token : Token
  diagnostics : List Diagnostic
  off : Nat
  rest : List UInt8

/-- The next token at offset `off`, or the end of the file. -/
def scan (file off : Nat) (bytes : List UInt8) : Scan :=
  let t := trivia bytes
  let off := off + t.length
  let unclosed := t.unclosed.toList.map fun start =>
    report file (off - t.length) (.unterminatedComment, start, t.length)
  match bytes.drop t.length with
  | [] => ⟨⟨.eof, .point file off, "", []⟩, unclosed, off, []⟩
  | b :: rest =>
    let l := lexeme b rest
    ⟨ofLexeme file off (b :: rest) l, unclosed ++ l.problems.map (report file off), off + l.length,
    rest.drop l.tail⟩

/-- All tokens from offset `off` on, the end of the file included. -/
def scanAll (file off : Nat) (bytes : List UInt8) : List Token × List Diagnostic :=
  match _h : bytes.drop (trivia bytes).length with
  | [] =>
    let s := scan file off bytes
    ([s.token], s.diagnostics)
  | b :: rest =>
    let s := scan file off bytes
    let (tokens, diagnostics) := scanAll file s.off (rest.drop (lexeme b rest).tail)
    (s.token :: tokens, s.diagnostics ++ diagnostics)
  termination_by bytes.length
  decreasing_by
    have := congrArg List.length _h
    simp only [List.length_cons, List.length_drop] at this ⊢
    omega

/-- The tokens of a file and what is wrong with their spelling, however large the file is. -/
def ofFile (f : File) : List Token × List Diagnostic := scanAll f.id 0 f.content

/-- The tokens of a file and what is wrong with their spelling. A file is refused if not all of its offsets are
words. -/
def lex (f : File) : Except Overflow (List Token × List Diagnostic) :=
  if f.content.length < offsetLimit then .ok (ofFile f) else .error .content

/-- A place in a file from which tokens are drawn one by one, with at most one token drawn ahead. -/
structure Stream where
  file : Nat
  off : Nat := 0
  rest : List UInt8
  ahead : Option Token := none
  /-- What was reported of the tokens drawn so far. -/
  reported : List Diagnostic := []

namespace Stream

def ofFile (f : File) : Stream := { file := f.id, rest := f.content }

/-- A stream of a file, which is refused if not all of its offsets are words. -/
def open? (f : File) : Except Overflow Stream := if f.content.length < offsetLimit then .ok
    (ofFile f) else .error .content

/-- Draws the next token; at the end of the file it is the end of the file again. -/
def next (s : Stream) : Token × Stream :=
  match s.ahead with
  | some t => (t, { s with ahead := none })
  | none =>
    let r := scan s.file s.off s.rest
    (r.token, { s with off := r.off, rest := r.rest, reported := s.reported ++ r.diagnostics })

/-- Draws the next token ahead of time. -/
def peek (s : Stream) : Token × Stream :=
  let (t, s) := s.next
  (t, { s with ahead := some t })

/-- Draws all tokens that are left. -/
def drain (s : Stream) : List Token × Stream :=
  let (tokens, diagnostics) := scanAll s.file s.off s.rest
  let ending : Stream :=
    { s with off := s.off + s.rest.length, rest := [], ahead := none, reported := s.reported ++ diagnostics }
  match s.ahead with
  | some t => if t.kind = .eof then ([t], { s with ahead := none }) else (t :: tokens, ending)
  | none => (tokens, ending)

end Stream

end TypedScript.Token
