import TypedScript.Ast.Tree
import TypedScript.Diagnostic.Basic
import TypedScript.Source.File

/-!
# Parsing: state and primitives

A parser reads the tokens that are left, writes nodes and reports problems. One that fails keeps what it did on
the way, so nodes may be written that no tree ever holds. Once the number of errors reaches the limit nothing more
is reported.
-/

namespace TypedScript.Ast

open TypedScript.Source

/-- What can be wrong with the arrangement of the tokens. -/
inductive Problem where
  | expectedOpenBrace
  | expectedAliasEquals
  | expectedOpenParen
  | invalidAssignmentTarget
  | expectedArrow
  | unclosedBlock
  | unclosedParen
  | unclosedArguments
  | unclosedObject
  | unclosedObjectType
  | expectedTypeName
  | expectedFunctionName
  | expectedParameterName
  | expectedVariableName
  | expectedMemberName
  | expectedPropertyName
  | expectedFieldName
  | onlyDeclareFunction
  | functionExpression
  | expectedResultType
  | expectedTypeArrow
  | expectedType
  | expectedFieldColon
  | expectedInitializer (name : String)
  | expectedSemicolon
  | expectedExpression
  | malformedNumber
  | duplicateProperty (name : String)
  deriving DecidableEq, Repr

namespace Problem

def code : Problem → Diagnostic.Code
  | expectedOpenBrace | expectedAliasEquals | expectedOpenParen | invalidAssignmentTarget | expectedArrow =>
    .unexpectedToken
  | unclosedBlock | unclosedParen | unclosedArguments | unclosedObject | unclosedObjectType => .unclosedDelimiter
  | expectedTypeName | expectedFunctionName | expectedParameterName | expectedVariableName | expectedMemberName
  | expectedPropertyName | expectedFieldName => .expectIdentifier
  | onlyDeclareFunction | functionExpression => .unsupportedForm
  | expectedResultType | expectedTypeArrow | expectedType | expectedFieldColon => .expectType
  | expectedInitializer _ => .expectInitializer
  | expectedSemicolon => .expectSemicolon
  | expectedExpression => .expectExpression
  | malformedNumber => .badNumber
  | duplicateProperty _ => .duplicateDeclaration

def message : Problem → String
  | expectedOpenBrace => "expected '\x7b'"
  | expectedAliasEquals => "expected '=' after type name"
  | expectedOpenParen => "expected '('"
  | invalidAssignmentTarget => "invalid assignment target"
  | expectedArrow => "expected '=>'"
  | unclosedBlock => "expected '\x7d'"
  | unclosedParen => "expected ')'"
  | unclosedArguments => "expected ')' after arguments"
  | unclosedObject => "expected '\x7d' after object literal"
  | unclosedObjectType => "expected '\x7d' after object type"
  | expectedTypeName => "expected type name"
  | expectedFunctionName => "expected function name"
  | expectedParameterName => "expected parameter name"
  | expectedVariableName => "expected variable name"
  | expectedMemberName => "expected property name after '.'"
  | expectedPropertyName => "expected property name"
  | expectedFieldName => "expected field name"
  | onlyDeclareFunction => "only 'declare function' is supported"
  | functionExpression => "function expressions are not supported; use an arrow function"
  | expectedResultType => "declared function needs a result type"
  | expectedTypeArrow => "expected '=>' in function type"
  | expectedType => "expected type"
  | expectedFieldColon => "expected ':' after field name"
  | expectedInitializer name => "variable '" ++ name ++ "' needs an initializer"
  | expectedSemicolon => "expected ';'"
  | expectedExpression => "expected expression"
  | malformedNumber => "malformed number literal"
  | duplicateProperty name => "duplicate property '" ++ name ++ "'"

end Problem

/-- What stays the same while a file is parsed. -/
structure Parser.Input where
  file : File
  /-- The number of errors at which parsing stops; zero for no limit. -/
  maxErrors : Nat := 0

/-- What changes while a file is parsed. -/
structure Parser.State where
  /-- The tokens that are left; the last is the end of the file and is never taken. -/
  rest : List Token
  nodes : Array Node := #[]
  errors : Nat := 0
  diagnostics : List Diagnostic := []
  /-- The span of the last token taken. -/
  last : Span := {}

/-- A parser; `none` says that it failed. -/
def Parser (α : Type) : Type := Parser.Input → Parser.State → Option α × Parser.State

namespace Parser

variable {α β : Type}

instance : Monad Parser where
  pure a := fun _ s => (some a, s)
  bind p f := fun i s =>
    match p i s with
    | (some a, s) => f a i s
    | (none, s) => (none, s)

/-- Fails without a report. -/
def fail : Parser α := fun _ s => (none, s)

/-- Runs a parser and tells whether it failed. -/
def attempt (p : Parser α) : Parser (Option α) := fun i s =>
  let (r, s) := p i s
  (some r, s)

def get : Parser State := fun _ s => (some s, s)

/-- The token at the front; after the end of the file, its end again. -/
def State.peek (s : State) : Token := s.rest.headD ⟨.eof, s.last, "", []⟩

/-- The kind of the token after the one at the front. -/
def State.second (s : State) : Token.Kind :=
  match s.rest with
  | _ :: t :: _ => t.kind
  | _ => .eof

def peek : Parser Token := fun _ s => (some s.peek, s)

def peekKind : Parser Token.Kind := fun _ s => (some s.peek.kind, s)

def isAt (k : Token.Kind) : Parser Bool := fun _ s => (some (s.peek.kind = k), s)

def isAtAny (ks : List Token.Kind) : Parser Bool := fun _ s => (some (ks.contains s.peek.kind), s)

def State.advance (s : State) : State :=
  if s.peek.kind = .eof then s else { s with rest := s.rest.tail, last := s.peek.span }

/-- Takes the token at the front, unless it is the end of the file. -/
def advance : Parser Token := fun _ s => (some s.peek, s.advance)

/-- Takes the token at the front if it is of kind `k`, and tells whether it was. -/
def eat (k : Token.Kind) : Parser Bool := fun _ s =>
  if s.peek.kind = k then (some true, s.advance) else (some false, s)

/-- The span of the last token taken. -/
def lastSpan : Parser Span := fun _ s => (some s.last, s)

def Input.enough (i : Input) (errors : Nat) : Bool := i.maxErrors ≠ 0 && i.maxErrors ≤ errors

/-- Whether the number of errors has reached the limit. -/
def enough : Parser Bool := fun i s => (some (i.enough s.errors), s)

/-- Reports a problem at a place. The error that reaches the limit is counted and not reported. -/
def reportAt (span : Span) (p : Problem) : Parser Unit := fun i s =>
  let errors := s.errors + 1
  let d : Diagnostic := { code := p.code, span, message := p.message }
  (some (), { s with errors, diagnostics := if i.enough errors then s.diagnostics else s.diagnostics ++ [d] })

/-- Reports a problem at the token at the front. -/
def report (p : Problem) : Parser Unit := do reportAt (← peek).span p

/-- Takes a token of kind `k`, or reports the problem and fails. -/
def expect (k : Token.Kind) (p : Problem) : Parser Token := do
  if ← isAt k then advance
  else
    report p
    fail

/-- Writes a node and gives its number. -/
def write (form : Form) (span : Span) : Parser Nat := fun _ s =>
  (some (s.nodes.size + 1), { s with nodes := s.nodes.push ⟨form, span⟩ })

/-- Writes a node from the place `start` through the last token taken. -/
def writeFrom (form : Form) (start : Span) : Parser Nat := do
  write form (start.cover (← lastSpan))

def State.node? (s : State) (id : Nat) : Option Node := if id = 0 then none else s.nodes[id - 1]?

/-- The span of a node that was written. -/
def spanOf (id : Nat) : Parser Span := fun _ s => (some ((s.node? id).elim {} (·.span)), s)

/-- The form of a node that was written. -/
def formOf (id : Nat) : Parser (Option Form) := fun _ s => (some ((s.node? id).map (·.form)), s)

/-- Whether a line ends between the last token taken and the one at the front. -/
def newlineBefore : Parser Bool := fun i s =>
  let start := s.last.stop
  let stop := s.peek.span.start
  (some (stop ≤ i.file.content.length && start ≤ stop && (i.file.slice start stop).contains lineFeed), s)

/-- Takes the end of a statement: a semicolon, or nothing before a closing brace, the end of the file or a new
line. Tells whether there was one. -/
def endStatement : Parser Bool := do
  if ← eat .semicolon then return true
  if ← isAtAny [.rbrace, .eof] then return true
  if ← newlineBefore then return true
  report .expectedSemicolon
  return false

/-- The tokens at which a statement may start, or a block end, so that parsing can go on there after an error. -/
def boundaries : List Token.Kind :=
  [.rbrace, .kwFunction, .kwConst, .kwLet, .kwVar, .kwType, .kwDeclare, .kwReturn, .kwIf, .kwWhile]

/-- Skips to after the next semicolon, or to the next boundary. -/
def skipToBoundary : Nat → Parser Unit
  | 0 => pure ()
  | fuel + 1 => do
    if ← isAt .eof then return
    if ← eat .semicolon then return
    if ← isAtAny boundaries then return
    let _ ← advance
    skipToBoundary fuel

/-- Goes on after a statement that failed and that began when `before` tokens were left: at least one token is
skipped. -/
def resync (before : Nat) : Parser Unit := do
  if (← get).rest.length = before then
    let _ ← advance
  skipToBoundary (← get).rest.length

/-- Items up to, not including, the token `close`: after an item that `separator` does not follow there is no
other. -/
def items (close : Token.Kind) (separator : Parser Bool) (item : Parser α) : Nat → Parser (List α)
  | 0 => fail
  | fuel + 1 => do
    if ← isAt close then return []
    let a ← item
    if ← separator then
      return a :: (← items close separator item fuel)
    return [a]

/-- Statements up to a token of `stops`, those that fail being skipped. Parsing stops at the error limit. -/
def statements (stops : List Token.Kind) (stmt : Parser Nat) : Nat → Parser (List Nat)
  | 0 => pure []
  | fuel + 1 => do
    if (← isAtAny stops) || (← enough) then return []
    let before := (← get).rest.length
    match ← attempt stmt with
    | some id => return id :: (← statements stops stmt fuel)
    | none =>
      resync before
      statements stops stmt fuel

end Parser

end TypedScript.Ast
