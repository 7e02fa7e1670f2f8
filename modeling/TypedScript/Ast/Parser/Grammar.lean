import TypedScript.Ast.Parser.Basic
import TypedScript.Decimal.Reading
import TypedScript.Token.Lexer

/-!
# Parsing: the grammar

The grammar is parsed by recursive descent, binary operators by their powers. A parenthesis opens the parameters
of an arrow function if the token after its partner is an arrow or a colon, which is found by looking ahead.

The recursion is bounded by a depth: every nesting takes a token, so a fixed multiple of the number of tokens is
never exceeded.
-/

namespace TypedScript.Ast.Parser

open TypedScript.Source

/-! ### Types -/

mutual

/-- A type name, an object type or a function type. -/
def type : Nat → Parser Nat
  | 0 => fail
  | depth + 1 => do
    let tok ← peek
    match tok.kind with
    | .ident =>
      let _ ← advance
      write (.typeName tok.text) tok.span
    | .kwNull =>
      let _ ← advance
      write (.typeName "null") tok.span
    | .lbrace =>
      let _ ← advance
      let separator := do
        if ← eat .comma then return true
        eat .semicolon
      let fields ← items .rbrace separator (typeField depth) depth
      let _ ← expect .rbrace .unclosedObjectType
      writeFrom (.typeObject fields) tok.span
    | .lparen =>
      let params ← params depth
      let _ ← expect .fatArrow .expectedTypeArrow
      let result ← type depth
      writeFrom (.typeFunc params result) tok.span
    | _ =>
      report .expectedType
      fail

/-- A field of an object type. -/
def typeField : Nat → Parser Nat
  | 0 => fail
  | depth + 1 => do
    let name ← expect .ident .expectedFieldName
    let _ ← expect .colon .expectedFieldColon
    let t ← type depth
    writeFrom (.typeField name.text t) name.span

/-- A type after a colon, if there is a colon. -/
def ascription? : Nat → Parser (Option Nat)
  | 0 => fail
  | depth + 1 => do
    if ← eat .colon then
      return some (← type depth)
    return none

/-- A parameter with or without a type. -/
def param : Nat → Parser Nat
  | 0 => fail
  | depth + 1 => do
    let name ← expect .ident .expectedParameterName
    let t ← ascription? depth
    writeFrom (.param name.text t) name.span

/-- Parameters in parentheses. -/
def params : Nat → Parser (List Nat)
  | 0 => fail
  | depth + 1 => do
    let _ ← expect .lparen .expectedOpenParen
    let ps ← items .rparen (eat .comma) (param depth) depth
    let _ ← expect .rparen .unclosedParen
    return ps

end

/-! ### Numbers and lookahead -/

/-- The value of a number literal; `none` if it is too large. -/
def numberValue? (text : String) : Option Float :=
  match text.toList with
  | '0' :: 'x' :: digits | '0' :: 'X' :: digits =>
    match Decimal.natOfHex? digits with
    | some n => if n < Decimal.wordBound then some (Float.ofNat n) else none
    | none => none
  | cs =>
    match Decimal.readScientific? cs with
    | some s => if s.toFloat.isInf then none else some s.toFloat
    | none => none

/-- Whether the tokens, read inside `depth` open parentheses, close the outermost and go on with an arrow or a
colon. -/
def closesBeforeArrow : Nat → List Token.Kind → Bool
  | _, [] => false
  | depth, .lparen :: rest => closesBeforeArrow (depth + 1) rest
  | depth, .rparen :: rest =>
    if depth ≤ 1 then
      match rest with
      | k :: _ => k == .fatArrow || k == .colon
      | [] => false
    else closesBeforeArrow (depth - 1) rest
  | _, .eof :: _ => false
  | _, .semicolon :: _ => false
  | depth, _ :: rest => closesBeforeArrow depth rest

/-- Whether the parenthesis at the front opens the parameters of an arrow function. -/
def isArrowAhead : Parser Bool := fun _ s => (some (closesBeforeArrow 0 (s.rest.map (·.kind))), s)

/-! ### Expressions and statements -/

mutual

/-- An expression. Assignment binds weakest and groups to the right. -/
def expr : Nat → Parser Nat
  | 0 => fail
  | depth + 1 => do
    let lhs ← binary depth 1
    if !(← isAt .assign) then return lhs
    let eq ← advance
    match ← formOf lhs with
    | some (.ident _) | some (.member ..) =>
      let rhs ← expr depth
      writeFrom (.assign lhs rhs) (← spanOf lhs)
    | _ =>
      reportAt eq.span .invalidAssignmentTarget
      fail

/-- Operators of at least the given power. -/
def binary : Nat → Nat → Parser Nat
  | 0, _ => fail
  | depth + 1, power => do
    let lhs ← unary depth
    binaryRest depth power lhs

/-- The operators of at least the given power, and their right operands, that follow `lhs`. -/
def binaryRest : Nat → Nat → Nat → Parser Nat
  | 0, _, _ => fail
  | depth + 1, power, lhs => do
    match BinaryOp.ofToken? (← peekKind) with
    | none => return lhs
    | some op =>
      if op.power < power then return lhs
      let _ ← advance
      let rhs ← binary depth (op.power + 1)
      let id ← writeFrom (.binary op lhs rhs) (← spanOf lhs)
      binaryRest depth power id

/-- Signs and negations before an operand; a plus sign leaves no trace. -/
def unary : Nat → Parser Nat
  | 0 => fail
  | depth + 1 => do
    let tok ← peek
    match tok.kind with
    | .minus =>
      let _ ← advance
      let x ← unary depth
      writeFrom (.unary .negate x) tok.span
    | .bang =>
      let _ ← advance
      let x ← unary depth
      writeFrom (.unary .not x) tok.span
    | .plus =>
      let _ ← advance
      unary depth
    | _ =>
      let x ← primary depth
      postfixes depth x

/-- The member accesses and calls that follow `x`. -/
def postfixes : Nat → Nat → Parser Nat
  | 0, _ => fail
  | depth + 1, x => do
    match ← peekKind with
    | .dot =>
      let _ ← advance
      let name ← expect .ident .expectedMemberName
      let id ← write (.member x name.text) ((← spanOf x).cover name.span)
      postfixes depth id
    | .lparen =>
      let _ ← advance
      let args ← items .rparen (eat .comma) (expr depth) depth
      let _ ← expect .rparen .unclosedArguments
      let id ← writeFrom (.call x args) (← spanOf x)
      postfixes depth id
    | _ => return x

/-- A literal, a name, an arrow function, an object or an expression in parentheses. -/
def primary : Nat → Parser Nat
  | 0 => fail
  | depth + 1 => do
    let tok ← peek
    match tok.kind with
    | .number =>
      let _ ← advance
      match numberValue? tok.text with
      | some v => write (.number v) tok.span
      | none =>
        reportAt tok.span .malformedNumber
        fail
    | .string =>
      let _ ← advance
      write (.string tok.text) tok.span
    | .kwTrue =>
      let _ ← advance
      write (.bool true) tok.span
    | .kwFalse =>
      let _ ← advance
      write (.bool false) tok.span
    | .kwNull =>
      let _ ← advance
      write .null tok.span
    | .kwThis =>
      let _ ← advance
      write .this tok.span
    | .ident =>
      if (← get).second = .fatArrow then
        let _ ← advance
        let p ← write (.param tok.text none) tok.span
        arrowRest depth tok.span [p]
      else
        let _ ← advance
        write (.ident tok.text) tok.span
    | .lparen =>
      if ← isArrowAhead then
        let ps ← params depth
        arrowRest depth tok.span ps
      else
        let _ ← advance
        let x ← expr depth
        let _ ← expect .rparen .unclosedParen
        return x
    | .lbrace =>
      let _ ← advance
      let props ← properties depth []
      let _ ← expect .rbrace .unclosedObject
      writeFrom (.object props) tok.span
    | .kwFunction =>
      report .functionExpression
      fail
    | _ =>
      report .expectedExpression
      fail

/-- The result type, arrow and body of an arrow function whose parameters are read. -/
def arrowRest : Nat → Span → List Nat → Parser Nat
  | 0, _, _ => fail
  | depth + 1, start, ps => do
    let result ← ascription? depth
    let _ ← expect .fatArrow .expectedArrow
    let body ← if ← isAt .lbrace then block depth else expr depth
    writeFrom (.arrowFunc ps result body) start

/-- The properties of an object, whose names so far are `seen`. A name alone is a property with the variable of that
name. -/
def properties : Nat → List String → Parser (List Nat)
  | 0, _ => fail
  | depth + 1, seen => do
    if ← isAt .rbrace then return []
    let name ← expect .ident .expectedPropertyName
    let value ← if ← eat .colon then expr depth else write (.ident name.text) name.span
    if seen.contains name.text then reportAt name.span (.duplicateProperty name.text)
    let p ← writeFrom (.property name.text value) name.span
    if ← eat .comma then
      return p :: (← properties depth (name.text :: seen))
    return [p]

/-- A condition in parentheses. -/
def condition : Nat → Parser Nat
  | 0 => fail
  | depth + 1 => do
    let _ ← expect .lparen .expectedOpenParen
    let x ← expr depth
    let _ ← expect .rparen .unclosedParen
    return x

/-- Statements in braces. -/
def block : Nat → Parser Nat
  | 0 => fail
  | depth + 1 => do
    let start ← expect .lbrace .expectedOpenBrace
    let body ← statements [.rbrace, .eof] (stmt depth) depth
    let _ ← expect .rbrace .unclosedBlock
    writeFrom (.block body) start.span

/-- A variable declaration whose keyword is `kw`. -/
def varDecl : Nat → Token → Parser Nat
  | 0, _ => fail
  | depth + 1, kw => do
    let name ← expect .ident .expectedVariableName
    let t ← ascription? depth
    if !(← eat .assign) then
      reportAt name.span (.expectedInitializer name.text)
      fail
    let init ← expr depth
    let _ ← endStatement
    writeFrom (.varDecl name.text (kw.kind = .kwConst) t init) kw.span

/-- A statement or declaration. -/
def stmt : Nat → Parser Nat
  | 0 => fail
  | depth + 1 => do
    let tok ← peek
    match tok.kind with
    | .kwType =>
      let _ ← advance
      let name ← expect .ident .expectedTypeName
      let _ ← expect .assign .expectedAliasEquals
      let t ← type depth
      let _ ← endStatement
      writeFrom (.typeAlias name.text t) tok.span
    | .kwDeclare =>
      let _ ← advance
      let _ ← expect .kwFunction .onlyDeclareFunction
      let name ← expect .ident .expectedFunctionName
      let ps ← params depth
      let _ ← expect .colon .expectedResultType
      let result ← type depth
      let _ ← endStatement
      writeFrom (.declareFunc name.text ps result) tok.span
    | .kwFunction =>
      let _ ← advance
      let name ← expect .ident .expectedFunctionName
      let ps ← params depth
      let result ← ascription? depth
      let body ← block depth
      writeFrom (.funcDecl name.text ps result body) tok.span
    | .kwConst | .kwLet | .kwVar =>
      let _ ← advance
      varDecl depth tok
    | .kwReturn =>
      let _ ← advance
      let bare := (← isAtAny [.semicolon, .rbrace, .eof]) || (← newlineBefore)
      let value ← if bare then pure none else some <$> expr depth
      let _ ← endStatement
      writeFrom (.ret value) tok.span
    | .kwIf =>
      let _ ← advance
      let cond ← condition depth
      let thenBranch ← stmt depth
      let elseBranch ← if ← eat .kwElse then some <$> stmt depth else pure none
      writeFrom (.ifElse cond thenBranch elseBranch) tok.span
    | .kwWhile =>
      let _ ← advance
      let cond ← condition depth
      let body ← stmt depth
      writeFrom (.whileLoop cond body) tok.span
    | .lbrace => block depth
    | .semicolon =>
      let _ ← advance
      write (.block []) tok.span
    | _ =>
      let x ← expr depth
      if ← endStatement then writeFrom (.exprStmt x) tok.span else fail

end

/-- How deep the recursion may go for the given number of tokens. -/
def depthFor (tokens : Nat) : Nat := 16 * (tokens + 1)

/-- A whole file. -/
def module : Parser Nat := do
  let start := (← peek).span
  let depth := depthFor (← get).rest.length
  let body ← statements [.eof] (stmt depth) depth
  writeFrom (.module body) start

end TypedScript.Ast.Parser

namespace TypedScript.Ast

open TypedScript.Source

/-- What parsing a file yields. -/
structure Parsed where
  tree : Tree
  diagnostics : List Diagnostic

/-- Parses a file, however large it is. There is always a tree; what is wrong with the text is reported. -/
def parse (file : File) (maxErrors : Nat) : Parsed :=
  let (tokens, lexical) := Token.ofFile file
  let (root, s) := Parser.module ⟨file, maxErrors⟩ { rest := tokens }
  let tree : Tree := { file := file.id, nodes := s.nodes, root := root.getD 0 }
  ⟨tree.link, lexical ++ s.diagnostics⟩

/-- Parses a file, which is refused if not all of its offsets, or not all numbers of its nodes, are words. -/
def parseFile (file : File) (maxErrors : Nat) : Except Overflow Parsed := do
  let _ ← Token.lex file
  let parsed := parse file maxErrors
  if parsed.tree.size < offsetLimit then return parsed else throw .nodes

/-- The offsets of the file and the numbers of its nodes are words. -/
structure Fits (file : File) (maxErrors : Nat) : Prop where
  content : file.content.length < offsetLimit
  nodes : (parse file maxErrors).tree.size < offsetLimit

theorem parseFile_of_fits {file : File} {maxErrors : Nat} (h : Fits file maxErrors) :
    parseFile file maxErrors = .ok (parse file maxErrors) := by
  unfold parseFile Token.lex
  rw [if_pos h.content]
  exact if_pos h.nodes

theorem parseFile_of_le {file : File} (h : offsetLimit ≤ file.content.length) (maxErrors : Nat) :
    parseFile file maxErrors = .error .content := by
  unfold parseFile Token.lex
  rw [if_neg (Nat.not_lt.2 h)]
  rfl

/-- A file is parsed if it is not too large, and otherwise refused. -/
theorem parseFile_cases (file : File) (maxErrors : Nat) :
    Fits file maxErrors ∨ (offsetLimit ≤ file.content.length ∧ parseFile file maxErrors = .error .content) ∨
      offsetLimit ≤ (parse file maxErrors).tree.size ∧ parseFile file maxErrors = .error .nodes := by
  by_cases hcontent : file.content.length < offsetLimit
  · by_cases hnodes : (parse file maxErrors).tree.size < offsetLimit
    · exact .inl ⟨hcontent, hnodes⟩
    · refine .inr (.inr ⟨Nat.le_of_not_lt hnodes, ?_⟩)
      unfold parseFile Token.lex
      rw [if_pos hcontent]
      exact if_neg hnodes
  · have hle := Nat.le_of_not_lt hcontent
    exact .inr (.inl ⟨hle, parseFile_of_le hle maxErrors⟩)

theorem parseFile_eq_ok {file : File} {maxErrors : Nat} {parsed : Parsed}
    (h : parseFile file maxErrors = .ok parsed) :
    Fits file maxErrors ∧ parsed = parse file maxErrors := by
  rcases parseFile_cases file maxErrors with hfits | ⟨-, herror⟩ | ⟨-, herror⟩
  · rw [parseFile_of_fits hfits] at h
    exact ⟨hfits, (Except.ok.inj h).symm⟩
  · rw [herror] at h
    cases h
  · rw [herror] at h
    cases h

end TypedScript.Ast
