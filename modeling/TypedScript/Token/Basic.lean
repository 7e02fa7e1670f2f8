import TypedScript.Source.Span

/-!
# Tokens

The kinds of tokens, their spellings and their classes.
-/

namespace TypedScript

namespace Token

inductive Kind where
  | invalid
  | eof
  | ident
  | number
  | string
  | kwType
  | kwDeclare
  | kwFunction
  | kwConst
  | kwLet
  | kwVar
  | kwReturn
  | kwIf
  | kwElse
  | kwWhile
  | kwTrue
  | kwFalse
  | kwThis
  | kwNull
  | plus
  | minus
  | star
  | slash
  | percent
  | assign
  | eqEq
  | eqEqEq
  | bangEq
  | bangEqEq
  | bang
  | lt
  | ltEq
  | gt
  | gtEq
  | andAnd
  | orOr
  | fatArrow
  | lparen
  | rparen
  | lbrace
  | rbrace
  | lbracket
  | rbracket
  | comma
  | colon
  | semicolon
  | dot
  deriving DecidableEq, Inhabited, Repr

namespace Kind

/-- The keywords, in the order of their kinds. -/
def keywords : List Kind :=
  [.kwType, .kwDeclare, .kwFunction, .kwConst, .kwLet, .kwVar, .kwReturn, .kwIf, .kwElse, .kwWhile,
    .kwTrue, .kwFalse,
    .kwThis, .kwNull]

/-- The tokens that can stand between two operands. -/
def binaryOperators : List Kind :=
  [.plus, .minus, .star, .slash, .percent, .eqEq, .eqEqEq, .bangEq, .bangEqEq, .lt, .ltEq, .gt,
    .gtEq, .andAnd, .orOr]

def punctuation : List Kind :=
  [.lparen, .rparen, .lbrace, .rbrace, .lbracket, .rbracket, .comma, .colon, .semicolon, .dot]

/-- Every kind, by number. -/
def all : List Kind :=
  ([.invalid, .eof, .ident, .number, .string] : List Kind) ++ keywords
    ++ ([.plus, .minus, .star, .slash, .percent, .assign, .eqEq, .eqEqEq, .bangEq, .bangEqEq, .bang, .lt,
      .ltEq, .gt, .gtEq,
      .andAnd, .orOr, .fatArrow] : List Kind) ++ punctuation

/-- The spelling of a token with one spelling, and the name of the class for the others. -/
def name : Kind → String
  | .invalid => "Invalid"
  | .eof => "EOF"
  | .ident => "Ident"
  | .number => "NumberLit"
  | .string => "StringLit"
  | .kwType => "type"
  | .kwDeclare => "declare"
  | .kwFunction => "function"
  | .kwConst => "const"
  | .kwLet => "let"
  | .kwVar => "var"
  | .kwReturn => "return"
  | .kwIf => "if"
  | .kwElse => "else"
  | .kwWhile => "while"
  | .kwTrue => "true"
  | .kwFalse => "false"
  | .kwThis => "this"
  | .kwNull => "null"
  | .plus => "+"
  | .minus => "-"
  | .star => "*"
  | .slash => "/"
  | .percent => "%"
  | .assign => "="
  | .eqEq => "=="
  | .eqEqEq => "==="
  | .bangEq => "!="
  | .bangEqEq => "!=="
  | .bang => "!"
  | .lt => "<"
  | .ltEq => "<="
  | .gt => ">"
  | .gtEq => ">="
  | .andAnd => "&&"
  | .orOr => "||"
  | .fatArrow => "=>"
  | .lparen => "("
  | .rparen => ")"
  | .lbrace => "\x7b"
  | .rbrace => "\x7d"
  | .lbracket => "["
  | .rbracket => "]"
  | .comma => ","
  | .colon => ":"
  | .semicolon => ";"
  | .dot => "."

/-- The name of the kind with the given number. -/
def nameOfNumber (n : Nat) : String := (all[n]?).elim "Kind(?)" name

/-- The keyword a word spells; case matters. -/
def ofKeyword? (word : String) : Option Kind := keywords.find? (·.name = word)

def isKeyword (k : Kind) : Bool := keywords.contains k

def isBinaryOperator (k : Kind) : Bool := binaryOperators.contains k

def isLiteral : Kind → Bool
  | .number | .string | .kwTrue | .kwFalse | .kwNull => true
  | _ => false

/-- The tokens with one spelling that is not a word, longer spellings first. -/
def symbols : List Kind :=
  ([.eqEqEq, .bangEqEq, .eqEq, .bangEq, .ltEq, .gtEq, .andAnd, .orOr, .fatArrow, .plus, .minus, .star,
    .slash, .percent,
    .assign, .bang, .lt, .gt] : List Kind) ++ punctuation

end Kind

end Token

/-- A token and its place. -/
structure Token where
  kind : Token.Kind
  span : Source.Span
  /-- The composed name of an identifier or keyword, the value of a string literal, the spelling of a number. -/
  text : String := ""
  /-- The bytes that no token could be made of. -/
  raw : List UInt8 := []
  deriving DecidableEq, Inhabited, Repr

end TypedScript
