import TypedScript.Token.Basic

/-!
# Syntactic forms

A node of a syntax tree is a form and a span. Forms refer to their parts by number: a part is written before the
form that holds it, so its number is smaller. Nodes are numbered from one; zero is no node.
-/

namespace TypedScript.Ast

inductive UnaryOp where
  | negate
  | not
  deriving DecidableEq, Inhabited, Repr

def UnaryOp.token : UnaryOp → Token.Kind
  | .negate => .minus
  | .not => .bang

inductive BinaryOp where
  | add
  | sub
  | mul
  | div
  | rem
  | eq
  | eqStrict
  | ne
  | neStrict
  | lt
  | le
  | gt
  | ge
  | and
  | or
  deriving DecidableEq, Inhabited, Repr

namespace BinaryOp

def token : BinaryOp → Token.Kind
  | .add => .plus
  | .sub => .minus
  | .mul => .star
  | .div => .slash
  | .rem => .percent
  | .eq => .eqEq
  | .eqStrict => .eqEqEq
  | .ne => .bangEq
  | .neStrict => .bangEqEq
  | .lt => .lt
  | .le => .ltEq
  | .gt => .gt
  | .ge => .gtEq
  | .and => .andAnd
  | .or => .orOr

def all : List BinaryOp :=
  [.add, .sub, .mul, .div, .rem, .eq, .eqStrict, .ne, .neStrict, .lt, .le, .gt, .ge, .and, .or]

/-- The operator that a token stands for. -/
def ofToken? (k : Token.Kind) : Option BinaryOp := all.find? (·.token = k)

/-- How tightly the operator binds; a higher power binds tighter. -/
def power : BinaryOp → Nat
  | .or => 1
  | .and => 2
  | .eq | .eqStrict | .ne | .neStrict => 3
  | .lt | .le | .gt | .ge => 4
  | .add | .sub => 5
  | .mul | .div | .rem => 6

def isArithmetic : BinaryOp → Bool
  | .add | .sub | .mul | .div | .rem => true
  | _ => false

def isEquality : BinaryOp → Bool
  | .eq | .eqStrict | .ne | .neStrict => true
  | _ => false

def isLogical : BinaryOp → Bool
  | .and | .or => true
  | _ => false

theorem ofToken?_token (op : BinaryOp) : ofToken? op.token = some op := by cases op <;> decide

end BinaryOp

/-- The form of a node. -/
inductive Form where
  | module (body : List Nat)
  | typeAlias (name : String) (type : Nat)
  | declareFunc (name : String) (params : List Nat) (result : Nat)
  | funcDecl (name : String) (params : List Nat) (result : Option Nat) (body : Nat)
  | arrowFunc (params : List Nat) (result : Option Nat) (body : Nat)
  | param (name : String) (type : Option Nat)
  | varDecl (name : String) (isConst : Bool) (type : Option Nat) (init : Nat)
  | ret (value : Option Nat)
  | ifElse (cond thenBranch : Nat) (elseBranch : Option Nat)
  | whileLoop (cond body : Nat)
  | block (body : List Nat)
  | exprStmt (expr : Nat)
  | ident (name : String)
  | number (value : Float)
  | string (value : String)
  | bool (value : Bool)
  | null
  | this
  | object (props : List Nat)
  | property (name : String) (value : Nat)
  | call (callee : Nat) (args : List Nat)
  | member (object : Nat) (name : String)
  | unary (op : UnaryOp) (operand : Nat)
  | binary (op : BinaryOp) (lhs rhs : Nat)
  | assign (target value : Nat)
  | typeName (name : String)
  | typeObject (fields : List Nat)
  | typeField (name : String) (type : Nat)
  | typeFunc (params : List Nat) (result : Nat)
  deriving Inhabited, Repr

namespace Form

/-- The names of the forms, by number; number zero is no form. -/
def names : List String :=
  ["Invalid", "Module", "TypeAlias", "DeclareFunc", "FuncDecl", "ArrowFunc", "Param", "VarDecl",
    "Return", "If", "While",
    "Block", "ExprStmt", "Ident", "NumberLit", "StringLit", "BoolLit", "NullLit", "This", "ObjectLit",
      "Property", "Call",
    "Member", "Unary", "Binary", "Assign", "TypeName", "TypeObject", "TypeField", "TypeFunc"]

/-- The number of a form in `names`. -/
def ordinal : Form → Nat
  | module .. => 1
  | typeAlias .. => 2
  | declareFunc .. => 3
  | funcDecl .. => 4
  | arrowFunc .. => 5
  | param .. => 6
  | varDecl .. => 7
  | ret .. => 8
  | ifElse .. => 9
  | whileLoop .. => 10
  | block .. => 11
  | exprStmt .. => 12
  | ident .. => 13
  | number .. => 14
  | string .. => 15
  | bool .. => 16
  | null => 17
  | this => 18
  | object .. => 19
  | property .. => 20
  | call .. => 21
  | member .. => 22
  | unary .. => 23
  | binary .. => 24
  | assign .. => 25
  | typeName .. => 26
  | typeObject .. => 27
  | typeField .. => 28
  | typeFunc .. => 29

/-- The name of the form with the given number. -/
def nameOfNumber (n : Nat) : String := names.getD n "Kind(?)"

def kindName (f : Form) : String := nameOfNumber f.ordinal

/-- The name that the form declares, uses or accesses; empty if it has none. -/
def name : Form → String
  | typeAlias n _ | declareFunc n .. | funcDecl n .. | param n _ | varDecl n .. | ident n | property
      n _ | member _ n
  | typeName n | typeField n _ => n
  | _ => ""

/-- The parts, in source order. -/
def children : Form → List Nat
  | module body | block body => body
  | typeAlias _ type => [type]
  | declareFunc _ params result => params ++ [result]
  | funcDecl _ params result body => params ++ result.toList ++ [body]
  | arrowFunc params result body => params ++ result.toList ++ [body]
  | param _ type => type.toList
  | varDecl _ _ type init => type.toList ++ [init]
  | ret value => value.toList
  | ifElse cond thenBranch elseBranch => [cond, thenBranch] ++ elseBranch.toList
  | whileLoop cond body => [cond, body]
  | exprStmt expr => [expr]
  | ident _ | number _ | string _ | bool _ | null | this | typeName _ => []
  | object props => props
  | property _ value => [value]
  | call callee args => callee :: args
  | member base _ => [base]
  | unary _ operand => [operand]
  | binary _ lhs rhs => [lhs, rhs]
  | assign target value => [target, value]
  | typeObject fields => fields
  | typeField _ type => [type]
  | typeFunc params result => params ++ [result]

/-- The expressions and branches of a form, in source order, apart from those that stand in a list. -/
def operands : Form → List Nat
  | varDecl _ _ _ x | exprStmt x | property _ x | call x _ | member x _ | unary _ x => [x]
  | ret x => x.toList
  | ifElse x y z => [x, y] ++ z.toList
  | whileLoop x y | binary _ x y | assign x y => [x, y]
  | _ => []

/-- The parts of a form of which there can be any number. -/
def items : Form → List Nat
  | module xs | block xs | object xs | typeObject xs | call _ xs | declareFunc _ xs _ | typeFunc xs
      _ | funcDecl _ xs _ _
  | arrowFunc xs _ _ => xs
  | _ => []

/-- Whether the form has a body that is run when it is called. -/
def isFunction : Form → Bool
  | funcDecl .. | arrowFunc .. => true
  | _ => false

/-- Whether the form is a type expression. -/
def isType : Form → Bool
  | typeName _ | typeObject _ | typeField .. | typeFunc .. => true
  | _ => false

/-- The body of a function. -/
def body? : Form → Option Nat
  | funcDecl _ _ _ body | arrowFunc _ _ body => some body
  | _ => none

/-- The parameters of a function or a declared one. -/
def params : Form → List Nat
  | funcDecl _ params _ _ | arrowFunc params _ _ | declareFunc _ params _ | typeFunc params _ => params
  | _ => []

/-- The written type of a declaration, or the written result type of a function. -/
def type? : Form → Option Nat
  | funcDecl _ _ result _ | arrowFunc _ result _ => result
  | declareFunc _ _ result | typeFunc _ result => some result
  | param _ type | varDecl _ _ type _ => type
  | typeAlias _ type | typeField _ type => some type
  | _ => none

end Form

structure Node where
  form : Form
  span : Source.Span
  deriving Inhabited, Repr

end TypedScript.Ast
