import TypedScript.Proofs.Ast.Reading
import TypedScript.Proofs.Token.Spelled

/-!
# Expressions and how they are written

An expression is written as a list of words. Parentheses stand only where an expression would be read as another
one without them: around what binds weaker than its place wants, around an arrow function whose body would go on,
and around an object with which the body of an arrow function would start, because that would be read as a block.

* `Expr.words`: the words of an expression.
* `Expr.IsAt`: a node is an expression, whatever the numbers and the places of the nodes are.
-/

namespace TypedScript.Ast

open TypedScript.Token TypedScript.Text

/-! ### Words -/

namespace Word

def name (s : String) : Word := ⟨.ident, s⟩

def symbol (k : Kind) : Word := ⟨k, ""⟩

def keyword (k : Kind) : Word := ⟨k, k.name⟩

def parens (ws : List Word) : List Word := symbol .lparen :: (ws ++ [symbol .rparen])

def braces (ws : List Word) : List Word := symbol .lbrace :: (ws ++ [symbol .rbrace])

/-- Lists of words with commas before them. -/
def moreCommas : List (List Word) → List Word
  | [] => []
  | ws :: wss => symbol .comma :: (ws ++ moreCommas wss)

/-- Lists of words with commas between them. -/
def commas : List (List Word) → List Word
  | [] => []
  | ws :: wss => ws ++ moreCommas wss

theorem commas_cons (ws : List Word) (wss : List (List Word)) : commas (ws :: wss) = ws ++ moreCommas wss := rfl

end Word

/-! ### Types -/

inductive TypeExpr where
  | name (name : String)
  | object (fields : List (String × TypeExpr))
  | func (params : List (String × Option TypeExpr)) (result : TypeExpr)

namespace TypeExpr

mutual

def words : TypeExpr → List Word
  | name n => [if n = "null" then .keyword .kwNull else .name n]
  | object fields => Word.braces (Word.commas (fieldWords fields))
  | func params result => Word.parens (Word.commas (paramWords params)) ++ .symbol .fatArrow :: result.words
  termination_by structural t => t

def fieldWords : List (String × TypeExpr) → List (List Word)
  | [] => []
  | (n, t) :: fields => (.name n :: .symbol .colon :: t.words) :: fieldWords fields
  termination_by structural fields => fields

def paramWords : List (String × Option TypeExpr) → List (List Word)
  | [] => []
  | (n, none) :: params => [.name n] :: paramWords params
  | (n, some t) :: params => (.name n :: .symbol .colon :: t.words) :: paramWords params
  termination_by structural params => params

end

mutual

/-- The names in a type can be read. -/
def IsProper : TypeExpr → Prop
  | name n => n = "null" ∨ isName n = true
  | object fields => FieldsProper fields
  | func params result => ParamsProper params ∧ result.IsProper
  termination_by structural t => t

def FieldsProper : List (String × TypeExpr) → Prop
  | [] => True
  | (n, t) :: fields => isName n = true ∧ t.IsProper ∧ FieldsProper fields
  termination_by structural fields => fields

def ParamsProper : List (String × Option TypeExpr) → Prop
  | [] => True
  | (n, none) :: params => isName n = true ∧ ParamsProper params
  | (n, some t) :: params => isName n = true ∧ t.IsProper ∧ ParamsProper params
  termination_by structural params => params

end

mutual

/-- The node is the type. -/
def IsAt (forms : Forms) : TypeExpr → Nat → Prop
  | name n, id => forms id = some (.typeName n)
  | object fields, id => ∃ ids, forms id = some (.typeObject ids) ∧ FieldsAt forms fields ids
  | func params result, id =>
      ∃ ids r, forms id = some (.typeFunc ids r) ∧ ParamsAt forms params ids ∧ result.IsAt forms r
  termination_by structural t => t

def FieldsAt (forms : Forms) : List (String × TypeExpr) → List Nat → Prop
  | [], ids => ids = []
  | (n, t) :: fields, ids => ∃ id x rest, ids = id :: rest ∧ forms id = some (.typeField n x) ∧ t.IsAt forms x ∧
    FieldsAt forms fields rest
  termination_by structural fields => fields

def ParamsAt (forms : Forms) : List (String × Option TypeExpr) → List Nat → Prop
  | [], ids => ids = []
  | (n, none) :: params, ids =>
      ∃ id rest, ids = id :: rest ∧ forms id = some (.param n none) ∧ ParamsAt forms params rest
  | (n, some t) :: params, ids =>
      ∃ id x rest, ids = id :: rest ∧ forms id = some (.param n (some x)) ∧ t.IsAt forms x ∧
    ParamsAt forms params rest
  termination_by structural params => params

end

/-- The node is the type, and there is none if there is no type. -/
def AscribedAt (forms : Forms) : Option TypeExpr → Option Nat → Prop
  | none, r => r = none
  | some t, r => ∃ x, r = some x ∧ t.IsAt forms x

end TypeExpr

/-! ### Expressions -/

inductive Expr where
  | ident (name : String)
  | number (spelling : String)
  | string (value : String)
  | bool (value : Bool)
  | null
  | object (props : List (String × Expr))
  | member (object : Expr) (name : String)
  | call (callee : Expr) (args : List Expr)
  | unary (op : UnaryOp) (operand : Expr)
  | binary (op : BinaryOp) (lhs rhs : Expr)
  | assign (target value : Expr)
  | arrow (params : List (String × Option TypeExpr)) (result : Option TypeExpr) (body : Expr)

namespace Expr

/-- Whether an expression is in parentheses at a place where operators of at least the given power may stand. What
is `tail` is followed by nothing that could belong to it; what is `lead` starts the body of an arrow function. -/
def isEnclosed (power : Nat) (tail lead : Bool) : Expr → Bool
  | assign .. => 0 < power
  | arrow .. => !tail || 7 < power
  | binary op .. => op.power < power
  | unary .. => 7 < power
  | object _ => lead
  | _ => false

/-- The words of an expression at a place, given those without parentheses around it. -/
def enclose (e : Expr) (power : Nat) (tail lead : Bool) (bare : Bool → Bool → List Word) : List Word :=
  if e.isEnclosed power tail lead then Word.parens (bare true false) else bare tail lead

/-- The parameters and the result type of an arrow function. A single name needs no parentheses. -/
def signature : List (String × Option TypeExpr) → Option TypeExpr → List Word
  | [(n, none)], none => [.name n]
  | params, result =>
    Word.parens (Word.commas (TypeExpr.paramWords params)) ++ result.elim [] fun t => .symbol .colon :: t.words

mutual

/-- The words of an expression without parentheses around it. -/
def bare : Expr → Bool → Bool → List Word
  | ident n, _, _ => [.name n]
  | number spelling, _, _ => [⟨.number, spelling⟩]
  | string value, _, _ => [⟨.string, value⟩]
  | bool value, _, _ => [.keyword (if value then .kwTrue else .kwFalse)]
  | null, _, _ => [.keyword .kwNull]
  | object props, _, _ => Word.braces (Word.commas (propWords props))
  | member x n, _, lead => x.enclose 8 false lead x.bare ++ [.symbol .dot, .name n]
  | call f args, _, lead =>
    f.enclose 8 false lead f.bare ++ Word.parens (Word.commas (argWords args))
  | unary op x, tail, _ => .symbol op.token :: x.enclose 7 tail false x.bare
  | binary op x y, tail, lead =>
    x.enclose op.power false lead x.bare ++ .symbol op.token :: y.enclose (op.power + 1) tail false y.bare
  | assign x y, _, lead => x.enclose 8 false lead x.bare ++ .symbol .assign :: y.enclose 0 true false y.bare
  | arrow params result body, _, _ =>
      signature params result ++ .symbol .fatArrow :: body.enclose 0 true true body.bare
  termination_by structural e => e

def propWords : List (String × Expr) → List (List Word)
  | [] => []
  | (n, x) :: props => (.name n :: .symbol .colon :: x.enclose 0 true false x.bare) :: propWords props
  termination_by structural props => props

def argWords : List Expr → List (List Word)
  | [] => []
  | x :: args => x.enclose 0 true false x.bare :: argWords args
  termination_by structural args => args

end

/-- The words of an expression at a place. -/
def words (power : Nat) (tail lead : Bool) (e : Expr) : List Word := e.enclose power tail lead e.bare

/-- Whether a value can be assigned to the expression. -/
def isTarget : Expr → Bool
  | ident _ | member .. => true
  | _ => false

mutual

/-- Names and numbers can be read, properties have different names, and values are assigned to names and members. -/
def IsProper : Expr → Prop
  | ident n => isName n = true
  | number spelling => IsNumeral spelling.toList ∧ (Parser.numberValue? spelling).isSome = true
  | string _ | bool _ | null => True
  | object props => (props.map (·.1)).Nodup ∧ PropsProper props
  | member x n => x.IsProper ∧ isName n = true
  | call f args => f.IsProper ∧ ArgsProper args
  | unary _ x => x.IsProper
  | binary _ x y => x.IsProper ∧ y.IsProper
  | assign x y => x.isTarget = true ∧ x.IsProper ∧ y.IsProper
  | arrow params result body => TypeExpr.ParamsProper params ∧ (∀ t ∈ result, t.IsProper) ∧ body.IsProper
  termination_by structural e => e

def PropsProper : List (String × Expr) → Prop
  | [] => True
  | (n, x) :: props => isName n = true ∧ x.IsProper ∧ PropsProper props
  termination_by structural props => props

def ArgsProper : List Expr → Prop
  | [] => True
  | x :: args => x.IsProper ∧ ArgsProper args
  termination_by structural args => args

end

mutual

/-- The node is the expression. -/
def IsAt (forms : Forms) : Expr → Nat → Prop
  | ident n, id => forms id = some (.ident n)
  | number spelling, id => ∃ v, Parser.numberValue? spelling = some v ∧ forms id = some (.number v)
  | string value, id => forms id = some (.string value)
  | bool value, id => forms id = some (.bool value)
  | null, id => forms id = some .null
  | object props, id => ∃ ids, forms id = some (.object ids) ∧ PropsAt forms props ids
  | member x n, id => ∃ i, forms id = some (.member i n) ∧ x.IsAt forms i
  | call f args, id => ∃ i ids, forms id = some (.call i ids) ∧ f.IsAt forms i ∧ ArgsAt forms args ids
  | unary op x, id => ∃ i, forms id = some (.unary op i) ∧ x.IsAt forms i
  | binary op x y, id => ∃ i j, forms id = some (.binary op i j) ∧ x.IsAt forms i ∧ y.IsAt forms j
  | assign x y, id => ∃ i j, forms id = some (.assign i j) ∧ x.IsAt forms i ∧ y.IsAt forms j
  | arrow params result body, id =>
      ∃ ids r b, forms id = some (.arrowFunc ids r b) ∧ TypeExpr.ParamsAt forms params ids ∧
    TypeExpr.AscribedAt forms result r ∧ body.IsAt forms b
  termination_by structural e => e

def PropsAt (forms : Forms) : List (String × Expr) → List Nat → Prop
  | [], ids => ids = []
  | (n, x) :: props, ids => ∃ id i rest, ids = id :: rest ∧ forms id = some (.property n i) ∧ x.IsAt forms i ∧
    PropsAt forms props rest
  termination_by structural props => props

def ArgsAt (forms : Forms) : List Expr → List Nat → Prop
  | [], ids => ids = []
  | x :: args, ids => ∃ i rest, ids = i :: rest ∧ x.IsAt forms i ∧ ArgsAt forms args rest
  termination_by structural args => args

end

end Expr

variable {forms forms' : Forms}

/-! ### Nodes are not changed -/

namespace TypeExpr

mutual

theorem isAt_mono (hle : ∀ id f, forms id = some f → forms' id = some f) :
    ∀ (t : TypeExpr) (id : Nat), t.IsAt forms id → t.IsAt forms' id
  | name _, _, h => hle _ _ h
  | object fields, _, ⟨ids, hid, h⟩ => ⟨ids, hle _ _ hid, fieldsAt_mono hle fields ids h⟩
  | func params result, _, ⟨ids, r, hid, h, h'⟩ =>
    ⟨ids, r, hle _ _ hid, paramsAt_mono hle params ids h, isAt_mono hle result r h'⟩
  termination_by structural t => t

theorem fieldsAt_mono (hle : ∀ id f, forms id = some f → forms' id = some f) :
    ∀ (fields : List (String × TypeExpr)) (ids : List Nat), FieldsAt forms fields ids → FieldsAt forms' fields ids
  | [], _, h => h
  | (_, t) :: fields, _, ⟨id, x, rest, hids, hid, h, h'⟩ =>
    ⟨id, x, rest, hids, hle _ _ hid, isAt_mono hle t x h, fieldsAt_mono hle fields rest h'⟩
  termination_by structural fields => fields

theorem paramsAt_mono (hle : ∀ id f, forms id = some f → forms' id = some f) :
    ∀ (params : List (String × Option TypeExpr)) (ids : List Nat), ParamsAt forms params ids →
      ParamsAt forms' params ids
  | [], _, h => h
  | (_, none) :: params, _, ⟨id, rest, hids, hid, h⟩ =>
      ⟨id, rest, hids, hle _ _ hid, paramsAt_mono hle params rest h⟩
  | (_, some t) :: params, _, ⟨id, x, rest, hids, hid, h, h'⟩ =>
    ⟨id, x, rest, hids, hle _ _ hid, isAt_mono hle t x h, paramsAt_mono hle params rest h'⟩
  termination_by structural params => params

end

theorem ascribedAt_mono (hle : ∀ id f, forms id = some f → forms' id = some f) :
    ∀ (t : Option TypeExpr) (r : Option Nat), AscribedAt forms t r → AscribedAt forms' t r
  | none, _, h => h
  | some t, _, ⟨x, hr, h⟩ => ⟨x, hr, isAt_mono hle t x h⟩

/-- The node is the type. -/
def fact (t : TypeExpr) (id : Nat) : Fact := ⟨fun forms => t.IsAt forms id, fun hle => isAt_mono hle t id⟩

def ascribedFact (t : Option TypeExpr) (r : Option Nat) : Fact :=
  ⟨fun forms => AscribedAt forms t r, fun hle => ascribedAt_mono hle t r⟩

/-! ### Fields and parameters -/

def Field.words (f : String × TypeExpr) : List Word := .name f.1 :: .symbol .colon :: f.2.words

def Field.fact (f : String × TypeExpr) (id : Nat) : Fact where
  holds forms := ∃ x, forms id = some (.typeField f.1 x) ∧ f.2.IsAt forms x
  mono := fun hle ⟨x, hid, h⟩ => ⟨x, hle _ _ hid, isAt_mono hle f.2 x h⟩

def Param.words (p : String × Option TypeExpr) : List Word := .name p.1 :: p.2.elim [] fun t =>
    .symbol .colon :: t.words

def Param.fact (p : String × Option TypeExpr) (id : Nat) : Fact where
  holds forms := ∃ r, forms id = some (.param p.1 r) ∧ AscribedAt forms p.2 r
  mono := fun hle ⟨r, hid, h⟩ => ⟨r, hle _ _ hid, ascribedAt_mono hle p.2 r h⟩

theorem fieldWords_eq : ∀ fields, fieldWords fields = fields.map Field.words
  | [] => rfl
  | _ :: fields => congrArg _ (fieldWords_eq fields)

theorem paramWords_eq : ∀ params, paramWords params = params.map Param.words
  | [] => rfl
  | (_, none) :: params => congrArg _ (paramWords_eq params)
  | (_, some _) :: params => congrArg _ (paramWords_eq params)

theorem fieldsAt_of_forall₂ : ∀ {fields : List (String × TypeExpr)} {ids : List Nat},
    List.Forall₂ (fun f id => (Field.fact f id).holds forms) fields ids → FieldsAt forms fields ids
  | _, _, .nil => rfl
  | _, _, .cons ⟨x, hid, h⟩ hs => ⟨_, x, _, rfl, hid, h, fieldsAt_of_forall₂ hs⟩

theorem paramsAt_of_forall₂ : ∀ {params : List (String × Option TypeExpr)} {ids : List Nat},
    List.Forall₂ (fun p id => (Param.fact p id).holds forms) params ids → ParamsAt forms params ids
  | _, _, .nil => rfl
  | (_, none) :: _, _, .cons ⟨_, hid, hr⟩ hs => ⟨_, _, rfl, hr ▸ hid, paramsAt_of_forall₂ hs⟩
  | (_, some _) :: _, _, .cons ⟨_, hid, ⟨x, hr, h⟩⟩ hs => ⟨_, x, _, rfl, hr ▸ hid, h, paramsAt_of_forall₂ hs⟩

end TypeExpr

namespace Expr

mutual

theorem isAt_mono (hle : ∀ id f, forms id = some f → forms' id = some f) :
    ∀ (e : Expr) (id : Nat), e.IsAt forms id → e.IsAt forms' id
  | ident _, _, h => hle _ _ h
  | number _, _, ⟨v, hv, h⟩ => ⟨v, hv, hle _ _ h⟩
  | string _, _, h => hle _ _ h
  | bool _, _, h => hle _ _ h
  | null, _, h => hle _ _ h
  | object props, _, ⟨ids, hid, h⟩ => ⟨ids, hle _ _ hid, propsAt_mono hle props ids h⟩
  | member x _, _, ⟨i, hid, h⟩ => ⟨i, hle _ _ hid, isAt_mono hle x i h⟩
  | call f args, _, ⟨i, ids, hid, h, h'⟩ => ⟨i, ids, hle _ _ hid, isAt_mono hle f i h, argsAt_mono hle args ids h'⟩
  | unary _ x, _, ⟨i, hid, h⟩ => ⟨i, hle _ _ hid, isAt_mono hle x i h⟩
  | binary _ x y, _, ⟨i, j, hid, h, h'⟩ => ⟨i, j, hle _ _ hid, isAt_mono hle x i h, isAt_mono hle y j h'⟩
  | assign x y, _, ⟨i, j, hid, h, h'⟩ => ⟨i, j, hle _ _ hid, isAt_mono hle x i h, isAt_mono hle y j h'⟩
  | arrow params result body, _, ⟨ids, r, b, hid, h, hr, h'⟩ =>
    ⟨ids, r, b, hle _ _ hid, TypeExpr.paramsAt_mono hle params ids h, TypeExpr.ascribedAt_mono hle result r hr,
      isAt_mono hle body b h'⟩
  termination_by structural e => e

theorem propsAt_mono (hle : ∀ id f, forms id = some f → forms' id = some f) :
    ∀ (props : List (String × Expr)) (ids : List Nat), PropsAt forms props ids → PropsAt forms' props ids
  | [], _, h => h
  | (_, x) :: props, _, ⟨id, i, rest, hids, hid, h, h'⟩ =>
    ⟨id, i, rest, hids, hle _ _ hid, isAt_mono hle x i h, propsAt_mono hle props rest h'⟩
  termination_by structural props => props

theorem argsAt_mono (hle : ∀ id f, forms id = some f → forms' id = some f) :
    ∀ (args : List Expr) (ids : List Nat), ArgsAt forms args ids → ArgsAt forms' args ids
  | [], _, h => h
  | x :: args, _, ⟨i, rest, hids, h, h'⟩ => ⟨i, rest, hids, isAt_mono hle x i h, argsAt_mono hle args rest h'⟩
  termination_by structural args => args

end

/-- The node is the expression. -/
def fact (e : Expr) (id : Nat) : Fact := ⟨fun forms => e.IsAt forms id, fun hle => isAt_mono hle e id⟩

def propsFact (props : List (String × Expr)) (ids : List Nat) : Fact :=
  ⟨fun forms => PropsAt forms props ids, fun hle => propsAt_mono hle props ids⟩

theorem argWords_eq : ∀ args, argWords args = args.map (words 0 true false)
  | [] => rfl
  | _ :: args => congrArg _ (argWords_eq args)

theorem argsAt_of_forall₂ : ∀ {args : List Expr} {ids : List Nat},
    List.Forall₂ (fun x id => (fact x id).holds forms) args ids → ArgsAt forms args ids
  | _, _, .nil => rfl
  | _, _, .cons h hs => ⟨_, _, rfl, h, argsAt_of_forall₂ hs⟩

end Expr

end TypedScript.Ast
