import Std.Data.TreeMap
import TypedScript.Binding.Table
import TypedScript.Diagnostic.Basic
import TypedScript.Ty.Interner

/-!
# Checking: state and problems

The checker gives every expression and declaration a type. It goes on after an error with no type, which fits
everywhere, so that one mistake is reported once.
-/

namespace TypedScript.Check

open TypedScript.Ast TypedScript.Binding TypedScript.Source

/-- What can be wrong with types. Types appear by their texts. -/
inductive Problem where
  | mismatch (got want : String)
  | circularAlias (name : String)
  | emptyObjectType
  | duplicateField (name : String)
  | untypedFunctionTypeParam
  | untypedNullVariable
  | returnOutsideFunction
  | missingReturnValue (want : String)
  | recursiveWithoutResult (name : String)
  | untypedParam (name : String)
  | notAnExpression (kind : String)
  | emptyObject
  | extraProperty (name want : String)
  | missingProperty (name : String)
  | untypedNullProperty (name : String)
  | noProperties (type : String)
  | unknownProperty (name type : String)
  | notCallable (type : String)
  | argumentCount (expected got : Nat)
  | negatedNonNumber
  | incomparable (left right : String)
  | stringComparison
  | nonNumericOperands (op left right : String)
  | assignToConstant (name : String)
  | assignToFunction (name : String)
  deriving DecidableEq, Repr

namespace Problem

def code : Problem → Diagnostic.Code
  | mismatch .. | missingReturnValue _ => .typeMismatch
  | circularAlias _ | emptyObjectType => .unknownType
  | duplicateField _ => .duplicateDeclaration
  | untypedFunctionTypeParam | untypedNullVariable | recursiveWithoutResult _ | untypedParam
      _ | untypedNullProperty _ =>
    .missingType
  | returnOutsideFunction => .returnOutsideFunction
  | notAnExpression _ | emptyObject | negatedNonNumber | incomparable
      .. | stringComparison | nonNumericOperands .. =>
    .invalidOperand
  | extraProperty .. => .extraProperty
  | missingProperty _ => .missingProperty
  | noProperties _ | unknownProperty .. => .unknownProperty
  | notCallable _ => .notCallable
  | argumentCount .. => .argumentCount
  | assignToConstant _ => .assignToConstant
  | assignToFunction _ => .notAssignable

def message : Problem → String
  | mismatch got want => s!"type '{got}' is not assignable to type '{want}'"
  | circularAlias name => s!"type alias '{name}' circularly references itself"
  | emptyObjectType => "empty object types are not supported"
  | duplicateField name => s!"duplicate field '{name}'"
  | untypedFunctionTypeParam => "parameter in function type needs a type"
  | untypedNullVariable => "variable initialized with null needs a type annotation"
  | returnOutsideFunction => "return outside of a function"
  | missingReturnValue want => s!"missing return value of type '{want}'"
  | recursiveWithoutResult name => s!"recursive function '{name}' needs a return type annotation"
  | untypedParam name => s!"parameter '{name}' needs a type annotation"
  | notAnExpression kind => s!"unexpected {kind} in expression position"
  | emptyObject => "empty object literals are not supported"
  | extraProperty name want => s!"property '{name}' does not exist in type '{want}'"
  | missingProperty name => s!"property '{name}' is missing"
  | untypedNullProperty name => s!"property '{name}' initialized with null needs a contextual type"
  | noProperties type => s!"type '{type}' has no properties"
  | unknownProperty name type => s!"property '{name}' does not exist on type '{type}'"
  | notCallable type => s!"type '{type}' is not callable"
  | argumentCount expected got => s!"expected {expected} arguments, got {got}"
  | negatedNonNumber => "operator '-' needs a numeric operand"
  | incomparable left right => s!"cannot compare '{left}' with '{right}'"
  | stringComparison => "string comparison is not supported"
  | nonNumericOperands op left right =>
    s!"operator '{op}' needs numeric operands of the same type, got '{left}' and '{right}'"
  | assignToConstant name => s!"cannot assign to '{name}' because it is a constant"
  | assignToFunction name => s!"cannot assign to function '{name}'"

end Problem

/-- What is checked. -/
structure Env where
  tree : Tree
  table : Table

/-- The function whose body is being checked. Its result is declared, expected by the context, or still to be
found. -/
structure Frame where
  result : Nat
  inferred : Nat := 0

structure State where
  types : Ty.Interner := {}
  /-- The type of every expression and declaration that has one. -/
  info : Std.TreeMap Nat Nat := {}
  /-- The alias types of alias declarations. -/
  aliases : List (Nat × Nat) := []
  /-- The types of declared functions that are known. -/
  signatures : List (Nat × Nat) := []
  /-- The functions whose bodies are being checked. -/
  busy : List Nat := []
  /-- The functions whose bodies have been or are being checked. -/
  done : List Nat := []
  /-- The result types of the functions whose bodies have been checked. -/
  results : List (Nat × Nat) := []
  /-- The functions around the place being checked, innermost first. -/
  frames : List Frame := []
  diagnostics : List Diagnostic := []

abbrev CheckM := StateM State

def report (span : Span) (p : Problem) : CheckM Unit :=
  modify fun s => { s with diagnostics := s.diagnostics ++ [{ code := p.code, span, message := p.message }] }

/-- Records the type of a node, if it has one. -/
def record (id type : Nat) : CheckM Nat := do
  if type ≠ 0 then modify fun s => { s with info := s.info.insert id type }
  return type

/-- The recorded type of a node; zero if it has none. -/
def typeOf (id : Nat) : CheckM Nat := return (← get).info.getD id 0

/-- The structure behind any aliases. -/
def resolved? (type : Nat) : CheckM (Option Ty) := return (← get).types.resolved? type

def typeText (type : Nat) : CheckM String := return (← get).types.render type

def assignable (dst src : Nat) : CheckM Bool := return (← get).types.assignable dst src

def internObject (props : List (String × Nat)) : CheckM Nat :=
  modifyGet fun s => let (id, types) := s.types.object props; (id, { s with types })

def internFunc (params : List Nat) (result : Nat) : CheckM Nat :=
  modifyGet fun s => let (id, types) := s.types.func params result; (id, { s with types })

def reportMismatch (span : Span) (want got : Nat) : CheckM Unit := do
  report span (.mismatch (← typeText got) (← typeText want))

/-- Reports it if `got` cannot be used where `want` is expected. No type fits everywhere. -/
def expect (span : Span) (want got : Nat) : CheckM Unit := do
  if want ≠ 0 ∧ got ≠ 0 then
    if !(← assignable want got) then reportMismatch span want got

end TypedScript.Check
