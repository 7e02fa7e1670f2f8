import TypedScript.Binding.Table
import TypedScript.Diagnostic.Basic
import TypedScript.Ty.Basic

/-!
# Name resolution

Names are bound lexically. Functions, declared functions and type aliases are visible in the whole of their
container; variables and parameters from their declaration on. A variable may be used in its own initializer only
inside a function, which runs after it has got its value.
-/

namespace TypedScript.Binding

open TypedScript.Ast TypedScript.Source

/-- What can be wrong with a name. -/
inductive Problem where
  | builtinRedeclared (name : String)
  | duplicate (name : String)
  | unknownType (name : String)
  | unresolved (name : String)
  | usedBeforeInitialization (name : String)
  deriving DecidableEq, Repr

namespace Problem

def code : Problem → Diagnostic.Code
  | builtinRedeclared _ | duplicate _ => .duplicateDeclaration
  | unknownType _ => .unknownType
  | unresolved _ | usedBeforeInitialization _ => .unresolvedName

def message : Problem → String
  | builtinRedeclared name => "cannot redeclare built-in type '" ++ name ++ "'"
  | duplicate name => "'" ++ name ++ "' is already declared in this scope"
  | unknownType name => "unknown type '" ++ name ++ "'"
  | unresolved name => "cannot find name '" ++ name ++ "'"
  | usedBeforeInitialization name => "'" ++ name ++ "' is used before its initialization"

end Problem

/-- The names one container has declared so far. -/
structure Names where
  values : List (String × Nat) := []
  types : List (String × Nat) := []

/-- The names of the containers that are open, innermost first, and what was found so far. -/
structure Resolver where
  scopes : List Names := []
  table : Table := {}
  diagnostics : List Diagnostic := []

abbrev ResolveM := StateM Resolver

def report (span : Span) (p : Problem) (notes : List Diagnostic.Note) : ResolveM Unit :=
  modify fun r => { r with
    diagnostics := r.diagnostics ++ [{ code := p.code, span, message := p.message, notes }] }

/-- The declaration that a name refers to: the one in the innermost scope that has it. -/
def lookupIn (part : Names → List (String × Nat)) (name : String) (scopes : List Names) : Option Nat :=
  scopes.findSome? fun s => (part s).lookup name

/-- Makes a name known in the innermost scope, or reports why it cannot be. -/
def declare (t : Tree) (decl : Nat) : ResolveM Unit := do
  let name := t.name decl
  let isType := symbolKind t decl = .type
  if isType && Ty.isPrimitiveName name then
    report (t.span decl) (.builtinRedeclared name) []
  else
    match (← get).scopes with
    | [] => pure ()
    | top :: outer =>
      match (if isType then top.types else top.values).lookup name with
      | some prev => report (t.span decl) (.duplicate name) [⟨t.span prev, "previous declaration"⟩]
      | none =>
        let top := if isType then { top with types := (name, decl) :: top.types }
          else { top with values := (name, decl) :: top.values }
        modify fun r => { r with scopes := top :: outer }

/-- Whether a declaration is visible in the whole of its container. -/
def isHoisted (t : Tree) (decl : Nat) : Bool :=
  match symbolKind t decl with
  | .function | .foreign | .type => true
  | _ => false

/-- Makes known what is visible in the whole of a container. -/
def hoist (t : Tree) (container : Nat) : ResolveM Unit :=
  ((t.decls container).filter (isHoisted t)).forM (declare t)

/-- Runs `act` with a scope of its own. -/
def inScope (act : ResolveM Unit) : ResolveM Unit := do
  modify fun r => { r with scopes := {} :: r.scopes }
  act
  modify fun r => { r with scopes := r.scopes.tail }

/-- Whether a function lies between the use `id` and the declaration `outer` that encloses it. -/
def isDeferredWithin (t : Tree) (outer id : Nat) : Bool :=
  ((t.ancestors id).takeWhile (· ≠ outer)).any t.isFunction

/-- Whether a use of a variable stands in its own initializer and is not deferred. -/
def isPremature (t : Tree) (decl id : Nat) : Bool :=
  match t.form? decl with
  | some (.varDecl ..) => t.isAncestor decl id && !isDeferredWithin t decl id
  | _ => false

/-- Binds the use `id` of a value name. -/
def resolveValue (t : Tree) (id : Nat) (name : String) : ResolveM Unit := do
  match lookupIn (·.values) name (← get).scopes with
  | none => report (t.span id) (.unresolved name) []
  | some d =>
    if isPremature t d id then report (t.span id) (.usedBeforeInitialization name) []
    else modify fun r => { r with table := { r.table with refs := r.table.refs.insert id d } }

/-- Binds the use `id` of a type name; the names of primitive types need no declaration. -/
def resolveType (t : Tree) (id : Nat) (name : String) : ResolveM Unit := do
  if Ty.isPrimitiveName name then return
  match lookupIn (·.types) name (← get).scopes with
  | none => report (t.span id) (.unknownType name) []
  | some d => modify fun r => { r with table := { r.table with typeRefs := r.table.typeRefs.insert id d } }

/-- The statements of a function's body block, or the body itself if it is an expression. -/
def bodyParts (t : Tree) (body : Nat) : List Nat :=
  match t.form? body with
  | some (.block stmts) => stmts
  | _ => [body]

/-- Binds the names used in a node and below it. -/
def walk (t : Tree) (id : Nat) : ResolveM Unit :=
  let sub := fun c => if _h : c < id then walk t c else pure ()
  let paramType := fun p => ((t.form? p).bind (·.type?)).toList.forM sub
  match t.form? id with
  | none => pure ()
  | some (.module body) | some (.block body) => inScope do
    hoist t id
    body.forM sub
  | some (.funcDecl _ params result body) | some (.arrowFunc params result body) => inScope do
    params.forM fun p => do
      paramType p
      declare t p
    result.toList.forM sub
    hoist t id
    (bodyParts t body).forM sub
  | some (.declareFunc _ params result) | some (.typeFunc params result) => do
    params.forM paramType
    sub result
  | some (.varDecl _ _ type init) => do
    type.toList.forM sub
    declare t id
    sub init
  | some (.ident name) => resolveValue t id name
  | some (.typeName name) => resolveType t id name
  | some f => f.children.forM sub
  termination_by id

/-- What resolution yields. -/
structure Resolved where
  table : Table
  diagnostics : List Diagnostic

/-- Binds all names of a tree, reporting those that cannot be bound. -/
def resolve (t : Tree) : Resolved :=
  let r := ((walk t t.root).run {}).2
  ⟨r.table, r.diagnostics⟩

end TypedScript.Binding
