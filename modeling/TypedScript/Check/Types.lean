import TypedScript.Check.Basic

/-!
# Checking: type expressions

Aliases are made before any type expression is looked at, so they may refer to each other and to themselves.
-/

namespace TypedScript.Check

open TypedScript.Ast TypedScript.Binding

/-- The properties of an object type. A second field of one name is reported and left out; a field without a type
leaves the whole without one. -/
def fieldProps (t : Tree) (sub : Nat → CheckM Nat) : List Nat → List (String × Nat) → CheckM
    (Option (List (String × Nat)))
  | [], props => return some props.reverse
  | f :: rest, props => do
    match t.form? f with
    | some (.typeField name type) =>
      if props.any (·.1 = name) then
        report (t.span f) (.duplicateField name)
        fieldProps t sub rest props
      else
        let type ← sub type
        if type = 0 then return none else fieldProps t sub rest ((name, type) :: props)
    | _ => fieldProps t sub rest props

/-- The types of the parameters of a function type; each needs one. -/
def paramTypesOfType (t : Tree) (sub : Nat → CheckM Nat) : List Nat → CheckM (Option (List Nat))
  | [] => return some []
  | p :: rest => do
    let type ← match (t.form? p).bind (·.type?) with
      | some type => sub type
      | none => pure 0
    if type = 0 then
      report (t.span p) .untypedFunctionTypeParam
      return none
    match ← paramTypesOfType t sub rest with
    | some types => return some (type :: types)
    | none => return none

/-- The type that a type expression denotes; zero if it denotes none. -/
def resolveType (env : Env) (id : Nat) : CheckM Nat :=
  let sub := fun c => if _h : c < id then resolveType env c else pure 0
  match env.tree.form? id with
  | some (.typeName name) =>
    match Ty.primitive? name with
    | some type => return type
    | none =>
      match env.table.typeDecl? id with
      | some d => return ((← get).aliases.lookup d).getD 0
      | none => return 0
  | some (.typeObject fields) => do
    if fields.isEmpty then
      report (env.tree.span id) .emptyObjectType
      return 0
    match ← fieldProps env.tree sub fields [] with
    | some props => internObject props
    | none => return 0
  | some (.typeFunc params result) => do
    match ← paramTypesOfType env.tree sub params with
    | none => return 0
    | some params =>
      let result ← sub result
      if result = 0 then return 0 else internFunc params result
  | _ => return 0
  termination_by id

/-- The type that a type expression, if there is one, denotes. -/
def resolveType? (env : Env) (written : Option Nat) : CheckM Nat :=
  match written with
  | some id => resolveType env id
  | none => return 0

/-- The alias declarations of a tree. -/
def aliasDecls (t : Tree) : List Nat := t.reached.filter fun id => symbolKind t id = .type

/-- Makes all aliases, gives them their targets, and reports those that lead to no type. -/
def declareAliases (env : Env) : CheckM Unit := do
  let decls := aliasDecls env.tree
  decls.forM fun d => do
    let id ← modifyGet fun s => let (id, types) := s.types.newAlias (env.tree.name d); (id, { s with types })
    modify fun s => { s with aliases := (d, id) :: s.aliases }
    let _ ← record d id
  decls.forM fun d => do
    let target ← resolveType? env ((env.tree.form? d).bind (·.type?))
    modify fun s => { s with types := s.types.setAlias ((s.aliases.lookup d).getD 0) target }
  decls.forM fun d => do
    let s ← get
    if s.types.unalias ((s.aliases.lookup d).getD 0) = 0 then
      report (env.tree.span d) (.circularAlias (env.tree.name d))

end TypedScript.Check
