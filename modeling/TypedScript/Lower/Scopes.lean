import TypedScript.Lower.Objects

/-!
# Lowering: scopes and bindings

On entry to a container all its names are declared at once, functions included. If the container escapes, its
scope object is made, linked to the next one outward, and holds every variable and parameter; otherwise each of
them gets a stack slot.

Variables of enclosing functions are reached from the environment through the links between scope objects.
-/

namespace TypedScript.Lower

open TypedScript.Ast TypedScript.Ir TypedScript.Layout

/-- The key of the scope object of a container. -/
def scopeKey (t : Tree) (container : Nat) : String :=
  match t.form? container with
  | some (.module _) => "module"
  | some (.funcDecl ..) | some (.arrowFunc ..) => codeName t container
  | _ => s!"block.{container}"

/-- The field that a variable is kept in. The name of the link stays free. -/
def fieldName (name : String) : String := if name = parentField then name ++ "$" else name

/-- The scope as it is now. -/
def scopeNode (scope : Nat) : LowerM Scope.Node := return (← get).chain.get scope

/-- The layout of the scope object of a scope. -/
def scopeLayout (scope : Nat) : LowerM Descriptor := return (← scopeNode scope).layout.getD default

/-- A pointer to the scope object of `target`, as seen from `cur`: null for none, at hand within one function, and
otherwise found by following the links from the environment. -/
def scopePointer (cur : Nat) (target : Option Nat) : LowerM Operand := do
  match target with
  | none => return .null
  | some target =>
    let chain := (← get).chain
    if chain.function target = chain.function cur then return (chain.get target).object
    match chain.envPath? cur target with
    | none => throw (.unreachableObject (chain.get target).container none)
    | some path =>
      path.dropLast.foldlM (fun v hop => do
        let d ← scopeLayout hop
        loadField d v (← fieldOf d parentField)) (← get).env

/-- The scope whose object a new scope object of `scope` links to. -/
def parentEnv? (chain : Scope.Chain) (scope : Nat) : Option Nat := (chain.get scope).parent.bind chain.envAt?

/-- Declares one name of a container in its scope. -/
def declareBinding (inp : Input) (scope : Nat) (escaping : Bool) (decl : Nat) : LowerM Unit := do
  let name := inp.tree.name decl
  let add (b : Scope.Binding) : LowerM Unit := modify fun s => { s with chain := s.chain.declare scope b }
  match inp.tree.form? decl with
  | some (.typeAlias ..) => pure ()
  | some (.declareFunc ..) =>
    let code ← codeFor inp decl
    let rep ← repOf inp decl
    add { name, decl, kind := .foreign, rep, code }
  | some (.funcDecl ..) =>
    let code ← enqueue inp decl scope
    let rep ← repOf inp decl
    add { name, decl, kind := .function, rep, code }
  | form =>
    let kind := match form with
      | some (.param ..) => Scope.BindingKind.param
      | _ => .var
    let rep ← repOf inp decl
    add { name, decl, kind, rep, inObject := escaping }

/-- Makes the scope object of a scope from its variables and links it. -/
def makeScopeObject (inp : Input) (scope container : Nat) (vars : List Scope.Binding) : LowerM Unit := do
  let specs := vars.map fun b => (⟨fieldName b.name, b.rep⟩ : FieldSpec)
  let (registry, d) := (← get).registry.scope (scopeKey inp.tree container) specs
  modify fun s => { s with registry }
  let object ← construct inp d
  modifyScope scope fun n => { n with layout := some d, object }
  let parent ← locate (inp.tree.span container) (scopePointer scope (parentEnv? (← get).chain scope))
  let link ← fieldOf d parentField
  retain .scope parent
  store (← fieldAddr d object link) parent

/-- Gives a variable its place, and registers the release of what it will hold. A field that nested functions use is
released with the scope object. -/
def placeVariable (inp : Input) (scope : Nat) (b : Scope.Binding) : LowerM Unit := do
  let set (f : Scope.Binding → Scope.Binding) : LowerM Unit :=
    modifyScope scope fun n => { n with bindings := n.bindings.map fun b' => if b'.decl = b.decl then f b' else b' }
  if b.inObject then
    let node ← scopeNode scope
    let d := node.layout.getD default
    let field ← fieldOf d (fieldName b.name)
    set fun b' => { b' with field }
    if b.rep.isCounted && !inp.analysis.isNested b.decl then
      defer scope ⟨.field, ← fieldAddr d node.object field, b.rep⟩
  else
    let slot ← alloca (irType b.rep)
    set fun b' => { b' with slot }
    if b.rep.isCounted then
      store slot .null
      defer scope ⟨.slot, slot, b.rep⟩

/-- Declares all names of a container in its scope and emits what is due on entry. -/
def enterContainer (inp : Input) (scope container : Nat) : LowerM Unit := do
  let escaping := inp.analysis.isEscaping container
  modifyScope scope fun n => { n with escaping }
  (inp.tree.decls container).forM (declareBinding inp scope escaping)
  let vars := (← scopeNode scope).bindings.reverse.filter fun b => !b.kind.isFunction
  if escaping then makeScopeObject inp scope container vars
  vars.forM (placeVariable inp scope)
  if escaping then defer scope ⟨.value, (← scopeNode scope).object, .scope⟩

/-- The address of a variable or parameter. -/
def bindingAddr (cur : Nat) (ref : Scope.Ref) : LowerM Operand := do
  let b := ref.binding
  if b.inObject then
    let base ← scopePointer cur (some ref.node)
    fieldAddr (← scopeLayout ref.node) base b.field
  else return b.slot

/-- The binding that an identifier refers to: the declaration it was resolved to, or else whatever has its name. -/
def lookup (inp : Input) (cur id : Nat) : LowerM Scope.Ref := do
  let chain := (← get).chain
  let name := inp.tree.name id
  let span := inp.tree.span id
  match inp.table.decl? id with
  | some decl => ofScope (chain.lookupDecl cur decl name span)
  | none =>
    match chain.lookup cur name with
    | .ok ref => return ref
    | .error _ => throw (.scope (.unresolved name span) none)

end TypedScript.Lower
