import TypedScript.Ir.Command
import TypedScript.Layout.Registry
import TypedScript.Source.Span

/-!
# Scope chains

While code is made, every container that is entered gets a scope: the names it declares, the scope object it keeps
them in if it escapes, and what has to be released when it is left. Statements get transient scopes, which declare
nothing.

Scopes are kept in the order they were opened; a scope's parent was opened before it. `outward` lists a scope and
those around it, innermost first, and everything else is said in terms of it.
-/

namespace TypedScript.Scope

open TypedScript.Ir TypedScript.Layout

inductive BindingKind where
  | var
  | param
  | function
  | foreign
  deriving DecidableEq, Inhabited, Repr

/-- Whether the binding is a function that is known by name. -/
def BindingKind.isFunction : BindingKind → Bool
  | .function | .foreign => true
  | _ => false

/-- A name and what it stands for. -/
structure Binding where
  name : String
  decl : Nat
  kind : BindingKind
  rep : Rep := .void
  /-- Whether the value lives in the scope object of the scope. -/
  inObject : Bool := false
  /-- The place in the scope object. -/
  field : Field := default
  /-- The address of the stack slot. -/
  slot : Operand := .absent
  /-- The symbol of a function. -/
  code : String := ""
  deriving Inhabited

/-- How something is released when a scope is left. -/
inductive DeferKind where
  /-- A value that was owned when it was registered. -/
  | value
  /-- What a stack slot holds. -/
  | slot
  /-- What a field of the scope object holds; null is stored in its place. -/
  | field
  deriving DecidableEq, Inhabited, Repr

/-- A release that is due when a scope is left. The operand is the value, or the address of the slot or field. -/
structure Deferred where
  kind : DeferKind
  operand : Operand := .absent
  rep : Rep := .void
  deriving Inhabited

/-- One scope. -/
structure Node where
  parent : Option Nat := none
  /-- The container it was opened for; zero for a transient scope. -/
  container : Nat := 0
  /-- The function it belongs to; zero at module level. -/
  function : Nat := 0
  /-- Whether it has a scope object. -/
  escaping : Bool := false
  layout : Option Descriptor := none
  object : Operand := .absent
  /-- What is released when it is left, in order. -/
  deferred : List Deferred := []
  /-- The names declared, the last first. -/
  bindings : List Binding := []
  deriving Inhabited

namespace Node

def isTransient (n : Node) : Bool := n.container = 0

/-- The number of names declared. -/
def nameCount (n : Node) : Nat := (n.bindings.map (·.name)).eraseDups.length

end Node

/-- All scopes opened so far, by number. -/
structure Chain where
  nodes : Array Node := #[]
  deriving Inhabited

/-- Why a use of a name has no meaning. -/
inductive Error where
  | unresolved (name : String) (span : Source.Span)
  | notInObject (name : String)
  | unreachable (name : String)
  deriving DecidableEq, Repr

def Error.message : Error → String
  | .unresolved name _ => "unresolved reference " ++ Text.quote name
  | .notInObject name => "binding " ++ Text.quote name ++ " of an enclosing function is not in a scope object"
  | .unreachable name => "scope of " ++ Text.quote name ++ " is not reachable from the environment"

/-- A binding as it is seen from a scope. -/
structure Ref where
  binding : Binding
  /-- The scope that declares it. -/
  node : Nat
  /-- The scopes whose objects lead from the environment of the function to the declaring scope, which is the
  last; empty if the function itself declares the binding. -/
  path : List Nat := []

/-- Whether an enclosing function declares the binding. -/
def Ref.isOuter (r : Ref) : Bool := !r.path.isEmpty

/-- How many links between scope objects are followed. -/
def Ref.hops (r : Ref) : Nat := r.path.length - 1

namespace Chain

def get (c : Chain) (n : Nat) : Node := c.nodes.getD n {}

def modify (c : Chain) (n : Nat) (f : Node → Node) : Chain := ⟨c.nodes.modify n f⟩

/-- Opens a scope that no other encloses. -/
def openRoot (c : Chain) (container : Nat) : Chain × Nat :=
  (⟨c.nodes.push { container }⟩, c.nodes.size)

/-- Opens a scope inside another. -/
def openChild (c : Chain) (parent container function : Nat) : Chain × Nat :=
  (⟨c.nodes.push { parent := some parent, container, function }⟩, c.nodes.size)

/-- Opens a scope for a statement. -/
def openTransient (c : Chain) (parent : Nat) : Chain × Nat :=
  c.openChild parent 0 (c.get parent).function

/-- Declares a name; one of the same name is hidden. -/
def declare (c : Chain) (n : Nat) (b : Binding) : Chain :=
  c.modify n fun node => { node with bindings := b :: node.bindings }

/-- Registers something to be released. -/
def defer (c : Chain) (n : Nat) (d : Deferred) : Chain :=
  c.modify n fun node => { node with deferred := node.deferred ++ [d] }

/-- A scope and those around it, innermost first. -/
def outward (c : Chain) (n : Nat) : List Nat :=
  match (c.get n).parent with
  | some p => if p < n then n :: outward c p else [n]
  | none => [n]
  termination_by n

def function (c : Chain) (n : Nat) : Nat := (c.get n).function

def isEscaping (c : Chain) (n : Nat) : Bool := (c.get n).escaping

/-- The scope and those around it that belong to its function. -/
def withinFunction (c : Chain) (n : Nat) : List Nat :=
  (c.outward n).takeWhile fun m => c.function m = c.function n

/-- The scopes around it from the first one on that belongs to another function. -/
def beyondFunction (c : Chain) (n : Nat) : List Nat :=
  (c.outward n).dropWhile fun m => c.function m = c.function n

/-- The scopes with an object outside the function, from the innermost up to and including `target`; none if
`target` is not outside the function. -/
def envPath (c : Chain) (n target : Nat) : List Nat :=
  let beyond := c.beyondFunction n
  if beyond.contains target then
    (beyond.takeWhile (· ≠ target)).filter c.isEscaping ++ if c.isEscaping target then [target] else []
  else []

/-- Whether the scope objects lead from the environment of the function to the object of `target`. -/
def isReachable (c : Chain) (n target : Nat) : Bool := (c.beyondFunction n).contains target && c.isEscaping target

/-- The path to `target` if it is reachable. -/
def envPath? (c : Chain) (n target : Nat) : Option (List Nat) :=
  if c.isReachable n target then some (c.envPath n target) else none

/-- The scope whose object the function gets as its environment. -/
def env? (c : Chain) (n : Nat) : Option Nat := (c.beyondFunction n).find? c.isEscaping

/-- The innermost scope with an object, from `n` on. -/
def envAt? (c : Chain) (n : Nat) : Option Nat := (c.outward n).find? c.isEscaping

/-- The outermost scope of the function. -/
def functionRoot (c : Chain) (n : Nat) : Nat := (c.withinFunction n).getLastD n

/-- The scopes that a return leaves, innermost first. -/
def unwind (c : Chain) (n : Nat) : List Nat := c.withinFunction n

/-- A binding that the scope `owner` declares, seen from the scope `n`. Functions known by name are seen from
everywhere; the variables of an enclosing function only through scope objects. -/
def refTo (c : Chain) (n : Nat) (b : Binding) (owner : Nat) : Except Error Ref :=
  if c.function owner = c.function n || b.kind.isFunction then .ok ⟨b, owner, []⟩
  else if !b.inObject then .error (.notInObject b.name)
  else
    match c.envPath? n owner with
    | some path => .ok ⟨b, owner, path⟩
    | none => .error (.unreachable b.name)

/-- Finds, going outward, the first scope with a binding that satisfies `p`. -/
def find? (c : Chain) (n : Nat) (p : Binding → Bool) : Option (Binding × Nat) :=
  (c.outward n).findSome? fun m => ((c.get m).bindings.find? p).map (·, m)

/-- The binding of a name. -/
def lookup (c : Chain) (n : Nat) (name : String) : Except Error Ref :=
  match c.find? n (·.name = name) with
  | some (b, owner) => c.refTo n b owner
  | none => .error (.unresolved name {})

/-- The binding that a declaration introduced; the name and the place of the use are for the message. -/
def lookupDecl (c : Chain) (n decl : Nat) (name : String) (span : Source.Span) : Except Error Ref :=
  match c.find? n fun b => decl ≠ 0 && b.decl = decl with
  | some (b, owner) => c.refTo n b owner
  | none => .error (.unresolved name span)

end Chain

end TypedScript.Scope
