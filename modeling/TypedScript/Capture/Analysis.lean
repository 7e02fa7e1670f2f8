import TypedScript.Binding.Table

/-!
# Capture analysis

Before any code is made it is decided which containers keep their variables in a scope object on the heap and which
functions need an environment.

* A container escapes if something it declares is used in a function nested strictly below it. It then keeps all
  of its variables and parameters in its scope object.
* A function captures if something it uses is declared outside of it: a variable or parameter, or a named function
  that captures itself.
-/

namespace TypedScript.Capture

open TypedScript.Ast TypedScript.Binding

/-- The functions enclosing `ref` that lie strictly below `owner`, innermost first. -/
def crossed (t : Tree) (ref owner : Nat) : List Nat :=
  if t.isAncestor owner ref then ((t.ancestors ref).takeWhile (· ≠ owner)).filter t.isFunction else []

/-- What the analysis found. -/
structure Analysis where
  tree : Tree
  /-- The containers that keep their variables in a scope object. -/
  escaping : List Nat := []
  /-- The variables and parameters that a function nested below their container uses. -/
  nested : List Nat := []
  /-- The functions that need an environment. -/
  capturing : List Nat := []
  /-- How often the uses of named functions were gone through. -/
  rounds : Nat := 0
  deriving Inhabited

/-- Adds elements that are not in the list yet. -/
def addNew (xs ys : List Nat) : List Nat :=
  ys.foldl (fun acc y => if acc.contains y then acc else acc ++ [y]) xs

/-- Accounts for a use of a variable or parameter. -/
def Analysis.useStorage (a : Analysis) (ref decl : Nat) : Analysis :=
  let owner := a.tree.container decl
  match crossed a.tree ref owner with
  | [] => a
  | fs =>
    { a with
      escaping := addNew a.escaping [owner]
      nested := addNew a.nested [decl]
      capturing := addNew a.capturing fs }

/-- Accounts for a use of a named function: if it captures, so do the functions between it and the use. -/
def useFunction (t : Tree) (capturing : List Nat) (use : Nat × Nat) : List Nat :=
  if capturing.contains use.2 then addNew capturing (crossed t use.1 (t.container use.2)) else capturing

/-- Goes through the uses of named functions until nothing changes. Every round but the last adds a function. -/
def spread (t : Tree) (uses : List (Nat × Nat)) : Nat → List Nat → Nat → List Nat × Nat
  | 0, capturing, rounds => (capturing, rounds)
  | fuel + 1, capturing, rounds =>
    let next := uses.foldl (useFunction t) capturing
    if next.length = capturing.length then (next, rounds + 1) else spread t uses fuel next (rounds + 1)

/-- The uses of variables and parameters, in order of the use. -/
def storageUses (t : Tree) (table : Table) : List (Nat × Nat) :=
  table.refs.toList.filter fun p => (symbolKind t p.2).isStorage

/-- The uses of named functions, in order of the use. -/
def functionUses (t : Tree) (table : Table) : List (Nat × Nat) :=
  table.refs.toList.filter fun p => symbolKind t p.2 = .function

/-- Analyses a tree whose names are bound. -/
def analyze (t : Tree) (table : Table) : Analysis :=
  let a := (storageUses t table).foldl (fun (a : Analysis) p => a.useStorage p.1 p.2) { tree := t }
  let (capturing, rounds) := spread t (functionUses t table) (t.size + 2) a.capturing 0
  { a with capturing, rounds }

namespace Analysis

variable (a : Analysis)

/-- Whether the container keeps its variables in a scope object. -/
def isEscaping (c : Nat) : Bool := a.escaping.contains c

/-- Whether a function nested below its container uses the declaration. -/
def isNested (d : Nat) : Bool := a.nested.contains d

/-- The declarations of a container that a function nested below it uses, in order. -/
def captured (c : Nat) : List Nat :=
  (a.nested.filter fun d => a.tree.container d = c).mergeSort

/-- What the scope object of a container holds: all its variables and parameters if it escapes. -/
def fields (c : Nat) : List Nat :=
  if a.isEscaping c then (a.tree.decls c).filter fun d => (symbolKind a.tree d).isStorage else []

/-- Whether the declaration lives in a scope object. -/
def inScopeObject (d : Nat) : Bool :=
  a.tree.isDeclaration d && (symbolKind a.tree d).isStorage && a.isEscaping (a.tree.container d)

/-- Whether the function needs an environment. -/
def captures (f : Nat) : Bool := a.capturing.contains f

/-- Whether the function can be called with no environment. -/
def isPure (f : Nat) : Bool := !a.captures f

/-- The containers strictly enclosing a node, innermost first. -/
def enclosing (id : Nat) : List Nat := (a.tree.ancestors id).filter a.tree.isContainer

/-- The innermost escaping container strictly enclosing a container; zero if there is none. -/
def scopeParent (c : Nat) : Nat := ((a.enclosing c).find? a.isEscaping).getD 0

/-- The escaping containers, each before those it encloses. -/
def escapingContainers : List Nat := a.tree.containers.filter a.isEscaping

/-- Whether the analysis followed a use that is no node of the tree. -/
def hasDanglingUse (table : Table) : Bool :=
  table.refs.toList.any fun p => (a.tree.node? p.1).isNone &&
    match symbolKind a.tree p.2 with
    | .letBinding | .constBinding | .param => true
    | .function => a.captures p.2
    | _ => false

end Analysis

end TypedScript.Capture
