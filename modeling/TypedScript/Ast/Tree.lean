import TypedScript.Ast.Form

/-!
# Syntax trees

A tree is the list of all nodes that were written for one file, with the number of its root. Nodes that were
written and then given up have no parent. Containers (the module, every function, every block that is not a
function's body) open a scope; the declarations of a container are those it encloses with no container in between.

The parts of a node come before it, so going down decreases the node's number and going up increases it: `walk` and
`ancestors` recurse on that.
-/

namespace TypedScript.Ast

structure Tree where
  file : Nat := 0
  nodes : Array Node := #[]
  root : Nat := 0
  /-- The parent of every node that the root reaches, and zero for the others; node `i` stands at place `i - 1`. -/
  parents : Array Nat := #[]
  deriving Inhabited

namespace Tree

def size (t : Tree) : Nat := t.nodes.size

def node? (t : Tree) (id : Nat) : Option Node :=
  if id = 0 then none else t.nodes[id - 1]?

def form? (t : Tree) (id : Nat) : Option Form := (t.node? id).map (·.form)

/-- The span of a node; the empty span at the start of the first file for no node. -/
def span (t : Tree) (id : Nat) : Source.Span := (t.node? id).elim {} (·.span)

def kindName (t : Tree) (id : Nat) : String := (t.form? id).elim "Invalid" (·.kindName)

def name (t : Tree) (id : Nat) : String := (t.form? id).elim "" (·.name)

def children (t : Tree) (id : Nat) : List Nat := (t.form? id).elim [] (·.children)

def isFunction (t : Tree) (id : Nat) : Bool := (t.form? id).elim false (·.isFunction)

def isType (t : Tree) (id : Nat) : Bool := (t.form? id).elim false (·.isType)

/-- The nodes below and including `id`, each before its parts and these in source order, followed by `tail`; the
parts of a node that `enter` refuses are left out. -/
def walkOnto (t : Tree) (enter : Nat → Bool) (id : Nat) (tail : List Nat) : List Nat :=
  if id = 0 then tail
  else id :: if enter id then
      (t.children id).foldr (fun c tail => if c < id then walkOnto t enter c tail else tail) tail
    else tail
  termination_by id

/-- The nodes below and including `id`, each before its parts and these in source order; the parts of a node that
`enter` refuses are left out. -/
def walk (t : Tree) (enter : Nat → Bool) (id : Nat) : List Nat := t.walkOnto enter id []

/-- All nodes the root reaches. -/
def reached (t : Tree) : List Nat := t.walk (fun _ => true) t.root

/-- The nodes the root reaches without entering a type expression. -/
def reachedOutsideTypes (t : Tree) : List Nat := t.walk (fun id => !t.isType id) t.root

/-- The parent of a node; zero for the root and for nodes it does not reach. -/
def parent (t : Tree) (id : Nat) : Nat := if id = 0 then 0 else t.parents.getD (id - 1) 0

/-- The nodes strictly enclosing `id`, innermost first. -/
def ancestors (t : Tree) (id : Nat) : List Nat :=
  if _h : id < t.parent id ∧ t.parent id ≤ t.size then t.parent id :: ancestors t (t.parent id) else []
  termination_by t.size - id
  decreasing_by omega

/-- The innermost node strictly enclosing `id` that satisfies a condition; zero if there is none. -/
def nearest (t : Tree) (p : Nat → Bool) (id : Nat) : Nat :=
  if _h : id < t.parent id ∧ t.parent id ≤ t.size then if p (t.parent id) then t.parent id else nearest
    t p (t.parent id)
  else 0
  termination_by t.size - id
  decreasing_by omega

theorem nearest_eq_find?_ancestors (t : Tree) (p : Nat → Bool) (id : Nat) :
    t.nearest p id = ((t.ancestors id).find? p).getD 0 := by
  fun_induction nearest t p id with
  | case1 id h hp => rw [ancestors]; simp [h, hp]
  | case2 id h hp ih => rw [ancestors]; simp [h, hp, ih]
  | case3 id h => rw [ancestors]; simp [h]

/-- Records at every part that the root reaches which node holds it. -/
def link (t : Tree) : Tree :=
  let blank := Array.replicate t.size 0
  let parents := t.reached.foldl (fun ps id => (t.children id).foldl (fun ps c => ps.setIfInBounds (c - 1) id) ps)
    blank
  { t with parents }

/-- Whether the node is the body block, or the body expression, of a function. -/
def isFunctionBody (t : Tree) (id : Nat) : Bool :=
  id ≠ 0 && (t.form? (t.parent id)).elim false (·.body? = some id)

/-- Whether the node opens a scope. -/
def isContainer (t : Tree) (id : Nat) : Bool :=
  match t.form? id with
  | some (.module _) | some (.funcDecl ..) | some (.arrowFunc ..) => true
  | some (.block _) => !t.isFunctionBody id
  | _ => false

/-- The nearest container strictly enclosing a node; zero if there is none. -/
def container (t : Tree) (id : Nat) : Nat := t.nearest t.isContainer id

/-- The nearest function strictly enclosing a node; zero at module level. -/
def function (t : Tree) (id : Nat) : Nat := t.nearest t.isFunction id

/-- Whether `a` strictly encloses `b`. -/
def isAncestor (t : Tree) (a b : Nat) : Bool := (t.ancestors b).contains a

/-- Every container, each before those it encloses. -/
def containers (t : Tree) : List Nat := t.reachedOutsideTypes.filter t.isContainer

/-- Whether the node declares a name in its container. A parameter of a declared function or of a function type
declares none. -/
def isDeclaration (t : Tree) (id : Nat) : Bool :=
  match t.form? id with
  | some (.varDecl ..) | some (.funcDecl ..) | some (.declareFunc ..) | some (.typeAlias ..) => true
  | some (.param ..) => t.isFunction (t.parent id)
  | _ => false

/-- The declarations of a container, in source order. -/
def decls (t : Tree) (c : Nat) : List Nat :=
  t.reachedOutsideTypes.filter fun id => t.isDeclaration id && t.container id = c

end Tree

end TypedScript.Ast
