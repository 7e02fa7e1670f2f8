import Mathlib.Data.List.Nodup
import Mathlib.Data.List.Perm.Subperm
import TypedScript.Ast.Tree

/-!
# Forests of nodes

No node is a part of two nodes, or of one node twice, and what stands in a place of a form can stand there. Nodes
that were written and that no other node has yet are held: each of them may be used once.
-/

namespace TypedScript.Ast

/-! ### Places -/

/-- What a form takes in one of its places. -/
inductive Place where
  | node
  | expression
  | statement
  | type
  | field
  | param
  | property
  deriving DecidableEq

/-- Whether the form is an expression. -/
def Form.isExpression : Form → Bool
  | ident _ | number _ | string _ | bool _ | null | this | object _ | call .. | member .. | unary
      .. | binary .. | assign ..
  | arrowFunc .. => true
  | _ => false

/-- Whether the form is a statement or a declaration. -/
def Form.isStatement : Form → Bool
  | typeAlias .. | declareFunc .. | funcDecl .. | varDecl .. | ret _ | ifElse .. | whileLoop .. | block
      _ | exprStmt _ => true
  | _ => false

/-- The forms that declare a name. They start with a keyword or with the name. -/
def Form.declares : Form → Bool
  | typeAlias .. | declareFunc .. | funcDecl .. | param .. | varDecl .. => true
  | _ => false

/-- Whether a node of the given form can stand in the place. -/
def Place.admits : Place → Form → Bool
  | .node, .param .. => false
  | .node, _ => true
  | .expression, f => f.isExpression
  | .statement, f => f.isStatement
  | .type, .typeName _ | .type, .typeObject _ | .type, .typeFunc .. => true
  | .field, .typeField .. => true
  | .param, .param .. => true
  | .property, .property .. => true
  | _, _ => false

/-- The parts of a form with the places they stand in, in source order. -/
def Form.parts : Form → List (Place × Nat)
  | module body | block body => body.map (.statement, ·)
  | typeAlias _ type => [(.type, type)]
  | declareFunc _ params result => params.map (.param, ·) ++ [(.type, result)]
  | funcDecl _ params result body | arrowFunc params result body =>
    params.map (.param, ·) ++ result.toList.map (.type, ·) ++ [(.node, body)]
  | param _ type => type.toList.map (.type, ·)
  | varDecl _ _ type init => type.toList.map (.type, ·) ++ [(.expression, init)]
  | ret value => value.toList.map (.expression, ·)
  | ifElse cond thenBranch elseBranch =>
    [(.expression, cond), (.statement, thenBranch)] ++ elseBranch.toList.map (.statement, ·)
  | whileLoop cond body => [(.expression, cond), (.statement, body)]
  | exprStmt expr => [(.expression, expr)]
  | ident _ | number _ | string _ | bool _ | null | this | typeName _ => []
  | object props => props.map (.property, ·)
  | property _ value => [(.expression, value)]
  | call callee args => (.expression, callee) :: args.map (.expression, ·)
  | member base _ => [(.expression, base)]
  | unary _ operand => [(.expression, operand)]
  | binary _ lhs rhs => [(.expression, lhs), (.expression, rhs)]
  | assign target value => [(.expression, target), (.expression, value)]
  | typeObject fields => fields.map (.field, ·)
  | typeField _ type => [(.type, type)]
  | typeFunc params result => params.map (.param, ·) ++ [(.type, result)]

theorem Form.map_snd_parts (f : Form) : f.parts.map Prod.snd = f.children := by
  cases f <;> simp [Form.parts, Form.children, Function.comp_def]

namespace Form

variable {f : Form} {place : Place} {body c : Nat}

theorem exists_body?_of_isFunction (h : f.isFunction = true) : ∃ body, f.body? = some body := by
  cases f with
  | funcDecl | arrowFunc => exact ⟨_, rfl⟩
  | _ => exact nomatch h

theorem isType_of_isFunction (h : f.isFunction = true) : f.isType = false := by
  cases f with
  | funcDecl | arrowFunc => rfl
  | _ => exact nomatch h

/-- The body of a function comes after its parameters and its result type. -/
theorem children_of_body? (hb : f.body? = some body) : f.children = f.params ++ f.type?.toList ++ [body] := by
  cases f with
  | funcDecl | arrowFunc =>
    obtain rfl := Option.some.inj hb
    rfl
  | _ => exact nomatch hb

/-- The parts of a type are types, fields and parameters. -/
theorem place_of_isType (h : f.isType = true) (hc : (place, c) ∈ f.parts) :
    place = .type ∨ place = .field ∨ place = .param := by
  cases f with
  | typeName => exact nomatch hc
  | typeObject | typeField | typeFunc =>
    cases place with
    | type => exact .inl rfl
    | field => exact .inr (.inl rfl)
    | param => exact .inr (.inr rfl)
    | _ => simp [parts] at hc
  | _ => exact nomatch h

end Form

/-- The node with the number `id` was written and can stand in the place. -/
def Place.Fits (nodes : Array Node) (p : Place × Nat) : Prop :=
  0 < p.2 ∧ ∃ n, nodes[p.2 - 1]? = some n ∧ p.1.admits n.form = true

theorem Place.Fits.push {nodes : Array Node} {p : Place × Nat} (h : Place.Fits nodes p) (n : Node) :
    Place.Fits (nodes.push n) p := by
  obtain ⟨hpos, m, hm, hadmits⟩ := h
  refine ⟨hpos, m, ?_, hadmits⟩
  have hlt : p.2 - 1 < nodes.size := (Array.getElem?_eq_some_iff.1 hm).1
  rw [Array.getElem?_push, if_neg (by omega), hm]

theorem Place.Fits.le {nodes : Array Node} {p : Place × Nat} (h : Place.Fits nodes p) : p.2 ≤ nodes.size := by
  obtain ⟨hpos, m, hm, -⟩ := h
  have hlt : p.2 - 1 < nodes.size := (Array.getElem?_eq_some_iff.1 hm).1
  omega

/-- A statement or an expression can stand wherever any node can. -/
theorem Place.Fits.relax {nodes : Array Node} {place : Place} {id : Nat} (h : Place.Fits nodes (place, id))
    (hplace : place = .statement ∨ place = .expression) : Place.Fits nodes (.node, id) := by
  obtain ⟨hpos, n, hn, hadmits⟩ := h
  refine ⟨hpos, n, hn, ?_⟩
  cases hform : n.form with
  | param =>
    rcases hplace with rfl | rfl <;>
      simp [Place.admits, Form.isStatement, Form.isExpression, hform] at hadmits
  | _ => rfl

/-! ### Forests -/

/-- The parts of all nodes, in the order of the nodes. -/
def allParts (nodes : Array Node) : List Nat := nodes.toList.flatMap (·.form.children)

theorem allParts_push (nodes : Array Node) (n : Node) : allParts (nodes.push n) = allParts nodes ++
    n.form.children := by
  simp [allParts]

/-- Every part stands in one place only, and so do the nodes that are held; parts were written before the node
that has them. -/
structure Forest (nodes : Array Node) (held : List (Place × Nat)) : Prop where
  nodup : (allParts nodes ++ held.map Prod.snd).Nodup
  fits : ∀ p ∈ held, Place.Fits nodes p
  parts : ∀ k n, nodes[k]? = some n → ∀ p ∈ n.form.parts, Place.Fits nodes p ∧ p.2 ≤ k

namespace Forest

variable {nodes : Array Node} {held held' : List (Place × Nat)}

theorem empty : Forest #[] [] := ⟨List.nodup_nil, nofun, nofun⟩

/-- Nodes may be given up, and their order is of no matter. -/
theorem mono (h : Forest nodes held) (hsub : held'.Subperm held) : Forest nodes held' where
  nodup := by
    obtain ⟨l, hperm, hl⟩ := hsub
    have hnodup : (allParts nodes ++ l.map Prod.snd).Nodup :=
      h.nodup.sublist ((List.Sublist.refl _).append (hl.map Prod.snd))
    exact ((hperm.map Prod.snd).append_left (allParts nodes)).nodup_iff.1 hnodup
  fits p hp := h.fits p (hsub.subset hp)
  parts := h.parts

theorem le_size (h : Forest nodes held) : ∀ c ∈ allParts nodes ++ held.map Prod.snd, c ≤ nodes.size := by
  intro c hc
  rcases List.mem_append.1 hc with hc | hc
  · obtain ⟨n, hn, hc⟩ := List.mem_flatMap.1 hc
    obtain ⟨k, hk⟩ := List.mem_iff_getElem?.1 hn
    rw [← Form.map_snd_parts] at hc
    obtain ⟨p, hp, rfl⟩ := List.mem_map.1 hc
    exact (h.parts k n (by simpa using hk) p hp).1.le
  · obtain ⟨p, hp, rfl⟩ := List.mem_map.1 hc
    exact (h.fits p hp).le

/-- Writing a node uses its parts, and the node is held from then on. -/
theorem push {n : Node} (h : Forest nodes (n.form.parts ++ held)) {place : Place}
    (hn : place.admits n.form = true) :
    Forest (nodes.push n) ((place, nodes.size + 1) :: held) where
  nodup := by
    have hnodup := h.nodup
    rw [List.map_append, Form.map_snd_parts, ← List.append_assoc, ← allParts_push] at hnodup
    have hfresh : nodes.size + 1 ∉ allParts (nodes.push n) ++ held.map Prod.snd := by
      intro hmem
      have hle := h.le_size (nodes.size + 1) (by simpa [allParts_push, Form.map_snd_parts] using hmem)
      omega
    rw [List.map_cons, List.nodup_middle]
    exact List.nodup_cons.2 ⟨hfresh, hnodup⟩
  fits p hp := by
    rcases List.mem_cons.1 hp with rfl | hp
    · exact ⟨Nat.succ_pos _, n, by simp, hn⟩
    · exact (h.fits p (List.mem_append_right _ hp)).push n
  parts k m hm p hp := by
    rw [Array.getElem?_push] at hm
    split at hm
    · obtain rfl : n = m := by simpa using hm
      have hfits := h.fits p (List.mem_append_left _ hp)
      exact ⟨hfits.push n, by have := hfits.le; omega⟩
    · obtain ⟨hfits, hle⟩ := h.parts k m hm p hp
      exact ⟨hfits.push n, hle⟩

/-- A statement or an expression that is held can take the place of any node. -/
theorem relax {place : Place} {id : Nat} (h : Forest nodes (held ++ [(place, id)]))
    (hplace : place = .statement ∨ place = .expression) : Forest nodes (held ++ [(.node, id)]) where
  nodup := by simpa using h.nodup
  fits p hp := by
    rcases List.mem_append.1 hp with hp | hp
    · exact h.fits p (List.mem_append_left _ hp)
    · obtain rfl := List.mem_singleton.1 hp
      exact (h.fits (place, id) (by simp)).relax hplace
  parts := h.parts

end Forest

end TypedScript.Ast
