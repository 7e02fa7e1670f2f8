import TypedScript.Binding.Resolve
import TypedScript.Proofs.Ast.Linked

/-!
# The nodes whose names are bound

Binding goes from a node to those of its parts that have a value: not to types and parameters, and from a function
straight to what its body consists of. A part that is gone to stands in the container and the function of the
whole, or in the whole itself if that is one.
-/

namespace TypedScript.Binding

open TypedScript.Ast TypedScript.Ast.Tree

variable {t : Tree}

/-- The parts of a node that have a value or are statements. -/
def valueParts (t : Tree) (id : Nat) : List Nat :=
  match t.form? id with
  | some (.funcDecl _ _ _ body) | some (.arrowFunc _ _ body) => bodyParts t body
  | some (.varDecl _ _ _ init) => [init]
  | some (.typeAlias ..) | some (.declareFunc ..) | some (.param ..) => []
  | some f => if f.isType then [] else f.children
  | none => []

theorem isFunction_of_body? {f : Form} {body : Nat} (hb : f.body? = some body) : f.isFunction = true := by
  cases f with
  | funcDecl | arrowFunc => rfl
  | _ => exact nomatch hb

/-- From a function one goes to what its body consists of. -/
theorem valueParts_of_body? {id body : Nat} {f : Form} (hf : t.form? id = some f) (hb : f.body? = some body) :
    valueParts t id = bodyParts t body := by
  cases f with
  | funcDecl | arrowFunc =>
    obtain rfl := Option.some.inj hb
    simp only [valueParts, hf]
  | _ => exact nomatch hb

theorem valueParts_block {id : Nat} {body : List Nat} (hf : t.form? id = some (.block body)) :
    valueParts t id = body := by simp [valueParts, hf, Form.isType, Form.children]

theorem bodyParts_block {body : Nat} {list : List Nat} (hf : t.form? body = some (.block list)) :
    bodyParts t body = list := by simp [bodyParts, hf]

/-- A body that is an expression. -/
theorem mem_bodyParts {body : Nat} (hne : ∀ list, t.form? body ≠ some (.block list)) : body ∈ bodyParts t body := by
  unfold bodyParts
  split
  · rename_i list hlist
    exact (hne list hlist).elim
  · exact List.mem_singleton.2 rfl

/-- Going from the first node to parts with a value leads to the second. -/
inductive Leads (t : Tree) : Nat → Nat → Prop
  | here {id : Nat} : Leads t id id
  | part {id c x : Nat} : c ∈ valueParts t id → Leads t c x → Leads t id x

theorem Leads.snoc {id x c : Nat} (h : Leads t id x) (hc : c ∈ valueParts t x) : Leads t id c := by
  induction h with
  | here => exact .part hc .here
  | part hp _ ih => exact .part hp (ih hc)

/-- The node is gone to from the root. -/
def Visited (t : Tree) (id : Nat) : Prop := 0 < t.root ∧ Leads t t.root id

theorem Visited.part {id c : Nat} (h : Visited t id) (hc : c ∈ valueParts t id) : Visited t c := ⟨h.1, h.2.snoc hc⟩

/-- Where a part stands that is gone to from `id`. -/
structure Below (t : Tree) (id c : Nat) : Prop where
  lt : c < id
  outside : id ∈ t.reachedOutsideTypes → c ∈ t.reachedOutsideTypes
  reached : c ∈ t.reached
  container : t.container c = if t.isContainer id then id else t.container id
  function : t.function c = if t.isFunction id then id else t.function id
  ancestors : ∀ a, a = id ∨ a ∈ t.ancestors id → a ∈ t.ancestors c

/-- The node is not the block that is the body of a function. -/
def OpensBlock (t : Tree) (id : Nat) : Prop := ∀ stmts, t.form? id = some (.block stmts) → t.isContainer id = true

theorem isContainer_of_isFunction {id : Nat} (h : t.isFunction id = true) : t.isContainer id = true := by
  obtain ⟨f, hf, hfun⟩ := exists_form_of_isFunction h
  unfold isContainer
  rw [hf]
  cases f with
  | funcDecl | arrowFunc => rfl
  | _ => exact nomatch hfun

/-- A part with a value is a part, and not the body of a function if it is a block, or it is a statement of the
block that is the body of a function. -/
theorem mem_valueParts {id c : Nat} (hc : c ∈ valueParts t id) : ∃ f, t.form? id = some f ∧ f.isType = false ∧
    (c ∈ f.children ∧ (f.body? = some c → ∀ stmts, t.form? c ≠ some (.block stmts)) ∨
      ∃ body stmts, f.body? = some body ∧ t.form? body = some (.block stmts) ∧ c ∈ stmts) := by
  unfold valueParts at hc
  cases hf : t.form? id with
  | none => simp [hf] at hc
  | some f =>
    refine ⟨f, rfl, ?_⟩
    rw [hf] at hc
    cases f with
    | funcDecl name params result body | arrowFunc params result body =>
      refine ⟨rfl, ?_⟩
      simp only [bodyParts] at hc
      split at hc
      · rename_i stmts hstmts
        exact .inr ⟨body, stmts, rfl, hstmts, hc⟩
      · rename_i hne
        obtain rfl := List.mem_singleton.1 hc
        exact .inl ⟨by simp [Form.children], fun _ => hne⟩
    | varDecl name isConst type init =>
      exact ⟨rfl, .inl ⟨by simpa [Form.children] using .inr (List.mem_singleton.1 hc), fun h => by cases h⟩⟩
    | _ => simp_all [Form.isType, Form.children, Form.body?]

section

variable (h : t.Linked) {id c : Nat}
include h

theorem below_child (hid : id ∈ t.reached) (htype : t.isType id = false) (hc : c ∈ t.children id) :
    Below t id c where
  lt := (h.part_lt hc).2
  outside hout := mem_walk.2 ((mem_walk.1 hout).snoc (by simp [htype]) hc (h.part_lt hc).2 (h.part_lt hc).1)
  reached := h.reached_part hid hc
  container := h.nearest_part _ hid hc
  function := h.nearest_part _ hid hc
  ancestors a ha := by rwa [h.ancestors_part hid hc, List.mem_cons]

/-- A block is a container unless it is the body of a function. -/
theorem isContainer_block {f : Form} {stmts : List Nat} (hid : id ∈ t.reached) (hf : t.form? id = some f)
    (hc : c ∈ f.children) (hstmts : t.form? c = some (.block stmts)) : t.isContainer c = true ↔
    f.body? ≠ some c := by
  have hchild := mem_children.2 ⟨f, hf, hc⟩
  have hne : c ≠ 0 := Nat.ne_of_gt (h.part_lt hchild).1
  simp [isContainer, hstmts, isFunctionBody, h.parent_part hid hchild, hf, hne]

theorem below_part (hid : id ∈ t.reached) (hc : c ∈ valueParts t id) : Below t id c ∧ OpensBlock t c := by
  obtain ⟨f, hf, hftype, ⟨hchild, hbody⟩ | ⟨body, stmts, hb, hstmts, hmem⟩⟩ := mem_valueParts hc
  · have htype : t.isType id = false := by simp [Tree.isType, hf, hftype]
    refine ⟨below_child h hid htype (mem_children.2 ⟨f, hf, hchild⟩), fun stmts hstmts => ?_⟩
    exact (isContainer_block h hid hf hchild hstmts).2 fun hb => hbody hb stmts hstmts
  have htype : t.isType id = false := by simp [Tree.isType, hf, hftype]
  have hbody : body ∈ f.children := by simp [Form.children_of_body? hb]
  have outer := below_child h hid htype (mem_children.2 ⟨f, hf, hbody⟩)
  have hnotType : t.isType body = false := by simp [Tree.isType, hstmts, Form.isType]
  have hnotFunction : t.isFunction body = false := by simp [Tree.isFunction, hstmts, Form.isFunction]
  have hnotContainer : t.isContainer body = false := by
    simpa [hb] using (isContainer_block h hid hf hbody hstmts).not
  have inner := below_child h outer.reached hnotType (mem_children.2 ⟨_, hstmts, hmem⟩)
  refine ⟨?_, fun stmts' hc' => (isContainer_block h outer.reached hstmts hmem hc').2 fun h => by cases h⟩
  constructor
  case lt => exact Nat.lt_trans inner.lt outer.lt
  case outside => exact fun hout => inner.outside (outer.outside hout)
  case reached => exact inner.reached
  case container => rw [inner.container, hnotContainer, if_neg (by simp), outer.container]
  case function => rw [inner.function, hnotFunction, if_neg (by simp), outer.function]
  case ancestors => exact fun a ha => inner.ancestors a (.inr (outer.ancestors a ha))

end

theorem reached_of_outside {id : Nat} (hid : id ∈ t.reachedOutsideTypes) : id ∈ t.reached :=
  mem_walk.2 ((mem_walk.1 hid).mono fun _ _ => rfl)

theorem opensBlock_root (h : t.Linked) : OpensBlock t t.root := by
  intro stmts hstmts
  have hnone : t.form? 0 = none := rfl
  simp [isContainer, hstmts, isFunctionBody, h.parent_root, hnone]

theorem Visited.outside (h : t.Linked) {id : Nat} (hid : Visited t id) : id ∈ t.reachedOutsideTypes ∧
    OpensBlock t id := by
  obtain ⟨hpos, hleads⟩ := hid
  have hroot : t.root ∈ t.reachedOutsideTypes ∧ OpensBlock t t.root := ⟨mem_walk.2 (.here hpos), opensBlock_root h⟩
  generalize t.root = start at hleads hroot
  induction hleads with
  | here => exact hroot
  | part hc _ ih =>
    obtain ⟨hbelow, hopens⟩ := below_part h (reached_of_outside hroot.1) hc
    exact ih ⟨hbelow.outside hroot.1, hopens⟩

/-- The node is gone to, or it is a type, a parameter or the block that is the body of a function that is gone to.
-/
def VisitedOrPassed (t : Tree) (x : Nat) : Prop := Visited t x ∨ t.isType x = true ∨
  (∃ name type, t.form? x = some (.param name type)) ∨
  ∃ id f stmts, Visited t id ∧ t.form? id = some f ∧ f.body? = some x ∧ t.form? x = some (.block stmts)

theorem visited_or_passed (h : t.Linked) {x : Nat} (hx : x ∈ t.reachedOutsideTypes) : VisitedOrPassed t x := by
  have hdown := mem_walk.1 hx
  refine hdown.induct (P := VisitedOrPassed t) (fun id c hid henter hc => ?_) (.inl ⟨hdown.pos, .here⟩)
  have htype : t.isType id = false := by simpa using henter
  obtain ⟨f, hf, hcf⟩ := mem_children.1 hc
  have hftype : f.isType = false := by simpa [Tree.isType, hf] using htype
  have hpart := hcf
  rw [← Form.map_snd_parts] at hpart
  obtain ⟨⟨place, c⟩, hp, rfl⟩ := List.mem_map.1 hpart
  cases place with
  | type => exact .inr (.inl (h.isType_part hf hp).2)
  | field => exact .inr (.inl (h.isType_field hf hp).2)
  | param => exact .inr (.inr (.inl (h.param_part hf hp)))
  | node | expression | statement | property =>
    rcases hid with hid | hid | ⟨name, type, hparam⟩ | ⟨fn, g, stmts, hfn, hg, hb, hstmts⟩
    · by_cases hb : f.body? = some c
      · by_cases hblock : ∃ stmts, t.form? c = some (.block stmts)
        · obtain ⟨stmts, hstmts⟩ := hblock
          exact .inr (.inr (.inr ⟨id, f, stmts, hid, hf, hb, hstmts⟩))
        · refine .inl (hid.part ?_)
          have hbody : bodyParts t c = [c] := by
            unfold bodyParts
            split
            · rename_i stmts hstmts
              exact (hblock ⟨stmts, hstmts⟩).elim
            · rfl
          simp [valueParts_of_body? hf hb, hbody]
      · refine .inl (hid.part ?_)
        cases f <;> simp_all [valueParts, Form.body?, Form.parts]
    · simp [hid] at htype
    · obtain rfl : f = .param name type := Option.some.inj (hf.symm.trans hparam)
      simp [Form.parts] at hp
    · obtain rfl : f = .block stmts := Option.some.inj (hf.symm.trans hstmts)
      refine .inl (hfn.part ?_)
      rw [valueParts_of_body? hg hb]
      simpa [bodyParts, hstmts, Form.children] using hcf

end TypedScript.Binding
