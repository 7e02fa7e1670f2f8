import Mathlib.Data.List.Basic
import TypedScript.Proofs.Ast.Spans

/-!
# Going up and down a tree

In a tree that was parsed and linked, every part of a node that the root reaches names that node as its parent. So
the nodes around a part are the node that has it and those around that node, which is how containers, functions
and declarations of a part are known from those of the whole.
-/

namespace TypedScript.Ast.Tree

variable {t : Tree} {enter : Nat → Bool}

/-! ### Going down -/

/-- Going down from the first node, through parts of nodes that may be entered, leads to the second. -/
inductive Down (t : Tree) (enter : Nat → Bool) : Nat → Nat → Prop
  | here {id : Nat} : 0 < id → Down t enter id id
  | part {id c x : Nat} : enter id = true → c ∈ t.children id → c < id → Down t enter c x → Down t enter id x

theorem Down.pos {id x : Nat} (h : Down t enter id x) : 0 < id := by
  cases h with
  | here h => exact h
  | part _ _ h _ => omega

theorem Down.pos_last {id x : Nat} (h : Down t enter id x) : 0 < x := by
  induction h with
  | here h => exact h
  | part _ _ _ _ ih => exact ih

theorem Down.snoc {id x c : Nat} (h : Down t enter id x) (hx : enter x = true) (hc : c ∈ t.children x) (hlt : c < x)
    (hpos : 0 < c) : Down t enter id c := by
  induction h with
  | here _ => exact .part hx hc hlt (.here hpos)
  | part he hc' hlt' _ ih => exact .part he hc' hlt' (ih hx hc hlt)

theorem Down.le {id x : Nat} (h : Down t enter id x) : x ≤ id := by
  induction h with
  | here _ => exact Nat.le_refl _
  | part _ _ hlt _ ih => omega

/-- What holds of the first node and is handed on to parts holds of the last. -/
theorem Down.induct {P : Nat → Prop} (hP : ∀ id c, P id → enter id = true → c ∈ t.children id → P c) {id x : Nat}
    (h : Down t enter id x) (hid : P id) : P x := by
  induction h with
  | here _ => exact hid
  | part he hc _ _ ih => exact ih (hP _ _ hid he hc)

theorem Down.mono {enter' : Nat → Bool} {id x : Nat} (h : Down t enter id x)
    (hle : ∀ id, enter id = true → enter' id = true) : Down t enter' id x := by
  induction h with
  | here h => exact .here h
  | part he hc hlt _ ih => exact .part (hle _ he) hc hlt ih

theorem mem_walkOnto (id x : Nat) (tail : List Nat) :
    x ∈ t.walkOnto enter id tail ↔ Down t enter id x ∨ x ∈ tail := by
  induction id using Nat.strongRecOn generalizing tail with
  | _ id ih =>
    have hparts (cs : List Nat) :
        x ∈ cs.foldr (fun c tail => if c < id then walkOnto t enter c tail else tail) tail ↔
          (∃ c ∈ cs, c < id ∧ Down t enter c x) ∨ x ∈ tail := by
      induction cs with
      | nil => simp
      | cons c cs ihcs =>
        rw [List.foldr_cons]
        split
        · rename_i hlt
          rw [ih c hlt, ihcs]
          simp [hlt, or_assoc]
        · rename_i hlt
          rw [ihcs]
          simp [hlt]
    have hdown : Down t enter id x ↔
        0 < id ∧ (x = id ∨ enter id = true ∧ ∃ c ∈ t.children id, c < id ∧ Down t enter c x) := by
      constructor
      · intro h
        refine ⟨h.pos, ?_⟩
        cases h with
        | here _ => exact .inl rfl
        | part he hc hlt h => exact .inr ⟨he, _, hc, hlt, h⟩
      · rintro ⟨hpos, rfl | ⟨he, c, hc, hlt, h⟩⟩
        · exact .here hpos
        · exact .part he hc hlt h
    rw [walkOnto, hdown]
    split
    · rename_i hzero
      simp [hzero]
    · rename_i hzero
      split
      · rename_i he
        simp [hparts, he, Nat.pos_of_ne_zero hzero, or_assoc]
      · rename_i he
        simp [he, Nat.pos_of_ne_zero hzero]

theorem mem_walk {id x : Nat} : x ∈ t.walk enter id ↔ Down t enter id x := by simp [walk, mem_walkOnto]

/-! ### Going up -/

theorem lt_of_mem_ancestors {a x : Nat} (h : a ∈ t.ancestors x) : x < a := by
  fun_induction ancestors t x with
  | case1 x hx ih =>
    rcases List.mem_cons.1 h with rfl | h
    · exact hx.1
    · exact Nat.lt_trans hx.1 (ih h)
  | case2 x hx => exact nomatch h

theorem ancestors_trans {a b x : Nat} (ha : a ∈ t.ancestors b) (hb : b ∈ t.ancestors x) : a ∈ t.ancestors x := by
  fun_induction ancestors t x with
  | case1 x hx ih =>
    rcases List.mem_cons.1 hb with rfl | hb
    · exact List.mem_cons_of_mem _ ha
    · exact List.mem_cons_of_mem _ (ih hb)
  | case2 x hx => exact nomatch hb

/-- Of two nodes around a third, one is around the other. -/
theorem ancestors_linear {a b x : Nat} (ha : a ∈ t.ancestors x) (hb : b ∈ t.ancestors x) :
    a = b ∨ a ∈ t.ancestors b ∨ b ∈ t.ancestors a := by
  fun_induction ancestors t x with
  | case1 x hx ih =>
    rcases List.mem_cons.1 ha with rfl | ha <;> rcases List.mem_cons.1 hb with rfl | hb
    · exact .inl rfl
    · exact .inr (.inr hb)
    · exact .inr (.inl ha)
    · exact ih ha hb
  | case2 x hx => exact nomatch ha

/-- The nodes around `x` that are met before `c` are those that `c` is around. -/
theorem mem_takeWhile_ancestors {f c x : Nat} (hc : c ∈ t.ancestors x) :
    f ∈ (t.ancestors x).takeWhile (· ≠ c) ↔ f ∈ t.ancestors x ∧ c ∈ t.ancestors f := by
  fun_induction ancestors t x with
  | case1 x hx ih =>
    by_cases heq : t.parent x = c
    · subst heq
      simp only [List.takeWhile_cons, ne_eq, not_true_eq_false, decide_false, Bool.false_eq_true, if_false,
        List.not_mem_nil, false_iff, List.mem_cons, not_and]
      rintro (rfl | hf) hc
      · exact Nat.lt_irrefl _ (lt_of_mem_ancestors hc)
      · exact Nat.lt_asymm (lt_of_mem_ancestors hc) (lt_of_mem_ancestors hf)
    · have hc : c ∈ t.ancestors (t.parent x) := (List.mem_cons.1 hc).resolve_left (Ne.symm heq)
      rw [List.takeWhile_cons_of_pos (by simpa using heq), List.mem_cons, List.mem_cons, ih hc]
      constructor
      · rintro (rfl | hf)
        · exact ⟨.inl rfl, hc⟩
        · exact ⟨.inr hf.1, hf.2⟩
      · rintro ⟨rfl | hf, hcf⟩
        · exact .inl rfl
        · exact .inr ⟨hf, hcf⟩
  | case2 x hx => exact nomatch hc

section Nearest

variable {p : Nat → Bool} {x : Nat}

theorem nearest_mem (h : t.nearest p x ≠ 0) : t.nearest p x ∈ t.ancestors x ∧ p (t.nearest p x) = true := by
  rw [nearest_eq_find?_ancestors] at h ⊢
  cases hfind : (t.ancestors x).find? p with
  | none => simp [hfind] at h
  | some a => exact ⟨List.mem_of_find?_eq_some hfind, List.find?_some hfind⟩

theorem nearest_ne_zero {b : Nat} (hb : b ∈ t.ancestors x) (hp : p b = true) : t.nearest p x ≠ 0 := by
  rw [nearest_eq_find?_ancestors]
  cases hfind : (t.ancestors x).find? p with
  | none => exact absurd hp (List.find?_eq_none.1 hfind b hb)
  | some a =>
    exact Nat.ne_of_gt (Nat.lt_of_le_of_lt (Nat.zero_le x) (lt_of_mem_ancestors (List.mem_of_find?_eq_some hfind)))

/-- What satisfies the condition further out is around the nearest. -/
theorem nearest_le {b : Nat} (hb : b ∈ t.ancestors x) (hp : p b = true) :
    b = t.nearest p x ∨ b ∈ t.ancestors (t.nearest p x) := by
  fun_induction nearest t p x with
  | case1 x hx hpx =>
    rw [ancestors, dif_pos hx, List.mem_cons] at hb
    exact hb
  | case2 x hx hpx ih =>
    rw [ancestors, dif_pos hx, List.mem_cons] at hb
    rcases hb with rfl | hb
    · exact (hpx hp).elim
    · exact ih hb
  | case3 x hx =>
    rw [ancestors, dif_neg hx] at hb
    cases hb

end Nearest

/-! ### Kinds of nodes -/

section Kinds

variable {id : Nat}

/-- A node with a form is a node. -/
theorem ne_zero_of_form {f : Form} (h : t.form? id = some f) : id ≠ 0 := by
  rintro rfl
  cases h

theorem exists_form_of_elim {p : Form → Bool} (h : (t.form? id).elim false p = true) :
    ∃ f, t.form? id = some f ∧ p f = true := by
  cases hf : t.form? id with
  | none =>
    rw [hf] at h
    exact nomatch h
  | some f =>
    rw [hf] at h
    exact ⟨f, rfl, h⟩

theorem exists_form_of_isFunction (h : t.isFunction id = true) : ∃ f, t.form? id = some f ∧ f.isFunction = true :=
  exists_form_of_elim h

theorem exists_form_of_isType (h : t.isType id = true) : ∃ f, t.form? id = some f ∧ f.isType = true :=
  exists_form_of_elim h

theorem isType_of_isFunction (h : t.isFunction id = true) : t.isType id = false := by
  obtain ⟨f, hf, hfun⟩ := exists_form_of_isFunction h
  rw [isType, hf]
  exact Form.isType_of_isFunction hfun

theorem isType_of_isDeclaration (h : t.isDeclaration id = true) : t.isType id = false := by
  unfold isDeclaration at h
  split at h
  case h_6 => exact nomatch h
  all_goals
    rw [isType, ‹t.form? id = _›]
    rfl

theorem isType_of_isContainer (h : t.isContainer id = true) : t.isType id = false := by
  unfold isContainer at h
  split at h
  case h_5 => exact nomatch h
  all_goals
    rw [isType, ‹t.form? id = _›]
    rfl

end Kinds

/-! ### Linked trees -/

/-- What holds of the trees that parsing yields. -/
structure Linked (t : Tree) : Prop where
  fits {id : Nat} {f : Form} : t.form? id = some f → ∀ p ∈ f.parts,
    0 < p.2 ∧ p.2 < id ∧ ∃ g, t.form? p.2 = some g ∧ p.1.admits g = true
  parent_part {id c : Nat} : id ∈ t.reached → c ∈ t.children id → t.parent c = id
  part_parent {c : Nat} : t.parent c ≠ 0 → t.parent c ∈ t.reached ∧ c ∈ t.children (t.parent c)
  root_module : t.root = 0 ∨ ∃ body, t.form? t.root = some (.module body)

theorem form?_eq_some {id : Nat} {f : Form} : t.form? id = some f ↔ 0 < id ∧ ∃ n, t.nodes[id - 1]? = some n ∧
    n.form = f := by
  unfold form? node?
  split
  · rename_i h
    simp [h]
  · rename_i h
    simp [Nat.pos_of_ne_zero h]

theorem mem_children {id c : Nat} : c ∈ t.children id ↔ ∃ f, t.form? id = some f ∧ c ∈ f.children := by
  unfold children
  cases t.form? id <;> simp

theorem le_size_of_form? {id : Nat} {f : Form} (h : t.form? id = some f) : id ≤ t.size := by
  obtain ⟨hpos, n, hn, -⟩ := form?_eq_some.1 h
  have hlt := (Array.getElem?_eq_some_iff.1 hn).1
  unfold size
  omega

/-- No node is a part of two. -/
theorem parent_unique (h : Forest t.nodes []) {id id' c : Nat} (hc : c ∈ t.children id) (hc' : c ∈ t.children id') :
    id = id' := by
  obtain ⟨f, hf, hc⟩ := mem_children.1 hc
  obtain ⟨f', hf', hc'⟩ := mem_children.1 hc'
  obtain ⟨hpos, n, hn, rfl⟩ := form?_eq_some.1 hf
  obtain ⟨hpos', n', hn', rfl⟩ := form?_eq_some.1 hf'
  have hnodup : (t.nodes.toList.flatMap (·.form.children)).Nodup := by simpa [allParts] using h.nodup
  have hdisjoint := List.pairwise_iff_getElem.1 (List.nodup_flatMap.1 hnodup).2
  obtain ⟨hlt, rfl⟩ := Array.getElem?_eq_some_iff.1 hn
  obtain ⟨hlt', rfl⟩ := Array.getElem?_eq_some_iff.1 hn'
  rcases Nat.lt_trichotomy (id - 1) (id' - 1) with hid | hid | hid
  · exact (hdisjoint _ _ hlt hlt' hid hc hc').elim
  · omega
  · exact (hdisjoint _ _ hlt' hlt hid hc' hc).elim

/-- What stands at a place after some places were set: what was set last there, or what stood there before. -/
theorem getD_foldl_setIfInBounds (links : List (Nat × Nat)) (a : Array Nat) (hlinks : ∀ l ∈ links, l.1 < a.size)
    (k : Nat) :
    (∀ l ∈ links, l.1 ≠ k) ∧ (links.foldl (fun a l => a.setIfInBounds l.1 l.2) a).getD k 0 = a.getD k 0 ∨
      (k, (links.foldl (fun a l => a.setIfInBounds l.1 l.2) a).getD k 0) ∈ links := by
  induction links generalizing a with
  | nil => simp
  | cons l links ih =>
    rw [List.forall_mem_cons] at hlinks
    have ih := ih (a.setIfInBounds l.1 l.2) (by simpa using hlinks.2)
    rw [List.foldl_cons]
    rcases ih with ⟨hnone, heq⟩ | hmem
    · by_cases hk : l.1 = k
      · refine .inr (List.mem_cons.2 (.inl ?_))
        rw [heq, ← hk]
        simp [Array.getD_eq_getD_getElem?, hlinks.1]
      · refine .inl ⟨by simpa [hk] using hnone, ?_⟩
        rw [heq]
        simp [Array.getD_eq_getD_getElem?, hk]
    · exact .inr (List.mem_cons_of_mem _ hmem)

theorem down_link {id x : Nat} : Down t.link enter id x ↔ Down t enter id x := by
  constructor
  all_goals
    intro h
    induction h with
    | here h => exact .here h
    | part he hc hlt _ ih => exact .part he hc hlt ih

theorem mem_reached_link {id : Nat} : id ∈ t.link.reached ↔ id ∈ t.reached := by
  rw [reached, mem_walk, reached, mem_walk]
  exact down_link

theorem fits_part (h : Forest t.nodes []) {id : Nat} {f : Form} (hf : t.form? id = some f) {p : Place × Nat}
    (hp : p ∈ f.parts) : 0 < p.2 ∧ p.2 < id ∧ ∃ g, t.form? p.2 = some g ∧ p.1.admits g = true := by
  obtain ⟨hpos, n, hn, rfl⟩ := form?_eq_some.1 hf
  obtain ⟨⟨hppos, m, hm, hadmits⟩, hle⟩ := h.parts (id - 1) n hn p hp
  exact ⟨hppos, by omega, m.form, form?_eq_some.2 ⟨hppos, m, hm, rfl⟩, hadmits⟩

theorem linked_link (h : Forest t.nodes []) (hroot : t.root = 0 ∨ ∃ body, t.form? t.root = some (.module body)) :
    t.link.Linked := by
  let links := t.reached.flatMap fun id => (t.children id).map fun c => (c - 1, id)
  have hpart {id c : Nat} (hc : c ∈ t.children id) : 0 < c ∧ c - 1 < t.size := by
    obtain ⟨f, hf, hc⟩ := mem_children.1 hc
    rw [← Form.map_snd_parts] at hc
    obtain ⟨p, hp, rfl⟩ := List.mem_map.1 hc
    have hle := le_size_of_form? hf
    obtain ⟨hpos, hlt, -⟩ := fits_part h hf hp
    omega
  have hlinks {k id : Nat} : (k, id) ∈ links ↔ id ∈ t.reached ∧ k + 1 ∈ t.children id := by
    simp only [links, List.mem_flatMap, List.mem_map, Prod.mk.injEq]
    constructor
    · rintro ⟨id, hid, c, hc, rfl, rfl⟩
      exact ⟨hid, Nat.sub_add_cancel (hpart hc).1 ▸ hc⟩
    · rintro ⟨hid, hk⟩
      exact ⟨id, hid, k + 1, hk, rfl, rfl⟩
  have hbound : ∀ l ∈ links, l.1 < (Array.replicate t.size 0).size := by
    intro l hl
    simpa using (hpart (hlinks.1 hl).2).2
  have hparents : t.link.parents = links.foldl (fun a l => a.setIfInBounds l.1 l.2) (Array.replicate t.size 0) := by
    simp only [links, List.foldl_flatMap, List.foldl_map]
    rfl
  have hparent {c : Nat} (hc : c ≠ 0) : t.link.parent c = t.link.parents.getD (c - 1) 0 := if_neg hc
  constructor
  case fits => exact fun hf p hp => fits_part h hf hp
  case root_module => exact hroot
  case parent_part =>
    intro id c hid hc
    have hc : c ∈ t.children id := hc
    have hpos := (hpart hc).1
    have hmem : (c - 1, id) ∈ links := hlinks.2 ⟨mem_reached_link.1 hid, Nat.sub_add_cancel hpos ▸ hc⟩
    rw [hparent (by omega), hparents]
    rcases getD_foldl_setIfInBounds links _ hbound (c - 1) with ⟨hnone, -⟩ | hset
    · exact (hnone _ hmem rfl).elim
    · have hset := (hlinks.1 hset).2
      rw [Nat.sub_add_cancel hpos] at hset
      exact parent_unique h hset hc
  case part_parent =>
    intro c hne
    have hzero : c ≠ 0 := fun hc => hne (if_pos hc)
    rw [hparent hzero, hparents] at hne ⊢
    rcases getD_foldl_setIfInBounds links _ hbound (c - 1) with ⟨-, hkeep⟩ | hset
    · have hblank : (Array.replicate t.size 0).getD (c - 1) 0 = 0 := by
        rw [Array.getD_eq_getD_getElem?, Array.getElem?_replicate]
        split <;> rfl
      exact (hne (hkeep.trans hblank)).elim
    · obtain ⟨hid, hc⟩ := hlinks.1 hset
      rw [Nat.sub_add_cancel (Nat.pos_of_ne_zero hzero)] at hc
      exact ⟨mem_reached_link.2 hid, hc⟩

namespace Linked

variable {id c : Nat}

theorem part_lt (h : t.Linked) (hc : c ∈ t.children id) : 0 < c ∧ c < id := by
  obtain ⟨f, hf, hc⟩ := mem_children.1 hc
  rw [← Form.map_snd_parts] at hc
  obtain ⟨p, hp, rfl⟩ := List.mem_map.1 hc
  obtain ⟨hpos, hlt, -⟩ := h.fits hf p hp
  exact ⟨hpos, hlt⟩

/-- Where a type is wanted, a type stands. -/
theorem isType_part (h : t.Linked) {f : Form} (hf : t.form? id = some f) (hc : (.type, c) ∈ f.parts) :
    c < id ∧ t.isType c = true := by
  obtain ⟨-, hlt, g, hg, hadmits⟩ := h.fits hf _ hc
  cases g with
  | typeName | typeObject | typeFunc => exact ⟨hlt, by simp [isType, hg, Form.isType]⟩
  | _ => simp [Place.admits] at hadmits

/-- Fields stand at their own places only. -/
theorem type_part (h : t.Linked) {f : Form} (hf : t.form? id = some f) (hc : (.type, c) ∈ f.parts) :
    ∀ name type, t.form? c ≠ some (.typeField name type) := by
  obtain ⟨-, -, g, hg, hadmits⟩ := h.fits hf _ hc
  rintro name type heq
  obtain rfl := Option.some.inj (hg.symm.trans heq)
  exact nomatch hadmits

/-- Where a field is wanted, a field stands. -/
theorem field_part (h : t.Linked) {f : Form} (hf : t.form? id = some f) (hc : (.field, c) ∈ f.parts) :
    c < id ∧ ∃ name type, t.form? c = some (.typeField name type) := by
  obtain ⟨-, hlt, g, hg, hadmits⟩ := h.fits hf _ hc
  cases g with
  | typeField name type => exact ⟨hlt, name, type, hg⟩
  | _ => simp [Place.admits] at hadmits

theorem isType_field (h : t.Linked) {f : Form} (hf : t.form? id = some f) (hc : (.field, c) ∈ f.parts) :
    c < id ∧ t.isType c = true := by
  obtain ⟨hlt, name, type, hfield⟩ := h.field_part hf hc
  exact ⟨hlt, by simp [isType, hfield, Form.isType]⟩

/-- Where a parameter is wanted, a parameter stands. -/
theorem param_part (h : t.Linked) {f : Form} (hf : t.form? id = some f) (hc : (.param, c) ∈ f.parts) :
    ∃ name type, t.form? c = some (.param name type) := by
  obtain ⟨-, -, g, hg, hadmits⟩ := h.fits hf _ hc
  cases g with
  | param name type => exact ⟨name, type, hg⟩
  | _ => simp [Place.admits] at hadmits

/-- Parameters stand at their own places only. -/
theorem node_part (h : t.Linked) {f : Form} (hf : t.form? id = some f) (hc : (.node, c) ∈ f.parts) :
    ∀ name type, t.form? c ≠ some (.param name type) := by
  obtain ⟨-, -, g, hg, hadmits⟩ := h.fits hf _ hc
  rintro name type heq
  obtain rfl := Option.some.inj (hg.symm.trans heq)
  exact nomatch hadmits

/-- Where an expression is wanted, an expression stands. -/
theorem expression_part (h : t.Linked) {f : Form} (hf : t.form? id = some f) (hc : (.expression, c) ∈ f.parts) :
    ∃ g, t.form? c = some g ∧ g.isExpression = true := by
  obtain ⟨-, -, g, hg, hadmits⟩ := h.fits hf _ hc
  exact ⟨g, hg, hadmits⟩

/-- Where a statement is wanted, a statement stands. -/
theorem statement_part (h : t.Linked) {f : Form} (hf : t.form? id = some f) (hc : (.statement, c) ∈ f.parts) :
    ∃ g, t.form? c = some g ∧ g.isStatement = true := by
  obtain ⟨-, -, g, hg, hadmits⟩ := h.fits hf _ hc
  exact ⟨g, hg, hadmits⟩

/-- Where a property is wanted, a property stands. -/
theorem property_part (h : t.Linked) {f : Form} (hf : t.form? id = some f) (hc : (.property, c) ∈ f.parts) :
    ∃ name value, t.form? c = some (.property name value) := by
  obtain ⟨-, -, g, hg, hadmits⟩ := h.fits hf _ hc
  cases g with
  | property name value => exact ⟨name, value, hg⟩
  | _ => simp [Place.admits] at hadmits

theorem reached_part (h : t.Linked) (hid : id ∈ t.reached) (hc : c ∈ t.children id) : c ∈ t.reached := by
  obtain ⟨hpos, hlt⟩ := h.part_lt hc
  exact mem_walk.2 ((mem_walk.1 hid).snoc rfl hc hlt hpos)

/-- A node can be gone up to from its parts. -/
theorem up (h : t.Linked) (hid : id ∈ t.reached) (hc : c ∈ t.children id) : c < t.parent c ∧
    t.parent c ≤ t.size := by
  obtain ⟨f, hf, -⟩ := mem_children.1 hc
  rw [h.parent_part hid hc]
  exact ⟨(h.part_lt hc).2, le_size_of_form? hf⟩

theorem ancestors_part (h : t.Linked) (hid : id ∈ t.reached) (hc : c ∈ t.children id) :
    t.ancestors c = id :: t.ancestors id := by
  rw [ancestors, dif_pos (h.up hid hc), h.parent_part hid hc]

theorem nearest_part (h : t.Linked) (p : Nat → Bool) (hid : id ∈ t.reached) (hc : c ∈ t.children id) :
    t.nearest p c = if p id then id else t.nearest p id := by
  rw [nearest, dif_pos (h.up hid hc), h.parent_part hid hc]

/-- A node that the root reaches is a type, a parameter in one, or outside of types. -/
theorem outside_or_inType (h : t.Linked) {x : Nat} (hx : x ∈ t.reached) : x ∈ t.reachedOutsideTypes ∨
    t.isType x = true ∨ (∃ name type, t.form? x = some (.param name type)) ∧ t.isType (t.parent x) = true := by
  let P := fun x => x ∈ t.reached ∧ (x ∈ t.reachedOutsideTypes ∨ t.isType x = true ∨
    (∃ name type, t.form? x = some (.param name type)) ∧ t.isType (t.parent x) = true)
  have hdown := mem_walk.1 hx
  have hroot : P t.root := ⟨mem_walk.2 (.here hdown.pos), .inl (mem_walk.2 (.here hdown.pos))⟩
  refine (hdown.induct (P := P) ?_ hroot).2
  rintro id c ⟨hid, hplace⟩ - hc
  refine ⟨h.reached_part hid hc, ?_⟩
  obtain ⟨f, hf, hcf⟩ := mem_children.1 hc
  rw [← Form.map_snd_parts] at hcf
  obtain ⟨⟨place, c⟩, hp, rfl⟩ := List.mem_map.1 hcf
  by_cases htype : t.isType id = true
  · -- the parts of a type are types and parameters
    refine .inr ?_
    obtain ⟨g, hg, hgtype⟩ := exists_form_of_isType htype
    obtain rfl := Option.some.inj (hf.symm.trans hg)
    rcases Form.place_of_isType hgtype hp with rfl | rfl | rfl
    · exact .inl (h.isType_part hf hp).2
    · exact .inl (h.isType_field hf hp).2
    · exact .inr ⟨h.param_part hf hp, by rw [h.parent_part hid hc]; exact htype⟩
  · rcases hplace with hout | hin | ⟨⟨name, type, hparam⟩, -⟩
    · obtain ⟨hpos, hlt⟩ := h.part_lt hc
      exact .inl (mem_walk.2 ((mem_walk.1 hout).snoc (by simpa using htype) hc hlt hpos))
    · exact (htype hin).elim
    · obtain rfl : f = .param name type := Option.some.inj (hf.symm.trans hparam)
      obtain rfl : place = .type := by simp [Form.parts] at hp; exact hp.2.symm
      exact .inr (.inl (h.isType_part hf hp).2)

theorem parent_root (h : t.Linked) : t.parent t.root = 0 := by
  refine Decidable.byContradiction fun hne => ?_
  obtain ⟨hreached, hpart⟩ := h.part_parent hne
  have hle := (mem_walk.1 hreached).le
  have hlt := (h.part_lt hpart).2
  omega

/-- The root is around everything that it reaches. -/
theorem root_mem_ancestors (h : t.Linked) {x : Nat} (hx : x ∈ t.reached) (hne : x ≠ t.root) : t.root ∈
    t.ancestors x := by
  let P := fun x => x ∈ t.reached ∧ (x = t.root ∨ t.root ∈ t.ancestors x)
  have hdown := mem_walk.1 hx
  have hroot : P t.root := ⟨mem_walk.2 (.here hdown.pos), .inl rfl⟩
  refine (hdown.induct (P := P) ?_ hroot).2.resolve_left hne
  rintro id c ⟨hid, haround⟩ - hc
  refine ⟨h.reached_part hid hc, .inr ?_⟩
  rw [h.ancestors_part hid hc, List.mem_cons]
  exact haround.imp_left Eq.symm

end Linked

/-- The tree of every file is linked, whatever is wrong with the file. -/
theorem linked_parse (file : Source.File) (maxErrors : Nat) : (parse file maxErrors).tree.Linked :=
  linked_link (forest_parse file maxErrors) (root_parse file maxErrors)

end TypedScript.Ast.Tree
