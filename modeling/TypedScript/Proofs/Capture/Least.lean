import Mathlib.Data.List.Nodup
import TypedScript.Capture.Analysis
import TypedScript.Proofs.Binding.Lexical

/-!
# What the capture analysis finds

The analysis collects, use by use. What it collects is said here without reference to how: which containers
escape, which declarations live in scope objects, and which functions capture, the last as a least predicate since
named functions may use each other. Going through the uses of named functions ends because every round but the
last adds a function.
-/

namespace TypedScript.Capture

open TypedScript.Ast TypedScript.Ast.Tree TypedScript.Binding

variable {t : Tree} {table : Table}

/-! ### Declarative side -/

/-- A variable, constant or parameter that `c` declares is used in a function nested strictly below `c`. -/
def UsedBelow (t : Tree) (table : Table) (c : Nat) : Prop :=
  ∃ d ∈ t.decls c, (symbolKind t d).isStorage = true ∧
    ∃ r f, table.decl? r = some d ∧ f ∈ t.ancestors r ∧ t.isFunction f = true ∧ c ∈ t.ancestors f

/-- The least predicate on functions that holds of those that use a variable, constant or parameter declared
outside of them, or a named function declared outside of them of which it holds. -/
inductive Captures (t : Tree) (table : Table) : Nat → Prop
  | storage {f r d : Nat} : t.isFunction f = true → f ∈ t.ancestors r → table.decl? r = some d →
    (symbolKind t d).isStorage = true → f ∉ t.ancestors d → Captures t table f
  | function {f r g : Nat} : t.isFunction f = true → f ∈ t.ancestors r → table.decl? r = some g →
    symbolKind t g = .function → f ∉ t.ancestors g → Captures t table g → Captures t table f

/-- Uses refer to declarations of containers around them. -/
def IsLexical (t : Tree) (table : Table) : Prop :=
  ∀ r d, table.decl? r = some d → ∃ c, DeclaresValue t c d ∧ c ∈ t.ancestors r

/-! ### Functions between a use and a container -/

theorem mem_crossed {r owner f : Nat} :
    f ∈ crossed t r owner ↔ f ∈ t.ancestors r ∧ owner ∈ t.ancestors f ∧ t.isFunction f = true := by
  unfold crossed
  split
  · rename_i h
    have howner : owner ∈ t.ancestors r := by simpa [isAncestor] using h
    rw [List.mem_filter, mem_takeWhile_ancestors howner, and_assoc]
  · rename_i h
    have howner : owner ∉ t.ancestors r := by simpa [isAncestor] using h
    simp only [List.not_mem_nil, false_iff, not_and]
    exact fun hf hof => (howner (ancestors_trans hof hf)).elim

/-- The functions between a use and the container of what it refers to are those around the use that the
declaration lies outside of. -/
theorem mem_crossed_container (h : IsLexical t table) {r d f : Nat} (hr : table.decl? r = some d) :
    f ∈ crossed t r (t.container d) ↔ t.isFunction f = true ∧ f ∈ t.ancestors r ∧ f ∉ t.ancestors d := by
  obtain ⟨c, hd, hc⟩ := h r d hr
  obtain rfl : t.container d = c := (mem_decls.1 hd.1).2.2
  have hne : t.container d ≠ 0 := by have := lt_of_mem_ancestors hc; omega
  have howner := (nearest_mem hne).1
  rw [mem_crossed]
  constructor
  · rintro ⟨hf, hof, hfun⟩
    refine ⟨hfun, hf, fun hfd => ?_⟩
    have hlt := lt_of_mem_ancestors hof
    rcases nearest_le hfd (isContainer_of_isFunction hfun) with heq | hfo
    · exact absurd hlt (by rw [heq]; exact Nat.lt_irrefl _)
    · exact Nat.lt_asymm hlt (lt_of_mem_ancestors hfo)
  · rintro ⟨hfun, hf, hfd⟩
    rcases ancestors_linear hf hc with rfl | hfo | hof
    · exact (hfd howner).elim
    · exact (hfd (ancestors_trans hfo howner)).elim
    · exact ⟨hf, hof, hfun⟩

/-! ### Collecting -/

theorem mem_addNew {xs ys : List Nat} {x : Nat} : x ∈ addNew xs ys ↔ x ∈ xs ∨ x ∈ ys := by
  unfold addNew
  induction ys generalizing xs with
  | nil => simp
  | cons y ys ih =>
    rw [List.foldl_cons, ih]
    split
    · rename_i hy
      have hy : y ∈ xs := by simpa using hy
      simp only [List.mem_cons]
      grind
    · simp [or_assoc]

theorem prefix_addNew (xs ys : List Nat) : xs <+: addNew xs ys := by
  unfold addNew
  induction ys generalizing xs with
  | nil => exact List.prefix_rfl
  | cons y ys ih =>
    rw [List.foldl_cons]
    split
    · exact ih xs
    · exact (List.prefix_append xs [y]).trans (ih _)

theorem nodup_addNew {xs : List Nat} (h : xs.Nodup) (ys : List Nat) : (addNew xs ys).Nodup := by
  unfold addNew
  induction ys generalizing xs with
  | nil => exact h
  | cons y ys ih =>
    rw [List.foldl_cons]
    split
    · exact ih h
    · rename_i hy
      exact ih (List.nodup_append.2 ⟨h, List.nodup_singleton y, by grind⟩)

theorem mem_storageUses {r d : Nat} :
    (r, d) ∈ storageUses t table ↔ table.decl? r = some d ∧ (symbolKind t d).isStorage = true := by
  simp [storageUses, Table.decl?, Std.TreeMap.mem_toList_iff_getElem?_eq_some]

theorem mem_functionUses {r d : Nat} :
    (r, d) ∈ functionUses t table ↔ table.decl? r = some d ∧ symbolKind t d = .function := by
  simp [functionUses, Table.decl?, Std.TreeMap.mem_toList_iff_getElem?_eq_some]

/-! ### Uses of variables and parameters -/

/-- The analysis before the uses of named functions are gone through. -/
def storageAnalysis (t : Tree) (table : Table) : Analysis :=
  (storageUses t table).foldl (fun (a : Analysis) p => a.useStorage p.1 p.2) { tree := t }

section UseStorage

variable (a : Analysis) (r d : Nat)

theorem tree_useStorage : (a.useStorage r d).tree = a.tree := by
  simp only [Analysis.useStorage]
  split <;> rfl

theorem mem_escaping_useStorage {c : Nat} :
    c ∈ (a.useStorage r d).escaping ↔ c ∈ a.escaping ∨ c = a.tree.container d ∧ crossed a.tree r c ≠ [] := by
  simp only [Analysis.useStorage]
  split
  · rename_i h
    constructor
    · exact .inl
    · rintro (hc | ⟨rfl, hne⟩)
      · exact hc
      · exact (hne h).elim
  · rename_i h
    rw [mem_addNew, List.mem_singleton]
    constructor
    · rintro (hc | rfl)
      · exact .inl hc
      · exact .inr ⟨rfl, h⟩
    · rintro (hc | ⟨rfl, -⟩)
      · exact .inl hc
      · exact .inr rfl

theorem mem_capturing_useStorage {f : Nat} :
    f ∈ (a.useStorage r d).capturing ↔ f ∈ a.capturing ∨ f ∈ crossed a.tree r (a.tree.container d) := by
  simp only [Analysis.useStorage]
  split
  · rename_i h
    simp [h]
  · exact mem_addNew

theorem nodup_capturing_useStorage (h : a.capturing.Nodup) : (a.useStorage r d).capturing.Nodup := by
  simp only [Analysis.useStorage]
  split
  · exact h
  · exact nodup_addNew h _

end UseStorage

/-- What the analysis has found after some uses of variables and parameters. -/
structure Collected (t : Tree) (uses : List (Nat × Nat)) (a : Analysis) : Prop where
  tree : a.tree = t
  escaping : ∀ c, c ∈ a.escaping ↔ ∃ p ∈ uses, c = t.container p.2 ∧ crossed t p.1 c ≠ []
  capturing : ∀ f, f ∈ a.capturing ↔ ∃ p ∈ uses, f ∈ crossed t p.1 (t.container p.2)
  nodup : a.capturing.Nodup

theorem Collected.useStorage {uses : List (Nat × Nat)} {a : Analysis} (h : Collected t uses a) (r d : Nat) :
    Collected t (uses ++ [(r, d)]) (a.useStorage r d) where
  tree := (tree_useStorage a r d).trans h.tree
  escaping c := by
    rw [mem_escaping_useStorage, h.escaping, h.tree]
    simp only [List.mem_append, List.mem_singleton, or_and_right, exists_or, exists_eq_left]
  capturing f := by
    rw [mem_capturing_useStorage, h.capturing, h.tree]
    simp only [List.mem_append, List.mem_singleton, or_and_right, exists_or, exists_eq_left]
  nodup := nodup_capturing_useStorage a r d h.nodup

theorem collected_storage (t : Tree) (table : Table) : Collected t (storageUses t table)
    (storageAnalysis t table) := by
  have hrun (uses done : List (Nat × Nat)) (a : Analysis) (ha : Collected t done a) :
      Collected t (done ++ uses) (uses.foldl (fun (a : Analysis) p => a.useStorage p.1 p.2) a) := by
    induction uses generalizing done a with
    | nil => simpa using ha
    | cons p uses ih =>
      have h := ih (done ++ [p]) (a.useStorage p.1 p.2) (ha.useStorage p.1 p.2)
      simpa using h
  exact hrun (storageUses t table) [] { tree := t } ⟨rfl, by simp, by simp, List.nodup_nil⟩

/-! ### Uses of named functions -/

section Spread

variable {uses : List (Nat × Nat)} {capturing : List Nat}

theorem prefix_useFunction (use : Nat × Nat) : capturing <+: useFunction t capturing use := by
  unfold useFunction
  split
  · exact prefix_addNew _ _
  · exact List.prefix_rfl

theorem prefix_foldl_useFunction (uses : List (Nat × Nat)) : capturing <+: uses.foldl
    (useFunction t) capturing := by
  induction uses generalizing capturing with
  | nil => exact List.prefix_rfl
  | cons use uses ih => exact (prefix_useFunction use).trans ih

/-- The functions that a round adds all come from a use of a named function that captures. -/
theorem foldl_useFunction_induct {P : List Nat → Prop} (hP : ∀ capturing, ∀ use ∈ uses, P capturing →
    P (useFunction t capturing use)) (h : P capturing) : P (uses.foldl (useFunction t) capturing) := by
  induction uses generalizing capturing with
  | nil => exact h
  | cons use uses ih => exact ih (fun c u hu => hP c u (by simp [hu])) (hP _ use (by simp) h)

/-- No use of a named function adds anything. -/
def Closed (t : Tree) (uses : List (Nat × Nat)) (capturing : List Nat) : Prop :=
  ∀ use ∈ uses, use.2 ∈ capturing → ∀ f ∈ crossed t use.1 (t.container use.2), f ∈ capturing

theorem closed_of_length (h : (uses.foldl (useFunction t) capturing).length = capturing.length) :
    uses.foldl (useFunction t) capturing = capturing ∧ Closed t uses capturing := by
  have heq : uses.foldl (useFunction t) capturing = capturing :=
    ((prefix_foldl_useFunction uses).eq_of_length h.symm).symm
  refine ⟨heq, ?_⟩
  clear h
  induction uses with
  | nil => exact fun _ h => nomatch h
  | cons use uses ih =>
    -- one step and the rest only add, so if they come back to where they began neither added anything
    have hstep : useFunction t capturing use = capturing := by
      have hrest : useFunction t capturing use <+: uses.foldl (useFunction t) (useFunction t capturing use) :=
        prefix_foldl_useFunction uses
      rw [List.foldl_cons] at heq
      rw [heq] at hrest
      exact hrest.eq_of_length (Nat.le_antisymm hrest.length_le (prefix_useFunction use).length_le)
    rw [List.foldl_cons, hstep] at heq
    rw [Closed, List.forall_mem_cons]
    refine ⟨fun hmem f hf => ?_, ih heq⟩
    rw [useFunction, if_pos (by simpa using hmem)] at hstep
    rw [← hstep]
    exact mem_addNew.2 (.inr hf)

/-- The functions are functions of the tree, each listed once. -/
structure Listed (t : Tree) (capturing : List Nat) : Prop where
  nodup : capturing.Nodup
  isFunction : ∀ f ∈ capturing, t.isFunction f = true

theorem Listed.length_le (h : Listed t capturing) : capturing.length ≤ t.size := by
  have hsub : capturing ⊆ (List.range t.size).map (· + 1) := by
    intro f hf
    have hfun := h.isFunction f hf
    cases hform : t.form? f with
    | none => simp [Tree.isFunction, hform] at hfun
    | some g =>
      have hpos := (form?_eq_some.1 hform).1
      have hle := le_size_of_form? hform
      exact List.mem_map.2 ⟨f - 1, List.mem_range.2 (by omega), by omega⟩
  simpa using (h.nodup.subperm hsub).length_le

theorem Listed.useFunction (h : Listed t capturing) (use : Nat × Nat) : Listed t (useFunction t capturing use) := by
  unfold Capture.useFunction
  split
  · refine ⟨nodup_addNew h.nodup _, fun f hf => ?_⟩
    rcases mem_addNew.1 hf with hf | hf
    · exact h.isFunction f hf
    · exact (mem_crossed.1 hf).2.2
  · exact h

/-- The rounds end with a list that is closed. There is no more than one round more than there are functions
added, so more rounds than there are nodes make no difference. -/
theorem spread_spec (h : Listed t capturing) (uses : List (Nat × Nat)) {fuel : Nat}
    (hfuel : t.size < capturing.length + fuel) (rounds : Nat) :
    let result := spread t uses fuel capturing rounds
    Closed t uses result.1 ∧ result.2 + capturing.length ≤ rounds + result.1.length + 1 ∧
      ∀ more, spread t uses (fuel + more) capturing rounds = result := by
  induction fuel generalizing capturing rounds with
  | zero =>
    have := h.length_le
    omega
  | succ fuel ih =>
    have hnext : Listed t (uses.foldl (useFunction t) capturing) :=
      foldl_useFunction_induct (fun _ use _ hc => hc.useFunction use) h
    intro result
    by_cases hlen : (uses.foldl (useFunction t) capturing).length = capturing.length
    · obtain ⟨heq, hclosed⟩ := closed_of_length hlen
      have hresult : result = (capturing, rounds + 1) := by simp [result, spread, heq]
      refine ⟨by rwa [hresult], by simp [hresult]; omega, fun more => ?_⟩
      rw [hresult, Nat.add_right_comm]
      simp [spread, heq]
    · have hgrow : capturing.length ≤ (uses.foldl (useFunction t) capturing).length :=
        (prefix_foldl_useFunction uses).length_le
      have hresult : result = spread t uses fuel (uses.foldl (useFunction t) capturing) (rounds + 1) := by
        simp [result, spread, hlen]
      obtain ⟨hclosed, hrounds, hmore⟩ := ih hnext (by omega) (rounds + 1)
      rw [← hresult] at hclosed hrounds hmore
      refine ⟨hclosed, by omega, fun more => ?_⟩
      rw [← hmore more, Nat.add_right_comm]
      simp [spread, hlen]

theorem spread_induct {P : List Nat → Prop} (hP : ∀ capturing, ∀ use ∈ uses, P capturing →
    P (useFunction t capturing use)) (h : P capturing) (fuel rounds : Nat) : P
      (spread t uses fuel capturing rounds).1 := by
  induction fuel generalizing capturing rounds with
  | zero => exact h
  | succ fuel ih =>
    have hnext := foldl_useFunction_induct hP h
    simp only [spread]
    split
    · exact hnext
    · exact ih hnext _

end Spread

/-! ### The analysis -/

theorem capturing_analyze (t : Tree) (table : Table) : (analyze t table).capturing =
    (spread t (functionUses t table) (t.size + 2) (storageAnalysis t table).capturing 0).1 := rfl

theorem rounds_analyze (t : Tree) (table : Table) : (analyze t table).rounds =
    (spread t (functionUses t table) (t.size + 2) (storageAnalysis t table).capturing 0).2 := rfl

theorem listed_storage (t : Tree) (table : Table) : Listed t (storageAnalysis t table).capturing where
  nodup := (collected_storage t table).nodup
  isFunction f hf := by
    obtain ⟨p, -, hf⟩ := ((collected_storage t table).capturing f).1 hf
    exact (mem_crossed.1 hf).2.2

theorem isEscaping_iff (h : IsLexical t table) (c : Nat) : (analyze t table).isEscaping c = true ↔
    UsedBelow t table c := by
  have hcollected := (collected_storage t table).escaping c
  change (storageAnalysis t table).escaping.contains c = true ↔ _
  rw [List.contains_iff_mem, hcollected]
  constructor
  · rintro ⟨⟨r, d⟩, hp, rfl, hne⟩
    obtain ⟨hr, hd⟩ := mem_storageUses.1 hp
    obtain ⟨f, hf⟩ := List.exists_mem_of_ne_nil _ hne
    obtain ⟨hfr, hcf, hfun⟩ := mem_crossed.1 hf
    obtain ⟨c, ⟨hmem, -⟩, -⟩ := h r d hr
    obtain rfl : t.container d = c := (mem_decls.1 hmem).2.2
    exact ⟨d, hmem, hd, r, f, hr, hfr, hfun, hcf⟩
  · rintro ⟨d, hmem, hd, r, f, hr, hfr, hfun, hcf⟩
    obtain rfl : t.container d = c := (mem_decls.1 hmem).2.2
    exact ⟨(r, d), mem_storageUses.2 ⟨hr, hd⟩, rfl, List.ne_nil_of_mem (mem_crossed.2 ⟨hfr, hcf, hfun⟩)⟩

/-- The rounds that the analysis makes end by themselves. -/
theorem spread_storage (t : Tree) (table : Table) :
    Closed t (functionUses t table) (analyze t table).capturing ∧
      (analyze t table).rounds ≤ (analyze t table).capturing.length + 1 ∧
      ∀ more, spread t (functionUses t table) (t.size + 2 + more) (storageAnalysis t table).capturing 0 =
        ((analyze t table).capturing, (analyze t table).rounds) := by
  have hfuel : t.size < (storageAnalysis t table).capturing.length + (t.size + 2) := by omega
  obtain ⟨hclosed, hrounds, hmore⟩ := spread_spec (listed_storage t table) (functionUses t table) hfuel 0
  refine ⟨hclosed, ?_, hmore⟩
  rw [capturing_analyze, rounds_analyze]
  omega

theorem captures_iff (h : IsLexical t table) (f : Nat) : (analyze t table).captures f = true ↔
    Captures t table f := by
  have hstorage := (collected_storage t table).capturing
  change (analyze t table).capturing.contains f = true ↔ _
  rw [List.contains_iff_mem]
  constructor
  · -- what is added captures, since what it is added for does
    intro hf
    rw [capturing_analyze] at hf
    refine spread_induct (P := fun capturing => ∀ f ∈ capturing, Captures t table f) ?_ ?_ _ _ f hf
    · rintro capturing ⟨r, g⟩ huse hcap f hf
      obtain ⟨hr, hg⟩ := mem_functionUses.1 huse
      unfold useFunction at hf
      split at hf
      · rename_i hgcap
        rcases mem_addNew.1 hf with hf | hf
        · exact hcap f hf
        · obtain ⟨hfun, hfr, hout⟩ := (mem_crossed_container h hr).1 hf
          exact .function hfun hfr hr hg hout (hcap g (by simpa using hgcap))
      · exact hcap f hf
    · intro f hf
      obtain ⟨⟨r, d⟩, hp, hf⟩ := (hstorage f).1 hf
      obtain ⟨hr, hd⟩ := mem_storageUses.1 hp
      obtain ⟨hfun, hfr, hout⟩ := (mem_crossed_container h hr).1 hf
      exact .storage hfun hfr hr hd hout
  · intro hf
    induction hf with
    | @storage f r d hfun hfr hr hd hout =>
      have hmem : f ∈ (storageAnalysis t table).capturing :=
        (hstorage f).2 ⟨(r, d), mem_storageUses.2 ⟨hr, hd⟩, (mem_crossed_container h hr).2 ⟨hfun, hfr, hout⟩⟩
      rw [capturing_analyze]
      exact spread_induct (P := (f ∈ ·)) (fun _ use _ hf => (prefix_useFunction use).subset hf) hmem _ _
    | function hfun hfr hr hg hout _ ih =>
      exact (spread_storage t table).1 _ (mem_functionUses.2 ⟨hr, hg⟩) ih _
        ((mem_crossed_container h hr).2 ⟨hfun, hfr, hout⟩)

/-- A node that declares a name in a container is one of the declarations of the container. -/
theorem mem_decls_container (h : t.Linked) {d : Nat} (hdecl : t.isDeclaration d = true) (hne : t.container d ≠ 0) :
    d ∈ t.decls (t.container d) := by
  refine mem_decls.2 ⟨?_, hdecl, rfl⟩
  have hup : t.parent d ≠ 0 := by
    have hmem := (nearest_mem hne).1
    rw [ancestors] at hmem
    split at hmem
    · omega
    · cases hmem
  obtain ⟨hparent, hpart⟩ := h.part_parent hup
  rcases h.outside_or_inType (h.reached_part hparent hpart) with hout | htype | ⟨⟨name, type, hparam⟩, htype⟩
  · exact hout
  · exact absurd ((isType_of_isDeclaration hdecl).symm.trans htype) Bool.false_ne_true
  · have hfun : t.isFunction (t.parent d) = true := by simpa [isDeclaration, hparam] using hdecl
    exact absurd ((isType_of_isFunction hfun).symm.trans htype) Bool.false_ne_true

theorem inScopeObject_iff (h : t.Linked) (hlex : IsLexical t table) (d : Nat) :
    (analyze t table).inScopeObject d = true ↔
    ∃ c, (analyze t table).isEscaping c = true ∧ d ∈ t.decls c ∧ (symbolKind t d).isStorage = true := by
  have htree : (analyze t table).tree = t := (collected_storage t table).tree
  simp only [Analysis.inScopeObject, htree, Bool.and_eq_true]
  constructor
  · rintro ⟨⟨hdecl, hstorage⟩, hesc⟩
    obtain ⟨-, -, -, r, f, -, -, -, hc⟩ := (isEscaping_iff hlex _).1 hesc
    have hne : t.container d ≠ 0 := by have := lt_of_mem_ancestors hc; omega
    exact ⟨t.container d, hesc, mem_decls_container h hdecl hne, hstorage⟩
  · rintro ⟨c, hesc, hmem, hstorage⟩
    obtain ⟨-, hdecl, rfl⟩ := mem_decls.1 hmem
    exact ⟨⟨hdecl, hstorage⟩, hesc⟩

/-- The analysis of every tree that was parsed and whose names are bound ends, after at most one round more than
there are functions that capture, and finds what it is meant to find. -/
theorem analyze_spec (file : Source.File) (maxErrors : Nat) :
    let t := (parse file maxErrors).tree
    let table := (resolve t).table
    let a := analyze t table
    (a.rounds ≤ a.capturing.length + 1 ∧
      ∀ more, spread t (functionUses t table) (t.size + 2 + more) (storageAnalysis t table).capturing 0 =
        (a.capturing, a.rounds)) ∧
    (∀ c, a.isEscaping c = true ↔ UsedBelow t table c) ∧
    (∀ d, a.inScopeObject d = true ↔
      ∃ c, a.isEscaping c = true ∧ d ∈ t.decls c ∧ (symbolKind t d).isStorage = true) ∧
    ∀ f, a.captures f = true ↔ Captures t table f := by
  intro t table a
  have h : t.Linked := linked_parse file maxErrors
  have hlex : IsLexical t table := fun r d hr => resolve_lexical h hr
  exact ⟨(spread_storage t table).2, isEscaping_iff hlex, inScopeObject_iff h hlex, captures_iff hlex⟩

end TypedScript.Capture
