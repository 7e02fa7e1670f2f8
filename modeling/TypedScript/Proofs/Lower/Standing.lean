import TypedScript.Proofs.Capture.Least
import TypedScript.Proofs.Scope.Path

/-!
# Scopes and containers

The scopes that are opened while code is made correspond to the containers of the tree: a scope stands at a
container if, going outward, the scopes that are not transient are those of the container and of the containers
around it, and each of them declares what its container declares. From such a scope every declaration of a
container around it is found, and found to be at hand: in the same function, or in a scope object that the
environment leads to.
-/

namespace TypedScript.Lower

open TypedScript.Ast TypedScript.Ast.Tree TypedScript.Binding TypedScript.Capture TypedScript.Scope

/-! ### Functions of containers -/

/-- The function that the code of a container belongs to; zero at module level. -/
def functionAt (t : Tree) (c : Nat) : Nat := if t.isFunction c then c else t.function c

theorem nearest_nearest (t : Tree) {p q : Nat → Bool} (hpq : ∀ x, p x = true → q x = true)
    (hp : p 0 = false) (id : Nat) :
    t.nearest p id = if p (t.nearest q id) then t.nearest q id else t.nearest p (t.nearest q id) := by
  fun_induction nearest t q id with
  | case1 id hid hq =>
    rw [nearest, dif_pos hid]
  | case2 id hid hq ih =>
    rw [nearest, dif_pos hid, if_neg fun h => hq (hpq _ h)]
    exact ih
  | case3 id hid =>
    have hzero : t.nearest p 0 = 0 := by
      rw [nearest, dif_neg]
      simp [parent]
    rw [nearest, dif_neg hid, hp, hzero]
    rfl

/-- Functions are containers, so the function around a node is that of its container. -/
theorem function_eq_functionAt (t : Tree) (id : Nat) : t.function id = functionAt t (t.container id) :=
  nearest_nearest t (fun _ => isContainer_of_isFunction) rfl id

/-- The function of a node is that of any container around it, unless some function lies in between. -/
theorem function_eq_of_mem {t : Tree} {c x : Nat} (hc : c ∈ t.ancestors x)
    (hnone : ∀ g ∈ t.ancestors x, t.isFunction g = true → c ∉ t.ancestors g) : t.function x = functionAt t c := by
  fun_induction ancestors t x with
  | case1 x hx ih =>
    rw [function, nearest, dif_pos hx]
    rcases List.mem_cons.1 hc with rfl | hc
    · rfl
    · rw [List.forall_mem_cons] at hnone
      rw [if_neg fun hfun => hnone.1 hfun hc]
      exact ih hc hnone.2
  | case2 x hx => cases hc

/-- A variable that is used in another function than that of its container makes the container escape. -/
theorem usedBelow_of_use {t : Tree} {table : Table} (hlex : IsLexical t table) {x d : Nat}
    (hx : table.decl? x = some d) (hd : (symbolKind t d).isStorage = true)
    (hne : t.function x ≠ functionAt t (t.container d)) :
    UsedBelow t table (t.container d) := by
  obtain ⟨c, ⟨hdecl, -⟩, hc⟩ := hlex x d hx
  obtain rfl : t.container d = c := (mem_decls.1 hdecl).2.2
  have hbetween : ∃ g ∈ t.ancestors x, t.isFunction g = true ∧ t.container d ∈ t.ancestors g := by
    refine Decidable.byContradiction fun hnone => hne (function_eq_of_mem hc fun g hg hfun hmem => ?_)
    exact hnone ⟨g, hg, hfun, hmem⟩
  obtain ⟨g, hg, hfun, hmem⟩ := hbetween
  exact ⟨d, hdecl, hd, x, g, hx, hg, hfun, hmem⟩

variable {inp : Input} {chain chain' : Chain}

/-! ### Standing -/

/-- The binding stands for a declaration of the container, under its name, and lives in the scope object if the
container has one. -/
structure BindingOf (inp : Input) (c : Nat) (b : Scope.Binding) : Prop where
  decl : b.decl ∈ inp.tree.decls c
  name : b.name = inp.tree.name b.decl
  object : b.inObject = true → inp.analysis.isEscaping c = true
  storage : b.kind.isFunction = false →
    (symbolKind inp.tree b.decl).isStorage = true ∧ b.inObject = inp.analysis.isEscaping c

/-- The scope declares what the container declares. -/
structure Entered (inp : Input) (n : Scope.Node) (c : Nat) : Prop where
  container : n.container = c
  escaping : n.escaping = inp.analysis.isEscaping c
  bindings : ∀ b ∈ n.bindings, BindingOf inp c b
  declared : ∀ d ∈ inp.tree.decls c, symbolKind inp.tree d ≠ .type → ∃ b ∈ n.bindings, b.decl = d

/-- Going outward from the scope, the scopes that are not transient are those of the container and of the
containers around it. -/
inductive Stands (inp : Input) (chain : Chain) : Nat → Nat → Prop
  | root {k : Nat} {n : Scope.Node} : chain.nodes[k]? = some n → n.parent = none → n.function = 0 →
    Entered inp n inp.tree.root → Stands inp chain k inp.tree.root
  | child {k p c : Nat} {n : Scope.Node} : chain.nodes[k]? = some n → n.parent = some p → p < k →
    n.function = functionAt inp.tree c → Entered inp n c → Stands inp chain p (inp.tree.container c) →
      Stands inp chain k c
  | transient {k p c : Nat} {n : Scope.Node} : chain.nodes[k]? = some n → n.parent = some p → p < k →
    n.function = functionAt inp.tree c → n.container = 0 → n.bindings = [] → Stands inp chain p c →
      Stands inp chain k c

/-- What does not change when a scope is changed. -/
structure Kept (inp : Input) (n n' : Scope.Node) : Prop where
  parent : n'.parent = n.parent
  function : n'.function = n.function
  escaping : n.escaping = true → n'.escaping = true
  entered : ∀ c, Entered inp n c → Entered inp n' c
  transient : n.container = 0 → n.bindings = [] → n'.container = 0 ∧ n'.bindings = []

theorem Kept.refl (n : Scope.Node) : Kept inp n n := ⟨rfl, rfl, id, fun _ h => h, fun h h' => ⟨h, h'⟩⟩

theorem Kept.trans {n₁ n₂ n₃ : Scope.Node} (h : Kept inp n₁ n₂) (h' : Kept inp n₂ n₃) : Kept inp n₁ n₃ where
  parent := h'.parent.trans h.parent
  function := h'.function.trans h.function
  escaping he := h'.escaping (h.escaping he)
  entered c hc := h'.entered c (h.entered c hc)
  transient hc hb := by
    obtain ⟨hc', hb'⟩ := h.transient hc hb
    exact h'.transient hc' hb'

/-- Scopes have been added and changed. -/
def Later (inp : Input) (chain chain' : Chain) : Prop :=
  ∀ (k : Nat) n, chain.nodes[k]? = some n → ∃ n', chain'.nodes[k]? = some n' ∧ Kept inp n n'

theorem Later.refl (chain : Chain) : Later inp chain chain := fun _ n hn => ⟨n, hn, .refl n⟩

theorem Later.trans {chain'' : Chain} (h : Later inp chain chain') (h' : Later inp chain' chain'') :
    Later inp chain chain'' := by
  intro k n hn
  obtain ⟨n', hn', hk⟩ := h k n hn
  obtain ⟨n'', hn'', hk'⟩ := h' k n' hn'
  exact ⟨n'', hn'', hk.trans hk'⟩

theorem Later.push (chain : Chain) (n : Scope.Node) : Later inp chain ⟨chain.nodes.push n⟩ := by
  intro k m hm
  refine ⟨m, ?_, .refl m⟩
  have hlt := (Array.getElem?_eq_some_iff.1 hm).1
  rw [Array.getElem?_push, if_neg (by omega), hm]

theorem Later.modify {k : Nat} {f : Scope.Node → Scope.Node}
    (hf : ∀ n, chain.nodes[k]? = some n → Kept inp n (f n)) : Later inp chain (chain.modify k f) := by
  intro j n hn
  rw [Chain.modify, Array.getElem?_modify]
  split
  · rename_i heq
    subst heq
    exact ⟨f n, by rw [hn]; rfl, hf n hn⟩
  · exact ⟨n, hn, .refl n⟩

theorem Stands.later {k c : Nat} (h : Stands inp chain k c) (hl : Later inp chain chain') :
    Stands inp chain' k c := by
  induction h with
  | root hn hp hf he =>
    obtain ⟨n', hn', hk⟩ := hl _ _ hn
    exact .root hn' (hk.parent.trans hp) (hk.function.trans hf) (hk.entered _ he)
  | child hn hp hlt hf he _ ih =>
    obtain ⟨n', hn', hk⟩ := hl _ _ hn
    exact .child hn' (hk.parent.trans hp) hlt (hk.function.trans hf) (hk.entered _ he) ih
  | transient hn hp hlt hf hc hb _ ih =>
    obtain ⟨n', hn', hk⟩ := hl _ _ hn
    obtain ⟨hc', hb'⟩ := hk.transient hc hb
    exact .transient hn' (hk.parent.trans hp) hlt (hk.function.trans hf) hc' hb' ih

/-! ### Looking outward -/

theorem get_eq {k : Nat} {n : Scope.Node} (h : chain.nodes[k]? = some n) : chain.get k = n := by
  simp [Chain.get, Array.getD_eq_getD_getElem?, h]

theorem outward_child {k p : Nat} {n : Scope.Node} (h : chain.nodes[k]? = some n) (hp : n.parent = some p)
    (hlt : p < k) :
    chain.outward k = k :: chain.outward p := by
  rw [Chain.outward, get_eq h, hp]
  exact if_pos hlt

theorem outward_root {k : Nat} {n : Scope.Node} (h : chain.nodes[k]? = some n) (hp : n.parent = none) :
    chain.outward k = [k] := by
  rw [Chain.outward, get_eq h, hp]

theorem mem_outward_self (k : Nat) : k ∈ chain.outward k := by
  rw [Chain.outward]
  split
  · split <;> simp
  · simp

theorem outward_trans {k m j : Nat} (hm : m ∈ chain.outward k) (hj : j ∈ chain.outward m) :
    j ∈ chain.outward k := by
  fun_induction Chain.outward chain k with
  | case1 k p hp hlt ih =>
    rcases List.mem_cons.1 hm with rfl | hm
    · rw [Chain.outward, hp] at hj
      simpa only [if_pos hlt] using hj
    · exact List.mem_cons_of_mem _ (ih hm)
  | case2 k p hp hlt =>
    obtain rfl := List.mem_singleton.1 hm
    rw [Chain.outward, hp] at hj
    simpa only [if_neg hlt] using hj
  | case3 k hp =>
    obtain rfl := List.mem_singleton.1 hm
    rwa [Chain.outward, hp] at hj

theorem functionAt_root {t : Tree} (h : t.Linked) : functionAt t t.root = 0 := by
  have hfun : t.isFunction t.root = false := by
    rcases h.root_module with hroot | ⟨body, hroot⟩
    · rw [hroot]
      rfl
    · simp [Tree.isFunction, hroot, Form.isFunction]
  rw [functionAt, hfun, if_neg (by simp), function, nearest, dif_neg (by simp [h.parent_root])]

section

variable (hinp : inp.tree.Linked) {k c : Nat}
include hinp

theorem Stands.function_eq (h : Stands inp chain k c) : chain.function k = functionAt inp.tree c := by
  cases h with
  | root hn _ hf _ => rw [Chain.function, get_eq hn, hf, functionAt_root hinp]
  | child hn _ _ hf _ _ => rw [Chain.function, get_eq hn, hf]
  | transient hn _ _ hf _ _ _ => rw [Chain.function, get_eq hn, hf]

/-- Every container around has its scope further out. -/
theorem Stands.exists_scope (h : Stands inp chain k c) {c' : Nat} (hc : inp.tree.isContainer c' = true)
    (hc' : c' = c ∨ c' ∈ inp.tree.ancestors c) :
    ∃ m ∈ chain.outward k, chain.function m = functionAt inp.tree c' ∧ Entered inp (chain.get m) c' := by
  induction h with
  | @root k n hn hp hf he =>
    have hnone : inp.tree.ancestors inp.tree.root = [] := by rw [ancestors, dif_neg (by simp [hinp.parent_root])]
    obtain rfl : c' = inp.tree.root := by simpa [hnone] using hc'
    refine ⟨k, mem_outward_self k, ?_, by rwa [get_eq hn]⟩
    rw [Chain.function, get_eq hn, hf, functionAt_root hinp]
  | @child k p c n hn hp hlt hf he _ ih =>
    rcases hc' with rfl | hc'
    · exact ⟨k, mem_outward_self k, by rw [Chain.function, get_eq hn, hf], by rwa [get_eq hn]⟩
    · obtain ⟨m, hm, hfun, hent⟩ := ih (nearest_le hc' hc)
      exact ⟨m, by rw [outward_child hn hp hlt]; exact List.mem_cons_of_mem _ hm, hfun, hent⟩
  | @transient k p c n hn hp hlt hf _ _ _ ih =>
    obtain ⟨m, hm, hfun, hent⟩ := ih hc'
    exact ⟨m, by rw [outward_child hn hp hlt]; exact List.mem_cons_of_mem _ hm, hfun, hent⟩

/-- A scope further out that declares something is that of a container around. -/
theorem Stands.entered_of_mem (h : Stands inp chain k c) {m : Nat} (hm : m ∈ chain.outward k) {b : Scope.Binding}
    (hb : b ∈ (chain.get m).bindings) : ∃ c', Entered inp (chain.get m) c' ∧ chain.function m =
    functionAt inp.tree c' := by
  induction h with
  | @root k n hn hp hf he =>
    obtain rfl : m = k := by simpa [outward_root hn hp] using hm
    exact ⟨_, by rwa [get_eq hn], by rw [Chain.function, get_eq hn, hf, functionAt_root hinp]⟩
  | @child k p c n hn hp hlt hf he _ ih =>
    rw [outward_child hn hp hlt] at hm
    rcases List.mem_cons.1 hm with rfl | hm
    · exact ⟨c, by rwa [get_eq hn], by rw [Chain.function, get_eq hn, hf]⟩
    · exact ih hm
  | @transient k p c n hn hp hlt hf _ hempty _ ih =>
    rw [outward_child hn hp hlt] at hm
    rcases List.mem_cons.1 hm with rfl | hm
    · rw [get_eq hn, hempty] at hb
      exact nomatch hb
    · exact ih hm

/-- A declaration of a container around is found in the scope of its container. -/
theorem Stands.find?_decl (h : Stands inp chain k c) {d : Nat}
    (hd : DeclaresValue inp.tree (inp.tree.container d) d)
    (hc : inp.tree.container d = c ∨ inp.tree.container d ∈ inp.tree.ancestors c) (hne : inp.tree.container d ≠ 0) :
    ∃ b m, chain.find? k (fun b => decide (d ≠ 0) && decide (b.decl = d)) = some (b, m) ∧
      m ∈ chain.outward k ∧ b.decl = d ∧
      chain.function m = functionAt inp.tree (inp.tree.container d) ∧
      chain.isEscaping m = inp.analysis.isEscaping (inp.tree.container d) ∧ BindingOf inp
        (inp.tree.container d) b := by
  have hpos : d ≠ 0 := by
    have hmem := (mem_decls.1 hd.1).1
    exact Nat.ne_of_gt (mem_walk.1 hmem).pos_last
  obtain ⟨m₀, hm₀, -, hent₀⟩ := h.exists_scope hinp (nearest_mem hne).2 hc
  obtain ⟨b₀, hb₀, hdecl₀⟩ := hent₀.declared d hd.1 hd.2
  have hsome : (chain.find? k fun b => decide (d ≠ 0) && decide (b.decl = d)).isSome = true := by
    rw [Chain.find?, List.findSome?_isSome_iff]
    refine ⟨m₀, hm₀, ?_⟩
    rw [Option.isSome_map, List.find?_isSome]
    exact ⟨b₀, hb₀, by simp [hpos, hdecl₀]⟩
  obtain ⟨⟨b, m'⟩, hfind⟩ := Option.isSome_iff_exists.1 hsome
  obtain ⟨m, hm, hmap⟩ := List.exists_of_findSome?_eq_some hfind
  obtain ⟨b, hb, heq⟩ := Option.map_eq_some_iff.1 hmap
  obtain ⟨rfl, rfl⟩ := Prod.mk.inj heq
  have hmem := List.mem_of_find?_eq_some hb
  have hdecl : b.decl = d := by simpa [hpos] using List.find?_some hb
  obtain ⟨c', hent, hfun⟩ := h.entered_of_mem hinp hm hmem
  have hof := hent.bindings b hmem
  obtain rfl : inp.tree.container d = c' := by rw [← hdecl]; exact (mem_decls.1 hof.decl).2.2
  exact ⟨b, m, hfind, hm, hdecl, hfun, hent.escaping, hof⟩

end

/-- A scope object further out, of another function, is reached from the environment. -/
theorem envPath?_of_mem {k m : Nat} (hm : m ∈ chain.outward k) (he : chain.isEscaping m = true)
    (hf : chain.function m ≠ chain.function k) : ∃ path, chain.envPath? k m = some path := by
  have hbeyond := Chain.mem_beyondFunction hm hf
  exact ⟨_, if_pos (by simp [Chain.isReachable, hbeyond, he])⟩

/-- The binding is at hand: the scope that declares it lies outward, and has an object if the binding lives in
one. -/
structure AtHand (chain : Chain) (k : Nat) (ref : Scope.Ref) : Prop where
  mem : ref.node ∈ chain.outward k
  object : ref.binding.inObject = true → chain.isEscaping ref.node = true

/-- What lies outward from a scope that stands somewhere is there, and stays there. -/
theorem Stands.outward_later {k c : Nat} (h : Stands inp chain k c) (hl : Later inp chain chain') :
    chain'.outward k = chain.outward k ∧ ∀ m ∈ chain.outward k, ∃ n, chain.nodes[m]? = some n := by
  induction h with
  | root hn hp hf he =>
    obtain ⟨n', hn', hk⟩ := hl _ _ hn
    rw [outward_root hn hp, outward_root hn' (hk.parent.trans hp)]
    exact ⟨rfl, fun m hm => by obtain rfl := List.mem_singleton.1 hm; exact ⟨_, hn⟩⟩
  | child hn hp hlt _ _ _ ih | transient hn hp hlt _ _ _ _ ih =>
    obtain ⟨n', hn', hk⟩ := hl _ _ hn
    rw [outward_child hn hp hlt, outward_child hn' (hk.parent.trans hp) hlt, ih.1]
    refine ⟨rfl, fun m hm => ?_⟩
    rcases List.mem_cons.1 hm with rfl | hm
    · exact ⟨_, hn⟩
    · exact ih.2 m hm

theorem AtHand.later {k c : Nat} {ref : Scope.Ref} (h : AtHand chain k ref) (hk : Stands inp chain k c)
    (hl : Later inp chain chain') : AtHand chain' k ref := by
  obtain ⟨heq, hthere⟩ := hk.outward_later hl
  refine ⟨heq ▸ h.mem, fun hobj => ?_⟩
  obtain ⟨n, hn⟩ := hthere _ h.mem
  obtain ⟨n', hn', hkept⟩ := hl _ n hn
  have hesc := h.object hobj
  rw [Chain.isEscaping, get_eq hn] at hesc
  rw [Chain.isEscaping, get_eq hn']
  exact hkept.escaping hesc

/-- A declaration of the container at which the scope stands can be used. -/
theorem Stands.lookupDecl_same (hinp : inp.tree.Linked) {k c d : Nat} (h : Stands inp chain k c)
    (hd : DeclaresValue inp.tree c d) (hc : c ≠ 0) (name : String) (span : Source.Span) :
    ∃ ref, chain.lookupDecl k d name span = .ok ref ∧ AtHand chain k ref := by
  obtain rfl : inp.tree.container d = c := (mem_decls.1 hd.1).2.2
  obtain ⟨b, m, hfind, hm, -, hfun, hesc, hof⟩ := h.find?_decl hinp hd (.inl rfl) hc
  refine ⟨⟨b, m, []⟩, ?_, hm, fun hobj => hesc.trans (hof.object hobj)⟩
  simp only [Chain.lookupDecl, hfind, Chain.refTo]
  rw [if_pos]
  simp [hfun, h.function_eq hinp]

/-- What an identifier refers to can be used where it stands. -/
theorem Stands.lookupDecl_use (hinp : inp.tree.Linked) (hlex : IsLexical inp.tree inp.table)
    (han : inp.analysis = analyze inp.tree inp.table) {k x d : Nat} (h : Stands inp chain k (inp.tree.container x))
    (hd : inp.table.decl? x = some d) (name : String) (span : Source.Span) :
    ∃ ref, chain.lookupDecl k d name span = .ok ref ∧ AtHand chain k ref := by
  obtain ⟨c, hdecl, hc⟩ := hlex x d hd
  obtain rfl : inp.tree.container d = c := (mem_decls.1 hdecl.1).2.2
  have hne : inp.tree.container d ≠ 0 := by have := lt_of_mem_ancestors hc; omega
  have haround := nearest_le hc (nearest_mem hne).2
  obtain ⟨b, m, hfind, hm, rfl, hfun, hesc, hof⟩ := h.find?_decl hinp hdecl haround hne
  by_cases hsame : chain.function m = chain.function k ∨ b.kind.isFunction = true
  · refine ⟨⟨b, m, []⟩, ?_, hm, fun hobj => hesc.trans (hof.object hobj)⟩
    simp only [Chain.lookupDecl, hfind, Chain.refTo]
    rw [if_pos (by simpa using hsame)]
  · -- it is used in another function, so its container escapes and has a scope object
    rw [not_or, Bool.not_eq_true] at hsame
    obtain ⟨hother, hkind⟩ := hsame
    obtain ⟨hstorage, hobject⟩ := hof.storage hkind
    have hescaping : inp.analysis.isEscaping (inp.tree.container b.decl) = true := by
      rw [han, isEscaping_iff hlex]
      refine usedBelow_of_use hlex hd hstorage fun heq => hother ?_
      rw [hfun, h.function_eq hinp, ← heq, function_eq_functionAt]
    obtain ⟨path, hpath⟩ := envPath?_of_mem hm (hesc.trans hescaping) hother
    refine ⟨⟨b, m, path⟩, ?_, hm, fun _ => hesc.trans hescaping⟩
    simp only [Chain.lookupDecl, hfind, Chain.refTo]
    rw [if_neg (by simp [hother, hkind]), if_neg (by simp [hobject, hescaping]), hpath]

end TypedScript.Lower
