import TypedScript.Proofs.Lower.Housed
import TypedScript.Proofs.Lower.Regime

/-!
# Lowering does not fail because of scopes: scopes and bindings

A computation is fine if, in a state in which every function that waits waits in a scope that stands at its
container, it does not fail because of scopes and leaves such a state. While a container is entered, the functions
it declares wait in a scope that does not stand yet.
-/

namespace TypedScript.Lower

open TypedScript.Ast TypedScript.Ast.Tree TypedScript.Binding TypedScript.Capture TypedScript.Scope

/-- What is lowered was parsed, bound without complaint and analysed. -/
structure Input.Ready (inp : Input) : Prop where
  linked : inp.tree.Linked
  lexical : IsLexical inp.tree inp.table
  total : ∀ {x name}, Visited inp.tree x → inp.tree.form? x = some (.ident name) → ∃ d, inp.table.decl? x = some d
  analysis : inp.analysis = analyze inp.tree inp.table

/-- The function that waits is gone to, in a scope that stands at its container or is just being entered. -/
structure Awaited (inp : Input) (chain : Chain) (entering : Option (Nat × Nat)) (p : Pending) : Prop where
  visited : Visited inp.tree p.node
  isFunction : inp.tree.isFunction p.node = true
  stands : Stands inp chain p.scope (inp.tree.container p.node) ∨
    entering = some (p.scope, inp.tree.container p.node)

/-- The state of scopes and waiting functions; `entering` is the scope that is being entered, with its container.
The variables of all other scopes have their places. -/
structure Scoped (inp : Input) (entering : Option (Nat × Nat)) (s : State) : Prop where
  parents : ∀ (k : Nat) n p, s.chain.nodes[k]? = some n → n.parent = some p → p < k
  housed : ∀ (k : Nat) n, s.chain.nodes[k]? = some n → (∀ c, entering ≠ some (k, c)) → Housed inp n
  queue : ∀ p ∈ s.queue, Awaited inp s.chain entering p

/-- What is looked at is that the scopes are as they should be; lowering may fail for reasons that have nothing to
do with them. -/
@[reducible]
def fineRegime (inp : Input) (entering : Option (Nat × Nat)) : StateRegime where
  Inv := Scoped inp entering
  Le _ _ s s' := Later inp s.chain s'.chain
  Live _ := True
  Fault e _ := e.isOfScope = false
  Allowed e := e.isOfScope = false
  refl := .refl _
  trans := .trans
  any h := h
  fault he _ := he
  located span h := (Error.isOfScope_located _ span).trans h

/-- From `s` on the computation does not fail because of scopes, and keeps the scopes as they should be. -/
abbrev Fine (inp : Input) (entering : Option (Nat × Nat)) {α : Type} (s : State) (act : LowerM α)
    (Q : State → α → Prop) : Prop :=
  (fineRegime inp entering).toRegime.Goes none s act Q

variable {inp : Input} {u : Option (Nat × Nat)} {s : State} {α β : Type}

theorem Awaited.later {chain chain' : Chain} {p : Pending} (h : Awaited inp chain u p)
    (hl : Later inp chain chain') :
    Awaited inp chain' u p := ⟨h.visited, h.isFunction, h.stands.imp_left fun hs => hs.later hl⟩

namespace Fine

variable {act : LowerM α} {Q Q' : State → α → Prop} {R : State → β → Prop}

theorem of_runs (h : Scoped inp u s →
      (∀ a s', Runs act s a s' → Scoped inp u s' ∧ Later inp s.chain s'.chain ∧ Q s' a) ∧
        ∀ e s', Fails act s e s' → e.isOfScope = false) : Fine inp u s act Q := by
  refine fun _ => StateRegime.leads_of fun hs => ⟨fun a s' hrun => ?_, (h hs).2⟩
  obtain ⟨hs', hl, hq⟩ := (h hs).1 a s' hrun
  exact ⟨hs', hl, trivial, hq⟩

theorem run (h : Fine inp u s act Q) (hs : Scoped inp u s) {a : α} {s' : State} (hrun : Runs act s a s') :
    Scoped inp u s' ∧ Later inp s.chain s'.chain ∧ Q s' a := by
  obtain ⟨hs', hl, -, hq⟩ := StateRegime.run (h trivial) hs hrun
  exact ⟨hs', hl, hq⟩

theorem fails (h : Fine inp u s act Q) (hs : Scoped inp u s) {e : Error} {s' : State} (hf : Fails act s e s') :
    e.isOfScope = false := StateRegime.fails (h trivial) hs hf

/-- A calm computation. -/
theorem calm (h : Calm act) : Fine inp u s act fun s' _ => s'.chain = s.chain := by
  refine .of_runs fun hs => ⟨fun a s' hr => ?_, fun e s' hf => h.fail hf⟩
  obtain ⟨hc, hq⟩ := h.run hr
  refine ⟨⟨hc ▸ hs.parents, hc ▸ hs.housed, ?_⟩, hc ▸ .refl _, hc⟩
  rw [hc, hq]
  exact hs.queue

/-- A calm step that leads on. -/
theorem step {f : α → LowerM β} (h : Calm act) (hf : ∀ s' a, s'.chain = s.chain → Fine inp u s' (f a) R) :
    Fine inp u s (act >>= f) R := (calm h).bind fun s' a _ hc => hf s' a hc

/-- A calm end. -/
theorem last (h : Calm act) : Fine inp u s act fun _ _ => True := (calm h).imp fun _ _ _ _ => trivial

/-- The scopes are changed. -/
theorem alter {f : State → State} {Q : State → Unit → Prop}
    (h : Scoped inp u s → Scoped inp u (f s) ∧ Later inp s.chain (f s).chain) (hQ : Q (f s) ()) : Fine inp u s
    (modify f) Q := by
  refine .of_runs fun hs => ⟨fun a s' hr => ?_, fun e s' hf => (not_fails_modify hf).elim⟩
  obtain rfl := runs_modify.1 hr
  exact ⟨(h hs).1, (h hs).2, hQ⟩

/-- A scope is opened. -/
theorem opens {f : State → Nat × State} {n : Scope.Node} {Q : State → Nat → Prop}
    (hf : (f s).2 = { s with chain := ⟨s.chain.nodes.push n⟩ })
    (h : Scoped inp u s → Scoped inp u { s with chain := ⟨s.chain.nodes.push n⟩ })
    (hQ : Q { s with chain := ⟨s.chain.nodes.push n⟩ } (f s).1) : Fine inp u s (modifyGet f) Q := by
  refine .of_runs fun hs => ⟨fun a s' hr => ?_, fun e s' hf => (not_fails_modifyGet hf).elim⟩
  obtain ⟨rfl, rfl⟩ := runs_modifyGet.1 hr
  rw [hf]
  exact ⟨h hs, .push _ _, hQ⟩

/-- Whatever is known of runs is known after them. -/
theorem after {P : State → α → Prop} (h : Fine inp u s act Q) (hrun : ∀ a s', Runs act s a s' → P s' a) :
    Fine inp u s act fun s' a => Q s' a ∧ P s' a := by
  refine .of_runs fun hs => ⟨fun a s' hr => ?_, fun e s' hf => h.fails hs hf⟩
  obtain ⟨hs', hl, hq⟩ := h.run hs hr
  exact ⟨hs', hl, hq, hrun a s' hr⟩

/-- Once the scope that is being entered stands, the functions in it wait like others. -/
theorem entering {k c : Nat} (h : Fine inp (some (k, c)) s act fun s' a =>
      Stands inp s'.chain k c ∧ (∃ n, s'.chain.nodes[k]? = some n ∧ Housed inp n) ∧ Q s' a) :
    Fine inp none s act Q := by
  refine .of_runs fun hs => ?_
  have hopen : Scoped inp (some (k, c)) s := by
    refine ⟨hs.parents, fun j n hn _ => hs.housed j n hn nofun, fun p hp => ?_⟩
    obtain ⟨hvisited, hfun, hwait⟩ := hs.queue p hp
    exact ⟨hvisited, hfun, hwait.imp_right nofun⟩
  refine ⟨fun a s' hr => ?_, fun e s' hf => h.fails hopen hf⟩
  obtain ⟨hs', hl, hstands, ⟨n, hn, hhoused⟩, hQ⟩ := h.run hopen hr
  refine ⟨⟨hs'.parents, fun j m hm _ => ?_, fun p hp => ?_⟩, hl, hQ⟩
  · by_cases hj : j = k
    · subst hj
      exact Option.some.inj (hn.symm.trans hm) ▸ hhoused
    · refine hs'.housed j m hm fun c' heq => hj ?_
      exact (Prod.mk.inj (Option.some.inj heq)).1.symm
  obtain ⟨hvisited, hfun, hwait | heq⟩ := hs'.queue p hp
  · exact ⟨hvisited, hfun, .inl hwait⟩
  · obtain ⟨rfl, rfl⟩ := Prod.mk.inj (Option.some.inj heq)
    exact ⟨hvisited, hfun, .inl hstands⟩

end Fine

/-! ### Changing scopes -/

theorem Scoped.modify (hs : Scoped inp u s) {k : Nat} {f : Scope.Node → Scope.Node}
    (hf : ∀ n, s.chain.nodes[k]? = some n → Kept inp n (f n))
    (hhoused : (∀ c, u ≠ some (k, c)) → ∀ n, s.chain.nodes[k]? = some n → Housed inp n → Housed inp (f n)) :
    Scoped inp u { s with chain := s.chain.modify k f } ∧ Later inp s.chain (s.chain.modify k f) := by
  have hl := Later.modify hf
  refine ⟨⟨fun j n p hn hp => ?_, fun j n hn hu => ?_, fun p hp => (hs.queue p hp).later hl⟩, hl⟩
  all_goals
    simp only [Chain.modify, Array.getElem?_modify] at hn
    split at hn
  · rename_i heq
    subst heq
    obtain ⟨n', hn', rfl⟩ := Option.map_eq_some_iff.1 hn
    exact hs.parents _ n' p hn' ((hf n' hn').parent.symm.trans hp)
  · exact hs.parents j n p hn hp
  · rename_i heq
    subst heq
    obtain ⟨n', hn', rfl⟩ := Option.map_eq_some_iff.1 hn
    exact hhoused hu n' hn' (hs.housed _ n' hn' hu)
  · exact hs.housed j n hn hu

theorem Scoped.push (hs : Scoped inp u s) {n : Scope.Node} (hn : ∀ p, n.parent = some p → p < s.chain.nodes.size)
    (hhoused : Housed inp n) :
    Scoped inp u { s with chain := ⟨s.chain.nodes.push n⟩ } := by
  refine ⟨fun j m p hm hp => ?_, fun j m hm hu => ?_, fun p hp => (hs.queue p hp).later (.push _ _)⟩
  all_goals
    simp only [Array.getElem?_push] at hm
    split at hm
  · rename_i heq
    subst heq
    obtain rfl := Option.some.inj hm
    exact hn p hp
  · exact hs.parents j m p hm hp
  · exact Option.some.inj hm ▸ hhoused
  · exact hs.housed j m hm hu

theorem fine_modifyScope {k : Nat} {f : Scope.Node → Scope.Node}
    (hf : ∀ n, s.chain.nodes[k]? = some n → Kept inp n (f n))
    (hhoused : (∀ c, u ≠ some (k, c)) → ∀ n, s.chain.nodes[k]? = some n → Housed inp n → Housed inp (f n)) :
    Fine inp u s (modifyScope k f) fun s' _ => s'.chain = s.chain.modify k f :=
  Fine.alter (fun hs => hs.modify hf hhoused) rfl

/-- Registering a release changes nothing that matters here. -/
theorem fine_defer (k : Nat) (d : Deferred) : Fine inp u s (defer k d) fun _ _ => True :=
  Fine.alter (fun hs =>
    hs.modify (fun _ _ => ⟨rfl, rfl, id, fun _ h => ⟨h.1, h.2, h.3, h.4⟩, fun hc hb => ⟨hc, hb⟩⟩)
    fun _ _ _ hn => hn.congr rfl rfl rfl) trivial

theorem Stands.lt_size {chain : Chain} {k c : Nat} (h : Stands inp chain k c) : k < chain.nodes.size := by
  cases h with
  | root hn | child hn | transient hn => exact (Array.getElem?_eq_some_iff.1 hn).1

/-- A transient scope stands where its parent stands. -/
theorem fine_openTransient (h : inp.Ready) {cur c : Nat} (hcur : Stands inp s.chain cur c) :
    Fine inp u s (openTransient cur) fun s' k => Stands inp s'.chain k c :=
  Fine.opens (n := { parent := some cur, container := 0, function := (s.chain.get cur).function }) rfl
    (fun hs => hs.push (fun _ hp => Option.some.inj hp ▸ hcur.lt_size) (.blank rfl rfl))
    (.transient Array.getElem?_push_size rfl hcur.lt_size (hcur.function_eq h.linked) rfl rfl
      (hcur.later (.push _ _)))

/-! ### Reaching scope objects -/

theorem mem_outward_of_envAt? {chain : Chain} {n m : Nat} (h : chain.envAt? n = some m) :
    m ∈ chain.outward n ∧ chain.isEscaping m = true := ⟨List.mem_of_find?_eq_some h, List.find?_some h⟩

/-- The object of a scope further out is at hand, or found from the environment. -/
theorem fine_scopePointer {cur : Nat} {target : Option Nat}
    (h : ∀ m, target = some m → m ∈ s.chain.outward cur ∧ s.chain.isEscaping m = true) :
    Fine inp u s (scopePointer cur target) fun _ _ => True := by
  cases target with
  | none => exact .pure trivial
  | some m =>
    obtain ⟨hmem, hesc⟩ := h m rfl
    refine .here ?_
    dsimp only
    split
    · exact .pure trivial
    · rename_i hne
      obtain ⟨path, hpath⟩ := envPath?_of_mem hmem hesc hne
      rw [hpath]
      refine .here (Fine.last (.foldlM (fun v hop => ?_) _))
      exact (calm_scopeLayout _).bind fun d => (calm_fieldOf _ _).bind fun f => calm_loadField _ _ _

theorem fine_bindingAddr {cur : Nat} {ref : Scope.Ref} (h : AtHand s.chain cur ref) :
    Fine inp u s (bindingAddr cur ref) fun _ _ => True := by
  unfold bindingAddr
  dsimp only
  split
  · rename_i hobj
    refine Regime.Goes.bind (fine_scopePointer fun m hm => ?_) fun s₁ base _ _ => ?_
    · obtain rfl := Option.some.inj hm
      exact ⟨h.mem, h.object hobj⟩
    · exact Fine.last ((calm_scopeLayout _).bind fun _ => calm_fieldAddr _ _ _)
  · exact .pure trivial

/-- The names that are used refer to something at hand. -/
theorem fine_lookup (h : inp.Ready) {cur id : Nat} {name : String} (hid : Visited inp.tree id)
    (hf : inp.tree.form? id = some (.ident name)) (hcur : Stands inp s.chain cur (inp.tree.container id)) :
    Fine inp u s (lookup inp cur id) fun s' ref => s'.chain = s.chain ∧ AtHand s'.chain cur ref := by
  obtain ⟨d, hd⟩ := h.total hid hf
  obtain ⟨ref, hlookup, hhand⟩ :=
    hcur.lookupDecl_use h.linked h.lexical h.analysis hd (inp.tree.name id) (inp.tree.span id)
  refine .here ?_
  dsimp only
  rw [hd]
  simp only [hlookup]
  exact .pure ⟨rfl, hhand⟩

/-- A function is made to wait. -/
theorem fine_enqueue {fn scope : Nat} (hfn : Visited inp.tree fn) (hfun : inp.tree.isFunction fn = true)
    (hscope : Stands inp s.chain scope (inp.tree.container fn) ∨ u = some (scope, inp.tree.container fn)) :
    Fine inp u s (enqueue inp fn scope) fun s' _ => s'.chain = s.chain := by
  refine .here (Fine.step (calm_codeFor _) fun s₁ code hc => ?_)
  split
  · refine Regime.Goes.bind (Q := fun (s' : State) _ => s'.chain = s₁.chain)
      (Fine.alter (fun hs => ⟨⟨hs.parents, hs.housed, fun p hp => ?_⟩, .refl _⟩) rfl) fun s₂ _ _ hc' =>
      .pure (hc'.trans hc)
    rcases List.mem_append.1 hp with hp | hp
    · exact hs.queue p hp
    · obtain rfl := List.mem_singleton.1 hp
      exact ⟨hfn, hfun, by rwa [hc]⟩
  · exact .pure hc

/-! ### Entering a container -/

/-- The scope is being entered: it is where the container is to stand, and it declares `done` of what the container
declares. -/
structure Entering (inp : Input) (chain : Chain) (k c : Nat) (done : List Nat) (n : Scope.Node) : Prop where
  node : chain.nodes[k]? = some n
  container : n.container = c
  function : n.function = functionAt inp.tree c
  escaping : n.escaping = inp.analysis.isEscaping c
  layout : n.layout = none
  bindings : ∀ b ∈ n.bindings, BindingOf inp c b
  declared : ∀ d ∈ done, symbolKind inp.tree d ≠ .type → ∃ b ∈ n.bindings, b.decl = d
  parent : n.parent = none ∧ c = inp.tree.root ∨
    ∃ p, n.parent = some p ∧ p < k ∧ Stands inp chain p (inp.tree.container c)

/-- When everything is declared, the scope stands. -/
theorem Entering.stands {chain : Chain} {k c : Nat} {done : List Nat} {n : Scope.Node} (h : inp.Ready)
    (hn : Entering inp chain k c done n) (hdone : ∀ d ∈ inp.tree.decls c, d ∈ done) : Stands inp chain k c := by
  have hent : Entered inp n c :=
    ⟨hn.container, hn.escaping, hn.bindings, fun d hd htype => hn.declared d (hdone d hd) htype⟩
  rcases hn.parent with ⟨hp, rfl⟩ | ⟨p, hp, hlt, hstands⟩
  · exact .root hn.node hp (hn.function.trans (functionAt_root h.linked)) hent
  · exact .child hn.node hp hlt hn.function hent hstands

/-- A binding is added to the scope that is being entered. -/
theorem fine_addBinding (h : inp.Ready) {k c : Nat} {done : List Nat} {n : Scope.Node}
    (hn : Entering inp s.chain k c done n) {b : Scope.Binding} (hb : BindingOf inp c b) :
    Fine inp (some (k, c)) s (modify fun s => { s with chain := s.chain.declare k b } : LowerM Unit)
      fun s' _ => ∃ n', Entering inp s'.chain k c (b.decl :: done) n' := by
  have hc := container_ne_zero h.linked hb.decl
  have hbindings : ∀ b' ∈ b :: n.bindings, BindingOf inp c b' := List.forall_mem_cons.2 ⟨hb, hn.bindings⟩
  have hkept : ∀ m, s.chain.nodes[k]? = some m → Kept inp m { m with bindings := b :: m.bindings } := by
    intro m hm
    obtain rfl : n = m := Option.some.inj (hn.node.symm.trans hm)
    refine ⟨rfl, rfl, id, fun c' hent => ?_, fun hzero => (hc (hn.container.symm.trans hzero)).elim⟩
    obtain rfl : c = c' := hn.container.symm.trans hent.container
    refine ⟨hent.container, hent.escaping, hbindings, fun d hd htype => ?_⟩
    obtain ⟨b', hb', hdecl⟩ := hent.declared d hd htype
    exact ⟨b', List.mem_cons_of_mem _ hb', hdecl⟩
  refine Fine.alter (fun hs => hs.modify hkept fun h => (h c rfl).elim) ⟨{ n with bindings := b :: n.bindings }, ?_⟩
  constructor
  case node => simp [Chain.declare, Chain.modify, Array.getElem?_modify, hn.node]
  case container => exact hn.container
  case function => exact hn.function
  case escaping => exact hn.escaping
  case layout => exact hn.layout
  case bindings => exact hbindings
  case declared =>
    intro d hd htype
    rcases List.mem_cons.1 hd with rfl | hd
    · exact ⟨b, List.mem_cons_self, rfl⟩
    · obtain ⟨b', hb', hdecl⟩ := hn.declared d hd htype
      exact ⟨b', List.mem_cons_of_mem _ hb', hdecl⟩
  case parent =>
    refine hn.parent.imp_right ?_
    rintro ⟨p, hp, hlt, hstands⟩
    exact ⟨p, hp, hlt, hstands.later (.modify hkept)⟩

theorem fine_declareBinding (h : inp.Ready) {k c d : Nat} {done : List Nat} {n : Scope.Node}
    (hn : Entering inp s.chain k c done n) (hd : d ∈ inp.tree.decls c) :
    Fine inp (some (k, c)) s (declareBinding inp k (inp.analysis.isEscaping c) d)
      fun s' _ => ∃ n', Entering inp s'.chain k c (d :: done) n' := by
  obtain ⟨hout, hdecl, hcont⟩ := mem_decls.1 hd
  unfold declareBinding
  dsimp only
  split
  · rename_i hf
    refine .pure ⟨n, { hn with declared := fun d' hd' htype => ?_ }⟩
    rcases List.mem_cons.1 hd' with rfl | hd'
    · exact (htype (by simp [symbolKind, hf, SymbolKind.ofForm])).elim
    · exact hn.declared d' hd' htype
  · refine Fine.step (calm_codeFor _) fun s₁ code hc₁ => Fine.step (calm_repOf _) fun s₂ rep hc₂ => ?_
    exact fine_addBinding h (by rwa [hc₂, hc₁]) ⟨hd, rfl, (fun h => by cases h), (fun h => by cases h)⟩
  · rename_i hf
    have hvisited : Visited inp.tree d := by
      rcases visited_or_passed h.linked hout with hv | htype | ⟨name, type, hparam⟩ | ⟨_, _, _, _, _, _, hblock⟩
      · exact hv
      · simp [Tree.isType, hf, Form.isType] at htype
      · simp [hf] at hparam
      · simp [hf] at hblock
    have hfun : inp.tree.isFunction d = true := by simp [Tree.isFunction, hf, Form.isFunction]
    refine (fine_enqueue hvisited hfun (.inr (by rw [hcont]))).bind fun s₁ code _ hc₁ => ?_
    refine Fine.step (calm_repOf _) fun s₂ rep hc₂ => ?_
    exact fine_addBinding h (by rwa [hc₂, hc₁]) ⟨hd, rfl, (fun h => by cases h), (fun h => by cases h)⟩
  · rename_i halias hforeign hfunction
    refine Fine.step (calm_repOf _) fun s₁ rep hc₁ =>
      fine_addBinding h (by rwa [hc₁]) ⟨hd, rfl, id, fun _ => ⟨?_, rfl⟩⟩
    cases hf : inp.tree.form? d with
    | none => simp [isDeclaration, hf] at hdecl
    | some f =>
      cases f with
      | varDecl name isConst type init =>
        cases isConst <;> simp [symbolKind, hf, SymbolKind.ofForm, SymbolKind.isStorage]
      | param name type => simp [symbolKind, hf, SymbolKind.ofForm, SymbolKind.isStorage]
      | typeAlias name type => exact (halias _ _ hf).elim
      | declareFunc name params result => exact (hforeign _ _ _ hf).elim
      | funcDecl name params result body => exact (hfunction _ _ _ _ hf).elim
      | _ => simp [isDeclaration, hf] at hdecl

/-- All names of the container are declared, one after another. -/
theorem fine_declareBindings (h : inp.Ready) {k c : Nat} (ds : List Nat) (hds : ∀ d ∈ ds, d ∈ inp.tree.decls c)
    {done : List Nat} {n : Scope.Node} (hn : Entering inp s.chain k c done n) :
    Fine inp (some (k, c)) s (ds.forM (declareBinding inp k (inp.analysis.isEscaping c)))
      fun s' _ => ∃ n', Entering inp s'.chain k c (ds.reverse ++ done) n' := by
  induction ds generalizing s done n with
  | nil => exact .pure ⟨n, hn⟩
  | cons d ds ih =>
    rw [List.forall_mem_cons] at hds
    refine (fine_declareBinding h hn hds.1).bind fun s₁ _ _ hn₁ => ?_
    obtain ⟨n₁, hn₁⟩ := hn₁
    exact (ih hds.2 hn₁).imp fun s₂ _ _ hn₂ => by simpa using hn₂

theorem mem_outward_of_parentEnv? {chain : Chain} {k c m : Nat} (hk : Stands inp chain k c)
    (hm : parentEnv? chain k = some m) : m ∈ chain.outward k ∧ chain.isEscaping m = true := by
  obtain ⟨p, hp, hm⟩ := Option.bind_eq_some_iff.1 hm
  obtain ⟨hmem, hesc⟩ := mem_outward_of_envAt? hm
  refine ⟨?_, hesc⟩
  cases hk with
  | root hn hnone => rw [get_eq hn, hnone] at hp; exact nomatch hp
  | child hn hp' hlt | transient hn hp' hlt =>
    rw [get_eq hn, hp'] at hp
    obtain rfl := Option.some.inj hp
    rw [outward_child hn hp' hlt]
    exact List.mem_cons_of_mem _ hmem

/-- The link of a new scope object goes to one further out. -/
theorem fine_makeScopeObject {k c : Nat} (hk : Stands inp s.chain k c) (vars : List Scope.Binding) :
    Fine inp (some (k, c)) s (makeScopeObject inp k c vars) fun _ _ => True := by
  refine .here ?_
  refine Fine.step (.modify fun _ => ⟨rfl, rfl⟩) fun s₁ _ hc₁ =>
    Fine.step (calm_construct _) fun s₂ object hc₂ => ?_
  refine Regime.Goes.bind (fine_modifyScope (fun n _ => ?_) fun h => (h c rfl).elim) fun s₃ _ hl₃ _ => .here ?_
  · exact ⟨rfl, rfl, id, fun _ h => ⟨h.1, h.2, h.3, h.4⟩, fun hc hb => ⟨hc, hb⟩⟩
  refine Regime.Goes.bind (.locate (fine_scopePointer fun m hm => ?_)) fun s₄ parent _ _ => ?_
  · have hk₂ : Stands inp s₂.chain k c := by rwa [hc₂, hc₁]
    exact mem_outward_of_parentEnv? (hk₂.later hl₃) hm
  · refine Fine.last ((calm_fieldOf _ _).bind fun link => (calm_retain _ _).bind fun _ => ?_)
    exact (calm_fieldAddr _ _ _).bind fun _ => calm_emitEffect _

/-- Giving bindings a place leaves the declarations of the scope as they are. -/
theorem Kept.setPlace {n : Scope.Node} {decl : Nat} {f : Scope.Binding → Scope.Binding}
    (hf : ∀ b, (f b).name = b.name ∧ (f b).decl = b.decl ∧ (f b).kind = b.kind ∧ (f b).inObject = b.inObject) :
    Kept inp n (setPlace n decl f) := by
  refine ⟨rfl, rfl, id, fun c hent => ?_, fun hc hb => ⟨hc, by simp [Lower.setPlace, hb]⟩⟩
  refine ⟨hent.container, hent.escaping, bindings_setPlace hf hent.bindings, fun d hd htype => ?_⟩
  obtain ⟨b, hb, hdecl⟩ := hent.declared d hd htype
  refine ⟨_, List.mem_map_of_mem hb, ?_⟩
  split
  · exact (hf b).2.1.trans hdecl
  · exact hdecl

theorem fine_placeVariable (k c : Nat) (b : Scope.Binding) :
    Fine inp (some (k, c)) s (placeVariable inp k b) fun _ _ => True := by
  unfold placeVariable
  dsimp only
  split
  · refine Fine.step (calm_scopeNode _) fun s₁ node hc₁ => Fine.step (calm_fieldOf _ _) fun s₂ field hc₂ => ?_
    refine Regime.Goes.bind
      (fine_modifyScope (fun n _ => .setPlace fun _ => ⟨rfl, rfl, rfl, rfl⟩) fun h => (h c rfl).elim)
      fun s₃ _ _ _ => ?_
    split
    · exact Fine.step (calm_fieldAddr _ _ _) fun s₄ addr _ => fine_defer _ _
    · exact .pure trivial
  · refine Fine.step (calm_alloca _) fun s₁ slot hc₁ => ?_
    refine Regime.Goes.bind
      (fine_modifyScope (fun n _ => .setPlace fun _ => ⟨rfl, rfl, rfl, rfl⟩) fun h => (h c rfl).elim)
      fun s₂ _ _ _ => ?_
    split
    · exact Fine.step (calm_emitEffect _) fun s₃ _ _ => fine_defer _ _
    · exact .pure trivial

/-- A scope that was just opened, before its container is entered. -/
structure Opened (inp : Input) (chain : Chain) (k c : Nat) (n : Scope.Node) : Prop where
  node : chain.nodes[k]? = some n
  container : n.container = c
  function : n.function = functionAt inp.tree c
  escaping : n.escaping = false
  layout : n.layout = none
  bindings : n.bindings = []
  parent : n.parent = none ∧ c = inp.tree.root ∨
    ∃ p, n.parent = some p ∧ p < k ∧ Stands inp chain p (inp.tree.container c)

/-- Whether the scope has an object is decided when its container is entered. -/
theorem fine_startEntering {k c : Nat} {n : Scope.Node} (hk : Opened inp s.chain k c n) :
    Fine inp u s (modifyScope k fun n => { n with escaping := inp.analysis.isEscaping c })
      fun s' _ => ∃ n, Entering inp s'.chain k c [] n := by
  obtain ⟨hn, hcontainer, hfunction, hescaping, hlayout, hbindings, hparent⟩ := hk
  have hkept : ∀ m, s.chain.nodes[k]? = some m → Kept inp m { m with escaping := inp.analysis.isEscaping c } := by
    intro m hm
    obtain rfl : n = m := Option.some.inj (hn.symm.trans hm)
    refine ⟨rfl, rfl, fun he => ?_, fun c' hent => ?_, fun hc hb => ⟨hc, hb⟩⟩
    · rw [hescaping] at he
      cases he
    · obtain rfl : c = c' := hcontainer.symm.trans hent.container
      exact ⟨hcontainer, rfl, hent.bindings, hent.declared⟩
  refine (fine_modifyScope hkept fun _ _ _ hm => hm.congr rfl rfl rfl).imp fun s' _ hl hchain =>
    ⟨{ n with escaping := inp.analysis.isEscaping c }, ?_⟩
  constructor
  case node => simp [hchain, Chain.modify, Array.getElem?_modify, hn]
  case container => exact hcontainer
  case function => exact hfunction
  case escaping => rfl
  case layout => exact hlayout
  case bindings => simp [hbindings]
  case declared => exact fun _ h => absurd h List.not_mem_nil
  case parent =>
    refine hparent.imp_right ?_
    rintro ⟨p, hp, hlt, hstands⟩
    exact ⟨p, hp, hlt, hstands.later hl⟩

/-- The variables of a scope that stands are placed, and the release of its object is registered. -/
theorem fine_placeVariables {k c : Nat} {n : Scope.Node} {vars : List Nat} {vs : List Scope.Binding}
    (escaping : Bool) (hstands : Stands inp s.chain k c) (hn : s.chain.nodes[k]? = some n)
    (hhousing : Housing inp c vars [] s n) (hvs : ∀ v ∈ vs, BindingOf inp c v ∧ v.kind.isFunction = false)
    (hall : ∀ d ∈ vars, d ∈ vs.map (·.decl)) :
    Fine inp (some (k, c)) s (do
      vs.forM (placeVariable inp k)
      if escaping then defer k ⟨.value, (← scopeNode k).object, .scope⟩) fun s' _ =>
        Stands inp s'.chain k c ∧ (∃ n, s'.chain.nodes[k]? = some n ∧ Housed inp n) ∧ Stands inp s'.chain k c := by
  have hplace : Fine inp (some (k, c)) s (vs.forM (placeVariable inp k)) fun _ _ => True :=
    .forM (I := fun _ => True) trivial fun v _ s' _ _ => fine_placeVariable k c v
  refine (Fine.after hplace fun _ s' hrun => runs_placeVariables hn hhousing hvs hrun).bind fun s₁ _ hl₁ h₁ => ?_
  obtain ⟨-, n₁, hn₁, hhousing₁⟩ := h₁
  have hstands₁ := hstands.later hl₁
  have hhoused : Housed inp n₁ := hhousing₁.housed fun d hd => by simpa using hall d hd
  split
  · refine Fine.step (calm_scopeNode k) fun s₂ node hc₂ => ?_
    refine (Fine.after (P := fun s' _ => ∃ n, s'.chain.nodes[k]? = some n ∧ Housed inp n) (fine_defer _ _)
      fun _ s' hrun => ?_).imp fun s₃ _ hl₃ h₃ => ?_
    · obtain rfl := runs_modify.1 hrun
      exact ⟨_, getElem?_modify (hc₂ ▸ hn₁) _, hhoused.congr rfl rfl rfl⟩
    · have hstands₃ := Stands.later (hc₂ ▸ hstands₁) hl₃
      exact ⟨hstands₃, h₃.2, hstands₃⟩
  · exact .pure ⟨hstands₁, ⟨n₁, hn₁, hhoused⟩, hstands₁⟩

/-- After a container has been entered its scope stands. -/
theorem fine_enterContainer (h : inp.Ready) {k c : Nat} (hk : ∃ n, Opened inp s.chain k c n) :
    Fine inp none s (enterContainer inp k c) fun s' _ => Stands inp s'.chain k c := by
  obtain ⟨n₀, hk⟩ := hk
  refine .bind (fine_startEntering hk) fun s₁ _ _ hn => ?_
  obtain ⟨n, hn⟩ := hn
  refine Fine.entering (k := k) (c := c) ?_
  refine (fine_declareBindings h _ (fun _ => id) hn).bind fun s₂ _ _ hn₂ => ?_
  obtain ⟨n₂, hn₂⟩ := hn₂
  have hstands₂ := hn₂.stands h (by simp)
  refine .bind (Q := fun s' node => s' = s₂ ∧ node = n₂) (.here (.pure ⟨rfl, get_eq hn₂.node⟩)) ?_
  rintro s₂ n₂ - ⟨rfl, rfl⟩
  have hvs : ∀ v ∈ n₂.bindings.reverse.filter fun b => !b.kind.isFunction, BindingOf inp c v ∧
    v.kind.isFunction = false := by
    intro v hv
    obtain ⟨hmem, hkind⟩ := List.mem_filter.1 hv
    exact ⟨hn₂.bindings v (List.mem_reverse.1 hmem), by simpa using hkind⟩
  have hall : ∀ d ∈ (variablesOf n₂).map (·.decl),
      d ∈ (n₂.bindings.reverse.filter fun b => !b.kind.isFunction).map (·.decl) := by
    rw [List.filter_reverse, List.map_reverse]
    exact fun d hd => List.mem_reverse.2 hd
  -- none of the variables has a place yet
  have hhousing (s' : State) {m : Scope.Node} (hbindings : m.bindings = n₂.bindings) (hcontainer : m.container = c)
      (hlink : ∀ d, m.layout = some d → ∃ f, d.field? Layout.parentField = some f) :
      Housing inp c ((variablesOf n₂).map (·.decl)) [] s' m := by
    refine ⟨hcontainer, hbindings ▸ hn₂.bindings, hlink, by rw [variablesOf, hbindings, variablesOf], ?_⟩
    constructor <;> simp
  dsimp only
  split
  · refine (Fine.after (fine_makeScopeObject hstands₂ _) fun _ s' hrun =>
      runs_makeScopeObject hn₂.node hrun).bind fun s₃ _ hl₃ h₃ => ?_
    obtain ⟨-, d, object, link, hlink, hn₃⟩ := h₃
    refine fine_placeVariables true (hstands₂.later hl₃) hn₃ (hhousing _ ?_ ?_ ?_) hvs hall
    · rfl
    · exact hn₂.container
    · rintro d' heq
      exact ⟨link, Option.some.inj heq ▸ hlink⟩
  · refine fine_placeVariables false hstands₂ hn₂.node (hhousing _ rfl hn₂.container ?_) hvs hall
    simp [hn₂.layout]

end TypedScript.Lower
