import TypedScript.Proofs.Lower.Lawful
import TypedScript.Proofs.Lower.Walk

/-!
# Layouts, symbols, objects and scopes are handled lawfully

One rule for each computation of lowering below the level of expressions. A struct is declared before it is
referred to, because the layouts that are at hand were all made by the registry; and a function is declared when
its symbol is first needed.
-/

namespace TypedScript.Lower

open TypedScript.Ast TypedScript.Ir TypedScript.Layout TypedScript.Machine

variable {inp : Input} {s s' : State} {α β : Type}

/-! ### Layouts -/

/-- What was found is known of the result. -/
theorem Surveys.flows {act : LowerM α} (h : Surveys act) : Flows inp s act fun s' a => Runs act s a s' := by
  refine .of_runs fun hopen hs => ?_
  constructor
  · intro a s' hrun
    obtain ⟨r, rfl, hr⟩ := h.run hrun
    have hq : Quietly s { s with registry := r } := ⟨rfl, rfl, rfl, rfl, rfl, rfl, rfl, hr⟩
    refine ⟨hs.quiet hq (fun n hn d hd => hr.all.subset (hs.layouts n hn d hd)) ?_, hq.since, hq.isOpen hopen, hrun⟩
    exact hs.named.congr (fun _ => Iff.rfl) rfl rfl rfl
  · intro e s' hfail
    obtain ⟨hcommands, he⟩ := h.fail hfail
    exact ⟨he, hcommands ▸ (hs.halted he).applies⟩

theorem flows_fieldOf (d : Descriptor) (name : String) : Flows inp s (fieldOf d name) fun s' _ => s' = s := by
  unfold fieldOf
  split
  · exact .pure rfl
  · exact .throw nofun

/-! ### Symbols -/

theorem not_fails_declareFunc {name : String} {sig : Sig} {e : Error} : ¬ Fails (declareFunc name sig) s e s' := by
  intro h
  rcases fails_bind.1 h with h | ⟨_, _, _, h⟩
  · exact not_fails_emit h
  · exact not_fails_modify h

/-- The node is a function with a symbol of its own. -/
def HasSymbol (t : Tree) (fn : Nat) : Prop :=
  t.isFunction fn = true ∨ ∃ name params result, t.form? fn = some (.declareFunc name params result)

/-- The symbol of a function is there from then on, and has not been begun if it is new. -/
theorem flows_codeFor (hinp : inp.Regular) {fn : Nat} (hfn : HasSymbol inp.tree fn) :
    Flows inp s (codeFor inp fn) fun s' code => s'.codes.lookup fn = some code ∧ s'.queue = s.queue ∧
      (s.codes.lookup fn = none → inp.tree.isFunction fn = true → ¬ Begun s' code) := by
  refine .here ?_
  split
  · rename_i code hcode
    exact .pure ⟨hcode, rfl, fun hnone => by rw [hnone] at hcode; exact nomatch hcode⟩
  · rename_i hnew
    refine (surveys_signature inp _ _).flows.bind fun s₁ out _ hrun => ?_
    obtain ⟨params, result, htype, hlength, -⟩ := runs_signature hrun
    obtain ⟨r, rfl, -⟩ := (surveys_signature inp _ _).run hrun
    refine Flows.of_runs fun hopen hs => ?_
    have hbegun {s' : State} {sig : Sig}
      (h : s'.commands = s.commands.push (.declareFunc (codeName inp.tree fn) sig))
        (name : String) : Begun s' name ↔ Begun { s with registry := r } name := begun_push (by simp) h
    constructor
    · intro code s' hrun
      obtain ⟨_, t₁, hdecl, hrun₁⟩ := runs_bind.1 hrun
      obtain rfl := runs_declareFunc hdecl
      obtain ⟨_, t₂, hmod, hrun₂⟩ := runs_bind.1 hrun₁
      obtain rfl := runs_modify.1 hmod
      obtain ⟨rfl, rfl⟩ := runs_pure.1 hrun₂
      refine ⟨⟨?_, hs.numbered, hs.layouts, ?_, hs.ended⟩, ?_, ⟨hopen.lt, hopen.notMem⟩, ?_, rfl,
        fun _ hfun hn => ?_⟩
      · refine hs.applies.push rfl fun m hm => .inl ?_
        obtain ⟨m', hm', ho, i, f, hf⟩ := hm.declareFunc (codeName inp.tree fn) out.1
        exact ⟨m', hm', ⟨ho.listed, ho.begun, ho.header, ho.structs⟩, i, f,
          ⟨hf.toFocus, hf.isDefined, hf.registers, hf.blocks, hf.block, hf.isOpen⟩⟩
      · refine hs.named.declare hnew ?_ (fun f hf hfun => ?_) (hbegun rfl) rfl rfl rfl
        · rcases hfn with hfun | ⟨name, ps, res, hform⟩
          · refine .inl ⟨hfun, Option.not_isSome_iff_eq_none.1 fun hsome => ?_⟩
            exact hs.named.fresh hinp hfun hnew (hs.named.known _ hsome)
          · have hname : codeName inp.tree fn = name := by simp [codeName, hform]
            exact .inr ⟨hname ▸ hinp.foreign fn name ps res hform, by
              simp [Tree.isFunction, hform, Form.isFunction]⟩
        · have := hinp.arity fn f params result hf hfun htype
          omega
      · refine .of_push (by simp) rfl (Nat.le_refl _) (Nat.le_refl _) rfl (fun _ h => h) (fun name sig hn => ?_)
          fun _ _ h => ?_
        · exact (lookup_symbolsAfter out.1 (by rw [hn]; rfl)).trans hn
        · exact ⟨h.lt, h.ne, h.notMem⟩
      · simp
      · exact hs.named.fresh hinp hfun hnew (hs.named.begun _ ((hbegun rfl _).1 hn))
    · intro e s' hfail
      rcases fails_bind.1 hfail with h | ⟨_, _, _, h⟩
      · exact (not_fails_declareFunc h).elim
      rcases fails_bind.1 h with h | ⟨_, _, _, h⟩
      · exact (not_fails_modify h).elim
      · exact (not_fails_pure h).elim

/-- A function that is new waits from then on. -/
theorem flows_enqueue (hinp : inp.Regular) {fn scope : Nat} (hfn : inp.tree.isFunction fn = true) :
    Flows inp s (enqueue inp fn scope) fun _ _ => True := by
  refine .of_inv fun hs => .here ((flows_codeFor hinp (.inl hfn)).bind fun s₁ code _ hcode => ?_)
  obtain ⟨hlookup, hqueue, hfresh⟩ := hcode
  dsimp only
  split
  · rename_i hseen
    have hnew : s.codes.lookup fn = none := by simpa using hseen
    refine Regime.Goes.bind (Q := fun _ _ => True)
      (Flows.quiet (fun hs₁ => ?_) ⟨rfl, rfl, rfl, rfl, rfl, rfl, rfl, .refl _⟩ trivial)
      fun _ _ _ _ => .pure trivial
    refine hs₁.quiet ⟨rfl, rfl, rfl, rfl, rfl, rfl, rfl, .refl _⟩ hs₁.layouts (hs₁.named.enqueue ?_ fun hmem => ?_)
    · exact ⟨hfn, hlookup, hfresh hnew hfn⟩
    · obtain ⟨p, hp, rfl⟩ := List.mem_map.1 hmem
      have hold := (hs.named.queue p (hqueue ▸ hp)).code
      rw [hnew] at hold
      exact nomatch hold
  · exact .pure trivial

/-! ### Objects -/

theorem Usable.mono {t : Struct} (h : Usable s t) {n : Nat} (hs : Since n s s') : Usable s' t := by
  rcases h with h | ⟨d, hd, htag, hname⟩
  · exact .inl h
  · exact .inr ⟨d, hd.mono hs.layouts, hs.structs _ htag, hname⟩

theorem Known.closure (h : Valid inp s) : Known s.registry s.registry.closure := .inl h.numbered.closure

/-- The struct of a layout can be referred to once it is declared. -/
theorem flows_useStruct {d : Descriptor} (hd : Known s.registry d) :
    Flows inp s (useStruct d) fun s' t => Usable s' t := by
  refine .here ?_
  split
  · refine Flows.of_runs fun hopen hs => ?_
    constructor
    · intro t s' hrun
      obtain ⟨_, t₁, hemit, hrun₁⟩ := runs_bind.1 hrun
      obtain rfl := runs_modify.1 hemit
      obtain ⟨_, t₂, hmod, hrun₂⟩ := runs_bind.1 hrun₁
      obtain rfl := runs_modify.1 hmod
      obtain ⟨rfl, rfl⟩ := runs_pure.1 hrun₂
      refine ⟨⟨?_, hs.numbered, hs.layouts, ?_, hs.ended⟩, ?_, ⟨hopen.lt, hopen.notMem⟩,
        .inr ⟨d, hd, List.mem_cons_self, rfl⟩⟩
      · refine hs.applies.push rfl fun m hm => .inl ⟨_, rfl, ?_⟩
        obtain ⟨ho, i, f, hf⟩ := hm
        exact ⟨ho.declareStruct hd, i, f,
          ⟨⟨hf.current, hf.function⟩, hf.isDefined, hf.registers, hf.blocks, hf.block, hf.isOpen⟩⟩
      · exact hs.named.congr (fun _ => begun_push (by simp) rfl) rfl rfl rfl
      · refine .of_push (by simp) rfl (Nat.le_refl _) (Nat.le_refl _) rfl (fun _ => List.mem_cons_of_mem _)
          (fun _ _ h => h)
          fun _ _ h => ?_
        exact ⟨h.lt, h.ne, h.notMem⟩
    · intro e s' hfail
      rcases fails_bind.1 hfail with h | ⟨_, _, _, h⟩
      · exact (not_fails_emit h).elim
      rcases fails_bind.1 h with h | ⟨_, _, _, h⟩
      · exact (not_fails_modify h).elim
      · exact (not_fails_pure h).elim
  · rename_i hcontains
    exact .pure (.inr ⟨d, hd, by simpa using hcontains, rfl⟩)

/-- A change of what the module does not show and nobody else asks for. -/
theorem flows_note {f : State → State} (hq : Quietly s (f s)) (hchain : (f s).chain = s.chain)
    (hcodes : (f s).codes = s.codes) (hqueue : (f s).queue = s.queue) : Flows inp s (modify f) fun _ _ => True := by
  refine Flows.quiet (fun hs => hs.quiet hq ?_ ?_) hq trivial
  · rw [hchain]
    exact fun n hn d hd => hq.registry.all.subset (hs.layouts n hn d hd)
  · exact hs.named.congr (fun name => by rw [Begun, Begun, hq.commands]) hcodes hq.symbols hqueue

theorem flows_construct {d : Descriptor} (hd : Known s.registry d) :
    Flows inp s (construct inp d) fun s' v => Reads s'.registers False v := by
  refine (flows_useStruct hd).bind fun s₁ t _ ht => (flows_callDirect _ _ _).bind fun s₂ obj hl₂ hobj => ?_
  have ht₂ := ht.mono hl₂.toSince
  refine (flows_slotAddr ht₂ _ _).bind fun s₃ tag hl₃ _ => (flows_store _ _).bind fun s₄ _ hl₄ _ => ?_
  have ht₄ := (ht₂.mono hl₃.toSince).mono hl₄.toSince
  refine (flows_slotAddr ht₄ _ _).bind fun s₅ count hl₅ _ => (flows_store _ _).bind fun s₆ _ hl₆ _ => ?_
  have ht₆ := (ht₄.mono hl₅.toSince).mono hl₆.toSince
  refine .bind (.forM (I := fun _ => True) trivial fun f _ s₇ hl₇ _ => ?_) fun s₈ _ hl₈ _ => ?_
  · exact (flows_slotAddr (ht₆.mono hl₇.toSince) _ _).bind fun _ _ _ _ => flows_store _ _
  · refine .bind (flows_note ⟨rfl, rfl, rfl, rfl, rfl, rfl, rfl, .refl _⟩ rfl rfl rfl) fun s₉ _ hl₉ _ => .pure ?_
    have := hl₃.registers
    have := hl₄.registers
    have := hl₅.registers
    have := hl₆.registers
    have := hl₈.registers
    have := hl₉.registers
    exact hobj.mono (by omega) id

theorem flows_repOf (id : Nat) : Flows inp s (repOf inp id) fun _ _ => True :=
  (surveys_repOf inp id).flows.imp fun _ _ _ _ => trivial

theorem reads_literal {n : Nat} {P : Prop} {v : Operand} (h : IsLiteral v) : Reads n P v := by
  cases v with
  | reg | func | absent => exact h.elim
  | null | int | float | bool | string => exact trivial

theorem flows_noteAttribute (key value : String) : Flows inp s (noteAttribute key value) fun _ _ => True :=
  flows_note ⟨rfl, rfl, rfl, rfl, rfl, rfl, rfl, .refl _⟩ rfl rfl rfl

/-- What instructions ask for can be carried out: structs are declared, and what is computed with has a type. -/
@[reducible]
def flowInstructions (inp : Input) : Instructions inp where
  toRegime := (flowRegime inp).toRegime
  Has _ _ := True
  Given s := Reads s.registers False
  Asked s := Reads s.registers (LacksOperand inp)
  Layout s := Known s.registry
  Struct := Usable
  Slot _ := True
  Callable _ _ _ := True
  has_mono _ _ := trivial
  given_mono hl h := h.mono hl.registers id
  asked_mono hl h := h.mono hl.registers id
  layout_mono hl h := h.mono hl.layouts
  struct_mono hl h := h.mono hl.toSince
  callable_mono _ _ := trivial
  has_given _ := trivial
  has_literal _ := trivial
  has_absent := trivial
  asked_given h := h.mono (Nat.le_refl _) False.elim
  asked_literal h := reads_literal h
  callable_given _ := trivial
  allowed_translation h := by cases h
  allowed_callee h := by cases h
  slot_tag := trivial
  load type _ := flows_load type _
  store _ _ := flows_store _ _
  alloca type := flows_alloca type
  slotAddr ht _ _ := flows_slotAddr ht _ _
  compare pred _ hx _ := flows_compare pred hx _
  binary op _ hx _ := flows_binary op hx _
  callDirect _ _ _ := flows_callDirect _ _ _
  callHelper _ _ := (flows_callDirect _ _ _).bind fun _ _ _ _ => .pure trivial
  constant v := flows_constant v
  useStruct hd := flows_useStruct hd
  header _ := .inl rfl
  construct hd := flows_construct hd
  fieldOf name _ := (flows_fieldOf _ name).imp fun _ _ _ _ => trivial
  layout_all hs hd := .inl (hs.1 ▸ hd)
  layout_closure := by
    rintro s _ ⟨rfl, hs⟩
    exact Known.closure hs
  repOf id := flows_repOf id
  signature type span := (surveys_signature inp type span).flows.imp fun _ _ _ _ => trivial
  noteAttribute := flows_noteAttribute

/-! ### Scopes -/

/-- The layout of a scope that is there, or stands for one that is missing. -/
theorem Valid.known_layout (h : Valid inp s) (k : Nat) : Known s.registry
    ((s.chain.get k).layout.getD default) := by
  unfold Scope.Chain.get
  rw [Array.getD_eq_getD_getElem?]
  cases hk : s.chain.nodes[k]? with
  | none => exact .inr rfl
  | some node =>
    cases hd : node.layout with
    | none => exact .inr (by simp [hd])
    | some d => exact .inl (by simpa [hd] using h.layouts node (Array.mem_of_getElem? hk) d hd)

theorem flows_scopeLayout (scope : Nat) :
    Flows inp s (scopeLayout scope) fun s' d => s' = s ∧ Known s'.registry d :=
  .of_inv fun hs => .bind (Q := fun s' n => s' = s ∧ n = s.chain.get scope) (.here (.pure ⟨rfl, rfl⟩))
    fun _ _ _ h => by
    obtain ⟨rfl, rfl⟩ := h
    exact .pure ⟨rfl, hs.known_layout scope⟩

/-- The scopes are changed, and have no layouts but those that were made. -/
theorem flows_chain {f : State → State} {chain : Scope.Chain} (hf : f s = { s with chain })
    (h : Valid inp s → ∀ n ∈ chain.nodes, ∀ d, n.layout = some d → d ∈ s.registry.all) :
    Flows inp s (modify f) fun s' _ => s'.registry = s.registry := by
  have hq : Quietly s (f s) := by rw [hf]; exact ⟨rfl, rfl, rfl, rfl, rfl, rfl, rfl, .refl _⟩
  refine Flows.quiet (fun hs => hs.quiet hq ?_ ?_) hq (by rw [hf])
  · rw [hf]
    exact h hs
  · rw [hf]
    exact hs.named.congr (fun _ => Iff.rfl) rfl rfl rfl

theorem mem_modify {chain : Scope.Chain} {k : Nat} {f : Scope.Node → Scope.Node} {n : Scope.Node}
    (h : n ∈ (chain.modify k f).nodes) : n ∈ chain.nodes ∨ ∃ n₀ ∈ chain.nodes, n = f n₀ := by
  obtain ⟨j, hj⟩ := Array.mem_iff_getElem?.1 h
  simp only [Scope.Chain.modify, Array.getElem?_modify] at hj
  split at hj
  · obtain ⟨n₀, hn₀, rfl⟩ := Option.map_eq_some_iff.1 hj
    exact .inr ⟨n₀, Array.mem_of_getElem? hn₀, rfl⟩
  · exact .inl (Array.mem_of_getElem? hj)

theorem flows_modifyScope {k : Nat} {f : Scope.Node → Scope.Node}
    (hf : ∀ n d, (f n).layout = some d → n.layout = some d ∨ d ∈ s.registry.all) :
    Flows inp s (modifyScope k f) fun s' _ => s'.registry = s.registry := by
  refine flows_chain rfl fun hs n hn d hd => ?_
  rcases mem_modify hn with hn | ⟨n₀, hn₀, rfl⟩
  · exact hs.layouts n hn d hd
  · exact (hf n₀ d hd).elim (hs.layouts n₀ hn₀ d) id

/-- A change of a scope that keeps its layout. -/
theorem flows_changeScope {k : Nat} {f : Scope.Node → Scope.Node} (hf : ∀ n, (f n).layout = n.layout) :
    Flows inp s (modifyScope k f) fun _ _ => True :=
  (flows_modifyScope fun n _ h => .inl (hf n ▸ h)).imp fun _ _ _ _ => trivial

theorem flows_defer (k : Nat) (d : Scope.Deferred) : Flows inp s (defer k d) fun _ _ => True :=
  flows_changeScope (k := k) (f := fun node => { node with deferred := node.deferred ++ [d] }) fun _ => rfl

/-- A scope is opened that has no layout. -/
theorem flows_openNode {f : State → Nat × State} {node : Scope.Node}
    (hf : (f s).2 = { s with chain := ⟨s.chain.nodes.push node⟩ }) (hnode : node.layout = none) :
    Flows inp s (modifyGet f) fun _ _ => True := by
  have hq : Quietly s (f s).2 := by rw [hf]; exact ⟨rfl, rfl, rfl, rfl, rfl, rfl, rfl, .refl _⟩
  refine .changeGet (fun hs => hs.quiet hq ?_ ?_) hq.since.onward hq.isOpen trivial
  · rw [hf]
    intro n hn d hd
    rcases Array.mem_push.1 hn with hn | rfl
    · exact hs.layouts n hn d hd
    · rw [hnode] at hd
      exact nomatch hd
  · rw [hf]
    exact hs.named.congr (fun _ => Iff.rfl) rfl rfl rfl

theorem flows_openRoot : Flows inp s
    (modifyGet fun s => let (chain, n) := s.chain.openRoot inp.tree.root; (n, { s with chain })) fun _ _ => True :=
  flows_openNode rfl rfl

theorem flows_openTransient (k : Nat) : Flows inp s (openTransient k) fun _ _ => True := flows_openNode rfl rfl

theorem flows_openChild (k container function : Nat) : Flows inp s
    (openChild k container function) fun _ _ => True :=
  flows_openNode rfl rfl

theorem flows_ofScope {r : Except Scope.Error α} : Flows inp s (ofScope r) fun s' _ => s' = s := by
  unfold ofScope
  split
  · exact .pure rfl
  · exact .throw nofun

theorem flows_lookup (cur id : Nat) : Flows inp s (lookup inp cur id) fun _ _ => True := by
  refine .here ?_
  dsimp only
  split
  · exact flows_ofScope.imp fun _ _ _ _ => trivial
  · split
    · exact .pure trivial
    · exact .throw fun h => by cases h

theorem flows_scopePointer (cur : Nat) (target : Option Nat) : Flows inp s
    (scopePointer cur target) fun _ _ => True := by
  cases target with
  | none => exact .pure trivial
  | some m =>
    refine .here ?_
    dsimp only
    split
    · exact .pure trivial
    · split
      · exact .throw fun h => by cases h
      · refine .here (.foldlM (Q := fun _ _ => True) trivial fun v hop s₁ _ => ?_)
        refine (flows_scopeLayout hop).bind fun s₂ d _ hd => (flows_fieldOf d _).bind fun s₃ f _ hs₃ => ?_
        subst hs₃
        exact (goes_loadField (I := flowInstructions inp) hd.2 trivial trivial).imp fun _ _ _ _ => trivial

theorem flows_bindingAddr (cur : Nat) (ref : Scope.Ref) : Flows inp s (bindingAddr cur ref) fun _ _ => True := by
  unfold bindingAddr
  dsimp only
  split
  · refine (flows_scopePointer _ _).bind fun s₁ base _ _ => (flows_scopeLayout _).bind fun s₂ d _ hd => ?_
    exact (goes_fieldAddr (I := flowInstructions inp) hd.2 trivial trivial).imp fun _ _ _ _ => trivial
  · exact .pure trivial

/-! ### Entering a container -/

theorem flows_addBinding (scope : Nat) (b : Scope.Binding) :
    Flows inp s (modify fun s => { s with chain := s.chain.declare scope b }) fun _ _ => True :=
  flows_changeScope (k := scope) (f := fun node => { node with bindings := b :: node.bindings }) fun _ => rfl

theorem flows_declareBinding (hinp : inp.Regular) (scope : Nat) (escaping : Bool) (decl : Nat) :
    Flows inp s (declareBinding inp scope escaping decl) fun _ _ => True := by
  unfold declareBinding
  dsimp only
  split
  · exact .pure trivial
  · rename_i hf
    refine (flows_codeFor hinp (.inr ⟨_, _, _, hf⟩)).bind fun _ code _ _ => (flows_repOf _).bind fun _ rep _ _ => ?_
    exact flows_addBinding _ _
  · rename_i hf
    have hfun : inp.tree.isFunction decl = true := by simp [Tree.isFunction, hf, Form.isFunction]
    refine (flows_enqueue hinp hfun).bind fun _ code _ _ => (flows_repOf _).bind fun _ rep _ _ => ?_
    exact flows_addBinding _ _
  · exact (flows_repOf _).bind fun _ rep _ _ => flows_addBinding _ _

theorem flows_makeScopeObject (scope container : Nat) (vars : List Scope.Binding) :
    Flows inp s (makeScopeObject inp scope container vars) fun _ _ => True := by
  refine .here ?_
  obtain ⟨hextends, hmem⟩ := Registry.extends_scope s.registry (scopeKey inp.tree container)
    (vars.map fun b => ⟨fieldName b.name, b.rep⟩)
  dsimp only
  generalize s.registry.scope (scopeKey inp.tree container) (vars.map fun b => ⟨fieldName b.name, b.rep⟩) =
    made at *
  obtain ⟨r, d⟩ := made
  have hq : Quietly s { s with registry := r } := ⟨rfl, rfl, rfl, rfl, rfl, rfl, rfl, hextends⟩
  refine Regime.Goes.bind (Q := fun (s' : State) _ => d ∈ s'.registry.all)
    (Flows.quiet (fun hs => hs.quiet hq ?_ ?_) hq hmem)
    fun s₁ _ _ hd => ?_
  · exact fun n hn d' hd' => hextends.all.subset (hs.layouts n hn d' hd')
  · exact hs.named.congr (fun _ => Iff.rfl) rfl rfl rfl
  refine (flows_construct (.inl hd)).bind fun s₂ object hl₂ _ => ?_
  have hd₂ := hl₂.layouts.subset hd
  refine (flows_modifyScope fun n d' h => ?_).bind fun s₃ _ _ hr₃ => .here ?_
  · exact .inr (Option.some.inj h ▸ hd₂)
  refine (flows_scopePointer _ _).locate.bind fun s₄ parent hl₄ _ =>
    (flows_fieldOf _ _).bind fun s₅ link _ hs₅ => ?_
  subst hs₅
  refine (goes_retain (I := flowInstructions inp) .scope trivial).bind fun s₆ _ hl₆ _ => ?_
  have hd₆ := hl₆.layouts.subset (hl₄.layouts.subset (hr₃ ▸ hd₂))
  exact goes_storeField (I := flowInstructions inp) (.inl hd₆) trivial trivial trivial

theorem flows_placeVariable (scope : Nat) (b : Scope.Binding) : Flows inp s
    (placeVariable inp scope b) fun _ _ => True := by
  unfold placeVariable
  dsimp only
  split
  · refine .of_inv fun hs => .bind (Q := fun s' n => s' = s ∧ n = s.chain.get scope) (.here (.pure ⟨rfl, rfl⟩)) ?_
    rintro s₁ node - ⟨rfl, rfl⟩
    refine (flows_fieldOf _ _).bind fun s₂ field _ hs₂ => ?_
    subst hs₂
    refine .bind (flows_changeScope fun _ => rfl) fun s₃ _ hl₃ _ => ?_
    split
    · refine (goes_fieldAddr (I := flowInstructions inp) ((hs.known_layout scope).mono hl₃.layouts) trivial
        trivial).bind fun _ addr _ _ => flows_defer _ _
    · exact .pure trivial
  · refine (flows_alloca _).bind fun s₁ slot _ _ => .bind (flows_changeScope fun _ => rfl) fun s₂ _ _ _ => ?_
    split
    · exact (flows_store _ _).bind fun _ _ _ _ => flows_defer _ _
    · exact .pure trivial

theorem flows_enterContainer (hinp : inp.Regular) (scope container : Nat) :
    Flows inp s (enterContainer inp scope container) fun _ _ => True := by
  refine .bind (flows_changeScope fun _ => rfl) fun s₁ _ _ _ => ?_
  refine .bind (.forM (I := fun _ => True) trivial fun decl _ s₂ _ _ => flows_declareBinding hinp _ _ decl)
    fun s₂ _ _ _ => ?_
  refine .bind (Q := fun _ _ => True) (.here (.pure trivial)) fun s₃ node _ _ => ?_
  dsimp only
  have hplace (s : State) (vars : List Scope.Binding) : Flows inp s (vars.forM (placeVariable inp scope)) fun _ _ =>
    True :=
    .forM (I := fun _ => True) trivial fun b _ _ _ _ => flows_placeVariable scope b
  split
  · refine (flows_makeScopeObject _ _ _).bind fun s₄ _ _ _ => (hplace s₄ _).bind fun s₅ _ _ _ => ?_
    exact .bind (Q := fun _ _ => True) (.here (.pure trivial)) fun _ _ _ _ => flows_defer _ _
  · exact (hplace s₃ _).bind fun _ _ _ _ => .pure trivial

/-! ### The view -/

/-- The value of an expression is a register that was given out or a constant, unless it has no value. -/
@[reducible]
def flowView (hinp : inp.Regular) : View inp where
  toInstructions := flowInstructions inp
  Settled s := s.block < s.blocks
  Ended s := s.block < s.blocks
  Quiet _ _ := True
  Made _ _ _ := True
  Admits _ _ := True
  settled h := h.lt
  settled_ended h := h
  isEnded := by
    rintro s _ ⟨rfl, -⟩ hlt
    exact ⟨fun hended => ⟨hlt, by simpa using hended⟩, fun _ => hlt⟩
  quiet := trivial
  made _ _ := trivial
  made_mono _ _ := trivial
  admits _ _ := trivial
  admits_mono _ _ := trivial
  newBlock name hl _ hopen := (hl.newBlock hopen name).imp fun _ _ hq => ⟨hq.1, trivial, hq.2⟩
  br _ hopen := leads_terminator rfl hopen
  condBr _ _ _ hopen := leads_terminator rfl hopen
  setInsert hl _ hperm := (hl.setInsert hperm).imp fun _ _ hq => ⟨hq.1, hq.2, fun _ _ => trivial⟩
  ret _ hopen := leads_ret hopen _
  Computed s id := Reads s.registers (Valueless inp id)
  SymbolOf _ _ _ := True
  computed_mono hl h := h.mono hl.registers id
  symbolOf_mono _ _ := trivial
  has_computed _ := trivial
  computed_given h := h.mono (Nat.le_refl _) False.elim
  computed_literal := reads_literal
  computed_symbol _ := trivial
  computed_assign hf h := h.mono (Nat.le_refl _) (.assign hf)
  computed_void := by
    rintro s id callee args out hf ⟨_, _, _, hrun⟩ hvoid
    obtain ⟨params, result, htype, -, -, hresult⟩ := runs_signature hrun
    exact Valueless.call hf htype (hresult hvoid)
  asked_unary hf h := h.mono (Nat.le_refl _) fun hv => ⟨_, .unary hf, hv⟩
  asked_binary hf hop h := h.mono (Nat.le_refl _) fun hv => ⟨_, .binary hf hop, hv⟩
  callable _ _ _ := trivial
  Inside _ _ := True
  Within _ _ _ := True
  Opened _ _ _ := True
  Entered _ _ _ := True
  New _ _ := True
  Stocked _ _ := True
  Refers _ _ _ _ := True
  Place _ _ _ := True
  inside_mono _ _ := trivial
  within_mono _ _ := trivial
  entered_mono _ _ := trivial
  new_mono _ _ := trivial
  stocked_mono _ _ := trivial
  place_mono _ _ _ := trivial
  stocked _ := trivial
  stocked_unwind _ _ _ := trivial
  has_deferred _ _ _ := trivial
  inner hl _ hl' := hl.trans hl'
  operand _ _ _ := trivial
  arg _ _ _ := trivial
  property _ _ _ := trivial
  within_entered _ _ := trivial
  defer _ _ := flows_defer _ _
  openTransient _ _ := (flows_openTransient _).imp fun _ _ _ _ => ⟨trivial, trivial, trivial⟩
  openChild _ _ _ _ := (flows_openChild _ _ _).imp fun _ _ _ _ => ⟨trivial, trivial, trivial⟩
  enterContainer _ _ := (flows_enterContainer hinp _ _).imp fun _ _ _ _ => ⟨trivial, trivial⟩
  lookup _ _ _ := flows_lookup _ _
  place _ _ := trivial
  symbol _ _ := trivial
  bindingAddr _ _ := flows_bindingAddr _ _
  namedPointer _ _ _ _ := flows_scopePointer _ _
  ownPointer _ _ _ := flows_scopePointer _ _
  enqueue _ hf := flows_enqueue hinp (by simp [Tree.isFunction, hf, Form.isFunction])
  varPlace _ _ _ _ := flows_ofScope.imp fun _ _ _ _ => trivial
  paramPlace _ _ _ _ _ _ := flows_ofScope.imp fun _ _ _ _ => trivial

end TypedScript.Lower
