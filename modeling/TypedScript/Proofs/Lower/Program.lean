import TypedScript.Proofs.Lower.Scopes

/-!
# Programs keep the invariant

The entry comes first, and then the functions in the order in which they were first needed. When none is left, every
function that has a body is tame.
-/

namespace TypedScript.Lower

open TypedScript.Ast TypedScript.Ir TypedScript.Layout TypedScript.Machine

variable {inp : Input} {w : World} {s s' : State} {α : Type}

theorem runs_defineFunc {name : String} {n : Nat} (h : Runs (defineFunc name) s n s') :
    n = paramCount s.symbols name ∧
      s' = { s with
        commands := s.commands.push (.define name)
        registers := n, blocks := 1, block := 0, ended := [] } := by
  obtain ⟨_, t, hemit, h⟩ := runs_bind.1 h
  obtain rfl := runs_modify.1 hemit
  obtain ⟨_, _, hget, h⟩ := runs_bind.1 h
  obtain ⟨rfl, rfl⟩ := runs_get.1 hget
  obtain ⟨_, _, hmod, h⟩ := runs_bind.1 h
  obtain rfl := runs_modify.1 hmod
  obtain ⟨rfl, rfl⟩ := runs_pure.1 h
  exact ⟨rfl, rfl⟩

/-- The parameters of a function can be used freely. -/
theorem clean_param {o : Options} {κ : Marks} {n i : Nat} (hκ : List.replicate n true <+: κ) (hi : i < n) :
    Clean o κ (.reg i) :=
  Marks.getElem?_of_prefix hκ (by simp [hi])

/-- The state in which the body of a function begins. -/
def State.begun (s : State) (name : String) (env : Operand) (result : Rep)
    (functions : List FunctionInfo) : State :=
  { s with
    commands := s.commands.push (.define name)
    registers := paramCount s.symbols name
    blocks := 1
    block := 0
    ended := []
    env
    result
    functions }

/-! ### The prelude -/

/-- What holds before the entry is defined: only functions with reserved names are declared. -/
structure Prelude (inp : Input) (s : State) : Prop where
  declared : ∀ m, Built s.commands m → Declared (IsUserFunction inp.options) s.symbols m
  reserved : ∀ name, (s.symbols.lookup name).isSome → name ∈ reservedNames inp.options
  helpers : ∀ name ∈ helperNames, ∀ sig, s.symbols.lookup name = some sig → sig = helperSig
  layouts : s.registry.IsPlaced
  chain : s.chain.nodes = #[]
  codes : s.codes = []
  queue : s.queue = []

theorem prelude_start (inp : Input) (target : Target) : Prelude inp { registry := .ofTarget target } where
  declared m hm := by
    cases hm
    exact ⟨⟨by simp, by simp [Module.sigs], by simp [Module.sigs]⟩, by simp⟩
  reserved name h := by simp at h
  helpers name _ sig h := by simp at h
  layouts := Registry.ofTarget_isPlaced target
  chain := rfl
  codes := rfl
  queue := rfl

/-- The signature of a declared function is the first one it was declared with. -/
theorem lookup_symbolsAfter_eq {symbols : List (String × Sig)} {name name' : String} {sig sig' : Sig}
    (h : (symbolsAfter symbols name sig).lookup name' = some sig') :
    symbols.lookup name' = some sig' ∨ name' = name ∧ sig' = sig := by
  unfold symbolsAfter at h
  split at h
  · exact .inl h
  · rw [List.lookup_cons] at h
    split at h
    · rename_i heq
      exact .inr ⟨by simpa using heq, (Option.some.inj h).symm⟩
    · exact .inl h

theorem Prelude.declareFunc (h : Prelude inp s) (name : String) (sig : Sig)
    (hname : name ∈ reservedNames inp.options) (hsig : name ∈ helperNames → sig = helperSig) :
    Prelude inp { s with
      commands := s.commands.push (.declareFunc name sig), symbols := symbolsAfter s.symbols name sig } := by
  refine { h with declared := fun m hm => ?_, reserved := fun n hn => ?_, helpers := fun n hn sig' hlookup => ?_ }
  · obtain ⟨m₀, hm₀, happly⟩ := built_push.1 hm
    exact (h.declared m₀ hm₀).declareFunc happly
  · obtain ⟨sig', hsig'⟩ := Option.isSome_iff_exists.1 hn
    rcases lookup_symbolsAfter_eq hsig' with hold | ⟨rfl, -⟩
    · exact h.reserved n (by rw [hold]; rfl)
    · exact hname
  · rcases lookup_symbolsAfter_eq hlookup with hold | ⟨rfl, rfl⟩
    · exact h.helpers n hn sig' hold
    · exact hsig hn

/-- Functions are declared one after another. -/
theorem Prelude.declareAll {names : List String} {u : PUnit} (h : Prelude inp s)
    (hnames : ∀ n ∈ names, n ∈ helperNames) (hrun : Runs (names.forM (Lower.declareFunc · helperSig)) s u s') :
    Prelude inp s' ∧ (∀ n ∈ names, (s'.symbols.lookup n).isSome) ∧
      ∀ n, (s.symbols.lookup n).isSome → (s'.symbols.lookup n).isSome := by
  induction names generalizing s with
  | nil =>
    obtain ⟨rfl, rfl⟩ := runs_pure.1 hrun
    exact ⟨h, fun n hn => (nomatch hn), fun n hn => hn⟩
  | cons name names ih =>
    obtain ⟨_, t, hdecl, hrest⟩ := runs_bind.1 hrun
    obtain rfl := runs_declareFunc hdecl
    have hreserved : name ∈ reservedNames inp.options := List.mem_append_right _ (hnames name List.mem_cons_self)
    have hold : ∀ n, (s.symbols.lookup n).isSome → ((symbolsAfter s.symbols name helperSig).lookup n).isSome := by
      intro n hn
      rw [lookup_symbolsAfter helperSig hn]
      exact hn
    obtain ⟨hs', hall, hstay⟩ :=
      ih (h.declareFunc name helperSig hreserved fun _ => rfl)
        (fun n hn => hnames n (List.mem_cons_of_mem name hn)) hrest
    refine ⟨hs', fun n hn => ?_, fun n hn => hstay n (hold n hn)⟩
    rcases List.mem_cons.1 hn with rfl | hn
    · exact hstay n (lookup_symbolsAfter_self _ _ _)
    · exact hall n hn

theorem Prelude.declareRuntime {u : Unit} (h : Prelude inp s) (hnodup : (reservedNames inp.options).Nodup)
    (hrun : Runs (Lower.declareRuntime inp) s u s') :
    Prelude inp s' ∧ ∀ n ∈ helperNames, (s'.symbols.lookup n).isSome := by
  obtain ⟨_, t₁, hemit, hrun₁⟩ := runs_bind.1 hrun
  obtain rfl := runs_modify.1 hemit
  have hheader : Prelude inp { s with commands := s.commands.push (.declareStruct headerStruct) } := by
    refine { h with declared := fun m hm => ?_ }
    obtain ⟨m₀, hm₀, happly⟩ := built_push.1 hm
    cases happly
    exact (h.declared m₀ hm₀).congr rfl
  have hnot : ∀ n ∈ helperNames, n ≠ inp.options.allocate ∧ n ≠ inp.options.release := by
    intro n hn
    have hdisjoint := (List.nodup_append.1 hnodup).2.2
    exact ⟨fun heq => hdisjoint _ (by simp) n hn heq.symm, fun heq => hdisjoint _ (by simp) n hn heq.symm⟩
  obtain ⟨_, t₂, hallocate, hrun₂⟩ := runs_bind.1 hrun₁
  obtain rfl := runs_declareFunc hallocate
  obtain ⟨_, t₃, hrelease, hrun₃⟩ := runs_bind.1 hrun₂
  obtain rfl := runs_declareFunc hrelease
  have hallocated := hheader.declareFunc inp.options.allocate allocateSig (by simp [reservedNames])
    fun hmem => ((hnot _ hmem).1 rfl).elim
  have hreleased := hallocated.declareFunc inp.options.release helperSig (by simp [reservedNames]) fun _ => rfl
  obtain ⟨hs', hall, -⟩ := hreleased.declareAll (fun n hn => hn) hrun₃
  exact ⟨hs', hall⟩

/-- The entry begins. -/
theorem Prelude.begin (h : Prelude inp s) (hnodup : (reservedNames inp.options).Nodup)
    (hhelpers : ∀ n ∈ helperNames, (s.symbols.lookup n).isSome) (result : Rep) (functions : List FunctionInfo) :
    Inv inp ⟨List.replicate (paramCount s.symbols inp.options.entry) true, [], 0⟩
      (s.begun inp.options.entry .null result functions) where
  sketched m hm := by
    obtain ⟨m₀, hm₀, happly⟩ := built_push.1 hm
    refine sketched_define (h.declared m₀ hm₀) happly ?_ (.inl rfl)
    exact (List.nodup_cons.1 hnodup).1
  registers := by simp [State.begun]
  env := trivial
  layouts := h.layouts
  owners := by simp [State.begun, h.chain]
  nodes node hnode := by simp [State.begun, h.chain] at hnode
  codes := by
    refine ⟨fun fn name hname => ?_, fun fn name hname => ?_, fun name hname hfree => ?_, fun name hname => ?_⟩
    · simp [State.begun, h.codes] at hname
    · simp [State.begun, h.codes] at hname
    · exact absurd (h.reserved name hname) hfree
    · obtain ⟨sig, hsig⟩ := Option.isSome_iff_exists.1 (hhelpers name hname)
      rw [h.helpers name hname sig hsig] at hsig
      exact hsig
  begun k hk := .inl (by simpa using hk)
  queue := by
    simp only [State.begun, h.queue]
    exact ⟨List.nodup_nil, fun p hp => (nomatch hp), fun p hp => (nomatch hp)⟩

/-! ### Functions -/

/-- The function can be begun. -/
structure Pends (t : Tree) (w : World) (s : State) (p : Pending) : Prop where
  node : t.isFunction p.node = true ∧ p.node ∉ w.owners ∧ p.node ≠ w.fn
  code : s.codes.lookup p.node = some p.code
  fresh : p.node ∉ s.queue.map (·.node)

/-- A function begins. The scopes that are there belong to others. -/
theorem Inv.begin (h : Inv inp w s) {p : Pending} (hp : Pends inp.tree w s p) (result : Rep)
    (functions : List FunctionInfo) :
    Inv inp ⟨List.replicate (paramCount s.symbols p.code) true, w.owners, p.node⟩
      (s.begun p.code (.reg 0) result functions) where
  sketched m hm := by
    obtain ⟨m₀, hm₀, happly⟩ := built_push.1 hm
    obtain ⟨hdeclared, hentry⟩ := (h.sketched m₀ hm₀).finish
    refine sketched_define hdeclared happly (fun hmem => ?_) (.inr hentry)
    exact h.codes.free _ _ hp.code (List.mem_cons_of_mem _ hmem)
  registers := by simp [State.begun]
  env := by
    have hpos := h.codes.params p.code (h.codes.declared _ _ hp.code) (h.codes.free _ _ hp.code)
    exact clean_param List.prefix_rfl hpos
  layouts := h.layouts
  owners := h.owners
  nodes node hnode := by
    have hne : node.function ≠ p.node := by
      intro heq
      exact hp.node.2.1 (h.owners ▸ List.mem_map.2 ⟨node, Array.mem_def.1 hnode, heq⟩)
    have hold := h.nodes node hnode
    exact ⟨hold.layout, hold.bindings, fun hn => absurd hn hne, fun hn => absurd hn hne, fun hn => absurd hn hne⟩
  codes := h.codes
  begun k hk := by
    rcases hk with hk | rfl
    · exact h.begun k (.inl hk)
    · exact .inr (Option.isSome_iff_exists.2 ⟨p.code, hp.code⟩)
  queue := by
    refine ⟨h.queue.nodup, fun q hq => ⟨(h.queue.node q hq).1, (h.queue.node q hq).2.1, fun heq => ?_⟩,
      h.queue.code⟩
    exact hp.fresh (List.mem_map.2 ⟨q, hq, heq⟩)

/-- What is lowered into a block and ends it keeps the invariant. -/
theorem keeps_of_leads (hadm : Admissible inp) {act : LowerM α} {k : Option Nat}
    (h : (keepView hadm).Leads w act fun w' _ => (keepView hadm).Le k [] w w' ∧ (keepView hadm).Ended w') :
    Keeps inp w act fun _ _ => True := fun _ => h.imp fun _ _ hq => ⟨hq.1, trivial, trivial⟩

/-- The scope of the module is opened. -/
theorem keeps_openRoot (hw : w.fn = 0) : Keeps inp w
    (modifyGet fun s => let (chain, n) := s.chain.openRoot inp.tree.root; (n, { s with chain }))
    fun w' root => w'.Inside root := by
  refine .changeGet fun s hs => ⟨{ w with owners := w.owners ++ [w.fn] }, ?_, ?_, hs.inside_openNode⟩
  · exact ⟨List.prefix_rfl, List.prefix_append _ _, rfl⟩
  · exact hs.openNode hw.symm (.blank rfl rfl rfl rfl)

/-- The entry has been lowered. -/
theorem Prelude.lowerEntry {u : Unit} (h : Prelude inp s) (hadm : Admissible inp)
    (hnodup : (reservedNames inp.options).Nodup) (hhelpers : ∀ n ∈ helperNames, (s.symbols.lookup n).isSome)
    (hrun : Runs (Lower.lowerEntry inp) s u s') : ∃ w, Inv inp w s' := by
  have hentry : inp.options.entry ∉ helperNames := fun hmem =>
    (List.nodup_cons.1 hnodup).1 (List.mem_append_right [inp.options.allocate, inp.options.release] hmem)
  have hdeclared := h.declareFunc inp.options.entry ⟨Scalar.void, []⟩ (by simp [reservedNames])
    fun hmem => (hentry hmem).elim
  obtain ⟨_, t₁, hdecl, hrun₁⟩ := runs_bind.1 hrun
  obtain rfl := runs_declareFunc hdecl
  obtain ⟨n, t₂, hdefine, hrun₂⟩ := runs_bind.1 hrun₁
  obtain ⟨rfl, rfl⟩ := runs_defineFunc hdefine
  obtain ⟨_, t₃, hmod, hrun₃⟩ := runs_bind.1 hrun₂
  obtain rfl := runs_modify.1 hmod
  have hbegin := hdeclared.begin hnodup (fun name hname => ?_) .void
    (s.functions ++ [⟨inp.options.entry, inp.tree.root, true⟩])
  · refine Keeps.run (Q := fun _ _ => True) ?_ hbegin hrun₃
    refine (keeps_openRoot rfl).bind fun w root _ hroot => keeps_of_leads hadm (k := some root) ?_
    exact leads_entry (V := keepView hadm) hroot trivial (fun _ _ _ _ => trivial) trivial
  · rw [lookup_symbolsAfter _ (hhelpers name hname)]
    exact hhelpers name hname

theorem Inv.lowerFunction {u : Unit} {p : Pending} (h : Inv inp w s) (hp : Pends inp.tree w s p)
    (hadm : Admissible inp) (hrun : Runs (Lower.lowerFunction inp p) s u s') : ∃ w', Inv inp w' s' := by
  obtain ⟨_, t₁, hmod, hrun₁⟩ := runs_bind.1 hrun
  obtain rfl := runs_modify.1 hmod
  obtain ⟨out, t₂, hsig, hrun₂⟩ := runs_bind.1 hrun₁
  obtain ⟨r, rfl, hr⟩ := (surveys_signature _ _ _).run hsig
  obtain ⟨count, t₃, hdefine, hrun₃⟩ := runs_bind.1 hrun₂
  obtain ⟨rfl, rfl⟩ := runs_defineFunc hdefine
  obtain ⟨_, t₄, hmod', hrun₄⟩ := runs_bind.1 hrun₃
  obtain rfl := runs_modify.1 hmod'
  have hlaid : Inv inp w { s with records := s.records ++ [{ name := p.code }], registry := r } :=
    { h with layouts := hr.placed h.layouts }
  have hbegin := hlaid.begin ⟨hp.node, hp.code, hp.fresh⟩ out.2.1
    (s.functions ++ [⟨p.code, p.node, inp.analysis.isPure p.node⟩])
  obtain ⟨f, hf, hfun⟩ := Tree.exists_form_of_isFunction hp.node.1
  obtain ⟨body, hbody⟩ := Form.exists_body?_of_isFunction hfun
  simp only [hf, hbody, Option.getD_some] at hrun₄
  refine Keeps.run (Q := fun _ _ => True) ?_ hbegin hrun₄
  refine (rests_noteAttribute _ _).rest fun _ _ => (keeps_openChild rfl).bind fun w₁ root hw₁ hroot =>
    keeps_of_leads hadm (k := some root) ?_
  exact leads_function (V := keepView hadm) hf hbody hroot trivial
    (fun i hi => clean_param (o := inp.options) hw₁.marks hi)
    (.inr trivial) out.2.1 trivial

/-- Every function that waits is lowered. The induction is on the number of rounds. -/
theorem Inv.lowerQueue {u : Unit} (hadm : Admissible inp) (fuel : Nat) (h : Inv inp w s)
    (hrun : Runs (Lower.lowerQueue inp fuel) s u s') : ∃ w', Inv inp w' s' := by
  induction fuel generalizing w s with
  | zero =>
    obtain ⟨-, rfl⟩ := runs_pure.1 hrun
    exact ⟨w, h⟩
  | succ fuel ih =>
    obtain ⟨s₀, t, hget, hrun₁⟩ := runs_bind.1 hrun
    obtain ⟨rfl, rfl⟩ := runs_get.1 hget
    split at hrun₁
    · obtain ⟨-, rfl⟩ := runs_pure.1 hrun₁
      exact ⟨w, h⟩
    · rename_i p rest hqueue
      obtain ⟨_, t₁, hmod, hrun₂⟩ := runs_bind.1 hrun₁
      obtain rfl := runs_modify.1 hmod
      obtain ⟨_, t₂, hfunction, hrun₃⟩ := runs_bind.1 hrun₂
      have hnodup := h.queue.nodup
      rw [hqueue, List.map_cons, List.nodup_cons] at hnodup
      have hmem : p ∈ t.queue := by rw [hqueue]; exact List.mem_cons_self
      have hsub : ∀ q ∈ rest, q ∈ t.queue := by
        intro q hq
        rw [hqueue]
        exact List.mem_cons_of_mem p hq
      have hpop : Inv inp w { t with queue := rest } := { h with
        queue := ⟨hnodup.2, fun q hq => h.queue.node q (hsub q hq), fun q hq => h.queue.code q (hsub q hq)⟩ }
      obtain ⟨w₁, h₁⟩ := hpop.lowerFunction ⟨h.queue.node p hmem, h.queue.code p hmem, hnodup.1⟩ hadm hfunction
      exact ih h₁ hrun₃

end TypedScript.Lower
