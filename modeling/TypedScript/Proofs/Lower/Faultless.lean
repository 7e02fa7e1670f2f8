import TypedScript.Proofs.Lower.Flow
import TypedScript.Proofs.Lower.Helpers

/-!
# Programs are lowered without fault

Functions are defined one after another, each by a body that keeps to what can be carried out. So whatever is
lowered, the commands can be carried out, unless something without a value is computed with or compared.

* `Between`: what holds between two functions.
* `settles_define`: a function is defined by a body that leads to valid states.
* `lower_applies`: the outcome for a whole program.
-/

namespace TypedScript.Lower

open TypedScript.Ast TypedScript.Ast.Tree TypedScript.Ir TypedScript.Layout TypedScript.Machine

variable {inp : Input} {names names' : List String} {s s' : State} {α β : Type}

/-! ### Between functions -/

/-- What holds between two functions, if apart from the symbols of functions at most `names` have been begun. -/
structure Between (inp : Input) (names : List String) (s : State) : Prop where
  applies : (∃ m, Built s.commands m ∧ Outlines s m) ∨ Crashes inp s.commands
  numbered : s.registry.IsNumbered
  layouts : ∀ n ∈ s.chain.nodes, ∀ d, n.layout = some d → d ∈ s.registry.all
  named : Named inp s
  begun : ∀ name, Begun s name → name ∈ names ∨ ∃ fn, inp.tree.isFunction fn = true ∧ name = codeName inp.tree fn

theorem Between.halted (h : Between inp names s) {e : Error} (he : e ≠ .missingParameter) : Halted inp e s :=
  ⟨he, h.applies.imp_left fun ⟨m, hbuilt, _⟩ => ⟨m, hbuilt⟩⟩

/-- From `s` on the computation gives a result with the property, or fails with commands that can be carried out. -/
def Settles (inp : Input) (s : State) (act : LowerM α) (Q : State → α → Prop) : Prop :=
  (∀ a s', Runs act s a s' → Q s' a) ∧ ∀ e s', Fails act s e s' → Halted inp e s'

namespace Settles

variable {act : LowerM α} {Q Q' : State → α → Prop} {R : State → β → Prop}

theorem imp (h : Settles inp s act Q) (hQ : ∀ s' a, Q s' a → Q' s' a) : Settles inp s act Q' :=
  ⟨fun a s' hr => hQ s' a (h.1 a s' hr), h.2⟩

theorem bind {f : α → LowerM β} (h : Settles inp s act Q) (hf : ∀ s' a, Q s' a → Settles inp s' (f a) R) :
    Settles inp s (act >>= f) R := by
  constructor
  · intro b s' hr
    obtain ⟨a, t, hact, hfr⟩ := runs_bind.1 hr
    exact (hf t a (h.1 a t hact)).1 b s' hfr
  · intro e s' hfail
    rcases fails_bind.1 hfail with hact | ⟨a, t, hact, hfr⟩
    · exact h.2 e s' hact
    · exact (hf t a (h.1 a t hact)).2 e s' hfr

theorem pure {a : α} (h : Q s a) : Settles inp s (pure a) Q := by
  refine ⟨fun b s' hr => ?_, fun e s' hf => (not_fails_pure hf).elim⟩
  obtain ⟨rfl, rfl⟩ := runs_pure.1 hr
  exact h

theorem change {f : State → State} {Q : State → Unit → Prop} (h : Q (f s) ()) : Settles inp s (modify f) Q := by
  refine ⟨fun a s' hr => ?_, fun e s' hf => (not_fails_modify hf).elim⟩
  obtain rfl := runs_modify.1 hr
  exact h

theorem read {f : State → LowerM β} (h : Settles inp s (f s) R) : Settles inp s (get >>= f) R := by
  refine bind (Q := fun s' a => s' = s ∧ a = s) ⟨fun a s' hr => ?_, fun e s' hf => (not_fails_get hf).elim⟩ ?_
  · obtain ⟨rfl, rfl⟩ := runs_get.1 hr
    exact ⟨rfl, rfl⟩
  · rintro s' a ⟨rfl, rfl⟩
    exact h

/-- A computation that only makes layouts. -/
theorem survey (h : Surveys act) (hs : Between inp names s) :
    Settles inp s act fun s' a => Runs act s a s' ∧ Between inp names s' ∧ ∃ r, s' = { s with registry := r } := by
  constructor
  · intro a s' hrun
    refine ⟨hrun, ?_⟩
    obtain ⟨r, rfl, hr⟩ := h.run hrun
    refine ⟨⟨hs.applies.imp_left ?_, hr.numbered hs.numbered, ?_, hs.named.congr (fun _ => Iff.rfl) rfl rfl rfl,
      hs.begun⟩,
      r, rfl⟩
    · rintro ⟨m, hbuilt, ho⟩
      refine ⟨m, hbuilt, ho.listed, ho.begun, ho.header, fun t ht => ?_⟩
      obtain ⟨d, hd, htag, hmem⟩ := ho.structs t ht
      exact ⟨d, hd.mono hr.all, htag, hmem⟩
    · exact fun k hk d hd => hr.all.subset (hs.layouts k hk d hd)
  · intro e s' hfail
    obtain ⟨hcommands, he⟩ := h.fail hfail
    exact ⟨he, hcommands ▸ (hs.halted he).applies⟩

end Settles

/-! ### Definitions -/

theorem not_fails_defineFunc {name : String} {e : Error} : ¬ Fails (defineFunc name) s e s' := by
  intro h
  rcases fails_bind.1 h with h | ⟨_, _, _, h⟩
  · exact not_fails_emit h
  rcases fails_bind.1 h with h | ⟨_, _, _, h⟩
  · exact not_fails_get h
  rcases fails_bind.1 h with h | ⟨_, _, _, h⟩
  · exact not_fails_modify h
  · exact not_fails_pure h

/-- A function can be defined: it is declared, nobody has begun it, and it does not wait. -/
structure Definable (inp : Input) (s : State) (name : String) : Prop where
  declared : (s.symbols.lookup name).isSome
  known : name ∈ reservedNames inp.options ∨ ∃ fn, s.codes.lookup fn = some name
  fresh : ¬ Begun s name
  waits : ∀ p ∈ s.queue, p.code ≠ name

/-- The body of a function starts in the entry block, with its parameters in registers. -/
theorem valid_define {name : String} {count : Nat} (hs : Between inp names s) (hname : Definable inp s name)
    (h : Runs (defineFunc name) s count s') : Valid inp s' ∧ Open s' ∧ count = paramCount s.symbols name ∧
      s'.registers = count ∧ s'.symbols = s.symbols ∧ s'.commands = s.commands.push (.define name) := by
  obtain ⟨rfl, rfl⟩ := runs_defineFunc h
  refine ⟨⟨?_, hs.numbered, hs.layouts, ?_, fun b hb => nomatch hb⟩, ⟨Nat.zero_lt_one, fun hmem => nomatch hmem⟩,
    rfl, rfl,
    rfl, rfl⟩
  · unfold Applies Built
    rcases hs.applies with ⟨m, hbuilt, ho⟩ | hcrashes
    · rw [applyAll_push_of_built hbuilt]
      exact .inl (ho.define hname.declared hname.fresh rfl rfl rfl rfl rfl rfl rfl)
    · exact .inr (hcrashes.push _)
  · exact hs.named.define hname.known hname.waits rfl rfl rfl rfl

/-- A function is defined by a body that leads to valid states. -/
theorem settles_define {name : String} (hs : Between inp names s) (hname : Definable inp s name)
    (hnames : ∀ x ∈ names, x ∈ names')
    (hself : name ∈ names' ∨ ∃ fn, inp.tree.isFunction fn = true ∧ name = codeName inp.tree fn)
    {body : Nat → LowerM α} (hbody : ∀ s₁, Open s₁ → s₁.registers = paramCount s.symbols name →
      (flowRegime inp).toRegime.Leads s₁ (body (paramCount s.symbols name)) fun s' _ => Onward [] s₁ s') :
    Settles inp s (defineFunc name >>= body) fun s' _ =>
      Between inp names' s' ∧ ∀ x sig, s.symbols.lookup x = some sig → s'.symbols.lookup x = some sig := by
  have hstart : Settles inp s (defineFunc name) fun s' count => Valid inp s' ∧ Open s' ∧
    count = paramCount s.symbols name ∧
      s'.registers = count ∧ s'.symbols = s.symbols ∧ s'.commands = s.commands.push (.define name) :=
    ⟨fun count s' hr => valid_define hs hname hr, fun e s' hf => (not_fails_defineFunc hf).elim⟩
  refine hstart.bind fun s₁ count h₁ => ?_
  obtain ⟨hvalid, hopen, rfl, hregisters, hsymbols, hcommands⟩ := h₁
  have hleads := hbody s₁ hopen hregisters
  refine ⟨fun a s' hr => ?_, fun e s' hf => StateRegime.fails hleads hvalid hf⟩
  obtain ⟨hvalid', hsince⟩ := StateRegime.run hleads hvalid hr
  refine ⟨⟨?_, hvalid'.numbered, hvalid'.layouts, hvalid'.named, fun x hx => ?_⟩, fun x sig hx => ?_⟩
  · exact hvalid'.applies.imp_left fun ⟨m, hbuilt, hm⟩ => ⟨m, hbuilt, hm.1⟩
  · have hx₁ := hsince.begun x hx
    rw [Begun, hcommands, Array.mem_push] at hx₁
    rcases hx₁ with hold | heq
    · exact (hs.begun x hold).imp_left (hnames x)
    · exact (Command.define.inj heq).symm ▸ hself
  · exact hsince.symbols x sig (hsymbols ▸ hx)

/-! ### Functions -/

theorem Between.note (hs : Between inp names s) (records : List FunctionRecord) : Between inp names
    { s with records } :=
  ⟨hs.applies.imp_left fun ⟨m, hm, ho⟩ => ⟨m, hm, ho.listed, ho.begun, ho.header, ho.structs⟩,
    hs.numbered, hs.layouts,
    hs.named.congr (fun _ => Iff.rfl) rfl rfl rfl, hs.begun⟩

/-- A waiting function is declared with a register for each parameter. -/
theorem Waits.params_lt {p : Pending} (hp : Waits inp s p) (hs : Named inp s) :
    ((inp.tree.form? p.node).getD .null).params.length < paramCount s.symbols p.code := by
  have hfun := hp.isFunction
  unfold Tree.isFunction at hfun
  cases hform : inp.tree.form? p.node with
  | none => simp [hform] at hfun
  | some f => exact hs.params p.node p.code f hp.code hform (by simpa [hform] using hfun)

theorem settles_lowerFunction (hinp : inp.Regular) {p : Pending} (hs : Between inp names s) (hp : Waits inp s p)
    (hqueue : ∀ q ∈ s.queue, q.code ≠ p.code) : Settles inp s (lowerFunction inp p) fun s' _ =>
      Between inp names s' ∧ ∀ x sig, s.symbols.lookup x = some sig → s'.symbols.lookup x = some sig := by
  have hcount := hp.params_lt hs.named
  have hcode : p.code = codeName inp.tree p.node := hs.named.code p.node p.code hp.code
  have hname : Definable inp s p.code := ⟨hs.named.declared _ _ hp.code, .inr ⟨p.node, hp.code⟩, hp.fresh, hqueue⟩
  refine .bind (Q := fun s' _ => Between inp names s' ∧ Definable inp s' p.code ∧ s'.symbols = s.symbols)
    (.change ⟨hs.note _, ⟨hname.declared, hname.known, hname.fresh, hname.waits⟩, rfl⟩) ?_
  rintro s₁ _ ⟨hs₁, hname₁, hsymbols⟩
  refine (Settles.survey (surveys_signature inp _ _) hs₁).bind ?_
  rintro s₂ ⟨sig, result, reps⟩ ⟨-, hs₂, r, rfl⟩
  rw [← hsymbols] at hcount ⊢
  refine settles_define hs₂ ⟨hname₁.declared, hname₁.known, hname₁.fresh, hname₁.waits⟩ (fun _ h => h)
    (.inr ⟨p.node, hp.isFunction, hcode⟩) fun s₃ hs₃ _ => ?_
  obtain ⟨form, hform, hffun⟩ := exists_form_of_isFunction hp.isFunction
  obtain ⟨body, hbody⟩ := Form.exists_body?_of_isFunction hffun
  simp only [hform, Option.getD_some] at hcount
  have hnote : Flows inp s₃ (modify fun s => { s with
      env := .reg 0, result, functions := s.functions ++ [⟨p.code, p.node, inp.analysis.isPure p.node⟩] })
      fun _ _ => True := flows_note ⟨rfl, rfl, rfl, rfl, rfl, rfl, rfl, .refl _⟩ rfl rfl rfl
  refine Regime.Leads.bind (hnote hs₃) fun s₄ _ ⟨hl₄, hs₄, _⟩ => ?_
  refine Regime.Leads.bind (flows_noteAttribute _ _ hs₄) fun s₅ _ ⟨hl₅, hs₅, _⟩ => ?_
  refine Regime.Leads.bind (flows_openChild _ _ _ hs₅) fun s₆ root ⟨hl₆, hs₆, _⟩ => ?_
  simp only [hform, hbody, Option.getD_some]
  exact (leads_function (V := flowView hinp) hform hbody trivial trivial (fun _ _ => trivial) (.inl hcount) result
    hs₆).imp fun s' _ hq => ((hl₄.trans hl₅).trans hl₆).trans hq.1

/-- Functions that wait have symbols of their own. -/
theorem Named.code_ne (h : Named inp s) {p : Pending} {rest : List Pending} (hqueue : s.queue = p :: rest) :
    ∀ q ∈ rest, q.code ≠ p.code := by
  intro q hq heq
  have hp := h.queue p (by rw [hqueue]; exact List.mem_cons_self)
  have hq' := h.queue q (by rw [hqueue]; exact List.mem_cons_of_mem p hq)
  have hnode : q.node = p.node := by
    refine codeName_inj hq'.isFunction hp.isFunction ?_
    rw [← h.code _ _ hq'.code, ← h.code _ _ hp.code, heq]
  have hnodup := h.nodup
  rw [hqueue, List.map_cons, List.nodup_cons] at hnodup
  exact hnodup.1 (hnode ▸ List.mem_map_of_mem hq)

theorem Between.pop (hs : Between inp names s) {p : Pending} {rest : List Pending} (hqueue : s.queue = p :: rest) :
    Between inp names { s with queue := rest } := by
  refine ⟨hs.applies.imp_left fun ⟨m, hm, ho⟩ => ⟨m, hm, ho.listed, ho.begun, ho.header, ho.structs⟩,
    hs.numbered, hs.layouts,
    ?_, hs.begun⟩
  have h := hs.named
  refine ⟨h.code, h.declared, h.kind, h.params, h.known, h.begun, fun q hq => ?_, ?_⟩
  · obtain ⟨hfun, hcode, hfresh⟩ := h.queue q (by rw [hqueue]; exact List.mem_cons_of_mem p hq)
    exact ⟨hfun, hcode, hfresh⟩
  · have hnodup := h.nodup
    rw [hqueue, List.map_cons, List.nodup_cons] at hnodup
    exact hnodup.2

/-- Waiting functions are lowered one after another. The induction is on the rounds that are left. -/
theorem settles_lowerQueue (hinp : inp.Regular) (fuel : Nat) (hs : Between inp names s) :
    Settles inp s (lowerQueue inp fuel) fun s' _ =>
      Between inp names s' ∧ ∀ x sig, s.symbols.lookup x = some sig → s'.symbols.lookup x = some sig := by
  induction fuel generalizing s with
  | zero => exact .pure ⟨hs, fun _ _ h => h⟩
  | succ fuel ih =>
    refine .read ?_
    split
    · exact .pure ⟨hs, fun _ _ h => h⟩
    · rename_i p rest hqueue
      obtain ⟨hfun, hcode, hfresh⟩ := hs.named.queue p (by rw [hqueue]; exact List.mem_cons_self)
      refine .bind (Q := fun s' _ => s' = { s with queue := rest }) (.change rfl) ?_
      rintro s₁ _ rfl
      refine (settles_lowerFunction hinp (hs.pop hqueue) ⟨hfun, hcode, hfresh⟩ (hs.named.code_ne hqueue)).bind ?_
      rintro s₂ _ ⟨hs₂, hsymbols₂⟩
      exact (ih hs₂).imp fun s₃ _ h₃ => ⟨h₃.1, fun x sig hx => h₃.2 x sig (hsymbols₂ x sig hx)⟩

/-! ### Helpers -/

/-- A reserved name that is declared can be defined once. -/
theorem Between.definable (hs : Between inp names s) (hinp : inp.Regular) {name : String}
    (hname : name ∈ reservedNames inp.options) (hdecl : (s.symbols.lookup name).isSome) (hnew : name ∉ names) :
    Definable inp s name := by
  have hapart {fn : Nat} (hfn : inp.tree.isFunction fn = true) : name ≠ codeName inp.tree fn :=
    fun heq => hinp.apart fn hfn (heq ▸ hname)
  refine ⟨hdecl, .inl hname, fun h => (hs.begun name h).elim hnew fun ⟨fn, hfn, heq⟩ => hapart hfn heq,
    fun p hp heq => ?_⟩
  have hp' := hs.named.queue p hp
  exact hapart hp'.isFunction (heq.symm.trans (hs.named.code _ _ hp'.code))

/-- The parameter of a helper can be read. -/
theorem helperParam_asked (inp : Input) (h : 2 ≤ s.registers) :
    Reads s.registers (LacksOperand inp) helperParam := h

/-- A helper is declared with two parameters, and not begun yet. -/
theorem settles_helper {name : String} (hs : Between inp names s) (hinp : inp.Regular) (hname : name ∈ helperNames)
    (hsig : s.symbols.lookup name = some helperSig) (hnew : name ∉ names) {body : LowerM α}
    (hbody : ∀ s₁, Open s₁ → 2 ≤ s₁.registers →
      (flowRegime inp).toRegime.Leads s₁ body fun s' _ => Onward [] s₁ s' ∧ s'.block < s'.blocks) :
    Settles inp s (do let _ ← defineFunc name; body) fun s' _ =>
      Between inp (name :: names) s' ∧ ∀ x sig, s.symbols.lookup x = some sig → s'.symbols.lookup x = some sig := by
  have hcount : paramCount s.symbols name = 2 := by simp [paramCount, hsig, helperSig]
  have hdefinable := hs.definable hinp (List.mem_append_right _ hname) (by rw [hsig]; rfl) hnew
  refine settles_define hs hdefinable (fun x hx => List.mem_cons_of_mem _ hx) (.inl List.mem_cons_self)
    fun s₁ hs₁ hregs => ?_
  exact (hbody s₁ hs₁ (Nat.le_of_eq (hregs.trans hcount).symm)).imp fun _ _ hq => hq.1

section

variable (hs : Between inp names s) (hinp : inp.Regular)
include hs hinp

theorem settles_defineRetain (hsig : s.symbols.lookup retainName = some helperSig) (hnew : retainName ∉ names) :
    Settles inp s defineRetain fun s' _ => Between inp (retainName :: names) s' ∧
      ∀ x sig, s.symbols.lookup x = some sig → s'.symbols.lookup x = some sig :=
  settles_helper hs hinp (by simp [helperNames]) hsig hnew fun _ hs hregisters =>
    leads_retainBody (V := flowView hinp) trivial (helperParam_asked inp hregisters) trivial hs

theorem settles_defineFnHelper {name inner : String} (hname : name ∈ helperNames) (hinner : inner ∈ helperNames)
    (hsig : s.symbols.lookup name = some helperSig) (hnew : name ∉ names) :
    Settles inp s (defineFnHelper name inner) fun s' _ => Between inp (name :: names) s' ∧
      ∀ x sig, s.symbols.lookup x = some sig → s'.symbols.lookup x = some sig :=
  settles_helper hs hinp hname hsig hnew fun _ hs hregisters =>
    leads_fnHelperBody (V := flowView hinp) trivial (helperParam_asked inp hregisters) hinner hs

theorem settles_defineRelease (hsig : s.symbols.lookup releaseName = some helperSig) (hnew : releaseName ∉ names) :
    Settles inp s (defineRelease inp) fun s' _ => Between inp (releaseName :: names) s' ∧
      ∀ x sig, s.symbols.lookup x = some sig → s'.symbols.lookup x = some sig :=
  settles_helper hs hinp (by simp [helperNames]) hsig hnew fun _ hs hregisters =>
    leads_releaseBody (V := flowView hinp) (fun _ => trivial) trivial (helperParam_asked inp hregisters) trivial
      trivial hs

end

/-- The helpers are declared as such. -/
def Helped (s : State) : Prop := ∀ name ∈ helperNames, s.symbols.lookup name = some helperSig

/-- A helper has not been begun before, as its name is not that of the entry. -/
theorem Input.Regular.helper_notMem (hinp : inp.Regular) {name : String} (defined : List String)
    (hname : name ∈ helperNames) (hnew : name ∉ defined) : name ∉ defined ++ [inp.options.entry] := by
  intro hmem
  refine (List.mem_append.1 hmem).elim hnew fun hentry => ?_
  obtain rfl := List.mem_singleton.1 hentry
  exact (List.nodup_append.1 hinp.nodup).2.2 _ List.mem_cons_self _ hname rfl

/-- The functions that are begun in every program, the last one first. -/
def runtimeNames (o : Options) : List String := [releaseName, fnReleaseName, fnRetainName, retainName, o.entry]

/-- The helpers are defined last, each once. -/
theorem settles_defineRuntime (hs : Between inp [inp.options.entry] s) (hinp : inp.Regular) (hhelped : Helped s) :
    Settles inp s (defineRuntime inp) fun s' _ => Between inp (runtimeNames inp.options) s' := by
  refine (settles_defineRetain hs hinp (hhelped _ (by decide)) (hinp.helper_notMem [] (by decide) (by decide))).bind
    ?_
  rintro s₁ _ ⟨hs₁, hsymbols₁⟩
  have hhelped₁ : Helped s₁ := fun name hname => hsymbols₁ _ _ (hhelped name hname)
  refine (settles_defineFnHelper hs₁ hinp (by decide) (by decide) (hhelped₁ _ (by decide))
    (hinp.helper_notMem [retainName] (by decide) (by decide))).bind ?_
  rintro s₂ _ ⟨hs₂, hsymbols₂⟩
  have hhelped₂ : Helped s₂ := fun name hname => hsymbols₂ _ _ (hhelped₁ name hname)
  refine (settles_defineFnHelper hs₂ hinp (by decide) (by decide) (hhelped₂ _ (by decide))
    (hinp.helper_notMem [fnRetainName, retainName] (by decide) (by decide))).bind ?_
  rintro s₃ _ ⟨hs₃, hsymbols₃⟩
  refine (settles_defineRelease hs₃ hinp (hsymbols₃ _ _ (hhelped₂ _ (by decide)))
    (hinp.helper_notMem [fnReleaseName, fnRetainName, retainName] (by decide) (by decide))).imp fun _ _ h => h.1

/-! ### Programs -/

/-- A function of the runtime is declared. -/
theorem Named.reserve (h : Named inp s) {name : String} (hname : name ∈ reservedNames inp.options) (sig : Sig) :
    Named inp { s with
      commands := s.commands.push (.declareFunc name sig), symbols := symbolsAfter s.symbols name sig } := by
  have hbegun (x : String) : Begun { s with
      commands := s.commands.push (.declareFunc name sig), symbols := symbolsAfter s.symbols name sig } x ↔
        Begun s x :=
    begun_push (by simp) rfl
  refine ⟨h.code, fun fn x hx => ?_, h.kind, fun fn x f hx hf hfun => ?_, fun x hx => ?_, fun x hx => ?_,
    fun p hp => ?_, h.nodup⟩
  · rw [lookup_symbolsAfter sig (h.declared fn x hx)]
    exact h.declared fn x hx
  · unfold paramCount
    rw [lookup_symbolsAfter sig (h.declared fn x hx)]
    exact h.params fn x f hx hf hfun
  · obtain ⟨sig', hsig'⟩ := Option.isSome_iff_exists.1 hx
    rcases lookup_symbolsAfter_eq hsig' with hold | ⟨rfl, -⟩
    · exact h.known x (by rw [hold]; rfl)
    · exact .inl hname
  · exact h.begun x ((hbegun x).1 hx)
  · obtain ⟨hfun, hcode, hfresh⟩ := h.queue p hp
    exact ⟨hfun, hcode, fun hb => hfresh ((hbegun _).1 hb)⟩

theorem settles_declareFunc (hs : Between inp names s) {name : String} (hname : name ∈ reservedNames inp.options)
    (sig : Sig) :
    Settles inp s (declareFunc name sig) fun s' _ => Between inp names s' ∧ s'.symbols =
      symbolsAfter s.symbols name sig := by
  refine ⟨fun _ s' hr => ?_, fun e s' hf => (not_fails_declareFunc hf).elim⟩
  obtain rfl := runs_declareFunc hr
  refine ⟨⟨?_, hs.numbered, hs.layouts, hs.named.reserve hname sig, fun x hx => ?_⟩, rfl⟩
  · unfold Built
    rcases hs.applies with ⟨m, hbuilt, ho⟩ | hcrashes
    · rw [applyAll_push_of_built hbuilt]
      exact .inl (ho.declareFunc name sig)
    · exact .inr (hcrashes.push _)
  · exact hs.begun x ((begun_push (by simp) rfl).1 hx)

theorem settles_declareAll {xs : List String} (hs : Between inp names s)
    (hxs : ∀ x ∈ xs, x ∈ reservedNames inp.options) (sig : Sig) : Settles inp s
    (xs.forM (declareFunc · sig)) fun s' _ => Between inp names s' := by
  induction xs generalizing s with
  | nil => exact .pure hs
  | cons x xs ih =>
    refine (settles_declareFunc hs (hxs x List.mem_cons_self) sig).bind fun s₁ _ h₁ => ?_
    exact ih h₁.1 fun y hy => hxs y (List.mem_cons_of_mem x hy)

/-- The state that lowering starts from, once the header is declared. -/
theorem between_header (inp : Input) (target : Target) : Between inp []
    { registry := .ofTarget target, commands := #[.declareStruct headerStruct] } where
  applies := .inl ⟨{ structs := [headerStruct.name] }, rfl,
    ⟨by simp, by simp [Module.sigs], by simp [Module.sigs]⟩, by simp,
    List.mem_cons_self, fun t ht => nomatch ht⟩
  numbered := Registry.ofTarget_isNumbered target
  layouts n hn := by simp at hn
  named := by
    refine ⟨by simp, by simp, by simp, by simp, by simp, fun name hn => ?_, by simp, by simp⟩
    simp [Begun] at hn
  begun name hn := by simp [Begun] at hn

theorem settles_declareRuntime (hinp : inp.Regular) (target : Target) :
    Settles inp { registry := .ofTarget target } (declareRuntime inp) fun s' _ => Between inp
      [] s' ∧ Helped s' := by
  have hdeclare : Settles inp { registry := .ofTarget target } (declareRuntime inp) fun s' _ =>
    Between inp [] s' := by
    refine .bind (Q := fun s' _ => Between inp [] s') (.change (between_header inp target)) fun s₁ _ hs₁ => ?_
    refine (settles_declareFunc hs₁ (by simp [reservedNames]) _).bind fun s₂ _ hs₂ => ?_
    refine (settles_declareFunc hs₂.1 (by simp [reservedNames]) _).bind fun s₃ _ hs₃ => ?_
    exact settles_declareAll hs₃.1 (fun x hx => List.mem_append_right _ hx) _
  refine ⟨fun a s' hr => ⟨hdeclare.1 a s' hr, fun name hname => ?_⟩, hdeclare.2⟩
  obtain ⟨hprelude, hsome⟩ := (prelude_start inp target).declareRuntime hinp.nodup hr
  obtain ⟨sig, hsig⟩ := Option.isSome_iff_exists.1 (hsome name hname)
  rw [hsig, hprelude.helpers name hname sig hsig]

theorem settles_lowerEntry (hinp : inp.Regular) (hs : Between inp [] s) (hhelped : Helped s) :
    Settles inp s (lowerEntry inp) fun s' _ => Between inp [inp.options.entry] s' ∧ Helped s' := by
  have hentry : inp.options.entry ∈ reservedNames inp.options := List.mem_cons_self
  refine (settles_declareFunc hs hentry _).bind ?_
  rintro s₁ _ ⟨hs₁, hsymbols₁⟩
  have hdecl : (s₁.symbols.lookup inp.options.entry).isSome := hsymbols₁ ▸ lookup_symbolsAfter_self _ _ _
  have hhelped₁ : Helped s₁ := by
    intro name hname
    rw [hsymbols₁, lookup_symbolsAfter _ (by rw [hhelped name hname]; rfl)]
    exact hhelped name hname
  refine (settles_define hs₁ (hs₁.definable hinp hentry hdecl List.not_mem_nil) (fun _ h => nomatch h)
    (.inl List.mem_cons_self) fun s₂ hs₂ _ => ?_).imp fun s' _ h =>
    ⟨h.1, fun name hname => h.2 _ _ (hhelped₁ name hname)⟩
  have hnote : Flows inp s₂ (modify fun s => { s with
      env := .null, result := .void, functions := s.functions ++ [⟨inp.options.entry, inp.tree.root, true⟩] })
      fun _ _ => True := flows_note ⟨rfl, rfl, rfl, rfl, rfl, rfl, rfl, .refl _⟩ rfl rfl rfl
  refine Regime.Leads.bind (hnote hs₂) ?_
  rintro s₃ _ ⟨hl₃, hs₃, -⟩
  refine Regime.Leads.bind (flows_openRoot hs₃) ?_
  rintro s₄ root ⟨hl₄, hs₄, -⟩
  exact (leads_entry (V := flowView hinp) trivial trivial (fun _ _ _ _ => trivial) hs₄).imp fun _ _ hq =>
    (hl₃.trans hl₄).trans hq.1

/-- Lowering a program commands what can be carried out, unless an operand is missing. -/
theorem settles_lowerProgram (hinp : inp.Regular) (target : Target) :
    Settles inp { registry := .ofTarget target } (lowerProgram inp) fun s' _ => Between inp
      (runtimeNames inp.options) s' := by
  have hnames : Settles inp { registry := .ofTarget target } (checkNames inp)
      fun s' _ => s' = { registry := .ofTarget target } := by
    unfold checkNames
    dsimp only
    split
    · refine ⟨fun _ s' hr => (runs_unsupported hr).elim, fun e s' hf => ?_⟩
      obtain ⟨rfl, rfl⟩ := fails_throw.1 hf
      exact ⟨nofun, .inl ⟨{}, rfl⟩⟩
    · exact .pure rfl
  refine hnames.bind ?_
  rintro s₁ _ rfl
  refine (settles_declareRuntime hinp target).bind fun s₂ _ ⟨hs₂, hhelped₂⟩ => ?_
  refine (settles_lowerEntry hinp hs₂ hhelped₂).bind fun s₃ _ ⟨hs₃, hhelped₃⟩ => ?_
  refine (settles_lowerQueue hinp _ hs₃).bind fun s₄ _ ⟨hs₄, hsymbols₄⟩ => ?_
  exact settles_defineRuntime hs₄ hinp fun name hname => hsymbols₄ _ _ (hhelped₃ name hname)

/-- Whatever is lowered, every function has its parameters, and the commands can be carried out, unless something
without a value is computed with or compared. -/
theorem lower_applies (hinp : inp.Regular) (target : Target) : (lower inp target).error ≠ some .missingParameter ∧
    ((∃ m, Built (lower inp target).state.commands m) ∨ Crashes inp (lower inp target).state.commands) := by
  obtain ⟨hrun, hfail⟩ := settles_lowerProgram hinp target
  unfold lower
  rcases hr : (lowerProgram inp).run.run { registry := .ofTarget target } with ⟨r, st⟩
  cases r with
  | ok u =>
    exact ⟨nofun, (hrun u st hr).applies.imp_left fun ⟨m, hm, _⟩ => ⟨m, hm⟩⟩
  | error e =>
    obtain ⟨he, happlies⟩ := hfail e st hr
    exact ⟨fun h => he (Option.some.inj h), happlies⟩

end TypedScript.Lower
