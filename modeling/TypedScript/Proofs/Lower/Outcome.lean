import TypedScript.Lower.Program

/-!
# Successful and failing runs of lowering

`Runs act s a s'` says that the computation `act` succeeds from the state `s` with the result `a` and the state
`s'`. A run of a sequence is a run of its parts, one after another, so what lowering does is read off its
definition part by part.

`Fails act s e s'` says that the computation `act` fails from the state `s` with the error `e`. Most computations
are calm: they touch neither the scopes nor the functions that wait, and do not fail because of scopes.
-/

/-! ## Successful runs -/

namespace TypedScript.Lower

variable {α β : Type}

/-- The computation succeeds from `s` with the result `a` and leaves the state `s'`. -/
def Runs (act : LowerM α) (s : State) (a : α) (s' : State) : Prop := act.run.run s = (.ok a, s')

theorem runs_pure {a b : α} {s s' : State} : Runs (pure a) s b s' ↔ b = a ∧ s' = s := by
  simp only [Runs, ExceptT.run_pure, StateT.run_pure]
  constructor
  · rintro h; cases h; exact ⟨rfl, rfl⟩
  · rintro ⟨rfl, rfl⟩; rfl

theorem runs_bind {x : LowerM α} {f : α → LowerM β} {s s' : State} {b : β} :
    Runs (x >>= f) s b s' ↔ ∃ a t, Runs x s a t ∧ Runs (f a) t b s' := by
  simp only [Runs, ExceptT.run_bind, StateT.run_bind]
  constructor
  · intro h
    rcases hx : x.run.run s with ⟨r, t⟩
    rw [hx] at h
    cases r with
    | ok a => exact ⟨a, t, rfl, h⟩
    | error e => cases h
  · rintro ⟨a, t, hx, hf⟩
    rw [hx]
    exact hf

theorem runs_get {s s' : State} {t : State} : Runs get s t s' ↔ t = s ∧ s' = s := by
  constructor
  · rintro h; cases h; exact ⟨rfl, rfl⟩
  · rintro ⟨rfl, rfl⟩; rfl

theorem runs_modify {f : State → State} {s s' : State} {u : Unit} : Runs (modify f) s u s' ↔ s' = f s := by
  constructor
  · rintro h; cases h; rfl
  · rintro rfl; rfl

theorem runs_modifyGet {f : State → α × State} {s s' : State} {a : α} :
    Runs (modifyGet f) s a s' ↔ a = (f s).1 ∧ s' = (f s).2 := by
  constructor
  · rintro h; cases h; exact ⟨rfl, rfl⟩
  · rintro ⟨rfl, rfl⟩; rfl

theorem runs_throw {e : Error} {s s' : State} {a : α} : ¬ Runs (throw e) s a s' := by
  intro h; cases h

theorem runs_unsupported {inp : Input} {id : Nat} {reason : String} {s s' : State} {a : α} :
    ¬ Runs (unsupported inp id reason) s a s' := runs_throw

/-- Locating errors changes nothing where there are none. -/
theorem runs_locate {span : Source.Span} {act : LowerM α} {s s' : State} {a : α} :
    Runs (locate span act) s a s' ↔ Runs act s a s' := by
  have h : (locate span act).run.run s = match act.run.run s with
      | (.ok a, t) => (.ok a, t)
      | (.error e, t) => (.error (e.located span), t) := by
    rcases hr : act.run.run s with ⟨r, t⟩
    have hr' : StateT.run act s = (r, t) := hr
    simp only [locate, tryCatch, tryCatchThe, MonadExceptOf.tryCatch, ExceptT.tryCatch, ExceptT.run_mk,
      StateT.run_bind, hr']
    cases r <;> rfl
  unfold Runs
  rw [h]
  rcases act.run.run s with ⟨r, t⟩
  cases r with
  | ok b => exact Iff.rfl
  | error e => constructor <;> intro h <;> cases h

theorem runs_ofLayout {act : Layout.Registry.LayoutM α} {s s' : State} {a : α} (h : Runs (ofLayout act) s a s') :
    (act.run.run s.registry).1 = .ok a ∧ s' = { s with registry := (act.run.run s.registry).2 } := by
  obtain ⟨_, t, hget, h₁⟩ := runs_bind.1 h
  obtain ⟨rfl, rfl⟩ := runs_get.1 hget
  rcases hact : act.run.run t.registry with ⟨out, r⟩
  simp only [hact] at h₁
  obtain ⟨_, u, hmod, hout⟩ := runs_bind.1 h₁
  obtain rfl := runs_modify.1 hmod
  cases out with
  | error e => exact (runs_throw hout).elim
  | ok b =>
    obtain ⟨rfl, rfl⟩ := runs_pure.1 hout
    exact ⟨rfl, rfl⟩

theorem length_of_runs_mapM {f : β → LowerM α} {xs : List β} {ys : List α} {s s' : State}
    (h : Runs (xs.mapM f) s ys s') :
    ys.length = xs.length := by
  induction xs generalizing s s' ys with
  | nil =>
    rw [List.mapM_nil] at h
    rw [(runs_pure.1 h).1]
    rfl
  | cons x xs ih =>
    rw [List.mapM_cons] at h
    obtain ⟨y, t, -, h⟩ := runs_bind.1 h
    obtain ⟨ys', t', hys, h⟩ := runs_bind.1 h
    obtain ⟨rfl, -⟩ := runs_pure.1 h
    rw [List.length_cons, List.length_cons, ih hys]

/-! ### Bodies -/

/-- What of a function is lowered once its scope is there: its parameters, and the statements of its body or the
expression whose value is returned. -/
def lowerBody (inp : Input) (root count : Nat) (params : List Nat) (body : Nat) (result : Layout.Rep) :
    LowerM Unit := do
  storeParams inp root count params
  match inp.tree.form? body with
  | some (.block list) => stmts inp root list
  | _ =>
    let inner ← openTransient root
    let h ← evaluate inp inner body
    if result = .void then emitDeferred inner
    else emitReturn inner (← h.toOperand inp inner) result
  if !(← isEnded) then
    emitDeferred root
    ret (zero result)

end TypedScript.Lower

/-! ## Failing runs, and calm computations -/

namespace TypedScript.Lower

open TypedScript.Ast TypedScript.Ir TypedScript.Layout

variable {α β : Type}

/-! ### Failing runs -/

/-- The computation fails from `s` with the error `e` and leaves the state `s'`. -/
def Fails (act : LowerM α) (s : State) (e : Error) (s' : State) : Prop := act.run.run s = (.error e, s')

theorem not_fails_pure {a : α} {s s' : State} {e : Error} : ¬ Fails (pure a) s e s' := by
  intro h; cases h

theorem fails_bind {x : LowerM α} {f : α → LowerM β} {s s' : State} {e : Error} :
    Fails (x >>= f) s e s' ↔ Fails x s e s' ∨ ∃ a t, Runs x s a t ∧ Fails (f a) t e s' := by
  simp only [Fails, Runs, ExceptT.run_bind, StateT.run_bind]
  constructor
  · intro h
    rcases hx : x.run.run s with ⟨r, t⟩
    rw [hx] at h
    cases r with
    | ok a => exact .inr ⟨a, t, rfl, h⟩
    | error e' => cases h; exact .inl rfl
  · rintro (hx | ⟨a, t, hx, hf⟩)
    · rw [hx]; rfl
    · rw [hx]
      exact hf

theorem not_fails_modify {f : State → State} {s s' : State} {e : Error} : ¬ Fails
    (modify f : LowerM Unit) s e s' := by
  intro h; cases h

theorem not_fails_modifyGet {f : State → α × State} {s s' : State} {e : Error} :
    ¬ Fails (modifyGet f : LowerM α) s e s' := by
  intro h; cases h

theorem not_fails_get {s s' : State} {e : Error} : ¬ Fails (get : LowerM State) s e s' := by
  intro h; cases h

theorem fails_throw {e e' : Error} {s s' : State} : Fails (throw e : LowerM α) s e' s' ↔ e' = e ∧ s' = s := by
  constructor
  · intro h; cases h; exact ⟨rfl, rfl⟩
  · rintro ⟨rfl, rfl⟩; rfl

/-- A located error is the error at a place. -/
theorem fails_locate {span : Source.Span} {act : LowerM α} {s s' : State} {e : Error}
    (h : Fails (locate span act) s e s') :
    ∃ e₀, Fails act s e₀ s' ∧ e = e₀.located span := by
  rcases hr : act.run.run s with ⟨r, t⟩
  have hr' : StateT.run act s = (r, t) := hr
  simp only [Fails, locate, tryCatch, tryCatchThe, MonadExceptOf.tryCatch, ExceptT.tryCatch, ExceptT.run_mk,
    StateT.run_bind, hr'] at h
  cases r with
  | ok a => cases h
  | error e₀ => cases h; exact ⟨e₀, hr, rfl⟩

/-! ### Calm computations -/

/-- Whether the error says that a name or a scope object could not be reached. -/
def Error.isOfScope : Error → Bool
  | .scope .. | .unreachableObject .. => true
  | _ => false

theorem Error.isOfScope_located (e : Error) (span : Source.Span) : (e.located span).isOfScope = e.isOfScope := by
  unfold Error.located
  split <;> rfl

/-- The computation leaves scopes and waiting functions as they are, and does not fail because of scopes. -/
structure Calm (act : LowerM α) : Prop where
  run : ∀ {s a s'}, Runs act s a s' → s'.chain = s.chain ∧ s'.queue = s.queue
  fail : ∀ {s e s'}, Fails act s e s' → e.isOfScope = false

namespace Calm

variable {act : LowerM α}

theorem pure (a : α) : Calm (pure a : LowerM α) where
  run h := by obtain ⟨rfl, rfl⟩ := runs_pure.1 h; exact ⟨rfl, rfl⟩
  fail h := (not_fails_pure h).elim

theorem throw {e : Error} (h : e.isOfScope = false) : Calm (throw e : LowerM α) where
  run h := (runs_throw h).elim
  fail h' := by obtain ⟨rfl, -⟩ := fails_throw.1 h'; exact h

theorem bind {f : α → LowerM β} (h : Calm act) (hf : ∀ a, Calm (f a)) : Calm (act >>= f) where
  run hrun := by
    obtain ⟨a, t, hact, hfrun⟩ := runs_bind.1 hrun
    obtain ⟨hc, hq⟩ := h.run hact
    obtain ⟨hc', hq'⟩ := (hf a).run hfrun
    exact ⟨hc'.trans hc, hq'.trans hq⟩
  fail hfail := by
    rcases fails_bind.1 hfail with hact | ⟨a, t, -, hfail⟩
    · exact h.fail hact
    · exact (hf a).fail hfail

theorem modify {f : State → State} (h : ∀ s, (f s).chain = s.chain ∧ (f s).queue = s.queue) :
    Calm (modify f : LowerM Unit) where
  run hrun := by obtain rfl := runs_modify.1 hrun; exact h _
  fail hfail := (not_fails_modify hfail).elim

theorem modifyGet {f : State → α × State} (h : ∀ s, (f s).2.chain = s.chain ∧ (f s).2.queue = s.queue) :
    Calm (modifyGet f : LowerM α) where
  run hrun := by obtain ⟨-, rfl⟩ := runs_modifyGet.1 hrun; exact h _
  fail hfail := (not_fails_modifyGet hfail).elim

theorem get : Calm (get : LowerM State) where
  run hrun := by obtain ⟨-, rfl⟩ := runs_get.1 hrun; exact ⟨rfl, rfl⟩
  fail hfail := (not_fails_get hfail).elim

theorem locate {span : Source.Span} (h : Calm act) : Calm (locate span act) where
  run hrun := h.run (runs_locate.1 hrun)
  fail hfail := by
    obtain ⟨e₀, hact, rfl⟩ := fails_locate hfail
    rw [Error.isOfScope_located]
    exact h.fail hact

theorem forM {xs : List β} {f : β → LowerM PUnit} (h : ∀ x ∈ xs, Calm (f x)) : Calm (xs.forM f) := by
  induction xs with
  | nil => exact pure _
  | cons x xs ih => exact (h x (by simp)).bind fun _ => ih fun y hy => h y (by simp [hy])

theorem mapM {xs : List β} {f : β → LowerM α} (h : ∀ x ∈ xs, Calm (f x)) : Calm (xs.mapM f) := by
  induction xs with
  | nil =>
    rw [List.mapM_nil]
    exact pure _
  | cons x xs ih =>
    rw [List.mapM_cons]
    exact (h x (by simp)).bind fun _ => (ih fun y hy => h y (by simp [hy])).bind fun _ => pure _

theorem foldlM {xs : List β} {f : α → β → LowerM α} (h : ∀ a x, Calm (f a x)) (a : α) : Calm (xs.foldlM f a) := by
  induction xs generalizing a with
  | nil => exact pure _
  | cons x xs ih =>
    rw [List.foldlM_cons]
    exact (h a x).bind ih

theorem unsupported (inp : Input) (id : Nat) (reason : String) : Calm (unsupported inp id reason : LowerM α) :=
  throw rfl

end Calm

/-! ### Commands -/

theorem calm_emit (c : Command) : Calm (emit c) := .modify fun _ => ⟨rfl, rfl⟩

theorem calm_newRegister : Calm newRegister := .modifyGet fun _ => ⟨rfl, rfl⟩

theorem calm_emitValue (i : Instr) : Calm (emitValue i) := (calm_emit _).bind fun _ => calm_newRegister

theorem calm_emitEffect (i : Instr) : Calm (emitEffect i) := by
  refine (calm_emit _).bind fun _ => ?_
  split
  · exact .modify fun _ => ⟨rfl, rfl⟩
  · exact .pure _

theorem calm_declareFunc (name : String) (sig : Sig) : Calm (declareFunc name sig) := by
  refine (calm_emit _).bind fun _ => .modify fun s => ?_
  split <;> exact ⟨rfl, rfl⟩

theorem calm_defineFunc (name : String) : Calm (defineFunc name) :=
  (calm_emit _).bind fun _ => Calm.get.bind fun _ => .bind (.modify fun _ => ⟨rfl, rfl⟩) fun _ => .pure _

theorem calm_newBlock (name : String) : Calm (newBlock name) :=
  Calm.get.bind fun _ => (calm_emit _).bind fun _ => .bind (.modify fun _ => ⟨rfl, rfl⟩) fun _ => .pure _

theorem calm_setInsert (block : Nat) : Calm (setInsert block) :=
  (calm_emit _).bind fun _ => .modify fun _ => ⟨rfl, rfl⟩

theorem calm_alloca (type : Ir.Ty) : Calm (alloca type) := (calm_emit _).bind fun _ => calm_newRegister

theorem calm_ret (v : Operand) : Calm (ret v) := by
  unfold ret
  split <;> exact calm_emitEffect _

/-! ### Layouts and symbols -/

theorem calm_ofLayout (act : Registry.LayoutM α) : Calm (ofLayout act) := by
  refine Calm.get.bind fun s => .bind (.modify fun _ => ⟨rfl, rfl⟩) fun _ => ?_
  split
  · exact .pure _
  · exact .throw rfl

theorem calm_fieldOf (d : Descriptor) (name : String) : Calm (fieldOf d name) := by
  unfold fieldOf
  split
  · exact .pure _
  · exact .throw rfl

variable {inp : Input}

theorem calm_repOf (id : Nat) : Calm (repOf inp id) := by
  unfold repOf
  dsimp only
  split
  · exact .unsupported _ _ _
  split
  · exact .pure _
  · exact (calm_ofLayout _).locate

theorem calm_signature (type : Nat) (span : Source.Span) : Calm (signature inp type span) := by
  unfold signature
  split
  · refine .bind (.mapM fun p _ => (calm_ofLayout _).locate) fun params => ?_
    exact (calm_ofLayout _).locate.bind fun result => .pure _
  · exact .throw rfl

theorem calm_codeFor (fn : Nat) : Calm (codeFor inp fn) := by
  refine Calm.get.bind fun s => ?_
  split
  · exact .pure _
  · refine (calm_signature _ _).bind fun sig => (calm_declareFunc _ _).bind fun _ => ?_
    exact .bind (.modify fun _ => ⟨rfl, rfl⟩) fun _ => .pure _

/-! ### Objects -/

theorem calm_useStruct (d : Descriptor) : Calm (useStruct d) := by
  refine Calm.get.bind fun s => ?_
  split
  · exact (calm_emit _).bind fun _ => .bind (.modify fun _ => ⟨rfl, rfl⟩) fun _ => .pure _
  · exact .pure _

theorem calm_fieldAddr (d : Descriptor) (base : Operand) (f : Field) : Calm (fieldAddr d base f) :=
  (calm_useStruct d).bind fun _ => calm_emitValue _

theorem calm_loadField (d : Descriptor) (base : Operand) (f : Field) : Calm (loadField d base f) :=
  (calm_fieldAddr d base f).bind fun _ => calm_emitValue _

theorem calm_construct (d : Descriptor) : Calm (construct inp d) := by
  refine (calm_useStruct d).bind fun s => (calm_emitValue _).bind fun obj => (calm_emitValue _).bind fun tag => ?_
  refine (calm_emitEffect _).bind fun _ => (calm_emitValue _).bind fun count => (calm_emitEffect _).bind fun _ => ?_
  refine .bind (.forM fun f _ => (calm_emitValue _).bind fun _ => calm_emitEffect _) fun _ => ?_
  exact .bind (.modify fun _ => ⟨rfl, rfl⟩) fun _ => .pure _

theorem calm_callHelper (name : String) (v : Operand) : Calm (callHelper name v) :=
  (calm_emitValue _).bind fun _ => .pure _

theorem calm_retain (r : Rep) (v : Operand) : Calm (retain r v) := by
  unfold retain
  split
  · exact calm_callHelper _ _
  · exact calm_callHelper _ _
  · exact calm_callHelper _ _
  · exact .pure _

theorem calm_release (r : Rep) (v : Operand) : Calm (release r v) := by
  unfold release
  split
  · exact calm_callHelper _ _
  · exact calm_callHelper _ _
  · exact calm_callHelper _ _
  · exact .pure _

theorem calm_testTag (p : Operand) (tag : Int) : Calm (testTag p tag) :=
  (calm_emitValue _).bind fun _ => (calm_emitValue _).bind fun _ => calm_emitValue _

theorem calm_defineRetain : Calm defineRetain := by
  refine (calm_defineFunc _).bind fun _ => (calm_newBlock _).bind fun inc => (calm_newBlock _).bind fun done => ?_
  refine (calm_emitValue _).bind fun _ => (calm_emitEffect _).bind fun _ => (calm_setInsert _).bind fun _ => ?_
  refine (calm_emitValue _).bind fun _ => (calm_emitValue _).bind fun _ => (calm_emitValue _).bind fun _ => ?_
  refine (calm_emitEffect _).bind fun _ => (calm_emitEffect _).bind fun _ => (calm_setInsert _).bind fun _ => ?_
  exact calm_ret _

theorem calm_defineFnHelper (name inner : String) : Calm (defineFnHelper name inner) := by
  refine (calm_defineFunc _).bind fun _ => (calm_newBlock _).bind fun check => (calm_newBlock _).bind fun call => ?_
  refine (calm_newBlock _).bind fun done => (calm_emitValue _).bind fun _ => (calm_emitEffect _).bind fun _ => ?_
  refine (calm_setInsert _).bind fun _ => (calm_testTag _ _).bind fun _ => (calm_emitEffect _).bind fun _ => ?_
  refine (calm_setInsert _).bind fun _ => (calm_callHelper _ _).bind fun _ => (calm_emitEffect _).bind fun _ => ?_
  exact (calm_setInsert _).bind fun _ => calm_ret _

theorem calm_emitDrop (tag : Operand) (free : Nat) (d : Descriptor) : Calm (emitDrop tag free d) := by
  refine (calm_newBlock _).bind fun matched => (calm_newBlock _).bind fun next =>
    (calm_emitValue _).bind fun _ => ?_
  refine (calm_emitEffect _).bind fun _ => (calm_setInsert _).bind fun _ => ?_
  refine .bind (.forM fun f _ => (calm_loadField _ _ _).bind fun _ => calm_release _ _) fun _ => ?_
  exact (calm_emitEffect _).bind fun _ => calm_setInsert _

theorem calm_defineRelease : Calm (defineRelease inp) := by
  refine (calm_defineFunc _).bind fun _ => (calm_newBlock _).bind fun dec => (calm_newBlock _).bind fun drop => ?_
  refine (calm_newBlock _).bind fun done => (calm_emitValue _).bind fun _ => (calm_emitEffect _).bind fun _ => ?_
  refine (calm_setInsert _).bind fun _ => (calm_emitValue _).bind fun _ => (calm_emitValue _).bind fun _ => ?_
  refine (calm_emitValue _).bind fun _ => (calm_emitEffect _).bind fun _ => (calm_emitValue _).bind fun _ => ?_
  refine (calm_emitEffect _).bind fun _ => (calm_setInsert _).bind fun _ => (calm_emitValue _).bind fun _ => ?_
  refine (calm_emitValue _).bind fun tag => (calm_newBlock _).bind fun free => Calm.get.bind fun s => ?_
  refine .bind (.forM fun d _ => calm_emitDrop _ _ _) fun _ => (calm_emitEffect _).bind fun _ => ?_
  refine (calm_setInsert _).bind fun _ => (calm_emitValue _).bind fun _ => (calm_emitEffect _).bind fun _ => ?_
  exact (calm_setInsert _).bind fun _ => calm_ret _

theorem calm_defineRuntime : Calm (defineRuntime inp) :=
  calm_defineRetain.bind fun _ => (calm_defineFnHelper _ _).bind fun _ => (calm_defineFnHelper _ _).bind fun _ =>
    calm_defineRelease

theorem calm_declareRuntime : Calm (declareRuntime inp) :=
  (calm_emit _).bind fun _ => (calm_declareFunc _ _).bind fun _ => (calm_declareFunc _ _).bind fun _ =>
    .forM fun _ _ => calm_declareFunc _ _

theorem calm_scopeNode (scope : Nat) : Calm (scopeNode scope) := Calm.get.bind fun _ => .pure _

theorem calm_scopeLayout (scope : Nat) : Calm (scopeLayout scope) := (calm_scopeNode scope).bind fun _ => .pure _

/-! ### Function values -/

end TypedScript.Lower
