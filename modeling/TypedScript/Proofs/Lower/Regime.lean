import TypedScript.Proofs.Lower.Outcome

/-!
# Regimes

What lowering does is proved computation by computation, from one point of it to a later one. A regime says what is
known at a point and how one point comes after another, and rules for sequences follow for all regimes.

* `Regime.Leads`: from a point on a computation leads to points only, and its result has a property.
* `Regime.Goes`: it moreover goes from an open block to an open block, with no block left to go to.
* `Regime.Stays`: it moreover keeps what holds of a part of the state, the only one that it changes.
* `StateRegime`: a regime whose points are the states themselves.
-/

namespace TypedScript.Lower

variable {α β : Type}

/-- How a computation is looked at: what is known at a point, and how one point comes after another. -/
structure Regime where
  World : Type
  /-- What is known at the point holds of the state. -/
  Holds : World → State → Prop
  /-- From one point to a later one. Of the scopes that were there only `own` may have changed, and the blocks
  `pending` are still to be gone to. -/
  Le : Option Nat → List Nat → World → World → Prop
  /-- The block at hand is open. -/
  Live : World → Prop
  /-- What has to be true of a state that lowering fails in. -/
  Fault : Error → State → Prop
  /-- The errors that lowering may fail with. -/
  Allowed : Error → Prop
  refl : ∀ {own w}, Le own [] w w
  trans : ∀ {own pending w w' w''}, Le own pending w w' → Le own [] w' w'' → Le own pending w w''
  any : ∀ {own pending w w'}, Le none pending w w' → Le own pending w w'
  fault : ∀ {w s e}, Allowed e → Holds w s → Fault e s
  located : ∀ {e s} span, Fault e s → Fault (e.located span) s

namespace Regime

variable (F : Regime)

/-- From the point `w` on the computation leads to points only, and the result has the property. -/
def Leads (w : F.World) (act : LowerM α) (R : F.World → α → Prop) : Prop :=
  ∀ s, F.Holds w s → (∀ a s', Runs act s a s' → ∃ w', F.Holds w' s' ∧ R w' a) ∧
    ∀ e s', Fails act s e s' → F.Fault e s'

/-- From an open block the computation leads on to an open block, and no block is left that was not gone to. -/
def Goes (own : Option Nat) (w : F.World) (act : LowerM α) (Q : F.World → α → Prop) : Prop :=
  F.Live w → F.Leads w act fun w' a => F.Le own [] w w' ∧ F.Live w' ∧ Q w' a

end Regime

namespace Regime.Leads

variable {F : Regime} {w : F.World} {act : LowerM α} {Q Q' : F.World → α → Prop} {R : F.World → β → Prop}

theorem imp (h : F.Leads w act Q) (hQ : ∀ w' a, Q w' a → Q' w' a) : F.Leads w act Q' := by
  intro s hs
  refine ⟨fun a s' hrun => ?_, (h s hs).2⟩
  obtain ⟨w', hs', hq⟩ := (h s hs).1 a s' hrun
  exact ⟨w', hs', hQ w' a hq⟩

theorem bind {f : α → LowerM β} (h : F.Leads w act Q) (hf : ∀ w' a, Q w' a → F.Leads w' (f a) R) :
    F.Leads w (act >>= f) R := by
  intro s hs
  obtain ⟨hrun, hfail⟩ := h s hs
  constructor
  · intro b s' hr
    obtain ⟨a, t, hact, hrest⟩ := runs_bind.1 hr
    obtain ⟨w₁, ht, hq⟩ := hrun a t hact
    exact (hf w₁ a hq t ht).1 b s' hrest
  · intro e s' hf'
    rcases fails_bind.1 hf' with hact | ⟨a, t, hact, hrest⟩
    · exact hfail e s' hact
    · obtain ⟨w₁, ht, hq⟩ := hrun a t hact
      exact (hf w₁ a hq t ht).2 e s' hrest

theorem pure {a : α} (h : Q w a) : F.Leads w (pure a) Q := by
  intro s hs
  refine ⟨fun b s' hrun => ?_, fun e s' hf => (not_fails_pure hf).elim⟩
  obtain ⟨rfl, rfl⟩ := runs_pure.1 hrun
  exact ⟨w, hs, h⟩

theorem throw {e : Error} (he : F.Allowed e) : F.Leads w (throw e : LowerM α) Q := by
  intro s hs
  refine ⟨fun a s' hrun => (runs_throw hrun).elim, fun e' s' hf => ?_⟩
  obtain ⟨rfl, rfl⟩ := fails_throw.1 hf
  exact F.fault he hs

/-- The state is read. -/
theorem read {f : State → LowerM β} (h : ∀ s, F.Holds w s → F.Leads w (f s) R) : F.Leads w (get >>= f) R := by
  intro s hs
  constructor
  · intro b s' hrun
    obtain ⟨t, t', hget, hrest⟩ := runs_bind.1 hrun
    obtain ⟨rfl, rfl⟩ := runs_get.1 hget
    exact (h _ hs _ hs).1 b s' hrest
  · intro e s' hf
    rcases fails_bind.1 hf with hget | ⟨t, t', hget, hrest⟩
    · exact (not_fails_get hget).elim
    · obtain ⟨rfl, rfl⟩ := runs_get.1 hget
      exact (h _ hs _ hs).2 e s' hrest

theorem locate {span : Source.Span} (h : F.Leads w act Q) : F.Leads w (locate span act) Q := by
  intro s hs
  refine ⟨fun a s' hrun => (h s hs).1 a s' (runs_locate.1 hrun), fun e s' hf => ?_⟩
  obtain ⟨e₀, hact, rfl⟩ := fails_locate hf
  exact F.located span ((h s hs).2 e₀ s' hact)

/-- One of two steps is made. -/
theorem either {c : Prop} [Decidable c] {act' : LowerM α} {k : α → LowerM β} (h : F.Leads w act Q)
    (h' : F.Leads w act' Q) (hk : ∀ w' a, Q w' a → F.Leads w' (k a) R) :
    F.Leads w (if c then act >>= k else act' >>= k) R := by
  split
  · exact h.bind hk
  · exact h'.bind hk

/-- Whatever is known of runs is known after them. -/
theorem runs (h : F.Leads w act Q) {P : α → Prop} (hP : ∀ s a s', Runs act s a s' → P a) :
    F.Leads w act fun w' a => Q w' a ∧ P a := by
  intro s hs
  refine ⟨fun a s' hrun => ?_, (h s hs).2⟩
  obtain ⟨w', hs', hq⟩ := (h s hs).1 a s' hrun
  exact ⟨w', hs', hq, hP s a s' hrun⟩

/-- What the state tells of the point may be used. -/
theorem of_holds (h : ∀ s, F.Holds w s → F.Leads w act Q) : F.Leads w act Q := fun s hs => h s hs s hs

end Regime.Leads

namespace Regime.Goes

variable {F : Regime} {own : Option Nat} {w : F.World} {act : LowerM α} {Q Q' : F.World → α → Prop}
variable {R : F.World → β → Prop}

theorem imp (h : F.Goes own w act Q) (hQ : ∀ w' a, F.Le own [] w w' → Q w' a → Q' w' a) : F.Goes own w act Q' :=
  fun hw => Leads.imp (h hw) fun w' a ⟨hl, hlive, hq⟩ => ⟨hl, hlive, hQ w' a hl hq⟩

theorem bind {f : α → LowerM β} (h : F.Goes own w act Q)
    (hf : ∀ w' a, F.Le own [] w w' → Q w' a → F.Goes own w' (f a) R) : F.Goes own w (act >>= f) R :=
  fun hw => Leads.bind (h hw) fun w' a ⟨hl, hlive, hq⟩ =>
    Leads.imp (hf w' a hl hq hlive) fun _ _ ⟨hl', hlive', hr⟩ => ⟨F.trans hl hl', hlive', hr⟩

/-- What changes no scope may be part of what changes one. -/
theorem any (h : F.Goes none w act Q) : F.Goes own w act fun w' a => F.Le none [] w w' ∧ Q w' a :=
  fun hw => Leads.imp (h hw) fun _ _ ⟨hl, hlive, hq⟩ => ⟨F.any hl, hlive, hl, hq⟩

theorem pure {a : α} (h : Q w a) : F.Goes own w (pure a) Q := fun hw => .pure ⟨F.refl, hw, h⟩

theorem throw {e : Error} (he : F.Allowed e) : F.Goes own w (throw e : LowerM α) Q := fun _ => .throw he

theorem read {f : State → LowerM β} (h : ∀ s, F.Holds w s → F.Goes own w (f s) R) : F.Goes own w (get >>= f) R :=
  fun hw => .read fun s hs => h s hs hw

theorem locate {span : Source.Span} (h : F.Goes own w act Q) : F.Goes own w (locate span act) Q :=
  fun hw => .locate (h hw)

theorem runs (h : F.Goes own w act Q) {P : α → Prop} (hP : ∀ s a s', Runs act s a s' → P a) :
    F.Goes own w act fun w' a => Q w' a ∧ P a :=
  fun hw => Leads.imp (Leads.runs (h hw) hP) fun _ _ ⟨⟨hl, hlive, hq⟩, hp⟩ => ⟨hl, hlive, hq, hp⟩

theorem of_holds (h : ∀ s, F.Holds w s → F.Goes own w act Q) : F.Goes own w act Q :=
  fun hw => .of_holds fun s hs => h s hs hw

/-- A step that is made under a condition. -/
theorem when {c : Prop} [Decidable c] {k : LowerM β} (h : c → F.Goes own w act fun _ _ => True)
    (hk : ∀ w', F.Le own [] w w' → F.Goes own w' k R) : F.Goes own w (if c then act >>= fun _ => k else k) R := by
  split
  · rename_i hc
    exact (h hc).bind fun w' _ hl _ => hk w' hl
  · exact hk w F.refl

/-- One of two steps is made. -/
theorem either {c : Prop} [Decidable c] {act' : LowerM α} {k : α → LowerM β} (h : F.Goes own w act Q)
    (h' : F.Goes own w act' Q) (hk : ∀ w' a, F.Le own [] w w' → Q w' a → F.Goes own w' (k a) R) :
    F.Goes own w (if c then act >>= k else act' >>= k) R := by
  split
  · exact h.bind hk
  · exact h'.bind hk

/-- The induction is on the list; `I` is what each step keeps. -/
theorem forM {I : F.World → Prop} {f : β → LowerM PUnit} {xs : List β} (hw : I w)
    (h : ∀ x ∈ xs, ∀ w', F.Le own [] w w' → I w' → F.Goes own w' (f x) fun w'' _ => I w'') :
    F.Goes own w (xs.forM f) fun w' _ => I w' := by
  induction xs generalizing w with
  | nil => exact pure hw
  | cons x xs ih =>
    refine (h x List.mem_cons_self w F.refl hw).bind fun w₁ _ hl hw₁ => ih hw₁ fun y hy w₂ hl' hw₂ => ?_
    exact h y (List.mem_cons_of_mem x hy) w₂ (F.trans hl hl') hw₂

theorem mapM {I : F.World → Prop} {f : β → LowerM α} {xs : List β} (hw : I w)
    (hmono : ∀ w₁ w₂ a, F.Le own [] w₁ w₂ → Q w₁ a → Q w₂ a)
    (h : ∀ x ∈ xs, ∀ w', F.Le own [] w w' → I w' → F.Goes own w' (f x) fun w'' a => I w'' ∧ Q w'' a) :
    F.Goes own w (xs.mapM f) fun w' as => I w' ∧ ∀ a ∈ as, Q w' a := by
  induction xs generalizing w with
  | nil =>
    rw [List.mapM_nil]
    exact pure ⟨hw, fun a ha => absurd ha List.not_mem_nil⟩
  | cons x xs ih =>
    rw [List.mapM_cons]
    refine (h x List.mem_cons_self w F.refl hw).bind fun w₁ a hl ⟨hw₁, ha⟩ => ?_
    refine (ih hw₁ fun y hy w₂ hl' hw₂ => ?_).bind fun w₂ as hl' ⟨hw₂, has⟩ => pure ⟨hw₂, fun b hb => ?_⟩
    · exact h y (List.mem_cons_of_mem x hy) w₂ (F.trans hl hl') hw₂
    · rcases List.mem_cons.1 hb with rfl | hb
      · exact hmono w₁ w₂ b hl' ha
      · exact has b hb

theorem foldlM {f : α → β → LowerM α} {xs : List β} {a : α} (ha : Q w a)
    (h : ∀ a x w', Q w' a → F.Goes own w' (f a x) Q) : F.Goes own w (xs.foldlM f a) Q := by
  induction xs generalizing w a with
  | nil => exact pure ha
  | cons x xs ih =>
    rw [List.foldlM_cons]
    exact (h a x w ha).bind fun _ _ _ hb => ih hb

end Regime.Goes

/-! ### Computations that keep to a part of the state -/

/-- A part of the state, of which something holds as long as the part is not changed. -/
structure Regime.Part (F : Regime) where
  Kept : F.World → Prop
  own : Option Nat
  kept_of_le : ∀ {w w'}, F.Le none [] w w' → Kept w → Kept w'

/-- The computation changes no part of the state but this one, and keeps what holds of it. -/
def Regime.Stays (F : Regime) (P : F.Part) (w : F.World) (act : LowerM α) (Q : F.World → α → Prop) : Prop :=
  P.Kept w → F.Goes P.own w act fun w' a => P.Kept w' ∧ Q w' a

namespace Regime.Stays

variable {F : Regime} {P : F.Part} {w : F.World} {act : LowerM α} {Q Q' : F.World → α → Prop}
variable {R : F.World → β → Prop}

theorem imp (h : F.Stays P w act Q) (hQ : ∀ w' a, F.Le P.own [] w w' → Q w' a → Q' w' a) : F.Stays P w act Q' :=
  fun hw => (h hw).imp fun w' a hl hq => ⟨hq.1, hQ w' a hl hq.2⟩

theorem bind {f : α → LowerM β} (h : F.Stays P w act Q)
    (hf : ∀ w' a, F.Le P.own [] w w' → Q w' a → F.Stays P w' (f a) R) : F.Stays P w (act >>= f) R :=
  fun hw => (h hw).bind fun w' a hl hq => hf w' a hl hq.2 hq.1

/-- A computation that changes no part of the state that something is held of. -/
theorem of_goes (h : P.Kept w → F.Goes none w act Q) : F.Stays P w act Q :=
  fun hw => (h hw).any.imp fun _ _ _ hq => ⟨P.kept_of_le hq.1 hw, hq.2⟩

/-- A step that changes no part of the state that something is held of. -/
theorem step {f : α → LowerM β} (h : F.Goes none w act Q)
    (hf : ∀ w' a, F.Le none [] w w' → Q w' a → F.Stays P w' (f a) R) : F.Stays P w (act >>= f) R :=
  fun hw => h.any.bind fun w' a _ hq => hf w' a hq.1 hq.2 (P.kept_of_le hq.1 hw)

theorem pure {a : α} (h : Q w a) : F.Stays P w (pure a) Q := fun hw => .pure ⟨hw, h⟩

theorem throw {e : Error} (he : F.Allowed e) : F.Stays P w (throw e : LowerM α) Q := fun _ => .throw he

theorem read {f : State → LowerM β} (h : ∀ s, F.Holds w s → F.Stays P w (f s) R) : F.Stays P w (get >>= f) R :=
  fun hw => .read fun s hs => h s hs hw

/-- What holds may be used. -/
theorem of_kept (h : P.Kept w → F.Stays P w act Q) : F.Stays P w act Q := fun hw => h hw hw

theorem when {c : Prop} [Decidable c] {k : LowerM β} (h : c → F.Stays P w act fun _ _ => True)
    (hk : ∀ w', F.Le P.own [] w w' → F.Stays P w' k R) :
    F.Stays P w (if c then act >>= fun _ => k else k) R := by
  split
  · rename_i hc
    exact (h hc).bind fun w' _ hl _ => hk w' hl
  · exact hk w F.refl

theorem forM {f : β → LowerM PUnit} {xs : List β}
    (h : ∀ x ∈ xs, ∀ w', F.Le P.own [] w w' → F.Stays P w' (f x) fun _ _ => True) :
    F.Stays P w (xs.forM f) fun _ _ => True := by
  intro hw
  refine (Goes.forM (I := P.Kept) hw fun x hx w' hl hw' => ?_).imp fun _ _ _ hw' => ⟨hw', trivial⟩
  exact (h x hx w' hl hw').imp fun _ _ _ hq => hq.1

theorem mapM {f : β → LowerM α} {xs : List β}
    (hmono : ∀ w₁ w₂ a, F.Le P.own [] w₁ w₂ → Q w₁ a → Q w₂ a)
    (h : ∀ x ∈ xs, ∀ w', F.Le P.own [] w w' → F.Stays P w' (f x) Q) :
    F.Stays P w (xs.mapM f) fun w' as => ∀ a ∈ as, Q w' a :=
  fun hw => Goes.mapM (I := P.Kept) hw hmono fun x hx w' hl hw' => h x hx w' hl hw'

end Regime.Stays

/-! ### Regimes of states -/

/-- A regime whose points are the states in which something holds. -/
structure StateRegime where
  Inv : State → Prop
  Le : Option Nat → List Nat → State → State → Prop
  Live : State → Prop
  Fault : Error → State → Prop
  Allowed : Error → Prop
  refl : ∀ {own s}, Le own [] s s
  trans : ∀ {own pending s s' s''}, Le own pending s s' → Le own [] s' s'' → Le own pending s s''
  any : ∀ {own pending s s'}, Le none pending s s' → Le own pending s s'
  fault : ∀ {s e}, Allowed e → Inv s → Fault e s
  located : ∀ {e s} span, Fault e s → Fault (e.located span) s

/-- The points are the states. -/
@[reducible]
def StateRegime.toRegime (S : StateRegime) : Regime where
  World := State
  Holds w s := w = s ∧ S.Inv s
  Le := S.Le
  Live := S.Live
  Fault := S.Fault
  Allowed := S.Allowed
  refl := S.refl
  trans := S.trans
  any := S.any
  fault h hs := S.fault h hs.2
  located := S.located

namespace StateRegime

variable {S : StateRegime} {own : Option Nat} {s : State} {act : LowerM α} {Q : State → α → Prop}
variable {R : State → β → Prop}

theorem leads_of (h : S.Inv s → (∀ a s', Runs act s a s' → S.Inv s' ∧ Q s' a) ∧
    ∀ e s', Fails act s e s' → S.Fault e s') : S.toRegime.Leads s act Q := by
  rintro _ ⟨rfl, hs⟩
  refine ⟨fun a s' hrun => ?_, (h hs).2⟩
  obtain ⟨hs', hq⟩ := (h hs).1 a s' hrun
  exact ⟨s', ⟨rfl, hs'⟩, hq⟩

theorem run (h : S.toRegime.Leads s act Q) (hs : S.Inv s) {a : α} {s' : State} (hrun : Runs act s a s') :
    S.Inv s' ∧ Q s' a := by
  obtain ⟨_, ⟨rfl, hs'⟩, hq⟩ := (h s ⟨rfl, hs⟩).1 a s' hrun
  exact ⟨hs', hq⟩

theorem fails (h : S.toRegime.Leads s act Q) (hs : S.Inv s) {e : Error} {s' : State} (hf : Fails act s e s') :
    S.Fault e s' := (h s ⟨rfl, hs⟩).2 e s' hf

end StateRegime

/-- The state is read. -/
theorem Regime.Leads.here {S : StateRegime} {s : State} {f : State → LowerM β} {R : State → β → Prop}
    (h : S.toRegime.Leads s (f s) R) : S.toRegime.Leads s (get >>= f) R :=
  .read fun _ hs => hs.1 ▸ h

/-- What is known of the state may be used. -/
theorem Regime.Leads.of_inv {S : StateRegime} {s : State} {act : LowerM α} {Q : State → α → Prop}
    (h : S.Inv s → S.toRegime.Leads s act Q) : S.toRegime.Leads s act Q :=
  .of_holds fun _ hs => h (hs.1 ▸ hs.2)

namespace Regime.Goes

variable {S : StateRegime} {own : Option Nat} {s : State} {act : LowerM α} {Q : State → α → Prop}

theorem here {f : State → LowerM β} {R : State → β → Prop} (h : S.toRegime.Goes own s (f s) R) :
    S.toRegime.Goes own s (get >>= f) R := fun hlive => .here (h hlive)

theorem of_inv (h : S.Inv s → S.toRegime.Goes own s act Q) : S.toRegime.Goes own s act Q :=
  fun hlive => .of_inv fun hs => h hs hlive

/-- A change of the state. -/
theorem change {f : State → State} {Q : State → Unit → Prop} (h : S.Inv s → S.Inv (f s)) (hl : S.Le own [] s (f s))
    (hlive : S.Live s → S.Live (f s)) (hQ : Q (f s) ()) : S.toRegime.Goes own s (modify f) Q := by
  refine fun hopen => StateRegime.leads_of fun hs =>
    ⟨fun a s' hrun => ?_, fun e s' hf => (not_fails_modify hf).elim⟩
  obtain rfl := runs_modify.1 hrun
  exact ⟨h hs, hl, hlive hopen, hQ⟩

theorem changeGet {f : State → α × State} (h : S.Inv s → S.Inv (f s).2) (hl : S.Le own [] s (f s).2)
    (hlive : S.Live s → S.Live (f s).2) (hQ : Q (f s).2 (f s).1) : S.toRegime.Goes own s (modifyGet f) Q := by
  refine fun hopen => StateRegime.leads_of fun hs =>
    ⟨fun a s' hrun => ?_, fun e s' hf => (not_fails_modifyGet hf).elim⟩
  obtain ⟨rfl, rfl⟩ := runs_modifyGet.1 hrun
  exact ⟨h hs, hl, hlive hopen, hQ⟩

end Regime.Goes

theorem Regime.Stays.here {S : StateRegime} {P : S.toRegime.Part} {s : State} {f : State → LowerM β}
    {R : State → β → Prop} (h : S.toRegime.Stays P s (f s) R) : S.toRegime.Stays P s (get >>= f) R :=
  fun hs => .here (h hs)

end TypedScript.Lower
