import Mathlib.Data.List.Forall2
import Mathlib.Logic.Hydra
import TypedScript.Build.Session

/-!
# Units that are worked on at the same time

The work of a unit is a tree of steps, and in a build that is going on any unit may do its next step. What is true
of a build in whatever order the steps are done is shown of the work of a single unit: of what it asks and tells
whatever the disk answers, and of what it brings about on a disk that others change as well, as long as all keep
to the same agreement.

* `Work.Asks`: what is asked and told at all.
* `Work.Says`: what is told, in order.
* `Work.Secures`: what is brought about.
* `Session`: a build that is going on, and its steps. No build goes on forever.
* `reaches_build`: the order in which a request is carried out is one of all those that are possible.
-/

namespace TypedScript.Build

open TypedScript.Files Relation

variable {α β ε σ : Type}

/-- Asks a disk in a state. -/
abbrev Query.run [Disk (StateM σ)] (q : Query) (s : σ) : q.Answer × σ := (q.ask (m := StateM σ)).run s

namespace Work

theorem done_bind (a : α) (f : α → Work β) : (done a >>= f) = f a := rfl

theorem tell_bind (e : Event) (rest : Work α) (f : α → Work β) : (tell e rest >>= f) = tell e (rest >>= f) := rfl

theorem ask_bind (q : Query) (next : q.Answer → Work α) (f : α → Work β) :
    (ask q next >>= f) = ask q fun answer => next answer >>= f := rfl

theorem bind_done (w : Work α) : w >>= done = w := by
  induction w with
  | done a => rfl
  | tell e rest ih => rw [tell_bind, ih]
  | ask q next ih => rw [ask_bind, funext ih]

/-! ### What is asked and told -/

/-- All that is asked has `P`, and all that is told has `T`, whatever the disk answers. -/
def Asks (P : Query → Prop) (T : Event → Prop) : Work α → Prop
  | done _ => True
  | tell e rest => T e ∧ rest.Asks P T
  | ask q next => P q ∧ ∀ answer, (next answer).Asks P T

section

variable {P : Query → Prop} {T : Event → Prop}

theorem Asks.bind {w : Work α} {f : α → Work β} (h : w.Asks P T) (hf : ∀ a, (f a).Asks P T) :
    (w >>= f).Asks P T := by
  induction w with
  | done a => exact hf a
  | tell e rest ih => exact ⟨h.1, ih h.2⟩
  | ask q next ih => exact ⟨h.1, fun answer => ih answer (h.2 answer)⟩

theorem Asks.bindExcept {w : ExceptT ε Work α} {f : α → ExceptT ε Work β} (h : w.run.Asks P T)
    (hf : ∀ a, (f a).run.Asks P T) :
    (w >>= f).run.Asks P T := by
  rw [ExceptT.run_bind]
  refine h.bind fun result => ?_
  cases result with
  | ok a => exact hf a
  | error e => trivial

theorem Asks.lift {w : Work α} (h : w.Asks P T) : (liftM w : ExceptT ε Work α).run.Asks P T :=
  h.bind fun _ => trivial

theorem asks_read (hP : ∀ path, P (.read path)) (path : String) : (readFile (m := Work) path).run.Asks P T := by
  refine ⟨hP path, fun answer => ?_⟩
  rcases answer with c | bytes
  · cases c <;> trivial
  · trivial

theorem Asks.optional {w : ExceptT ε Work PUnit} {rest : ExceptT ε Work α} {c : Prop} [Decidable c]
    (h : w.run.Asks P T) (hrest : rest.run.Asks P T) : (if c then w >>= fun _ => rest else rest).run.Asks P T := by
  split
  · exact h.bindExcept fun _ => hrest
  · exact hrest

theorem asks_makeDirs (hkind : ∀ path, P (.kind path)) (hmake : ∀ path, P (.makeDir path)) (path : String) :
    (makeDirs (m := Work) path).run.Asks P T := by
  unfold makeDirs
  generalize path.length + 1 = fuel
  induction fuel generalizing path with
  | zero => trivial
  | succ fuel ih =>
    refine ⟨hkind path, fun answer => ?_⟩
    rcases answer with c | (_ | _)
    · refine (ih _).optional ⟨hmake path, fun answer => ?_⟩
      rcases answer with c | _
      · refine ⟨hkind path, fun answer => ?_⟩
        rcases answer with c' | (_ | _) <;> trivial
      · trivial
    · trivial
    · trivial

theorem asks_writeFile {path : String} {bytes : List UInt8} (hwrite : P (.write path bytes)) :
    (writeFile (m := Work) path bytes).run.Asks P T := by
  refine ⟨hwrite, fun answer => ?_⟩
  cases answer <;> trivial

theorem Asks.adapt {ε' : Type} {w : ExceptT ε' Work α} (h : w.run.Asks P T) (f : ε' → ε) :
    (w.adapt f).run.Asks P T := by
  refine Asks.bind h fun result => ?_
  trivial

theorem asks_writeModule (hkind : ∀ path, P (.kind path)) (hmake : ∀ path, P (.makeDir path)) {path ir : String}
    (hwrite : P (.write path (Text.encode ir))) : (writeModule path ir).run.Asks P T :=
  ((asks_makeDirs hkind hmake _).adapt _).bindExcept fun _ => (asks_writeFile hwrite).adapt _

theorem asks_get? (hread : ∀ path, P (.read path)) (c : Cache) (codec : Codec) (key : List UInt8) :
    (c.get? (m := Work) codec key).Asks P T := by
  refine Asks.bind (w := Disk.read (c.pathOf key)) ⟨hread _, fun _ => trivial⟩ fun answer => ?_
  cases answer with
  | error cause => trivial
  | ok bytes =>
    dsimp only
    cases codec.decode? bytes <;> trivial

theorem asks_put (hkind : ∀ path, P (.kind path)) (hmake : ∀ path, P (.makeDir path)) {c : Cache} {codec : Codec}
    {key : List UInt8} {p : Payload} (hwrite : P (.write (c.pathOf key) (codec.encode (c.sign p)))) :
    (c.put (m := Work) codec key p).Asks P T := by
  refine (asks_makeDirs hkind hmake _).bind fun result => ?_
  cases result with
  | error f => trivial
  | ok _ => exact ⟨hwrite, fun _ => trivial⟩

end

/-! ### What is told -/

/-- Only the unit of a name is told of. What was told has `E` as long as the work is not over, and at its end what
was told and what came of the work have `Q`. -/
def Says (name : String) (E : List Event → Prop) (Q : List Event → α → Prop) : Work α → List Event → Prop
  | done a, es => Q es a
  | tell e rest, es => E es ∧ e.file = name ∧ rest.Says name E Q (es ++ [e])
  | ask _ next, es => E es ∧ ∀ answer, (next answer).Says name E Q es

section

variable {name : String} {E : List Event → Prop} {Q : List Event → α → Prop} {es : List Event}

theorem says_bind {Q : List Event → β → Prop} (w : Work α) (f : α → Work β) :
    (w >>= f).Says name E Q es ↔ w.Says name E (fun es a => (f a).Says name E Q es) es := by
  induction w generalizing es with
  | done a => rfl
  | tell e rest ih => exact and_congr_right fun _ => and_congr_right fun _ => ih
  | ask q next ih => exact and_congr_right fun _ => forall_congr' fun answer => ih answer

theorem says_liftM {Q : List Event → Except ε α → Prop} (w : Work α) :
    (liftM w : ExceptT ε Work α).run.Says name E Q es ↔ w.Says name E (fun es a => Q es (.ok a)) es := says_bind w _

theorem says_liftM_bind {Q : List Event → Except ε β → Prop} (w : Work α) (f : α → ExceptT ε Work β) :
    ((liftM w : ExceptT ε Work α) >>= f).run.Says name E Q es ↔ w.Says name E
    (fun es a => (f a).run.Says name E Q es) es := by
  rw [ExceptT.run_bind, says_bind, says_liftM]

theorem Says.imp {Q' : List Event → α → Prop} {w : Work α} (h : w.Says name E Q es)
    (hQ : ∀ es a, Q es a → Q' es a) :
    w.Says name E Q' es := by
  induction w generalizing es with
  | done a => exact hQ es a h
  | tell e rest ih => exact ⟨h.1, h.2.1, ih h.2.2⟩
  | ask q next ih => exact ⟨h.1, fun answer => ih answer (h.2 answer)⟩

/-- Work that tells nothing. -/
theorem Asks.silent {w : Work α} {P : Query → Prop} (h : w.Asks P fun _ => False) (hes : E es) (hQ : ∀ a, Q es a) :
    w.Says name E Q es := by
  induction w with
  | done a => exact hQ a
  | tell e rest ih => exact h.1.elim
  | ask q next ih => exact ⟨hes, fun answer => ih answer (h.2 answer)⟩

end

/-! ### What is brought about -/

section

variable [Disk (StateM σ)]

/-- Whatever else is done to the disk in accordance with `K`, as long as `I` holds of it, all that the work does
is in accordance with `K` and keeps `I`; and what comes of it has `Q`. -/
def Secures (I : σ → Prop) (K : σ → σ → Prop) (Q : α → σ → Prop) : Work α → σ → Prop
  | done a, s => Q a s
  | tell _ rest, s => rest.Secures I K Q s
  | ask q next, s => ∀ s', K s s' → I s' →
      I (q.run s').2 ∧ K s' (q.run s').2 ∧ (next (q.run s').1).Secures I K Q (q.run s').2

variable {I : σ → Prop} {K : σ → σ → Prop} {Q : α → σ → Prop} {s s' : σ}

theorem secures_bind {Q : β → σ → Prop} (w : Work α) (f : α → Work β) :
    (w >>= f).Secures I K Q s ↔ w.Secures I K (fun a s => (f a).Secures I K Q s) s := by
  induction w generalizing s with
  | done a => rfl
  | tell e rest ih => exact ih
  | ask q next ih =>
    refine forall_congr' fun s' => forall_congr' fun _ => forall_congr' fun _ => ?_
    exact and_congr_right fun _ => and_congr_right fun _ => ih _

theorem secures_liftM {Q : Except ε α → σ → Prop} (w : Work α) :
    (liftM w : ExceptT ε Work α).run.Secures I K Q s ↔ w.Secures I K (fun a s => Q (.ok a) s) s := secures_bind w _

theorem secures_liftM_bind {Q : Except ε β → σ → Prop} (w : Work α) (f : α → ExceptT ε Work β) :
    ((liftM w : ExceptT ε Work α) >>= f).run.Secures I K Q s ↔ w.Secures I K
    (fun a s => (f a).run.Secures I K Q s) s := by
  rw [ExceptT.run_bind, secures_bind, secures_liftM]

theorem secures_adapt {ε' : Type} {Q : Except ε α → σ → Prop} (w : ExceptT ε' Work α) (f : ε' → ε) :
    (w.adapt f).run.Secures I K Q s ↔ w.run.Secures I K (fun result s => Q (result.mapError f) s) s :=
  secures_bind w.run _

theorem Secures.imp {Q' : α → σ → Prop} {w : Work α} (h : w.Secures I K Q s) (hQ : ∀ a s, Q a s → Q' a s) :
    w.Secures I K Q' s := by
  induction w generalizing s with
  | done a => exact hQ a s h
  | tell e rest ih => exact ih h
  | ask q next ih => exact fun s' hs' hI => ⟨(h s' hs' hI).1, (h s' hs' hI).2.1, ih _ (h s' hs' hI).2.2⟩

/-- What others do meanwhile changes nothing. -/
theorem Secures.later [IsTrans σ K] {w : Work α} (h : w.Secures I K Q s) (hs : K s s') (hQ : ∀ a, Q a s → Q a s') :
    w.Secures I K Q s' := by
  induction w with
  | done a => exact hQ a h
  | tell e rest ih => exact ih h
  | ask q next ih => exact fun s'' hs'' hI => h s'' (trans_of K hs hs'') hI

/-- Work that asks only what is in accordance with the agreement. -/
theorem Asks.secures [IsTrans σ K] {w : Work α} {P : Query → Prop} {T : Event → Prop} (h : w.Asks P T)
    (hP : ∀ q, P q → ∀ s, I s → I (q.run s).2 ∧ K s (q.run s).2) (hs : K s s') (hQ : ∀ a s', K s s' → Q a s') :
    w.Secures I K Q s' := by
  induction w generalizing s' with
  | done a => exact hQ a s' hs
  | tell e rest ih => exact ih h.2 hs
  | ask q next ih =>
    intro s'' hs'' hI
    obtain ⟨hI', hK⟩ := hP q h.1 s'' hI
    exact ⟨hI', hK, ih _ (h.2 _) (trans_of K (trans_of K hs hs'') hK)⟩

end

end Work

/-! ### Builds that are going on -/

/-- A build that is going on: the disk, what was told so far, and what there is still to do for every unit. -/
structure Session (σ : Type) where
  disk : σ
  told : List Event
  works : List (Work (Except Ir.Fault Product))

namespace Session

variable [Disk (StateM σ)] {g g' : Session σ}

/-- Some unit does its next step. -/
inductive Step : Session σ → Session σ → Prop
  | tell {g : Session σ} {i : Nat} {e : Event} {rest : Work (Except Ir.Fault Product)}
      (h : g.works[i]? = some (.tell e rest)) : Step g ⟨g.disk, g.told ++ [e], g.works.set i rest⟩
  | ask {g : Session σ} {i : Nat} {q : Query} {next : q.Answer → Work (Except Ir.Fault Product)}
      (h : g.works[i]? = some (.ask q next)) :
      Step g ⟨(q.run g.disk).2, g.told, g.works.set i (next (q.run g.disk).1)⟩

end Session

/-- What there is to do for a unit. -/
def Request.work (r : Request) (p : Product) : Work (Except Ir.Fault Product) :=
  prepare r p >>= fun q => (finish r q).run

/-- It is told that a unit waits. -/
def queued (p : Product) : Event := ⟨p.display, "parse", .queued, none⟩

/-- The build as it begins, in a working directory. -/
def Request.start (r : Request) (workDir : String) (s : σ) : Session σ :=
  let products := r.files.map (r.product workDir)
  ⟨s, products.map queued, products.map r.work⟩

section

variable [Disk (StateM σ)] {g g' : Session σ}

/-- The build may be as far as that, whatever order the steps were done in. -/
def Request.Reaches (r : Request) (workDir : String) (s : σ) (g : Session σ) : Prop :=
  ReflTransGen Session.Step (r.start workDir s) g

/-! ### Builds come to an end -/

/-- The work that is left after a step. -/
inductive Work.Left : Work α → Work α → Prop
  | tell (e : Event) (rest : Work α) : Left rest (.tell e rest)
  | ask (q : Query) (next : q.Answer → Work α) (answer : q.Answer) : Left (next answer) (.ask q next)

theorem Work.wellFounded_left : WellFounded (Work.Left (α := α)) := by
  refine ⟨fun w => ?_⟩
  induction w with
  | done a =>
    refine ⟨_, fun w h => ?_⟩
    cases h
  | tell e rest ih =>
    refine ⟨_, fun w h => ?_⟩
    cases h
    exact ih
  | ask q next ih =>
    refine ⟨_, fun w h => ?_⟩
    cases h
    exact ih _

/-- Of one unit less is left, of the others as much as before. -/
theorem Session.Step.cutExpand (h : g.Step g') :
    CutExpand Work.Left (g'.works : Multiset (Work (Except Ir.Fault Product))) g.works := by
  have hset {i : Nat} {w w' : Work (Except Ir.Fault Product)} (hw : g.works[i]? = some w) (hleft : w'.Left w) :
      CutExpand Work.Left (g.works.set i w' : Multiset (Work (Except Ir.Fault Product))) g.works := by
    obtain ⟨hi, rfl⟩ := List.getElem?_eq_some_iff.1 hw
    refine ⟨{w'}, g.works[i], fun _ ha => (Multiset.mem_singleton.1 ha) ▸ hleft, ?_⟩
    rw [← Multiset.coe_singleton, ← Multiset.coe_singleton, Multiset.coe_add, Multiset.coe_add, Multiset.coe_eq_coe]
    have hset := (List.set_perm_cons_eraseIdx hi w').append_right [g.works[i]]
    have hget := (List.getElem_cons_eraseIdx_perm hi).append_right [w']
    refine hset.trans (List.Perm.trans ?_ hget)
    exact (List.perm_append_singleton _ _).trans
      ((List.Perm.swap _ _ _).trans (List.perm_append_singleton _ _).symm)
  cases h with
  | tell h => exact hset h (.tell _ _)
  | ask h => exact hset h (.ask _ _ _)

/-- No build goes on forever. -/
theorem Session.wellFounded_step : WellFounded fun g' g : Session σ => g.Step g' :=
  Subrelation.wf (fun h => Session.Step.cutExpand h) (InvImage.wf _ Work.wellFounded_left.cutExpand)

/-- A build goes on until all of its units are over. -/
theorem Session.exists_step (h : ∀ g', ¬ g.Step g') : ∀ w ∈ g.works, ∃ result, w = .done result := by
  intro w hw
  obtain ⟨i, hi⟩ := List.mem_iff_getElem?.1 hw
  cases w with
  | done result => exact ⟨result, rfl⟩
  | tell e rest => exact absurd (.tell hi) (h _)
  | ask q next => exact absurd (.ask hi) (h _)

/-! ### What all units keep to -/

/-- Each unit has its own work, and `S` holds of both. -/
structure Session.Each (S : Product → Work (Except Ir.Fault Product) → Prop) (ps : List Product)
    (works : List (Work (Except Ir.Fault Product))) : Prop where
  length : works.length = ps.length
  works : ∀ (i : Nat) (p : Product) (w : Work (Except Ir.Fault Product)), ps[i]? = some p →
    works[i]? = some w → S p w

section

variable {ps : List Product} {S S' : Product → Work (Except Ir.Fault Product) → Prop}
  {works : List (Work (Except Ir.Fault Product))}

theorem Session.Each.exists_product (h : Session.Each S ps works) {i : Nat} {w : Work (Except Ir.Fault Product)}
    (hw : works[i]? = some w) : ∃ p, ps[i]? = some p ∧ S p w := by
  have hi : i < ps.length := h.length ▸ (List.getElem?_eq_some_iff.1 hw).1
  have hp : ps[i]? = some ps[i] := List.getElem?_eq_getElem hi
  exact ⟨_, hp, h.works i _ w hp hw⟩

/-- One unit does a step, and for the others things may change, too. -/
theorem Session.Each.set (h : Session.Each S ps works) {i : Nat} {p : Product} {w : Work (Except Ir.Fault Product)}
    (hp : ps[i]? = some p) (hw : S' p w)
    (hothers : ∀ j p' w', j ≠ i → ps[j]? = some p' → S p' w' → S' p' w') : Session.Each S' ps (works.set i w) := by
  refine ⟨List.length_set.trans h.length, fun j p' w' hp' hw' => ?_⟩
  rw [List.getElem?_set] at hw'
  split at hw'
  · rename_i hij
    subst hij
    obtain rfl := Option.some.inj (hp.symm.trans hp')
    split at hw'
    · exact Option.some.inj hw' ▸ hw
    · cases hw'
  · exact hothers j p' w' (Ne.symm ‹_›) hp' (h.works j p' w' hp' hw')

theorem Session.each_map {f : Product → Work (Except Ir.Fault Product)} (h : ∀ p ∈ ps, S p (f p)) :
    Session.Each S ps (ps.map f) := by
  refine ⟨List.length_map f, fun i p w hp hw => ?_⟩
  rw [List.getElem?_map, hp, Option.map_some] at hw
  exact Option.some.inj hw ▸ h p (List.mem_of_getElem? hp)

end

section

variable {ps : List Product} {I : σ → Prop} {K : σ → σ → Prop} {Q : Product → Except Ir.Fault Product → σ → Prop}

/-- If the work of every unit keeps to the agreement and counts on the others to do so, what each of them secures
is secured by the build, whatever order the steps are done in. -/
theorem Session.secures_of_steps [Std.Refl K] [IsTrans σ K]
    (hstays : ∀ s s', K s s' → ∀ p result, Q p result s → Q p result s')
    (hsteps : ReflTransGen Session.Step g g') (hI : I g.disk)
    (h : Session.Each (fun p w => w.Secures I K (Q p) g.disk) ps g.works) :
    I g'.disk ∧ Session.Each (fun p w => w.Secures I K (Q p) g'.disk) ps g'.works := by
  induction hsteps with
  | refl => exact ⟨hI, h⟩
  | tail _ hstep ih =>
    obtain ⟨hI, h⟩ := ih
    cases hstep with
    | tell hi =>
      obtain ⟨p, hp, hw⟩ := h.exists_product hi
      exact ⟨hI, h.set hp hw fun _ _ _ _ _ => id⟩
    | ask hi =>
      obtain ⟨p, hp, hw⟩ := h.exists_product hi
      obtain ⟨hI', hK, hnext⟩ := hw _ (refl_of K _) hI
      exact ⟨hI', h.set hp hnext fun _ p' _ _ _ hw' => hw'.later hK fun result => hstays _ _ hK p' result⟩

end

section

variable {ps : List Product} {E : Product → List Event → Prop}
    {Q : Product → List Event → Except Ir.Fault Product → Prop}

/-- It was told that the unit waits, and then `es`; what is to come is known. -/
def Session.Tells (E : Product → List Event → Prop) (Q : Product → List Event → Except Ir.Fault Product → Prop)
    (told : List Event) (p : Product) (w : Work (Except Ir.Fault Product)) : Prop :=
  ∃ es, told.filter (·.file = p.display) = queued p :: es ∧ w.Says p.display (E p) (Q p) es

/-- What is told of units with different names can be told apart, whatever order the steps are done in. -/
theorem Session.tells_of_steps (hapart : (ps.map (·.display)).Nodup) (hsteps : ReflTransGen Session.Step g g')
    (h : Session.Each (Session.Tells E Q g.told) ps g.works) : Session.Each
    (Session.Tells E Q g'.told) ps g'.works := by
  induction hsteps with
  | refl => exact h
  | tail _ hstep ih =>
    cases hstep with
    | @tell i e rest hi =>
      obtain ⟨p, hp, es, hes, hE, hfile, hrest⟩ := ih.exists_product hi
      refine ih.set hp ⟨es ++ [e], ?_, hrest⟩ fun j p' w' hji hp' ⟨es', hes', hw'⟩ => ⟨es', ?_, hw'⟩
      · have hsingle : [e].filter (·.file = p.display) = [e] := List.filter_cons_of_pos (by simpa using hfile)
        rw [List.filter_append, hes, hsingle, List.cons_append]
      · have hne : e.file ≠ p'.display := by
          intro heq
          have hj : j < (ps.map (·.display)).length := by
            rw [List.length_map]
            exact (List.getElem?_eq_some_iff.1 hp').1
          refine hji ((List.getElem?_inj hj hapart).1 ?_)
          rw [List.getElem?_map, List.getElem?_map, hp, hp', Option.map_some, Option.map_some, ← heq, hfile]
        rw [List.filter_append, hes', List.filter_cons_of_neg (by simp [hne])]
        exact List.append_nil _
    | ask hi =>
      obtain ⟨p, hp, es, hes, -, hnext⟩ := ih.exists_product hi
      exact ih.set hp ⟨es, hes, hnext _⟩ fun _ _ _ _ _ => id

end

/-! ### The order that is chosen -/

/-- The computation does the work of some units, or ends with the fault of one. -/
def Carries {β : Type} (act : ExceptT Ir.Fault (StateT (List Event) (StateM σ)) β)
    (works : List (Work (Except Ir.Fault Product))) (rest : β → List (Work (Except Ir.Fault Product))) : Prop :=
  ∀ s told before after, ∃ result told' s', (act.run.run told).run s = ((result, told'), s') ∧
    match result with
    | .ok b => ReflTransGen Session.Step ⟨s, told, before ++ works ++ after⟩ ⟨s', told', before ++ rest b ++ after⟩
    | .error f => ∃ works', .done (.error f) ∈ works' ∧
      ReflTransGen Session.Step ⟨s, told, before ++ works ++ after⟩ ⟨s', told', works'⟩

section

variable {β γ : Type} {works : List (Work (Except Ir.Fault Product))}
    {k : β → List (Work (Except Ir.Fault Product))}

theorem carries_pure (b : β) : Carries (σ := σ) (pure b) (k b) k := fun s told _ _ => ⟨.ok b, told, s, rfl, .refl⟩

theorem Carries.bind {act : ExceptT Ir.Fault (StateT (List Event) (StateM σ)) β}
    {f : β → ExceptT Ir.Fault (StateT (List Event) (StateM σ)) γ} {k' : γ → List (Work (Except Ir.Fault Product))}
    (h : Carries act works k) (hf : ∀ b, Carries (f b) (k b) k') : Carries (act >>= f) works k' := by
  intro s told before after
  obtain ⟨result, told₁, s₁, hrun, hsteps⟩ := h s told before after
  rw [ExceptT.run_bind, StateT.run_bind, StateT.run_bind, hrun]
  cases result with
  | error e => exact ⟨.error e, told₁, s₁, rfl, hsteps⟩
  | ok b =>
    obtain ⟨result, told₂, s₂, hrun', hsteps'⟩ := hf b s₁ told₁ before after
    refine ⟨result, told₂, s₂, hrun', ?_⟩
    cases result with
    | error e => exact hsteps'.imp fun _ h => ⟨h.1, hsteps.trans h.2⟩
    | ok c => exact hsteps.trans hsteps'

/-- The other units are left alone. -/
theorem Carries.frame {act : ExceptT Ir.Fault (StateT (List Event) (StateM σ)) β} (h : Carries act works k)
    (left right : List (Work (Except Ir.Fault Product))) :
    Carries act (left ++ works ++ right) fun b => left ++ k b ++ right := by
  intro s told before after
  have hframe (ws : List (Work (Except Ir.Fault Product))) :
      before ++ (left ++ ws ++ right) ++ after = (before ++ left) ++ ws ++ (right ++ after) := by simp
  simp only [hframe]
  exact h s told (before ++ left) (right ++ after)

theorem Carries.mapM {f : β → ExceptT Ir.Fault (StateT (List Event) (StateM σ)) γ}
    {w : β → List (Work (Except Ir.Fault Product))} {w' : γ → List (Work (Except Ir.Fault Product))}
    (h : ∀ b, Carries (f b) (w b) w') (bs : List β) :
    Carries (bs.mapM f) (bs.flatMap w) fun cs => cs.flatMap w' := by
  induction bs with
  | nil => exact carries_pure (k := fun cs : List γ => cs.flatMap w') []
  | cons b bs ih =>
    rw [List.mapM_cons, List.flatMap_cons]
    refine ((h b).frame [] (bs.flatMap w)).bind fun c => ?_
    refine Carries.bind (k := fun cs => w' c ++ cs.flatMap w') ?_ fun cs => ?_
    · have hrest := ih.frame (w' c) []
      simp only [List.append_nil, List.nil_append] at hrest ⊢
      exact hrest
    · exact carries_pure (k := fun cs : List γ => cs.flatMap w') (c :: cs)

/-- One unit is worked on for a while. -/
theorem steps_perform {w : Work α} {k : α → Work (Except Ir.Fault Product)} {i : Nat}
    (h : g.works[i]? = some (w >>= k)) :
    ∃ a told' s', ((w.perform (m := StateM σ)).run g.told).run g.disk = ((a, told'), s') ∧
      ReflTransGen Session.Step g ⟨s', told', g.works.set i (k a)⟩ := by
  have hi := (List.getElem?_eq_some_iff.1 h).1
  have hset (ws : List (Work (Except Ir.Fault Product))) (w w' : Work (Except Ir.Fault Product)) :
      (ws.set i w).set i w' = ws.set i w' := List.set_set _
  induction w generalizing g with
  | done a =>
    refine ⟨a, g.told, g.disk, rfl, ?_⟩
    obtain ⟨hi, hget⟩ := List.getElem?_eq_some_iff.1 h
    rw [Work.done_bind] at hget
    rw [← hget, List.set_getElem_self]
  | tell e rest ih =>
    obtain ⟨a, told', s', hrun, hsteps⟩ := ih (g := ⟨g.disk, g.told ++ [e], g.works.set i (rest >>= k)⟩)
      (List.getElem?_set_self hi) (by rwa [List.length_set])
    rw [hset] at hsteps
    exact ⟨a, told', s', hrun, .head (.tell h) hsteps⟩
  | ask q next ih =>
    obtain ⟨a, told', s', hrun, hsteps⟩ := ih (q.run g.disk).1
      (g := ⟨(q.run g.disk).2, g.told, g.works.set i (next (q.run g.disk).1 >>= k)⟩)
      (List.getElem?_set_self hi) (by rwa [List.length_set])
    rw [hset] at hsteps
    exact ⟨a, told', s', hrun, .head (.ask h) hsteps⟩

theorem carries_perform (w : Work α) (k : α → Work (Except Ir.Fault Product)) :
    Carries (σ := σ) (liftM (w.perform (m := StateM σ))) [w >>= k] fun a => [k a] := by
  intro s told before after
  obtain ⟨a, told', s', hrun, hsteps⟩ :=
    steps_perform (g := ⟨s, told, before ++ [w >>= k] ++ after⟩) (i := before.length)
    (w := w) (k := k) (by simp)
  refine ⟨.ok a, told', s', ?_, by simpa using hsteps⟩
  have hlift : (liftM (w.perform (m := StateM σ)) : ExceptT Ir.Fault (StateT (List Event) (StateM σ)) α).run =
      w.perform (m := StateM σ) >>= fun a => pure (.ok a) := rfl
  rw [hlift, StateT.run_bind, StateT.run_bind, hrun]
  rfl

theorem carries_result (w : Work (Except Ir.Fault Product)) :
    Carries (σ := σ) (ExceptT.mk (w.perform (m := StateM σ))) [w] fun p => [.done (.ok p)] := by
  intro s told before after
  obtain ⟨result, told', s', hrun, hsteps⟩ :=
    steps_perform (g := ⟨s, told, before ++ [w] ++ after⟩) (i := before.length)
    (w := w) (k := .done) (by simp [Work.bind_done])
  refine ⟨result, told', s', hrun, ?_⟩
  cases result with
  | ok p => simpa using hsteps
  | error f => exact ⟨_, by simp, hsteps⟩

theorem carries_buildWave (r : Request) (ps : List Product) :
    Carries (σ := σ) (buildWave r ps) (ps.map r.work) fun ps' => ps'.map fun p => .done (.ok p) := by
  unfold buildWave
  simp only [List.map_eq_flatMap]
  refine Carries.bind (k := fun qs => qs.flatMap fun q => [(finish r q).run]) ?_ fun qs => ?_
  · exact Carries.mapM (fun p => carries_perform (prepare r p) fun q => (finish r q).run) ps
  · exact Carries.mapM (fun q => carries_result (finish r q).run) qs

theorem flatten_chunks {α : Type} (n : Nat) (xs : List α) : (Digest.chunks n xs).flatten = xs := by
  fun_induction Digest.chunks n xs with
  | case1 => rfl
  | case2 x rest ih => rw [List.flatten_cons, ih, List.cons_append, List.take_append_drop]

theorem carries_waves (r : Request) (size : Nat) (ps : List Product) :
    Carries (σ := σ) ((Digest.chunks size ps).mapM (buildWave r)) (ps.map r.work) fun pss =>
      pss.flatten.map fun p => .done (.ok p) := by
  have hwaves := Carries.mapM (σ := σ) (fun ps => carries_buildWave r ps) (Digest.chunks size ps)
  simp only [← List.map_flatten, List.flatMap_def, flatten_chunks] at hwaves
  exact hwaves

omit [Disk (StateM σ)] in
theorem run_liftM {act : StateM σ α} {s s' : σ} {a : α} (h : act.run s = (a, s')) :
    (liftM act : ExceptT ε (StateM σ) α).run.run s = (.ok a, s') := by
  change ((act >>= fun a => pure (.ok a) : StateM σ (Except ε α)).run s) = _
  rw [StateT.run_bind, h]
  rfl

/-- The order in which a request is carried out is one of all those that are possible, and an outcome tells of the
build as it is in the end. -/
theorem reaches_build {r : Request} {workDir : String} {s s' : σ} {result : Except Ir.Fault Outcome}
    (hworkDir : (Disk.workDir (m := StateM σ)).run s = (workDir, s)) (hcancelled : r.isCancelled = false)
    (hrun : (r.build (m := StateM σ)).run.run s = (result, s')) : ∃ g, r.Reaches workDir s g ∧ g.disk = s' ∧
      (∀ o, result = .ok o → g.told = o.events ∧ g.works = o.products.map fun p => .done (.ok p)) ∧
      ∀ f, result = .error f → .done (.error f) ∈ g.works := by
  unfold Request.build at hrun
  split at hrun
  · rename_i hnil
    rw [List.isEmpty_iff] at hnil
    cases hrun
    refine ⟨r.start workDir s, .refl, rfl, ?_, ?_⟩
    · rintro o h
      cases h
      simp [Request.start, hnil]
    · rintro f h
      cases h
  obtain ⟨x, told', s'', hwaves, hsteps⟩ :=
    carries_waves (σ := σ) r (if r.jobs ≤ 0 then r.files.length else r.jobs.toNat)
    (r.files.map (r.product workDir)) s ((r.files.map (r.product workDir)).map queued) [] []
  simp only [List.nil_append, List.append_nil] at hsteps
  rw [ExceptT.run_bind, StateT.run_bind, run_liftM hworkDir] at hrun
  change StateT.run (ExceptT.run (if r.isCancelled = true then _ else _)) s = _ at hrun
  rw [hcancelled, if_neg Bool.false_ne_true, ExceptT.run_bind, StateT.run_bind] at hrun
  erw [run_liftM hwaves] at hrun
  cases x with
  | error f =>
    cases hrun
    obtain ⟨works, hf, hsteps⟩ := hsteps
    refine ⟨⟨_, told', works⟩, hsteps, rfl, fun o h => ?_, fun f' h => ?_⟩
    · cases h
    · cases h
      exact hf
  | ok pss =>
    have ho : result = .ok (if ({ products := pss.flatten, events := told' } : Outcome).failedCount =
      0 then _ else _) :=
      (Prod.mk.inj hrun).1.symm
    obtain rfl : s'' = s' := (Prod.mk.inj hrun).2
    refine ⟨⟨_, told', _⟩, hsteps, rfl, fun o h => ?_, fun f h => ?_⟩
    · obtain rfl := Except.ok.inj (ho.symm.trans h)
      split <;> exact ⟨rfl, rfl⟩
    · cases ho.symm.trans h

end

end

end TypedScript.Build
