import TypedScript.Proofs.Build.Work

/-!
# Units of a build

While a unit is compiled, it tells which phases are begun, and last that a phase has failed if one has. What comes
of it does not depend on its being told.

* `Narrates`: what is told of a compilation.
* `error_of_compile`: nothing but the file is to blame if a compilation fails.
* `compileProduct_eq`: what compiling does to a unit.
-/

/-! ### Compilations -/

namespace TypedScript.Compile

variable {o : Options} {u u' : Unit} {files : Source.FileSet} {file : Source.File}

theorem error_of_lowerUnit {inp : Lower.Input} (h : lowerUnit o u inp = .ok u') : u'.error = u.error := by
  unfold lowerUnit at h
  dsimp only at h
  cases hcode : (emptyCode o u.path).applyAll
    (Lower.lower inp (Layout.Target.ofTriple o.triple)).state.commands with
  | error e =>
    rw [hcode] at h
    cases h
  | ok code =>
    rw [hcode] at h
    cases herror : (Lower.lower inp (Layout.Target.ofTriple o.triple)).error with
    | none =>
      simp only [herror] at h
      cases h
      rfl
    | some e => cases e <;> simp only [herror] at h <;> cases h <;> rfl

theorem same_of_emitUnit (h : emitUnit u = .ok u') : u'.failed = u.failed ∧ u'.error = u.error := by
  unfold emitUnit at h
  split at h
  · split at h <;> cases h
    exact ⟨rfl, rfl⟩
  · cases h
    exact ⟨rfl, rfl⟩

/-- If a compilation for LLVM that is not called off fails, nothing but the file is to blame. -/
theorem error_of_compile (hbackend : o.backend = .llvm) (hcancelled : o.isCancelled = false)
    (h : compile o files file = .ok u) :
    u.error = none := by
  simp only [compile, compileWith, pure_bind, monadLift_self, ite_self, bind_pure] at h
  rw [hcancelled, hbackend, if_neg Bool.false_ne_true] at h
  obtain ⟨parsed, -, h⟩ := bounded_bind_eq_ok h
  split at h
  · cases h
    rfl
  split at h
  · cases h
    rfl
  obtain ⟨checked, -, h⟩ := bounded_bind_eq_ok h
  split at h
  · cases h
    rfl
  dsimp only at h
  generalize hlower : lowerUnit o _ _ = lowered at h
  cases lowered with
  | error f => cases h
  | ok u₁ =>
    have hlowered := error_of_lowerUnit hlower
    simp only [bind, Except.bind] at h
    split at h
    · cases h
      exact hlowered
    · exact (same_of_emitUnit h).2.trans hlowered

end TypedScript.Compile

/-! ### Telling of phases -/

namespace TypedScript.Build

open TypedScript.Ir

variable {α β : Type}

/-- The file that is compiled for a path. -/
def sourceFile (path : String) (source : List UInt8) : Source.FileSet × Source.File :=
  let (files, id) := Source.FileSet.addRaw {} path source 0
  (files, (files.get? id).getD {})

/-- Tells some events, one after another. -/
def Work.telling (es : List Event) (w : Work α) : Work α := es.foldr .tell w

namespace Work

theorem telling_append (before after : List Event) (w : Work α) :
    telling (before ++ after) w = telling before (telling after w) := List.foldr_append

theorem telling_bind (es : List Event) (w : Work α) (f : α → Work β) : telling es w >>= f = telling es
    (w >>= f) := by
  induction es with
  | nil => rfl
  | cons e es ih => exact congrArg (tell e) ih

theorem asks_telling {P : Query → Prop} {T : Event → Prop} {es : List Event} (hes : ∀ e ∈ es, T e) {w : Work α}
    (h : w.Asks P T) : (telling es w).Asks P T := by
  induction es with
  | nil => exact h
  | cons e es ih =>
    rw [List.forall_mem_cons] at hes
    exact ⟨hes.1, ih hes.2⟩

theorem secures_telling {σ : Type} [Files.Disk (StateM σ)] {I : σ → Prop} {K : σ → σ → Prop}
    {Q : α → σ → Prop} {s : σ} (es : List Event) (w : Work α) : (telling es w).Secures I K Q s ↔
    w.Secures I K Q s := by
  induction es with
  | nil => rfl
  | cons e es ih => exact ih

end Work

/-- It is told which stages of a unit are begun. -/
def Begun (name : String) (es : List Event) : Prop := ∀ e ∈ es, e.file = name ∧ e.status = .working

/-- Last it is told that the stage of a unit has failed. -/
def Broken (name : String) (es : List Event) : Prop :=
  ∃ before last, es = before ++ [last] ∧ Begun name before ∧ last.file = name ∧ last.status = .error

/-- What is told of a compilation. -/
def Spoken (name : String) (es : List Event) : Except Fault Compile.Unit → Prop
  | .ok u => if u.failed then Broken name es else Begun name es
  | .error _ => Begun name es

/-- The compilation comes to the same as one of which nothing is told, and it tells how it goes. -/
def Narrates (name : String) (x : ExceptT Fault Work Compile.Unit) (y : Except Fault Compile.Unit) : Prop :=
  ∃ es, x.run = .telling es (.done y) ∧ Spoken name es y

section

variable {p : Product} {x : Except Fault α} {y : Except Fault Compile.Unit}
    {k : α → ExceptT Fault Work Compile.Unit}
  {k' : α → Except Fault Compile.Unit}

theorem begun_nil (name : String) : Begun name [] := fun _ h => absurd h List.not_mem_nil

theorem Begun.cons {name : String} {es : List Event} (h : Begun name es) {e : Event} (hfile : e.file = name)
    (hstatus : e.status = .working) : Begun name (e :: es) := List.forall_mem_cons.2 ⟨⟨hfile, hstatus⟩, h⟩

theorem narrates_pure (name : String) {u : Compile.Unit} (h : u.failed = false) : Narrates name
    (pure u) (.ok u) := by
  refine ⟨[], rfl, ?_⟩
  rw [Spoken, h]
  exact begun_nil name

/-- A phase is begun. -/
theorem Narrates.begun {w : ExceptT Fault Work Compile.Unit} (h : Narrates p.display w y) (phase : String) :
    Narrates p.display (liftM (p.tellPhase (.begun phase)) >>= fun _ => w) y := by
  obtain ⟨es, hes, hspoken⟩ := h
  refine ⟨⟨p.display, phase, .working, none⟩ :: es, congrArg (Work.tell _) hes, ?_⟩
  cases y with
  | error f => exact Begun.cons hspoken rfl rfl
  | ok u =>
    unfold Spoken at hspoken ⊢
    dsimp only at hspoken ⊢
    split
    · rw [if_pos ‹_›] at hspoken
      obtain ⟨before, last, rfl, hbefore, hlast⟩ := hspoken
      exact ⟨_ :: before, last, rfl, hbefore.cons rfl rfl, hlast⟩
    · rw [if_neg ‹_›] at hspoken
      exact Begun.cons hspoken rfl rfl

/-- Something is done in a phase. -/
theorem narrates_step (h : ∀ a, x = .ok a → Narrates p.display (k a) (k' a)) :
    Narrates p.display ((liftM x : ExceptT Fault Work α) >>= k) (x >>= k') := by
  cases x with
  | error f => exact ⟨[], rfl, begun_nil _⟩
  | ok a => exact h a rfl

/-- A phase is over. If it has failed it was the last one. -/
theorem narrates_ended {w : ExceptT Fault Work Compile.Unit} {u : Compile.Unit} (phase : String)
    (h : u.failed = false → Narrates p.display w y) (hlast : u.failed = true → w = pure u ∧ y = .ok u) :
    Narrates p.display (liftM (p.tellPhase (.ended phase u.failed)) >>= fun _ => w) y := by
  cases hfailed : u.failed with
  | false => exact h hfailed
  | true =>
    obtain ⟨rfl, rfl⟩ := hlast hfailed
    refine ⟨[⟨p.display, phase, .error, none⟩], rfl, ?_⟩
    rw [Spoken, hfailed]
    exact ⟨[], _, rfl, begun_nil _, rfl, rfl⟩

/-- The text of a module is written if there is one. -/
theorem narrates_emitUnit {u : Compile.Unit} (h : u.failed = false) :
    Narrates p.display (do
      if u.isEmitted then liftM (p.tellPhase (.begun "emit"))
      let u ← liftM (Compile.emitUnit u)
      if u.isEmitted then liftM (p.tellPhase (.ended "emit" u.failed))
      return u) (Compile.emitUnit u) := by
  have hrest : Narrates p.display (do
      let u ← liftM (Compile.emitUnit u)
      if u.isEmitted then liftM (p.tellPhase (.ended "emit" u.failed))
      return u) (Compile.emitUnit u >>= pure) := by
    refine narrates_step fun u' hu' => ?_
    have hgood : u'.failed = false := (Compile.same_of_emitUnit hu').1.trans h
    dsimp only
    split
    · exact narrates_ended "emit" (fun _ => narrates_pure _ hgood) fun _ => ⟨rfl, rfl⟩
    · exact narrates_pure _ hgood
  rw [bind_pure] at hrest
  dsimp only at hrest ⊢
  split
  · exact hrest.begun "emit"
  · exact hrest

theorem narrates_compile (o : Compile.Options) (files : Source.FileSet) (file : Source.File) :
    Narrates p.display (Compile.compileWith (liftM ∘ p.tellPhase) o files file) (Compile.compile o files file) := by
  simp only [Compile.compile, Compile.compileWith, pure_bind, monadLift_self, ite_self, bind_pure]
  split
  · exact narrates_pure _ rfl
  refine Narrates.begun (narrates_step fun parsed _ => narrates_ended "parse" (fun hgood => ?_) fun hfailed => ?_)
    "parse"
  swap
  · exact ⟨if_pos hfailed, if_pos hfailed⟩
  generalize Compile.Unit.finish _ "parse" _ [] [] = u at hgood ⊢
  rw [hgood, if_neg Bool.false_ne_true, if_neg Bool.false_ne_true]
  refine Narrates.begun (narrates_ended "resolve" (fun hgood => ?_) fun hfailed => ?_) "resolve"
  swap
  · exact ⟨if_pos hfailed, if_pos hfailed⟩
  generalize Compile.Unit.finish _ "resolve" _ [] [] = u at hgood ⊢
  rw [hgood, if_neg Bool.false_ne_true, if_neg Bool.false_ne_true]
  refine Narrates.begun (narrates_step fun checked _ => narrates_ended "check" (fun hgood => ?_) fun hfailed => ?_)
    "check"
  swap
  · rw [hfailed]
    exact ⟨rfl, rfl⟩
  generalize Compile.Unit.finish _ "check" _ [] [] = u at hgood ⊢
  rw [hgood, Bool.false_or]
  split
  · exact narrates_pure _ hgood
  have hcaptured (note : String) : (u.finish "capture" note [] []).failed = false := hgood
  refine Narrates.begun (narrates_ended "capture" (fun _ => ?_) fun hfailed => ?_) "capture"
  swap
  · exact absurd ((hcaptured _).symm.trans hfailed) Bool.false_ne_true
  split
  · exact narrates_pure _ hgood
  refine Narrates.begun (narrates_step fun u _ => narrates_ended "lower" (fun hgood => ?_) fun hfailed => ?_)
    "lower"
  swap
  · rw [hfailed]
    exact ⟨rfl, rfl⟩
  rw [hgood, Bool.false_or]
  split
  · exact narrates_pure _ hgood
  · exact narrates_emitUnit hgood

/-- The unit of a file that was compiled. -/
def Product.compiled (p : Product) (u : Compile.Unit) : Product :=
  { p with unit := some u, timed := p.timed ++ u.phases.map (·.name) }

/-- Compiling tells of the phases, and keeps what comes of it. -/
theorem compileProduct_eq (r : Request) (p : Product) (source : List UInt8) :
    ∃ es, (compileProduct r p source).run = .telling es (.done
        ((Compile.compile r.options (sourceFile p.path source).1 (sourceFile p.path source).2).map fun u =>
          (p.compiled u, u))) ∧
      Spoken p.display es (Compile.compile r.options (sourceFile p.path source).1
        (sourceFile p.path source).2) := by
  obtain ⟨es, hrun, hspoken⟩ :=
    narrates_compile (p := p) r.options (sourceFile p.path source).1 (sourceFile p.path source).2
  refine ⟨es, ?_, hspoken⟩
  have hgood {u : Compile.Unit}
    (h : Compile.compile r.options (sourceFile p.path source).1 (sourceFile p.path source).2 = .ok u) :
      u.error = none := Compile.error_of_compile rfl rfl h
  change ((Compile.compileWith (m := ExceptT Fault Work) (liftM ∘ p.tellPhase) r.options
    (sourceFile p.path source).1
    (sourceFile p.path source).2) >>= _).run = _
  rw [ExceptT.run_bind, hrun, Work.telling_bind]
  congr 1
  cases hresult : Compile.compile r.options (sourceFile p.path source).1 (sourceFile p.path source).2 with
  | error f => rfl
  | ok u =>
    rw [Work.done_bind]
    dsimp only
    rw [hgood hresult]
    rfl

end

end TypedScript.Build
