import TypedScript.Files.Tree
import TypedScript.Proofs.Build.Board
import TypedScript.Proofs.Build.Units

/-!
# What is told of a build

Of every unit it is told first that it waits, then which stages it has begun, and last how it ended. The units may
be worked on in any order. Whoever hears of all units, in any order that keeps what is told of each one, knows in
the end how many there are and how many have failed. Only the fault of a compilation keeps a unit from being
ended.

* `Concludes`: what is told of a unit that is brought to its end.
* `says_work`: a unit is brought to its end.
* `Reported`: all that is told of a unit.
* `reported_build`: what is told of a build.
-/

namespace TypedScript.Build

open TypedScript.Files TypedScript.Ir

/-! ### A unit -/

/-- It was told last how the unit ended, and before that only which stages were begun. -/
def Ended (name : String) (failed : Bool) (es : List Event) : Prop :=
  ∃ before last, es = before ++ [last] ∧ Begun name before ∧ last.file = name ∧ last.status.isFinal = true ∧
    (last.status = .error ↔ failed = true)

/-- What comes of a unit: it is ended, or its compilation has a fault. -/
def Concludes (r : Request) (p : Product) (es : List Event) : Except Fault Product → Prop
  | .ok p' => p'.display = p.display ∧ Ended p.display p'.failed es
  | .error f => Begun p.display es ∧
      ∃ source, Compile.compile r.options (sourceFile p.path source).1 (sourceFile p.path source).2 = .error f

/-- What is known of a unit that was looked at: it has been ended, or nothing was told of it. -/
def Ready (p : Product) (es : List Event) : Prepared → Prop
  | .unreadable p' => p'.display = p.display ∧ Ended p.display p'.failed es
  | .kept p' _ => p' = p ∧ es = []
  | .fresh p' _ => p' = p ∧ es = []

/-- Nothing has happened to the unit. -/
structure Product.IsNew (p : Product) : Prop where
  unit : p.unit = none
  error : p.error = none

section

variable {α : Type} {r : Request} {p p' : Product} {es : List Event} {name : String}

theorem Begun.ended (h : Begun name es) {e : Event} {failed : Bool} (hfile : e.file = name)
    (hfinal : e.status.isFinal = true) (hfailed : e.status = .error ↔ failed = true) : Ended name failed
    (es ++ [e]) :=
  ⟨es, e, rfl, h, hfile, hfinal, hfailed⟩

theorem Broken.ended (h : Broken name es) : Ended name true es := by
  obtain ⟨before, last, rfl, hbefore, hfile, hstatus⟩ := h
  exact hbefore.ended hfile (by rw [hstatus]; rfl) (iff_of_true hstatus rfl)

theorem Begun.append {es' : List Event} (h : Begun name es) (h' : Begun name es') : Begun name (es ++ es') :=
  List.forall_mem_append.2 ⟨h, h'⟩

/-- The unit tells which stages are begun. -/
theorem says_begun {Q : List Event → α → Prop} {es' : List Event} {w : Work α} (hes : Begun name es)
    (hes' : Begun name es') (hw : w.Says name (Begun name) Q (es ++ es')) : (Work.telling es' w).Says name
    (Begun name) Q es := by
  induction es' generalizing es with
  | nil => rwa [List.append_nil] at hw
  | cons e es' ih =>
    obtain ⟨he, hrest⟩ := List.forall_mem_cons.1 hes'
    refine ⟨hes, he.1, ih (hes.append fun _ h => List.mem_singleton.1 h ▸ he) hrest ?_⟩
    rwa [List.append_assoc, List.singleton_append]

/-- The unit tells that the last stage has failed. -/
theorem says_broken {Q : List Event → α → Prop} {a : α} (hes : Broken name es) (hQ : Q es a) :
    (Work.telling es (.done a)).Says name (Begun name) Q [] := by
  obtain ⟨before, last, rfl, hbefore, hfile, -⟩ := hes
  rw [Work.telling_append]
  refine says_begun (begun_nil name) hbefore ⟨hbefore, hfile, ?_⟩
  exact hQ

/-- A unit that fails is ended. -/
theorem says_fail {Q : List Event → Product → Prop} (hes : Begun p.display es) (stage message : String)
    (hQ : ∀ p' es', p'.display = p.display → Ended p.display p'.failed es' → Q es' p') :
    (p.fail stage message).Says p.display (Begun p.display) Q es := by
  refine ⟨hes, rfl, ?_⟩
  exact hQ _ _ rfl (hes.ended rfl rfl (iff_of_true rfl rfl))

theorem says_prepare (r : Request) (p : Product) :
    (prepare r p).Says p.display (Begun p.display) (fun es q => Ready p es q) [] := by
  unfold prepare
  rw [Work.says_bind]
  refine (Work.asks_read (P := fun _ => True) (fun _ => trivial) p.path).silent (begun_nil _) fun result => ?_
  cases result with
  | error f =>
    dsimp only
    rw [Work.says_bind]
    exact says_fail (begun_nil _) _ _ fun _ _ hdisplay hended => ⟨hdisplay, hended⟩
  | ok source =>
    dsimp only
    cases r.cache with
    | none => exact ⟨rfl, rfl⟩
    | some c =>
      dsimp only
      rw [Work.says_bind]
      refine (Work.asks_get? (P := fun _ => True) (fun _ => trivial) c r.codec _).silent (begun_nil _) fun kept =>
        ?_
      cases kept <;> exact ⟨rfl, rfl⟩

theorem says_failed {p' : Product} (hdisplay : p'.display = p.display) (hes : Begun p.display es)
    (stage message : String) : (liftM (p'.fail stage message) : ExceptT Fault Work Product).run.Says p.display
      (Begun p.display) (Concludes r p) es := by
  rw [Work.says_liftM, ← hdisplay]
  exact says_fail (hdisplay ▸ hes) stage message fun p'' es' h hended => ⟨h.trans hdisplay, hdisplay ▸ hended⟩

theorem says_writeModule {Q : List Event → Except String PUnit → Prop} (hes : Begun p.display es)
    (hQ : ∀ result, Q es result) (path ir : String) :
    (writeModule path ir).run.Says p.display (Begun p.display) Q es :=
  (Work.asks_writeModule (P := fun _ => True) (fun _ => trivial) (fun _ => trivial) trivial).silent hes hQ

/-- A unit that was compiled without errors is written, which is the last stage it begins. -/
theorem says_writeProduct {p' : Product} (hdisplay : p'.display = p.display) (hgood : p'.failed = false)
    (hes : Begun p.display es) (key : List UInt8) (u : Compile.Unit) :
    (writeProduct r p' key u).run.Says p.display (Begun p.display) (Concludes r p) es := by
  have hwriting : Begun p.display (es ++ [⟨p'.display, "write", .working, none⟩]) :=
    hes.append fun e he => List.mem_singleton.1 he ▸ ⟨hdisplay, rfl⟩
  have hdone : Concludes r p (es ++ [⟨p'.display, "write", .working, none⟩] ++ [⟨p'.display, "write", .done, none⟩])
      (.ok (p'.time "write")) := by
    refine ⟨hdisplay, hwriting.ended hdisplay rfl (iff_of_false (fun h => by cases h) ?_)⟩
    change ¬ p'.failed = true
    rw [hgood]
    exact Bool.false_ne_true
  refine ⟨hes, hdisplay, ?_⟩
  change Work.Says _ _ _ (ExceptT.run (liftM (writeModule p'.output u.ir).run >>= _))
    (es ++ [⟨p'.display, "write", .working, none⟩])
  rw [Work.says_liftM_bind]
  refine says_writeModule hwriting (fun result => ?_) _ u.ir
  cases result with
  | error message => exact says_failed hdisplay hwriting _ _
  | ok _ =>
    dsimp only
    cases r.cache with
    | none => exact ⟨hwriting, hdisplay, hdone⟩
    | some c =>
      dsimp only
      rw [Work.says_liftM_bind]
      exact (Work.asks_put (P := fun _ => True) (fun _ => trivial) (fun _ => trivial) trivial).silent hwriting
        fun _ => ⟨hwriting, hdisplay, hdone⟩

theorem says_finish (hp : p.IsNew) {q : Prepared} (hq : Ready p es q) :
    (finish r q).run.Says p.display (Begun p.display) (Concludes r p) es := by
  unfold finish
  cases q with
  | unreadable p' => exact hq
  | kept p' ir =>
    obtain ⟨rfl, rfl⟩ := hq
    dsimp only
    rw [Work.says_liftM_bind]
    refine says_writeModule (begun_nil _) (fun result => ?_) _ ir
    cases result with
    | error message => exact says_failed (r := r) rfl (begun_nil _) _ _
    | ok _ =>
      refine ⟨begun_nil _, rfl, rfl, (begun_nil _).ended rfl rfl ?_⟩
      simp [Product.failed, Product.time, hp.unit, hp.error]
  | fresh p' key =>
    obtain ⟨rfl, rfl⟩ := hq
    dsimp only
    rw [Work.says_liftM_bind]
    refine (Work.asks_read (P := fun _ => True) (fun _ => trivial) p'.path).silent (begun_nil _) fun result => ?_
    cases result with
    | error f => exact says_failed rfl (begun_nil _) _ _
    | ok source =>
      dsimp only
      obtain ⟨es, hrun, hspoken⟩ := compileProduct_eq r p' source
      rw [ExceptT.run_bind, hrun, Work.telling_bind]
      cases hcompile : Compile.compile r.options (sourceFile p'.path source).1 (sourceFile p'.path source).2 with
      | error f =>
        rw [hcompile] at hspoken
        exact says_begun (begun_nil _) hspoken ⟨hspoken, source, hcompile⟩
      | ok u =>
        rw [hcompile, Spoken] at hspoken
        have hfailed : (p'.compiled u).failed = u.failed := by simp [Product.failed, Product.compiled, hp.error]
        change (Work.telling es (ExceptT.run (if (p'.compiled u).failed = true then _ else _))).Says _ _ _ _
        rw [hfailed]
        split
        · rw [if_pos ‹_›] at hspoken
          refine says_broken hspoken ⟨rfl, ?_⟩
          rw [hfailed, ‹u.failed = true›]
          exact hspoken.ended
        · rw [if_neg ‹_›] at hspoken
          refine says_begun (begun_nil _) hspoken ?_
          exact says_writeProduct rfl (hfailed.trans (Bool.eq_false_iff.2 ‹_›)) hspoken key u

/-- A unit tells which stages it has begun, and last how it ended, unless its compilation has a fault. -/
theorem says_work (r : Request) (hp : p.IsNew) :
    (r.work p).Says p.display (Begun p.display) (Concludes r p) [] := by
  rw [Request.work, Work.says_bind]
  exact (says_prepare r p).imp fun es q hq => says_finish hp hq

end

/-! ### What is told of all units -/

/-- What is told of a unit: that it waits, then what it is working on, and last how it ended, which was with an
error if it failed and only then. -/
structure Reported (es : List Event) (failed : Bool) : Prop where
  events : ∃ first working last, es = first :: working ++ [last] ∧ first.status = .queued ∧
    (∀ e ∈ working, e.status = .working) ∧ last.status.isFinal = true ∧ (last.status = .error ↔ failed = true)

/-- What is told of a unit that was not brought to its end: that it waits, and then what it is working on. -/
structure Awaited (es : List Event) : Prop where
  events : ∃ first working, es = first :: working ∧ first.status = .queued ∧ ∀ e ∈ working, e.status = .working

/-- How a unit stands of which that much was told. One is left without an end only if its compilation has a fault.
-/
def Stands (r : Request) (p : Product) (es : List Event) : Work (Except Fault Product) → Prop
  | .done (.ok p') => p'.display = p.display ∧ Reported es p'.failed
  | .done (.error f) => Awaited es ∧
      ∃ source, Compile.compile r.options (sourceFile p.path source).1 (sourceFile p.path source).2 = .error f
  | _ => Awaited es

section

variable {r : Request} {p : Product} {es : List Event}

theorem Ended.reported {failed : Bool} (h : Ended p.display failed es) : Reported (queued p :: es) failed := by
  obtain ⟨before, last, rfl, hbefore, -, hfinal, hfailed⟩ := h
  exact ⟨queued p, before, last, rfl, rfl, fun e he => (hbefore e he).2, hfinal, hfailed⟩

theorem Begun.awaited (h : Begun p.display es) : Awaited (queued p :: es) :=
  ⟨queued p, es, rfl, rfl, fun e he => (h e he).2⟩

theorem stands_of_tells {told : List Event} {w : Work (Except Fault Product)}
    (h : Session.Tells (fun p => Begun p.display) (Concludes r) told p w) :
    Stands r p (told.filter (·.file = p.display)) w := by
  obtain ⟨es, hes, hw⟩ := h
  rw [hes]
  cases w with
  | done result =>
    cases result with
    | ok p' => exact ⟨hw.1, hw.2.reported⟩
    | error f => exact ⟨hw.1.awaited, hw.2⟩
  | tell e rest => exact Begun.awaited hw.1
  | ask q next => exact Begun.awaited hw.1

/-- A row that was told all of its unit shows how the unit ended. -/
theorem Reported.status_foldl {failed : Bool} (h : Reported es failed) {row : Row} (hrow : row.isFinished = false) :
    (es.foldl Row.update row).isFinished = true ∧ ((es.foldl Row.update row).status = .error ↔ failed = true) := by
  obtain ⟨first, working, last, rfl, hfirst, hworking, hfinal, hfailed⟩ := h.events
  have hgoing {row : Row} {e : Event} (hrow : row.isFinished = false) (he : e.status.isFinal = false) :
      (row.update e).isFinished = false := by
    rw [Row.isFinished, Row.status_update hrow, he]
  have hunfinished : ∀ row : Row, row.isFinished = false → (working.foldl Row.update row).isFinished = false := by
    clear h
    induction working with
    | nil => exact fun _ hrow => hrow
    | cons e working ih =>
      intro row hrow
      have he : e.status.isFinal = false := by rw [hworking e List.mem_cons_self]; rfl
      exact ih (fun e he => hworking e (List.mem_cons_of_mem _ he)) _ (hgoing hrow he)
  have hwaiting := hgoing hrow (e := first) (by rw [hfirst]; rfl)
  have hbefore := hunfinished _ hwaiting
  rw [List.cons_append, List.foldl_cons, List.foldl_append, List.foldl_cons, List.foldl_nil, Row.isFinished,
    Row.status_update hbefore]
  exact ⟨hfinal, hfailed⟩

end

/-- The board of a request. -/
def Request.board (r : Request) (workDir title : String) : Board :=
  .ofFiles title (r.files.map (displayName workDir r.base))

/-- Some events in an order of which nothing is known but that of the events of each unit. -/
def Request.Interleaved (r : Request) (workDir : String) (told es : List Event) : Prop :=
  ∀ file ∈ r.files, es.filter (·.file = displayName workDir r.base file) =
    told.filter (·.file = displayName workDir r.base file)

/-- A board that was told all of some units shows how each of them ended. -/
theorem rows_of_reported {names : List String} {es : List Event} {ps : List Product} (title : String)
    (hapart : names.Nodup)
    (h : List.Forall₂ (fun name p => Reported (es.filter (·.file = name)) p.failed) names ps) :
    List.Forall₂ (fun p row => row.isFinished = true ∧ (row.status = .error ↔ p.failed = true)) ps
      ((Board.ofFiles title names).updates es).rows := by
  have hrows : (Board.ofFiles title names).rows = names.map fun name => { path := name } := rfl
  have hpaths : ((Board.ofFiles title names).rows.map (·.path)).Nodup := by
    rw [hrows, List.map_map]
    exact (List.map_id' names).symm ▸ hapart
  rw [Board.rows_updates hpaths, hrows, List.map_map, List.forall₂_map_right_iff]
  exact h.flip.imp fun p name hname => hname.status_foldl rfl

theorem Board.Counted.settled_eq {ps : List Product} {b : Board} (h : b.Counted)
    (hrows : List.Forall₂ (fun p row => row.isFinished = true ∧ (row.status = .error ↔ p.failed = true))
    ps b.rows) :
    b.settled = ps.length ∧ b.failed = (ps.filter (·.failed)).length := by
  rw [h.settled, h.failed, ← List.countP_eq_length_filter]
  generalize b.rows = rows at hrows
  induction hrows with
  | nil => exact ⟨rfl, rfl⟩
  | @cons p row ps rows hrow _ ih =>
    obtain ⟨hfinished, hfailed⟩ := hrow
    rw [List.countP_cons_of_pos hfinished, ih.1, List.length_cons, List.countP_cons, List.countP_cons, ih.2]
    refine ⟨rfl, ?_⟩
    simp [hfailed]

/-- Of a unit that begins it was told that it waits, if no other has its name. -/
theorem filter_queued {ps : List Product} (hapart : (ps.map (·.display)).Nodup) {p : Product} (hp : p ∈ ps) :
    (ps.map queued).filter (·.file = p.display) = [queued p] := by
  induction ps with
  | nil => exact absurd hp List.not_mem_nil
  | cons q ps ih =>
    rw [List.map_cons, List.nodup_cons] at hapart
    rw [List.map_cons]
    rcases List.mem_cons.1 hp with rfl | hp
    · rw [List.filter_cons_of_pos (by simp [queued]), List.filter_eq_nil_iff.2 fun e he hfile => hapart.1 ?_]
      obtain ⟨q, hq, rfl⟩ := List.mem_map.1 he
      exact List.mem_map.2 ⟨q, hq, of_decide_eq_true hfile⟩
    · have hne : q.display ≠ p.display := fun heq => hapart.1 (heq ▸ List.mem_map_of_mem hp)
      rw [List.filter_cons_of_neg (by simp [queued, hne]), ih hapart.2 hp]

section

variable {σ : Type} [Disk (StateM σ)] {r : Request} {workDir : String} {s : σ} {g : Session σ}

theorem display_product (r : Request) (workDir file : String) :
    (r.product workDir file).display = displayName workDir r.base file := by
  rw [Request.product]

/-- It is told of units with different names how they stand. -/
theorem stands_of_reaches (hapart : (r.files.map (displayName workDir r.base)).Nodup) (h : r.Reaches workDir s g) :
    Session.Each (fun p w => Stands r p (g.told.filter (·.file = p.display)) w)
      (r.files.map (r.product workDir)) g.works := by
  have hnames : ((r.files.map (r.product workDir)).map (·.display)).Nodup := by
    simpa only [List.map_map, Function.comp_def, display_product] using hapart
  have hstart : Session.Each (Session.Tells (fun p => Begun p.display) (Concludes r) (r.start workDir s).told)
      (r.files.map (r.product workDir)) (r.start workDir s).works := by
    refine Session.each_map fun p hp => ⟨[], filter_queued hnames hp, says_work r ?_⟩
    obtain ⟨file, -, rfl⟩ := List.mem_map.1 hp
    exact ⟨rfl, rfl⟩
  have hreached := Session.tells_of_steps hnames h hstart
  exact ⟨hreached.length, fun i p w hp hw => stands_of_tells (hreached.works i p w hp hw)⟩

/-- A build whose units have different names, wherever it has got to in whatever order its units are worked on. It
does not go on forever, and it goes on as long as a unit is not over. It was told of every unit that it waits,
then what it is working on, and last how it ended, which was with an error if it failed and only then; one is left
without an end only if its compilation has a fault. A board that is told of all units in any order that keeps what
is told of each has the right counts all the time, no row of it falls back or changes once it is finished, and if
all units were brought to their ends it shows in the end that all are finished and that those have failed that
did. -/
theorem reported_build (hapart : (r.files.map (displayName workDir r.base)).Nodup)
    (hreaches : r.Reaches workDir s g) :
    Acc (fun g' g : Session σ => g.Step g') g ∧
      ((∃ g', g.Step g') ∨ ∀ w ∈ g.works, ∃ result, w = .done result) ∧
      g.works.length = r.files.length ∧
      (∀ (i : Nat) file w, r.files[i]? = some file → g.works[i]? = some w →
        Stands r (r.product workDir file) (g.told.filter (·.file = displayName workDir r.base file)) w) ∧
      ∀ title es, r.Interleaved workDir g.told es →
        (∀ k, ((r.board workDir title).updates (es.take k)).Counted) ∧
        (∀ j k, j ≤ k → ((r.board workDir title).updates (es.take j)).Later
          ((r.board workDir title).updates (es.take k))) ∧
        ∀ ps : List Product, g.works = ps.map (fun p => .done (.ok p)) →
          ((r.board workDir title).updates es).settled = r.files.length ∧
          ((r.board workDir title).updates es).failed = (ps.filter (·.failed)).length := by
  have hstands := stands_of_reaches hapart hreaches
  have hlength : g.works.length = r.files.length := hstands.length.trans (List.length_map _)
  have hunit : ∀ (i : Nat) file w, r.files[i]? = some file → g.works[i]? = some w →
      Stands r (r.product workDir file) (g.told.filter (·.file = displayName workDir r.base file)) w := by
    intro i file w hfile hw
    have hp : (r.files.map (r.product workDir))[i]? = some (r.product workDir file) := by
      rw [List.getElem?_map, hfile, Option.map_some]
    have hw' := hstands.works i _ w hp hw
    rwa [display_product] at hw'
  refine ⟨Session.wellFounded_step.apply g, ?_, hlength, hunit,
    fun title es hes => ⟨fun k => ?_, fun j k hjk => ?_, ?_⟩⟩
  · by_cases hgoing : ∃ g', g.Step g'
    · exact .inl hgoing
    · exact .inr (Session.exists_step fun g' hstep => hgoing ⟨g', hstep⟩)
  · exact (Board.counted_ofFiles title _).updates (es.take k)
  · exact Board.later_take _ es hjk
  · intro ps hps
    rw [hps, List.length_map] at hlength
    have hreported : List.Forall₂ (fun name p => Reported (es.filter (·.file = name)) p.failed)
        (r.files.map (displayName workDir r.base)) ps := by
      rw [List.forall₂_map_left_iff]
      refine List.forall₂_iff_get.2 ⟨hlength.symm, fun i hfile hp => ?_⟩
      have hw : g.works[i]? = some (.done (.ok ps[i])) := by
        rw [hps, List.getElem?_map, List.getElem?_eq_getElem hp, Option.map_some]
      rw [List.get_eq_getElem, hes _ (List.getElem_mem hfile)]
      exact (hunit i _ _ (List.getElem?_eq_getElem hfile) hw).2
    rw [← hlength]
    exact ((Board.counted_ofFiles title _).updates es).settled_eq (rows_of_reported title hapart hreported)

end

/-- Three files, of which the first has an error and the last is missing. -/
def threeFiles : Request := { files := ["a.ts", "b.ts", "c.ts"], base := ".", outDir := "out" }

/-- The disk that the three files are built on. -/
def threeFilesTree : Tree where
  workDir := ["w"]
  entries := [(["w"], .directory), (["w", "a.ts"], .file (Text.encode "x;")), (["w", "b.ts"], .file [])]

set_option maxRecDepth 100000 in
theorem reported_threeFiles : ∃ g : Session Tree, threeFiles.Reaches "/w" threeFilesTree g ∧
    (∃ ps : List Product, g.works = ps.map (fun p => .done (.ok p)) ∧
      ps.map (fun p => (p.display, p.failed)) = [("a.ts", true), ("b.ts", false), ("c.ts", true)]) ∧
    (∀ (i : Nat) file w, threeFiles.files[i]? = some file → g.works[i]? = some w →
      Stands threeFiles (threeFiles.product "/w" file) (g.told.filter (·.file = displayName "/w" "." file)) w) ∧
    ∀ title es, threeFiles.Interleaved "/w" g.told es →
      ((threeFiles.board "/w" title).updates es).settled = 3 ∧
        ((threeFiles.board "/w" title).updates es).failed = 2 := by
  have hshown : ((threeFiles.build (m := StateM Tree)).run.run threeFilesTree).1.toOption.map
      (fun o => o.products.map fun p => (p.display, p.failed)) =
      some [("a.ts", true), ("b.ts", false), ("c.ts", true)] := by
    decide +kernel
  have hworkDir : (Disk.workDir (m := StateM Tree)).run threeFilesTree = ("/w", threeFilesTree) :=
    Prod.ext (by decide +kernel) rfl
  rcases hrun : (threeFiles.build (m := StateM Tree)).run.run threeFilesTree with ⟨f | o, t⟩
  · rw [hrun] at hshown
    cases hshown
  · rw [hrun] at hshown
    obtain ⟨g, hreaches, -, hworks, -⟩ := reaches_build hworkDir rfl hrun
    have hproducts := Option.some.inj hshown
    have hfailed : (o.products.filter (·.failed)).length = 2 := by
      have hcount := congrArg (fun shown => (shown.filter (·.2)).length) hproducts
      rw [List.filter_map, List.length_map] at hcount
      exact hcount
    obtain ⟨-, -, -, hstands, hboard⟩ := reported_build (by decide +kernel) hreaches
    refine ⟨g, hreaches, ⟨o.products, (hworks o rfl).2, hproducts⟩, hstands, fun title es hes => ?_⟩
    obtain ⟨hsettled, hnumber⟩ := (hboard title es hes).2.2 o.products (hworks o rfl).2
    exact ⟨hsettled, hnumber.trans hfailed⟩

end TypedScript.Build
