import TypedScript.Files.Tree
import TypedScript.Proofs.Text.Path

/-!
# Places in a tree

Where a path leads is decided by its text and the working directory; the tree only decides whether one gets there.
What is done to a tree leaves directories where they are, and files at all places but the one that is written to.

* `place`: where a path leads.
* `Keeps`: how a tree may change when files at some places only are written.
-/

namespace TypedScript.Files

namespace Tree

/-! ### Following a path -/

/-- The place that names lead to from another one. -/
def walk (p : Place) : List String → Place
  | [] => p
  | "." :: rest => walk p rest
  | ".." :: rest => walk p.dropLast rest
  | name :: rest => walk (p ++ [name]) rest

/-- The place that a path leads to. -/
def place (t : Tree) (path : String) : Place := walk (if Path.isAbsolute path then [] else t.workDir)
    (Path.components path)

theorem walk_append (p : Place) (xs ys : List String) : walk p (xs ++ ys) = walk (walk p xs) ys := by
  fun_induction walk p xs <;> simp_all [walk]

theorem walk_of_names {p : Place} {ns : List String} (h : ∀ n ∈ ns, Path.IsName n) : walk p ns = p ++ ns := by
  induction ns generalizing p with
  | nil => rw [walk, List.append_nil]
  | cons n ns ih =>
    rw [List.forall_mem_cons] at h
    rw [walk.eq_4 _ _ _ h.1.ne_dot h.1.ne_dots, ih h.2, List.append_assoc]
    rfl

/-- A path that ends with a name leads to a place of that name. -/
theorem place_join_last {last tail : String} {inner : List String} (h : Path.IsName last)
    (htail : Path.components tail = inner ++ [last]) (parts : List String) (t : Tree) :
    ∃ p, t.place (Path.join (parts ++ [tail])) = p ++ [last] := by
  obtain ⟨ns, hns⟩ := Path.components_join_last h htail parts
  refine ⟨walk (if Path.isAbsolute (Path.join (parts ++ [tail])) then [] else t.workDir) ns, ?_⟩
  rw [place, hns, walk_append, walk_of_names fun n hn => List.mem_singleton.1 hn ▸ h]

variable {t t' t'' : Tree} {path : String} {p q : Place} {bytes : List UInt8}

/-- One that gets to the end of a path is at its place. -/
theorem follow_eq_ok {ns : List String} (h : t.follow p ns = .ok q) : q = walk p ns := by
  induction ns generalizing p with
  | nil =>
    cases h
    rfl
  | cons n ns ih =>
    unfold follow at h
    cases henter : t.enter p with
    | error c =>
      rw [henter] at h
      cases h
    | ok _ =>
      rw [henter] at h
      simp only [bind, Except.bind] at h
      split at h
      · cases h
      · split at h <;> rw [ih h]
        · rw [walk]
        · rw [walk]
        · rw [walk.eq_4 _ _ _ ‹_› ‹_›]

/-- A path can still be followed when there are more directories. -/
theorem follow_mono {ns : List String} (hmono : ∀ p, t.get? p = some .directory → t'.get? p = some .directory)
    (h : t.follow p ns = .ok q) : t'.follow p ns = .ok q := by
  induction ns generalizing p with
  | nil => exact h
  | cons n ns ih =>
    unfold follow at h ⊢
    cases henter : t.enter p with
    | error c =>
      rw [henter] at h
      cases h
    | ok _ =>
      have hdirectory : t.get? p = some .directory := by
        unfold enter at henter
        split at henter
        · assumption
        · cases henter
        · cases henter
      have henter' : t'.enter p = .ok () := by
        unfold enter
        rw [hmono p hdirectory]
      rw [henter] at h
      rw [henter']
      simp only [bind, Except.bind] at h ⊢
      split at h
      · cases h
      · rw [if_neg ‹_›]
        split at h <;> exact ih h

/-! ### What is at a place -/

/-- Other places are as they were. -/
theorem get?_put_of_ne (t : Tree) (h : p ≠ q) (x : Node) : (t.put p x).get? q = t.get? q := by
  have hfilter (entries : List (Place × Node)) : (entries.filter (·.1 ≠ p)).lookup q = entries.lookup q := by
    induction entries with
    | nil => rfl
    | cons e entries ih =>
      by_cases he : e.1 = p
      · rw [List.filter_cons_of_neg (by simpa using he), ih, List.lookup_cons, beq_false_of_ne (he ▸ h.symm)]
      · rw [List.filter_cons_of_pos (by simpa using he), List.lookup_cons, List.lookup_cons, ih]
  have hlast : [(p, x)].lookup q = none := by
    rw [List.lookup_cons, beq_false_of_ne h.symm]
    rfl
  unfold get? put
  dsimp only
  rw [List.lookup_append, hfilter, hlast, Option.or_none]

/-- A path can be followed to its place, which is not a file if a slash ends the path. -/
theorem locate_eq_ok_iff : t.locate path = .ok p ↔
    '\x00' ∉ path.toList ∧ path ≠ "" ∧
      t.follow (if Path.isAbsolute path then [] else t.workDir) (Path.components path) = .ok p ∧
      (path.endsWith "/" = true → ∀ bytes, t.get? p ≠ some (.file bytes)) := by
  unfold locate
  generalize (if Path.isAbsolute path then [] else t.workDir) = start
  by_cases hnul : path.toList.contains '\x00' = true
  · simp_all [bind, Except.bind, throw, throwThe, MonadExceptOf.throw]
  by_cases hempty : path = ""
  · simp_all [bind, Except.bind, throw, throwThe, MonadExceptOf.throw]
  have hnul' : '\x00' ∉ path.toList := by simpa using hnul
  rw [if_neg hnul, if_neg hempty]
  simp only [bind, Except.bind, pure, Except.pure]
  cases hfollow : t.follow start (Path.components path) with
  | error c => simp
  | ok q =>
    simp only [hnul', hempty, not_false_eq_true, ne_eq, true_and, Except.ok.injEq]
    unfold enter
    cases path.endsWith "/" with
    | false => simp
    | true =>
      cases hq : t.get? q with
      | none =>
        simp only [Option.isSome_none, Bool.and_false, Bool.false_eq_true, ↓reduceIte, Except.ok.injEq,
          forall_const, iff_self_and]
        rintro rfl
        simp [hq]
      | some x =>
        cases x with
        | directory =>
          simp only [Option.isSome_some, Bool.and_self, ↓reduceIte, Except.ok.injEq, forall_const, iff_self_and]
          rintro rfl
          simp [hq]
        | file bytes =>
          simp only [Option.isSome_some, Bool.and_self, ↓reduceIte, reduceCtorEq, forall_const, false_iff, not_and]
          rintro rfl hfile
          exact hfile bytes hq

/-- One that can be followed leads to its place. -/
theorem place_of_locate (h : t.locate path = .ok p) : p = t.place path := follow_eq_ok (locate_eq_ok_iff.1 h).2.2.1

theorem read_eq_ok (h : t.read path = .ok bytes) : t.locate path = .ok (t.place path) ∧
    t.get? (t.place path) = some (.file bytes) := by
  unfold read lookup at h
  cases hlocate : t.locate path with
  | error c =>
    rw [hlocate] at h
    cases h
  | ok p =>
    obtain rfl := place_of_locate hlocate
    rw [hlocate] at h
    simp only [bind, Except.bind, pure, Except.pure] at h
    cases hx : t.get? (t.place path) with
    | none =>
      rw [hx] at h
      cases h
    | some x =>
      rw [hx] at h
      cases x with
      | directory => cases h
      | file bytes' =>
        cases h
        exact ⟨rfl, rfl⟩

theorem read_of_get? (hlocate : t.locate path = .ok (t.place path))
    (h : t.get? (t.place path) = some (.file bytes)) :
    t.read path = .ok bytes := by
  simp only [read, lookup, hlocate, h, bind, Except.bind, pure, Except.pure]

/-- A file is written where the path leads, and not over a directory. -/
theorem write_eq_ok (h : t.write path bytes = .ok t') : t.locate path = .ok (t.place path) ∧
    t.get? (t.place path) ≠ some .directory ∧ path.endsWith "/" = false ∧ t' = t.put (t.place path)
      (.file bytes) := by
  unfold write at h
  cases hlocate : t.locate path with
  | error c =>
    rw [hlocate] at h
    cases h
  | ok p =>
    have hslash := (locate_eq_ok_iff.1 hlocate).2.2.2
    obtain rfl := place_of_locate hlocate
    rw [hlocate] at h
    simp only [bind, Except.bind, pure, Except.pure] at h
    cases hx : t.get? (t.place path) with
    | none =>
      rw [hx] at h
      cases hends : path.endsWith "/" with
      | true =>
        simp only [hends, ↓reduceIte] at h
        cases h
      | false =>
        simp only [hends] at h
        cases h
        exact ⟨rfl, nofun, rfl, rfl⟩
    | some x =>
      rw [hx] at h
      cases x with
      | directory => cases h
      | file bytes' =>
        cases h
        exact ⟨rfl, nofun, Bool.eq_false_iff.2 fun hends => hslash hends bytes' hx, rfl⟩

/-- A directory is made where there was nothing. -/
theorem makeDir_eq_ok (h : t.makeDir path = .ok t') : ∃ p, t.get? p = none ∧ t' = t.put p .directory := by
  unfold makeDir at h
  generalize (if Path.isAbsolute path then [] else t.workDir) = start at h
  by_cases hnul : path.toList.contains '\x00' = true
  · rw [if_pos hnul] at h
    cases h
  by_cases hempty : path = ""
  · rw [if_neg hnul, if_pos hempty] at h
    cases h
  rw [if_neg hnul, if_neg hempty] at h
  cases hfollow : t.follow start (Path.components path) with
  | error c =>
    rw [hfollow] at h
    cases h
  | ok p =>
    rw [hfollow] at h
    simp only [bind, Except.bind, pure, Except.pure] at h
    cases hp : t.get? p with
    | some x =>
      rw [hp] at h
      cases h
    | none =>
      rw [hp] at h
      cases h
      exact ⟨p, hp, rfl⟩

/-! ### Changes -/

/-- How a tree may change when files are written at some places only: directories stay, and so do the files
elsewhere. -/
structure Keeps (written : Place → Prop) (t t' : Tree) : Prop where
  workDir : t'.workDir = t.workDir
  directory : ∀ p, t.get? p = some .directory → t'.get? p = some .directory
  file : ∀ p, ¬ written p → ∀ bytes, t'.get? p = some (.file bytes) ↔ t.get? p = some (.file bytes)

namespace Keeps

variable {written : Place → Prop}

theorem refl (written : Place → Prop) (t : Tree) : Keeps written t t := ⟨rfl, fun _ => id, fun _ _ _ => Iff.rfl⟩

theorem trans (h : Keeps written t t') (h' : Keeps written t' t'') : Keeps written t t'' where
  workDir := h'.workDir.trans h.workDir
  directory p hp := h'.directory p (h.directory p hp)
  file p hp bytes := (h'.file p hp bytes).trans (h.file p hp bytes)

theorem mono {written' : Place → Prop} (h : Keeps written t t') (hmono : ∀ p, written p → written' p) :
    Keeps written' t t' :=
  ⟨h.workDir, h.directory, fun p hp => h.file p fun hw => hp (hmono p hw)⟩

/-- Paths lead where they led. -/
theorem place_eq (h : Keeps written t t') (path : String) : t'.place path = t.place path := by
  rw [place, place, h.workDir]

theorem locate (h : Keeps written t t') (hlocate : t.locate path = .ok p) (hslash : path.endsWith "/" = false) :
    t'.locate path = .ok p := by
  obtain ⟨hnul, hempty, hfollow, -⟩ := locate_eq_ok_iff.1 hlocate
  refine locate_eq_ok_iff.2 ⟨hnul, hempty, ?_, fun hends => absurd (hends.symm.trans hslash) nofun⟩
  rw [h.workDir]
  exact follow_mono h.directory hfollow

/-- A file can still be read unless something was written to its place. -/
theorem read (h : Keeps written t t') (hread : t.read path = .ok bytes) (hfree : ¬ written (t.place path)) :
    t'.read path = .ok bytes := by
  obtain ⟨hlocate, hget⟩ := read_eq_ok hread
  have hslash : path.endsWith "/" = false := Bool.eq_false_iff.2 fun hends =>
    (locate_eq_ok_iff.1 hlocate).2.2.2 hends bytes hget
  have hplace := h.place_eq path
  refine read_of_get? ?_ ?_ <;> rw [hplace]
  · exact h.locate hlocate hslash
  · exact (h.file _ hfree bytes).2 hget

end Keeps

theorem get?_put (t : Tree) (h : t.get? p ≠ some .directory) (x : Node) : (t.put p x).get? p = some x := by
  refine get?_put_self t ?_ x
  rintro rfl
  exact h rfl

theorem keeps_put (h : t.get? p ≠ some .directory) (x : Node) : Keeps (· = p) t (t.put p x) where
  workDir := rfl
  directory q hq := by
    have hne : p ≠ q := fun heq => h (heq ▸ hq)
    rw [get?_put_of_ne t hne, hq]
  file q hq bytes := by rw [get?_put_of_ne t (Ne.symm hq)]

theorem keeps_makeDir (h : t.makeDir path = .ok t') (written : Place → Prop) : Keeps written t t' := by
  obtain ⟨p, hp, rfl⟩ := makeDir_eq_ok h
  have hkeeps := keeps_put (t := t) (p := p) (by simp [hp]) .directory
  refine ⟨hkeeps.workDir, hkeeps.directory, fun q _ bytes => ?_⟩
  by_cases hq : q = p
  · subst hq
    rw [get?_put t (by simp [hp]), hp]
    exact ⟨nofun, nofun⟩
  · exact hkeeps.file q hq bytes

theorem keeps_write (h : t.write path bytes = .ok t') : Keeps (· = t.place path) t t' := by
  obtain ⟨-, hdirectory, -, rfl⟩ := write_eq_ok h
  exact keeps_put hdirectory _

/-- What was written can be read. -/
theorem read_of_write (h : t.write path bytes = .ok t') : t'.read path = .ok bytes := by
  have hkeeps := keeps_write h
  obtain ⟨hlocate, hdirectory, hslash, rfl⟩ := write_eq_ok h
  have hplace := hkeeps.place_eq path
  refine read_of_get? ?_ ?_ <;> rw [hplace]
  · exact hkeeps.locate hlocate hslash
  · exact get?_put t hdirectory _

end Tree

end TypedScript.Files
