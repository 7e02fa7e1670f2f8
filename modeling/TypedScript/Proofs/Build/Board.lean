import TypedScript.Build.Progress

/-!
# What a board shows

Whatever events a board is told of, in whatever order, its counters tell how many of its rows are finished and how
many have failed, no row falls back, and a row that is finished stays as it is. A row depends only on the events
of its own unit.

* `Counted.update`, `later_update`: what one event does.
* `rows_updates`: what is shown of a unit after any events.
-/

namespace TypedScript.Build

/-! ### Rows -/

namespace Row

/-- How a row may change: stages that were reached stay reached, and what is finished stays as it is. -/
structure Later (r r' : Row) : Prop where
  path : r'.path = r.path
  reached : ∀ n, r.reached = some n → ∃ n', r'.reached = some n' ∧ n ≤ n'
  finished : r.isFinished = true → r' = r

namespace Later

theorem refl (r : Row) : r.Later r := ⟨rfl, fun n hn => ⟨n, hn, Nat.le_refl n⟩, fun _ => rfl⟩

theorem trans {r r' r'' : Row} (h : r.Later r') (h' : r'.Later r'') : r.Later r'' where
  path := h'.path.trans h.path
  reached n hn := by
    obtain ⟨n', hn', hle⟩ := h.reached n hn
    obtain ⟨n'', hn'', hle'⟩ := h'.reached n' hn'
    exact ⟨n'', hn'', Nat.le_trans hle hle'⟩
  finished hfinished := by
    have heq := h.finished hfinished
    rw [h'.finished (by rw [heq]; exact hfinished), heq]

end Later

theorem path_update (r : Row) (e : Event) : (r.update e).path = r.path := by
  unfold update
  split <;> rfl

theorem later_update (r : Row) (e : Event) : r.Later (r.update e) where
  path := r.path_update e
  reached n hn := by
    unfold update
    split
    · exact ⟨n, hn, Nat.le_refl n⟩
    dsimp only
    split
    · split
      · exact ⟨n, hn, Nat.le_refl n⟩
      · exact ⟨_, rfl, by rw [hn]; exact Nat.le_max_left _ _⟩
    · exact ⟨n, hn, Nat.le_refl n⟩
  finished hfinished := update_of_isFinished hfinished e

theorem status_update {r : Row} (h : r.isFinished = false) (e : Event) : (r.update e).status = e.status := by
  simp [update, h]

/-- A row that is not finished has not failed. -/
theorem status_ne_error {r : Row} (h : r.isFinished = false) : r.status ≠ .error := by
  rintro herror
  simp [isFinished, herror, Status.isFinal] at h

end Row

/-! ### Boards -/

namespace Board

/-- The counters tell how many rows are finished, and how many of them have failed. -/
structure Counted (b : Board) : Prop where
  settled : b.settled = b.rows.countP (·.isFinished)
  failed : b.failed = b.rows.countP (·.status = .error)

theorem counted_ofFiles (title : String) (files : List String) : (ofFiles title files).Counted where
  settled := by
    refine (List.countP_eq_zero.2 fun r hr => ?_).symm
    obtain ⟨file, -, rfl⟩ := List.mem_map.1 hr
    exact Bool.false_ne_true
  failed := by
    refine (List.countP_eq_zero.2 fun r hr => ?_).symm
    obtain ⟨file, -, rfl⟩ := List.mem_map.1 hr
    simp

theorem place?_eq_some {b : Board} {file : String} {i : Nat} (h : b.place? file = some i) :
    ∃ r, b.rows[i]? = some r ∧ r.path = file := by
  obtain ⟨j, hj, rfl⟩ := Option.map_eq_some_iff.1 h
  obtain ⟨hlt, hpath, -⟩ := List.findIdx?_eq_some_iff_getElem.1 hj
  rw [List.getElem_reverse] at hpath
  rw [List.length_reverse] at hlt
  exact ⟨_, List.getElem?_eq_getElem (by omega), of_decide_eq_true hpath⟩

/-- Of several rows an event changes at most one, which is of its file and was not finished. -/
theorem update_cases (b : Board) (e : Event) :
    b.update e = b ∨ ∃ i r, b.rows[i]? = some r ∧ r.path = e.file ∧ r.isFinished = false ∧
      b.update e = b.putRow i (r.update e) := by
  unfold update
  split
  · exact .inl rfl
  · rename_i i hi
    obtain ⟨r, hr, hpath⟩ := place?_eq_some hi
    rw [hr]
    dsimp only
    split
    · exact .inl rfl
    · exact .inr ⟨i, r, hr, hpath, Bool.eq_false_iff.2 ‹_›, rfl⟩

/-- The counters stay right. -/
theorem Counted.update {b : Board} (h : b.Counted) (e : Event) : (b.update e).Counted := by
  rcases update_cases b e with heq | ⟨i, r, hr, -, hunfinished, heq⟩
  · rw [heq]
    exact h
  obtain ⟨hi, hget⟩ := List.getElem?_eq_some_iff.1 hr
  rw [heq]
  constructor
  · have hcount := List.countP_set (p := Row.isFinished) (a := r.update e) hi
    rw [hget, hunfinished] at hcount
    simp only [putRow, h.settled]
    rw [hcount]
    split <;> simp
  · have hcount := List.countP_set (p := fun r => decide (r.status = .error)) (a := r.update e) hi
    rw [hget] at hcount
    simp only [putRow, h.failed]
    rw [hcount]
    split <;> simp_all [Row.status_ne_error hunfinished]

/-- How a board may change: every row stays in its place, does not fall back, and is left alone once it is
finished. -/
def Later (b b' : Board) : Prop := ∀ (i : Nat) (r : Row), b.rows[i]? = some r → ∃ r', b'.rows[i]? =
    some r' ∧ r.Later r'

theorem Later.refl (b : Board) : b.Later b := fun _ r hr => ⟨r, hr, .refl r⟩

theorem Later.trans {b b' b'' : Board} (h : b.Later b') (h' : b'.Later b'') : b.Later b'' := by
  intro i r hr
  obtain ⟨r', hr', hlater⟩ := h i r hr
  obtain ⟨r'', hr'', hlater'⟩ := h' i r' hr'
  exact ⟨r'', hr'', hlater.trans hlater'⟩

theorem later_update (b : Board) (e : Event) : b.Later (b.update e) := by
  intro i r hr
  rcases update_cases b e with heq | ⟨j, r₀, hr₀, -, -, heq⟩
  · rw [heq]
    exact Later.refl b i r hr
  rw [heq]
  by_cases hij : j = i
  · subst hij
    obtain rfl := Option.some.inj (hr₀.symm.trans hr)
    exact ⟨_, List.getElem?_set_self (List.getElem?_eq_some_iff.1 hr).1, r₀.later_update e⟩
  · exact ⟨r, by rw [putRow, List.getElem?_set_ne hij]; exact hr, .refl r⟩

/-- The board after some events. -/
def updates (b : Board) (es : List Event) : Board := es.foldl update b

theorem Counted.updates {b : Board} (h : b.Counted) (es : List Event) : (b.updates es).Counted := by
  induction es generalizing b with
  | nil => exact h
  | cons e es ih => exact ih (h.update e)

theorem later_updates (b : Board) (es : List Event) : b.Later (b.updates es) := by
  induction es generalizing b with
  | nil => exact .refl b
  | cons e es ih => exact (later_update b e).trans (ih (b.update e))

/-- A board that was told more events is later. -/
theorem later_take (b : Board) (es : List Event) {j k : Nat} (h : j ≤ k) :
    (b.updates (es.take j)).Later (b.updates (es.take k)) := by
  have hsplit := List.take_append_drop j (es.take k)
  rw [List.take_take, Nat.min_eq_left h] at hsplit
  rw [← hsplit, updates, updates, List.foldl_append]
  exact later_updates _ _

/-! ### Rows of different files -/

theorem place?_eq_none {b : Board} {file : String} (h : b.place? file = none) : ∀ r ∈ b.rows, r.path ≠ file := by
  intro r hr
  have hnone := List.findIdx?_eq_none_iff.1 (Option.map_eq_none_iff.1 h) r (List.mem_reverse.2 hr)
  exact of_decide_eq_false hnone

/-- Rows of one file are one row. -/
theorem eq_of_path_eq {b : Board} (hapart : (b.rows.map (·.path)).Nodup) {i j : Nat} {r r' : Row}
    (hr : b.rows[i]? = some r) (hr' : b.rows[j]? = some r') (hpath : r.path = r'.path) : i = j := by
  have hlt : i < (b.rows.map (·.path)).length := by
    rw [List.length_map]
    exact (List.getElem?_eq_some_iff.1 hr).1
  refine (List.getElem?_inj hlt hapart).1 ?_
  rw [List.getElem?_map, List.getElem?_map, hr, hr', Option.map_some, Option.map_some, hpath]

/-- If every file has one row, an event goes to the row of its file. -/
theorem rows_update {b : Board} (hapart : (b.rows.map (·.path)).Nodup) (e : Event) :
    (b.update e).rows = b.rows.map fun r => if e.file = r.path then r.update e else r := by
  refine List.ext_getElem? fun j => ?_
  rw [List.getElem?_map]
  unfold update
  cases hplace : b.place? e.file with
  | none =>
    cases hr : b.rows[j]? with
    | none => rw [Option.map_none]
    | some r =>
      have hne := place?_eq_none hplace r (List.mem_of_getElem? hr)
      rw [Option.map_some, if_neg (Ne.symm hne)]
  | some i =>
    obtain ⟨r, hr, hpath⟩ := place?_eq_some hplace
    have hi := (List.getElem?_eq_some_iff.1 hr).1
    dsimp only
    rw [hr]
    dsimp only
    by_cases hij : i = j
    · subst hij
      rw [hr, Option.map_some, if_pos hpath.symm]
      split
      · rw [Row.update_of_isFinished ‹_›]
        exact hr
      · exact List.getElem?_set_self hi
    · have hother : (if r.isFinished = true then b else b.putRow i (r.update e)).rows[j]? = b.rows[j]? := by
        split
        · rfl
        · exact List.getElem?_set_ne hij
      rw [hother]
      cases hr' : b.rows[j]? with
      | none => rfl
      | some r' =>
        have hne : e.file ≠ r'.path := fun heq => hij (eq_of_path_eq hapart hr hr' (hpath.trans heq))
        rw [Option.map_some, if_neg hne]

/-- What is shown of a unit depends on the events of its own, in their order. -/
theorem rows_updates {b : Board} (hapart : (b.rows.map (·.path)).Nodup) (es : List Event) :
    (b.updates es).rows = b.rows.map fun r => (es.filter (·.file = r.path)).foldl Row.update r := by
  induction es generalizing b with
  | nil => simp [updates]
  | cons e es ih =>
    have hrows := rows_update hapart e
    have hpaths : (b.update e).rows.map (·.path) = b.rows.map (·.path) := by
      rw [hrows, List.map_map]
      refine List.map_congr_left fun r _ => ?_
      dsimp only [Function.comp]
      split
      · exact r.path_update e
      · rfl
    have hrest := ih (hpaths ▸ hapart)
    rw [hrows, List.map_map] at hrest
    change ((b.update e).updates es).rows = _
    rw [hrest]
    refine List.map_congr_left fun r _ => ?_
    dsimp only [Function.comp]
    split
    · rename_i hfile
      rw [List.filter_cons_of_pos (by simpa using hfile), List.foldl_cons, r.path_update e]
    · rename_i hfile
      rw [List.filter_cons_of_neg (by simpa using hfile)]

end Board

end TypedScript.Build
