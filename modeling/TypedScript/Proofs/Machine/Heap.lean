import TypedScript.Machine.Memory

/-!
# Slots, counts and changes of memory

Objects are numbered from one. Here they are told by their places, which count from zero: the object with the
number `id` is at the place `id - 1`.

* `Object.slot_store`: a store changes one slot.
* `Memory.nth_put_field`, `Memory.nth_giveBack`, `Memory.nth_addObject`: what becomes of the objects.
* `Memory.load_field_eq_ok`: what a load through a field of an object tells.
* `Memory.nth_put_of_isReleased`: a write does not touch what was given back.
-/

namespace TypedScript.Machine

open TypedScript.Layout

/-! ### Objects -/

namespace Object

/-- What a slot holds; nothing valid before the first store. -/
def slot (o : Object) (k : Nat) : Value := o.slots.getD k .invalid

theorem word_eq (o : Object) (k : Nat) : o.word k = match o.slot k with
    | .int v => v
    | _ => -1 := by
  unfold word slot
  rw [Array.getD_eq_getD_getElem?]
  cases o.slots[k]? with
  | none => rfl
  | some v => cases v <;> rfl

theorem word_of_slot {o : Object} {k : Nat} {v : Int} (h : o.slot k = .int v) : o.word k = v := by
  rw [word_eq, h]

theorem slot_store (o : Object) (j k : Nat) (v : Value) : (o.store j v).slot k = if k = j then v else o.slot k := by
  simp only [store, slot, Array.getD_eq_getD_getElem?, Array.getElem?_setIfInBounds, Array.size_append,
    Array.size_replicate, Array.getElem?_append, Array.getElem?_replicate]
  by_cases hk : k = j
  · subst hk
    have hlt : k < o.slots.size + (k + 1 - o.slots.size) := by omega
    simp [hlt]
  · have hjk : j ≠ k := fun h => hk h.symm
    by_cases hs : k < o.slots.size
    · simp [hk, hjk, hs]
    · have hnone : o.slots[k]? = none := Array.getElem?_eq_none (by omega)
      simp only [hk, hjk, hs, hnone, if_false]
      split <;> rfl

theorem word_store_of_ne {o : Object} {j k : Nat} {v : Value} (h : k ≠ j) : (o.store j v).word k = o.word k := by
  rw [word_eq, word_eq, slot_store, if_neg h]

theorem word_store_self (o : Object) (j : Nat) (v : Int) : (o.store j (.int v)).word j = v := by
  rw [word_eq, slot_store, if_pos rfl]

/-- No one owns the object: it has no count, or none above zero. -/
def Unowned (o : Object) : Prop := ∀ z, o.slot countSlot = .int z → z ≤ 0

theorem unowned_iff {o : Object} : o.Unowned ↔ o.count ≤ 0 := by
  unfold Unowned count
  rw [word_eq]
  cases o.slot countSlot <;> simp

theorem mem_slots_store {o : Object} {slot : Nat} {v w : Value} (h : w ∈ (o.store slot v).slots) :
    w ∈ o.slots ∨ w = .invalid ∨ w = v := by
  unfold store at h
  rcases Array.mem_or_eq_of_mem_setIfInBounds h with h | h
  · rcases Array.mem_append.1 h with h | h
    · exact .inl h
    · exact .inr (.inl (Array.mem_replicate.1 h).2)
  · exact .inr (.inr h)

end Object

/-! ### Memory -/

namespace Memory

/-- The object at a place; one without slots beyond the last. -/
def nth (m : Memory) (x : Nat) : Object := m.objects.getD x default

theorem object_eq (m : Memory) (id : Nat) : m.object id = m.nth (id - 1) := rfl

theorem nth_mem {m : Memory} {x : Nat} (h : x < m.objects.size) : m.nth x ∈ m.objects := by
  unfold nth
  rw [Array.getD_eq_getD_getElem?, Array.getElem?_eq_getElem h]
  exact Array.getElem_mem h

theorem mem_iff_nth {m : Memory} {o : Object} : o ∈ m.objects ↔ ∃ x, x < m.objects.size ∧ m.nth x = o := by
  constructor
  · intro h
    obtain ⟨x, hx, rfl⟩ := Array.mem_iff_getElem.1 h
    exact ⟨x, hx, by simp [nth, hx]⟩
  · rintro ⟨x, hx, rfl⟩
    exact nth_mem hx

theorem nth_of_le {m : Memory} {x : Nat} (h : m.objects.size ≤ x) : m.nth x = default := by
  simp [nth, Array.getD_eq_getD_getElem?, Array.getElem?_eq_none h]

private theorem nth_modify (a : Array Object) (f : Object → Object) (y x : Nat) :
    (a.modify y f).getD x default = if x = y ∧ x < a.size then f (a.getD x default) else a.getD x default := by
  simp only [Array.getD_eq_getD_getElem?, Array.getElem?_modify]
  by_cases hx : x < a.size
  · by_cases hy : x = y
    · subst hy; simp [hx]
    · have hyx : y ≠ x := fun h => hy h.symm
      simp [hy, hyx]
  · simp [hx]

theorem nth_put_field (m : Memory) (id j : Nat) (v : Value) (x : Nat) :
    (m.put (.ptr (.field id j)) v).nth x =
      if x = id - 1 ∧ x < m.objects.size then (m.nth x).store j v else m.nth x :=
  nth_modify m.objects _ (id - 1) x

theorem nth_giveBack (m : Memory) (id x : Nat) :
    (m.giveBack id).nth x =
      if x = id - 1 ∧ x < m.objects.size then { m.nth x with isReleased := true } else m.nth x :=
  nth_modify m.objects _ (id - 1) x

theorem nth_addObject (m : Memory) (size : Int) (x : Nat) :
    (m.addObject size).nth x = if x = m.objects.size then { size } else m.nth x := by
  simp only [addObject, nth, Array.getD_eq_getD_getElem?, Array.getElem?_push]
  by_cases h : x = m.objects.size
  · simp [h]
  · simp [h]

@[simp] theorem size_put (m : Memory) (a v : Value) : (m.put a v).objects.size = m.objects.size := by
  unfold put
  split <;> simp

@[simp] theorem size_giveBack (m : Memory) (id : Nat) : (m.giveBack id).objects.size = m.objects.size := by
  simp [giveBack]

@[simp] theorem size_addObject (m : Memory) (size : Int) : (m.addObject size).objects.size =
    m.objects.size + 1 := by
  simp [addObject]

theorem lt_of_isReleased {m : Memory} {x : Nat} (h : (m.nth x).isReleased = true) : x < m.allocs := by
  refine Nat.lt_of_not_le fun hle => ?_
  rw [nth_of_le hle] at h
  cases h

theorem isReleased_of_checkLive {m : Memory} {id slot : Nat} (h : m.checkLive id slot = .ok ()) :
    (m.nth (id - 1)).isReleased = false := by
  unfold checkLive at h
  split at h
  · cases h
  · rename_i hr
    simpa [object_eq] using hr

theorem eq_of_checkRelease {m : Memory} {v : Value} {id : Nat} (h : m.checkRelease v = .ok id) :
    v = .ptr (.object id) ∧ (m.nth (id - 1)).isReleased = false ∧ (m.nth (id - 1)).Unowned := by
  unfold checkRelease at h
  split at h
  · dsimp only at h
    split at h
    · cases h
    · split at h
      · cases h
      · rename_i hr hcount
        cases h
        rw [object_eq] at hr hcount
        exact ⟨rfl, by simpa using hr, Object.unowned_iff.2 (Int.not_lt.1 hcount)⟩
  · cases h

/-- A write changes one object at most. -/
theorem nth_put_cases (m : Memory) (a v : Value) (x : Nat) : (m.put a v).nth x = m.nth x ∨
    ∃ id slot, a = .ptr (.field id slot) ∧ x = id - 1 ∧ (m.put a v).nth x = (m.nth x).store slot v := by
  unfold put
  split
  · exact .inl rfl
  · rename_i objects releases cells id slot
    have hnth := nth_put_field ⟨objects, releases, cells⟩ id slot v x
    by_cases hx : x = id - 1 ∧ x < objects.size
    · exact .inr ⟨id, slot, rfl, hx.1, hnth.trans (if_pos hx)⟩
    · exact .inl (hnth.trans (if_neg hx))
  · exact .inl rfl

theorem isReleased_put (m : Memory) (a v : Value) (x : Nat) : ((m.put a v).nth x).isReleased =
    (m.nth x).isReleased := by
  rcases nth_put_cases m a v x with h | ⟨_, _, -, -, h⟩ <;> rw [h]
  rfl

theorem size_nth_put (m : Memory) (a v : Value) (x : Nat) : ((m.put a v).nth x).size = (m.nth x).size := by
  rcases nth_put_cases m a v x with h | ⟨_, _, -, -, h⟩ <;> rw [h]
  rfl

theorem mem_slots_put {m : Memory} {a v : Value} {x : Nat} {w : Value} (hw : w ∈ ((m.put a v).nth x).slots) :
    w ∈ (m.nth x).slots ∨ w = .invalid ∨ w = v := by
  rcases nth_put_cases m a v x with h | ⟨_, _, -, -, h⟩ <;> rw [h] at hw
  · exact .inl hw
  · exact Object.mem_slots_store hw

/-- A write does not touch what was given back. -/
theorem nth_put_of_isReleased {m : Memory} {a v : Value} {x : Nat} (hs : m.checkStore a = .ok ())
    (hx : (m.nth x).isReleased = true) :
    (m.put a v).nth x = m.nth x := by
  rcases nth_put_cases m a v x with h | ⟨id, slot, rfl, rfl, -⟩
  · exact h
  · rw [isReleased_of_checkLive hs] at hx
    cases hx

theorem mem_cells_put {m : Memory} {a v : Value} {w : Value} (hw : w ∈ (m.put a v).cells) :
    w ∈ m.cells ∨ w = v := by
  unfold put at hw
  split at hw
  · exact Array.mem_or_eq_of_mem_setIfInBounds hw
  · exact .inl hw
  · exact .inl hw

theorem load_field_eq_ok {m : Memory} {id k : Nat} {v : Value} (h : m.load (.ptr (.field id k)) = .ok v) :
    id - 1 < m.objects.size ∧ (m.nth (id - 1)).isReleased = false ∧ (m.nth (id - 1)).slot k = v ∧ v ≠ .invalid := by
  rw [load] at h
  cases hr : (m.nth (id - 1)).isReleased with
  | true =>
    have hc : m.checkLive id k = .error _ := if_pos hr
    rw [hc] at h
    cases h
  | false =>
    have hc : m.checkLive id k = .ok () := if_neg (by rw [object_eq, hr]; decide)
    have hs : (m.nth (id - 1)).slot k = v ∧ v ≠ .invalid := by
      rw [hc] at h
      simp only [bind, Except.bind] at h
      split at h
      · cases h
      · rename_i u hu
        cases h
        exact ⟨rfl, fun hv => hu hv⟩
    refine ⟨?_, rfl, hs⟩
    by_cases hx : id - 1 < m.objects.size
    · exact hx
    · -- beyond the last object no slot holds anything
      rw [nth_of_le (Nat.le_of_not_lt hx)] at hs
      exact absurd hs.1.symm hs.2

/-- What a slot of an object that is in use holds can be loaded. -/
theorem load_field {m : Memory} {id k : Nat} {v : Value} (hr : (m.nth (id - 1)).isReleased = false)
    (hs : (m.nth (id - 1)).slot k = v) (hv : v ≠ .invalid) : m.load (.ptr (.field id k)) = .ok v := by
  have hc : m.checkLive id k = .ok () := if_neg (by rw [object_eq, hr]; decide)
  have hslot : (m.object id).slots.getD k .invalid = v := hs
  rw [load, hc]
  simp only [bind, Except.bind, hslot]

/-! ### Objects that were given back -/

/-- How many objects are marked as given back. -/
def released (m : Memory) : Nat := m.objects.countP (·.isReleased)

private theorem countP_modify {a : Array Object} {y : Nat} (h : y < a.size) (f : Object → Object) :
    (a.modify y f).countP (·.isReleased) = a.countP (·.isReleased)
      - (if (a.getD y default).isReleased then 1 else 0) + if (f (a.getD y default)).isReleased then 1 else 0 := by
  have hl : y < a.toList.length := h
  have hd : (a.toList[y]?).getD default = a.toList[y] := by simp [h]
  have hg : a.getD y default = a.toList[y] := by simp [h]
  rw [← Array.countP_toList, ← Array.countP_toList, Array.toList_modify, List.modify_eq_set,
    List.countP_set hl, hd, hg]

private theorem countP_modify_of_eq (a : Array Object) (y : Nat) {f : Object → Object}
    (hf : ∀ o, (f o).isReleased = o.isReleased) :
    (a.modify y f).countP (·.isReleased) = a.countP (·.isReleased) := by
  have hmap : ∀ b : Array Object, b.countP (·.isReleased) = (b.toList.map (·.isReleased)).countP id := fun b => by
    rw [List.countP_map, ← Array.countP_toList]
    rfl
  rw [hmap, hmap, Array.toList_modify]
  congr 1
  refine List.ext_getElem (by simp) fun i _ _ => ?_
  simp only [List.getElem_map, List.getElem_modify]
  split
  · rw [hf]
  · rfl

theorem released_put (m : Memory) (a v : Value) : (m.put a v).released = m.released := by
  unfold put
  split
  · rfl
  · exact countP_modify_of_eq _ _ fun _ => rfl
  · rfl

theorem released_giveBack {m : Memory} {id : Nat} (hlt : id - 1 < m.objects.size)
    (hr : (m.nth (id - 1)).isReleased = false) : (m.giveBack id).released = m.released + 1 := by
  refine (countP_modify hlt _).trans ?_
  have hr' : (m.objects.getD (id - 1) default).isReleased = false := hr
  rw [hr']
  rfl

theorem releases_put (m : Memory) (a v : Value) : (m.put a v).releases = m.releases := by
  unfold put
  split <;> rfl

theorem released_addObject (m : Memory) (size : Int) : (m.addObject size).released = m.released := by
  simp [addObject, released]

/-- Nothing is live if everything was given back. -/
theorem live_eq_nil_iff {m : Memory} : m.live = [] ↔ ∀ obj ∈ m.objects, obj.isReleased = true := by
  simp only [live, numbered, List.filter_eq_nil_iff, List.mem_map, Prod.exists, forall_exists_index, and_imp]
  constructor
  · intro h obj hobj
    obtain ⟨i, hi⟩ := Array.mem_iff_getElem?.1 hobj
    have hmem : (obj, i) ∈ m.objects.toList.zipIdx := by
      rw [List.mem_zipIdx_iff_getElem?]
      simpa using hi
    simpa using h _ obj i hmem rfl
  · rintro h _ obj i hmem rfl
    have hobj : obj ∈ m.objects := by
      rw [List.mem_zipIdx_iff_getElem?] at hmem
      exact Array.mem_of_getElem? (by simpa using hmem)
    simpa using h obj hobj

/-- A check for leaks succeeds if as many objects were given back as there are. -/
theorem checkBalanced_eq_ok_iff {m : Memory} : m.checkBalanced = .ok () ↔ m.released = m.allocs := by
  have hall : m.live = [] ↔ m.released = m.allocs := live_eq_nil_iff.trans Array.countP_eq_size.symm
  rw [← hall]
  unfold checkBalanced
  cases m.live with
  | nil => exact ⟨fun _ => rfl, fun _ => rfl⟩
  | cons o os => exact iff_of_false (nomatch ·) (nomatch ·)

end Memory

end TypedScript.Machine
