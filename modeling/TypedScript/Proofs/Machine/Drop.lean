import TypedScript.Proofs.Machine.Heap

/-!
# Dropping references

What it means to take an owner from a value, as a relation between memories. The count of an object goes down by
one; when none is left, the counted fields of the object are dropped in order and then the object is given back.
`plan` tells, by the tag, which slots are counted, and for each of them whether it holds a function value, of
which only closures are counted.

While the fields of an object are dropped, the object may be reached again: its count is not positive, so its
fields are dropped once more, and again it is reached. Such a drop never comes to an end, so no derivation
contains one.

* `Drop.idle`: objects that wait for the end of the drop they lead to are not given back in it.
* `Drop.settled`: a drop gives back exactly the objects whose counts it brings down to zero.
-/

namespace TypedScript.Machine

open TypedScript.Layout

/-- Something to be dropped: a value, or the counted fields of an object that are left. -/
inductive Job where
  | value (v : Value)
  | fields (id : Nat) (todo : List (Bool × Nat))

/-- Whether the value is a closure. -/
def Memory.IsClosure (m : Memory) (v : Value) : Prop := ∃ id, v = .ptr (.object id) ∧ (m.object id).tag = closureTag

/-- The memory with another count for an object. -/
def Memory.setCount (m : Memory) (id : Nat) (c : Int) : Memory := m.put (.ptr (.field id countSlot)) (.int c)

/-- The owner that the value stands for, or the owners that the fields stand for, are taken away. -/
inductive Drop (plan : Int → List (Bool × Nat)) : Job → Memory → Memory → Prop
  | null (M : Memory) : Drop plan (.value .null) M M
  | keep {M : Memory} {id : Nat} {c : Int} (hcount : M.load (.ptr (.field id countSlot)) = .ok (.int c))
      (hc : 0 < c - 1) :
      Drop plan (.value (.ptr (.object id))) M (M.setCount id (c - 1))
  | free {M M' : Memory} {id : Nat} {c t : Int} (hcount : M.load (.ptr (.field id countSlot)) = .ok (.int c))
      (hc : c - 1 ≤ 0) (htag : (M.nth (id - 1)).tag = t)
        (hfields : Drop plan (.fields id (plan t)) (M.setCount id (c - 1)) M') :
      Drop plan (.value (.ptr (.object id))) M (M'.giveBack id)
  | done {id : Nat} (M : Memory) : Drop plan (.fields id []) M M
  | next {M M₁ M₂ : Memory} {id slot : Nat} {isFn : Bool} {v : Value} {todo : List (Bool × Nat)}
      (hload : M.load (.ptr (.field id slot)) = .ok v) (hv : isFn = true → M.IsClosure v)
      (hvalue : Drop plan (.value v) M M₁) (hfields : Drop plan (.fields id todo) M₁ M₂) :
      Drop plan (.fields id ((isFn, slot) :: todo)) M M₂
  | skip {M M₂ : Memory} {id slot : Nat} {v : Value} {todo : List (Bool × Nat)}
      (hload : M.load (.ptr (.field id slot)) = .ok v) (hv : ¬ M.IsClosure v)
      (hfields : Drop plan (.fields id todo) M M₂) :
      Drop plan (.fields id ((true, slot) :: todo)) M M₂

/-! ### What a drop leaves alone -/

/-- Only counts have changed, downwards, and objects were given back. -/
structure Decays (M M' : Memory) : Prop where
  size_eq : M'.objects.size = M.objects.size
  cells_eq : M'.cells = M.cells
  slot_eq : ∀ x k, k ≠ countSlot → (M'.nth x).slot k = (M.nth x).slot k
  count_slot : ∀ x, (M'.nth x).slot countSlot = (M.nth x).slot countSlot ∨ ∃ z, (M'.nth x).slot countSlot = .int z
  count_le : ∀ x, (M'.nth x).count ≤ (M.nth x).count
  released : ∀ x, (M.nth x).isReleased = true → M'.nth x = M.nth x

namespace Decays

theorem refl (M : Memory) : Decays M M :=
  ⟨rfl, rfl, fun _ _ _ => rfl, fun _ => .inl rfl, fun _ => Int.le_refl _, fun _ _ => rfl⟩

theorem trans {M M₁ M₂ : Memory} (h₁ : Decays M M₁) (h₂ : Decays M₁ M₂) : Decays M M₂ where
  size_eq := h₂.size_eq.trans h₁.size_eq
  cells_eq := h₂.cells_eq.trans h₁.cells_eq
  slot_eq x k hk := (h₂.slot_eq x k hk).trans (h₁.slot_eq x k hk)
  count_slot x := by
    rcases h₂.count_slot x with h | h
    · rw [h]
      exact h₁.count_slot x
    · exact .inr h
  count_le x := Int.le_trans (h₂.count_le x) (h₁.count_le x)
  released x hx := by
    have h := h₁.released x hx
    rw [← h] at hx
    exact (h₂.released x hx).trans h

theorem tag_eq {M M' : Memory} (h : Decays M M') (x : Nat) : (M'.nth x).tag = (M.nth x).tag := by
  unfold Object.tag
  rw [Object.word_eq, Object.word_eq, h.slot_eq x tagSlot (by decide)]

end Decays

/-- The count of an object that is in use, after the change. -/
theorem Memory.nth_setCount (m : Memory) (id : Nat) (c : Int) (x : Nat) :
    (m.setCount id c).nth x =
      if x = id - 1 ∧ x < m.objects.size then (m.nth x).store countSlot (.int c) else m.nth x :=
  m.nth_put_field id countSlot (.int c) x

theorem Memory.count_of_load {m : Memory} {id : Nat} {c : Int}
    (h : m.load (.ptr (.field id countSlot)) = .ok (.int c)) : (m.nth (id - 1)).count = c :=
  Object.word_of_slot (load_field_eq_ok h).2.2.1

theorem Memory.count_setCount {m : Memory} {id : Nat} (h : id - 1 < m.objects.size) (c : Int) :
    ((m.setCount id c).nth (id - 1)).count = c := by
  rw [nth_setCount, if_pos ⟨rfl, h⟩]
  exact Object.word_store_self _ _ _

theorem Memory.nth_setCount_of_ne {m : Memory} {id x : Nat} {c : Int} (h : x ≠ id - 1) :
    (m.setCount id c).nth x = m.nth x := by
  rw [nth_setCount, if_neg fun hx => h hx.1]

theorem Memory.isReleased_setCount (m : Memory) (id : Nat) (c : Int) (x : Nat) :
    ((m.setCount id c).nth x).isReleased = (m.nth x).isReleased := by
  rw [nth_setCount]
  split <;> rfl

theorem Memory.size_setCount (m : Memory) (id : Nat) (c : Int) : (m.setCount id c).objects.size = m.objects.size :=
  m.size_put _ _

theorem decays_setCount {M : Memory} {id : Nat} {c d : Int} (h : M.load (.ptr (.field id countSlot)) = .ok (.int c))
    (hd : d ≤ c) : Decays M (M.setCount id d) where
  size_eq := M.size_setCount id d
  cells_eq := rfl
  slot_eq x k hk := by
    rw [M.nth_setCount]
    split
    · rw [Object.slot_store, if_neg hk]
    · rfl
  count_slot x := by
    rw [M.nth_setCount]
    split
    · exact .inr ⟨d, by rw [Object.slot_store, if_pos rfl]⟩
    · exact .inl rfl
  count_le x := by
    by_cases hx : x = id - 1
    · subst hx
      rw [M.count_setCount (Memory.load_field_eq_ok h).1, M.count_of_load h]
      exact hd
    · exact Int.le_of_eq (by rw [Memory.nth_setCount_of_ne hx])
  released x hx := by
    have hne : x ≠ id - 1 := by
      rintro rfl
      rw [(Memory.load_field_eq_ok h).2.1] at hx
      cases hx
    exact Memory.nth_setCount_of_ne hne

theorem decays_giveBack (M : Memory) (id : Nat) : Decays M (M.giveBack id) where
  size_eq := M.size_giveBack id
  cells_eq := rfl
  slot_eq x k _ := by
    rw [M.nth_giveBack]
    split <;> rfl
  count_slot x := by
    rw [M.nth_giveBack]
    split <;> exact .inl rfl
  count_le x := by
    rw [M.nth_giveBack]
    split <;> exact Int.le_refl _
  released x hx := by
    rw [M.nth_giveBack]
    split
    · cases h : M.nth x
      rw [h] at hx
      cases hx
      rfl
    · rfl

variable {plan : Int → List (Bool × Nat)} {job : Job} {M M' : Memory}

theorem Drop.decays (h : Drop plan job M M') : Decays M M' := by
  induction h with
  | null M => exact Decays.refl M
  | keep hcount _ => exact decays_setCount hcount (by omega)
  | free hcount _ _ _ ih => exact ((decays_setCount hcount (by omega)).trans ih).trans (decays_giveBack _ _)
  | done M => exact Decays.refl M
  | next _ _ _ _ ih₁ ih₂ => exact ih₁.trans ih₂
  | skip _ _ _ ih => exact ih

/-! ### Objects that wait -/

/-- The object is in use and has no owner. -/
structure Idle (M : Memory) (x : Nat) : Prop where
  inUse : (M.nth x).isReleased = false
  count_le : (M.nth x).count ≤ 0

/-- An object that waits can be given back. -/
theorem checkRelease_of_idle {id : Nat} (h : Idle M (id - 1)) : M.checkRelease (.ptr (.object id)) = .ok id := by
  have hcount : ¬ (M.object id).count > 0 := Int.not_lt.2 h.count_le
  simp only [Memory.checkRelease]
  rw [if_neg (by rw [Memory.object_eq, h.inUse]; decide), if_neg hcount]

/-- The value points to the object. -/
def Points (v : Value) (w : Nat) : Prop := ∃ id, v = .ptr (.object id) ∧ id - 1 = w

/-- Dropping the field of the object `x` drops the object `w`. -/
def FieldLeads (M : Memory) (x : Nat) (p : Bool × Nat) (w : Nat) : Prop :=
  Points ((M.nth x).slot p.2) w ∧ (p.1 = true → (M.nth w).tag = closureTag)

/-- Dropping the fields of the object `x` drops the object `w`. -/
def Leads (plan : Int → List (Bool × Nat)) (M : Memory) (x w : Nat) : Prop :=
  ∃ p ∈ plan (M.nth x).tag, FieldLeads M x p w

theorem FieldLeads.decays {x w : Nat} {p : Bool × Nat} (h : Decays M M') (hp : p.2 ≠ countSlot) :
    FieldLeads M' x p w ↔ FieldLeads M x p w := by
  unfold FieldLeads
  rw [h.slot_eq x p.2 hp, h.tag_eq w]

theorem Leads.decays {x w : Nat} (hplan : ∀ t, ∀ p ∈ plan t, p.2 ≠ countSlot) (h : Decays M M')
    (hl : Leads plan M x w) :
    Leads plan M' x w := by
  obtain ⟨p, hp, hw⟩ := hl
  refine ⟨p, ?_, (FieldLeads.decays h (hplan _ p hp)).2 hw⟩
  rw [h.tag_eq x]
  exact hp

/-- Every object of `D` waits, and leads to an object of `D` or to the value that is dropped. -/
structure Waits (plan : Int → List (Bool × Nat)) (M : Memory) (D : Nat → Prop) (v : Value) : Prop where
  idle : ∀ x, D x → Idle M x
  leads : ∀ x, D x → ∃ w, Leads plan M x w ∧ (D w ∨ Points v w)

/-- The objects of `D` wait, one of them for the fields that are dropped, and each other one for an object of `D`.
-/
structure WaitsFor (plan : Int → List (Bool × Nat)) (M : Memory) (D : Nat → Prop) (x : Nat) : Prop where
  mem : D x
  idle : ∀ y, D y → Idle M y
  leads : ∀ y, D y → y ≠ x → ∃ w, Leads plan M y w ∧ D w

/-- Outside of `D`, the objects that were given back are those without owners; each was given back once. -/
structure SettledOutside (M : Memory) (D : Nat → Prop) : Prop where
  released_iff : ∀ x, x < M.objects.size → ¬ D x → ((M.nth x).isReleased = true ↔ (M.nth x).count ≤ 0)
  releases_eq : M.releases = M.released

/-- What a drop does to objects that wait for its end, and to the others. -/
structure Spared (M M' : Memory) (D : Nat → Prop) : Prop where
  idle : ∀ x, D x → Idle M' x
  settled : SettledOutside M D → SettledOutside M' D

/-- A drop spares the objects that wait for its end, and does not come across them. -/
def Job.Spares (plan : Int → List (Bool × Nat)) (M M' : Memory) : Job → Prop
  | .value v => ∀ D, Waits plan M D v → (∀ w, Points v w → ¬ D w) ∧ Spared M M' D
  | .fields id todo => (∀ p ∈ todo, p ∈ plan (M.nth (id - 1)).tag) → ∀ D, WaitsFor plan M D (id - 1) →
      (∀ p ∈ todo, ∀ w, FieldLeads M (id - 1) p w → ¬ D w) ∧ Spared M M' D

/-- A change of one count settles nothing else. -/
theorem SettledOutside.setCount {D : Nat → Prop} {c : Int} (h : SettledOutside M D) (id : Nat) :
    SettledOutside (M.setCount id c) fun x => x = id - 1 ∨ D x where
  released_iff x hx hD := by
    rw [Memory.nth_setCount_of_ne fun h => hD (Or.inl h)]
    exact h.released_iff x (by rwa [M.size_setCount] at hx) fun h => hD (Or.inr h)
  releases_eq := h.releases_eq.trans (M.released_put _ _).symm

/-- One object less is left out, if it is settled. -/
theorem SettledOutside.include {D D' : Nat → Prop} (h : SettledOutside M D)
    (hD : ∀ x, x < M.objects.size → ¬ D' x → D x → ((M.nth x).isReleased = true ↔ (M.nth x).count ≤ 0)) :
    SettledOutside M D' where
  released_iff x hx hD' := by
    by_cases hDx : D x
    · exact hD x hx hD' hDx
    · exact h.released_iff x hx hDx
  releases_eq := h.releases_eq

/-- An object that waits is settled when it is given back. -/
theorem SettledOutside.giveBack {D : Nat → Prop} {id : Nat} (h : SettledOutside M fun x => x = id - 1 ∨ D x)
    (hid : Idle M (id - 1)) (hlt : id - 1 < M.objects.size) : SettledOutside (M.giveBack id) D where
  released_iff x hx hD := by
    rw [M.size_giveBack] at hx
    rw [M.nth_giveBack]
    by_cases hxid : x = id - 1
    · rw [if_pos ⟨hxid, hx⟩]
      exact ⟨fun _ => hxid ▸ hid.count_le, fun _ => rfl⟩
    · rw [if_neg fun h => hxid h.1]
      exact h.released_iff x hx fun h => h.elim hxid hD
  releases_eq := by
    rw [Memory.released_giveBack hlt hid.inUse, ← h.releases_eq]
    rfl

theorem Idle.decays {x : Nat} (h : Decays M M') (hr : (M'.nth x).isReleased = false) (hx : Idle M x) : Idle M' x :=
  ⟨hr, Int.le_trans (h.count_le x) hx.count_le⟩

/-- A value that points to no object changes nothing. -/
theorem Drop.eq_of_not_points {v : Value} (h : Drop plan (.value v) M M') (hv : ∀ w, ¬ Points v w) : M' = M := by
  cases h with
  | null => rfl
  | keep => exact absurd ⟨_, rfl, rfl⟩ (hv _)
  | free => exact absurd ⟨_, rfl, rfl⟩ (hv _)

/-- What waits for the drop of an object leads, after a change of its count, to an object that waits or to the
object. -/
theorem Waits.exists_leads {D : Nat → Prop} {id y : Nat} {c d : Int} (h : Waits plan M D (.ptr (.object id)))
    (hplan : ∀ t, ∀ p ∈ plan t, p.2 ≠ countSlot) (hcount : M.load (.ptr (.field id countSlot)) = .ok (.int c))
    (hd : d ≤ c) (hy : D y) : ∃ w, Leads plan (M.setCount id d) y w ∧ (D w ∨ w = id - 1) := by
  obtain ⟨w, hw, hDw⟩ := h.leads y hy
  refine ⟨w, hw.decays hplan (decays_setCount hcount hd), hDw.imp_right ?_⟩
  rintro ⟨id', hid, rfl⟩
  cases hid
  rfl

/-- An object that keeps an owner did not wait. -/
theorem spares_keep {id : Nat} {c : Int} (hcount : M.load (.ptr (.field id countSlot)) = .ok (.int c))
    (hc : 0 < c - 1) : Job.Spares plan M (M.setCount id (c - 1)) (.value (.ptr (.object id))) := by
  intro D hD
  have hnot : ¬ D (id - 1) := fun h => by
    have := (hD.idle _ h).count_le
    rw [M.count_of_load hcount] at this
    omega
  refine ⟨?_, fun x hx => ?_, fun h => ?_⟩
  · rintro w ⟨id', hid, rfl⟩
    cases hid
    exact hnot
  · have hne : x ≠ id - 1 := fun h => hnot (h ▸ hx)
    have := hD.idle x hx
    exact ⟨by rw [Memory.nth_setCount_of_ne hne]; exact this.inUse,
      by rw [Memory.nth_setCount_of_ne hne]; exact this.count_le⟩
  · refine (h.setCount id).include fun x hx hDx hor => ?_
    obtain rfl := hor.resolve_right hDx
    obtain ⟨hlt, huse, -, -⟩ := Memory.load_field_eq_ok hcount
    rw [M.isReleased_setCount, huse, M.count_setCount hlt]
    simp only [Bool.false_eq_true, false_iff]
    omega

/-- An object that has lost its last owner waits, with those that waited for it, while its fields are dropped. -/
theorem spares_free {id : Nat} {c t : Int} (hplan : ∀ t, ∀ p ∈ plan t, p.2 ≠ countSlot)
    (hcount : M.load (.ptr (.field id countSlot)) = .ok (.int c)) (hc : c - 1 ≤ 0)
    (htag : (M.nth (id - 1)).tag = t) (hsize : M'.objects.size = (M.setCount id (c - 1)).objects.size)
    (hfields : Job.Spares plan (M.setCount id (c - 1)) M' (.fields id (plan t))) :
    Job.Spares plan M (M'.giveBack id) (.value (.ptr (.object id))) := by
  intro D hD
  obtain ⟨hlt, huse, -, -⟩ := Memory.load_field_eq_ok hcount
  have hle : c - 1 ≤ c := by omega
  have hdec := decays_setCount hcount hle
  have hidle : ∀ x, D x → Idle (M.setCount id (c - 1)) x := fun x hx =>
    Idle.decays hdec (by rw [M.isReleased_setCount]; exact (hD.idle x hx).inUse) (hD.idle x hx)
  have htag' : ((M.setCount id (c - 1)).nth (id - 1)).tag = t := by rw [hdec.tag_eq, htag]
  have hsub : ∀ p ∈ plan t, p ∈ plan ((M.setCount id (c - 1)).nth (id - 1)).tag := by
    rw [htag']
    exact fun p hp => hp
  -- the object does not wait itself: the drop of its fields would lead to an object that waits
  have hnot : ¬ D (id - 1) := by
    intro hmem
    have hleads : ∀ y, D y → ∃ w, Leads plan (M.setCount id (c - 1)) y w ∧ D w := by
      intro y hy
      obtain ⟨w, hw, hDw⟩ := hD.exists_leads hplan hcount hle hy
      exact ⟨w, hw, hDw.elim (fun h => h) fun h => h ▸ hmem⟩
    obtain ⟨hfree, -⟩ := hfields hsub D ⟨hmem, hidle, fun y hy _ => hleads y hy⟩
    obtain ⟨w, ⟨p, hp, hw⟩, hDw⟩ := hleads _ hmem
    rw [htag'] at hp
    exact hfree p hp w hw hDw
  have hwait : WaitsFor plan (M.setCount id (c - 1)) (fun y => y = id - 1 ∨ D y) (id - 1) := by
    refine ⟨Or.inl rfl, ?_, ?_⟩
    · rintro y (rfl | hy)
      · exact ⟨by rw [M.isReleased_setCount]; exact huse, by rw [M.count_setCount hlt]; exact hc⟩
      · exact hidle y hy
    · rintro y (rfl | hy) hne
      · exact absurd rfl hne
      · obtain ⟨w, hw, hDw⟩ := hD.exists_leads hplan hcount hle hy
        exact ⟨w, hw, hDw.symm⟩
  obtain ⟨-, hspared⟩ := hfields hsub _ hwait
  refine ⟨?_, fun x hx => ?_, fun h => ?_⟩
  · rintro w ⟨id', hid, rfl⟩
    cases hid
    exact hnot
  · have hx' := hspared.idle x (Or.inr hx)
    have hne : ¬ (x = id - 1 ∧ x < M'.objects.size) := fun h => hnot (h.1 ▸ hx)
    exact ⟨by rw [M'.nth_giveBack, if_neg hne]; exact hx'.inUse,
      by rw [M'.nth_giveBack, if_neg hne]; exact hx'.count_le⟩
  · refine (hspared.settled (h.setCount id)).giveBack (hspared.idle _ (Or.inl rfl)) ?_
    rw [hsize, M.size_setCount]
    exact hlt

/-- While the first field is dropped, what waits for the object waits for the field, if that points to an object. -/
theorem spares_first {D : Nat → Prop} {id slot : Nat} {isFn : Bool} {v : Value} {M₁ : Memory}
    (hload : M.load (.ptr (.field id slot)) = .ok v) (hv : isFn = true → M.IsClosure v)
    (hvalue : Drop plan (.value v) M M₁) (ih : Job.Spares plan M M₁ (.value v))
    (hmem : (isFn, slot) ∈ plan (M.nth (id - 1)).tag) (hD : WaitsFor plan M D (id - 1)) :
    (∀ w, Points v w → ¬ D w) ∧ Spared M M₁ D := by
  have hslot : (M.nth (id - 1)).slot slot = v := (Memory.load_field_eq_ok hload).2.2.1
  by_cases hp : ∃ w, Points v w
  · obtain ⟨w, hw⟩ := hp
    refine ih D ⟨hD.idle, fun x hx => ?_⟩
    by_cases hxid : x = id - 1
    · subst hxid
      refine ⟨w, ⟨(isFn, slot), hmem, by rw [hslot]; exact hw, fun hfn => ?_⟩, Or.inr hw⟩
      obtain ⟨id₁, hid₁, htag⟩ := hv hfn
      obtain ⟨id₂, hid₂, rfl⟩ := hw
      rw [hid₁] at hid₂
      cases hid₂
      exact htag
    · obtain ⟨w', hw', hDw'⟩ := hD.leads x hx hxid
      exact ⟨w', hw', Or.inl hDw'⟩
  · rw [hvalue.eq_of_not_points fun w hw => hp ⟨w, hw⟩]
    exact ⟨fun w hw => absurd ⟨w, hw⟩ hp, hD.idle, fun h => h⟩

/-- The induction is on the derivation; only an object that loses its last owner adds to the objects that wait. -/
theorem Drop.spares (hplan : ∀ t, ∀ p ∈ plan t, p.2 ≠ countSlot) (h : Drop plan job M M') :
    job.Spares plan M M' := by
  induction h with
  | null M =>
    intro D hD
    refine ⟨?_, hD.idle, fun h => h⟩
    rintro w ⟨id, hid, -⟩
    cases hid
  | keep hcount hc => exact spares_keep hcount hc
  | free hcount hc htag hfields ih => exact spares_free hplan hcount hc htag hfields.decays.size_eq ih
  | done M =>
    intro _ D hD
    exact ⟨fun p hp => (List.not_mem_nil hp).elim, hD.idle, fun h => h⟩
  | @next M M₁ M₂ id slot isFn v todo hload hv hvalue hfields ih₁ ih₂ =>
    intro hsub D hD
    have hdec := hvalue.decays
    have hfirst := spares_first hload hv hvalue ih₁ (hsub (isFn, slot) (List.mem_cons_self ..)) hD
    have hsub' : ∀ p ∈ todo, p ∈ plan (M₁.nth (id - 1)).tag := by
      intro p hp
      rw [hdec.tag_eq]
      exact hsub p (List.mem_cons_of_mem _ hp)
    have hwait : WaitsFor plan M₁ D (id - 1) := by
      refine ⟨hD.mem, hfirst.2.idle, fun y hy hne => ?_⟩
      obtain ⟨w, hw, hDw⟩ := hD.leads y hy hne
      exact ⟨w, hw.decays hplan hdec, hDw⟩
    obtain ⟨hrest, hspared⟩ := ih₂ hsub' D hwait
    refine ⟨fun p hp w hw => ?_, hspared.idle, fun h => hspared.settled (hfirst.2.settled h)⟩
    rcases List.mem_cons.1 hp with rfl | hp
    · have := hw.1
      rw [(Memory.load_field_eq_ok hload).2.2.1] at this
      exact hfirst.1 w this
    · exact hrest p hp w ((FieldLeads.decays hdec (hplan _ p (hsub p (List.mem_cons_of_mem _ hp)))).2 hw)
  | @skip M M₂ id slot v todo hload hv hfields ih =>
    intro hsub D hD
    have hslot : (M.nth (id - 1)).slot slot = v := (Memory.load_field_eq_ok hload).2.2.1
    obtain ⟨hrest, hspared⟩ := ih (fun p hp => hsub p (List.mem_cons_of_mem _ hp)) D hD
    refine ⟨fun p hp w hw => ?_, hspared⟩
    rcases List.mem_cons.1 hp with rfl | hp
    · obtain ⟨⟨id', hid', rfl⟩, htag⟩ := hw
      rw [hslot] at hid'
      exact absurd ⟨id', hid', htag rfl⟩ hv
    · exact hrest p hp w hw

/-- While the fields of an object are dropped, the object itself is not given back. -/
theorem Drop.idle (hplan : ∀ t, ∀ p ∈ plan t, p.2 ≠ countSlot) {id : Nat} {todo : List (Bool × Nat)}
    (h : Drop plan (.fields id todo) M M') (hsub : ∀ p ∈ todo, p ∈ plan (M.nth (id - 1)).tag)
    (hid : Idle M (id - 1)) : Idle M' (id - 1) := by
  have hwait : WaitsFor plan M (fun y => y = id - 1) (id - 1) :=
    ⟨rfl, fun y hy => hy ▸ hid, fun y hy hne => absurd hy hne⟩
  exact (h.spares hplan hsub _ hwait).2.idle _ rfl

/-- A drop of a value gives back exactly the objects whose last owners it takes away. -/
theorem Drop.settled (hplan : ∀ t, ∀ p ∈ plan t, p.2 ≠ countSlot) {v : Value} (h : Drop plan (.value v) M M')
    (hM : SettledOutside M fun _ => False) : SettledOutside M' fun _ => False := by
  have hwait : Waits plan M (fun _ => False) v := ⟨fun _ hx => hx.elim, fun _ hx => hx.elim⟩
  exact (h.spares hplan _ hwait).2.settled hM

end TypedScript.Machine
