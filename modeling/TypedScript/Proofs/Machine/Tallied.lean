import Mathlib.Algebra.Order.BigOperators.Group.Finset
import Mathlib.Data.Finset.Card
import Mathlib.Data.Fintype.EquivFin
import Mathlib.Data.Fintype.Sets
import Mathlib.Order.Preorder.Finite
import TypedScript.Proofs.Machine.Cascade

/-!
# Exact counts

A heap is tallied if the count of every object says how many counted fields point to it and how many owners it has
beside them. In such a heap a drop always comes to its end, and the heap is tallied again.

An object whose last owner is gone waits until its own fields have been dropped. No field of another object leads
to it any more, so it can be left out: the induction is on the set of the objects that do not wait, and what the
fields of those that wait point to counts as owned from outside.

* `Tallied.exists_cascade`: there is a drop, and what it leaves is tallied.
* `Reaped.mem_iff`: what is left is what can be reached from the owners that are left.
-/

namespace TypedScript.Machine

open TypedScript.Layout

section

variable {plan : Int → List (Bool × Nat)} {M M' : Memory} {log : List Deed}

/-! ### Tallied heaps -/

/-- The value can be dropped: it is null, or points to one of the objects. In a field for functions it may also be
a function without an environment, and objects are closures. -/
inductive Fits (M : Memory) (L : Finset Nat) (isFn : Bool) : Value → Prop
  | null : Fits M L isFn .null
  | object {id : Nat} (hid : id - 1 ∈ L) (hfn : isFn = true → (M.nth (id - 1)).tag = closureTag) :
      Fits M L isFn (.ptr (.object id))
  | code {f : String} (hfn : isFn = true) : Fits M L isFn (.ptr (.code f))

/-- How many owners an object has: the counted fields of the objects `L` that point to it, and those outside. -/
def Memory.owners (M : Memory) (plan : Int → List (Bool × Nat)) (ext : Nat → Nat) (L : Finset Nat)
    (x : Nat) : Nat :=
  ∑ y ∈ L, pointing (M.held plan y) x + ext x

/-- The objects `L` are in use, their counted fields hold what can be dropped, and the count of each of them is
the number of its owners. `ext` tells how many of these are not fields of the objects `L`. -/
structure Tallied (plan : Int → List (Bool × Nat)) (ext : Nat → Nat) (L : Finset Nat) (M : Memory) : Prop where
  inUse : ∀ x ∈ L, x < M.objects.size ∧ (M.nth x).isReleased = false
  tagged : ∀ x ∈ L, ∃ t, (M.nth x).slot tagSlot = .int t
  fields : ∀ x ∈ L, ∀ p ∈ plan (M.nth x).tag, Fits M L p.1 ((M.nth x).slot p.2)
  count : ∀ x ∈ L, (M.nth x).slot countSlot = .int (M.owners plan ext L x)
  /-- Counts are words of 32 bits. -/
  bound : ∀ x ∈ L, M.owners plan ext L x < 2 ^ 31
  owned : ∀ x, 0 < ext x → x ∈ L

variable {ext : Nat → Nat} {L L' L₁ : Finset Nat} {M₁ M₂ : Memory} {log' : List Deed} {id x w : Nat}
    {isFn : Bool} {v : Value}

theorem Fits.mem (h : Fits M L isFn v) (hv : v.place? = some w) : w ∈ L := by
  cases h with
  | null => cases hv
  | object hid _ =>
    cases hv
    exact hid
  | code _ => cases hv

theorem Fits.closed (h : Fits M L isFn v) (hdecays : Decays M M') (hmem : ∀ w, v.place? = some w → w ∈ L') :
    Fits M' L' isFn v := by
  cases h with
  | null => exact .null
  | object _ hfn => exact .object (hmem _ rfl) fun hisFn => (hdecays.tag_eq _).trans (hfn hisFn)
  | code hfn => exact .code hfn

theorem Decays.owners_eq (hplan : BehindHeader plan) (h : Decays M M') (x : Nat) :
    M'.owners plan ext L x = M.owners plan ext L x := by
  unfold Memory.owners
  simp only [h.held_eq hplan]

namespace Tallied

theorem mem_of_refers (h : Tallied plan ext L M) (hx : x ∈ L) (hr : Refers plan M x w) : w ∈ L := by
  obtain ⟨p, hp, hw⟩ := hr
  exact (h.fields x hx p hp).mem hw

theorem count_eq (h : Tallied plan ext L M) (hx : x ∈ L) : (M.nth x).count = M.owners plan ext L x :=
  Object.word_of_slot (h.count x hx)

/-- A change that leaves the objects alone. -/
theorem congr (h : Tallied plan ext L M) (hsize : M'.objects.size = M.objects.size)
    (hnth : ∀ x ∈ L, M'.nth x = M.nth x) :
    Tallied plan ext L M' := by
  have howners : ∀ x, M'.owners plan ext L x = M.owners plan ext L x := by
    intro x
    unfold Memory.owners Memory.held
    rw [Finset.sum_congr rfl fun y hy => by rw [hnth y hy]]
  constructor
  case inUse => exact fun x hx => by rw [hsize, hnth x hx]; exact h.inUse x hx
  case tagged => exact fun x hx => by rw [hnth x hx]; exact h.tagged x hx
  case fields =>
    intro x hx p hp
    rw [hnth x hx] at hp ⊢
    cases hfits : (M.nth x).slot p.2 with
    | ptr q =>
      have hold := h.fields x hx p hp
      rw [hfits] at hold
      cases hold with
      | null => exact .null
      | object hid hfn => exact .object hid fun hisFn => by rw [hnth _ hid]; exact hfn hisFn
      | code hfn => exact .code hfn
    | invalid | int _ | bool _ | float _ =>
      have hold := h.fields x hx p hp
      rw [hfits] at hold
      cases hold
  case count => exact fun x hx => by rw [hnth x hx, howners]; exact h.count x hx
  case bound => exact fun x hx => by rw [howners]; exact h.bound x hx
  case owned => exact h.owned

/-- An owner outside is taken away. -/
theorem lower (hplan : BehindHeader plan) (h : Tallied plan (fun w => ext w + pointing [.ptr (.object id)] w) L M)
    (hid : id - 1 ∈ L) : Tallied plan ext L (M.setCount id (M.owners plan ext L (id - 1))) := by
  have hload : M.load (.ptr (.field id countSlot)) = .ok (.int (M.owners plan ext L (id - 1) + 1 : Nat)) := by
    refine Memory.load_field (h.inUse _ hid).2 ((h.count _ hid).trans ?_) (by simp)
    simp [Memory.owners, pointing_object, Nat.add_assoc]
  have hdecays := decays_setCount hload (d := (M.owners plan ext L (id - 1) : Nat)) (by omega)
  constructor
  case inUse =>
    intro x hx
    rw [M.size_setCount, M.isReleased_setCount]
    exact h.inUse x hx
  case tagged =>
    intro x hx
    rw [hdecays.slot_eq x tagSlot (by decide)]
    exact h.tagged x hx
  case fields =>
    intro x hx p hp
    rw [hdecays.tag_eq] at hp
    rw [hdecays.slot_eq x p.2 (hplan _ p hp)]
    exact (h.fields x hx p hp).closed hdecays fun w hw => (h.fields x hx p hp).mem hw
  case count =>
    intro x hx
    rw [hdecays.owners_eq hplan]
    by_cases hxid : x = id - 1
    · subst hxid
      rw [M.nth_setCount, if_pos ⟨rfl, (h.inUse _ hx).1⟩, Object.slot_store, if_pos rfl]
    · rw [Memory.nth_setCount_of_ne hxid, h.count x hx]
      simp [Memory.owners, pointing_object, Ne.symm hxid]
  case bound =>
    intro x hx
    rw [hdecays.owners_eq hplan]
    refine Nat.lt_of_le_of_lt ?_ (h.bound x hx)
    exact Nat.add_le_add_left (Nat.le_add_right _ _) _
  case owned => exact fun x hx => h.owned x (Nat.add_pos_left hx _)

/-- An object without owners is left out; what its fields point to then counts as owned from outside. -/
theorem erase (h : Tallied plan ext L M) (hx : x ∈ L) (hzero : M.owners plan ext L x = 0) :
    Tallied plan (fun w => ext w + pointing (M.held plan x) w) (L.erase x) M := by
  have hext : ext x = 0 := by
    unfold Memory.owners at hzero
    omega
  have hnone : ∀ y ∈ L, ¬ Refers plan M y x := by
    intro y hy hr
    have hpos := pointing_held_pos.2 hr
    have hle := Finset.single_le_sum (f := fun y => pointing (M.held plan y) x) (fun _ _ => Nat.zero_le _) hy
    unfold Memory.owners at hzero
    omega
  have howners : ∀ w, M.owners plan (fun w => ext w + pointing (M.held plan x) w) (L.erase x) w =
    M.owners plan ext L w := by
    intro w
    unfold Memory.owners
    rw [← Finset.add_sum_erase L _ hx]
    dsimp only
    omega
  constructor
  case inUse => exact fun y hy => h.inUse y (Finset.mem_of_mem_erase hy)
  case tagged => exact fun y hy => h.tagged y (Finset.mem_of_mem_erase hy)
  case fields =>
    intro y hy p hp
    have hyL := Finset.mem_of_mem_erase hy
    refine (h.fields y hyL p hp).closed (Decays.refl M) fun w hw => ?_
    refine Finset.mem_erase.2 ⟨?_, h.mem_of_refers hyL ⟨p, hp, hw⟩⟩
    rintro rfl
    exact hnone y hyL ⟨p, hp, hw⟩
  case count =>
    intro y hy
    rw [howners]
    exact h.count y (Finset.mem_of_mem_erase hy)
  case bound =>
    intro y hy
    rw [howners]
    exact h.bound y (Finset.mem_of_mem_erase hy)
  case owned =>
    intro w hw
    rcases Nat.eq_zero_or_pos (ext w) with hzero | hpos
    · have hr : Refers plan M x w := pointing_held_pos.1 (by omega)
      refine Finset.mem_erase.2 ⟨?_, h.mem_of_refers hx hr⟩
      rintro rfl
      exact hnone _ hx hr
    · refine Finset.mem_erase.2 ⟨?_, h.owned w hpos⟩
      rintro rfl
      omega

end Tallied

/-! ### What is left -/

/-- The drop has left the objects `L'` of the objects `L`, and has given back the others. -/
structure Reaped (plan : Int → List (Bool × Nat)) (ext : Nat → Nat) (L L' : Finset Nat) (M M' : Memory)
    (log : List Deed) :
    Prop where
  tallied : Tallied plan ext L' M'
  subset : L' ⊆ L
  outside : ∀ x, x ∉ L → M'.nth x = M.nth x
  mem_backs : ∀ x, x ∈ backs log ↔ x ∈ L ∧ x ∉ L'
  nodup : (backs log).Nodup
  released : ∀ x ∈ backs log, (M'.nth x).isReleased = true
  releases : M'.releases = M.releases + (backs log).length
  /-- An object that had no owners is left. -/
  idle : ∀ x ∈ L, (M.nth x).count ≤ 0 → x ∈ L'
  /-- An object that had owners and is left still has some. -/
  busy : ∀ x ∈ L', 0 < (M.nth x).count → 0 < (M'.nth x).count

namespace Reaped

theorem refl (h : Tallied plan ext L M) : Reaped plan ext L L M M [] where
  tallied := h
  subset := Finset.Subset.refl L
  outside _ _ := rfl
  mem_backs x := by simp
  nodup := List.nodup_nil
  released x hx := (List.not_mem_nil hx).elim
  releases := rfl
  idle _ hx _ := hx
  busy _ _ hx := hx

theorem trans {ext₁ : Nat → Nat} (h₁ : Reaped plan ext₁ L L₁ M M₁ log) (h₂ : Reaped plan ext L₁ L' M₁ M₂ log')
    (hdecays : Decays M M₁) : Reaped plan ext L L' M M₂ (log ++ log') where
  tallied := h₂.tallied
  subset := h₂.subset.trans h₁.subset
  outside x hx := (h₂.outside x fun hmem => hx (h₁.subset hmem)).trans (h₁.outside x hx)
  mem_backs x := by
    rw [backs_append, List.mem_append, h₁.mem_backs, h₂.mem_backs]
    have hsub := @h₁.subset x
    have hsub' := @h₂.subset x
    tauto
  nodup := by
    rw [backs_append]
    refine h₁.nodup.append h₂.nodup fun x hx hx' => ?_
    exact ((h₁.mem_backs x).1 hx).2 ((h₂.mem_backs x).1 hx').1
  released x hx := by
    rw [backs_append, List.mem_append] at hx
    rcases hx with hx | hx
    · rw [h₂.outside x ((h₁.mem_backs x).1 hx).2]
      exact h₁.released x hx
    · exact h₂.released x hx
  releases := by
    rw [h₂.releases, h₁.releases, backs_append, List.length_append, Nat.add_assoc]
  idle x hx hcount := h₂.idle x (h₁.idle x hx hcount) (Int.le_trans (hdecays.count_le x) hcount)
  busy x hx hcount := h₂.busy x hx (h₁.busy x (h₂.subset hx) hcount)

/-- An object has lost one of several owners. -/
theorem keep {n : Nat} (h : Tallied plan ext L (M.setCount id n)) (hid : id - 1 ∈ L) (hn : 0 < n) :
    Reaped plan ext L L M (M.setCount id n) [.lower (id - 1)] where
  tallied := h
  subset := Finset.Subset.refl L
  outside x hx := Memory.nth_setCount_of_ne fun hxid => hx (hxid ▸ hid)
  mem_backs x := by simp
  nodup := List.nodup_nil
  released x hx := (List.not_mem_nil hx).elim
  releases := rfl
  idle _ hx _ := hx
  busy x hx hcount := by
    by_cases hxid : x = id - 1
    · subst hxid
      have hlt : id - 1 < M.objects.size := M.size_setCount id n ▸ (h.inUse _ hid).1
      rw [M.count_setCount hlt]
      omega
    · rwa [Memory.nth_setCount_of_ne hxid]

/-- An object has lost its only owner, and was given back after its fields had been dropped. -/
theorem free (h : Reaped plan ext (L.erase (id - 1)) L' (M.setCount id 0) M' log) (hid : id - 1 ∈ L)
    (hlt : id - 1 < M'.objects.size) (hcount : (M.nth (id - 1)).count = 1) :
    Reaped plan ext L L' M (M'.giveBack id) (.lower (id - 1) :: log ++ [.back (id - 1)]) := by
  have hnot : id - 1 ∉ L' := fun hmem => Finset.notMem_erase _ _ (h.subset hmem)
  have hback : ∀ {x}, x ≠ id - 1 → (M'.giveBack id).nth x = M'.nth x := by
    intro x hx
    rw [M'.nth_giveBack, if_neg fun heq => hx heq.1]
  have hne : ∀ {x}, x ∈ L' → x ≠ id - 1 := fun hx heq => hnot (heq ▸ hx)
  have hlog : backs (.lower (id - 1) :: log ++ [.back (id - 1)]) = backs log ++ [id - 1] := by simp
  have hmem : id - 1 ∉ backs log := fun hx => Finset.notMem_erase _ _ ((h.mem_backs _).1 hx).1
  constructor
  case tallied => exact h.tallied.congr (M'.size_giveBack id) fun x hx => hback (hne hx)
  case subset => exact h.subset.trans (Finset.erase_subset _ _)
  case outside =>
    intro x hx
    have hxid : x ≠ id - 1 := fun heq => hx (heq ▸ hid)
    rw [hback hxid, h.outside x fun hmem => hx (Finset.mem_of_mem_erase hmem), Memory.nth_setCount_of_ne hxid]
  case mem_backs =>
    intro x
    rw [hlog, List.mem_append, List.mem_singleton, h.mem_backs, Finset.mem_erase]
    by_cases hxid : x = id - 1
    · simp [hxid, hid, hnot]
    · simp [hxid]
  case nodup =>
    rw [hlog]
    exact h.nodup.append (List.nodup_singleton _) fun x hx hx' => hmem (List.mem_singleton.1 hx' ▸ hx)
  case released =>
    intro x hx
    by_cases hxid : x = id - 1
    · rw [M'.nth_giveBack, if_pos ⟨hxid, hxid ▸ hlt⟩]
    · rw [hlog, List.mem_append, List.mem_singleton] at hx
      rw [hback hxid]
      exact h.released x (hx.resolve_right hxid)
  case releases =>
    have hreleases : (M'.giveBack id).releases = M'.releases + 1 := rfl
    have hold : (M.setCount id 0).releases = M.releases := rfl
    rw [hlog, hreleases, h.releases, hold, List.length_append, List.length_singleton, Nat.add_assoc]
  case idle =>
    intro x hx hidle
    have hxid : x ≠ id - 1 := by
      rintro rfl
      omega
    refine h.idle x (Finset.mem_erase.2 ⟨hxid, hx⟩) ?_
    rwa [Memory.nth_setCount_of_ne hxid]
  case busy =>
    intro x hx hbusy
    rw [hback (hne hx)]
    refine h.busy x hx ?_
    rwa [Memory.nth_setCount_of_ne (hne hx)]

end Reaped

/-! ### Drops come to an end -/

/-- Any value can be dropped while the objects `L` do not wait. -/
def Droppable (plan : Int → List (Bool × Nat)) (L : Finset Nat) : Prop :=
  ∀ ext M v, Tallied plan (fun w => ext w + pointing [v] w) L M → Fits M L false v →
    ∃ log M' L', Cascade plan (.value v) M log M' ∧ Reaped plan ext L L' M M' log

/-- The fields of an object that waits can be dropped. -/
theorem exists_cascade_fields {L₀ : Finset Nat} (hdrop : ∀ L ⊆ L₀, Droppable plan L)
    {todo : List (Bool × Nat)} (htodo : ∀ p ∈ todo, p.2 ≠ countSlot) (hsub : L ⊆ L₀) (hid : id - 1 ∉ L)
    (huse : (M.nth (id - 1)).isReleased = false) (hfits : ∀ p ∈ todo, Fits M L p.1 ((M.nth (id - 1)).slot p.2))
    (h : Tallied plan (fun w => ext w + pointing ((Job.fields id todo).values M) w) L M) :
    ∃ log M' L', Cascade plan (.fields id todo) M log M' ∧ Reaped plan ext L L' M M' log := by
  induction todo generalizing ext L M with
  | nil => exact ⟨[], M, L, .done M, .refl h⟩
  | cons p todo ih =>
    obtain ⟨isFn, slot⟩ := p
    have htodo' : ∀ p ∈ todo, p.2 ≠ countSlot := fun p hp => htodo p (List.mem_cons_of_mem _ hp)
    have hfits' : ∀ p ∈ todo, Fits M L p.1 ((M.nth (id - 1)).slot p.2) :=
      fun p hp => hfits p (List.mem_cons_of_mem _ hp)
    have hfirst := hfits _ List.mem_cons_self
    have hvalues : (Job.fields id ((isFn, slot) :: todo)).values M =
        (M.nth (id - 1)).slot slot :: (Job.fields id todo).values M := rfl
    rw [hvalues] at h
    generalize hv : (M.nth (id - 1)).slot slot = v at h hfirst
    have hload : M.load (.ptr (.field id slot)) = .ok v :=
      Memory.load_field huse hv (by cases hfirst <;> simp [Value.null])
    -- a field for a function value that holds no closure owns nothing
    have hskip : isFn = true → (v = .null ∨ ∃ f, v = .ptr (.code f)) →
        ∃ log M' L', Cascade plan (.fields id ((isFn, slot) :: todo)) M log M' ∧ Reaped plan ext L L' M M' log := by
      rintro rfl hv
      have hext : (fun w => ext w + pointing (v :: (Job.fields id todo).values M) w) =
          fun w => ext w + pointing ((Job.fields id todo).values M) w := by
        funext w
        rw [pointing_cons v ((Job.fields id todo).values M), pointing_eq_zero hv, Nat.zero_add]
      rw [hext] at h
      obtain ⟨log, M', L', hcascade, hreaped⟩ := ih htodo' hsub hid huse hfits' h
      exact ⟨log, M', L', .skip hload hv hcascade, hreaped⟩
    -- the owner that the field is goes away first, then those that the other fields are
    have hnext : (isFn = true → ∃ id', v = .ptr (.object id') ∧ M.load (.ptr (.field id' tagSlot)) =
      .ok (.int closureTag)) →
        Fits M L false v →
        ∃ log M' L', Cascade plan (.fields id ((isFn, slot) :: todo)) M log M' ∧ Reaped plan ext L L' M M' log := by
      intro hclosure hfit
      have hext : (fun w => ext w + pointing (v :: (Job.fields id todo).values M) w) =
          fun w => ext w + pointing ((Job.fields id todo).values M) w + pointing [v] w := by
        funext w
        rw [pointing_cons v ((Job.fields id todo).values M), Nat.add_assoc, Nat.add_comm (pointing [v] w)]
      rw [hext] at h
      obtain ⟨log, M₁, L₁, hvalue, hreaped⟩ := hdrop L hsub _ M v h hfit
      have hsame := hreaped.outside _ hid
      have hvalues₁ : (Job.fields id todo).values M₁ = (Job.fields id todo).values M :=
        values_fields_of_decays hvalue.decays htodo'
      have hleft : Tallied plan (fun w => ext w + pointing ((Job.fields id todo).values M₁) w) L₁ M₁ := by
        rw [hvalues₁]
        exact hreaped.tallied
      obtain ⟨log', M₂, L₂, hfields, hreaped'⟩ := ih htodo' (hreaped.subset.trans hsub)
        (fun hmem => hid (hreaped.subset hmem)) (hsame ▸ huse) (fun p hp => by
          rw [hsame]
          refine (hfits' p hp).closed hvalue.decays fun w hw => hreaped.tallied.owned w (Nat.add_pos_right _ ?_)
          exact pointing_pos.2 ⟨_, List.mem_map.2 ⟨p, hp, rfl⟩, hw⟩) hleft
      exact ⟨log ++ log', M₂, L₂, .next hload hclosure hvalue hfields, hreaped.trans hreaped' hvalue.decays⟩
    cases isFn with
    | false => exact hnext (by simp) hfirst
    | true =>
      cases hfirst with
      | null => exact hskip rfl (.inl rfl)
      | code _ => exact hskip rfl (.inr ⟨_, rfl⟩)
      | @object id' hid' hfn =>
        refine hnext (fun _ => ⟨id', rfl, ?_⟩) (.object hid' (by simp))
        obtain ⟨t, ht⟩ := h.tagged _ hid'
        have htag : t = closureTag := (Object.word_of_slot ht).symm.trans (hfn rfl)
        exact Memory.load_field (h.inUse _ hid').2 (htag ▸ ht) (by simp)

/-- In a tallied heap an owner can be taken away from any value that has one outside. The induction is on the set of
the objects that have not lost all their owners. -/
theorem Tallied.exists_cascade (hplan : BehindHeader plan) (L : Finset Nat) : Droppable plan L := by
  induction L using Finset.strongInduction with
  | H L ih =>
  intro ext M v h hfit
  cases hfit with
  | null =>
    refine ⟨[], M, L, .null M, .refl ?_⟩
    have hext : (fun w => ext w + pointing [.null] w) = ext := funext fun w => rfl
    exact hext ▸ h
  | code hfn => cases hfn
  | @object id hid _ =>
    have hlow := h.lower hplan hid
    have hcount : (M.nth (id - 1)).slot countSlot = .int (M.owners plan ext L (id - 1) + 1 : Nat) := by
      rw [h.count _ hid]
      simp [Memory.owners, pointing_object, Nat.add_assoc]
    have hbound : M.owners plan ext L (id - 1) + 1 < 2 ^ 31 := by
      have hbound := h.bound _ hid
      simpa [Memory.owners, pointing_object, Nat.add_assoc] using hbound
    have hload := Memory.load_field (h.inUse _ hid).2 hcount (by simp)
    generalize hn : M.owners plan ext L (id - 1) = n at hcount hload hlow hbound
    cases n with
    | succ n =>
      have hc : ((n + 1 + 1 : Nat) : Int) - 1 = (n + 1 : Nat) := by omega
      have hkeep : Cascade plan (.value (.ptr (.object id))) M [.lower (id - 1)] _ :=
        .keep hload (by omega) (by omega)
      rw [hc] at hkeep
      exact ⟨_, _, L, hkeep, .keep hlow hid (Nat.succ_pos n)⟩
    | zero =>
      have hdecays := decays_setCount hload (d := 0) (by omega)
      have hzero : (M.setCount id 0).owners plan ext L (id - 1) = 0 := (hdecays.owners_eq hplan _).trans hn
      obtain ⟨t, ht⟩ := hlow.tagged _ hid
      have htag := Memory.load_field (hlow.inUse _ hid).2 ht (by simp)
      have hwait := hlow.erase hid hzero
      -- the fields of the object are dropped while it waits
      have hfits : ∀ p ∈ plan t,
        Fits (M.setCount id 0) (L.erase (id - 1)) p.1 (((M.setCount id 0).nth (id - 1)).slot p.2) := by
        intro p hp
        have hp' : p ∈ plan ((M.setCount id 0).nth (id - 1)).tag := by
          rw [show ((M.setCount id 0).nth (id - 1)).tag = t from Object.word_of_slot ht]
          exact hp
        refine (hlow.fields _ hid p hp').closed (Decays.refl _) fun w hw => hwait.owned w ?_
        exact Nat.add_pos_right _ (pointing_held_pos.2 ⟨p, hp', hw⟩)
      rw [held_eq_of_tag htag] at hwait
      obtain ⟨log, M', L', hfields, hreaped⟩ := exists_cascade_fields
        (fun L' hL' => ih L' (Finset.ssubset_of_subset_of_ssubset hL' (Finset.erase_ssubset hid))) (hplan t)
        (Finset.Subset.refl _) (Finset.notMem_erase _ _) (hlow.inUse _ hid).2 hfits hwait
      have hlt : id - 1 < M'.objects.size := hfields.decays.size_eq ▸ (hlow.inUse _ hid).1
      have hsame := hreaped.outside _ (Finset.notMem_erase (id - 1) L)
      have hidle : Idle M' (id - 1) := by
        refine ⟨hsame ▸ (hlow.inUse _ hid).2, ?_⟩
        rw [hsame]
        exact Int.le_of_eq (M.count_setCount (h.inUse _ hid).1 0)
      exact ⟨_, _, L', .free hload htag hfields (checkRelease_of_idle hidle),
        hreaped.free hid hlt (M.count_of_load hload)⟩

/-! ### Reachable objects -/

/-- The object has an owner outside, or had none at all. -/
def Holds (ext : Nat → Nat) (M : Memory) (x : Nat) : Prop := 0 < ext x ∨ (M.nth x).count ≤ 0

/-- The object can be reached from one that is held. -/
def Reachable (plan : Int → List (Bool × Nat)) (ext : Nat → Nat) (L : Finset Nat) (M : Memory) (x : Nat) : Prop :=
  ∃ r ∈ L, Holds ext M r ∧ Relation.ReflTransGen (Refers plan M) r x

/-- No counted field of an object leads back to the object. -/
def Acyclic (plan : Int → List (Bool × Nat)) (L : Finset Nat) (M : Memory) : Prop :=
  ∀ x ∈ L, ¬ Relation.TransGen (Refers plan M) x x

/-- In a finite graph without cycles the way back along the fields comes to an end. -/
theorem Acyclic.wellFounded (h : Acyclic plan L M) (hsub : L' ⊆ L) :
    WellFounded fun a b : L' => Relation.TransGen (Refers plan M) a b := by
  have htrans : IsTrans L' fun a b => Relation.TransGen (Refers plan M) a b := ⟨fun _ _ _ hab hbc => hab.trans hbc⟩
  have hirrefl : Std.Irrefl fun a b : L' => Relation.TransGen (Refers plan M) a b := ⟨fun a ha => h a (hsub a.2) ha⟩
  exact Finite.wellFounded_of_trans_of_irrefl _

/-- What is left is what can be reached. -/
theorem Reaped.mem_iff (hplan : BehindHeader plan) (h : Reaped plan ext L L' M M' log) (hdecays : Decays M M')
    (hacyclic : Acyclic plan L M) : x ∈ L' ↔ Reachable plan ext L M x := by
  constructor
  · intro hx
    -- by induction from an object to those that own it: without a cycle this ends, at an object that is held
    have hall : ∀ y : L', Reachable plan ext L M y := by
      intro y
      induction y using (hacyclic.wellFounded h.subset).induction with
      | _ y ih =>
      have hroot : Holds ext M y → Reachable plan ext L M y := fun hr => ⟨y, h.subset y.2, hr, .refl⟩
      by_cases hcount : (M.nth y).count ≤ 0
      · exact hroot (.inr hcount)
      · have hpos := h.busy y y.2 (by omega)
        rw [h.tallied.count_eq y.2, Memory.owners] at hpos
        rcases Nat.eq_zero_or_pos (ext y) with hzero | hext
        · rw [hzero, Nat.add_zero] at hpos
          obtain ⟨z, hz, hzy⟩ :=
            Finset.exists_ne_zero_of_sum_ne_zero (s := L') (f := fun z => pointing (M'.held plan z) y)
            (by omega)
          have hrefers : Refers plan M z y := hdecays.refers_eq hplan ▸ pointing_held_pos.1 (Nat.pos_of_ne_zero hzy)
          obtain ⟨r, hr, hheld, hpath⟩ := ih ⟨z, hz⟩ (.single hrefers)
          exact ⟨r, hr, hheld, hpath.tail hrefers⟩
        · exact hroot (.inl hext)
    exact hall ⟨x, hx⟩
  · rintro ⟨r, hr, hheld, hpath⟩
    induction hpath with
    | refl =>
      rcases hheld with hext | hcount
      · exact h.tallied.owned r hext
      · exact h.idle r hr hcount
    | tail _ hstep ih => exact h.tallied.mem_of_refers ih (hdecays.refers_eq hplan ▸ hstep)

/-! ### Whole heaps -/

/-- The objects in use. -/
def Memory.inUse (M : Memory) : Finset Nat := {x ∈ Finset.range M.objects.size | (M.nth x).isReleased = false}

theorem Memory.mem_inUse : x ∈ M.inUse ↔ x < M.objects.size ∧ (M.nth x).isReleased = false := by
  simp [Memory.inUse]

/-- What became of a heap when an owner was taken away, the owners `ext` outside being left. -/
structure Collects (plan : Int → List (Bool × Nat)) (ext : Nat → Nat) (M : Memory) (log : List Deed)
    (M' : Memory) : Prop where
  once : (backs log).Nodup
  /-- The objects that were given back are those that cannot be reached, neither from the owners that are left nor
  from objects that had none in the first place. -/
  mem_backs : ∀ x, x ∈ backs log ↔ x ∈ M.inUse ∧ ¬ Reachable plan ext M.inUse M x
  /-- If all objects had owners, what is left is what the owners that are left lead to. -/
  mem_backs_of_owned : (∀ x ∈ M.inUse, 0 < (M.nth x).count) → ∀ x, x ∈ backs log ↔
    x ∈ M.inUse ∧ ¬ ∃ r, 0 < ext r ∧ Relation.ReflTransGen (Refers plan M) r x
  /-- When an object is given back, its fields have been released: owners have been taken from all that they point
  to, and that the fields of the objects given back before point to. -/
  fieldsFirst : ∀ before x after, log = before ++ .back x :: after →
    ∀ w, owed plan M (backs before ++ [x]) w ≤ before.count (.lower w)
  /-- What its fields point to was given back before it, if no other owner is left. -/
  objectsFirst : ∀ before x after, log = before ++ .back x :: after →
    ∀ w, Refers plan M x w → w ∈ backs before ∨ before.count (.lower w) < (M.nth w).count
  releases : M'.releases = M.releases + (backs log).length
  mem_inUse : ∀ x, x ∈ M'.inUse ↔ x ∈ M.inUse ∧ x ∉ backs log
  slot_eq : ∀ x k, k ≠ countSlot → (M'.nth x).slot k = (M.nth x).slot k
  tallied : Tallied plan ext M'.inUse M'

theorem Reaped.collects {ext₀ : Nat → Nat} (hplan : BehindHeader plan) (hM : Tallied plan ext₀ M.inUse M)
    (h : Reaped plan ext M.inUse L' M M' log) (hcascade : Cascade plan (.value v) M log M')
    (hacyclic : Acyclic plan M.inUse M) : Collects plan ext M log M' := by
  have hdecays := hcascade.decays
  -- what is left is what is in use
  have hleft : M'.inUse = L' := by
    ext x
    rw [Memory.mem_inUse, hdecays.size_eq]
    constructor
    · rintro ⟨hlt, huse⟩
      by_contra hx
      by_cases hin : x ∈ M.inUse
      · rw [h.released x ((h.mem_backs x).2 ⟨hin, hx⟩)] at huse
        cases huse
      · rw [h.outside x hin] at huse
        exact hin (Memory.mem_inUse.2 ⟨hlt, huse⟩)
    · intro hx
      obtain ⟨hlt, huse⟩ := h.tallied.inUse x hx
      exact ⟨hdecays.size_eq ▸ hlt, huse⟩
  have hbacks : ∀ x, x ∈ backs log ↔ x ∈ M.inUse ∧ ¬ Reachable plan ext M.inUse M x := by
    intro x
    rw [h.mem_backs, h.mem_iff hplan hdecays hacyclic]
  constructor
  case once => exact h.nodup
  case mem_backs => exact hbacks
  case mem_backs_of_owned =>
    intro howned x
    rw [hbacks]
    refine and_congr_right fun _ => not_congr ⟨?_, ?_⟩
    · rintro ⟨r, hr, hext | hcount, hpath⟩
      · exact ⟨r, hext, hpath⟩
      · exact absurd (howned r hr) (Int.not_lt.2 hcount)
    · rintro ⟨r, hext, hpath⟩
      exact ⟨r, h.subset (h.tallied.owned r hext), .inl hext, hpath⟩
  case fieldsFirst => exact fun before x after hlog w => hcascade.owed_le hplan trivial hlog w
  case objectsFirst =>
    intro before x after hlog w hr
    have hx : x ∈ M.inUse := by
      refine ((h.mem_backs x).1 ?_).1
      rw [hlog]
      simp
    have hw : w ∈ M.inUse := hM.mem_of_refers hx hr
    have hpos : 0 < (M.nth w).count := by
      rw [hM.count_eq hw]
      have hle := Finset.single_le_sum (f := fun y => pointing (M.held plan y) w) (fun _ _ => Nat.zero_le _) hx
      have hone := pointing_held_pos.2 hr
      unfold Memory.owners
      omega
    -- otherwise the object would lead to the other one, which leads to it
    by_contra hnot
    rw [not_or, Int.not_lt] at hnot
    rcases hcascade.mem_backs_before hplan trivial hlog hpos hnot.2 with hmem | hpath
    · exact hnot.1 hmem
    · exact hacyclic x hx (Relation.TransGen.head' hr hpath)
  case releases => exact h.releases
  case mem_inUse =>
    intro x
    rw [hleft, h.mem_backs]
    have hsub := @h.subset x
    tauto
  case slot_eq => exact hdecays.slot_eq
  case tallied => exact hleft ▸ h.tallied

/-- An owner is taken away in a tallied heap without cycles. -/
theorem Tallied.collects (hplan : BehindHeader plan)
    (h : Tallied plan (fun w => ext w + pointing [.ptr (.object id)] w) M.inUse M)
    (hacyclic : Acyclic plan M.inUse M) :
    ∃ log M', Cascade plan (.value (.ptr (.object id))) M log M' ∧ Collects plan ext M log M' := by
  have hid : id - 1 ∈ M.inUse := h.owned _ (by simp [pointing_object])
  obtain ⟨log, M', L', hcascade, hreaped⟩ := Tallied.exists_cascade hplan _ ext M _ h (.object hid (by simp))
  exact ⟨log, M', hcascade, hreaped.collects hplan h hcascade hacyclic⟩

end

end TypedScript.Machine
