import Mathlib.Algebra.Group.Int.Defs
import Mathlib.Algebra.GroupWithZero.Nat
import Mathlib.Logic.Relation
import TypedScript.Proofs.Machine.Drop

/-!
# Drops with a record

A drop that keeps a record of what it does to objects: when an owner is taken from one, and when one is given
back. The record tells that no object is given back before its fields have been dropped.

* `Cascade.count_lower`: how many owners are taken from an object.
* `Cascade.owed_le`: an object is given back after owners have been taken from everything that its fields point
  to. It may share that with other objects, so that it is not always given back first.
* `Cascade.mem_backs_before`: what has lost all its owners by then was given back before, or waits for its own
  fields.
-/

namespace TypedScript.Machine

open TypedScript.Layout

/-- The place of the object that the value points to. -/
def Value.place? : Value → Option Nat
  | .ptr (.object id) => some (id - 1)
  | _ => none

/-! ### Drops with a record -/

/-- What is done to the object at a place. -/
inductive Deed where
  /-- One owner is taken from it. -/
  | lower (x : Nat)
  /-- It is given back. -/
  | back (x : Nat)
  deriving DecidableEq, Repr

/-- The place of the object that is given back. -/
def Deed.back? : Deed → Option Nat
  | lower _ => none
  | back x => some x

/-- The objects that are given back, in order. -/
def backs (log : List Deed) : List Nat := log.filterMap Deed.back?

@[simp] theorem backs_nil : backs [] = [] := rfl

@[simp] theorem backs_lower (x : Nat) (log : List Deed) : backs (.lower x :: log) = backs log := rfl

@[simp] theorem backs_back (x : Nat) (log : List Deed) : backs (.back x :: log) = x :: backs log := rfl

@[simp] theorem backs_append (log log' : List Deed) : backs (log ++ log') = backs log ++ backs log' :=
  List.filterMap_append

/-- A drop in which nothing fails, with a record of what is done to objects. A field for functions holds nothing,
a function without an environment, or a closure. -/
inductive Cascade (plan : Int → List (Bool × Nat)) : Job → Memory → List Deed → Memory → Prop
  | null (M : Memory) : Cascade plan (.value .null) M [] M
  | keep {M : Memory} {id : Nat} {c : Int} (hcount : M.load (.ptr (.field id countSlot)) = .ok (.int c))
      (hc : 1 < c) (hbound : c < 2 ^ 31) :
      Cascade plan (.value (.ptr (.object id))) M [.lower (id - 1)] (M.setCount id (c - 1))
  | free {M M' : Memory} {id : Nat} {t : Int} {log : List Deed}
      (hcount : M.load (.ptr (.field id countSlot)) = .ok (.int 1))
      (htag : (M.setCount id 0).load (.ptr (.field id tagSlot)) = .ok (.int t))
      (hfields : Cascade plan (.fields id (plan t)) (M.setCount id 0) log M')
      (hcheck : M'.checkRelease (.ptr (.object id)) = .ok id) :
      Cascade plan (.value (.ptr (.object id))) M (.lower (id - 1) :: log ++ [.back (id - 1)]) (M'.giveBack id)
  | done {id : Nat} (M : Memory) : Cascade plan (.fields id []) M [] M
  | next {M M₁ M₂ : Memory} {id slot : Nat} {isFn : Bool} {v : Value} {todo : List (Bool × Nat)}
      {log log' : List Deed} (hload : M.load (.ptr (.field id slot)) = .ok v)
      (hv : isFn = true → ∃ id', v = .ptr (.object id') ∧ M.load (.ptr (.field id' tagSlot)) =
        .ok (.int closureTag))
      (hvalue : Cascade plan (.value v) M log M₁) (hfields : Cascade plan (.fields id todo) M₁ log' M₂) :
      Cascade plan (.fields id ((isFn, slot) :: todo)) M (log ++ log') M₂
  | skip {M M₂ : Memory} {id slot : Nat} {v : Value} {todo : List (Bool × Nat)} {log : List Deed}
      (hload : M.load (.ptr (.field id slot)) = .ok v) (hv : v = .null ∨ ∃ f, v = .ptr (.code f))
      (hfields : Cascade plan (.fields id todo) M log M₂) :
      Cascade plan (.fields id ((true, slot) :: todo)) M log M₂

section

variable {plan : Int → List (Bool × Nat)} {job : Job} {M M' : Memory} {log : List Deed}

theorem Cascade.decays (h : Cascade plan job M log M') : Decays M M' := by
  induction h with
  | null M => exact Decays.refl M
  | keep hcount _ _ => exact decays_setCount hcount (by omega)
  | free hcount _ _ _ ih => exact ((decays_setCount hcount (by omega)).trans ih).trans (decays_giveBack _ _)
  | done M => exact Decays.refl M
  | next _ _ _ _ ih₁ ih₂ => exact ih₁.trans ih₂
  | skip _ _ _ ih => exact ih

/-! ### Debts -/

/-- What the counted fields of an object hold. -/
def Memory.held (M : Memory) (plan : Int → List (Bool × Nat)) (x : Nat) : List Value :=
  (plan (M.nth x).tag).map fun p => (M.nth x).slot p.2

/-- How many of the values point to the object. -/
def pointing (vs : List Value) (w : Nat) : Nat := vs.countP fun v => v.place? = some w

@[simp] theorem pointing_nil (w : Nat) : pointing [] w = 0 := rfl

theorem pointing_cons (v : Value) (vs : List Value) (w : Nat) : pointing (v :: vs) w = pointing
    [v] w + pointing vs w := by
  simp [pointing, List.countP_cons, Nat.add_comm]

theorem pointing_object (id w : Nat) : pointing [.ptr (.object id)] w = if id - 1 = w then 1 else 0 := by
  simp [pointing, List.countP_cons, Value.place?]

theorem pointing_eq_zero {v : Value} (h : v = .null ∨ ∃ f, v = .ptr (.code f)) (w : Nat) : pointing [v] w = 0 := by
  rcases h with rfl | ⟨f, rfl⟩ <;> rfl

/-- Fields do not lie in the header. -/
def BehindHeader (plan : Int → List (Bool × Nat)) : Prop := ∀ t, ∀ p ∈ plan t, p.2 ≠ countSlot

theorem Decays.held_eq (hplan : BehindHeader plan) (h : Decays M M') (x : Nat) : M'.held plan x =
    M.held plan x := by
  unfold Memory.held
  rw [h.tag_eq]
  exact List.map_congr_left fun p hp => h.slot_eq x p.2 (hplan _ p hp)

/-- How many fields of the objects point to the object `w`. -/
def owed (plan : Int → List (Bool × Nat)) (M : Memory) (xs : List Nat) (w : Nat) : Nat :=
  (xs.map fun x => pointing (M.held plan x) w).sum

theorem owed_append (xs ys : List Nat) (w : Nat) : owed plan M (xs ++ ys) w =
    owed plan M xs w + owed plan M ys w := by
  simp [owed]

theorem owed_cons (x : Nat) (xs : List Nat) (w : Nat) :
    owed plan M (x :: xs) w = pointing (M.held plan x) w + owed plan M xs w := rfl

theorem Decays.owed_eq (hplan : BehindHeader plan) (h : Decays M M') (xs : List Nat) (w : Nat) :
    owed plan M' xs w = owed plan M xs w := by
  unfold owed
  simp only [h.held_eq hplan]

/-- The values that are to be dropped. -/
def Job.values (M : Memory) : Job → List Value
  | .value v => [v]
  | .fields id todo => todo.map fun p => (M.nth (id - 1)).slot p.2

theorem values_fields_of_decays (h : Decays M M') {id : Nat} {todo : List (Bool × Nat)}
    (htodo : ∀ p ∈ todo, p.2 ≠ countSlot) :
    (Job.fields id todo).values M' = (Job.fields id todo).values M :=
  List.map_congr_left fun p hp => h.slot_eq _ _ (htodo p hp)

/-- The fields that are to be dropped do not lie in the header. -/
def Job.BehindHeader : Job → Prop
  | .value _ => True
  | .fields _ todo => ∀ p ∈ todo, p.2 ≠ countSlot

/-- The counted fields of an object whose tag was read. -/
theorem held_eq_of_tag {id : Nat} {t : Int} (h : M.load (.ptr (.field id tagSlot)) = .ok (.int t)) :
    M.held plan (id - 1) = (Job.fields id (plan t)).values M := by
  have htag : (M.nth (id - 1)).tag = t := Object.word_of_slot (Memory.load_field_eq_ok h).2.2.1
  rw [Memory.held, htag]
  rfl

theorem count_lower_free (x : Nat) (log : List Deed) (w : Nat) :
    (Deed.lower x :: log ++ [Deed.back x]).count (Deed.lower w) = (if x = w then 1 else 0) + log.count
    (Deed.lower w) := by
  by_cases hx : x = w
  · simp [hx, List.count_append, Nat.add_comm]
  · simp [hx, List.count_append]

/-- An owner is taken from an object for every value that is dropped and points to it, and for every field of an
object that is given back. -/
theorem Cascade.count_lower (hplan : BehindHeader plan) (h : Cascade plan job M log M')
    (hjob : job.BehindHeader) (w : Nat) :
    log.count (.lower w) = pointing (job.values M) w + owed plan M (backs log) w := by
  induction h with
  | null M => rfl
  | @keep M id c _ _ _ =>
    rw [Job.values, pointing_object]
    simp [List.count_cons, owed]
  | @free M M' id t log hcount htag hfields _ ih =>
    have hdecays := decays_setCount hcount (d := 0) (by omega)
    rw [Job.values, pointing_object, count_lower_free, ih (hplan t), List.cons_append, backs_lower,
      backs_append, owed_append,
      backs_back, backs_nil, owed_cons, ← held_eq_of_tag htag, hdecays.held_eq hplan, hdecays.owed_eq hplan]
    simp only [owed, List.map_nil, List.sum_nil]
    omega
  | done M => rfl
  | @next M M₁ M₂ id slot isFn v todo log log' hload _ hvalue hfields ih₁ ih₂ =>
    have hslot : (M.nth (id - 1)).slot slot = v := (Memory.load_field_eq_ok hload).2.2.1
    have htodo : ∀ p ∈ todo, p.2 ≠ countSlot := fun p hp => hjob p (List.mem_cons_of_mem _ hp)
    rw [List.count_append, ih₁ trivial, ih₂ htodo, values_fields_of_decays hvalue.decays htodo,
      backs_append, owed_append,
      hvalue.decays.owed_eq hplan]
    simp only [Job.values, List.map_cons, hslot]
    rw [pointing_cons v (todo.map _)]
    omega
  | @skip M M₂ id slot v todo log hload hv hfields ih =>
    have hslot : (M.nth (id - 1)).slot slot = v := (Memory.load_field_eq_ok hload).2.2.1
    rw [ih fun p hp => hjob p (List.mem_cons_of_mem _ hp)]
    simp only [Job.values, List.map_cons, hslot]
    rw [pointing_cons v (todo.map _), pointing_eq_zero hv, Nat.zero_add]

/-- When an object is given back, owners have been taken from all that its fields point to, and that the fields of
the objects before it point to. -/
theorem Cascade.owed_le (hplan : BehindHeader plan) (h : Cascade plan job M log M') (hjob : job.BehindHeader)
    {before after : List Deed} {x : Nat} (hlog : log = before ++ .back x :: after) (w : Nat) :
    owed plan M (backs before ++ [x]) w ≤ before.count (.lower w) := by
  induction h generalizing before after with
  | null M => simp at hlog
  | keep _ _ _ =>
    cases before with
    | nil => simp at hlog
    | cons d before => simp at hlog
  | @free M M' id t log hcount htag hfields _ ih =>
    have hdecays := decays_setCount hcount (d := 0) (by omega)
    cases before with
    | nil => simp at hlog
    | cons d before =>
      simp only [List.cons_append, List.cons.injEq] at hlog
      obtain ⟨rfl, hlog⟩ := hlog
      rw [backs_lower, ← hdecays.owed_eq hplan]
      refine Nat.le_trans ?_ (List.count_le_count_cons)
      rcases List.eq_nil_or_concat after with rfl | ⟨after, d, rfl⟩
      · -- the last deed: the fields of the object have been dropped
        obtain ⟨rfl, hx⟩ := List.append_inj' hlog rfl
        cases hx
        rw [hfields.count_lower hplan (hplan t), ← held_eq_of_tag htag, owed_append, owed_cons]
        simp only [owed, List.map_nil, List.sum_nil]
        omega
      · rw [List.concat_eq_append, ← List.cons_append, ← List.append_assoc] at hlog
        exact ih (hplan t) (List.append_inj' hlog rfl).1
  | done M => simp at hlog
  | @next M M₁ M₂ id slot isFn v todo log log' hload _ hvalue hfields ih₁ ih₂ =>
    have htodo : ∀ p ∈ todo, p.2 ≠ countSlot := fun p hp => hjob p (List.mem_cons_of_mem _ hp)
    rcases List.append_eq_append_iff.1 hlog with ⟨mid, rfl, hmid⟩ | ⟨mid, rfl, hmid⟩
    · -- the object is given back while a later field is dropped
      have hlater := ih₂ htodo hmid
      rw [hvalue.decays.owed_eq hplan] at hlater
      rw [backs_append, List.append_assoc, owed_append, List.count_append, hvalue.count_lower hplan trivial]
      omega
    -- it is the first thing done for a later field, or it is given back with the first field
    · cases mid with
      | nil =>
        have hlater := ih₂ htodo (show log' = [] ++ .back x :: after by simpa using hmid.symm)
        rw [hvalue.decays.owed_eq hplan] at hlater
        simp only [List.append_nil] at hvalue
        rw [owed_append, hvalue.count_lower hplan trivial]
        simp only [backs_nil, List.nil_append, List.count_nil] at hlater
        omega
      | cons d mid =>
        rw [List.cons_append, List.cons.injEq] at hmid
        obtain ⟨rfl, -⟩ := hmid
        exact ih₁ trivial rfl
  | skip _ _ _ ih => exact ih (fun p hp => hjob p (List.mem_cons_of_mem _ hp)) hlog

/-! ### Fields before objects -/

variable {x w : Nat}

/-- A counted field of the object `x` points to the object `w`. -/
def Refers (plan : Int → List (Bool × Nat)) (M : Memory) (x w : Nat) : Prop :=
  ∃ p ∈ plan (M.nth x).tag, ((M.nth x).slot p.2).place? = some w

theorem pointing_pos {vs : List Value} : 0 < pointing vs w ↔ ∃ v ∈ vs, v.place? = some w := by
  simp [pointing, List.countP_pos_iff]

theorem pointing_held_pos : 0 < pointing (M.held plan x) w ↔ Refers plan M x w := by
  rw [pointing_pos]
  constructor
  · rintro ⟨v, hv, hw⟩
    obtain ⟨p, hp, rfl⟩ := List.mem_map.1 hv
    exact ⟨p, hp, hw⟩
  · rintro ⟨p, hp, hw⟩
    exact ⟨_, List.mem_map.2 ⟨p, hp, rfl⟩, hw⟩

theorem Decays.refers_eq (hplan : BehindHeader plan) (h : Decays M M') : Refers plan M' = Refers plan M := by
  funext a b
  rw [eq_iff_iff, ← pointing_held_pos, ← pointing_held_pos, h.held_eq hplan]

/-- Counts go down as the record tells. -/
theorem Cascade.count_eq (h : Cascade plan job M log M') (w : Nat) :
    (M'.nth w).count = (M.nth w).count - log.count (.lower w) := by
  have hset : ∀ {M : Memory} {id : Nat} {c d : Int}, M.load (.ptr (.field id countSlot)) = .ok (.int c) →
      ((M.setCount id d).nth w).count = if id - 1 = w then d else (M.nth w).count := by
    intro M id c d hcount
    by_cases hw : id - 1 = w
    · subst hw
      rw [if_pos rfl, M.count_setCount (Memory.load_field_eq_ok hcount).1]
    · rw [if_neg hw, Memory.nth_setCount_of_ne (Ne.symm hw)]
  induction h with
  | null M => simp
  | @keep M id c hcount _ _ =>
    rw [hset hcount]
    by_cases hw : id - 1 = w
    · subst hw
      simp [M.count_of_load hcount]
    · simp [hw]
  | @free M M' id t log hcount _ _ _ ih =>
    have hback : ((M'.giveBack id).nth w).count = (M'.nth w).count := by
      rw [M'.nth_giveBack]
      split <;> rfl
    rw [hback, ih, hset hcount, count_lower_free]
    by_cases hw : id - 1 = w
    · subst hw
      have hone := M.count_of_load hcount
      simp only [if_true]
      omega
    · simp [hw]
  | done M => simp
  | next _ _ _ _ ih₁ ih₂ =>
    rw [ih₂, ih₁, List.count_append]
    omega
  | skip _ _ _ ih => exact ih

/-- What is given back was reached along fields from what is dropped. -/
theorem Cascade.reached (hplan : BehindHeader plan) (h : Cascade plan job M log M') (hjob : job.BehindHeader)
    (hx : x ∈ backs log) : ∃ v ∈ job.values M, ∃ r, v.place? = some r ∧ Relation.ReflTransGen
    (Refers plan M) r x := by
  induction h with
  | null M => simp at hx
  | keep _ _ _ => simp at hx
  | @free M M' id t log hcount htag _ _ ih =>
    have hdecays := decays_setCount hcount (d := 0) (by omega)
    refine ⟨_, List.mem_singleton.2 rfl, id - 1, rfl, ?_⟩
    rw [List.cons_append, backs_lower, backs_append, List.mem_append] at hx
    rcases hx with hx | hx
    · obtain ⟨v, hv, r, hr, hpath⟩ := ih (hplan t) hx
      have hfirst : Refers plan (M.setCount id 0) (id - 1) r := by
        rw [← pointing_held_pos, held_eq_of_tag htag, pointing_pos]
        exact ⟨v, hv, hr⟩
      have hpath' := Relation.ReflTransGen.head hfirst hpath
      exact hdecays.refers_eq hplan ▸ hpath'
    · obtain rfl := List.mem_singleton.1 hx
      exact .refl
  | done M => simp at hx
  | @next M M₁ M₂ id slot isFn v todo log log' hload _ hvalue _ ih₁ ih₂ =>
    have hslot : (M.nth (id - 1)).slot slot = v := (Memory.load_field_eq_ok hload).2.2.1
    have htodo : ∀ p ∈ todo, p.2 ≠ countSlot := fun p hp => hjob p (List.mem_cons_of_mem _ hp)
    have hvalues : (Job.fields id ((isFn, slot) :: todo)).values M = v :: (Job.fields id todo).values M := by
      rw [← hslot]
      rfl
    rw [backs_append, List.mem_append] at hx
    rw [hvalues]
    rcases hx with hx | hx
    · obtain ⟨v', hv', r, hr, hpath⟩ := ih₁ trivial hx
      obtain rfl := List.mem_singleton.1 hv'
      exact ⟨v', List.mem_cons_self, r, hr, hpath⟩
    · obtain ⟨v', hv', r, hr, hpath⟩ := ih₂ htodo hx
      rw [values_fields_of_decays hvalue.decays htodo] at hv'
      exact ⟨v', List.mem_cons_of_mem _ hv', r, hr, hvalue.decays.refers_eq hplan ▸ hpath⟩
  | @skip M M₂ id slot v todo log hload _ _ ih =>
    obtain ⟨v', hv', hr⟩ := ih (fun p hp => hjob p (List.mem_cons_of_mem _ hp)) hx
    exact ⟨v', List.mem_cons_of_mem _ hv', hr⟩

/-- An object that has lost all its owners in the drop was given back. -/
theorem Cascade.mem_backs (h : Cascade plan job M log M') (hpos : 0 < (M.nth w).count)
    (hlost : (M.nth w).count ≤ log.count (.lower w)) : w ∈ backs log := by
  induction h with
  | null M =>
    simp at hlost
    omega
  | @keep M id c hcount hc _ =>
    by_cases hw : id - 1 = w
    · subst hw
      rw [M.count_of_load hcount] at hlost
      simp at hlost
      omega
    · simp [hw] at hlost
      omega
  | @free M M' id t log hcount _ _ _ ih =>
    rw [List.cons_append, backs_lower, backs_append, List.mem_append]
    by_cases hw : id - 1 = w
    · exact .inr (List.mem_singleton.2 hw.symm)
    · rw [count_lower_free, if_neg hw, Nat.zero_add] at hlost
      rw [← Memory.nth_setCount_of_ne (Ne.symm hw) (c := 0)] at hpos hlost
      exact .inl (ih hpos hlost)
  | done M =>
    simp at hlost
    omega
  | @next M M₁ M₂ id slot isFn v todo log log' _ _ hvalue _ ih₁ ih₂ =>
    rw [backs_append, List.mem_append]
    rw [List.count_append] at hlost
    have hcount := hvalue.count_eq w
    by_cases hfirst : (M.nth w).count ≤ log.count (.lower w)
    · exact .inl (ih₁ hpos hfirst)
    · exact .inr (ih₂ (by omega) (by omega))
  | skip _ _ _ ih => exact ih hpos hlost

/-- When an object is given back, every other one that has lost all its owners was given back before it, or leads
to it: then it waits for its own fields. -/
theorem Cascade.mem_backs_before (hplan : BehindHeader plan) (h : Cascade plan job M log M')
    (hjob : job.BehindHeader) {before after : List Deed} (hlog : log = before ++ .back x :: after)
    (hpos : 0 < (M.nth w).count) (hlost : (M.nth w).count ≤ before.count (.lower w)) :
    w ∈ backs before ∨ Relation.ReflTransGen (Refers plan M) w x := by
  induction h generalizing before after with
  | null M => simp at hlog
  | keep _ _ _ =>
    cases before with
    | nil => simp at hlog
    | cons d before => simp at hlog
  | @free M M' id t log hcount htag hfields _ ih =>
    have hdecays := decays_setCount hcount (d := 0) (by omega)
    cases before with
    | nil => simp at hlog
    | cons d before =>
      simp only [List.cons_append, List.cons.injEq] at hlog
      obtain ⟨rfl, hlog⟩ := hlog
      rw [backs_lower]
      by_cases hw : id - 1 = w
      · -- the object itself: what is given back before it was reached along its fields
        subst hw
        have hx : x ∈ backs (.lower (id - 1) :: log ++ [.back (id - 1)]) := by
          rw [List.cons_append, hlog]
          simp
        obtain ⟨v, hv, r, hr, hpath⟩ := (Cascade.free hcount htag hfields ‹_›).reached hplan trivial hx
        obtain rfl := List.mem_singleton.1 hv
        cases hr
        exact .inr hpath
      · have hlower : (Deed.lower (id - 1) :: before).count (.lower w) = before.count (.lower w) := by
          rw [List.count_cons_of_ne]
          simpa using hw
        rw [hlower] at hlost
        rw [← Memory.nth_setCount_of_ne (Ne.symm hw) (c := 0)] at hpos hlost
        rcases List.eq_nil_or_concat after with rfl | ⟨after, d, rfl⟩
        · obtain ⟨rfl, -⟩ := List.append_inj' hlog rfl
          exact .inl (hfields.mem_backs hpos hlost)
        · rw [List.concat_eq_append, ← List.cons_append, ← List.append_assoc] at hlog
          rcases ih (hplan t) (List.append_inj' hlog rfl).1 hpos hlost with hmem | hpath
          · exact .inl hmem
          · exact .inr (hdecays.refers_eq hplan ▸ hpath)
  | done M => simp at hlog
  | @next M M₁ M₂ id slot isFn v todo log log' _ _ hvalue _ ih₁ ih₂ =>
    have htodo : ∀ p ∈ todo, p.2 ≠ countSlot := fun p hp => hjob p (List.mem_cons_of_mem _ hp)
    have hcount := hvalue.count_eq w
    -- the object is given back after the first field is dropped
    have hlater : ∀ mid after, log' = mid ++ .back x :: after → before = log ++ mid →
        w ∈ backs before ∨ Relation.ReflTransGen (Refers plan M) w x := by
      rintro mid after hmid rfl
      rw [List.count_append] at hlost
      rw [backs_append, List.mem_append]
      by_cases hfirst : (M.nth w).count ≤ log.count (.lower w)
      · exact .inl (.inl (hvalue.mem_backs hpos hfirst))
      · rcases ih₂ htodo hmid (by omega) (by omega) with hmem | hpath
        · exact .inl (.inr hmem)
        · exact .inr (hvalue.decays.refers_eq hplan ▸ hpath)
    rcases List.append_eq_append_iff.1 hlog with ⟨mid, hbefore, hmid⟩ | ⟨mid, hfirst, hmid⟩
    · exact hlater mid _ hmid hbefore
    · cases mid with
      | nil => exact hlater [] after (by simpa using hmid.symm) (by simpa using hfirst.symm)
      | cons d mid =>
        rw [List.cons_append, List.cons.injEq] at hmid
        obtain ⟨rfl, -⟩ := hmid
        exact ih₁ trivial hfirst hpos hlost
  | skip _ _ _ ih => exact ih (fun p hp => hjob p (List.mem_cons_of_mem _ hp)) hlog hpos hlost

end

end TypedScript.Machine
