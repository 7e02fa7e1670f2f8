import Mathlib.Data.List.Forall2
import Mathlib.Data.List.Nodup
import TypedScript.Order.Sorted

/-!
# Sorting

What sorting does to lists that are related, and that lists of the same elements are sorted alike. Lists whose
elements have different names are in strict order when they are sorted by their names.
-/

namespace TypedScript.Order

variable {α β : Type} (le : α → α → Bool) (le' : β → β → Bool)

/-- Lists that are related element by element are sorted alike if the order cannot tell related elements apart. -/
theorem forall₂_sorted {R : α → β → Prop} (hle : ∀ a b a' b', R a a' → R b b' → le a b = le' a' b') {l : List α}
    {l' : List β} (h : List.Forall₂ R l l') : List.Forall₂ R (sorted le l) (sorted le' l') := by
  have hinsert {a : α} {a' : β} (ha : R a a') {m : List α} {m' : List β} (hm : List.Forall₂ R m m') :
      List.Forall₂ R (insertSorted le a m) (insertSorted le' a' m') := by
    induction hm with
    | nil => exact .cons ha .nil
    | @cons b b' m m' hb hm ih =>
      unfold insertSorted
      rw [hle a b a' b' ha hb]
      split
      · exact .cons ha (.cons hb hm)
      · exact .cons hb ih
  induction h with
  | nil => exact .nil
  | cons ha _ ih => exact hinsert ha ih

variable {le}

theorem sorted_map (f : α → β) (l : List α) :
    sorted le' (l.map f) = (sorted (fun a b => le' (f a) (f b)) l).map f := by
  have hself : List.Forall₂ (fun b a => b = f a) (l.map f) l := by
    rw [List.forall₂_map_left_iff]
    exact List.forall₂_same.2 fun _ _ => rfl
  have hsorted := forall₂_sorted le' (fun a b => le' (f a) (f b)) (by rintro _ _ a b rfl rfl; rfl) hself
  rw [← List.forall₂_eq_eq_eq, List.forall₂_map_right_iff]
  exact hsorted

theorem pairwise_sorted (htotal : ∀ a b, le a b = true ∨ le b a = true)
    (htrans : ∀ a b c, le a b = true → le b c = true → le a c = true) (l : List α) :
    (sorted le l).Pairwise (fun a b => le a b = true) := by
  have hinsert (a : α) {m : List α} (hm : m.Pairwise fun a b => le a b = true) :
      (insertSorted le a m).Pairwise fun a b => le a b = true := by
    induction m with
    | nil => exact List.pairwise_singleton _ _
    | cons b m ih =>
      obtain ⟨hb, hm'⟩ := List.pairwise_cons.1 hm
      unfold insertSorted
      split
      · rename_i hab
        refine List.pairwise_cons.2 ⟨fun c hc => ?_, hm⟩
        rcases List.mem_cons.1 hc with rfl | hc
        · exact hab
        · exact htrans a b c hab (hb c hc)
      · rename_i hab
        refine List.pairwise_cons.2 ⟨fun c hc => ?_, ih hm'⟩
        rcases List.mem_cons.1 ((insertSorted_perm le a m).mem_iff.1 hc) with rfl | hc
        · exact (htotal b c).resolve_right hab
        · exact hb c hc
  induction l with
  | nil => exact List.Pairwise.nil
  | cons a l ih => exact hinsert a ih

/-- Lists of the same elements, of which no two compare equal, are sorted to one list. -/
theorem sorted_eq_of_perm (htotal : ∀ a b, le a b = true ∨ le b a = true)
    (htrans : ∀ a b c, le a b = true → le b c = true → le a c = true) {l l' : List α} (h : l.Perm l')
    (hanti : ∀ a ∈ l, ∀ b ∈ l, le a b = true → le b a = true → a = b) : sorted le l = sorted le l' := by
  have hperm : (sorted le l).Perm (sorted le l') := ((sorted_perm le l).trans h).trans (sorted_perm le l').symm
  refine List.Perm.eq_of_pairwise ?_ (pairwise_sorted htotal htrans l) (pairwise_sorted htotal htrans l') hperm
  intro a b ha hb
  exact hanti a ((sorted_perm le l).mem_iff.1 ha) b (h.mem_iff.2 ((sorted_perm le l').mem_iff.1 hb))

/-! ### Names -/

/-- Elements by their names. -/
def nameLe (a b : String × α) : Bool := a.1 ≤ b.1

theorem nameLe_total (a b : String × α) : nameLe a b = true ∨ nameLe b a = true := by
  simpa [nameLe] using String.le_total a.1 b.1

theorem nameLe_trans (a b c : String × α) (hab : nameLe a b = true) (hbc : nameLe b c = true) :
    nameLe a c = true := by
  simp only [nameLe, decide_eq_true_eq] at hab hbc ⊢
  exact String.le_trans hab hbc

variable {l l' : List (String × α)}

/-- Different names have one order. -/
theorem sorted_nameLe_eq_of_perm (h : l.Perm l') (hnodup : (l.map (·.1)).Nodup) : sorted nameLe l =
    sorted nameLe l' := by
  refine sorted_eq_of_perm nameLe_total nameLe_trans h fun a ha b hb hab hba => ?_
  have hname : a.1 = b.1 := String.le_antisymm (of_decide_eq_true hab) (of_decide_eq_true hba)
  exact List.inj_on_of_nodup_map hnodup ha hb hname

/-- Different names are in strict order. -/
theorem pairwise_lt_sorted_nameLe (hnodup : (l.map (·.1)).Nodup) : (sorted nameLe l).Pairwise fun a b =>
    a.1 < b.1 := by
  have hsorted : ((sorted nameLe l).map (·.1)).Nodup := ((sorted_perm nameLe l).map _).nodup_iff.2 hnodup
  refine ((pairwise_sorted nameLe_total nameLe_trans l).and (List.pairwise_map.1 hsorted)).imp fun ⟨hle, hne⟩ => ?_
  exact Std.lt_of_le_of_ne (of_decide_eq_true hle) hne

end TypedScript.Order
