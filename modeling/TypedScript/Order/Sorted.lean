/-!
# Sorting and searching

A list is sorted by inserting its elements one after another, the last one first. Elements that compare equal keep
their order, so sorting is a function of the list alone and recurses on it.

Where a condition holds up to a place and not from there on, the place is found by halving what is left of the
range.
-/

namespace TypedScript.Order

variable {α : Type}

/-- Puts an element before the first one that may follow it. -/
def insertSorted (le : α → α → Bool) (a : α) : List α → List α
  | [] => [a]
  | b :: rest => if le a b then a :: b :: rest else b :: insertSorted le a rest

/-- The list in order; elements that compare equal keep their order. -/
def sorted (le : α → α → Bool) : List α → List α
  | [] => []
  | a :: rest => insertSorted le a (sorted le rest)

theorem insertSorted_perm (le : α → α → Bool) (a : α) (l : List α) : (insertSorted le a l).Perm (a :: l) := by
  induction l with
  | nil => exact List.Perm.refl _
  | cons b rest ih =>
    simp only [insertSorted]
    split
    · exact List.Perm.refl _
    · exact (ih.cons b).trans (List.Perm.swap a b rest)

/-- Sorting loses nothing and adds nothing. -/
theorem sorted_perm (le : α → α → Bool) (l : List α) : (sorted le l).Perm l := by
  induction l with
  | nil => exact List.Perm.refl _
  | cons a rest ih => exact (insertSorted_perm le a _).trans (ih.cons a)

/-! ### Binary search -/

/-- The first of the numbers from `lo` up to `hi` for which `below` does not hold; `hi` if it holds for all of
them. -/
def search (below : Nat → Bool) (lo hi : Nat) : Nat :=
  if lo < hi then
    if below ((lo + hi) / 2) then search below ((lo + hi) / 2 + 1) hi else search below lo ((lo + hi) / 2)
  else lo
  termination_by hi - lo

/-- The search ends within the range, where the condition starts to fail. -/
theorem search_spec {below : Nat → Bool} (hmono : ∀ i j, i ≤ j → below j = true → below i = true) {lo hi : Nat}
    (hle : lo ≤ hi) : lo ≤ search below lo hi ∧ search below lo hi ≤ hi ∧
      (∀ i, lo ≤ i → i < search below lo hi → below i = true) ∧
      (search below lo hi < hi → below (search below lo hi) = false) := by
  fun_induction search below lo hi with
  | case1 lo hi hlt hmid ih =>
    obtain ⟨hlo, hhi, hbelow, hfail⟩ := ih (by omega)
    refine ⟨by omega, hhi, fun i hlow hlt => ?_, hfail⟩
    by_cases hmiddle : i ≤ (lo + hi) / 2
    · exact hmono i _ hmiddle hmid
    · exact hbelow i (by omega) hlt
  | case2 lo hi hlt hmid ih =>
    obtain ⟨hlo, hhi, hbelow, hfail⟩ := ih (by omega)
    refine ⟨hlo, by omega, hbelow, fun hsearch => ?_⟩
    by_cases hend : search below lo ((lo + hi) / 2) < (lo + hi) / 2
    · exact hfail hend
    · rw [show search below lo ((lo + hi) / 2) = (lo + hi) / 2 by omega]
      simpa using hmid
  | case3 lo hi hlt => exact ⟨Nat.le_refl _, hle, fun i _ _ => by omega, fun h => absurd h hlt⟩

end TypedScript.Order
