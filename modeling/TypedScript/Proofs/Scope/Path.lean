import Mathlib.Data.List.Chain
import Mathlib.Data.List.TakeWhile
import Mathlib.Logic.Function.Iterate
import TypedScript.Lower.Scopes

/-!
# Paths through scope objects

The scope objects of a run are linked as the scopes that have one lie around each other: the object of a scope
links to that of the next one outward (`parentEnv?`). The path from the environment of a function to the object of
an enclosing scope is found without the links, by going outward and leaving out the scopes that have no object.
Both agree because what is left of a chain of scopes, when some are left out, is linked from one to the next
(`isChain_filter_outward`).

* `Chain.Made`: chains as they are made by opening scopes and changing what they keep.
* `Chain.Segmented`: the scopes of a function follow one another.
* `Chain.Follows`: a path goes from the environment of a function along links.
-/

namespace TypedScript.Scope

open TypedScript.Lower (parentEnv?)

namespace Chain

/-! ### Chains -/

/-- Scopes are opened one after another, a new one inside one that is there. What a scope keeps may change,
whether it has a scope object included, but not its place. -/
inductive Made : Chain → Prop
  | empty : Made {}
  | root {c : Chain} (container : Nat) : Made c → Made (c.openRoot container).1
  | child {c : Chain} {p : Nat} (container function : Nat) : Made c → p < c.nodes.size →
    Made (c.openChild p container function).1
  | transient {c : Chain} {p : Nat} : Made c → p < c.nodes.size → Made (c.openTransient p).1
  | change {c : Chain} (n : Nat) {f : Node → Node} : Made c →
    (∀ node, (f node).parent = node.parent ∧ (f node).function = node.function) → Made (c.modify n f)

/-- Going outward from the scope, the scopes of one function follow one another. -/
def Segmented (c : Chain) (n : Nat) : Prop :=
  ∀ a m b, [a, m, b].Sublist (c.outward n) → c.function a = c.function b → c.function m = c.function a

/-- The parent of a scope was opened before it. -/
def Ordered (c : Chain) : Prop := ∀ k p, (c.get k).parent = some p → p < k

variable {c : Chain} {n target : Nat}

theorem get_push (c : Chain) (n : Nat) (node : Node) :
    (⟨c.nodes.push node⟩ : Chain).get n = if n = c.nodes.size then node else c.get n := by
  simp only [get, Array.getD_eq_getD_getElem?, Array.getElem?_push]
  split <;> rfl

theorem get_modify (c : Chain) (k n : Nat) (f : Node → Node) :
    (c.modify k f).get n = if n = k ∧ k < c.nodes.size then f (c.get n) else c.get n := by
  simp only [get, modify, Array.getD_eq_getD_getElem?, Array.getElem?_modify]
  by_cases hk : k = n
  · subst hk
    by_cases hlt : k < c.nodes.size <;> simp [hlt]
  · simp [hk, Ne.symm hk]

theorem Ordered.push (h : c.Ordered) {node : Node} (hnode : ∀ p, node.parent = some p → p < c.nodes.size) :
    Ordered ⟨c.nodes.push node⟩ := by
  intro k p hp
  rw [get_push] at hp
  split at hp
  · rename_i hk
    exact hk ▸ hnode p hp
  · exact h k p hp

theorem Made.ordered (h : c.Made) : c.Ordered := by
  induction h with
  | empty => exact fun k p hp => nomatch hp
  | root container _ ih => exact ih.push fun p hp => nomatch hp
  | child container function _ hlt ih => exact ih.push fun p hp => Option.some.inj hp ▸ hlt
  | transient _ hlt ih => exact ih.push fun p hp => Option.some.inj hp ▸ hlt
  | @change c n f _ hf ih =>
    intro k p hp
    rw [get_modify] at hp
    split at hp
    · exact ih k p ((hf _).1 ▸ hp)
    · exact ih k p hp

/-- A scope comes first, and then its parent and what is around that. -/
theorem Ordered.outward_eq (h : c.Ordered) (n : Nat) : c.outward n = n :: (c.get n).parent.elim [] c.outward := by
  rw [outward]
  cases hp : (c.get n).parent with
  | none => rfl
  | some p => exact if_pos (h n p hp)

/-- The links of a scope go to the next scope outward that has an object. -/
theorem Ordered.parentEnv?_eq (h : c.Ordered) (n : Nat) : parentEnv? c n =
    (c.outward n).tail.find? c.isEscaping := by
  rw [h.outward_eq, List.tail_cons, parentEnv?]
  cases (c.get n).parent with
  | none => rfl
  | some p => rfl

/-- What is around a scope does not depend on where one comes from. -/
theorem Ordered.outward_of_suffix (h : c.Ordered) {m : Nat} {l : List Nat} (hl : m :: l <:+ c.outward n) :
    c.outward m = m :: l := by
  fun_induction outward c n with
  | case1 n p hp hlt ih =>
    rcases List.suffix_cons_iff.1 hl with heq | hl
    · obtain ⟨rfl, rfl⟩ := List.cons.inj heq
      rw [h.outward_eq, hp]
      rfl
    · exact ih hl
  | case2 n p hp hlt => exact absurd (h n p hp) hlt
  | case3 n hp =>
    obtain ⟨rfl, rfl⟩ : m = n ∧ l = [] := by simpa [List.suffix_cons_iff] using hl
    rw [h.outward_eq, hp]
    rfl

/-- Among the scopes around a scope, those with an object are linked from one to the next. -/
theorem Ordered.isChain_filter_outward (h : c.Ordered) {l : List Nat} (hl : l <:+ c.outward n) :
    (l.filter c.isEscaping).IsChain fun m p => parentEnv? c m = some p := by
  induction l with
  | nil => exact .nil
  | cons m l ih =>
    have hrest := ih ((List.suffix_cons m l).trans hl)
    rw [List.filter_cons]
    split
    · refine List.isChain_cons.2 ⟨fun p hp => ?_, hrest⟩
      rw [h.parentEnv?_eq, h.outward_of_suffix hl, List.tail_cons, ← List.head?_filter]
      exact hp
    · exact hrest

/-! ### Paths -/

/-- The path goes from the environment of the function along links to the scope. -/
structure Follows (c : Chain) (n target : Nat) (path : List Nat) : Prop where
  head : path.head? = c.env? n
  links : path.IsChain fun m p => parentEnv? c m = some p
  last : path.getLast? = some target

theorem beyondFunction_suffix (c : Chain) (n : Nat) : c.beyondFunction n <:+ c.outward n := List.dropWhile_suffix _

/-- What lies around a scope and belongs to another function is beyond its function. -/
theorem mem_beyondFunction {m : Nat} (hm : m ∈ c.outward n) (hf : c.function m ≠ c.function n) :
    m ∈ c.beyondFunction n := by
  have hsplit : c.withinFunction n ++ c.beyondFunction n = c.outward n := List.takeWhile_append_dropWhile
  rw [← hsplit] at hm
  rcases List.mem_append.1 hm with hm | hm
  · exact absurd (by simpa using List.mem_takeWhile_imp hm) hf
  · exact hm

/-- If the scopes of a function follow one another, all others are beyond it. -/
theorem Ordered.mem_beyondFunction_iff (h : c.Ordered) (hseg : c.Segmented n) {m : Nat} :
    m ∈ c.beyondFunction n ↔ m ∈ c.outward n ∧ c.function m ≠ c.function n := by
  refine ⟨fun hm => ⟨(beyondFunction_suffix c n).subset hm, fun hfun => ?_⟩, fun hm => mem_beyondFunction hm.1 hm.2⟩
  have hwithin : c.beyondFunction n <:+ (c.get n).parent.elim [] c.outward := by
    rw [beyondFunction, h.outward_eq, List.dropWhile_cons, if_pos (by simp)]
    exact List.dropWhile_suffix _
  cases hbeyond : c.beyondFunction n with
  | nil =>
    rw [hbeyond] at hm
    cases hm
  | cons first rest =>
    -- the first scope beyond the function lies between the scope and `m`
    rw [hbeyond] at hm hwithin
    have hfirst : c.function first ≠ c.function n := by
      have hnot := List.head?_dropWhile_not (fun m => decide (c.function m = c.function n)) (c.outward n)
      rw [show (c.outward n).dropWhile _ = first :: rest from hbeyond] at hnot
      simpa using hnot
    rcases List.mem_cons.1 hm with rfl | hm
    · exact hfirst hfun
    · refine hfirst (hseg n first m ?_ hfun.symm)
      rw [h.outward_eq]
      exact ((List.singleton_sublist.2 hm).cons_cons first |>.trans hwithin.sublist).cons_cons n

theorem envPath?_eq_some {path : List Nat} (h : c.envPath? n target = some path) :
    (target ∈ c.beyondFunction n ∧ c.isEscaping target = true) ∧
      path = ((c.beyondFunction n).takeWhile (· ≠ target)).filter c.isEscaping ++ [target] := by
  unfold envPath? at h
  split at h
  · rename_i hreach
    obtain ⟨hmem, hesc⟩ : (c.beyondFunction n).contains target = true ∧ c.isEscaping target = true := by
      simpa [isReachable] using hreach
    obtain rfl := Option.some.inj h
    refine ⟨⟨List.contains_iff_mem.1 hmem, hesc⟩, ?_⟩
    rw [envPath, if_pos hmem, if_pos hesc]
  · cases h

/-- What is left of a list from the first occurrence of an element on. -/
theorem exists_dropWhile_ne {l : List Nat} {a : Nat} (h : a ∈ l) : ∃ rest, l.dropWhile (· ≠ a) = a :: rest := by
  cases hd : l.dropWhile (· ≠ a) with
  | nil =>
    have := List.dropWhile_eq_nil_iff.1 hd a h
    simp at this
  | cons b rest =>
    have hnot := List.head?_dropWhile_not (fun x => decide (x ≠ a)) l
    rw [hd] at hnot
    obtain rfl : b = a := by simpa using hnot
    exact ⟨rest, rfl⟩

/-- A path is the beginning of the scopes with an object beyond the function. -/
theorem prefix_of_envPath? {path : List Nat} (h : c.envPath? n target = some path) :
    path <+: (c.beyondFunction n).filter c.isEscaping := by
  obtain ⟨⟨hmem, hesc⟩, rfl⟩ := envPath?_eq_some h
  obtain ⟨rest, hrest⟩ := exists_dropWhile_ne hmem
  have hsplit : (c.beyondFunction n).takeWhile (· ≠ target) ++ target :: rest = c.beyondFunction n := by
    rw [← hrest, List.takeWhile_append_dropWhile]
  refine ⟨rest.filter c.isEscaping, ?_⟩
  rw [← congrArg (List.filter c.isEscaping) hsplit, List.filter_append, List.filter_cons, if_pos hesc,
    List.append_assoc,
    List.singleton_append]

/-- A path that is found follows the links. -/
theorem Ordered.follows (h : c.Ordered) {path : List Nat} (hpath : c.envPath? n target = some path) :
    c.Follows n target path := by
  obtain ⟨rest, hrest⟩ := prefix_of_envPath? hpath
  have hchain := h.isChain_filter_outward (beyondFunction_suffix c n)
  have hlast : path.getLast? = some target := by
    rw [(envPath?_eq_some hpath).2, List.getLast?_concat]
  refine ⟨?_, ?_, hlast⟩
  · rw [env?, ← List.head?_filter, ← hrest, List.head?_append_of_ne_nil]
    rintro rfl
    cases hlast
  · rw [← hrest] at hchain
    exact hchain.left_of_append

/-- Following as many links as a path has leads from its beginning to its end. -/
theorem Follows.iterate_eq {path : List Nat} (h : c.Follows n target path) :
    (fun m => m.bind (parentEnv? c))^[path.length - 1] (c.env? n) = some target := by
  obtain ⟨hhead, hlinks, hlast⟩ := h
  rw [← hhead]
  clear hhead
  induction path with
  | nil => cases hlast
  | cons m path ih =>
    cases path with
    | nil => exact hlast
    | cons p path =>
      obtain ⟨hlink, hlinks⟩ := List.isChain_cons_cons.1 hlinks
      rw [List.getLast?_cons_cons] at hlast
      rw [List.length_cons, List.length_cons, Nat.add_sub_cancel, Function.iterate_succ_apply]
      have := ih hlinks hlast
      simpa [hlink] using this

/-- There is a path to the scopes with an object that belong to other functions, and only to them. -/
theorem Ordered.envPath?_eq_none_iff (h : c.Ordered) (hseg : c.Segmented n) :
    c.envPath? n target = none ↔
      ¬ (target ∈ c.outward n ∧ c.function target ≠ c.function n ∧ c.isEscaping target = true) := by
  have hreach : c.isReachable n target = true ↔
      target ∈ c.outward n ∧ c.function target ≠ c.function n ∧ c.isEscaping target = true := by
    rw [isReachable, Bool.and_eq_true, List.contains_iff_mem, h.mem_beyondFunction_iff hseg, and_assoc]
  rw [← hreach, envPath?]
  split <;> simp_all

/-- What the object of a scope links to is the environment, if another function has it. -/
theorem Ordered.env?_eq_parentEnv? (h : c.Ordered) {p : Nat} (hp : parentEnv? c n = some p)
    (hf : c.function p ≠ c.function n) : c.env? n = some p := by
  rw [h.parentEnv?_eq] at hp
  have hsplit : (c.outward n).tail =
    ((c.get n).parent.elim [] c.outward).takeWhile (fun m => c.function m = c.function n) ++
      c.beyondFunction n := by
    rw [beyondFunction, h.outward_eq, List.tail_cons, List.dropWhile_cons, if_pos (by simp),
      List.takeWhile_append_dropWhile]
  rw [hsplit, List.find?_append] at hp
  cases hwithin : (((c.get n).parent.elim [] c.outward).takeWhile fun m => c.function m = c.function n).find?
    c.isEscaping with
  | none =>
    rw [hwithin] at hp
    exact hp
  | some q =>
    rw [hwithin] at hp
    obtain rfl : q = p := Option.some.inj hp
    exact absurd (by simpa using List.mem_takeWhile_imp (List.mem_of_find?_eq_some hwithin)) hf

/-- The path to what the object of a scope links to is no longer than the environment. -/
theorem Ordered.envPath?_parentEnv? (h : c.Ordered) {p : Nat} (hp : parentEnv? c n = some p)
    (hf : c.function p ≠ c.function n) : c.envPath? n p = some [p] := by
  have henv := h.env?_eq_parentEnv? hp hf
  have hreach : c.isReachable n p = true := by
    simp only [isReachable, Bool.and_eq_true, List.contains_iff_mem]
    exact ⟨List.mem_of_find?_eq_some henv, List.find?_some henv⟩
  obtain ⟨path, hpath⟩ : ∃ path, c.envPath? n p = some path := ⟨_, if_pos hreach⟩
  have hhead := (h.follows hpath).head
  obtain ⟨-, rfl⟩ := envPath?_eq_some hpath
  rw [henv] at hhead
  cases hbefore : ((c.beyondFunction n).takeWhile (· ≠ p)).filter c.isEscaping with
  | nil => rw [hpath, hbefore, List.nil_append]
  | cons q rest =>
    -- the path would begin before its end with the scope that it ends with
    rw [hbefore] at hhead
    obtain rfl : q = p := Option.some.inj hhead
    have hmem := List.mem_of_mem_filter (hbefore ▸ List.mem_cons_self)
    have hne := List.mem_takeWhile_imp hmem
    simp at hne

end Chain

end TypedScript.Scope
