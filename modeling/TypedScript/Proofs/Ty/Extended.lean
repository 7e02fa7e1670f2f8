import Mathlib.Data.List.Infix
import TypedScript.Proofs.Ty.Canonical
import TypedScript.Proofs.Ty.Unfolding

/-!
# Types that are made later

While expressions are checked, types are only added to an interner. What was found out about the types that it had
stays true: what a number means, which types are identical, and which number a structural type has.

* `Extends`: types were added.
* `Numbers`: the number of a structural type.
* `Stocked`: what holds of an interner at all times; `Sound`: no alias leads to itself.
-/

namespace TypedScript.Ty.Interner

variable {ts ts' ts'' : Interner} {a b id : Nat} {t : Ty}

/-- Types were added behind those that there were. -/
def Extends (ts ts' : Interner) : Prop := ts.types.toList <+: ts'.types.toList

namespace Extends

theorem refl (ts : Interner) : Extends ts ts := List.prefix_refl _

theorem trans (h : Extends ts ts') (h' : Extends ts' ts'') : Extends ts ts'' := List.IsPrefix.trans h h'

theorem size_le (h : Extends ts ts') : ts.types.size ≤ ts'.types.size := by
  simpa using h.length_le

theorem push (ts : Interner) (t : Ty) : Extends ts ⟨ts.types.push t⟩ := ⟨[t], by simp⟩

theorem lookup? (h : Extends ts ts') (hid : ts.lookup? id = some t) : ts'.lookup? id = some t := by
  unfold Interner.lookup? at hid ⊢
  split at hid
  · exact nomatch hid
  rename_i hne
  obtain ⟨rest, hrest⟩ := h
  have hlt : id - 1 < ts.types.toList.length := by simpa using (Array.getElem?_eq_some_iff.1 hid).1
  rw [if_neg hne, ← Array.getElem?_toList, ← hrest, List.getElem?_append_left hlt, Array.getElem?_toList, hid]

/-- Aliases are followed as before. -/
theorem follow_eq (h : Extends ts ts') {fuel : Nat} (hfound : ts.lookup? (ts.follow fuel id) = some t)
    (more : Nat) :
    ts'.follow (fuel + more) id = ts.follow fuel id := by
  induction fuel generalizing id with
  | zero => exact nomatch hfound
  | succ fuel ih =>
    rw [Nat.add_right_comm]
    unfold follow at hfound ⊢
    cases hid : ts.lookup? id with
    | none =>
      -- nothing was found behind the number, against the assumption
      simp [hid] at hfound
    | some u =>
      rw [h.lookup? hid]
      simp only [hid] at hfound
      cases u with
      | synonym name target => exact ih hfound
      | _ => rfl

theorem resolved? (h : Extends ts ts') (ht : ts.resolved? id = some t) : ts'.resolved? id = some t := by
  have hmore : ts'.types.size + 1 = ts.types.size + 1 + (ts'.types.size - ts.types.size) := by
    have hle := h.size_le
    omega
  unfold Interner.resolved? unalias at ht ⊢
  rw [hmore, h.follow_eq ht, h.lookup? ht]

theorem prop? (h : Extends ts ts') {name : String} {p : String × Nat} (hp : ts.prop? id name = some p) :
    ts'.prop? id name = some p := by
  unfold Interner.prop? at hp ⊢
  cases hid : ts.resolved? id with
  | none => simp [hid] at hp
  | some t =>
    rw [hid] at hp
    rwa [h.resolved? hid]

theorem identical (h : Extends ts ts') (hab : ts.identical a b = true) : ts'.identical a b = true := by
  obtain ⟨R, hR, hmates⟩ := identical_iff.1 hab
  refine identical_iff.2 ⟨R, hR, fun x y hxy => ?_⟩
  rcases hmates x y hxy with heq | ⟨t, u, parts, ht, hu, hparts, hrel⟩
  · exact .inl heq
  · exact .inr ⟨t, u, parts, h.resolved? ht, h.resolved? hu, hparts, hrel⟩

theorem assignable (h : Extends ts ts') (hab : ts.assignable a b = true) : ts'.assignable a b = true := by
  unfold Interner.assignable at hab ⊢
  rcases Bool.or_eq_true_iff.1 hab with hsame | hnull
  · exact Bool.or_eq_true_iff.2 (.inl (h.identical hsame))
  · obtain ⟨hsrc, hdst⟩ := Bool.and_eq_true_iff.1 hnull
    refine Bool.or_eq_true_iff.2 (.inr ?_)
    have hsrc : ts.resolved? b = some .null := by simpa using hsrc
    cases ha : ts.resolved? a with
    | none => simp [ha] at hdst
    | some t =>
      rw [h.resolved? hsrc, h.resolved? ha]
      simpa [ha] using hdst

end Extends

theorem identical_self (ts : Interner) (a : Nat) : ts.identical a a = true :=
  identical_iff.2 ⟨Eq, rfl, fun _ _ h => .inl h⟩

theorem assignable_self (ts : Interner) (a : Nat) : ts.assignable a a = true := by
  simp [assignable, identical_self]

/-! ### The number of a type -/

/-- The structural type has the number. -/
def Numbers (ts : Interner) (t : Ty) (id : Nat) : Prop := ts.intern t = (id, ts)

theorem Numbers.unique (h : Numbers ts t a) (h' : Numbers ts t b) : a = b := congrArg Prod.fst (h.symm.trans h')

theorem numbers_iff : Numbers ts t id ↔
    ∃ i, (ts.types.findIdx? fun u => u.key?.isSome && u.key? == t.key?) = some i ∧ id = i + 1 := by
  unfold Numbers intern
  split
  · rename_i i hi
    rw [hi]
    constructor
    · intro h
      exact ⟨i, rfl, (congrArg Prod.fst h).symm⟩
    · rintro ⟨j, hj, rfl⟩
      obtain rfl := Option.some.inj hj
      rfl
  · rename_i hnone
    rw [hnone]
    constructor
    · intro h
      have hsize := congrArg (fun p => p.2.types.size) h
      simp at hsize
    · rintro ⟨i, hi, -⟩
      cases hi

theorem Numbers.extends (h : Numbers ts t id) (he : Extends ts ts') : Numbers ts' t id := by
  obtain ⟨i, hi, rfl⟩ := numbers_iff.1 h
  refine numbers_iff.2 ⟨i, ?_, rfl⟩
  obtain ⟨rest, hrest⟩ := he
  have hi : ts.types.toList.findIdx? (fun u => u.key?.isSome && u.key? == t.key?) = some i := by
    rwa [← List.findIdx?_toArray]
  have harray : ts'.types = ts'.types.toList.toArray := Array.toArray_toList.symm
  rw [harray, List.findIdx?_toArray, ← hrest, List.findIdx?_append, hi]
  rfl

theorem extends_intern (ts : Interner) (t : Ty) : Extends ts (ts.intern t).2 := by
  unfold intern
  split
  · exact .refl ts
  · exact .push ts t

/-- What was interned has its number. -/
theorem numbers_intern (ts : Interner) (h : t.key?.isSome = true) : Numbers (ts.intern t).2 t (ts.intern t).1 := by
  cases hfind : ts.types.findIdx? fun u => u.key?.isSome && u.key? == t.key? with
  | some i =>
    have hrun : ts.intern t = (i + 1, ts) := by simp [intern, hfind]
    rw [hrun]
    exact hrun
  | none =>
    have hrun : ts.intern t = (ts.types.size + 1, ⟨ts.types.push t⟩) := by simp [intern, hfind]
    rw [hrun]
    refine numbers_iff.2 ⟨ts.types.size, ?_, rfl⟩
    simp [Array.findIdx?_push, hfind, h]

/-! ### What an interner holds -/

/-- The number stands for a type. -/
def Has (ts : Interner) (id : Nat) : Prop := ∃ t, ts.lookup? id = some t

theorem has_iff : ts.Has id ↔ 0 < id ∧ id ≤ ts.types.size := by
  unfold Has lookup?
  split
  · rename_i hzero
    simp [hzero]
  · rename_i hne
    simp only [Array.getElem?_eq_some_iff]
    constructor
    · rintro ⟨t, hlt, -⟩
      omega
    · intro h
      exact ⟨_, by omega, rfl⟩

theorem Has.ne_zero (h : ts.Has id) : id ≠ 0 := Nat.ne_of_gt (has_iff.1 h).1

theorem Has.of_size_le (h : ts.Has id) (hsize : ts.types.size ≤ ts'.types.size) : ts'.Has id := by
  have hid := has_iff.1 h
  exact has_iff.2 ⟨hid.1, by omega⟩

theorem Has.extends (h : ts.Has id) (he : Extends ts ts') : ts'.Has id := h.of_size_le he.size_le

theorem has_of_resolved? (h : ts.resolved? id = some t) : ts.Has id := by
  by_contra hnot
  have hnone : ts.lookup? id = none := by
    cases hid : ts.lookup? id with
    | none => rfl
    | some u => exact absurd ⟨u, hid⟩ hnot
  have hself : ts.unalias id = id := by simp [unalias, follow, hnone]
  rw [Interner.resolved?, hself, hnone] at h
  cases h

theorem mem_of_lookup? (h : ts.lookup? id = some t) : t ∈ ts.types := Array.mem_of_getElem? (getElem?_of_lookup? h)

/-- The types that an interner starts from are there, names are spelled as names are, and the parts of types are
types. An alias may still be without a target. -/
structure Stocked (ts : Interner) : Prop where
  primitives : Grows {} ts
  named : ∀ t ∈ ts.types, t.IsNamed
  parts : ∀ t ∈ ts.types, ∀ p ∈ t.parts, ts.Has p
  targets : ∀ name target, .synonym name target ∈ ts.types → target = 0 ∨ ts.Has target

/-- Every type has a structure behind its aliases. -/
def Sound (ts : Interner) : Prop := ∀ id, ts.Has id → ∃ t, ts.resolved? id = some t

theorem stocked_primitives : Stocked {} := by
  have hplain : ∀ t ∈ ({} : Interner).types.toList, t.IsNamed ∧ t.parts = [] ∧ nameOf? t = none := by
    have hall : ∀ p ∈ Ty.primitives, p.2.isObject = false ∧ p.2.parts = [] ∧ nameOf? p.2 = none := by decide
    intro t ht
    obtain ⟨p, hp, rfl⟩ : ∃ p ∈ Ty.primitives, p.2 = t := by simpa using ht
    refine ⟨?_, (hall p hp).2⟩
    cases h : p.2 with
    | object => simpa [h, isObject] using (hall p hp).1
    | _ => trivial
  constructor
  case primitives => exact .refl _
  case named => exact fun t ht => (hplain t (Array.mem_def.1 ht)).1
  case parts =>
    intro t ht p hp
    rw [(hplain t (Array.mem_def.1 ht)).2.1] at hp
    exact nomatch hp
  case targets => exact fun name target ht => nomatch (hplain _ (Array.mem_def.1 ht)).2.2

namespace Stocked

/-- An interner that got one more type. -/
theorem push (h : Stocked ts) (hnamed : t.IsNamed) (hparts : ∀ p ∈ t.parts, ts.Has p)
    (htarget : ∀ name target, t = .synonym name target → target = 0 ∨ ts.Has target) :
    Stocked ⟨ts.types.push t⟩ := by
  have hhas {p : Nat} (hp : ts.Has p) : Has ⟨ts.types.push t⟩ p := hp.extends (.push ts t)
  constructor
  case primitives => exact h.primitives.trans fun _ _ hid _ => lookup?_push hid t
  case named =>
    intro u hu
    rcases Array.mem_push.1 hu with hu | rfl
    · exact h.named u hu
    · exact hnamed
  case parts =>
    intro u hu p hp
    rcases Array.mem_push.1 hu with hu | rfl
    · exact hhas (h.parts u hu p hp)
    · exact hhas (hparts p hp)
  case targets =>
    intro name target hmem
    rcases Array.mem_push.1 hmem with hmem | heq
    · exact (h.targets name target hmem).imp_right hhas
    · exact (htarget name target heq.symm).imp_right hhas

theorem intern (h : Stocked ts) (hnamed : t.IsNamed) (hparts : ∀ p ∈ t.parts, ts.Has p)
    (hne : ∀ name target, t ≠ .synonym name target) : Stocked (ts.intern t).2 := by
  unfold Interner.intern
  split
  · exact h
  · exact h.push hnamed hparts fun name target heq => absurd heq (hne name target)

theorem newAlias (h : Stocked ts) (name : String) : Stocked (ts.newAlias name).2 :=
  h.push trivial nofun fun _ _ heq => .inl (Ty.synonym.inj heq).2.symm

theorem setAlias (h : Stocked ts) (id : Nat) {target : Nat} (ht : target = 0 ∨ ts.Has target) :
    Stocked (ts.setAlias id target) := by
  have hgrows := h.primitives.trans (grows_setAlias ts id target)
  unfold Interner.setAlias at hgrows ⊢
  split
  · rename_i name old hold
    have hhas {p : Nat} (hp : ts.Has p) : Has ⟨ts.types.setIfInBounds (id - 1) (.synonym name target)⟩ p :=
      hp.of_size_le (by simp)
    have hmem {u : Ty} (hu : u ∈ ts.types.setIfInBounds (id - 1) (.synonym name target)) :
        u ∈ ts.types ∨ u = .synonym name target := Array.mem_or_eq_of_mem_setIfInBounds hu
    simp only [hold] at hgrows
    constructor
    case primitives => exact hgrows
    case named =>
      intro u hu
      rcases hmem hu with hu | rfl
      · exact h.named u hu
      · trivial
    case parts =>
      intro u hu p hp
      rcases hmem hu with hu | rfl
      · exact hhas (h.parts u hu p hp)
      · exact nomatch hp
    case targets =>
      intro name' target' hu
      rcases hmem hu with hu | heq
      · exact (h.targets name' target' hu).imp_right hhas
      · obtain ⟨-, rfl⟩ := Ty.synonym.inj heq
        exact ht.imp_right hhas
  · exact h

theorem has_parts (h : Stocked ts) (ht : ts.resolved? id = some t) : ∀ p ∈ t.parts, ts.Has p :=
  h.parts t (mem_of_lookup? ht)

/-- A property that is found has the name that was asked for, and a type. -/
theorem prop? (h : Stocked ts) {name : String} {p : String × Nat} (hp : ts.prop? id name = some p) :
    p.1 = name ∧ ts.Has p.2 ∧ ∃ props, ts.resolved? id = some (.object props) ∧ p ∈ props := by
  unfold Interner.prop? at hp
  split at hp
  · rename_i props hid
    obtain ⟨hget, hname⟩ := Option.filter_eq_some_iff.1 hp
    have hmem : p ∈ props := List.mem_of_getElem? hget
    have hpart : p.2 ∈ (Ty.object props).parts := List.mem_map_of_mem hmem
    exact ⟨by simpa using hname, h.has_parts hid _ hpart, props, hid, hmem⟩
  · cases hp

theorem has_primitive (h : Stocked ts) (name : String) (hid : primitive? name = some id) : ts.Has id := by
  obtain ⟨t, ht, hne⟩ := lookup?_primitive hid
  exact ⟨t, h.primitives id t ht hne⟩

/-- The number of an object type stands for it. -/
theorem lookup?_object (h : Stocked ts) {props : List (String × Nat)} (hnamed : IsNamed (.object props)) :
    (ts.intern (.object props)).2.lookup? (ts.intern (.object props)).1 = some (.object props) :=
  lookup?_intern fun u hu => eq_object_of_key? (h.named u hu) hnamed

/-- If no alias leads to itself, every type has a structure. -/
theorem sound (h : Stocked ts)
    (hends : ∀ id name target, ts.lookup? id = some (.synonym name target) → ts.unalias id ≠ 0) :
    Sound ts := by
  -- what is followed ends at a type, unless it ends at zero
  have hfollow (fuel id : Nat) (hid : ts.Has id) (hne : ts.follow fuel id ≠ 0) : ∃ t,
    ts.lookup? (ts.follow fuel id) = some t := by
    induction fuel generalizing id with
    | zero => exact absurd rfl hne
    | succ fuel ih =>
      unfold follow at hne ⊢
      split at hne
      · rename_i name target hsyn
        rcases h.targets name target (mem_of_lookup? hsyn) with rfl | htarget
        · have hzero (k : Nat) : ts.follow k 0 = 0 := by cases k <;> rfl
          exact absurd (hzero fuel) hne
        · exact ih target htarget hne
      · exact hid
  intro id hid
  refine hfollow _ id hid ?_
  obtain ⟨t, ht⟩ := hid
  by_cases hsyn : ∃ name target, t = .synonym name target
  · obtain ⟨name, target, rfl⟩ := hsyn
    exact hends id name target ht
  · have hself : ts.unalias id = id := unalias_of_lookup? ht fun name target heq => hsyn ⟨name, target, heq⟩
    have hne : id ≠ 0 := Has.ne_zero ⟨t, ht⟩
    exact fun hzero => hne (hself.symm.trans hzero)

end Stocked

theorem Sound.intern (h : Sound ts) (hne : ∀ name target, t ≠ .synonym name target) : Sound (ts.intern t).2 := by
  unfold Interner.intern
  split
  · exact h
  · intro id hid
    have hid := has_iff.1 hid
    by_cases hold : id ≤ ts.types.size
    · obtain ⟨u, hu⟩ := h id (has_iff.2 ⟨hid.1, hold⟩)
      exact ⟨u, (Extends.push ts t).resolved? hu⟩
    · obtain rfl : id = ts.types.size + 1 := by simp at hid; omega
      exact ⟨t, resolved?_of_lookup? (by simp [Interner.lookup?]) hne⟩

end TypedScript.Ty.Interner
