import Mathlib.Data.List.Forall2
import Mathlib.Data.List.Perm.Subperm
import Mathlib.Data.List.ProdSigma
import TypedScript.Proofs.Ty.Interned

/-!
# Types of one structure

Types may be written with different aliases, and in different interners, and yet unfold to one structure, which
may be infinite.

* `Interner.Alike`: two types unfold to one structure.
* `Interner.identical_iff`: which types are found identical.
* `Interner.IsPlain`: interners whose object types have proper names for their properties.
-/

namespace TypedScript.Ty

/-- An object type has different names without colons for its properties, and no integer has a single bit. -/
def IsPlain : Ty → Prop
  | .object props => (props.map (·.1)).Nodup ∧ ∀ p ∈ props, ':' ∉ p.1.toList
  | .int width => width ≠ 1
  | _ => True

instance : DecidablePred IsPlain := fun t => by
  cases t <;> unfold IsPlain <;> infer_instance

namespace Interner

variable {ts us : Interner}

/-- All types are plain. -/
def IsPlain (ts : Interner) : Prop := ∀ t ∈ ts.types.toList, t.IsPlain

instance : DecidablePred IsPlain := fun ts => inferInstanceAs (Decidable (∀ t ∈ ts.types.toList, t.IsPlain))

theorem IsPlain.resolved? (h : ts.IsPlain) {id : Nat} {t : Ty} (ht : ts.resolved? id = some t) : t.IsPlain :=
  h t (Array.mem_toList_iff.2 (Array.mem_of_getElem? (getElem?_of_lookup? ht)))

/-- The properties of object types stand in order of their names, which are different. -/
def IsSorted (ts : Interner) : Prop := ∀ t ∈ ts.types, ∀ props, t = .object props →
    props.Pairwise fun p q => p.1 < q.1

theorem IsSorted.resolved? (h : ts.IsSorted) {id : Nat} {props : List (String × Nat)}
    (hid : ts.resolved? id = some (.object props)) : props.Pairwise fun p q => p.1 < q.1 :=
  h _ (Array.mem_of_getElem? (getElem?_of_lookup? hid)) props rfl

/-! ### Unfolding -/

/-- The pairs of parts that have to be alike for two structures to be; numbers that stand for nothing are alike. -/
def matchUnfolded : Option Ty → Option Ty → Option (List (Nat × Nat))
  | some t, some u => matchParts t u
  | none, none => some []
  | _, _ => none

/-- The pairs of types are matched by one another: their structures are the same down to parts that are pairs
again. -/
def Matches (ts us : Interner) (R : Nat → Nat → Prop) : Prop :=
  ∀ x y, R x y → ∃ parts, matchUnfolded (ts.resolved? x) (us.resolved? y) = some parts ∧ ∀ p ∈ parts, R p.1 p.2

/-- Behind their aliases the types unfold to one structure. -/
def Alike (ts us : Interner) (x y : Nat) : Prop := ∃ R, R x y ∧ Matches ts us R

/-- What stands behind aliases is no alias. -/
theorem follow_ne_synonym (fuel id : Nat) (name : String) (target : Nat) :
    ts.lookup? (ts.follow fuel id) ≠ some (.synonym name target) := by
  induction fuel generalizing id with
  | zero => exact nofun
  | succ fuel ih =>
    unfold follow
    split
    · exact ih _
    · rename_i hnot
      exact hnot name target

theorem matchParts_self {t : Ty} (hne : ∀ name target, t ≠ .synonym name target) :
    ∃ parts, matchParts t t = some parts ∧ ∀ p ∈ parts, p.1 = p.2 := by
  have hzip (l : List Nat) : ∀ p ∈ l.zip l, p.1 = p.2 := by
    induction l with
    | nil => simp
    | cons x l ih => simpa using ih
  cases t with
  | object props => exact ⟨_, if_pos rfl, hzip _⟩
  | func params result => exact ⟨_, if_pos rfl, by simpa using hzip params⟩
  | int width => exact ⟨_, if_pos rfl, by simp⟩
  | synonym name target => exact absurd rfl (hne name target)
  | _ => exact ⟨[], rfl, by simp⟩

/-- Object types match if their properties have the same names, in order; their types have to match then. -/
theorem matchParts_object_iff {R : Nat → Nat → Prop} {ps qs : List (String × Nat)} :
    (∃ parts, matchParts (.object ps) (.object qs) = some parts ∧ ∀ p ∈ parts, R p.1 p.2) ↔
      List.Forall₂ (fun p q => p.1 = q.1 ∧ R p.2 q.2) ps qs := by
  have hboth : List.Forall₂ (fun p q => p.1 = q.1 ∧ R p.2 q.2) ps qs ↔
      ps.map (·.1) = qs.map (·.1) ∧ List.Forall₂ R (ps.map (·.2)) (qs.map (·.2)) := by
    rw [← List.forall₂_eq_eq_eq, List.forall₂_map_left_iff, List.forall₂_map_right_iff, List.forall₂_map_left_iff,
      List.forall₂_map_right_iff]
    constructor
    · intro h
      exact ⟨h.imp fun _ _ hpq => hpq.1, h.imp fun _ _ hpq => hpq.2⟩
    · rintro ⟨hnames, htypes⟩
      rw [List.forall₂_iff_zip] at hnames htypes ⊢
      exact ⟨hnames.1, fun hpq => ⟨hnames.2 hpq, htypes.2 hpq⟩⟩
  rw [hboth, List.forall₂_iff_zip]
  constructor
  · rintro ⟨parts, hparts, hR⟩
    rw [matchParts] at hparts
    split at hparts
    · rename_i hnames
      cases hparts
      exact ⟨hnames, by simpa using congrArg List.length hnames, fun hpq => hR _ hpq⟩
    · cases hparts
  · rintro ⟨hnames, -, hR⟩
    exact ⟨_, if_pos hnames, fun p hp => hR hp⟩

theorem matchUnfolded_self (ts : Interner) (id : Nat) :
    ∃ parts, matchUnfolded (ts.resolved? id) (ts.resolved? id) = some parts ∧ ∀ p ∈ parts, p.1 = p.2 := by
  cases hid : ts.resolved? id with
  | none => exact ⟨[], rfl, by simp⟩
  | some t =>
    have hne : ∀ name target, t ≠ .synonym name target := by
      rintro name target rfl
      exact follow_ne_synonym _ _ name target hid
    exact matchParts_self hne

/-- A type is like itself. -/
theorem Alike.refl (ts : Interner) (id : Nat) : Alike ts ts id id := by
  refine ⟨Eq, rfl, ?_⟩
  rintro x y rfl
  exact matchUnfolded_self ts x

/-- Finitely many pairs of types are matched by one another if each of them is. -/
theorem Alike.of_pairs (pairs : List (Nat × Nat)) {a b : Nat} (hab : (a, b) ∈ pairs)
    (h : ∀ p ∈ pairs, (matchUnfolded (ts.resolved? p.1) (us.resolved? p.2)).any (· ⊆ pairs) = true) :
    Alike ts us a b := by
  refine ⟨fun x y => (x, y) ∈ pairs, hab, fun x y hxy => ?_⟩
  have hany := h (x, y) hxy
  cases hparts : matchUnfolded (ts.resolved? x) (us.resolved? y) with
  | none =>
    rw [hparts] at hany
    cases hany
  | some parts =>
    rw [hparts] at hany
    have hsubset : parts ⊆ pairs := of_decide_eq_true hany
    exact ⟨parts, rfl, fun p hp => hsubset hp⟩

/-! ### Types that are found identical -/

/-- The structures of two types are the same down to parts that are equal or pairs on the list. -/
def Closed (ts : Interner) (met : List (Nat × Nat)) (x y : Nat) : Prop :=
  ∃ parts, matchUnfolded (ts.resolved? x) (ts.resolved? y) = some parts ∧ ∀ p ∈ parts, p.1 = p.2 ∨ p ∈ met

/-- The pairs that were met are still there, and those that are new are closed. -/
structure Adds (ts : Interner) (met met' : List (Nat × Nat)) : Prop where
  subset : met ⊆ met'
  closed : ∀ p ∈ met', p ∈ met ∨ Closed ts met' p.1 p.2

variable {met met' met'' : List (Nat × Nat)}

theorem Closed.mono {x y : Nat} (h : Closed ts met x y) (hsubset : met ⊆ met') : Closed ts met' x y := by
  obtain ⟨parts, hparts, hmet⟩ := h
  exact ⟨parts, hparts, fun p hp => (hmet p hp).imp_right fun hp => hsubset hp⟩

theorem Adds.refl (ts : Interner) (met : List (Nat × Nat)) : Adds ts met met := ⟨List.Subset.refl _, fun _ => .inl⟩

theorem Adds.trans (h : Adds ts met met') (h' : Adds ts met' met'') : Adds ts met met'' where
  subset := List.Subset.trans h.subset h'.subset
  closed p hp := by
    rcases h'.closed p hp with hold | hclosed
    · exact (h.closed p hold).imp_right fun hclosed => hclosed.mono h'.subset
    · exact .inr hclosed

/-- The pairs of a worklist are met one after another. The induction is on the worklist. -/
theorem adds_comparePairs {compare : Nat → Nat → List (Nat × Nat) → Option (List (Nat × Nat))}
    (hcompare : ∀ a b met met', compare a b met = some met' → Adds ts met met' ∧ (a = b ∨ (a, b) ∈ met'))
    {pairs : List (Nat × Nat)} (h : comparePairs compare pairs met = some met') :
    Adds ts met met' ∧ ∀ p ∈ pairs, p.1 = p.2 ∨ p ∈ met' := by
  induction pairs generalizing met with
  | nil =>
    cases h
    exact ⟨.refl ts _, by simp⟩
  | cons p rest ih =>
    unfold comparePairs at h
    split at h
    · rename_i met₁ hp
      obtain ⟨hadds, hmet⟩ := hcompare p.1 p.2 met met₁ hp
      obtain ⟨hadds', hrest⟩ := ih h
      refine ⟨hadds.trans hadds', List.forall_mem_cons.2 ⟨?_, hrest⟩⟩
      exact hmet.imp_right fun hp => hadds'.subset hp
    · cases h

/-- A pair that is found identical is met, unless its types are equal. The induction is on the depth. -/
theorem adds_identicalFrom (depth a b : Nat) (h : ts.identicalFrom depth a b met = some met') :
    Adds ts met met' ∧ (a = b ∨ (a, b) ∈ met') := by
  induction depth generalizing a b met met' with
  | zero => cases h
  | succ depth ih =>
    unfold identicalFrom at h
    split at h
    · rename_i hmet
      cases h
      exact ⟨.refl ts met, hmet⟩
    split at h
    · rename_i ta tb hta htb
      split at h
      · rename_i parts hparts
        obtain ⟨hadds, hmet⟩ := adds_comparePairs (fun a b met met' => ih a b) h
        have hself : (a, b) ∈ met' := hadds.subset List.mem_cons_self
        have hclosed : Closed ts met' a b := ⟨parts, by rw [hta, htb]; exact hparts, hmet⟩
        refine ⟨⟨fun p hp => hadds.subset (List.mem_cons_of_mem _ hp), fun p hp => ?_⟩, .inr hself⟩
        rcases hadds.closed p hp with hold | hnew
        · rcases List.mem_cons.1 hold with rfl | hold
          · exact .inr hclosed
          · exact .inl hold
        · exact .inr hnew
      · cases h
    · cases h

/-! ### Types that are identical are found so -/

/-- The pairs are of types that are equal, or whose structures are the same down to parts that are pairs again. -/
def Mates (ts : Interner) (R : Nat → Nat → Prop) : Prop :=
  ∀ x y, R x y → x = y ∨ ∃ t u parts, ts.resolved? x = some t ∧ ts.resolved? y = some u ∧
    matchParts t u = some parts ∧
    ∀ p ∈ parts, R p.1 p.2

variable {R : Nat → Nat → Prop}

/-- What every comparison keeps of the pairs that were met, a worklist keeps. The induction is on the worklist. -/
theorem comparePairs_keeps {P : List (Nat × Nat) → Prop}
    {compare : Nat → Nat → List (Nat × Nat) → Option (List (Nat × Nat))}
    (hcompare : ∀ a b met met', compare a b met = some met' → P met → P met') {pairs : List (Nat × Nat)}
    (h : comparePairs compare pairs met = some met') (hmet : P met) : P met' := by
  induction pairs generalizing met with
  | nil =>
    cases h
    exact hmet
  | cons p rest ih =>
    unfold comparePairs at h
    split at h
    · rename_i met₁ hp
      exact ih h (hcompare p.1 p.2 met met₁ hp hmet)
    · cases h

/-- Of the pairs that are met the first stands for a structure. The induction is on the depth. -/
theorem isSome_of_identicalFrom (depth a b : Nat) (h : ts.identicalFrom depth a b met = some met')
    (hmet : ∀ p ∈ met, (ts.resolved? p.1).isSome) : ∀ p ∈ met', (ts.resolved? p.1).isSome := by
  induction depth generalizing a b met met' with
  | zero => cases h
  | succ depth ih =>
    unfold identicalFrom at h
    split at h
    · cases h
      exact hmet
    split at h
    · rename_i ta tb hta htb
      split at h
      · refine comparePairs_keeps (fun a b met met' => ih a b) h ?_
        rw [List.forall_mem_cons]
        exact ⟨by rw [hta]; rfl, hmet⟩
      · cases h
    · cases h

/-- The pairs of numbers that stand for types. -/
def placesOf (ts : Interner) : List (Nat × Nat) := List.range' 1 ts.types.size ×ˢ List.range' 1 ts.types.size

theorem mem_placesOf {x y : Nat} (hx : (ts.resolved? x).isSome) (hy : (ts.resolved? y).isSome) :
    (x, y) ∈ ts.placesOf := by
  have hplace {x : Nat} (hx : (ts.resolved? x).isSome) : x ∈ List.range' 1 ts.types.size := by
    have hlookup : (ts.lookup? x).isSome := by
      cases hnone : ts.lookup? x with
      | some _ => rfl
      | none =>
        have hself : ts.unalias x = x := by
          unfold unalias follow
          rw [hnone]
        unfold Interner.resolved? at hx
        rw [hself, hnone] at hx
        cases hx
    obtain ⟨t, ht⟩ := Option.isSome_iff_exists.1 hlookup
    have hne : x ≠ 0 := by
      rintro rfl
      cases ht
    have hlt := (Array.getElem?_eq_some_iff.1 (getElem?_of_lookup? ht)).1
    rw [List.mem_range'_1]
    omega
  exact List.pair_mem_product.2 ⟨hplace hx, hplace hy⟩

/-- The pairs that were met are different pairs of types that there are. -/
structure Bounded (ts : Interner) (met : List (Nat × Nat)) : Prop where
  nodup : met.Nodup
  subset : met ⊆ ts.placesOf

theorem Bounded.length_le (h : Bounded ts met) : met.length ≤ ts.types.size * ts.types.size := by
  have hle := (List.subperm_of_subset h.nodup h.subset).length_le
  simpa [placesOf, List.length_product] using hle

/-- The induction is on the worklist; the more pairs were met, the less deep has one to go. -/
theorem exists_comparePairs {depth : Nat}
    (hcompare : ∀ a b met, R a b → Bounded ts met → ts.types.size * ts.types.size + 1 ≤ depth + met.length →
      ∃ met', ts.identicalFrom depth a b met = some met' ∧ Bounded ts met' ∧ met.length ≤ met'.length)
    {pairs : List (Nat × Nat)} (hpairs : ∀ p ∈ pairs, R p.1 p.2) (hmet : Bounded ts met)
    (hdepth : ts.types.size * ts.types.size + 1 ≤ depth + met.length) :
    ∃ met', comparePairs (ts.identicalFrom depth) pairs met = some met' ∧ Bounded ts met' ∧
      met.length ≤ met'.length := by
  induction pairs generalizing met with
  | nil => exact ⟨met, rfl, hmet, Nat.le_refl _⟩
  | cons p rest ih =>
    obtain ⟨hp, hrest⟩ := List.forall_mem_cons.1 hpairs
    obtain ⟨met₁, hrun, hbounded, hle⟩ := hcompare p.1 p.2 met hp hmet hdepth
    obtain ⟨met₂, hrun', hbounded', hle'⟩ := ih hrest hbounded (by omega)
    refine ⟨met₂, ?_, hbounded', by omega⟩
    unfold comparePairs
    rw [hrun]
    exact hrun'

/-- Pairs of types that are mates are found identical. The induction is on the depth. -/
theorem Mates.exists_identicalFrom (hR : Mates ts R) (depth a b : Nat) (hab : R a b) (hmet : Bounded ts met)
    (hdepth : ts.types.size * ts.types.size + 1 ≤ depth + met.length) :
    ∃ met', ts.identicalFrom depth a b met = some met' ∧ Bounded ts met' ∧ met.length ≤ met'.length := by
  induction depth generalizing a b met with
  | zero =>
    have hle := hmet.length_le
    omega
  | succ depth ih =>
    unfold identicalFrom
    by_cases hmem : a = b ∨ (a, b) ∈ met
    · rw [if_pos hmem]
      exact ⟨met, rfl, hmet, Nat.le_refl _⟩
    · rw [if_neg hmem]
      obtain ⟨hne, hnew⟩ := not_or.1 hmem
      rcases hR a b hab with heq | ⟨t, u, parts, ht, hu, hparts, hmates⟩
      · exact absurd heq hne
      · have hplace : (a, b) ∈ ts.placesOf := mem_placesOf (by rw [ht]; rfl) (by rw [hu]; rfl)
        have hbounded : Bounded ts ((a, b) :: met) :=
          ⟨List.nodup_cons.2 ⟨hnew, hmet.nodup⟩, List.cons_subset.2 ⟨hplace, hmet.subset⟩⟩
        obtain ⟨met', hrun, hbounded', hle⟩ := exists_comparePairs (fun a b met => ih a b) hmates hbounded (by
          rw [List.length_cons]
          omega)
        rw [List.length_cons] at hle
        refine ⟨met', ?_, hbounded', by omega⟩
        rw [ht, hu]
        dsimp only
        rw [hparts]
        exact hrun

/-- Types are found identical exactly if they are mates. -/
theorem identical_iff {a b : Nat} : ts.identical a b = true ↔ ∃ R, R a b ∧ Mates ts R := by
  constructor
  · intro h
    obtain ⟨met, hmet⟩ := Option.isSome_iff_exists.1 h
    obtain ⟨hadds, hab⟩ := adds_identicalFrom _ a b hmet
    have hsome := isSome_of_identicalFrom _ a b hmet (by simp)
    refine ⟨fun x y => x = y ∨ (x, y) ∈ met, hab, fun x y hxy => ?_⟩
    rcases hxy with rfl | hxy
    · exact .inl rfl
    rcases hadds.closed (x, y) hxy with hold | ⟨parts, hparts, hclosed⟩
    · cases hold
    obtain ⟨t, ht⟩ := Option.isSome_iff_exists.1 (hsome (x, y) hxy)
    cases hu : ts.resolved? y with
    | none =>
      rw [ht, hu] at hparts
      cases hparts
    | some u =>
      rw [ht, hu] at hparts
      exact .inr ⟨t, u, parts, ht, rfl, hparts, hclosed⟩
  · rintro ⟨R, hab, hR⟩
    have hbounded : Bounded ts [] := ⟨List.nodup_nil, List.nil_subset _⟩
    have hbound : ts.types.size * ts.types.size + 1 ≤ ts.pairBound := by
      have hle := Nat.mul_le_mul (Nat.le_succ ts.types.size) (Nat.le_succ ts.types.size)
      exact Nat.succ_le_succ hle
    obtain ⟨met, hmet, -⟩ := hR.exists_identicalFrom ts.pairBound a b hab hbounded hbound
    unfold identical
    rw [hmet]
    rfl

end Interner

end TypedScript.Ty
