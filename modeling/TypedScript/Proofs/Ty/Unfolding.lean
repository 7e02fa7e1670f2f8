import TypedScript.Proofs.Ty.Alike

/-!
# Unfoldings of types

Behind its aliases a type unfolds to a tree, which has no end if the type is recursive. The tree is told by what
stands at the end of each path from its root; a path is given by the places of the parts that it goes through.

Two types are compared as if every pair of parts that was met before were identical. So the comparison ends where
the trees do not, and yet it tells whether they are equal.

* `unfolding`: the tree of a type.
* `Compares`: a comparison without a bound on its depth; `Compares.unique`, `compares_identicalFrom`: it has one
  end.
* `Mates.unfolding_eq`, `mates_unfolding`: trees are equal exactly if the types are mates.
* `identical_iff_unfolding_eq`: types are found identical exactly if their trees are equal.
-/

namespace TypedScript.Ty

variable {t u : Ty}

/-- A structure without its parts. -/
def outline : Ty → Ty
  | .object props => .object (props.map fun p => (p.1, 0))
  | .func params _ => .func (params.map fun _ => 0) 0
  | t => t

/-- The parts of a structure: the types of its properties, or its result and its parameters. -/
def parts : Ty → List Nat
  | .object props => props.map (·.2)
  | .func params result => result :: params
  | _ => []

theorem outline_object_eq {ps qs : List (String × Nat)} :
    outline (.object ps) = outline (.object qs) ↔ ps.map (·.1) = qs.map (·.1) := by
  have hnames (l : List (String × Nat)) : l.map (fun p => (p.1, 0)) = (l.map (·.1)).map fun n => (n, 0) := by
    rw [List.map_map]
    rfl
  have hinj : Function.Injective fun n : String => (n, 0) := fun _ _ h => (Prod.mk.inj h).1
  rw [outline, outline, Ty.object.injEq, hnames, hnames, hinj.list_map.eq_iff]

theorem outline_func_eq {ps qs : List Nat} {r s : Nat} :
    outline (.func ps r) = outline (.func qs s) ↔ ps.length = qs.length := by
  simp [outline, List.map_const']

theorem length_parts_of_outline (h : t.outline = u.outline) : t.parts.length = u.parts.length := by
  cases t <;> cases u
  case object.object ps qs => simpa [parts] using congrArg List.length (outline_object_eq.1 h)
  case func.func ps r qs s => simpa [parts] using outline_func_eq.1 h
  all_goals first | rfl | cases h

namespace Interner

variable {ts : Interner} {met met' : List (Nat × Nat)} {a b : Nat}

/-- Structures match if they are the same without their parts; the parts have to match then in pairs. -/
theorem matchParts_eq_some_iff (ht : ∀ name target, t ≠ .synonym name target) {pairs : List (Nat × Nat)} :
    matchParts t u = some pairs ↔ t.outline = u.outline ∧ pairs = t.parts.zip u.parts := by
  cases t
  case synonym => exact absurd rfl (ht _ _)
  all_goals cases u
  case object.object ps qs => simp [matchParts, outline_object_eq, parts, eq_comm]
  case func.func ps r qs s => simp [matchParts, outline_func_eq, parts, eq_comm]
  case int.int v w => simp [matchParts, outline, parts, eq_comm]
  all_goals simp [matchParts, outline, parts, eq_comm]

theorem ne_synonym_of_resolved? (h : ts.resolved? a = some t) (name : String) (target : Nat) :
    t ≠ .synonym name target := by
  rintro rfl
  exact follow_ne_synonym _ _ name target h

/-- The pairs of parts that have to be identical for two types to be; there are none if the types differ
themselves. -/
def pairsOf? (ts : Interner) (a b : Nat) : Option (List (Nat × Nat)) :=
  match ts.resolved? a, ts.resolved? b with
  | some t, some u => matchParts t u
  | _, _ => none

/-- What stands at a node of a tree: a structure without its parts, or a number behind which there is no
structure. -/
inductive Mark where
  | outline (t : Ty)
  | stray (id : Nat)
  deriving DecidableEq, Repr

def mark (ts : Interner) (id : Nat) : Mark := (ts.resolved? id).elim (.stray id) fun t => .outline t.outline

def partsOf (ts : Interner) (id : Nat) : List Nat := (ts.resolved? id).elim [] Ty.parts

/-- The tree that a type unfolds to: what stands at the end of each path, if there is such a path. -/
def unfolding (ts : Interner) : Nat → List Nat → Option Mark
  | id, [] => some (ts.mark id)
  | id, place :: path => ((ts.partsOf id)[place]?).bind fun part => ts.unfolding part path

theorem mark_of_resolved? (h : ts.resolved? a = some t) : ts.mark a = .outline t.outline := by
  rw [mark, h]
  rfl

theorem partsOf_of_resolved? (h : ts.resolved? a = some t) : ts.partsOf a = t.parts := by
  rw [partsOf, h]
  rfl

/-! ### Mates -/

variable {R : Nat → Nat → Prop}

/-- Mates unfold to one tree. The induction is on the path, along which one goes from mates to mates. -/
theorem Mates.unfolding_eq (hR : Mates ts R) (hab : R a b) : ts.unfolding a = ts.unfolding b := by
  funext path
  induction path generalizing a b with
  | nil =>
    rcases hR a b hab with rfl | ⟨t, u, pairs, ht, hu, hpairs, -⟩
    · rfl
    · obtain ⟨houtline, -⟩ := (matchParts_eq_some_iff (ne_synonym_of_resolved? ht)).1 hpairs
      rw [unfolding, unfolding, mark_of_resolved? ht, mark_of_resolved? hu, houtline]
  | cons place path ih =>
    rcases hR a b hab with rfl | ⟨t, u, pairs, ht, hu, hpairs, hmates⟩
    · rfl
    · obtain ⟨houtline, rfl⟩ := (matchParts_eq_some_iff (ne_synonym_of_resolved? ht)).1 hpairs
      have hlen : t.parts.length = u.parts.length := length_parts_of_outline houtline
      rw [unfolding, unfolding, partsOf_of_resolved? ht, partsOf_of_resolved? hu]
      by_cases hplace : place < t.parts.length
      · have hpair : (t.parts[place], u.parts[place]) ∈ t.parts.zip u.parts :=
          List.mem_iff_getElem.2 ⟨place, by rw [List.length_zip]; omega, List.getElem_zip⟩
        rw [List.getElem?_eq_getElem hplace, List.getElem?_eq_getElem (hlen ▸ hplace)]
        exact ih (hmates _ hpair)
      · rw [List.getElem?_eq_none (by omega), List.getElem?_eq_none (by omega)]

/-- Types that unfold to one tree are mates. -/
theorem mates_unfolding (ts : Interner) : Mates ts fun a b => ts.unfolding a = ts.unfolding b := by
  intro a b hab
  have hmark : ts.mark a = ts.mark b := Option.some.inj (congrFun hab [])
  unfold mark at hmark
  cases ht : ts.resolved? a with
  | none =>
    cases hu : ts.resolved? b with
    | none =>
      rw [ht, hu] at hmark
      exact .inl (Mark.stray.inj hmark)
    | some u =>
      rw [ht, hu] at hmark
      cases hmark
  | some t =>
    cases hu : ts.resolved? b with
    | none =>
      rw [ht, hu] at hmark
      cases hmark
    | some u =>
      rw [ht, hu] at hmark
      have houtline : t.outline = u.outline := Mark.outline.inj hmark
      refine .inr ⟨t, u, t.parts.zip u.parts, rfl, rfl, ?_, fun p hp => ?_⟩
      · exact (matchParts_eq_some_iff (ne_synonym_of_resolved? ht)).2 ⟨houtline, rfl⟩
      · obtain ⟨place, hplace, rfl⟩ := List.mem_iff_getElem.1 hp
        obtain ⟨hleft, hright⟩ := Nat.lt_min.1 (List.length_zip ▸ hplace)
        funext path
        have hpath := congrFun hab (place :: path)
        rw [unfolding, unfolding, partsOf_of_resolved? ht, partsOf_of_resolved? hu, List.getElem?_eq_getElem hleft,
          List.getElem?_eq_getElem hright] at hpath
        rw [List.getElem_zip]
        exact hpath

/-! ### Comparisons without a bound -/

/-- The pairs of a worklist are compared one after another, however deep one has to go. The pairs that were met
before are taken to be identical; a comparison ends with the pairs that were met by then, or with nothing if a
difference was found. -/
inductive Compares (ts : Interner) : List (Nat × Nat) → List (Nat × Nat) → Option (List (Nat × Nat)) → Prop
  | done (met : List (Nat × Nat)) : Compares ts [] met (some met)
  | skip {a b : Nat} {rest met : List (Nat × Nat)} {r : Option (List (Nat × Nat))} (hmet : a = b ∨ (a, b) ∈ met)
      (hrest : Compares ts rest met r) : Compares ts ((a, b) :: rest) met r
  | differ {a b : Nat} {rest met : List (Nat × Nat)} (hnew : ¬(a = b ∨ (a, b) ∈ met))
      (hpairs : ts.pairsOf? a b = none) :
      Compares ts ((a, b) :: rest) met none
  | fail {a b : Nat} {pairs rest met : List (Nat × Nat)} (hnew : ¬(a = b ∨ (a, b) ∈ met))
      (hpairs : ts.pairsOf? a b = some pairs) (hparts : Compares ts pairs ((a, b) :: met) none) :
      Compares ts ((a, b) :: rest) met none
  | enter {a b : Nat} {pairs rest met met' : List (Nat × Nat)} {r : Option (List (Nat × Nat))}
      (hnew : ¬(a = b ∨ (a, b) ∈ met)) (hpairs : ts.pairsOf? a b = some pairs)
      (hparts : Compares ts pairs ((a, b) :: met) (some met')) (hrest : Compares ts rest met' r) :
      Compares ts ((a, b) :: rest) met r

namespace Compares

variable {p : Nat × Nat} {pairs rest : List (Nat × Nat)} {r r' : Option (List (Nat × Nat))}

theorem cons (h : Compares ts [p] met (some met')) (hrest : Compares ts rest met' r) : Compares ts
    (p :: rest) met r := by
  cases h with
  | skip hmet hdone =>
    cases hdone
    exact .skip hmet hrest
  | enter hnew hpairs hparts hdone =>
    cases hdone
    exact .enter hnew hpairs hparts hrest

theorem cons_none (h : Compares ts [p] met none) : Compares ts (p :: rest) met none := by
  cases h with
  | skip hmet hdone => cases hdone
  | differ hnew hpairs => exact .differ hnew hpairs
  | fail hnew hpairs hparts => exact .fail hnew hpairs hparts
  | enter hnew hpairs hparts hdone => cases hdone

/-- A comparison has one end. The induction is on the comparison. -/
theorem unique (h : Compares ts pairs met r) (h' : Compares ts pairs met r') : r = r' := by
  induction h generalizing r' with
  | done met =>
    cases h'
    rfl
  | skip hmet hrest ih =>
    cases h' with
    | skip hmet' hrest' => exact ih hrest'
    | differ hnew => exact absurd hmet hnew
    | fail hnew => exact absurd hmet hnew
    | enter hnew => exact absurd hmet hnew
  | differ hnew hpairs =>
    cases h' with
    | skip hmet => exact absurd hmet hnew
    | differ => rfl
    | fail => rfl
    | enter hnew' hpairs' =>
      rw [hpairs] at hpairs'
      cases hpairs'
  | fail hnew hpairs hparts ih =>
    cases h' with
    | skip hmet => exact absurd hmet hnew
    | differ => rfl
    | fail => rfl
    | enter hnew' hpairs' hparts' hrest' =>
      rw [hpairs] at hpairs'
      cases hpairs'
      cases ih hparts'
  | enter hnew hpairs hparts hrest ih ihrest =>
    cases h' with
    | skip hmet => exact absurd hmet hnew
    | differ hnew' hpairs' =>
      rw [hpairs] at hpairs'
      cases hpairs'
    | fail hnew' hpairs' hparts' =>
      rw [hpairs] at hpairs'
      cases hpairs'
      cases ih hparts'
    | enter hnew' hpairs' hparts' hrest' =>
      rw [hpairs] at hpairs'
      cases hpairs'
      cases ih hparts'
      exact ihrest hrest'

end Compares

theorem identicalFrom_succ (depth a b : Nat) (met : List (Nat × Nat)) :
    ts.identicalFrom (depth + 1) a b met = if a = b ∨ (a, b) ∈ met then some met else
      (ts.pairsOf? a b).bind fun pairs => comparePairs (ts.identicalFrom depth) pairs ((a, b) :: met) := by
  rw [identicalFrom, pairsOf?]
  congr 1
  cases ts.resolved? a with
  | none => rfl
  | some t =>
    cases ts.resolved? b with
    | none => rfl
    | some u =>
      dsimp only
      cases matchParts t u <;> rfl

theorem Bounded.cons {pairs : List (Nat × Nat)} (h : Bounded ts met) (hnew : ¬(a = b ∨ (a, b) ∈ met))
    (hpairs : ts.pairsOf? a b = some pairs) : Bounded ts ((a, b) :: met) := by
  unfold pairsOf? at hpairs
  split at hpairs
  · rename_i ht hu
    have hplace : (a, b) ∈ ts.placesOf := mem_placesOf (by rw [ht]; rfl) (by rw [hu]; rfl)
    exact ⟨List.nodup_cons.2 ⟨fun hmem => hnew (.inr hmem), h.nodup⟩, List.cons_subset.2 ⟨hplace, h.subset⟩⟩
  · cases hpairs

/-- The comparison ends as it does if it may go as deep as stated, and the pairs that were met are then still
bounded. -/
def EndsWithin (ts : Interner) (depth a b : Nat) (met : List (Nat × Nat)) : Prop :=
  Compares ts [(a, b)] met (ts.identicalFrom depth a b met) ∧
    ∀ met', ts.identicalFrom depth a b met = some met' → Bounded ts met' ∧ met.length ≤ met'.length

/-- The induction is on the worklist; the more pairs were met, the less deep has one to go. -/
theorem compares_comparePairs {depth : Nat}
    (hcompare : ∀ a b met, Bounded ts met → ts.types.size * ts.types.size + 1 ≤ depth + met.length →
    EndsWithin ts depth a b met) (pairs : List (Nat × Nat)) (hmet : Bounded ts met)
      (hdepth : ts.types.size * ts.types.size + 1 ≤ depth + met.length) :
    Compares ts pairs met (comparePairs (ts.identicalFrom depth) pairs met) ∧
      ∀ met', comparePairs (ts.identicalFrom depth) pairs met = some met' → Bounded ts met' ∧
        met.length ≤ met'.length := by
  induction pairs generalizing met with
  | nil =>
    refine ⟨.done met, fun met' h => ?_⟩
    cases h
    exact ⟨hmet, Nat.le_refl _⟩
  | cons p rest ih =>
    obtain ⟨hfirst, hkept⟩ := hcompare p.1 p.2 met hmet hdepth
    rw [comparePairs]
    cases hrun : ts.identicalFrom depth p.1 p.2 met with
    | none =>
      rw [hrun] at hfirst
      exact ⟨hfirst.cons_none, nofun⟩
    | some met₁ =>
      obtain ⟨hbounded, hle⟩ := hkept met₁ hrun
      obtain ⟨hrest, hkept'⟩ := ih hbounded (by omega)
      rw [hrun] at hfirst
      refine ⟨hfirst.cons hrest, fun met' h => ?_⟩
      obtain ⟨hbounded', hle'⟩ := hkept' met' h
      exact ⟨hbounded', by omega⟩

/-- A comparison ends before the bound on its depth is reached: each step into parts meets a new pair of types,
and there are only so many. The induction is on the depth. -/
theorem endsWithin (depth a b : Nat) (hmet : Bounded ts met)
    (hdepth : ts.types.size * ts.types.size + 1 ≤ depth + met.length) : EndsWithin ts depth a b met := by
  induction depth generalizing a b met with
  | zero =>
    have hle := hmet.length_le
    omega
  | succ depth ih =>
    unfold EndsWithin
    rw [identicalFrom_succ]
    by_cases hmem : a = b ∨ (a, b) ∈ met
    · rw [if_pos hmem]
      refine ⟨.skip hmem (.done met), fun met' h => ?_⟩
      cases h
      exact ⟨hmet, Nat.le_refl _⟩
    rw [if_neg hmem]
    cases hpairs : ts.pairsOf? a b with
    | none => exact ⟨.differ hmem hpairs, nofun⟩
    | some pairs =>
      obtain ⟨hparts, hkept⟩ := compares_comparePairs (fun a b met => ih a b) pairs (hmet.cons hmem hpairs) (by
        rw [List.length_cons]
        omega)
      rw [Option.bind_some]
      cases hrun : comparePairs (ts.identicalFrom depth) pairs ((a, b) :: met) with
      | none =>
        rw [hrun] at hparts
        exact ⟨.fail hmem hpairs hparts, nofun⟩
      | some met₁ =>
        obtain ⟨hbounded, hle⟩ := hkept met₁ hrun
        rw [hrun] at hparts
        refine ⟨.enter hmem hpairs hparts (.done met₁), fun met' h => ?_⟩
        cases h
        rw [List.length_cons] at hle
        exact ⟨hbounded, by omega⟩

theorem compares_identicalFrom (ts : Interner) (a b : Nat) :
    Compares ts [(a, b)] [] (ts.identicalFrom ts.pairBound a b []) := by
  have hbound : ts.types.size * ts.types.size + 1 ≤ ts.pairBound :=
    Nat.succ_le_succ (Nat.mul_le_mul (Nat.le_succ ts.types.size) (Nat.le_succ ts.types.size))
  exact (endsWithin ts.pairBound a b ⟨List.nodup_nil, List.nil_subset _⟩ hbound).1

/-- Every comparison ends, and finds two types identical exactly if they unfold to one tree; so this is an
equivalence. -/
theorem identical_iff_unfolding_eq (ts : Interner) :
    (∀ a b, (∃ r, (∀ r', Compares ts [(a, b)] [] r' ↔ r' = r) ∧ ts.identical a b = r.isSome) ∧
      (ts.identical a b = true ↔ ts.unfolding a = ts.unfolding b)) ∧
    Equivalence fun a b => ts.identical a b = true := by
  have htree (a b : Nat) : ts.identical a b = true ↔ ts.unfolding a = ts.unfolding b := by
    rw [identical_iff]
    constructor
    · rintro ⟨R, hab, hR⟩
      exact hR.unfolding_eq hab
    · intro hab
      exact ⟨_, hab, mates_unfolding ts⟩
  refine ⟨fun a b => ⟨⟨_, fun r' => ⟨fun h => ?_, ?_⟩, rfl⟩, htree a b⟩, fun a => ?_, fun {a b} h => ?_,
    fun {a b c} h h' => ?_⟩
  · exact h.unique (ts.compares_identicalFrom a b)
  · rintro rfl
    exact ts.compares_identicalFrom a b
  · exact (htree a a).2 rfl
  · exact (htree b a).2 ((htree a b).1 h).symm
  · exact (htree a c).2 (((htree a b).1 h).trans ((htree b c).1 h'))

/-- An alias and the object type behind it, which leads back to the alias, stand for one endless tree. -/
example :
    let (node, ts) := ({} : Interner).newAlias "Node"
    let (obj, ts) := ts.object [("next", node)]
    (ts.setAlias node obj).identical node obj = true := by
  decide +kernel

end Interner
end TypedScript.Ty
