import TypedScript.Proofs.Order.Sorted
import TypedScript.Proofs.Ty.Alike

/-!
# Interning is canonical

An interner is asked for primitive types, objects, functions and aliases, in any order, and aliases are given
their targets between. Whatever was asked before and in between, a structural type has one number: the properties
of an object, in any order, or the parameters and the result of a function. Properties have different names, in
which there is no equals sign.

* `Call`, `run`: what can be asked, and the interner after a sequence of calls.
* `Keyed`: what one call keeps, and `keyed_run`: what holds after any number of them.
* `canonical`: the numbers that are given out.
-/

namespace TypedScript.Ty.Interner

/-- What an interner can be asked for. -/
inductive Call where
  | primitive (name : String)
  | object (props : List (String × Nat))
  | func (params : List Nat) (result : Nat)
  | newAlias (name : String)
  | setAlias (id target : Nat)

/-- The properties have different names, in which there is no equals sign. So it is with all identifiers. -/
structure ProperNames (props : List (String × Nat)) : Prop where
  nodup : (props.map (·.1)).Nodup
  notMem : ∀ p ∈ props, '=' ∉ p.1.toList

instance (props : List (String × Nat)) : Decidable (ProperNames props) :=
  decidable_of_iff ((props.map (·.1)).Nodup ∧ ∀ p ∈ props, '=' ∉ p.1.toList)
    ⟨fun ⟨hnodup, hnames⟩ => ⟨hnodup, hnames⟩, fun h => ⟨h.nodup, h.notMem⟩⟩

namespace Call

/-- The number that is given out. -/
def answer? (ts : Interner) : Call → Option Nat
  | primitive name => primitive? name
  | object props => some (ts.object props).1
  | func params result => some (ts.func params result).1
  | newAlias name => some (ts.newAlias name).1
  | setAlias .. => none

/-- The interner after a call. -/
def next (ts : Interner) : Call → Interner
  | primitive _ => ts
  | object props => (ts.object props).2
  | func params result => (ts.func params result).2
  | newAlias name => (ts.newAlias name).2
  | setAlias id target => ts.setAlias id target

/-- Objects are asked for with proper names. -/
def IsProper : Call → Prop
  | object props => ProperNames props
  | _ => True

instance : DecidablePred IsProper
  | object props => inferInstanceAs (Decidable (ProperNames props))
  | primitive _ | func .. | newAlias _ | setAlias .. => .isTrue trivial

end Call

/-- The interner after calls, one after another. -/
def run (ts : Interner) (calls : List Call) : Interner := calls.foldl Call.next ts

variable {ts ts' : Interner} {calls : List Call} {props : List (String × Nat)} {id : Nat} {t : Ty}

/-- A type that stands for a number stands for it later, unless it is an alias, which may get another target. -/
def Kept (ts ts' : Interner) : Prop :=
  ∀ id t, ts.lookup? id = some t → ts'.lookup? id = some t ∨
    ∃ name old new, t = .synonym name old ∧ ts'.lookup? id = some (.synonym name new)

theorem Kept.refl (ts : Interner) : Kept ts ts := fun _ _ => .inl

theorem Kept.trans {ts'' : Interner} (h : Kept ts ts') (h' : Kept ts' ts'') : Kept ts ts'' := by
  intro id t ht
  rcases h id t ht with ht | ⟨name, old, new, rfl, hnew⟩
  · exact h' id t ht
  · rcases h' id (.synonym name new) hnew with ht | ⟨name', old', new', heq, ht⟩
    · exact .inr ⟨name, old, new, rfl, ht⟩
    · cases heq
      exact .inr ⟨name, old, new', rfl, ht⟩

theorem Kept.grows (h : Kept ts ts') : Grows ts ts' := by
  intro id t ht hne
  rcases h id t ht with ht | ⟨name, old, -, rfl, -⟩
  · exact ht
  · exact absurd rfl (hne name old)

/-- Setting the target of an alias changes no other type. -/
theorem kept_setAlias (ts : Interner) (id target : Nat) : Kept ts (ts.setAlias id target) := by
  intro id' t ht
  by_cases halias : ∃ name old, t = .synonym name old
  · obtain ⟨name, old, rfl⟩ := halias
    unfold setAlias
    split
    · rename_i name' old' hold
      by_cases heq : id' = id
      · subst heq
        cases ht.symm.trans hold
        obtain ⟨hpos, hlt⟩ : id' ≠ 0 ∧ id' - 1 < ts.types.size := by
          unfold lookup? at ht
          split at ht
          · exact nomatch ht
          · rename_i hpos
            exact ⟨hpos, (Array.getElem?_eq_some_iff.1 ht).1⟩
        exact .inr ⟨name, old, target, rfl, by simp [lookup?, hpos, hlt]⟩
      · refine .inl ?_
        unfold lookup? at ht hold ⊢
        split at ht
        · exact nomatch ht
        · split at hold
          · exact nomatch hold
          · rename_i hpos hpos'
            rw [if_neg hpos, Array.getElem?_setIfInBounds, if_neg (by omega), ht]
    · exact .inl ht
  · exact .inl (grows_setAlias ts id target id' t ht fun name old h => halias ⟨name, old, h⟩)

/-- Structural types have one number, the properties of objects proper names, in order. -/
structure Keyed (ts : Interner) : Prop where
  named : ∀ t ∈ ts.types, t.IsNamed
  sorted : ∀ props, .object props ∈ ts.types → props.Pairwise fun p q => p.1 < q.1
  unique : ∀ (i j : Nat) (t : Ty), ts.types[i]? = some t → ts.types[j]? = some t → t.key?.isSome → i = j

/-- The type is told by its key from the types that there are. -/
def Told (ts : Interner) (t : Ty) : Prop := t.key?.isSome ∧ ∀ u ∈ ts.types, u.key? = t.key? → u = t

theorem isNamed_sortProps (h : ProperNames props) : IsNamed (.object (sortProps props)) := fun p hp =>
  h.notMem p ((Order.sorted_perm _ props).mem_iff.1 hp)

theorem Keyed.told_object (hts : Keyed ts) (h : ProperNames props) : Told ts (.object (sortProps props)) :=
  ⟨rfl, fun u hu => eq_object_of_key? (hts.named u hu) (isNamed_sortProps h)⟩

theorem Keyed.intern (hts : Keyed ts) (hnamed : t.IsNamed)
    (hsorted : ∀ props, t = .object props → props.Pairwise fun p q => p.1 < q.1) : Keyed (ts.intern t).2 := by
  unfold Interner.intern
  split
  · exact hts
  rename_i hnone
  have hnew : ∀ u ∈ ts.types, t.key?.isSome → u ≠ t := by
    rintro u hu hkey rfl
    simpa [hkey] using Array.findIdx?_eq_none_iff.1 hnone u hu
  constructor
  case named =>
    intro u hu
    rcases Array.mem_push.1 hu with hu | rfl
    · exact hts.named u hu
    · exact hnamed
  case sorted =>
    intro props hu
    rcases Array.mem_push.1 hu with hu | heq
    · exact hts.sorted props hu
    · exact hsorted props heq.symm
  case unique =>
    intro i j u hi hj hkey
    rw [Array.getElem?_push] at hi hj
    split at hi <;> split at hj
    · omega
    · cases hi
      exact absurd rfl (hnew t (Array.mem_of_getElem? hj) hkey)
    · cases hj
      exact absurd rfl (hnew t (Array.mem_of_getElem? hi) hkey)
    · exact hts.unique i j u hi hj hkey

theorem Keyed.newAlias (hts : Keyed ts) (name : String) : Keyed (ts.newAlias name).2 := by
  constructor
  case named =>
    intro u hu
    rcases Array.mem_push.1 hu with hu | rfl
    · exact hts.named u hu
    · exact trivial
  case sorted =>
    intro props hu
    exact hts.sorted props ((Array.mem_push.1 hu).resolve_right nofun)
  case unique =>
    intro i j u hi hj hkey
    have hold {k : Nat} (hk : (ts.types.push (.synonym name 0))[k]? = some u) : ts.types[k]? = some u := by
      rw [Array.getElem?_push] at hk
      split at hk
      · cases hk
        exact nomatch hkey
      · exact hk
    exact hts.unique i j u (hold hi) (hold hj) hkey

theorem Keyed.setAlias (hts : Keyed ts) (id target : Nat) : Keyed (ts.setAlias id target) := by
  unfold Interner.setAlias
  split
  · rename_i name old _
    have hmem {u : Ty} (hu : u ∈ ts.types.setIfInBounds (id - 1) (.synonym name target)) :
        u ∈ ts.types ∨ u = .synonym name target := by
      obtain ⟨k, hk⟩ := Array.mem_iff_getElem?.1 hu
      rw [Array.getElem?_setIfInBounds] at hk
      split at hk
      · split at hk
        · exact .inr (Option.some.inj hk).symm
        · exact nomatch hk
      · exact .inl (Array.mem_of_getElem? hk)
    constructor
    case named =>
      intro u hu
      rcases hmem hu with hu | rfl
      · exact hts.named u hu
      · exact trivial
    case sorted =>
      intro props hu
      exact hts.sorted props ((hmem hu).resolve_right nofun)
    case unique =>
      intro i j u hi hj hkey
      have hold {k : Nat} (hk : (ts.types.setIfInBounds (id - 1) (.synonym name target))[k]? = some u) :
          ts.types[k]? = some u := by
        rw [Array.getElem?_setIfInBounds] at hk
        split at hk
        · split at hk
          · cases hk
            exact nomatch hkey
          · exact nomatch hk
        · exact hk
      exact hts.unique i j u (hold hi) (hold hj) hkey
  · exact hts

/-- One call keeps what holds of an interner. -/
theorem Keyed.next (hts : Keyed ts) {c : Call} (hc : c.IsProper) : Keyed (c.next ts) := by
  cases c with
  | primitive name => exact hts
  | object props =>
    refine hts.intern (isNamed_sortProps hc) ?_
    rintro _ ⟨⟩
    exact Order.pairwise_lt_sorted_nameLe hc.nodup
  | func params result => exact hts.intern trivial nofun
  | newAlias name => exact hts.newAlias name
  | setAlias id target => exact hts.setAlias id target

/-- No primitive type is an object. -/
theorem isObject_primitives : ∀ t ∈ ({} : Interner).types, t.isObject = false := by
  have hplain : ∀ t ∈ ({} : Interner).types.toList, t.isObject = false := by decide
  exact fun t ht => hplain t (Array.mem_toList_iff.2 ht)

theorem keyed_primitives : Keyed {} where
  named t ht := by
    cases t with
    | object props => exact nomatch isObject_primitives _ ht
    | _ => exact trivial
  sorted props hprops := nomatch isObject_primitives _ hprops
  unique i j t hi hj _ := by
    have hnodup : (({} : Interner).types.toList).Nodup := by decide
    rw [← Array.getElem?_toList] at hi hj
    obtain ⟨hlt, hi⟩ := List.getElem?_eq_some_iff.1 hi
    obtain ⟨hlt', hj⟩ := List.getElem?_eq_some_iff.1 hj
    exact (hnodup.getElem_inj_iff).1 (hi.trans hj.symm)

/-- The invariant holds after any calls. -/
theorem Keyed.run (hts : Keyed ts) (h : ∀ c ∈ calls, c.IsProper) : Keyed (ts.run calls) := by
  induction calls generalizing ts with
  | nil => exact hts
  | cons c calls ih =>
    obtain ⟨hc, hcalls⟩ := List.forall_mem_cons.1 h
    exact ih (hts.next hc) hcalls

theorem isSorted_run (h : ∀ c ∈ calls, c.IsProper) : (({} : Interner).run calls).IsSorted := by
  rintro _ ht props rfl
  exact (keyed_primitives.run h).sorted props ht

/-! ### The numbers that are given out -/

/-- The name of a primitive type stands for it. -/
theorem lookup?_primitive {name : String} (h : primitive? name = some id) :
    ∃ t, ({} : Interner).lookup? id = some t ∧ ∀ name target, t ≠ .synonym name target := by
  have hplain : ∀ p ∈ primitives, nameOf? p.2 = none := by decide
  obtain ⟨i, hi, rfl⟩ := Option.map_eq_some_iff.1 h
  obtain ⟨hlt, -⟩ := List.findIdx?_eq_some_iff_getElem.1 hi
  refine ⟨primitives[i].2, ?_, ?_⟩
  · simp [lookup?, hlt]
  · intro name target heq
    have hnone := hplain _ (List.getElem_mem hlt)
    rw [heq] at hnone
    cases hnone

/-- The number of a new alias stood for nothing. -/
theorem lookup?_newAlias_eq_none (ts : Interner) (name : String) : ts.lookup? (ts.newAlias name).1 = none := by
  simp [lookup?, newAlias]

theorem lookup?_newAlias (ts : Interner) (name : String) :
    (ts.newAlias name).2.lookup? (ts.newAlias name).1 = some (.synonym name 0) := by
  simp [lookup?, newAlias]

/-- What is given out stands for no alias, or is new. -/
theorem Keyed.answer (hts : Keyed ts) (hprims : Grows {} ts) {c : Call} (hc : c.IsProper)
    (h : c.answer? ts = some id) :
    (∃ t, (c.next ts).lookup? id = some t ∧ ∀ name target, t ≠ .synonym name target) ∨
      ts.lookup? id = none ∧ ∃ name, (c.next ts).lookup? id = some (.synonym name 0) := by
  cases c with
  | primitive name =>
    obtain ⟨t, ht, hne⟩ := lookup?_primitive h
    exact .inl ⟨t, hprims id t ht hne, hne⟩
  | object props =>
    cases h
    exact .inl ⟨.object (sortProps props), lookup?_intern (hts.told_object hc).2, nofun⟩
  | func params result =>
    cases h
    exact .inl ⟨.func params result, lookup?_func ts params result, nofun⟩
  | newAlias name =>
    cases h
    exact .inr ⟨lookup?_newAlias_eq_none ts name, name, lookup?_newAlias ts name⟩
  | setAlias id' target => exact nomatch h

end TypedScript.Ty.Interner
