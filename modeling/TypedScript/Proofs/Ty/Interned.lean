import TypedScript.Proofs.Text.Encoded
import TypedScript.Ty.Interner

/-!
# Numbers of types last

The key of a structural type is put together from the names and numbers that it is made of. It can be taken apart
again as long as no name of a property has an equals sign, so that such types have one key only if they are one
type.

Interning only adds types, and only aliases are ever given another meaning. So what a number stands for, if it is
no alias, it stands for as long as the interner is used.

* `IsNamed`: no name of a property has an equals sign.
* `eq_of_key?`: such types are told by their keys.
* `Interner.Grows`: what stands for no alias stays.
-/

namespace TypedScript.Ty

open TypedScript.Text

/-- No name of a property has an equals sign; no identifier has one. -/
def IsNamed : Ty → Prop
  | .object props => ∀ p ∈ props, '=' ∉ p.1.toList
  | _ => True

/-! ### What a key is made of -/

/-- A property in a key. -/
def propChars (p : String × Nat) : List Char := p.1.toList ++ '=' :: (Nat.toDigits 10 p.2 ++ [';'])

/-- A parameter in a key. -/
def paramChars (p : Nat) : List Char := Nat.toDigits 10 p ++ [',']

theorem toList_key?_object (props : List (String × Nat)) : (key? (.object props)).map String.toList =
    some (['7', ':'] ++ props.flatMap propChars) := by
  simp [key?, toString, List.flatMap_map]
  rfl

theorem toList_key?_func (params : List Nat) (result : Nat) : (key? (.func params result)).map String.toList =
    some (['8', ':'] ++ params.flatMap paramChars ++ '-' :: '>' :: Nat.toDigits 10 result) := by
  simp [key?, toString, List.flatMap_map]
  rfl

/-! ### Taking keys apart -/

/-- The first equals sign ends a name, and the semicolon after it the number. -/
theorem props_inj {ps qs : List (String × Nat)} (hps : ∀ p ∈ ps, '=' ∉ p.1.toList)
    (hqs : ∀ q ∈ qs, '=' ∉ q.1.toList) (heq : ps.flatMap propChars = qs.flatMap propChars) : ps = qs := by
  induction ps generalizing qs with
  | nil =>
    cases qs with
    | nil => rfl
    | cons q qs => simp [propChars] at heq
  | cons p ps ih =>
    cases qs with
    | nil => simp [propChars] at heq
    | cons q qs =>
      obtain ⟨hp, hps⟩ := List.forall_mem_cons.1 hps
      obtain ⟨hq, hqs⟩ := List.forall_mem_cons.1 hqs
      simp only [List.flatMap_cons, propChars, List.append_assoc, List.cons_append, List.nil_append] at heq
      obtain ⟨hname, heq⟩ := append_cons_inj hp hq heq
      obtain ⟨htype, heq⟩ := append_cons_inj (notMem_toDigits rfl _) (notMem_toDigits rfl _) heq
      rw [ih hps hqs heq, Prod.ext (String.toList_inj.1 hname) (toDigits_inj htype)]

/-- A parameter never starts with the arrow before the result. -/
theorem paramChars_ne_arrow {p : Nat} {ps m : List Char} (heq : paramChars p ++ ps = '-' :: m) : False := by
  have hminus : '-' ∉ Nat.toDigits 10 p := notMem_toDigits rfl p
  unfold paramChars at heq
  cases hdigits : Nat.toDigits 10 p with
  | nil => simp [hdigits] at heq
  | cons d digits =>
    rw [hdigits] at heq hminus
    obtain rfl : d = '-' := (List.cons.inj heq).1
    simp at hminus

theorem params_inj {ps qs : List Nat} {r s : Nat} (heq : ps.flatMap paramChars ++ '-' :: '>' :: Nat.toDigits 10 r =
    qs.flatMap paramChars ++ '-' :: '>' :: Nat.toDigits 10 s) : ps = qs ∧ r = s := by
  induction ps generalizing qs with
  | nil =>
    cases qs with
    | nil => exact ⟨rfl, toDigits_inj (by simpa using heq)⟩
    | cons q qs =>
      rw [List.flatMap_cons, List.append_assoc] at heq
      exact (paramChars_ne_arrow heq.symm).elim
  | cons p ps ih =>
    cases qs with
    | nil =>
      rw [List.flatMap_cons, List.append_assoc] at heq
      exact (paramChars_ne_arrow heq).elim
    | cons q qs =>
      simp only [List.flatMap_cons, paramChars, List.append_assoc, List.cons_append, List.nil_append] at heq
      obtain ⟨hparam, heq⟩ := append_cons_inj (notMem_toDigits rfl _) (notMem_toDigits rfl _) heq
      obtain ⟨rfl, rfl⟩ := ih heq
      rw [toDigits_inj hparam]
      exact ⟨rfl, rfl⟩

/-- Only a function type has the key of a function type, and it is that type. -/
theorem eq_func_of_key? {u : Ty} {params : List Nat} {result : Nat} (h : u.key? = key? (.func params result)) :
    u = .func params result := by
  have hlist := congrArg (Option.map String.toList) h
  rw [toList_key?_func] at hlist
  cases u with
  | func params' result' =>
    rw [toList_key?_func] at hlist
    obtain ⟨rfl, rfl⟩ := params_inj (by simpa using hlist)
    rfl
  | synonym => exact nomatch hlist
  | _ => simp [key?, toString] at hlist

/-- Only an object type has the key of an object type. -/
theorem eq_object_of_key? {u : Ty} {props : List (String × Nat)} (hu : u.IsNamed) (hprops : IsNamed (.object props))
    (h : u.key? = key? (.object props)) : u = .object props := by
  have hlist := congrArg (Option.map String.toList) h
  rw [toList_key?_object] at hlist
  cases u with
  | object props' =>
    rw [toList_key?_object] at hlist
    rw [props_inj hu hprops (by simpa using hlist)]
  | synonym => exact nomatch hlist
  | _ => simp [key?, toString] at hlist

namespace Interner

variable {ts ts' ts'' : Interner}

/-! ### Growing -/

/-- What stands for no alias stays. -/
def Grows (ts ts' : Interner) : Prop :=
  ∀ id t, ts.lookup? id = some t → (∀ name target, t ≠ .synonym name target) → ts'.lookup? id = some t

theorem Grows.refl (ts : Interner) : Grows ts ts := fun _ _ h _ => h

theorem Grows.trans (h : Grows ts ts') (h' : Grows ts' ts'') : Grows ts ts'' :=
  fun id t ht hne => h' id t (h id t ht hne) hne

theorem lookup?_push {id : Nat} {t : Ty} (h : ts.lookup? id = some t) (u : Ty) :
    (⟨ts.types.push u⟩ : Interner).lookup? id = some t := by
  unfold lookup? at h ⊢
  split at h
  · exact nomatch h
  · rename_i hid
    have hlt := (Array.getElem?_eq_some_iff.1 h).1
    rw [if_neg hid, Array.getElem?_push_lt hlt, ← h, Array.getElem?_eq_getElem hlt]

theorem grows_intern (ts : Interner) (t : Ty) : Grows ts (ts.intern t).2 := by
  unfold intern
  split
  · exact .refl ts
  · exact fun _ _ h _ => lookup?_push h t

theorem grows_newAlias (ts : Interner) (name : String) : Grows ts (ts.newAlias name).2 :=
  fun _ _ h _ => lookup?_push h _

theorem grows_setAlias (ts : Interner) (id target : Nat) : Grows ts (ts.setAlias id target) := by
  unfold setAlias
  split
  · rename_i name old hold
    intro id' t ht hne
    have hdiff : id' ≠ id := by
      rintro rfl
      exact hne name old (Option.some.inj (ht.symm.trans hold))
    unfold lookup? at ht hold ⊢
    split at ht
    · exact nomatch ht
    · rename_i hid'
      split at hold
      · exact nomatch hold
      · rw [if_neg hid']
        simpa [Array.getElem?_setIfInBounds, show id - 1 ≠ id' - 1 by omega] using ht
  · exact .refl ts

/-- The number of a type that is told by its key stands for that type. -/
theorem lookup?_intern {t : Ty} (htold : ∀ u ∈ ts.types, u.key? = t.key? → u = t) :
    (ts.intern t).2.lookup? (ts.intern t).1 = some t := by
  unfold intern
  split
  · rename_i i hi
    obtain ⟨hlt, hkey, -⟩ := Array.findIdx?_eq_some_iff_getElem.1 hi
    simp only [Bool.and_eq_true, beq_iff_eq] at hkey
    simp [lookup?, hlt, htold _ (Array.getElem_mem hlt) hkey.2]
  · simp [lookup?]

/-- The number of a function type stands for it. -/
theorem lookup?_func (ts : Interner) (params : List Nat) (result : Nat) :
    (ts.func params result).2.lookup? (ts.func params result).1 = some (.func params result) :=
  lookup?_intern fun _ _ => eq_func_of_key?

theorem resolved?_zero (ts : Interner) : ts.resolved? 0 = none := rfl

/-- What stands for no alias is its own meaning. -/
theorem unalias_of_lookup? {id : Nat} {t : Ty} (h : ts.lookup? id = some t)
    (hne : ∀ name target, t ≠ .synonym name target) :
    ts.unalias id = id := by
  unfold unalias follow
  rw [h]
  split
  · rename_i name target heq
    exact absurd (Option.some.inj heq) (hne name target)
  · rfl

/-- What stands for no alias needs no resolving. -/
theorem resolved?_of_lookup? {id : Nat} {t : Ty} (h : ts.lookup? id = some t)
    (hne : ∀ name target, t ≠ .synonym name target) : ts.resolved? id = some t := by
  rw [resolved?, unalias_of_lookup? h hne, h]

/-! ### The names of aliases -/

/-- The name of a type that is an alias. -/
def nameOf? : Ty → Option String
  | .synonym name _ => some name
  | _ => none

theorem nameOf?_eq_some {t : Ty} {name : String} : nameOf? t = some name ↔ ∃ target, t = .synonym name target := by
  cases t <;> simp [nameOf?]

/-- The names of all aliases, in the order in which they were made. -/
def aliasNames (ts : Interner) : List String := ts.types.toList.filterMap nameOf?

theorem aliasNames_intern (ts : Interner) {t : Ty} (h : ∀ name target, t ≠ .synonym name target) :
    (ts.intern t).2.aliasNames = ts.aliasNames := by
  have hnone : nameOf? t = none := by
    cases ht : nameOf? t with
    | none => rfl
    | some name =>
      obtain ⟨target, rfl⟩ := nameOf?_eq_some.1 ht
      exact absurd rfl (h name target)
  unfold intern
  split
  · rfl
  · simp [aliasNames, hnone]

theorem aliasNames_newAlias (ts : Interner) (name : String) : (ts.newAlias name).2.aliasNames =
    ts.aliasNames ++ [name] := by
  simp [aliasNames, newAlias, nameOf?]

/-- A number that stands for a type tells its place. -/
theorem getElem?_of_lookup? {id : Nat} {t : Ty} (h : ts.lookup? id = some t) : ts.types[id - 1]? = some t := by
  unfold lookup? at h
  split at h
  · cases h
  · exact h

/-- An alias keeps its name when it gets its target. -/
theorem aliasNames_setAlias (ts : Interner) (id target : Nat) : (ts.setAlias id target).aliasNames =
    ts.aliasNames := by
  unfold setAlias
  split
  · rename_i name old hold
    obtain ⟨hlt, hget⟩ := Array.getElem?_eq_some_iff.1 (getElem?_of_lookup? hold)
    have hold : ts.types.toList = ts.types.toList.take (id - 1) ++
      .synonym name old :: ts.types.toList.drop (id - 1 + 1) := by
      rw [← hget, ← Array.getElem_toList, ← List.drop_eq_getElem_cons (by simpa using hlt), List.take_append_drop]
    have hnew : (ts.types.setIfInBounds (id - 1) (.synonym name target)).toList =
        ts.types.toList.take (id - 1) ++ .synonym name target :: ts.types.toList.drop (id - 1 + 1) := by
      rw [Array.toList_setIfInBounds, List.set_eq_take_append_cons_drop, if_pos (by simpa using hlt)]
    unfold aliasNames
    dsimp only
    rw [hnew, congrArg (List.filterMap nameOf?) hold]
    simp [nameOf?]
  · rfl

theorem aliasName_eq {id : Nat} {name : String} (hne : name ≠ "") :
    ts.aliasName id = name ↔ ∃ target, ts.lookup? id = some (.synonym name target) := by
  unfold aliasName
  split
  · rename_i name' target heq
    simp [heq]
  · rename_i hnot
    refine ⟨fun h => absurd h.symm hne, ?_⟩
    rintro ⟨target, h⟩
    exact absurd h (hnot name target)

theorem aliasName_mem {id : Nat} (hne : ts.aliasName id ≠ "") : ts.aliasName id ∈ ts.aliasNames := by
  obtain ⟨target, hlookup⟩ := (aliasName_eq hne).1 rfl
  have hmem := Array.mem_of_getElem? (getElem?_of_lookup? hlookup)
  exact List.mem_filterMap.2 ⟨_, Array.mem_toList_iff.2 hmem, rfl⟩

/-- Only types that there are have the names of aliases. -/
theorem le_size_of_aliasName {id : Nat} (hne : ts.aliasName id ≠ "") : id ≤ ts.types.size := by
  obtain ⟨target, hlookup⟩ := (aliasName_eq hne).1 rfl
  obtain ⟨hlt, -⟩ := Array.getElem?_eq_some_iff.1 (getElem?_of_lookup? hlookup)
  omega

end Interner

end TypedScript.Ty
