import Mathlib.Data.List.Nodup
import TypedScript.Proofs.Layout.Numbered

/-!
# Layouts have different names

A layout is named after the alias by which its object type was first met, after its scope, or by a number. A scope
has one layout and so has an object type, so that no name is given twice as long as aliases of one name stand for
one type.

* `Registry.Origin`: how a layout came by its name.
* `Registry.Made`: the registries that there are while a program is lowered.
* `Registry.Made.isDistinct`: no two layouts of such a registry have one name.
-/

namespace TypedScript.Layout

/-- Aliases of object types stand for one type if they have one name, which has no dot and is not that of another
struct. -/
structure NamesApart (types : Ty.Interner) : Prop where
  unalias : ∀ t t', types.isHeap t = true → types.isHeap t' = true → types.aliasName t ≠ "" →
    types.aliasName t = types.aliasName t' → types.unalias t = types.unalias t'
  undotted : ∀ t, '.' ∉ (types.aliasName t).toList
  free : ∀ t, types.isHeap t = true → types.aliasName t ∉ ["$header", "$closure"]

namespace Registry

variable {types : Ty.Interner} {r r' r'' : Registry} {name : String} {d : Descriptor}

/-- How a layout came by its name: it is that of closures, of a scope, of an object type that was met by an alias,
or of one of the object types that were met without. -/
inductive Origin (types : Ty.Interner) (r : Registry) (name : String) : Prop
  | closure (h : name = "$closure")
  | scope (key : String) (h : name = "scope." ++ key) (hmade : (r.scopes.lookup key).isSome)
  | named (t : Nat) (ht : types.isHeap t = true) (h : name = types.aliasName t) (hne : name ≠ "")
    (hmade : (r.byType.lookup (types.unalias t)).isSome)
  | unnamed (k : Nat) (h : name = s!"anon.{k}") (hmade : k ≤ r.unnamed)

/-- No two layouts have one name, and what is noted of a scope or a type leads to its layout. -/
structure IsDistinct (types : Ty.Interner) (r : Registry) : Prop where
  nodup : (r.all.map (·.name)).Nodup
  origin : ∀ d ∈ r.all, Origin types r d.name
  byType : ∀ canon tag, r.byType.lookup canon = some tag → r.Has tag
  scopes : ∀ key tag, r.scopes.lookup key = some tag → r.Has tag

theorem ofTarget_isDistinct (types : Ty.Interner) (t : Target) : (ofTarget t).IsDistinct types where
  nodup := List.nodup_singleton _
  origin d hd := by
    obtain rfl := List.mem_singleton.1 hd
    exact .closure rfl
  byType _ _ h := by cases h
  scopes _ _ h := by cases h

/-- Layouts of one name are the same. -/
theorem IsDistinct.eq_of_name (h : r.IsDistinct types) {d' : Descriptor} (hd : d ∈ r.all) (hd' : d' ∈ r.all)
    (hname : d.name = d'.name) : d = d' := List.inj_on_of_nodup_map h.nodup hd hd' hname

/-! ### Names by their origin -/

theorem toList_unnamed (k : Nat) : (s!"anon.{k}").toList =
    'a' :: 'n' :: 'o' :: 'n' :: '.' :: Nat.toDigits 10 k := by
  simp [toString]

theorem unnamed_inj {n k : Nat} (h : s!"anon.{n}" = s!"anon.{k}") : n = k := by
  have hlist := congrArg String.toList h
  rw [toList_unnamed, toList_unnamed] at hlist
  have hdigits : Nat.toDigits 10 n = Nat.toDigits 10 k := by simpa using hlist
  rw [← Nat.ofDigitChars_ten_toDigits (n := n), hdigits, Nat.ofDigitChars_ten_toDigits]

theorem dot_mem_unnamed (k : Nat) : '.' ∈ (s!"anon.{k}").toList := by
  rw [toList_unnamed]
  simp

theorem dot_mem_scope (key : String) : '.' ∈ ("scope." ++ key).toList := by simp

theorem scope_ne_unnamed (key : String) (k : Nat) : "scope." ++ key ≠ s!"anon.{k}" := by
  intro h
  have hlist := congrArg String.toList h
  rw [toList_unnamed] at hlist
  simp at hlist

/-- No layout has the name of the struct that all objects start with, and none has no name. -/
theorem Origin.notMem (hnames : NamesApart types) (h : Origin types r name) : name ∉ ["$header", ""] := by
  cases h with
  | closure h =>
    subst h
    decide
  | scope key h hmade =>
    subst h
    simp only [List.mem_cons, List.not_mem_nil, or_false, not_or]
    constructor <;> intro heq <;> exact absurd (heq ▸ dot_mem_scope key) (by decide)
  | named t ht h hne hmade =>
    subst h
    have hfree := hnames.free t ht
    simp only [List.mem_cons, List.not_mem_nil, or_false, not_or] at hfree ⊢
    exact ⟨hfree.1, hne⟩
  | unnamed k h hmade =>
    subst h
    simp only [List.mem_cons, List.not_mem_nil, or_false, not_or]
    constructor <;> intro heq <;> exact absurd (heq ▸ dot_mem_unnamed k) (by decide)

/-- The name of a scope whose layout is not made is free. -/
theorem Origin.ne_scope (hnames : NamesApart types) (h : Origin types r name) {key : String}
    (hnew : r.scopes.lookup key = none) :
    name ≠ "scope." ++ key := by
  rintro rfl
  cases h with
  | closure h => exact absurd (h ▸ dot_mem_scope key) (by decide)
  | scope key' h hmade =>
    obtain rfl : key = key' := String.append_right_inj "scope." |>.1 h
    rw [hnew] at hmade
    cases hmade
  | named t ht h hne hmade => exact hnames.undotted t (h ▸ dot_mem_scope key)
  | unnamed k h hmade => exact scope_ne_unnamed key k h

/-- The name of an alias of an object type whose layout is not made is free. -/
theorem Origin.ne_alias (hnames : NamesApart types) (h : Origin types r name) {t : Nat} (ht : types.isHeap t = true)
    (hne : types.aliasName t ≠ "") (hnew : r.byType.lookup (types.unalias t) = none) :
    name ≠ types.aliasName t := by
  rintro rfl
  cases h with
  | closure h => exact hnames.free t ht (by rw [h]; simp)
  | scope key h hmade => exact hnames.undotted t (h ▸ dot_mem_scope key)
  | named t' ht' h hne' hmade =>
    rw [← hnames.unalias t t' ht ht' hne h, hnew] at hmade
    cases hmade
  | unnamed k h hmade => exact hnames.undotted t (h ▸ dot_mem_unnamed k)

/-- The next number is free. -/
theorem Origin.ne_unnamed (hnames : NamesApart types) (h : Origin types r name) :
    name ≠ s!"anon.{r.unnamed + 1}" := by
  rintro rfl
  cases h with
  | closure h => exact absurd (h ▸ dot_mem_unnamed _) (by decide)
  | scope key h hmade => exact scope_ne_unnamed key _ h.symm
  | named t ht h hne hmade => exact hnames.undotted t (h ▸ dot_mem_unnamed _)
  | unnamed k h hmade =>
    have := unnamed_inj h
    omega

/-! ### Adding to a registry -/

theorem Origin.mono (h : Origin types r name)
    (hscopes : ∀ key, (r.scopes.lookup key).isSome → (r'.scopes.lookup key).isSome)
    (htypes : ∀ canon, (r.byType.lookup canon).isSome → (r'.byType.lookup canon).isSome)
    (hunnamed : r.unnamed ≤ r'.unnamed) :
    Origin types r' name := by
  cases h with
  | closure h => exact .closure h
  | scope key h hmade => exact .scope key h (hscopes key hmade)
  | named t ht h hne hmade => exact .named t ht h hne (htypes _ hmade)
  | unnamed k h hmade => exact .unnamed k h (Nat.le_trans hmade hunnamed)

/-- A layout with a new name is added, or a note of one that is there. -/
theorem IsDistinct.extend (h : r.IsDistinct types) (hall : r'.all = r.all ∨
      ∃ d, r'.all = r.all ++ [d] ∧ Origin types r' d.name ∧ ∀ d' ∈ r.all, d'.name ≠ d.name)
    (hscopes : ∀ key, (r.scopes.lookup key).isSome → (r'.scopes.lookup key).isSome)
    (htypes : ∀ canon, (r.byType.lookup canon).isSome → (r'.byType.lookup canon).isSome)
    (hunnamed : r.unnamed ≤ r'.unnamed) (hnotedTypes : ∀ canon tag, r'.byType.lookup canon = some tag → r'.Has tag)
    (hnotedScopes : ∀ key tag, r'.scopes.lookup key = some tag → r'.Has tag) : r'.IsDistinct types := by
  have hold : ∀ d ∈ r.all, Origin types r' d.name := fun d hd => (h.origin d hd).mono hscopes htypes hunnamed
  rcases hall with hall | ⟨d, hall, hd, hnew⟩
  · exact ⟨hall ▸ h.nodup, hall ▸ hold, hnotedTypes, hnotedScopes⟩
  · refine ⟨?_, fun d' hd' => ?_, hnotedTypes, hnotedScopes⟩
    · rw [hall, List.map_append, List.nodup_append]
      refine ⟨h.nodup, List.nodup_singleton _, fun name hname name' hname' => ?_⟩
      obtain ⟨d', hd', rfl⟩ := List.mem_map.1 hname
      obtain rfl : name' = d.name := by simpa using hname'
      exact hnew d' hd'
    · rw [hall] at hd'
      rcases List.mem_append.1 hd' with hd' | hd'
      · exact hold d' hd'
      · exact List.mem_singleton.1 hd' ▸ hd

/-- The layout of a scope object has a name of its own. -/
theorem IsDistinct.scope (hnames : NamesApart types) (h : r.IsDistinct types) (key : String)
    (locals : List FieldSpec) :
    (r.scope key locals).1.IsDistinct types := by
  unfold Registry.scope
  split
  · exact h
  · rename_i hnone
    have hnew := lookup_eq_none h.scopes hnone
    have hmem {d : Descriptor} : d ∈ r.all ++ [d] := by simp
    refine h.extend (.inr ⟨_, rfl, ?_, fun d' hd' => (h.origin d' hd').ne_scope hnames hnew⟩)
      (fun _ => isSome_lookup_cons _) (fun _ => id) (Nat.le_refl _) (fun canon tag htag => ?_)
      (has_of_lookup_cons hmem h.scopes (List.subset_append_left _ _))
    · exact .scope key rfl (isSome_lookup_self _ _ _)
    · obtain ⟨d, hd, htag⟩ := h.byType canon tag htag
      exact ⟨d, List.mem_append_left _ hd, htag⟩

/-! ### Resolving types -/

/-- The names stay different, and of the object types on the stack none gets a layout. -/
def Spares (types : Ty.Interner) (r r' : Registry) : Prop :=
  r.IsDistinct types → r'.IsDistinct types ∧ r'.index = r.index ∧
    ∀ c, (r.index.lookup c).isSome → r.byType.lookup c = none → r'.byType.lookup c = none

instance : Std.Refl (Spares types) := ⟨fun _ h => ⟨h, rfl, fun _ _ => id⟩⟩

instance : Trans (Spares types) (Spares types) (Spares types) where
  trans h h' hr := by
    obtain ⟨hr', hindex, hspared⟩ := h hr
    obtain ⟨hr'', hindex', hspared'⟩ := h' hr'
    exact ⟨hr'', hindex'.trans hindex, fun c hc hnone => hspared' c (hindex ▸ hc) (hspared c hc hnone)⟩

/-- What matters of a registry are its layouts and what is noted of them. -/
theorem IsDistinct.congr (h : r.IsDistinct types) (hall : r'.all = r.all) (htypes : r'.byType = r.byType)
    (hscopes : r'.scopes = r.scopes) (hunnamed : r'.unnamed = r.unnamed) : r'.IsDistinct types :=
  h.extend (.inl hall) (fun _ => hscopes ▸ id) (fun _ => htypes ▸ id) (Nat.le_of_eq hunnamed.symm)
    (by rw [htypes]; unfold Has; rw [hall]; exact h.byType) (by rw [hscopes]; unfold Has; rw [hall]; exact h.scopes)

/-- An object type without a layout gets one with a name of its own, or one of its shape that is there. -/
theorem distinct_layoutOfShape (hnames : NamesApart types) {type : Nat} (htype : types.isHeap type = true)
    (specs : List FieldSpec) (h : r.IsDistinct types) (hnew : r.byType.lookup (types.unalias type) = none) :
    ((layoutOfShape types type (types.unalias type) specs).run.run r).2.IsDistinct types := by
  refine Along.get_bind (R := fun r r' => r.IsDistinct types → r.byType.lookup (types.unalias type) = none →
    r'.IsDistinct types) (fun r h hnew => ?_) r h hnew
  split
  · rename_i d hd
    obtain ⟨tag, -, htag⟩ := Option.bind_eq_some_iff.1 hd
    refine h.extend (.inl rfl) (fun _ => id) (fun _ => isSome_lookup_cons _) (Nat.le_refl _) ?_ h.scopes
    exact has_of_lookup_cons (mem_of_descriptor? htag) h.byType (List.Subset.refl _)
  · have hmem {d : Descriptor} : d ∈ r.all ++ [d] := List.mem_append_right _ List.mem_cons_self
    dsimp only
    refine h.extend (.inr ⟨_, rfl, ?_, fun d' hd' => ?_⟩) (fun _ => id) (fun _ => isSome_lookup_cons _) ?_
      (has_of_lookup_cons hmem h.byType (List.subset_append_left _ _)) fun key tag htag => ?_
    · by_cases hnamed : types.aliasName type ≠ ""
      · rw [if_pos hnamed]
        exact .named type htype rfl hnamed (isSome_lookup_self _ _ _)
      · simp only [if_neg hnamed]
        exact .unnamed _ rfl (Nat.le_refl _)
    · by_cases hnamed : types.aliasName type ≠ ""
      · rw [if_pos hnamed]
        exact (h.origin d' hd').ne_alias hnames htype hnamed hnew
      · simp only [if_neg hnamed]
        exact (h.origin d' hd').ne_unnamed hnames
    · show r.unnamed ≤ if types.aliasName type ≠ "" then r.unnamed else r.unnamed + 1
      split <;> omega
    · obtain ⟨d, hd, htag⟩ := h.scopes key tag htag
      exact ⟨d, List.mem_append_left _ hd, htag⟩

/-- A layout is noted for the type itself only. -/
theorem notes_layoutOfShape (types : Ty.Interner) (type canon : Nat) (specs : List FieldSpec) (r : Registry) :
    ∃ tag, ((layoutOfShape types type canon specs).run.run r).2.byType = (canon, tag) :: r.byType ∧
      ((layoutOfShape types type canon specs).run.run r).2.index = r.index := by
  refine Along.get_bind (R := fun r r' => ∃ tag, r'.byType = (canon, tag) :: r.byType ∧ r'.index = r.index)
    (fun r => ?_) r
  split
  · exact ⟨_, rfl, rfl⟩
  · exact ⟨_, rfl, rfl⟩

/-- Resolving a type keeps names different, and spares the object types on the stack. The induction is on the
depth. -/
theorem spares_from (hnames : NamesApart types) (depth : Nat) : ∀ type : Nat,
    Along (Spares types) (resolveFrom types depth type) ∧ Along (Spares types) (layoutFrom types depth type) := by
  induction depth with
  | zero =>
    intro type
    rw [resolveFrom, layoutFrom]
    exact ⟨.throw _, .throw _⟩
  | succ depth ih =>
    intro type
    rw [resolveFrom, layoutFrom]
    constructor
    · split
      case h_7 => exact (ih type).2.bind fun _ => .pure _
      all_goals first | exact .pure _ | exact .throw _
    · refine .get_bind fun r => ?_
      split
      · exact Std.Refl.refl r
      split
      case h_2 => exact Std.Refl.refl r
      rename_i hnone _ props hprops
      split
      · exact Std.Refl.refl r
      rename_i hoff
      have htype : types.isHeap type = true := by
        simp [Ty.Interner.isHeap, Ty.Interner.resolved?, hprops, Ty.isObject]
      intro hr
      have hnew := lookup_eq_none hr.byType hnone
      have hentered : (r.enter (types.unalias type) type).IsDistinct types := hr.congr rfl rfl rfl rfl
      -- while the fields are resolved, the type itself stands on the stack
      obtain ⟨hr₁, hindex, hspared⟩ := Along.mapM (R := Spares types)
        (fun p : String × Nat => (ih p.2).1.bind fun rep => .pure (⟨p.1, rep⟩ : FieldSpec)) props
        (r.enter (types.unalias type) type) hentered
      have hself : ((r.enter (types.unalias type) type).index.lookup (types.unalias type)).isSome :=
        isSome_lookup_self _ _ _
      have hother {c : Nat} (hc : (r.index.lookup c).isSome) :
        ((r.enter (types.unalias type) type).index.lookup c).isSome :=
        isSome_lookup_cons _ hc
      have hindex' {r' : Registry} (h : r'.index = (r.enter (types.unalias type) type).index) :
          (r'.leave (types.unalias type)).index = r.index := by
        show r'.index.filter _ = _
        rw [h]
        exact filter_index hoff
      rw [run_within]
      refine Along.run_bind (P := fun r' => (r'.leave (types.unalias type)).IsDistinct types ∧
        (r'.leave (types.unalias type)).index = r.index ∧ ∀ c, (r.index.lookup c).isSome →
        r.byType.lookup c = none →
          (r'.leave (types.unalias type)).byType.lookup c = none) (fun specs => ?_)
          ⟨hr₁.congr rfl rfl rfl rfl, hindex' hindex,
            fun c hc hcnone => hspared c (hother hc) hcnone⟩
      have hr₂ := distinct_layoutOfShape hnames htype specs hr₁ (hspared _ hself hnew)
      obtain ⟨tag, hnotes, hsame⟩ := notes_layoutOfShape types type (types.unalias type) specs _
      refine ⟨hr₂.congr rfl rfl rfl rfl, hindex' (hsame.trans hindex), fun c hc hcnone => ?_⟩
      have hne : c ≠ types.unalias type := by
        rintro rfl
        rw [hoff] at hc
        cases hc
      show List.lookup c _ = none
      rw [leave, hnotes, List.lookup_cons, beq_false_of_ne hne]
      exact hspared c (hother hc) hcnone

/-! ### Registries -/

/-- The registry has become what it is by resolving types and making the layouts of scopes. -/
inductive Made (types : Ty.Interner) : Registry → Prop
  | ofTarget (t : Target) : Made types (ofTarget t)
  | resolve {r : Registry} (h : Made types r) (type : Nat) : Made types ((resolve types type).run.run r).2
  | scope {r : Registry} (h : Made types r) (key : String) (locals : List FieldSpec) : Made types
      (r.scope key locals).1

theorem Made.isNumbered (h : Made types r) : r.IsNumbered := by
  induction h with
  | ofTarget t => exact ofTarget_isNumbered t
  | resolve h type ih => exact (adds_resolve types type _).numbered ih
  | scope h key locals ih => exact (extends_scope _ key locals).1.numbered ih

/-- No two layouts have one name. The induction is on how the registry was made. -/
theorem Made.isDistinct (hnames : NamesApart types) (h : Made types r) : r.IsDistinct types := by
  induction h with
  | ofTarget t => exact ofTarget_isDistinct types t
  | resolve h type ih => exact ((spares_from hnames _ type).1 _ ih).1
  | scope h key locals ih => exact ih.scope hnames key locals

end Registry

end TypedScript.Layout
