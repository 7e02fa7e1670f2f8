import TypedScript.Proofs.Layout.Placed

/-!
# Layouts are numbered

A registry only ever adds layouts, and the tag of a layout tells its place. So a layout that was once made is
known by its tag, whatever is made later.
-/

namespace TypedScript.Layout.Registry

/-- Tags count the layouts from one, and the first is the closure layout. -/
structure IsNumbered (r : Registry) : Prop where
  tag : ∀ (i : Nat) d, r.all[i]? = some d → d.tag = i + 1
  closure : r.closure ∈ r.all

theorem ofTarget_isNumbered (t : Target) : (ofTarget t).IsNumbered where
  tag i d hd := by
    obtain ⟨hi, rfl⟩ := List.getElem?_eq_some_iff.1 hd
    obtain rfl : i = 0 := Nat.lt_one_iff.1 hi
    rfl
  closure := List.mem_singleton.2 rfl

variable {r r' r'' : Registry} {d : Descriptor}

/-- A layout is known by its tag. -/
theorem IsNumbered.eq_of_tag (h : r.IsNumbered) {d d' : Descriptor} (hd : d ∈ r.all) (hd' : d' ∈ r.all)
    (htag : d.tag = d'.tag) : d = d' := by
  obtain ⟨i, hi⟩ := List.mem_iff_getElem?.1 hd
  obtain ⟨j, hj⟩ := List.mem_iff_getElem?.1 hd'
  have htags := h.tag i d hi
  rw [htag, h.tag j d' hj] at htags
  obtain rfl : i = j := by omega
  exact Option.some.inj (hi.symm.trans hj)

theorem IsNumbered.tag_pos (h : r.IsNumbered) {d : Descriptor} (hd : d ∈ r.all) : 0 < d.tag := by
  obtain ⟨i, hi⟩ := List.mem_iff_getElem?.1 hd
  have := h.tag i d hi
  omega

/-- Layouts have been added, with their fields in place, and numbered on. -/
structure Extends (r r' : Registry) : Prop where
  all : r.all <+: r'.all
  numbered : r.IsNumbered → r'.IsNumbered
  placed : r.IsPlaced → r'.IsPlaced

theorem Extends.refl (r : Registry) : Extends r r := ⟨List.prefix_rfl, id, id⟩

theorem Extends.trans (h : Extends r r') (h' : Extends r' r'') : Extends r r'' :=
  ⟨h.all.trans h'.all, h'.numbered ∘ h.numbered, h'.placed ∘ h.placed⟩

instance : Std.Refl Extends := ⟨Extends.refl⟩

instance : Trans Extends Extends Extends := ⟨Extends.trans⟩

/-- The layouts are the same. -/
theorem Extends.of_eq (hall : r'.all = r.all) (htarget : r'.target = r.target) : Extends r r' where
  all := hall ▸ List.prefix_rfl
  numbered h := ⟨fun i d hd => h.tag i d (hall ▸ hd), by rw [closure, htarget, hall]; exact h.closure⟩
  placed h d hd := h d (hall ▸ hd)

theorem extends_install (r : Registry) (name : String) (kind : Kind) (type : Nat) (specs : List FieldSpec) :
    Extends r (r.install name kind type specs).1 where
  all := List.prefix_append _ _
  numbered h := by
    refine ⟨fun i d hd => ?_, List.mem_append_left _ h.closure⟩
    rcases Nat.lt_or_ge i r.all.length with hi | hi
    · exact h.tag i d ((List.getElem?_append_left hi).symm.trans hd)
    · have hd' := (List.getElem?_append_right hi).symm.trans hd
      obtain ⟨hlt, rfl⟩ := List.getElem?_eq_some_iff.1 hd'
      obtain rfl : i = r.all.length := by simp at hlt; omega
      simp [build]
  placed h := h.install name kind type specs

theorem mem_of_descriptor? {tag : Int} {d : Descriptor} (h : r.descriptor? tag = some d) : d ∈ r.all :=
  List.mem_of_find?_eq_some h

/-- The layout of a scope object is there from then on. -/
theorem extends_scope (r : Registry) (key : String) (locals : List FieldSpec) :
    Extends r (r.scope key locals).1 ∧ (r.scope key locals).2 ∈ (r.scope key locals).1.all := by
  unfold scope
  split
  · rename_i d hd
    obtain ⟨tag, -, htag⟩ := Option.bind_eq_some_iff.1 hd
    exact ⟨.refl r, mem_of_descriptor? htag⟩
  · refine ⟨(extends_install r _ _ _ _).trans (.of_eq rfl rfl), ?_⟩
    simp [install]

/-! ### Notes of layouts -/

/-- The registry has a layout with the tag. -/
def Has (r : Registry) (tag : Int) : Prop := ∃ d ∈ r.all, d.tag = tag

theorem isSome_lookup_cons {α β : Type} [BEq α] {l : List (α × β)} {k : α} (p : α × β) (h : (l.lookup k).isSome) :
    ((p :: l).lookup k).isSome := by
  obtain ⟨k', b⟩ := p
  rw [List.lookup_cons]
  split
  · rfl
  · exact h

theorem isSome_lookup_self {α β : Type} [BEq α] [LawfulBEq α] (l : List (α × β)) (k : α) (b : β) :
    (((k, b) :: l).lookup k).isSome := by
  rw [List.lookup_cons_self]
  rfl

/-- A note of a layout that is there, in front of such notes. -/
theorem has_of_lookup_cons {α : Type} [BEq α] {l : List (α × Int)} {k : α} (hd : d ∈ r'.all)
    (hl : ∀ k' tag, l.lookup k' = some tag → r.Has tag) (hall : r.all ⊆ r'.all) :
    ∀ k' tag, ((k, d.tag) :: l).lookup k' = some tag → r'.Has tag := by
  intro k' tag h
  rw [List.lookup_cons] at h
  split at h
  · exact ⟨d, hd, Option.some.inj h⟩
  · obtain ⟨d', hd', htag⟩ := hl k' tag h
    exact ⟨d', hall hd', htag⟩

/-- What is noted leads to a layout. -/
theorem lookup_eq_none {α : Type} [BEq α] {l : List (α × Int)} {k : α}
    (hl : ∀ k' tag, l.lookup k' = some tag → r.Has tag) (h : (l.lookup k).bind r.descriptor? = none) :
    l.lookup k = none := by
  cases hk : l.lookup k with
  | none => rfl
  | some tag =>
    obtain ⟨d, hd, htag⟩ := hl k tag hk
    rw [hk, Option.bind_some, descriptor?, List.find?_eq_none] at h
    exact absurd (decide_eq_true htag) (h d hd)

/-- An object type that was put on the index is taken off it again. -/
theorem filter_index {index : List (Nat × Nat)} {c place : Nat} (h : index.lookup c = none) :
    ((c, place) :: index).filter (·.1 ≠ c) = index := by
  have hkeep : ∀ p ∈ index, decide (p.1 ≠ c) = true := by
    intro p hp
    have hne : c ≠ p.1 := bne_iff_ne.1 (List.lookup_eq_none_iff.1 h p hp)
    exact decide_eq_true (Ne.symm hne)
  rw [List.filter_cons_of_neg (by simp), List.filter_eq_self.2 hkeep]

/-! ### Resolving types -/

/-- Whatever registry the computation starts with, the one that it leaves is related to it. -/
def Along {α : Type} (R : Registry → Registry → Prop) (act : LayoutM α) : Prop :=
  ∀ r : Registry, R r (act.run.run r).2

namespace Along

variable {α β : Type} {R : Registry → Registry → Prop}

theorem pure [Std.Refl R] (a : α) : Along R (pure a : LayoutM α) := fun r => Std.Refl.refl r

theorem throw [Std.Refl R] (e : Error) : Along R (throw e : LayoutM α) := fun r => Std.Refl.refl r

/-- A computation is followed by another, or leaves what it leaves when it fails. -/
theorem run_bind {P : Registry → Prop} {x : LayoutM α} {f : α → LayoutM β} {r : Registry}
    (hok : ∀ a, P ((f a).run.run (x.run.run r).2).2) (herror : P (x.run.run r).2) : P ((x >>= f).run.run r).2 := by
  simp only [ExceptT.run_bind, StateT.run_bind]
  rcases hr : x.run.run r with ⟨out, r'⟩
  rw [hr] at hok herror
  cases out with
  | ok a => exact hok a
  | error e => exact herror

theorem bind [Trans R R R] {x : LayoutM α} {f : α → LayoutM β} (hx : Along R x) (hf : ∀ a, Along R (f a)) :
    Along R (x >>= f) := fun r => run_bind (fun a => Trans.trans (hx r) (hf a _)) (hx r)

/-- The registry is read. -/
theorem get_bind {f : Registry → LayoutM β} (hf : ∀ r : Registry, R r ((f r).run.run r).2) : Along R
    (get >>= f) := hf

theorem mapM [Std.Refl R] [Trans R R R] {f : α → LayoutM β} (hf : ∀ a, Along R (f a)) (xs : List α) :
    Along R (xs.mapM f) := by
  induction xs with
  | nil =>
    rw [List.mapM_nil]
    exact pure _
  | cons x xs ih =>
    rw [List.mapM_cons]
    exact (hf x).bind fun _ => ih.bind fun _ => pure _

/-- An object type is put on the stack before, and taken off after. -/
theorem within {x : LayoutM α} {canon type : Nat} {r : Registry} (henter : R r (r.enter canon type)) [Trans R R R]
    (hx : Along R x) (hleave : ∀ r', R r' (r'.leave canon)) : R r ((Registry.within canon type x).run.run r).2 := by
  rw [run_within]
  exact Trans.trans (Trans.trans henter (hx _)) (hleave _)

end Along

/-- The computation only adds layouts. -/
abbrev Adds {α : Type} (act : LayoutM α) : Prop := Along Extends act

theorem adds_layoutOfShape (types : Ty.Interner) (type canon : Nat) (specs : List FieldSpec) :
    Adds (layoutOfShape types type canon specs) := by
  refine .get_bind fun r => ?_
  split
  · exact .of_eq rfl rfl
  · exact (extends_install r _ _ _ _).trans (.of_eq rfl rfl)

theorem adds_from (types : Ty.Interner) (depth : Nat) :
    ∀ type, Adds (resolveFrom types depth type) ∧ Adds (layoutFrom types depth type) := by
  induction depth with
  | zero =>
    intro type
    rw [resolveFrom, layoutFrom]
    exact ⟨.throw _, .throw _⟩
  | succ depth ih =>
    intro type
    rw [resolveFrom, layoutFrom]
    constructor
    · split
      case h_7 => exact (ih type).2.bind fun _ => .pure _
      all_goals first | exact .pure _ | exact .throw _
    · refine .get_bind fun r => ?_
      split
      · exact .refl r
      split
      case h_2 => exact .refl r
      split
      · exact .refl r
      · exact Along.within (.of_eq rfl rfl) ((Along.mapM (fun _ => (ih _).1.bind fun _ => .pure _) _).bind
          fun specs => adds_layoutOfShape types _ _ specs) fun _ => .of_eq rfl rfl

theorem adds_resolve (types : Ty.Interner) (type : Nat) : Adds (resolve types type) := (adds_from types _ type).1

/-- Only the type without values is represented by nothing. -/
theorem resolved?_of_resolve {types : Ty.Interner} {type : Nat}
    (h : ((resolve types type).run.run r).1 = .ok .void) :
    types.resolved? type = some .void := by
  unfold resolve depthFor resolveFrom at h
  split at h
  · assumption
  case h_7 =>
    simp only [ExceptT.run_bind, StateT.run_bind] at h
    rcases hr : (layoutFrom types (2 * types.types.size + 3) type).run.run r with ⟨out, r'⟩
    rw [hr] at h
    cases out <;> cases h
  all_goals cases h

end TypedScript.Layout.Registry
