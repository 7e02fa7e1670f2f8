import Mathlib.Data.List.Forall2
import Mathlib.Data.List.Nodup
import Mathlib.Data.List.Perm.Subperm
import TypedScript.Layout.Registry
import TypedScript.Proofs.Layout.Numbered
import TypedScript.Proofs.Ty.Interned

/-!
# What a registry knows

A type that is no object type is represented by a value of fixed size, if it is represented at all. An object type
has a layout only if its properties are represented; an object type that is met again among its own properties has
none.

Whatever is noted in a registry leads to a layout that fits, and stays: the layouts of object types are made from
the representations of their properties, of which those that are objects have layouts with smaller tags.

* `IsSized`: the types that are represented.
* `IsSized.not_contains`: such a type is not met below itself.
* `Settled`: the invariant. While fields are being resolved it also says of which object types.
* `Grows`: what becomes of a registry.
* `Leads`: a computation keeps the invariant; with one rule for each way to put computations together.
* `leads_from`: resolving a type fails exactly if the type is not represented.
-/

namespace TypedScript.Layout

open Ty

/-! ### Types of finite size -/

section

variable {types : Interner} {canon type : Nat}

/-- The representation of a type that is no object type, if it has one. -/
def flatRep? (types : Interner) (type : Nat) : Option Rep :=
  match types.resolved? type with
  | some .void => some .void
  | some .bool => some .bool
  | some .number => some .float
  | some (.int width) => some (.int width)
  | some .string => some (.string type)
  | some (.func ..) => some (.func (types.unalias type))
  | _ => none

theorem flatRep?_object {props : List (String × Nat)} (h : types.resolved? type = some (.object props)) :
    flatRep? types type = none := by
  simp [flatRep?, h]

/-- The type is represented: its own structure is, and if it is an object type, so are those of its properties,
and so on. -/
inductive IsSized (types : Interner) : Nat → Prop
  | flat {type : Nat} {rep : Rep} : flatRep? types type = some rep → IsSized types type
  | object {type : Nat} {props : List (String × Nat)} : types.resolved? type = some (.object props) →
      (∀ p ∈ props, IsSized types p.2) → IsSized types type

/-- The type is met below the object type with number `canon`: as the type of one of its properties, or below
that. -/
inductive Contains (types : Interner) (canon : Nat) : Nat → Prop
  | prop {props : List (String × Nat)} {p : String × Nat} : types.lookup? canon = some (.object props) → p ∈ props →
      Contains types canon p.2
  | deeper {type : Nat} {props : List (String × Nat)} {p : String × Nat} : Contains types canon type →
      types.resolved? type = some (.object props) → p ∈ props → Contains types canon p.2

/-- The first step on the way to what is met below a type. -/
theorem Contains.head (h : Contains types canon type) : ∃ props p, types.lookup? canon = some
    (.object props) ∧ p ∈ props ∧ (p.2 = type ∨ Contains types (types.unalias p.2) type) := by
  induction h with
  | @prop props p hprops hp => exact ⟨props, p, hprops, hp, .inl rfl⟩
  | @deeper type props p _ hprops hp ih =>
    obtain ⟨props', p', hprops', hp', hmet⟩ := ih
    refine ⟨props', p', hprops', hp', .inr ?_⟩
    rcases hmet with rfl | hmet
    · exact .prop hprops hp
    · exact .deeper hmet hprops hp

/-- A type that is represented is not met below itself. -/
theorem IsSized.not_contains (h : IsSized types type) : ¬ Contains types (types.unalias type) type := by
  induction h with
  | flat hflat =>
    intro hself
    obtain ⟨props, p, hprops, -⟩ := hself.head
    rw [flatRep?_object hprops] at hflat
    cases hflat
  | @object type props hprops _ ih =>
    intro hself
    obtain ⟨props', p, hprops', hp, hmet⟩ := hself.head
    have heq : props = props' := by
      have hsome : some (Ty.object props) = some (.object props') := hprops.symm.trans hprops'
      simpa using hsome
    subst heq
    apply ih p hp
    rcases hmet with heq | hmet
    · exact .prop (heq ▸ hprops) hp
    · exact .deeper hmet hprops hp

/-- The properties of an object type that is represented are. -/
theorem IsSized.prop (h : IsSized types type) {props : List (String × Nat)}
    (hprops : types.resolved? type = some (.object props)) {p : String × Nat} (hp : p ∈ props) :
    IsSized types p.2 := by
  cases h with
  | flat hflat =>
    rw [flatRep?_object hprops] at hflat
    cases hflat
  | object hprops' hsized =>
    have hsome := hprops.symm.trans hprops'
    simp only [Option.some.injEq, Ty.object.injEq] at hsome
    exact hsized p (hsome ▸ hp)

/-- Only types that have a structure of their own, or that of an object, are represented. -/
theorem IsSized.isSome (h : IsSized types type) :
    (flatRep? types type).isSome ∨ ∃ props, types.resolved? type = some (.object props) := by
  cases h with
  | flat hflat => exact .inl (by rw [hflat]; rfl)
  | object hprops _ => exact .inr ⟨_, hprops⟩

/-- An alias is represented if what it stands for is. -/
theorem isSized_unalias {props : List (String × Nat)} (hprops : types.resolved? type = some (.object props)) :
    IsSized types (types.unalias type) ↔ IsSized types type := by
  have hcanon : types.resolved? (types.unalias type) = some (.object props) :=
    Interner.resolved?_of_lookup? hprops nofun
  constructor
  · intro h
    exact .object hprops fun p hp => h.prop hcanon hp
  · intro h
    exact .object hcanon fun p hp => h.prop hprops hp

end

namespace Registry

variable {types : Interner} {r r' r'' : Registry} {d : Descriptor} {type canon : Nat} {rep : Rep} {α β : Type}

/-! ### The invariant -/

/-- The representation of a type. That of an object type refers to the layout that is noted for it. -/
inductive Represents (types : Interner) (r : Registry) (type : Nat) : Rep → Prop
  | flat {rep : Rep} : flatRep? types type = some rep → Represents types r type rep
  | object {props : List (String × Nat)} {d : Descriptor} : types.resolved? type = some
      (.object props) → d ∈ r.all →
      r.byType.lookup (types.unalias type) = some d.tag → Represents types r type (.object (some d.ref) type)

/-- The field stands for the property. -/
def Stands (types : Interner) (r : Registry) (p : String × Nat) (s : FieldSpec) : Prop :=
  s.name = p.1 ∧ Represents types r p.2 s.rep

/-- The layout with the tag was made for an object type with the given fields. -/
def MadeOf (types : Interner) (r : Registry) (tag : Int) (specs : List FieldSpec) : Prop :=
  ∃ name type props, types.lookup? type = some (.object props) ∧ List.Forall₂ (Stands types r) props specs ∧
    ({ build r.target tag name .object specs with type } : Descriptor) ∈ r.all

/-- The layout with the tag was made for an object type with the given shape. -/
def Keyed (types : Interner) (r : Registry) (key : String) (tag : Int) : Prop :=
  ∃ specs, shapeKey specs = key ∧ MadeOf types r tag specs

/-- The layout with the tag was made for an object type with the shape of this one. -/
structure Fitting (types : Interner) (r : Registry) (canon : Nat) (tag : Int) : Prop where
  sized : IsSized types canon
  shape : ∃ props specs, types.lookup? canon = some (.object props) ∧ List.Forall₂ (Stands types r) props specs ∧
    Keyed types r (shapeKey specs) tag

/-- The layout was made for an object type, for which it is still noted, and refers only to layouts made before. -/
structure Rooted (r : Registry) (d : Descriptor) : Prop where
  noted : r.byType.lookup d.type = some d.tag
  below : ∀ f ∈ d.fields, ∀ l, f.rep.layout? = some l → ∃ e ∈ r.all, e.ref = l ∧ e.tag < d.tag

/-- What is noted leads to layouts that fit. The object types on the index are without a layout. -/
structure Settled (types : Interner) (r : Registry) : Prop where
  numbered : r.IsNumbered
  byType : ∀ canon tag, r.byType.lookup canon = some tag → Fitting types r canon tag
  byShape : ∀ key tag, r.byShape.lookup key = some tag → Keyed types r key tag
  scopes : ∀ key tag, r.scopes.lookup key = some tag → r.Has tag
  rooted : ∀ d ∈ r.all, d.kind = .object → Rooted r d
  nodup : (r.index.map (·.1)).Nodup
  pending : ∀ c ∈ r.index.map (·.1), r.byType.lookup c = none ∧ ∃ props, types.lookup? c = some (.object props)

theorem MadeOf.has {tag : Int} {specs : List FieldSpec} (h : MadeOf types r tag specs) : r.Has tag := by
  obtain ⟨name, type, props, -, -, hmem⟩ := h
  exact ⟨_, hmem, rfl⟩

theorem Fitting.has {tag : Int} (h : Fitting types r canon tag) : r.Has tag := by
  obtain ⟨props, specs, -, -, specs', -, hmade⟩ := h.shape
  exact hmade.has

theorem Settled.ofTarget (types : Interner) (t : Target) : Settled types (ofTarget t) where
  numbered := ofTarget_isNumbered t
  byType _ _ h := by cases h
  byShape _ _ h := by cases h
  scopes _ _ h := by cases h
  rooted d hd hkind := by
    obtain rfl := List.mem_singleton.1 hd
    cases hkind
  nodup := List.nodup_nil
  pending _ h := by cases h

theorem IsNumbered.descriptor? (h : r.IsNumbered) (hd : d ∈ r.all) : r.descriptor? d.tag = some d := by
  cases hfound : r.descriptor? d.tag with
  | none =>
    have hnone := List.find?_eq_none.1 hfound d hd
    simp at hnone
  | some d' =>
    have htag : d'.tag = d.tag := by simpa using List.find?_some hfound
    rw [h.eq_of_tag (mem_of_descriptor? hfound) hd htag]

theorem IsNumbered.tag_le (h : r.IsNumbered) (hd : d ∈ r.all) : d.tag ≤ r.all.length := by
  obtain ⟨i, hi⟩ := List.mem_iff_getElem?.1 hd
  have hlt := (List.getElem?_eq_some_iff.1 hi).1
  have htag := h.tag i d hi
  omega

/-- A note leads to its layout. -/
theorem Settled.bind_descriptor? (h : Settled types r) (hd : d ∈ r.all)
    (hnoted : r.byType.lookup canon = some d.tag) :
    (r.byType.lookup canon).bind r.descriptor? = some d := by
  rw [hnoted, Option.bind_some, h.numbered.descriptor? hd]

/-! ### Growing -/

/-- Layouts have been added, and notes of them; the stack is as it was. -/
structure Grows (r r' : Registry) : Prop where
  target : r'.target = r.target
  all : r.all <+: r'.all
  byType : ∀ canon tag, r.byType.lookup canon = some tag → r'.byType.lookup canon = some tag
  scopes : ∀ key tag, r.scopes.lookup key = some tag → r'.scopes.lookup key = some tag
  stack : r'.stack = r.stack
  index : r'.index = r.index

theorem Grows.refl (r : Registry) : Grows r r := ⟨rfl, List.prefix_rfl, fun _ _ => id, fun _ _ => id, rfl, rfl⟩

theorem Grows.trans (h : Grows r r') (h' : Grows r' r'') : Grows r r'' where
  target := h'.target.trans h.target
  all := h.all.trans h'.all
  byType canon tag hnoted := h'.byType canon tag (h.byType canon tag hnoted)
  scopes key tag hnoted := h'.scopes key tag (h.scopes key tag hnoted)
  stack := h'.stack.trans h.stack
  index := h'.index.trans h.index

/-- A representation stays what it is when layouts are added. -/
theorem Represents.mono (h : Represents types r type rep) (hall : r.all ⊆ r'.all)
    (hnoted : ∀ canon tag, r.byType.lookup canon = some tag → r'.byType.lookup canon = some tag) :
    Represents types r' type rep := by
  cases h with
  | flat hflat => exact .flat hflat
  | object hprops hd hlookup => exact .object hprops (hall hd) (hnoted _ _ hlookup)

theorem Stands.mono {props : List (String × Nat)} {specs : List FieldSpec}
    (h : List.Forall₂ (Stands types r) props specs) (hall : r.all ⊆ r'.all)
    (hnoted : ∀ canon tag, r.byType.lookup canon = some tag → r'.byType.lookup canon = some tag) :
    List.Forall₂ (Stands types r') props specs := h.imp fun _ _ hs => ⟨hs.1, hs.2.mono hall hnoted⟩

theorem MadeOf.mono {tag : Int} {specs : List FieldSpec} (h : MadeOf types r tag specs) (hall : r.all ⊆ r'.all)
    (htarget : r'.target = r.target)
    (hnoted : ∀ canon tag, r.byType.lookup canon = some tag → r'.byType.lookup canon = some tag) :
    MadeOf types r' tag specs := by
  obtain ⟨name, type, props, hprops, hstands, hmem⟩ := h
  exact ⟨name, type, props, hprops, Stands.mono hstands hall hnoted, htarget ▸ hall hmem⟩

theorem Keyed.mono {key : String} {tag : Int} (h : Keyed types r key tag) (hall : r.all ⊆ r'.all)
    (htarget : r'.target = r.target)
    (hnoted : ∀ canon tag, r.byType.lookup canon = some tag → r'.byType.lookup canon = some tag) :
    Keyed types r' key tag := by
  obtain ⟨specs, hkey, hmade⟩ := h
  exact ⟨specs, hkey, hmade.mono hall htarget hnoted⟩

theorem Fitting.mono {tag : Int} (h : Fitting types r canon tag) (hall : r.all ⊆ r'.all)
    (htarget : r'.target = r.target)
    (hnoted : ∀ canon tag, r.byType.lookup canon = some tag → r'.byType.lookup canon = some tag) :
    Fitting types r' canon tag := by
  obtain ⟨props, specs, hprops, hstands, hkeyed⟩ := h.shape
  have hstands' := Stands.mono hstands hall hnoted
  exact ⟨h.sized, props, specs, hprops, hstands', hkeyed.mono hall htarget hnoted⟩

theorem Rooted.mono (h : Rooted r d) (hall : r.all ⊆ r'.all)
    (hnoted : ∀ canon tag, r.byType.lookup canon = some tag → r'.byType.lookup canon = some tag) : Rooted r' d where
  noted := hnoted _ _ h.noted
  below f hf l hl := by
    obtain ⟨e, he, href, hlt⟩ := h.below f hf l hl
    exact ⟨e, hall he, href, hlt⟩

/-- A new note does not hide others. -/
theorem lookup_cons_of_none {γ : Type} [BEq γ] [LawfulBEq γ] {l : List (γ × Int)} {k k' : γ} {tag tag' : Int}
    (hnew : l.lookup k = none) (h : l.lookup k' = some tag) : ((k, tag') :: l).lookup k' = some tag := by
  have hne : k' ≠ k := by
    rintro rfl
    rw [hnew] at h
    cases h
  rwa [List.lookup_cons, beq_false_of_ne hne]

/-! ### Computations -/

theorem run_bind_ok {x : LayoutM α} (f : α → LayoutM β) {a : α} (h : (x.run.run r).1 = .ok a) :
    (x >>= f).run.run r = (f a).run.run (x.run.run r).2 := by
  simp only [ExceptT.run_bind, StateT.run_bind]
  rcases hrun : x.run.run r with ⟨out, r'⟩
  rw [hrun] at h
  cases h
  rfl

theorem run_bind_error {x : LayoutM α} (f : α → LayoutM β) {e : Error} (h : (x.run.run r).1 = .error e) :
    (x >>= f).run.run r = (.error e, (x.run.run r).2) := by
  simp only [ExceptT.run_bind, StateT.run_bind]
  rcases hrun : x.run.run r with ⟨out, r'⟩
  rw [hrun] at h
  cases h
  rfl

/-- From `r` the computation leads to a settled registry. It gives a result with the property `Q`, or fails and
`E` holds. -/
structure Leads (types : Interner) (r : Registry) (act : LayoutM α) (Q : Registry → α → Prop)
    (E : Prop) : Prop where
  grows : Grows r (act.run.run r).2
  settled : Settled types (act.run.run r).2
  ok : ∀ a, (act.run.run r).1 = .ok a → Q (act.run.run r).2 a
  error : ∀ e, (act.run.run r).1 = .error e → E

namespace Leads

variable {Q Q' : Registry → α → Prop} {P : Registry → β → Prop} {E E' : Prop}

theorem imp {act : LayoutM α} (h : Leads types r act Q E) (hQ : ∀ r' a, Q r' a → Q' r' a) (hE : E → E') :
    Leads types r act Q' E' :=
  ⟨h.grows, h.settled, fun a ha => hQ _ a (h.ok a ha), fun e he => hE (h.error e he)⟩

theorem pure (h : Settled types r) {a : α} (ha : Q r a) : Leads types r (pure a) Q E where
  grows := .refl r
  settled := h
  ok a' heq := by
    cases heq
    exact ha
  error e heq := by cases heq

theorem throw (h : Settled types r) (e : Error) (he : E) : Leads types r (throw e : LayoutM α) Q E where
  grows := .refl r
  settled := h
  ok a heq := by cases heq
  error _ _ := he

theorem bind {x : LayoutM α} {f : α → LayoutM β} (hx : Leads types r x Q E)
    (hf : ∀ r' a, Grows r r' → Settled types r' → Q r' a → Leads types r' (f a) P E) : Leads types r
    (x >>= f) P E := by
  cases hout : (x.run.run r).1 with
  | ok a =>
    have hthen := hf _ a hx.grows hx.settled (hx.ok a hout)
    have hrun := run_bind_ok f hout
    exact ⟨hrun ▸ hx.grows.trans hthen.grows, hrun ▸ hthen.settled, hrun ▸ hthen.ok, hrun ▸ hthen.error⟩
  | error e =>
    have hrun := run_bind_error f hout
    have hnone : ∀ b, (Except.error e : Except Error β) ≠ .ok b := fun b hb => by cases hb
    exact ⟨hrun ▸ hx.grows, hrun ▸ hx.settled, hrun ▸ fun b hb => absurd hb (hnone b), fun _ _ => hx.error e hout⟩

/-- The registry is read. -/
theorem get_bind {f : Registry → LayoutM α} (h : Leads types r (f r) Q E) : Leads types r (get >>= f) Q E :=
  ⟨h.grows, h.settled, h.ok, h.error⟩

/-- The computation is made for each element, and what it gives stays right when the registry grows. The induction
is on the list. -/
theorem mapM {f : β → LayoutM α} {R : Registry → β → α → Prop} {xs : List β} (h : Settled types r)
    (hmono : ∀ r' r'' x a, Grows r' r'' → R r' x a → R r'' x a)
    (hf : ∀ x ∈ xs, ∀ r', Grows r r' → Settled types r' → Leads types r' (f x) (fun r'' a => R r'' x a) E) :
    Leads types r (xs.mapM f) (fun r' as => List.Forall₂ (R r') xs as) E := by
  induction xs generalizing r with
  | nil =>
    rw [List.mapM_nil]
    exact .pure h .nil
  | cons x xs ih =>
    rw [List.mapM_cons]
    have hhead := hf x List.mem_cons_self r (.refl r) h
    refine hhead.bind fun r₁ a hgrows hsettled ha => ?_
    have htail := ih hsettled fun y hy r' hr' hs => hf y (List.mem_cons_of_mem x hy) r' (hgrows.trans hr') hs
    exact htail.bind fun r₂ as hgrows' hsettled' has => .pure hsettled' (.cons (hmono r₁ r₂ x a hgrows' ha) has)

end Leads

/-! ### Object types on the stack -/

theorem enter_leave (hoff : r.index.lookup canon = none) (hgrows : Grows (r.enter canon type) r') :
    (r'.leave canon).stack = r.stack ∧ (r'.leave canon).index = r.index := by
  constructor
  · show r'.stack.dropLast = r.stack
    rw [hgrows.stack]
    exact List.dropLast_concat
  · show r'.index.filter _ = r.index
    rw [hgrows.index]
    exact filter_index hoff

theorem notMem_index (hoff : r.index.lookup canon = none) : canon ∉ r.index.map (·.1) := by
  intro hmem
  obtain ⟨p, hp, heq⟩ := List.mem_map.1 hmem
  have hne := List.lookup_eq_none_iff.1 hoff p hp
  simp [heq] at hne

theorem Settled.enter (h : Settled types r) (hoff : r.index.lookup canon = none)
    (hnew : r.byType.lookup canon = none) {props : List (String × Nat)}
    (hprops : types.lookup? canon = some (.object props)) (type : Nat) :
    Settled types (r.enter canon type) where
  numbered := ⟨h.numbered.tag, h.numbered.closure⟩
  byType c tag hnoted := (h.byType c tag hnoted).mono (List.Subset.refl _) rfl fun _ _ => id
  byShape key tag hkey := (h.byShape key tag hkey).mono (List.Subset.refl _) rfl fun _ _ => id
  scopes := h.scopes
  rooted d hd hkind := (h.rooted d hd hkind).mono (List.Subset.refl _) fun _ _ => id
  nodup := List.nodup_cons.2 ⟨notMem_index hoff, h.nodup⟩
  pending c hc := by
    rcases List.mem_cons.1 hc with rfl | hc
    · exact ⟨hnew, props, hprops⟩
    · exact h.pending c hc

/-- The object type that was entered last is left without a layout. -/
theorem Settled.leave (h : Settled types r) (canon : Nat) : Settled types (r.leave canon) where
  numbered := ⟨h.numbered.tag, h.numbered.closure⟩
  byType c tag hnoted := (h.byType c tag hnoted).mono (List.Subset.refl _) rfl fun _ _ => id
  byShape key tag hkey := (h.byShape key tag hkey).mono (List.Subset.refl _) rfl fun _ _ => id
  scopes := h.scopes
  rooted d hd hkind := (h.rooted d hd hkind).mono (List.Subset.refl _) fun _ _ => id
  nodup := (List.filter_sublist.map _).nodup h.nodup
  pending c hc := h.pending c ((List.filter_sublist.map _).subset hc)

/-! ### A layout for a shape -/

theorem layout?_of_flatRep? (h : flatRep? types type = some rep) : rep.layout? = none := by
  unfold flatRep? at h
  split at h <;> first | (cases h; rfl) | cases h

/-- Fields keep the representations that they were given. -/
theorem exists_spec_of_mem_place {t : Target} {slot offset : Nat} {specs : List FieldSpec} {f : Field}
    (h : f ∈ (place t slot offset specs).1) : ∃ s ∈ specs, s.rep = f.rep := by
  induction specs generalizing slot offset with
  | nil => cases h
  | cons s rest ih =>
    simp only [place, List.mem_cons] at h
    rcases h with rfl | h
    · exact ⟨s, List.mem_cons_self, rfl⟩
    · obtain ⟨s', hs', hrep⟩ := ih h
      exact ⟨s', List.mem_cons_of_mem s hs', hrep⟩

theorem exists_spec_of_mem_build {t : Target} {tag : Int} {name : String} {kind : Kind}
    {specs : List FieldSpec} {f : Field} (h : f ∈ (build t tag name kind specs).fields) : ∃ s ∈ specs,
    s.rep = f.rep := by
  obtain ⟨s, hs, hrep⟩ := exists_spec_of_mem_place h
  exact ⟨s, (Order.sorted_perm _ specs).mem_iff.1 hs, hrep⟩

/-- Fields that stand for properties refer to layouts that there are. -/
theorem exists_layout_of_stands {props : List (String × Nat)} {specs : List FieldSpec}
    (h : List.Forall₂ (Stands types r) props specs) {s : FieldSpec} (hs : s ∈ specs) {l : LayoutRef}
    (hl : s.rep.layout? = some l) : ∃ e ∈ r.all, e.ref = l := by
  induction h with
  | nil => cases hs
  | @cons p s' props specs hp _ ih =>
    rcases List.mem_cons.1 hs with rfl | hs
    · obtain ⟨-, hrep⟩ := hp
      generalize hr : s.rep = rep at hrep hl
      cases hrep with
      | flat hflat =>
        rw [layout?_of_flatRep? hflat] at hl
        cases hl
      | object _ hd _ => exact ⟨_, hd, Option.some.inj hl⟩
    · exact ih hs

/-- A layout is noted for the object type that was entered last, which is left. -/
theorem Settled.note (h : Settled types r) (hnew : r.byType.lookup canon = none) (hgrows : Grows r r')
    (hnumbered : r'.IsNumbered) (hbyType : r'.byType = (canon, d.tag) :: r.byType) (hscopes : r'.scopes = r.scopes)
    (hd : Fitting types r' canon d.tag)
    (hshapes : ∀ key tag, r'.byShape.lookup key = some tag → r.byShape.lookup key = some tag ∨
    Keyed types r' key tag) (hrooted : ∀ e ∈ r'.all, e.kind = .object → e ∈ r.all ∨ Rooted r' e) : Settled types
      (r'.leave canon) := by
  have hsubset : r.all ⊆ (r'.leave canon).all := hgrows.all.subset
  have hkept : ∀ c tag, r.byType.lookup c = some tag → (r'.leave canon).byType.lookup c = some tag := hgrows.byType
  constructor
  case numbered => exact ⟨hnumbered.tag, hnumbered.closure⟩
  case byType =>
    intro c tag hc
    change r'.byType.lookup c = some tag at hc
    rw [hbyType, List.lookup_cons] at hc
    split at hc
    · rename_i heq
      obtain rfl := beq_iff_eq.1 heq
      obtain rfl := Option.some.inj hc
      exact hd.mono (List.Subset.refl _) rfl fun _ _ => id
    · exact (h.byType c tag hc).mono hsubset hgrows.target hkept
  case byShape =>
    intro key tag hkey
    rcases hshapes key tag hkey with hold | hkeyed
    · exact (h.byShape key tag hold).mono hsubset hgrows.target hkept
    · exact hkeyed.mono (List.Subset.refl _) rfl fun _ _ => id
  case scopes =>
    intro key tag hkey
    change r'.scopes.lookup key = some tag at hkey
    rw [hscopes] at hkey
    obtain ⟨e, he, htag⟩ := h.scopes key tag hkey
    exact ⟨e, hsubset he, htag⟩
  case rooted =>
    intro e he hkind
    rcases hrooted e he hkind with hold | hroot
    · exact (h.rooted e hold hkind).mono hsubset hkept
    · exact hroot.mono (List.Subset.refl _) fun _ _ => id
  case nodup =>
    have hsub : (r'.leave canon).index.Sublist r.index := by
      rw [← hgrows.index]
      exact List.filter_sublist
    exact (hsub.map _).nodup h.nodup
  case pending =>
    intro c hc
    obtain ⟨p, hp, rfl⟩ := List.mem_map.1 hc
    obtain ⟨hp, hne⟩ := List.mem_filter.1 hp
    have hne : p.1 ≠ canon := of_decide_eq_true hne
    rw [hgrows.index] at hp
    obtain ⟨hnone, hprops⟩ := h.pending p.1 (List.mem_map_of_mem hp)
    refine ⟨?_, hprops⟩
    change r'.byType.lookup p.1 = none
    rw [hbyType, List.lookup_cons, beq_false_of_ne hne]
    exact hnone

theorem run_get_bind (f : Registry → LayoutM α) (r : Registry) : (get >>= f).run.run r = (f r).run.run r := rfl

/-- The layout of a shape that is there is noted for the type. -/
theorem run_layoutOfShape_of_some (types : Interner) (type canon : Nat) {specs : List FieldSpec}
    (h : (r.byShape.lookup (shapeKey specs)).bind r.descriptor? = some d) :
    (layoutOfShape types type canon specs).run.run r =
    (.ok d, { r with byType := (canon, d.tag) :: r.byType }) := by
  unfold layoutOfShape
  rw [run_get_bind]
  dsimp only
  rw [h]
  rfl

/-- A layout is made for a new shape, and noted for it and for the type. -/
theorem run_layoutOfShape_of_none (types : Interner) (type canon : Nat) {specs : List FieldSpec}
    (h : (r.byShape.lookup (shapeKey specs)).bind r.descriptor? = none) : ∃ name unnamed d,
      d = ({ build r.target (r.all.length + 1) name .object specs with type := canon } : Descriptor) ∧
      (layoutOfShape types type canon specs).run.run r =
        (.ok d, { r with
          all := r.all ++ [d], byType := (canon, d.tag) :: r.byType, byShape :=
            (shapeKey specs, d.tag) :: r.byShape,
          unnamed }) := by
  unfold layoutOfShape
  rw [run_get_bind]
  dsimp only
  rw [h]
  exact ⟨_, _, _, rfl, rfl⟩

/-- What is known of an object type whose properties have been resolved. -/
structure IsResolved (types : Ty.Interner) (r : Registry) (canon : Nat) (props : List (String × Nat))
    (specs : List FieldSpec) : Prop where
  opened : canon ∈ r.index.map (·.1)
  sized : IsSized types canon
  lookup : types.lookup? canon = some (.object props)
  stands : List.Forall₂ (Stands types r) props specs

section

variable {props : List (String × Nat)} {specs : List FieldSpec}

/-- An object type of a known shape takes the layout of that shape. -/
theorem settled_layoutOfShape_shared (h : Settled types r) (hres : IsResolved types r canon props specs)
    (type : Nat) {d : Descriptor} (hfound : (r.byShape.lookup (shapeKey specs)).bind r.descriptor? = some d) :
    ∃ r', (layoutOfShape types type canon specs).run.run r = (.ok d, r') ∧ Grows r r' ∧
      Settled types (r'.leave canon) ∧ d ∈ r'.all ∧ r'.byType.lookup canon = some d.tag := by
  obtain ⟨hnew, -⟩ := h.pending canon hres.opened
  obtain ⟨tag, htag, hd⟩ := Option.bind_eq_some_iff.1 hfound
  have hkeyed := h.byShape _ tag htag
  obtain rfl : d.tag = tag := by simpa using List.find?_some hd
  have hrun := run_layoutOfShape_of_some types type canon hfound
  have hgrows : Grows r { r with byType := (canon, d.tag) :: r.byType } :=
    ⟨rfl, List.prefix_rfl, fun _ _ => lookup_cons_of_none hnew, fun _ _ => id, rfl, rfl⟩
  have hfit : Fitting types { r with byType := (canon, d.tag) :: r.byType } canon d.tag :=
    ⟨hres.sized, props, specs, hres.lookup, Stands.mono hres.stands hgrows.all.subset hgrows.byType,
      hkeyed.mono hgrows.all.subset hgrows.target hgrows.byType⟩
  have hsettled := h.note hnew hgrows ⟨h.numbered.tag, h.numbered.closure⟩ rfl rfl hfit (fun _ _ => .inl)
    fun _ he _ => .inl he
  exact ⟨_, hrun, hgrows, hsettled, mem_of_descriptor? hd, List.lookup_cons_self⟩

/-- An object type of a new shape gets a layout of its own, in which it stands on layouts before it. -/
theorem settled_layoutOfShape_made (h : Settled types r) (hres : IsResolved types r canon props specs)
    (type : Nat) (hfound : (r.byShape.lookup (shapeKey specs)).bind r.descriptor? = none) :
    ∃ d r', (layoutOfShape types type canon specs).run.run r = (.ok d, r') ∧ Grows r r' ∧
      Settled types (r'.leave canon) ∧ d ∈ r'.all ∧ r'.byType.lookup canon = some d.tag := by
  obtain ⟨hnew, -⟩ := h.pending canon hres.opened
  obtain ⟨name, unnamed, d, hd, hrun⟩ := run_layoutOfShape_of_none types type canon hfound
  have htag : d.tag = r.all.length + 1 := by rw [hd]; rfl
  have htype : d.type = canon := by rw [hd]
  have hfields : d.fields = (build r.target (r.all.length + 1) name .object specs).fields := by rw [hd]
  generalize hr' : ({ r with
    all := r.all ++ [d], byType := (canon, d.tag) :: r.byType, byShape := (shapeKey specs, d.tag) :: r.byShape,
    unnamed } : Registry) = r' at hrun
  have hgrows : Grows r r' := by
    subst hr'
    exact ⟨rfl, List.prefix_append _ _, fun _ _ => lookup_cons_of_none hnew, fun _ _ => id, rfl, rfl⟩
  have hmem : d ∈ r'.all := by
    subst hr'
    exact List.mem_append_right _ List.mem_cons_self
  have hstands := Stands.mono hres.stands hgrows.all.subset hgrows.byType
  have hmade : MadeOf types r' d.tag specs := by
    refine ⟨name, canon, props, hres.lookup, hstands, ?_⟩
    rw [hgrows.target, htag, ← hd]
    exact hmem
  have hnoted : r'.byType.lookup canon = some d.tag := by
    subst hr'
    exact List.lookup_cons_self
  have hfit : Fitting types r' canon d.tag :=
    ⟨hres.sized, props, specs, hres.lookup, hstands, specs, rfl, hmade⟩
  have hroot : Rooted r' d := by
    constructor
    case noted => rw [htype, hnoted]
    case below =>
      intro f hf l hl
      rw [hfields] at hf
      obtain ⟨s, hs, hrep⟩ := exists_spec_of_mem_build hf
      obtain ⟨e, he, href⟩ := exists_layout_of_stands hres.stands hs (hrep ▸ hl)
      have hle := h.numbered.tag_le he
      exact ⟨e, hgrows.all.subset he, href, by omega⟩
  have hnumbered : r'.IsNumbered := by
    have hinstall := (extends_install r name .object canon specs).numbered h.numbered
    have hall : (r.install name .object canon specs).1.all = r.all ++ [d] := by rw [hd]; rfl
    subst hr'
    exact ⟨fun i e he => hinstall.tag i e (by rw [hall]; exact he), List.mem_append_left _ h.numbered.closure⟩
  refine ⟨d, r', hrun, hgrows, ?_, hmem, hnoted⟩
  refine h.note hnew hgrows hnumbered ?_ ?_ hfit (fun key tag hkey => ?_) fun e he _ => ?_
  · subst hr'
    rfl
  · subst hr'
    rfl
  · subst hr'
    rw [List.lookup_cons] at hkey
    split at hkey
    · rename_i heq
      obtain rfl := beq_iff_eq.1 heq
      obtain rfl := Option.some.inj hkey
      exact .inr ⟨specs, rfl, hmade⟩
    · exact .inl hkey
  · subst hr'
    rcases List.mem_append.1 he with he | he
    · exact .inl he
    · obtain rfl := List.mem_singleton.1 he
      exact .inr hroot

/-- What becomes of a registry when a layout is made for an object type whose properties have been resolved. -/
theorem settled_layoutOfShape (h : Settled types r) (hres : IsResolved types r canon props specs) (type : Nat) :
    ∃ d r', (layoutOfShape types type canon specs).run.run r = (.ok d, r') ∧ Grows r r' ∧
      Settled types (r'.leave canon) ∧ d ∈ r'.all ∧ r'.byType.lookup canon = some d.tag := by
  cases hfound : (r.byShape.lookup (shapeKey specs)).bind r.descriptor? with
  | some d => exact ⟨d, settled_layoutOfShape_shared h hres type hfound⟩
  | none => exact settled_layoutOfShape_made h hres type hfound

end

/-! ### Resolving types -/

theorem resolveFrom_flat (depth : Nat) (h : flatRep? types type = some rep) :
    resolveFrom types (depth + 1) type = pure rep := by
  unfold flatRep? at h
  unfold resolveFrom
  split at h <;> first | (rename_i heq; rw [heq]; cases h; rfl) | cases h

theorem resolveFrom_object (depth : Nat) {props : List (String × Nat)}
    (h : types.resolved? type = some (.object props)) :
    resolveFrom types (depth + 1) type = (do
      let d ← layoutFrom types depth type
      return .object (some d.ref) type) := by
  unfold resolveFrom
  rw [h]

theorem resolveFrom_other (depth : Nat) (hflat : flatRep? types type = none)
    (hobject : ∀ props, types.resolved? type ≠ some (.object props)) :
    resolveFrom types (depth + 1) type = throw (.notStructural type (types.render type)) := by
  unfold flatRep? at hflat
  unfold resolveFrom
  split <;> first | rfl | (rename_i heq; simp [heq] at hflat hobject)

/-- What is represented is of finite size. -/
theorem Represents.isSized (h : Represents types r type rep) (hr : Settled types r) : IsSized types type := by
  cases h with
  | flat hflat => exact .flat hflat
  | object hprops _ hnoted => exact (isSized_unalias hprops).1 (hr.byType _ _ hnoted).sized

theorem isSized_of_stands (hr : Settled types r) {props : List (String × Nat)} {specs : List FieldSpec}
    (h : List.Forall₂ (Stands types r) props specs) : ∀ p ∈ props, IsSized types p.2 := by
  induction h with
  | nil => simp
  | cons hp _ ih =>
    intro q hq
    rcases List.mem_cons.1 hq with rfl | hq
    · exact hp.2.isSized hr
    · exact ih q hq

/-- The object types on the index are different types that there are. -/
theorem Settled.length_index_le (h : Settled types r) : r.index.length ≤ types.types.size := by
  have hsubset : r.index.map (·.1) ⊆ List.range' 1 types.types.size := by
    intro c hc
    obtain ⟨-, props, hprops⟩ := h.pending c hc
    have hne : c ≠ 0 := by
      rintro rfl
      cases hprops
    have hlt := (Array.getElem?_eq_some_iff.1 (Interner.getElem?_of_lookup? hprops)).1
    rw [List.mem_range'_1]
    omega
  have hle := (List.subperm_of_subset h.nodup hsubset).length_le
  simpa using hle

/-- Resolving a type down to a depth. What is on the index contains the type. -/
structure Resolves (types : Interner) (depth : Nat) : Prop where
  resolve : ∀ r type, Settled types r → 2 * types.types.size + 2 ≤ depth + 2 * r.index.length →
    (∀ c ∈ r.index.map (·.1), Contains types c type) →
    Leads types r (resolveFrom types depth type) (fun r' rep => Represents types r' type rep) (¬ IsSized types type)
  layout : ∀ r type props, Settled types r → 2 * types.types.size + 1 ≤ depth + 2 * r.index.length →
    (∀ c ∈ r.index.map (·.1), Contains types c type) → types.resolved? type = some (.object props) →
    Leads types r (layoutFrom types depth type)
      (fun r' d => d ∈ r'.all ∧ r'.byType.lookup (types.unalias type) = some d.tag) (¬ IsSized types type)

theorem Resolves.zero (types : Interner) : Resolves types 0 where
  resolve r type h hdepth _ := by
    have hle := h.length_index_le
    omega
  layout r type props h hdepth _ _ := by
    have hle := h.length_index_le
    omega

theorem Resolves.resolve_succ {depth : Nat} (h : Resolves types depth) (hr : Settled types r)
    (hdepth : 2 * types.types.size + 2 ≤ depth + 1 + 2 * r.index.length)
    (hindex : ∀ c ∈ r.index.map (·.1), Contains types c type) :
    Leads types r (resolveFrom types (depth + 1) type) (fun r' rep => Represents types r' type rep)
      (¬ IsSized types type) := by
  cases hflat : flatRep? types type with
  | some rep =>
    rw [resolveFrom_flat depth hflat]
    exact .pure hr (.flat hflat)
  | none =>
    by_cases hobject : ∃ props, types.resolved? type = some (.object props)
    · obtain ⟨props, hprops⟩ := hobject
      rw [resolveFrom_object depth hprops]
      have hlayout := h.layout r type props hr (by omega) hindex hprops
      exact hlayout.bind fun r' d _ hr' hd => .pure hr' (.object hprops hd.1 hd.2)
    · have hnone : ∀ props, types.resolved? type ≠ some (.object props) :=
        fun props hprops => hobject ⟨props, hprops⟩
      rw [resolveFrom_other depth hflat hnone]
      refine .throw hr _ fun hsized => ?_
      rcases hsized.isSome with hsome | hsome
      · rw [hflat] at hsome
        cases hsome
      · exact hobject hsome

/-- The properties of an object type are resolved while it is on the stack, and a layout is made for their
representations. -/
theorem Resolves.leads_within {depth : Nat} (h : Resolves types depth) (hr : Settled types r)
    (hdepth : 2 * types.types.size ≤ depth + 2 * r.index.length)
    (hindex : ∀ c ∈ r.index.map (·.1), Contains types c type) {props : List (String × Nat)}
    (hprops : types.resolved? type = some (.object props)) (hoff : r.index.lookup (types.unalias type) = none)
    (hnew : r.byType.lookup (types.unalias type) = none) :
    Leads types r
      (within (types.unalias type) type do
        let specs ← props.mapM fun p => return (⟨p.1, ← resolveFrom types depth p.2⟩ : FieldSpec)
        layoutOfShape types type (types.unalias type) specs)
      (fun r' d => d ∈ r'.all ∧ r'.byType.lookup (types.unalias type) = some d.tag) (¬ IsSized types type) := by
  have hentered := hr.enter hoff hnew hprops type
  have hfields : Leads types (r.enter (types.unalias type) type)
      (props.mapM fun p => return (⟨p.1, ← resolveFrom types depth p.2⟩ : FieldSpec))
      (fun r' specs => List.Forall₂ (Stands types r') props specs) (¬ IsSized types type) := by
    refine .mapM hentered (fun r' r'' p s hgrows hs => ⟨hs.1, hs.2.mono hgrows.all.subset hgrows.byType⟩) ?_
    intro p hp r' hgrows hr'
    have hbelow : ∀ c ∈ r'.index.map (·.1), Contains types c p.2 := by
      intro c hc
      rw [hgrows.index] at hc
      rcases List.mem_cons.1 hc with rfl | hc
      · exact .prop hprops hp
      · exact .deeper (hindex c hc) hprops hp
    have hlength : r'.index.length = r.index.length + 1 := by
      rw [hgrows.index]
      rfl
    have hresolve := (h.resolve r' p.2 hr' (by omega) hbelow).imp (fun _ _ => id)
      fun hnot (hsized : IsSized types type) =>
      hnot (hsized.prop hprops hp)
    exact hresolve.bind fun r'' rep _ hr'' hrep => .pure hr'' ⟨rfl, hrep⟩
  have hopen {r' : Registry} (hgrows : Grows (r.enter (types.unalias type) type) r') :
      types.unalias type ∈ r'.index.map (·.1) := by
    rw [hgrows.index]
    exact List.mem_cons_self
  have hback {r' : Registry} (hgrows : Grows (r.enter (types.unalias type) type) r') :
      Grows r (r'.leave (types.unalias type)) := by
    obtain ⟨hstack, hindex'⟩ := enter_leave hoff hgrows
    exact ⟨hgrows.target, hgrows.all, hgrows.byType, hgrows.scopes, hstack, hindex'⟩
  generalize hact : (props.mapM fun p => return (⟨p.1, ← resolveFrom types depth p.2⟩ : FieldSpec) :
    LayoutM (List FieldSpec)) = fields at hfields
  generalize hr₁ : (fields.run.run (r.enter (types.unalias type) type)).2 = r₁ at hfields
  have hgrows : Grows (r.enter (types.unalias type) type) r₁ := hr₁ ▸ hfields.grows
  have hsettled : Settled types r₁ := hr₁ ▸ hfields.settled
  cases hout : (fields.run.run (r.enter (types.unalias type) type)).1 with
  | error e =>
    have hrun : (within (types.unalias type) type
      (fields >>= layoutOfShape types type (types.unalias type))).run.run r =
        (.error e, r₁.leave (types.unalias type)) := by
      rw [run_within, run_bind_error _ hout, hr₁]
    refine ⟨hrun ▸ hback hgrows, hrun ▸ hsettled.leave _, fun d hd => ?_, fun _ _ => hfields.error e hout⟩
    rw [hrun] at hd
    cases hd
  | ok specs =>
    have hspecs : List.Forall₂ (Stands types r₁) props specs := hr₁ ▸ hfields.ok specs hout
    have hsized : IsSized types type := .object hprops (isSized_of_stands hsettled hspecs)
    obtain ⟨d, r₂, hmade, hgrows', hsettled', hmem, hnoted⟩ := settled_layoutOfShape hsettled
      ⟨hopen hgrows, (isSized_unalias hprops).2 hsized, hprops, hspecs⟩ type
    have hrun : (within (types.unalias type) type
      (fields >>= layoutOfShape types type (types.unalias type))).run.run r =
        (.ok d, r₂.leave (types.unalias type)) := by
      rw [run_within, run_bind_ok _ hout, hr₁, hmade]
    refine ⟨hrun ▸ hback (hgrows.trans hgrows'), hrun ▸ hsettled', fun d' hd' => ?_, fun e he => ?_⟩
    · rw [hrun] at hd'
      cases hd'
      rw [hrun]
      exact ⟨hmem, hnoted⟩
    · rw [hrun] at he
      cases he

theorem Resolves.layout_succ {depth : Nat} (h : Resolves types depth) (hr : Settled types r)
    (hdepth : 2 * types.types.size + 1 ≤ depth + 1 + 2 * r.index.length)
    (hindex : ∀ c ∈ r.index.map (·.1), Contains types c type) {props : List (String × Nat)}
    (hprops : types.resolved? type = some (.object props)) :
    Leads types r (layoutFrom types (depth + 1) type)
      (fun r' d => d ∈ r'.all ∧ r'.byType.lookup (types.unalias type) = some d.tag) (¬ IsSized types type) := by
  have hlookup : types.lookup? (types.unalias type) = some (.object props) := hprops
  unfold layoutFrom
  refine .get_bind ?_
  cases hfound : (r.byType.lookup (types.unalias type)).bind r.descriptor? with
  | some d =>
    obtain ⟨tag, htag, hd⟩ := Option.bind_eq_some_iff.1 hfound
    obtain rfl : d.tag = tag := by simpa using List.find?_some hd
    exact .pure hr ⟨mem_of_descriptor? hd, htag⟩
  | none =>
    dsimp only
    rw [hlookup]
    cases hoff : r.index.lookup (types.unalias type) with
    | some place =>
      -- the type is met below itself
      have hmem : types.unalias type ∈ r.index.map (·.1) := by
        by_contra hnot
        rw [List.lookup_eq_none_iff.2] at hoff
        · cases hoff
        · intro p hp
          exact bne_iff_ne.2 fun heq => hnot (heq ▸ List.mem_map_of_mem hp)
      exact .throw hr _ fun hsized => hsized.not_contains (hindex _ hmem)
    | none =>
      have hnew := lookup_eq_none (fun c tag htag => (hr.byType c tag htag).has) hfound
      exact h.leads_within hr (by omega) hindex hprops hoff hnew

/-- Resolving types keeps what a registry knows, and fails exactly for types that are not represented. The
induction is on the depth. -/
theorem Resolves.all (types : Interner) (depth : Nat) : Resolves types depth := by
  induction depth with
  | zero => exact .zero types
  | succ depth ih =>
    constructor
    · intro r type hr hdepth hindex
      exact ih.resolve_succ hr hdepth hindex
    · intro r type props hr hdepth hindex hprops
      exact ih.layout_succ hr hdepth hindex hprops

end Registry

end TypedScript.Layout
