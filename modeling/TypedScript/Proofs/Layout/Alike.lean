import TypedScript.Proofs.Layout.History
import TypedScript.Proofs.Layout.Shaped
import TypedScript.Proofs.Ty.Alike

/-!
# Layouts of types of one structure

An object that was built by one type may be used by any other type of the same structure. So the layouts of such
types have to put the same things in the same places, whatever the registries were asked before, and whether it is
one registry or two.

* `Interchangeable`: layouts by which objects can be used for one another, down to the objects in their fields.
* `interchangeable_layouts`: types of one structure have such layouts.
* `disturbs_of_not_plain`: not so if different shapes are written as one text.
-/

namespace TypedScript.Layout

/-- Fields in one place, under one name, for values of one kind and width. -/
structure Field.Agrees (f g : Field) : Prop where
  name : f.name = g.name
  slot : f.slot = g.slot
  offset : f.offset = g.offset
  rep : f.rep.bare = g.rep.bare

/-- Layouts of one size, with the same fields. -/
structure Descriptor.Agrees (d e : Descriptor) : Prop where
  size : d.size = e.size
  align : d.align = e.align
  fields : List.Forall₂ Field.Agrees d.fields e.fields
  counted : List.Forall₂ Field.Agrees d.countedFields e.countedFields

/-- Fields of layouts that agree are of the same kinds and widths. -/
theorem Descriptor.Agrees.map_bare {d e : Descriptor} (h : d.Agrees e) :
    d.fields.map (·.rep.bare) = e.fields.map (·.rep.bare) := by
  rw [← List.forall₂_eq_eq_eq, List.forall₂_map_left_iff, List.forall₂_map_right_iff]
  exact h.fields.imp fun _ _ hfg => hfg.rep

namespace Registry

open Ty Interner

/-- The layouts, of one registry and of another, agree, and so do the layouts of the objects in their fields, and
so on. -/
inductive Interchangeable (r r' : Registry) : Descriptor → Descriptor → Prop
  | intro {d e : Descriptor} (agrees : d.Agrees e) (inner : ∀ f g, (f, g) ∈ d.fields.zip e.fields → ∀ d' ∈ r.all,
      ∀ e' ∈ r'.all, f.rep.layout? = some d'.ref → g.rep.layout? = some e'.ref → Interchangeable r r' d' e') :
    Interchangeable r r' d e

variable {ts us : Interner} {r r' : Registry} {d e : Descriptor} {a b x y : Nat} {rep rep' : Rep}
    {R : Nat → Nat → Prop}

/-- Lists that are both related to a third one are related to one another. -/
theorem forall₂_comp {α β γ : Type} {P : α → β → Prop} {Q : β → γ → Prop} {xs : List α} {ys : List β} {zs : List γ}
    (h : List.Forall₂ P xs ys) (h' : List.Forall₂ Q ys zs) : List.Forall₂
    (fun x z => ∃ y, P x y ∧ Q y z) xs zs := by
  induction h generalizing zs with
  | nil =>
    cases h'
    exact .nil
  | cons hp _ ih =>
    cases h' with
    | cons hq hrest => exact .cons ⟨_, hp, hq⟩ (ih hrest)

/-- Related elements are elements of the lists. -/
theorem forall₂_mem {α β : Type} {P : α → β → Prop} {xs : List α} {ys : List β} (h : List.Forall₂ P xs ys) :
    List.Forall₂ (fun x y => x ∈ xs ∧ y ∈ ys ∧ P x y) xs ys := by
  rw [List.forall₂_iff_zip] at h ⊢
  refine ⟨h.1, fun hxy => ?_⟩
  obtain ⟨hx, hy⟩ := List.of_mem_zip hxy
  exact ⟨hx, hy, h.2 hxy⟩

/-! ### Representations -/

theorem Represents.isPlain (h : Represents ts r x rep) (hts : ts.IsPlain) : rep.IsPlain := by
  cases h with
  | object _ _ _ => exact .object _ _
  | flat hflat =>
    unfold flatRep? at hflat
    split at hflat <;> cases hflat
    case h_4 width hint =>
      have hplain := hts.resolved? hint
      exact .int hplain
    all_goals constructor

/-- How values of a structure are represented, as far as the structure itself tells. -/
def bareRep? : Ty → Option Rep
  | .void => some .void
  | .bool => some .bool
  | .number => some .float
  | .int width => some (.int width)
  | .string => some (.string 0)
  | .func .. => some (.func 0)
  | .object _ => some (.object (some ⟨0, ""⟩) 0)
  | _ => none

theorem Represents.bareRep? (h : Represents ts r x rep) : (ts.resolved? x).bind bareRep? = some rep.bare := by
  cases h with
  | object hprops _ _ =>
    rw [hprops]
    rfl
  | flat hflat =>
    unfold flatRep? at hflat
    split at hflat <;> first | (cases hflat; rename_i heq; rw [heq]; rfl) | cases hflat

theorem bareRep?_of_matchParts {t u : Ty} {parts : List (Nat × Nat)} (h : matchParts t u = some parts) :
    bareRep? t = bareRep? u := by
  cases t <;> cases u <;> first | rfl | cases h | skip
  case int.int v w =>
    have heq : v = w := by
      by_contra hne
      rw [matchParts, if_neg hne] at h
      cases h
    rw [heq]

/-- Types of one structure are represented alike. -/
theorem bare_of_matches (hR : Matches ts us R) (hxy : R x y) (h : Represents ts r x rep)
    (h' : Represents us r' y rep') :
    rep.bare = rep'.bare := by
  obtain ⟨parts, hparts, -⟩ := hR x y hxy
  have hx := h.bareRep?
  have hy := h'.bareRep?
  cases ht : ts.resolved? x with
  | none =>
    rw [ht] at hx
    cases hx
  | some t =>
    cases hu : us.resolved? y with
    | none =>
      rw [hu] at hy
      cases hy
    | some u =>
      rw [ht, hu] at hparts
      rw [ht, Option.bind_some, bareRep?_of_matchParts hparts] at hx
      rw [hu, Option.bind_some] at hy
      exact Option.some.inj (hx.symm.trans hy)

/-- The layout that a representation refers to is noted for its type. -/
theorem Represents.noted (h : Represents ts r x rep) (hr : r.IsNumbered) (hd : d ∈ r.all)
    (htag : rep.layout?.map (·.tag) = some d.tag) : Noted ts r (.layoutOf x) (.layout d) := by
  cases h with
  | flat hflat =>
    rw [layout?_of_flatRep? hflat] at htag
    cases htag
  | @object props d' hprops hd' hnoted =>
    have heq : d'.tag = d.tag := Option.some.inj htag
    rw [hr.eq_of_tag hd' hd heq] at hnoted
    exact .layout hprops hd hnoted

/-! ### Fields -/

theorem names_of_stands {props : List (String × Nat)} {specs : List FieldSpec}
    (h : List.Forall₂ (Stands ts r) props specs) :
    props.map (·.1) = specs.map (·.name) := by
  rw [← List.forall₂_eq_eq_eq, List.forall₂_map_left_iff, List.forall₂_map_right_iff]
  exact h.imp fun _ _ hs => hs.1.symm

/-- Fields that stand for the properties of a plain object type are plain, and have different names. -/
theorem isPlain_of_stands (hts : ts.IsPlain) {props : List (String × Nat)} (hprops : (Ty.object props).IsPlain)
    {specs : List FieldSpec} (h : List.Forall₂ (Stands ts r) props specs) :
    (∀ s ∈ specs, s.IsPlain) ∧ (specs.map (·.name)).Nodup := by
  obtain ⟨hnodup, hcolon⟩ := hprops
  refine ⟨?_, names_of_stands h ▸ hnodup⟩
  clear hnodup
  induction h with
  | nil => simp
  | cons hs _ ih =>
    obtain ⟨hp, hrest⟩ := List.forall_mem_cons.1 hcolon
    have hplain : FieldSpec.IsPlain _ := ⟨hs.1 ▸ hp, hs.2.isPlain hts⟩
    exact List.forall_mem_cons.2 ⟨hplain, ih hrest⟩

/-- The layout of an object type is made of fields with the names and marks of those that stand for its
properties. -/
theorem Settled.exists_specs (hr : Settled ts r) (hts : ts.IsPlain) (h : Noted ts r (.layoutOf x) (.layout d)) :
    ∃ props specs specs' name type, ts.resolved? x = some (.object props) ∧ List.Forall₂ (Stands ts r) props specs ∧
      (sortSpecs specs').map FieldSpec.mark = (sortSpecs specs).map FieldSpec.mark ∧
      d = ({ build r.target d.tag name .object specs' with type } : Descriptor) := by
  cases h with
  | layout hprops hd hnoted =>
    obtain ⟨props, specs, hlookup, hstands, specs', hkey, name, type, props', hprops', hstands', hmem⟩ :=
      (hr.byType _ _ hnoted).shape
    have hresolved : ts.resolved? type = some (.object props') := resolved?_of_lookup? hprops' nofun
    obtain ⟨hplain, -⟩ := isPlain_of_stands hts (hts.resolved? hlookup) hstands
    obtain ⟨hplain', hnodup'⟩ := isPlain_of_stands hts (hts.resolved? hresolved) hstands'
    exact ⟨props, specs, specs', name, type, hlookup, hstands, mark_sortSpecs hplain' hplain hnodup' hkey,
      hr.numbered.eq_of_tag hd hmem rfl⟩

/-- Object types of one structure have the same properties, the types of which have one structure. -/
theorem forall₂_props (hR : Matches ts us R) (hxy : R x y) {ps qs : List (String × Nat)}
    (hx : ts.resolved? x = some (.object ps)) (hy : us.resolved? y = some (.object qs)) :
    List.Forall₂ (fun p q => p.1 = q.1 ∧ p ∈ ps ∧ R p.2 q.2) ps qs := by
  have hparts := hR x y hxy
  rw [hx, hy, matchUnfolded, matchParts_object_iff] at hparts
  exact (forall₂_mem hparts).imp fun p q hpq => ⟨hpq.2.2.1, hpq.1, hpq.2.2.2⟩

/-- The properties of types of one structure are represented by fields with the same names, in the order in which
they are placed. -/
theorem forall₂_sortSpecs {ps qs : List (String × Nat)}
    (h : List.Forall₂ (fun p q => p.1 = q.1 ∧ p ∈ ps ∧ R p.2 q.2) ps qs) {specs specs' : List FieldSpec}
    (hspecs : List.Forall₂ (Stands ts r) ps specs) (hspecs' : List.Forall₂ (Stands us r') qs specs') :
    List.Forall₂ (fun s s' => s.name = s'.name ∧ ∃ p ∈ ps, ∃ y, R p.2 y ∧ Represents ts r p.2 s.rep ∧
      Represents us r' y s'.rep) (sortSpecs specs) (sortSpecs specs') := by
  have hchain := forall₂_comp (forall₂_comp hspecs.flip h) hspecs'
  refine Order.forall₂_sorted _ _ (fun a b a' b' ha hb => by rw [ha.1, hb.1]) (hchain.imp ?_)
  rintro s s' ⟨q, ⟨p, hs, hname, hp, hpq⟩, hs'⟩
  exact ⟨hs.1.trans (hname.trans hs'.1.symm), p, hp, q.2, hpq, hs.2, hs'.2⟩

theorem forall₂_of_mark {specs specs' : List FieldSpec} (h : specs.map FieldSpec.mark = specs'.map FieldSpec.mark) :
    List.Forall₂ (fun s s' => s.mark = s'.mark) specs specs' := by
  rwa [← List.forall₂_eq_eq_eq, List.forall₂_map_left_iff, List.forall₂_map_right_iff] at h

/-! ### Layouts -/

/-- Layouts of types of one structure agree, if the layouts of the types of their properties do. -/
theorem interchangeable_of_specs (hr : r.IsNumbered) (hr' : r'.IsNumbered) (htarget : r'.target = r.target)
    (hR : Matches ts us R) {ps : List (String × Nat)}
    (hinner : ∀ p ∈ ps, ∀ y, R p.2 y → ∀ d' e', Noted ts r (.layoutOf p.2) (.layout d') →
      Noted us r' (.layoutOf y) (.layout e') → Interchangeable r r' d' e')
    {specs specs' made made' : List FieldSpec} {name name' : String} {type type' : Nat}
    (hspecs : List.Forall₂ (fun s s' => s.name = s'.name ∧ ∃ p ∈ ps, ∃ y, R p.2 y ∧ Represents ts r p.2 s.rep ∧
      Represents us r' y s'.rep) (sortSpecs specs) (sortSpecs specs'))
    (hmade : (sortSpecs made).map FieldSpec.mark = (sortSpecs specs).map FieldSpec.mark)
    (hmade' : (sortSpecs made').map FieldSpec.mark = (sortSpecs specs').map FieldSpec.mark)
    (hd : d = ({ build r.target d.tag name .object made with type } : Descriptor))
    (he : e = ({ build r'.target e.tag name' .object made' with type := type' } : Descriptor)) :
    Interchangeable r r' d e := by
  -- what agrees of two fields, down to the layouts of the objects in them
  let Q (s s' : FieldSpec) : Prop := s.name = s'.name ∧ s.rep.bare = s'.rep.bare ∧ ∀ d' ∈ r.all, ∀ e' ∈ r'.all,
    s.rep.layout? = some d'.ref → s'.rep.layout? = some e'.ref → Interchangeable r r' d' e'
  have hQ : List.Forall₂ Q (sortSpecs made) (sortSpecs made') := by
    have hchain := forall₂_comp (forall₂_comp (forall₂_of_mark hmade) hspecs) (forall₂_of_mark hmade').flip
    refine hchain.imp ?_
    rintro s s' ⟨t', ⟨t, hmark, hname, p, hp, y, hpy, hrep, hrep'⟩, hmark'⟩
    have hmark' : s'.mark = t'.mark := hmark'
    simp only [FieldSpec.mark, Rep.mark, Prod.mk.injEq] at hmark hmark'
    obtain ⟨hsname, hsbare, hstag⟩ := hmark
    obtain ⟨hsname', hsbare', hstag'⟩ := hmark'
    refine ⟨hsname.trans (hname.trans hsname'.symm),
      hsbare.trans ((bare_of_matches hR hpy hrep hrep').trans hsbare'.symm), ?_⟩
    intro d' hd' e' he' hl hl'
    rw [hl] at hstag
    rw [hl'] at hstag'
    exact hinner p hp y hpy d' e' (hrep.noted hr hd' hstag.symm) (hrep'.noted hr' he' hstag'.symm)
  obtain ⟨hstop, hfields⟩ := forall₂_place (fun s s' hs => hs.2.1) r.target hQ headerSlots headerSize
  have hagrees : List.Forall₂ Field.Agrees d.fields e.fields := by
    rw [hd, he, htarget]
    exact hfields.imp fun f g h => ⟨h.2.2.1, h.1, h.2.1, h.2.2.2.1⟩
  have hsize : d.size = e.size := by
    rw [hd, he, htarget]
    show alignUp (place _ _ _ _).2.1 (place _ _ _ _).2.2 = alignUp (place _ _ _ _).2.1 (place _ _ _ _).2.2
    rw [hstop]
  have halign : d.align = e.align := by
    rw [hd, he, htarget]
    exact congrArg Prod.snd hstop
  have hcounted : List.Forall₂ Field.Agrees d.countedFields e.countedFields := by
    refine List.rel_filter (fun f g hfg => ?_) hagrees
    have hsame : f.rep.isCounted = g.rep.isCounted := by rw [← Rep.isCounted_bare, hfg.rep, Rep.isCounted_bare]
    exact Bool.eq_iff_iff.1 hsame
  refine .intro ⟨hsize, halign, hagrees, hcounted⟩ fun f g hfg => ?_
  rw [hd, he, htarget] at hfg
  exact ((List.forall₂_iff_zip.1 hfields).2 hfg).2.2.2.2

/-- Types of one structure have interchangeable layouts in settled registries. The induction is on how far the
type unfolds. -/
theorem interchangeable_of_matches (hr : Settled ts r) (hr' : Settled us r') (htarget : r'.target = r.target)
    (hts : ts.IsPlain) (hus : us.IsPlain) (hR : Matches ts us R) (hx : IsSized ts x) (hxy : R x y)
    (hd : Noted ts r (.layoutOf x) (.layout d)) (he : Noted us r' (.layoutOf y) (.layout e)) :
    Interchangeable r r' d e := by
  induction hx generalizing y d e with
  | flat hflat =>
    cases hd with
    | layout hprops _ _ =>
      rw [flatRep?_object hprops] at hflat
      cases hflat
  | @object x props hprops _ ih =>
    obtain ⟨ps, specs, made, name, type, hps, hspecs, hmade, hdmade⟩ := hr.exists_specs hts hd
    obtain ⟨qs, specs', made', name', type', hqs, hspecs', hmade', hemade⟩ := hr'.exists_specs hus he
    obtain rfl : props = ps := by simpa using hprops.symm.trans hps
    have hsorted := forall₂_sortSpecs (forall₂_props hR hxy hps hqs) hspecs hspecs'
    refine interchangeable_of_specs hr.numbered hr'.numbered htarget hR ?_ hsorted hmade hmade' hdmade hemade
    intro p hp y hpy d' e' hd' he'
    exact ih p hp hpy hd' he'

theorem Noted.isSized (h : Noted ts r (.layoutOf x) (.layout d)) (hr : Settled ts r) : IsSized ts x := by
  cases h with
  | layout hprops _ hnoted => exact (isSized_unalias hprops).1 (hr.byType _ _ hnoted).sized

theorem target_after (ts : Interner) (target : Target) (calls : List Call) :
    (after ts target calls).target = target := by
  have hgrows := grows_after ts target [] calls
  exact hgrows.target

/-- The layout that is answered is noted. -/
theorem noted_of_answer {target : Target} {calls : List Call}
    (h : (Call.layoutOf a).answer ts (after ts target calls) = .ok (.layout d)) :
    Noted ts (after ts target (calls ++ [.layoutOf a])) (.layoutOf a) (.layout d) := by
  have hrest := resting_after ts target calls
  rw [after_concat]
  exact (leads_call hrest.settled hrest.index (.layoutOf a)).ok _ h

/-- What was answered to two calls for layouts of types of one structure can be interchanged. -/
theorem interchangeable_of_noted {target : Target} {calls calls' : List Call} (hts : ts.IsPlain) (hus : us.IsPlain)
    (hab : Alike ts us a b) (hd : Noted ts (after ts target calls) (.layoutOf a) (.layout d))
    (he : Noted us (after us target calls') (.layoutOf b) (.layout e)) :
    Interchangeable (after ts target calls) (after us target calls') d e := by
  obtain ⟨R, hR, hmatches⟩ := hab
  have hsettled := (resting_after ts target calls).settled
  have hsettled' := (resting_after us target calls').settled
  have htarget : (after us target calls').target = (after ts target calls).target := by
    rw [target_after, target_after]
  exact interchangeable_of_matches hsettled hsettled' htarget hts hus hmatches (hd.isSized hsettled) hR hd he

/-- Layouts of types of one structure are interchangeable: whatever two registries for one machine were asked
before, and whichever interners the types are from. -/
theorem interchangeable_layouts (target : Target) (hts : ts.IsPlain) (hus : us.IsPlain) (hab : Alike ts us a b)
    (calls calls' : List Call) (hd : (Call.layoutOf a).answer ts (after ts target calls) = .ok (.layout d))
    (he : (Call.layoutOf b).answer us (after us target calls') = .ok (.layout e)) :
    Interchangeable (after ts target (calls ++ [.layoutOf a])) (after us target (calls' ++ [.layoutOf b])) d e := by
  have hnoted := noted_of_answer hd
  have hnoted' := noted_of_answer he
  exact interchangeable_of_noted hts hus hab hnoted hnoted'

/-- The type of a place, written with two aliases, or with none and its properties in another order. -/
theorem interchangeable_places :
    let points := (({} : Interner).object [("x", 3), ("y", 3)]).2
    let named := (points.newAlias "Point").2.setAlias 11 10
    let ts := ((named.object [("at", 11), ("name", 4)]).2.newAlias "Place").2.setAlias 13 12
    let us := (points.object [("name", 4), ("at", 10)]).2
    ∃ d e, Interchangeable (after ts {} [.scope "f" [], .resolve 11, .layoutOf 13])
      (after us {} [.layoutOf 11]) d e := by
  intro points named ts us
  have hd : (Call.layoutOf 13).answer ts (after ts {} [.scope "f" [], .resolve 11]) =
    .ok (.layout ⟨4, "Place", .object, 12,
      [⟨"at", .object (some ⟨3, "Point"⟩) 11, 2, 8⟩, ⟨"name", .string 4, 3, 16⟩], 24, 8⟩) := by decide +kernel
  have he : (Call.layoutOf 11).answer us (after us {} []) = .ok (.layout ⟨3, "anon.2", .object, 11,
      [⟨"at", .object (some ⟨2, "anon.1"⟩) 10, 2, 8⟩, ⟨"name", .string 4, 3, 16⟩], 24, 8⟩) := by decide +kernel
  have hts : ts.IsPlain := by decide +kernel
  have hus : us.IsPlain := by decide +kernel
  have halike : Alike ts us 13 11 := .of_pairs [(13, 11), (11, 10), (3, 3), (4, 4)] (by decide) (by decide +kernel)
  exact ⟨_, _, interchangeable_layouts {} hts hus halike [.scope "f" [], .resolve 11] [] hd he⟩

/-! ### Types that are not plain -/

/-- If the layout of the first object type is made before, that of the second does not agree with what it is
otherwise. -/
def Disturbs (types : Interner) (first second : Nat) : Prop :=
  Alike types types second second ∧ ∃ d e, (Call.layoutOf second).answer types (after types {} [.layoutOf first]) =
    .ok (.layout d) ∧
    (Call.layoutOf second).answer types (after types {} []) = .ok (.layout e) ∧ ¬ d.Agrees e

/-- The shapes of object types with colons in their names, or with one name for two properties, can be mistaken
for one another, and so can those of a truth value and of an integer with one bit. -/
theorem disturbs_of_not_plain :
    Disturbs ((({} : Interner).object [("a", 2), ("b", 3)]).2.object [("a:i1,b", 3)]).2 10 11 ∧
    Disturbs ((({} : Interner).object [("a", 2), ("a", 3)]).2.object [("a", 3), ("a", 2)]).2 10 11 ∧
    Disturbs (((({} : Interner).intern (.int 1)).2.object [("a", 2)]).2.object [("a", 10)]).2 11 12 := by
  refine ⟨⟨.refl _ _, ?_⟩, ⟨.refl _ _, ?_⟩, ⟨.refl _ _, ?_⟩⟩
  · refine ⟨⟨2, "anon.1", .object, 10, [⟨"a", .bool, 2, 8⟩, ⟨"b", .float, 3, 16⟩], 24, 8⟩,
      ⟨2, "anon.1", .object, 11, [⟨"a:i1,b", .float, 2, 8⟩], 16, 8⟩, by
      decide +kernel, by decide +kernel, fun h => ?_⟩
    exact absurd h.map_bare (by decide)
  · refine ⟨⟨2, "anon.1", .object, 10, [⟨"a", .bool, 2, 8⟩, ⟨"a", .float, 3, 16⟩], 24, 8⟩,
      ⟨2, "anon.1", .object, 11, [⟨"a", .float, 2, 8⟩, ⟨"a", .bool, 3, 16⟩], 24, 8⟩, by
      decide +kernel, by decide +kernel,
      fun h => ?_⟩
    exact absurd h.map_bare (by decide)
  · refine ⟨⟨2, "anon.1", .object, 11, [⟨"a", .bool, 2, 8⟩], 12, 4⟩,
      ⟨2, "anon.1", .object, 12, [⟨"a", .int 1, 2, 8⟩], 8, 4⟩, by decide +kernel, by decide +kernel, fun h => ?_⟩
    exact absurd h.map_bare (by decide)

end Registry

end TypedScript.Layout
