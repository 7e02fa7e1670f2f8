import TypedScript.Proofs.Layout.Alike
import TypedScript.Proofs.Layout.Placed
import TypedScript.Proofs.Layout.Recursive
import TypedScript.Proofs.Ty.Canonical

/-!
# Identical types share a layout

A registry makes one layout for a shape. The shape of an object type tells the names of its properties and the
fingerprints of their representations: for an object the tag of its layout, for a function the number of its type
behind aliases. So types that have one layout are identical, and identical types have one layout, except that
function types are told apart by the aliases that stand in them.

* `Shared`: no two layouts of object types have one shape, and `shared_after`: so it is after any calls.
* `mates_of_fingerprint`: types with one fingerprint are identical.
* `fingerprint_of_mates`: identical types have one fingerprint, if identical function types below them have one
  number.
* `sameLayout_iff_identical`: the same for layouts that were given out.
-/

namespace TypedScript.Layout

open Ty Interner

/-! ### Shapes of layouts -/

def Descriptor.shape (d : Descriptor) : String := Registry.shapeKey d.specs

/-- The order of fields does not matter for their shape. -/
theorem shapeKey_of_perm {specs specs' : List FieldSpec} (h : specs.Perm specs') :
    Registry.shapeKey specs = Registry.shapeKey specs' := by
  unfold Registry.shapeKey
  have hparts := h.map fun s => s.name ++ ":" ++ s.rep.fingerprint
  rw [Order.sorted_eq_of_perm (fun a b => by simpa using String.le_total a b) ?_ hparts ?_]
  · intro a b c hab hbc
    simp only [decide_eq_true_eq] at hab hbc ⊢
    exact String.le_trans hab hbc
  · intro a _ b _ hab hba
    exact String.le_antisymm (of_decide_eq_true hab) (of_decide_eq_true hba)

/-- A layout has the shape of the fields that it was made for. -/
theorem shape_build (t : Target) (tag : Int) (name : String) (kind : Kind) (specs : List FieldSpec) (type : Nat) :
    ({ build t tag name kind specs with type } : Descriptor).shape = Registry.shapeKey specs := by
  have hspecs : ({ build t tag name kind specs with type } : Descriptor).specs = sortSpecs specs :=
    specs_build t tag name kind specs
  unfold Descriptor.shape
  rw [hspecs]
  exact shapeKey_of_perm (Order.sorted_perm _ specs)

namespace Registry

variable {types : Interner} {target : Target} {r r' : Registry} {d e : Descriptor} {a b x y : Nat} {rep rep' : Rep}
  {R : Nat → Nat → Prop}

/-! ### One layout for a shape -/

/-- The shape of every layout of an object type leads to the layout. -/
def Shared (r : Registry) : Prop := ∀ d ∈ r.all, d.kind = .object → r.byShape.lookup d.shape = some d.tag

/-- Shapes still lead to layouts. -/
def KeepsShared (r r' : Registry) : Prop := Shared r → Shared r'

instance : Std.Refl KeepsShared := ⟨fun _ => id⟩

instance : Trans KeepsShared KeepsShared KeepsShared := ⟨fun h h' hshared => h' (h hshared)⟩

/-- Object types of one shape have one layout. -/
theorem Shared.eq_of_shape (h : Shared r) (hr : r.IsNumbered) (hd : d ∈ r.all) (he : e ∈ r.all)
    (hkind : d.kind = .object) (hkind' : e.kind = .object) (hshape : d.shape = e.shape) : d = e := by
  have htag := h d hd hkind
  rw [hshape, h e he hkind'] at htag
  exact hr.eq_of_tag hd he (Option.some.inj htag).symm

/-- A layout is only made for a shape that has none. -/
theorem keepsShared_layoutOfShape (types : Interner) (type canon : Nat) (specs : List FieldSpec) :
    Along KeepsShared (layoutOfShape types type canon specs) := by
  intro r hshared
  cases hfound : (r.byShape.lookup (shapeKey specs)).bind r.descriptor? with
  | some d =>
    rw [run_layoutOfShape_of_some types type canon hfound]
    exact hshared
  | none =>
    obtain ⟨name, unnamed, d, hd, hrun⟩ := run_layoutOfShape_of_none types type canon hfound
    rw [hrun]
    intro e he hkind
    have hshape : d.shape = shapeKey specs := by rw [hd, shape_build]
    show ((shapeKey specs, d.tag) :: r.byShape).lookup e.shape = some e.tag
    rcases List.mem_append.1 he with he | he
    · have hlookup := hshared e he hkind
      have hne : e.shape ≠ shapeKey specs := by
        intro heq
        rw [← heq, hlookup, Option.bind_some] at hfound
        have hnone := List.find?_eq_none.1 hfound e he
        simp at hnone
      rwa [List.lookup_cons, beq_false_of_ne hne]
    · obtain rfl := List.mem_singleton.1 he
      rw [hshape, List.lookup_cons_self]

theorem keepsShared_from (types : Interner) (depth : Nat) : ∀ type,
    Along KeepsShared (resolveFrom types depth type) ∧ Along KeepsShared (layoutFrom types depth type) := by
  induction depth with
  | zero =>
    intro type
    rw [resolveFrom, layoutFrom]
    exact ⟨.throw _, .throw _⟩
  | succ depth ih =>
    intro type
    rw [resolveFrom, layoutFrom]
    constructor
    · split
      case h_7 => exact (ih type).2.bind fun _ => .pure _
      all_goals first | exact .pure _ | exact .throw _
    · refine .get_bind fun r => ?_
      split
      · exact id
      split
      case h_2 => exact id
      split
      · exact id
      · exact Along.within id ((Along.mapM (fun _ => (ih _).1.bind fun _ => .pure _) _).bind
          fun specs => keepsShared_layoutOfShape types _ _ specs) fun _ => id

theorem Shared.scope (h : Shared r) (key : String) (locals : List FieldSpec) : Shared (r.scope key locals).1 := by
  unfold Registry.scope
  split
  · exact h
  · intro d hd hkind
    rcases List.mem_append.1 hd with hd | hd
    · exact h d hd hkind
    · obtain rfl := List.mem_singleton.1 hd
      cases hkind

theorem Shared.next (h : Shared r) (types : Interner) (c : Call) : Shared (c.next types r) := by
  cases c with
  | resolve type => exact ((keepsShared_from types _ type).1.bind fun _ => .pure _) r h
  | layoutOf type => exact ((keepsShared_from types _ type).2.bind fun _ => .pure _) r h
  | scope key locals => exact h.scope key locals

/-- No two layouts of object types have one shape. The induction is on the calls, from the last. -/
theorem shared_after (types : Interner) (target : Target) (calls : List Call) : Shared
    (after types target calls) := by
  induction calls using List.reverseRecOn with
  | nil =>
    intro d hd hkind
    obtain rfl := List.mem_singleton.1 hd
    cases hkind
  | append_singleton calls c ih =>
    rw [after_concat]
    exact ih.next types c

/-- The layout of an object type has the shape of the fields that stand for its properties. -/
theorem Settled.exists_shape (hr : Settled types r) (h : Noted types r (.layoutOf x) (.layout d)) :
    ∃ props specs, types.resolved? x = some (.object props) ∧ List.Forall₂ (Stands types r) props specs ∧
      d.shape = shapeKey specs ∧ d ∈ r.all ∧ d.kind = .object := by
  cases h with
  | layout hprops hd hnoted =>
    obtain ⟨props, specs, hlookup, hstands, specs', hkey, name, type, props', -, -, hmem⟩ :=
      (hr.byType _ _ hnoted).shape
    have hmade := hr.numbered.eq_of_tag hd hmem rfl
    refine ⟨props, specs, hlookup, hstands, ?_, hd, ?_⟩
    · rw [hmade, shape_build, hkey]
    · rw [hmade]
      rfl

/-! ### Types with one fingerprint are identical -/

/-- The types are represented, and their representations have one fingerprint. -/
def OnePrint (types : Interner) (r : Registry) (x y : Nat) : Prop :=
  ∃ rep rep', Represents types r x rep ∧ Represents types r y rep' ∧ rep.fingerprint = rep'.fingerprint

/-- There is a function type behind the aliases. -/
def IsFunc (types : Interner) (x : Nat) : Prop := ∃ params result, types.resolved? x = some (.func params result)

theorem func_fingerprint_inj {m n : Nat} (h : (Rep.func m).fingerprint = (Rep.func n).fingerprint) : m = n := by
  have hlist := congrArg String.toList h
  simp [Rep.fingerprint, toString] at hlist
  exact Text.toDigits_inj hlist

/-- Fields of one shape are the same in order, if they stand for properties in order of their names. -/
theorem map_print_of_shape (hts : types.IsPlain) (hsorted : types.IsSorted) {ps qs : List (String × Nat)}
    (hx : types.resolved? x = some (.object ps)) (hy : types.resolved? y = some (.object qs))
    {specs specs' : List FieldSpec} (hspecs : List.Forall₂ (Stands types r) ps specs)
    (hspecs' : List.Forall₂ (Stands types r) qs specs') (hshape : shapeKey specs = shapeKey specs') :
    specs.map FieldSpec.print = specs'.map FieldSpec.print := by
  have hperm := perm_print_of_shapeKey (isPlain_of_stands hts (hts.resolved? hx) hspecs).1
    (isPlain_of_stands hts (hts.resolved? hy) hspecs').1 hshape
  have hordered {x : Nat} {props : List (String × Nat)} {specs : List FieldSpec}
    (hx : types.resolved? x = some (.object props))
      (hspecs : List.Forall₂ (Stands types r) props specs) : (specs.map FieldSpec.print).Pairwise fun p q =>
      p.1 < q.1 := by
    have hnames : (props.map (·.1)).Pairwise (· < ·) := List.pairwise_map.2 (hsorted.resolved? hx)
    rw [names_of_stands hspecs, List.pairwise_map] at hnames
    exact List.pairwise_map.2 hnames
  refine List.Perm.eq_of_pairwise ?_ (hordered hx hspecs) (hordered hy hspecs') hperm
  intro p q _ _ hpq hqp
  exact absurd hpq (String.lt_asymm hqp)

/-- Flat types with one fingerprint have one structure, with equal parts. -/
theorem matchParts_of_flat (hx : flatRep? types x = some rep) (hy : flatRep? types y = some rep')
    (hbare : rep.bare = rep'.bare) (hfunc : IsFunc types x → IsFunc types y → types.unalias x = types.unalias y) :
    ∃ t u parts, types.resolved? x = some t ∧ types.resolved? y = some u ∧ matchParts t u = some parts ∧
      ∀ p ∈ parts, p.1 = p.2 := by
  have hself (heq : types.unalias x = types.unalias y) {t : Ty} (ht : types.resolved? x = some t)
      (hne : ∀ name target, t ≠ .synonym name target) :
      ∃ t u parts, types.resolved? x = some t ∧ types.resolved? y = some u ∧ matchParts t u = some parts ∧
        ∀ p ∈ parts, p.1 = p.2 := by
    obtain ⟨parts, hparts, hparts'⟩ := matchParts_self hne
    have hu : types.resolved? y = some t := by
      unfold Interner.resolved? at ht ⊢
      rw [← heq, ht]
    exact ⟨t, t, parts, ht, hu, hparts, hparts'⟩
  unfold flatRep? at hx hy
  split at hx <;> cases hx <;> rename_i ht <;> split at hy <;> cases hy <;> rename_i hu <;> cases hbare
  case h_6.refl.refl => exact hself (hfunc ⟨_, _, ht⟩ ⟨_, _, hu⟩) ht (by simp)
  all_goals exact ⟨_, _, [], ht, hu, by simp [matchParts], by simp⟩

/-- What represents a function type is told by its number behind aliases. -/
theorem Represents.eq_unalias {m : Nat} (h : Represents types r x (.func m)) : m = types.unalias x ∧
    IsFunc types x := by
  cases h with
  | flat hflat =>
    unfold flatRep? at hflat
    split at hflat <;> cases hflat
    rename_i ht
    exact ⟨rfl, _, _, ht⟩

theorem Represents.eq_func (h : Represents types r x rep) (hx : IsFunc types x) : rep = .func
    (types.unalias x) := by
  obtain ⟨params, result, ht⟩ := hx
  cases h with
  | flat hflat =>
    unfold flatRep? at hflat
    rw [ht] at hflat
    cases hflat
    rfl
  | object hprops => cases ht.symm.trans hprops

/-- Types with one fingerprint are identical: their parts are equal, or have one fingerprint again. -/
theorem mates_of_fingerprint (hr : Settled types r) (hts : types.IsPlain) (hsorted : types.IsSorted) :
    Mates types fun x y => x = y ∨ OnePrint types r x y := by
  intro x y hxy
  rcases hxy with rfl | ⟨rep, rep', hx, hy, hprint⟩
  · exact .inl rfl
  have hmark := Rep.mark_of_fingerprint (hx.isPlain hts) (hy.isPlain hts) hprint
  obtain ⟨hbare, htag⟩ := Prod.mk.inj hmark
  right
  cases hx with
  | flat hflat =>
    cases hy with
    | flat hflat' =>
      have hfunc (hfx : IsFunc types x) (hfy : IsFunc types y) : types.unalias x = types.unalias y := by
        rw [(Represents.flat (r := r) hflat).eq_func hfx, (Represents.flat (r := r) hflat').eq_func hfy] at hprint
        exact func_fingerprint_inj hprint
      obtain ⟨t, u, parts, ht, hu, hparts, heq⟩ := matchParts_of_flat hflat hflat' hbare hfunc
      exact ⟨t, u, parts, ht, hu, hparts, fun p hp => .inl (heq p hp)⟩
    | object hprops' _ _ =>
      rw [layout?_of_flatRep? hflat] at htag
      cases htag
  | object hprops hd hnoted =>
    cases hy with
    | flat hflat' =>
      rw [layout?_of_flatRep? hflat'] at htag
      cases htag
    | object hprops' hd' hnoted' =>
      obtain rfl := hr.numbered.eq_of_tag hd hd' (Option.some.inj htag)
      obtain ⟨ps, specs, hps, hspecs, hshape, -, -⟩ := hr.exists_shape (.layout hprops hd hnoted)
      obtain ⟨qs, specs', hqs, hspecs', hshape', -, -⟩ := hr.exists_shape (.layout hprops' hd' hnoted')
      have hprints := map_print_of_shape hts hsorted hps hqs hspecs hspecs' (hshape.symm.trans hshape')
      have hprints : List.Forall₂ (fun s s' : FieldSpec => s.print = s'.print) specs specs' := by
        rwa [← List.forall₂_eq_eq_eq, List.forall₂_map_left_iff, List.forall₂_map_right_iff] at hprints
      have hprops := (forall₂_comp (forall₂_comp hspecs hprints) hspecs'.flip).imp (fun p q hpq => by
        obtain ⟨s', ⟨s, hs, hprint⟩, hs'⟩ := hpq
        obtain ⟨hname, hfinger⟩ := Prod.mk.inj hprint
        exact And.intro (hs.1.symm.trans (hname.trans hs'.1)) (Or.inr ⟨s.rep, s'.rep, hs.2, hs'.2, hfinger⟩ :
          p.2 = q.2 ∨ OnePrint types r p.2 q.2))
      obtain ⟨parts, hparts, hall⟩ :=
        (matchParts_object_iff (R := fun x y => x = y ∨ OnePrint types r x y)).2 hprops
      exact ⟨_, _, parts, hps, hqs, hparts, hall⟩

/-! ### Identical types have one fingerprint -/

/-- Representations of one kind and width that refer to no layout have one fingerprint, but for the numbers of
functions. -/
theorem fingerprint_of_bare (hbare : rep.bare = rep'.bare) (hflat : rep.layout? = none)
    (hfunc : ∀ m n, rep = .func m → rep' = .func n → m = n) : rep.fingerprint = rep'.fingerprint := by
  cases rep <;> cases rep' <;> first | (cases hbare; rfl) | (cases hbare) | skip
  case object.object l m l' n =>
    obtain rfl : l = none := hflat
    cases l' with
    | none => rfl
    | some l' => cases hbare
  case func.func m n => rw [hfunc m n rfl rfl]

/-- A type has one fingerprint, by whichever alias. -/
theorem Represents.fingerprint_eq (hr : Settled types r) (h : Represents types r x rep)
    (h' : Represents types r x rep') :
    rep.fingerprint = rep'.fingerprint := by
  cases h with
  | flat hflat =>
    cases h' with
    | flat hflat' => rw [Option.some.inj (hflat.symm.trans hflat')]
    | object hprops _ _ =>
      rw [flatRep?_object hprops] at hflat
      cases hflat
  | object hprops hd hnoted =>
    cases h' with
    | flat hflat' =>
      rw [flatRep?_object hprops] at hflat'
      cases hflat'
    | object hprops' hd' hnoted' => rw [hr.numbered.eq_of_tag hd hd' (Option.some.inj (hnoted.symm.trans hnoted'))]

/-- The shape of fields depends on their names and fingerprints alone. -/
theorem shapeKey_of_print {specs specs' : List FieldSpec}
    (h : List.Forall₂ (fun s s' => s.name = s'.name ∧ s.rep.fingerprint = s'.rep.fingerprint) specs specs') :
    shapeKey specs = shapeKey specs' := by
  have htexts : specs.map (fun s => s.name ++ ":" ++ s.rep.fingerprint) =
      specs'.map fun s => s.name ++ ":" ++ s.rep.fingerprint := by
    rw [← List.forall₂_eq_eq_eq, List.forall₂_map_left_iff, List.forall₂_map_right_iff]
    exact h.imp fun s s' hs => by rw [hs.1, hs.2]
  unfold shapeKey
  rw [htexts]

/-- Function types that are met below two types and are identical are one type behind aliases. -/
def OneSpelling (types : Interner) (a b : Nat) : Prop := ∀ f g, Reaches types a f → Reaches types b g →
    IsFunc types f →
  IsFunc types g → types.identical f g = true → types.unalias f = types.unalias g

/-- Identical types have one fingerprint. The induction is on how far the type unfolds. -/
theorem fingerprint_of_mates (hR : Mates types R) (hr : Settled types r) (hshared : Shared r)
    (hspelling : OneSpelling types a b) (hx : IsSized types x) (hax : Reaches types a x) (hby : Reaches types b y)
    (hxy : R x y) (hrep : Represents types r x rep) (hrep' : Represents types r y rep') : rep.fingerprint =
    rep'.fingerprint := by
  induction hx generalizing y rep rep' with
  | @flat x flat hflat =>
    rcases hR x y hxy with rfl | ⟨t, u, parts, ht, hu, hparts, -⟩
    · exact hrep.fingerprint_eq hr hrep'
    have hbare : rep.bare = rep'.bare := by
      have hx := hrep.bareRep?
      have hy := hrep'.bareRep?
      rw [ht, Option.bind_some, bareRep?_of_matchParts hparts] at hx
      rw [hu, Option.bind_some] at hy
      exact Option.some.inj (hx.symm.trans hy)
    have hlayout : rep.layout? = none := by
      cases hrep with
      | flat hflat' => exact layout?_of_flatRep? hflat'
      | object hprops _ _ =>
        rw [flatRep?_object hprops] at hflat
        cases hflat
    refine fingerprint_of_bare hbare hlayout ?_
    rintro m n rfl rfl
    obtain ⟨rfl, hfx⟩ := hrep.eq_unalias
    obtain ⟨rfl, hfy⟩ := hrep'.eq_unalias
    exact hspelling x y hax hby hfx hfy (identical_iff.2 ⟨R, hxy, hR⟩)
  | @object x props hprops _ ih =>
    rcases hR x y hxy with rfl | ⟨t, u, parts, ht, hu, hparts, hmates⟩
    · exact hrep.fingerprint_eq hr hrep'
    obtain rfl : Ty.object props = t := Option.some.inj (hprops.symm.trans ht)
    cases u with
    | object qs =>
      have hpairs := forall₂_mem (matchParts_object_iff.1 ⟨parts, hparts, hmates⟩)
      cases hrep with
      | flat hflat =>
        rw [flatRep?_object hprops] at hflat
        cases hflat
      | object _ hd hnoted =>
        cases hrep' with
        | flat hflat =>
          rw [flatRep?_object hu] at hflat
          cases hflat
        | object _ hd' hnoted' =>
          obtain ⟨ps, specs, hps, hspecs, hshape, -, hkind⟩ := hr.exists_shape (.layout hprops hd hnoted)
          obtain ⟨qs', specs', hqs, hspecs', hshape', -, hkind'⟩ := hr.exists_shape (.layout hu hd' hnoted')
          obtain rfl : props = ps := by simpa using hprops.symm.trans hps
          obtain rfl : qs = qs' := by simpa using hu.symm.trans hqs
          have hprints := (forall₂_comp (forall₂_comp hspecs.flip hpairs) hspecs').imp (fun s s' hs => by
            obtain ⟨q, ⟨p, hs, hp, hq, hname, hpq⟩, hs'⟩ := hs
            have hreached := hax.tail ⟨props, hprops, p, hp, rfl⟩
            have hreached' := hby.tail ⟨qs, hu, q, hq, rfl⟩
            have hfinger := ih p hp hreached hreached' hpq hs.2 hs'.2
            exact And.intro (hs.1.trans (hname.trans hs'.1.symm)) hfinger)
          have hsame : _ = _ := hshared.eq_of_shape hr.numbered hd hd' hkind hkind'
            (hshape.trans ((shapeKey_of_print hprints).trans hshape'.symm))
          rw [hsame]
          rfl
    | _ => cases hparts

/-! ### Layouts that were given out -/

/-- Among the calls is one for the layout of the type, which was answered with this layout. -/
def Gave (types : Interner) (target : Target) (calls : List Call) (type : Nat) (d : Descriptor) : Prop :=
  ∃ before rest, calls = before ++ .layoutOf type :: rest ∧
    (Call.layoutOf type).answer types (after types target before) = .ok (.layout d)

/-- What was given out is noted from then on. -/
theorem Gave.noted {calls : List Call} (h : Gave types target calls a d) :
    Noted types (after types target calls) (.layoutOf a) (.layout d) := by
  obtain ⟨before, rest, rfl, hd⟩ := h
  have hgrows := grows_after types target (before ++ [.layoutOf a]) rest
  rw [List.append_assoc] at hgrows
  exact (noted_of_answer hd).mono hgrows

/-- Two object types whose layouts were given out have one layout, with one tag, exactly if they are identical. So
it is if identical function types below them are written with the same aliases. -/
theorem sameLayout_iff_identical {calls : List Call} (hts : types.IsPlain) (hsorted : types.IsSorted)
    (hspelling : OneSpelling types a b) (hd : Gave types target calls a d) (he : Gave types target calls b e) :
    (d = e ↔ types.identical a b = true) ∧ (d.tag = e.tag ↔ types.identical a b = true) := by
  have hrest := resting_after types target calls
  have hrep {x : Nat} {d : Descriptor} (hd : Gave types target calls x d) :
      Represents types (after types target calls) x (.object (some d.ref) x) ∧ d ∈ (after types target calls).all ∧
        IsSized types x := by
    have hnoted := hd.noted
    have hsized := hnoted.isSized hrest.settled
    cases hnoted with
    | layout hprops hmem hlookup => exact ⟨.object hprops hmem hlookup, hmem, hsized⟩
  obtain ⟨hrep_a, hmem_a, hsized⟩ := hrep hd
  obtain ⟨hrep_b, hmem_b, -⟩ := hrep he
  have htag : d.tag = e.tag ↔ types.identical a b = true := by
    rw [identical_iff]
    constructor
    · intro htag
      have hprint : (Rep.object (some d.ref) a).fingerprint = (Rep.object (some e.ref) b).fingerprint := by
        simp [Rep.fingerprint, Descriptor.ref, htag]
      exact ⟨_, .inr ⟨_, _, hrep_a, hrep_b, hprint⟩, mates_of_fingerprint hrest.settled hts hsorted⟩
    · rintro ⟨R, hab, hR⟩
      have hprint := fingerprint_of_mates hR hrest.settled (shared_after types target calls) hspelling hsized .refl
        .refl hab hrep_a hrep_b
      have hmark := Rep.mark_of_fingerprint (hrep_a.isPlain hts) (hrep_b.isPlain hts) hprint
      exact Option.some.inj (congrArg Prod.snd hmark)
  refine ⟨?_, htag⟩
  rw [← htag]
  constructor
  · rintro rfl
    rfl
  · exact hrest.settled.numbered.eq_of_tag hmem_a hmem_b

/-- Two object types of one structure, of which one is written with an alias and the other is not. -/
def marked : List Interner.Call :=
  [.newAlias "N", .setAlias 10 3, .func [3] 1, .object [("x", 3)], .object [("x", 10)],
    .object [("f", 11), ("at", 12)],
    .object [("f", 11), ("at", 13)]]

theorem sameLayout_iff_identical_marked :
    let ts := ({} : Interner).run marked
    ∃ d e, Gave ts {} [.layoutOf 15, .resolve 12, .layoutOf 14] 14 d ∧
      Gave ts {} [.layoutOf 15, .resolve 12, .layoutOf 14] 15 e ∧
      (d = e ↔ ts.identical 14 15 = true) ∧ (d.tag = e.tag ↔ ts.identical 14 15 = true) := by
  intro ts
  have hts : ts.IsPlain := by decide +kernel
  have hsorted : ts.IsSorted := isSorted_run (by decide +kernel)
  have honly (f : Nat) (hf : IsFunc ts f) : ts.unalias f = 11 := by
    obtain ⟨params, result, hf⟩ := hf
    have hplace := getElem?_of_lookup? hf
    have hlt := (Array.getElem?_eq_some_iff.1 hplace).1
    have hfuncs : ∀ i < ts.types.size, (ts.types[i]?).bind bareRep? = some (.func 0) → i = 10 := by decide +kernel
    have heq := hfuncs _ hlt (by rw [hplace]; rfl)
    omega
  have hspelling : OneSpelling ts 14 15 := fun f g _ _ hf hg _ => (honly f hf).trans (honly g hg).symm
  have hfirst : (Call.layoutOf 15).answer ts (after ts {} []) = .ok (.layout ⟨3, "anon.2", .object, 15,
      [⟨"at", .object (some ⟨2, "anon.1"⟩) 13, 2, 8⟩, ⟨"f", .func 11, 3, 16⟩], 24, 8⟩) := by decide +kernel
  have hlast : (Call.layoutOf 14).answer ts (after ts {} [.layoutOf 15, .resolve 12]) =
    .ok (.layout ⟨3, "anon.2", .object, 15,
      [⟨"at", .object (some ⟨2, "anon.1"⟩) 13, 2, 8⟩, ⟨"f", .func 11, 3, 16⟩], 24, 8⟩) := by decide +kernel
  have hd : Gave ts {} [.layoutOf 15, .resolve 12, .layoutOf 14] 14 _ :=
    ⟨[.layoutOf 15, .resolve 12], [], rfl, hlast⟩
  have he : Gave ts {} [.layoutOf 15, .resolve 12, .layoutOf 14] 15 _ :=
    ⟨[], [.resolve 12, .layoutOf 14], rfl, hfirst⟩
  exact ⟨_, _, hd, he, sameLayout_iff_identical hts hsorted hspelling hd he⟩

/-- Object types are identical and yet have different layouts, if a parameter of the function in one is written
with an alias. -/
theorem not_sameLayout_of_spelling :
    let ts := ({} : Interner).run
      [.newAlias "N", .setAlias 10 3, .func [10] 1, .func [3] 1, .object [("f", 11)], .object [("f", 12)]]
    ts.identical 13 14 = true ∧ ∃ d e, Gave ts {} [.layoutOf 13, .layoutOf 14] 13 d ∧
      Gave ts {} [.layoutOf 13, .layoutOf 14] 14 e ∧ d.tag ≠ e.tag := by
  intro ts
  have hd : (Call.layoutOf 13).answer ts (after ts {} []) = .ok (.layout ⟨2, "anon.1", .object, 13,
      [⟨"f", .func 11, 2, 8⟩], 16, 8⟩) := by decide +kernel
  have he : (Call.layoutOf 14).answer ts (after ts {} [.layoutOf 13]) = .ok (.layout ⟨3, "anon.2", .object, 14,
      [⟨"f", .func 12, 2, 8⟩], 16, 8⟩) := by decide +kernel
  exact ⟨by decide +kernel, _, _, ⟨[], [.layoutOf 14], rfl, hd⟩, ⟨[.layoutOf 13], [], rfl, he⟩, by decide⟩

end Registry

end TypedScript.Layout
