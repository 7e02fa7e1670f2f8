import Mathlib.Algebra.Ring.Int.Defs
import Mathlib.Order.Bounds.Basic
import TypedScript.Lower.Objects
import TypedScript.Proofs.Layout.Placed
import TypedScript.Proofs.Ty.Canonical

/-!
# Natural alignment

The layout of an object is made apart from the struct that is declared for it. Both agree: the fields stand where
the machine puts the members of the struct, each at the least multiple of its alignment that is not below the end
of the one before it. They agree as long as the struct fits into the address space, and only for integers that are
as wide as those of the language; `build_unnatural` shows what becomes of others.

* `IsNatural`: where the members of a struct stand; `HasRoom`: they stand within the address space.
* `isStored_of_resolveFrom`: what the types of a program are represented by.
* `build_natural`: layouts are natural, and do not depend on the order in which the fields are given.
-/

namespace TypedScript.Layout

open TypedScript.Ir TypedScript.Lower

/-- The size and the alignment of a machine type. Nothing is stored in void. -/
def naturalOf (t : Target) : Scalar → Int × Int
  | .void => (0, 1)
  | .i1 | .i8 => (1, 1)
  | .i16 => (2, 2)
  | .i32 => (4, 4)
  | .i64 | .f64 => (8, 8)
  | .ptr => (t.pointerSize.toInt, t.pointerAlign.toInt)

/-- Members of the given types stand at `starts`, one behind the other, the first not before `stop`; the last ends
at `last`. -/
inductive Stands (t : Target) : Int → List Ir.Ty → List Int → Int → Prop
  | nil (stop : Int) : Stands t stop [] [] stop
  | cons {stop start last : Int} {s : Scalar} {types : List Ir.Ty} {starts : List Int}
      (hstart : IsLeast {n | stop ≤ n ∧ (naturalOf t s).2 ∣ n} start)
      (hrest : Stands t (start + (naturalOf t s).1) types starts last) :
      Stands t stop (.scalar s :: types) (start :: starts) last

/-- The alignments of the members of a struct. -/
def alignments (t : Target) (types : List Ir.Ty) : Set Int :=
  {a | ∃ s, Ir.Ty.scalar s ∈ types ∧ (naturalOf t s).2 = a}

/-- A struct whose members stand at `starts` has natural alignment: it is aligned as the widest member, and its
size is the least multiple of its alignment that holds all members. -/
structure IsNatural (t : Target) (types : List Ir.Ty) (starts : List Int) (size align : Int) : Prop where
  widest : IsGreatest (alignments t types) align
  stands : ∃ last, Stands t 0 types starts last ∧ IsLeast {n | last ≤ n ∧ align ∣ n} size

/-- The struct and what it may be aligned by lie within the address space. -/
def HasRoom (t : Target) (types : List Ir.Ty) : Prop :=
  ∃ starts size align, IsNatural t types starts size align ∧ size + align ≤ 2 ^ 63

theorem alignments_nil (t : Target) : alignments t [] = ∅ := by simp [alignments]

theorem alignments_cons (t : Target) (s : Scalar) (types : List Ir.Ty) :
    alignments t (.scalar s :: types) = insert (naturalOf t s).2 (alignments t types) := by
  ext a
  simp only [alignments, List.mem_cons, Ir.Ty.scalar.injEq, Set.mem_ofPred_eq, Set.mem_insert_iff]
  constructor
  · rintro ⟨s', rfl | hs', rfl⟩
    · exact .inl rfl
    · exact .inr ⟨s', hs', rfl⟩
  · rintro (rfl | ⟨s', hs', rfl⟩)
    · exact ⟨s, .inl rfl, rfl⟩
    · exact ⟨s', .inr hs', rfl⟩

/-! ### Representations -/

/-- There are values to be stored, and integers are as wide as those of the language. -/
def Rep.IsStored : Rep → Prop
  | .void => False
  | .int bits => bits = 8 ∨ bits = 16 ∨ bits = 32 ∨ bits = 64
  | _ => True

instance : DecidablePred Rep.IsStored := fun r => by
  cases r <;> unfold Rep.IsStored <;> infer_instance

theorem sizeAlign_eq_naturalOf {r : Rep} (h : r.IsStored) (t : Target) :
    ((r.sizeAlign t).1.toInt, (r.sizeAlign t).2.toInt) = naturalOf t (irType r) := by
  cases r with
  | void => exact h.elim
  | int bits => obtain rfl | rfl | rfl | rfl := h <;> rfl
  | _ => rfl

/-- The widths of integer types are those of the language. -/
def HasWidths (types : Ty.Interner) : Prop := ∀ bits, Ty.int bits ∈ types.types → Rep.IsStored (.int bits)

theorem hasWidths_push {types : Ty.Interner} (h : HasWidths types) {u : TypedScript.Ty}
    (hu : ∀ bits, u ≠ .int bits) :
    HasWidths ⟨types.types.push u⟩ := by
  intro bits hmem
  rcases Array.mem_push.1 hmem with hmem | heq
  · exact h bits hmem
  · exact absurd heq.symm (hu bits)

theorem hasWidths_intern {types : Ty.Interner} (h : HasWidths types) {u : TypedScript.Ty}
    (hu : ∀ bits, u ≠ .int bits) :
    HasWidths (types.intern u).2 := by
  unfold Ty.Interner.intern
  split
  · exact h
  · exact hasWidths_push h hu

theorem hasWidths_setAlias {types : Ty.Interner} (h : HasWidths types) (id target : Nat) :
    HasWidths (types.setAlias id target) := by
  unfold Ty.Interner.setAlias
  split
  · intro bits hmem
    rcases Array.mem_or_eq_of_mem_setIfInBounds hmem with hmem | heq
    · exact h bits hmem
    · cases heq
  · exact h

theorem HasWidths.next {types : Ty.Interner} (h : HasWidths types) (call : Ty.Interner.Call) : HasWidths
    (call.next types) := by
  cases call with
  | primitive name => exact h
  | object props => exact hasWidths_intern h fun _ => nofun
  | func params result => exact hasWidths_intern h fun _ => nofun
  | newAlias name => exact hasWidths_push h fun _ => nofun
  | setAlias id target => exact hasWidths_setAlias h id target

theorem HasWidths.run {types : Ty.Interner} (h : HasWidths types) (calls : List Ty.Interner.Call) : HasWidths
    (types.run calls) := by
  induction calls generalizing types with
  | nil => exact h
  | cons call calls ih => exact ih (h.next call)

/-- Whatever an interner is asked for, its integer types are those it starts with. -/
theorem hasWidths_run (calls : List Ty.Interner.Call) : HasWidths (({} : Ty.Interner).run calls) := by
  have hstart : HasWidths {} := by
    intro bits hmem
    have hbits : bits = 8 ∨ bits = 16 ∨ bits = 32 ∨ bits = 64 := by simpa [Ty.primitives] using hmem
    exact hbits
  exact hstart.run calls

/-- What types are represented by is stored, unless it is void. -/
theorem isStored_of_resolveFrom {types : Ty.Interner} (htypes : HasWidths types) {depth type : Nat}
    {r r' : Registry} {rep : Rep} (h : (Registry.resolveFrom types depth type).run.run r = (.ok rep, r')) :
    rep = .void ∨ rep.IsStored := by
  cases depth with
  | zero => cases h
  | succ depth =>
    rw [Registry.resolveFrom] at h
    split at h
    case h_1 =>
      cases h
      exact .inl rfl
    case h_4 bits hbits =>
      cases h
      exact .inr (htypes bits (Array.mem_of_getElem? (Ty.Interner.getElem?_of_lookup? hbits)))
    case h_7 =>
      rw [ExceptT.run_bind, StateT.run_bind] at h
      rcases hrun : (Registry.layoutFrom types depth type).run.run r with ⟨_ | d, r₁⟩ <;> rw [hrun] at h <;> cases h
      exact .inr trivial
    case h_8 => cases h
    all_goals
      cases h
      exact .inr trivial

theorem naturalOf_pos {t : Target} (ht : 0 < t.pointerSize ∧ 0 < t.pointerAlign) {r : Rep} (h : r.IsStored) :
    0 < (naturalOf t (irType r)).1 ∧ 0 < (naturalOf t (irType r)).2 := by
  have hpointer : 0 < t.pointerSize.toInt ∧ 0 < t.pointerAlign.toInt :=
    ⟨Int64.lt_iff_toInt_lt.1 ht.1, Int64.lt_iff_toInt_lt.1 ht.2⟩
  cases r with
  | void => exact h.elim
  | int bits => obtain rfl | rfl | rfl | rfl := h <;> simp [irType, Scalar.ofBits, naturalOf]
  | bool | float => simp [irType, naturalOf]
  | _ => exact hpointer

/-! ### Alignment -/

/-- The least multiple is less than the alignment away. -/
theorem isLeast_of_lt {stop start a : Int} (hle : stop ≤ start) (hdvd : a ∣ start) (hlt : start < stop + a) :
    IsLeast {n | stop ≤ n ∧ a ∣ n} start := by
  refine ⟨⟨hle, hdvd⟩, fun m hm => ?_⟩
  by_contra hnot
  have hgap : a ≤ start - m := Int.le_of_dvd (by omega) (Int.dvd_sub hdvd hm.2)
  have hstop := hm.1
  omega

/-- Aligning goes up to the least multiple, if it does not wrap around. -/
theorem isLeast_alignUp {n a : Int64} (hn : 0 ≤ n.toInt) (ha : 0 < a.toInt) (hroom : n.toInt + a.toInt ≤ 2 ^ 63) :
    IsLeast {m | n.toInt ≤ m ∧ a.toInt ∣ m} (alignUp n a).toInt := by
  unfold alignUp
  split
  · rename_i hle
    have hone : a.toInt ≤ 1 := Int64.le_iff_toInt_le.1 hle
    have heq : a.toInt = 1 := by omega
    exact isLeast_of_lt (Int.le_refl _) (heq ▸ Int.one_dvd _) (by omega)
  · have hsum : (n + a - 1).toInt = n.toInt + a.toInt - 1 := by
      rw [Int64.toInt_sub, Int64.toInt_add, Int.bmod_sub_bmod, show (1 : Int64).toInt = 1 from rfl]
      exact Int.bmod_eq_of_le (by omega) (by omega)
    have hdiv := Int.mul_ediv_add_emod (n.toInt + a.toInt - 1) a.toInt
    have hmod := Int.emod_lt_of_pos (n.toInt + a.toInt - 1) ha
    have hmod' := Int.emod_nonneg (n.toInt + a.toInt - 1) (show a.toInt ≠ 0 by omega)
    have hle : (n.toInt + a.toInt - 1) / a.toInt ≤ n.toInt + a.toInt - 1 := Int.ediv_le_self _ (by omega)
    have hpos : 0 ≤ (n.toInt + a.toInt - 1) / a.toInt := Int.ediv_nonneg (by omega) (by omega)
    have hquot : ((n + a - 1) / a).toInt = (n.toInt + a.toInt - 1) / a.toInt := by
      rw [Int64.toInt_div, hsum, Int.tdiv_eq_ediv_of_nonneg (by omega)]
      exact Int.bmod_eq_of_le (by omega) (by omega)
    have hmul : ((n + a - 1) / a * a).toInt = a.toInt * ((n.toInt + a.toInt - 1) / a.toInt) := by
      rw [Int64.toInt_mul, hquot, Int.mul_comm]
      exact Int.bmod_eq_of_le (by omega) (by omega)
    rw [hmul]
    exact isLeast_of_lt (by omega) (Int.dvd_mul_right ..) (by omega)

/-! ### Placing fields -/

variable {t : Target} {slot : Nat} {offset : Int64} {specs : List FieldSpec}

/-- The machine type of the values of a field. -/
def FieldSpec.machineType (s : FieldSpec) : Ir.Ty := irType s.rep

theorem structOf_build (t : Target) (tag : Int) (name : String) (kind : Kind) (specs : List FieldSpec) :
    (structOf (build t tag name kind specs)).fields =
      .scalar .i32 :: .scalar .i32 :: (sortSpecs specs).map FieldSpec.machineType := by
  rw [← specs_build t tag name kind specs, Descriptor.specs, List.map_map]
  rfl

theorem toInt_max (x y : Int64) : (max x y).toInt = max x.toInt y.toInt := by
  show (if x ≤ y then y else x).toInt = _
  split
  · rename_i hle
    rw [max_eq_right (Int64.le_iff_toInt_le.1 hle)]
  · rename_i hle
    have hlt : y.toInt < x.toInt := by
      rw [Int64.le_iff_toInt_le] at hle
      omega
    rw [max_eq_left hlt.le]

/-- A field is aligned as the member of a struct. -/
theorem toInt_max_align (ht : 0 < t.pointerSize ∧ 0 < t.pointerAlign) {r : Rep} (hr : r.IsStored) :
    (max (r.sizeAlign t).2 1).toInt = (naturalOf t (irType r)).2 := by
  have hpos := (naturalOf_pos ht hr).2
  have hone : (1 : Int64).toInt = 1 := rfl
  rw [← sizeAlign_eq_naturalOf hr t] at hpos ⊢
  rw [toInt_max, hone]
  exact max_eq_left hpos

/-- Members stand one behind the other. The induction is on them. -/
theorem Stands.le (ht : 0 < t.pointerSize ∧ 0 < t.pointerAlign) (hspecs : ∀ s ∈ specs, s.rep.IsStored)
    {stop last : Int} {starts : List Int} (h : Stands t stop (specs.map FieldSpec.machineType) starts last) :
    stop ≤ last := by
  induction specs generalizing stop starts with
  | nil =>
    cases h
    exact Int.le_refl _
  | cons s rest ih =>
    obtain ⟨hs, hrest⟩ := List.forall_mem_cons.1 hspecs
    cases h with
    | cons hstart hmore =>
      have hle := hstart.1.1
      have hsize := (naturalOf_pos ht hs).1
      have hlast := ih hrest hmore
      omega

/-- Fields stand where the members of a struct stand, as far as there is room: one behind the other, none behind
the end of the struct. The induction is on the fields. -/
theorem place_stands {align last : Int} {starts : List Int} (ht : 0 < t.pointerSize ∧ 0 < t.pointerAlign)
    (hspecs : ∀ s ∈ specs, s.rep.IsStored) (halign : ∀ s ∈ specs, (naturalOf t (irType s.rep)).2 ≤ align)
    (hoffset : 0 ≤ offset.toInt) (hroom : last + align ≤ 2 ^ 63) (hone : 0 < align)
    (h : Stands t offset.toInt (specs.map FieldSpec.machineType) starts last) :
    let (fields, stop, _) := place t slot offset specs
    (fields.map (·.offset.toInt) = starts ∧ stop.toInt = last) ∧
      (∀ f ∈ fields, offset.toInt ≤ f.offset.toInt ∧ f.offset.toInt + (f.rep.sizeAlign t).1.toInt ≤ last) ∧
      fields.Pairwise fun f g => f.offset.toInt + (f.rep.sizeAlign t).1.toInt ≤ g.offset.toInt := by
  induction specs generalizing slot offset starts with
  | nil =>
    cases h
    simp [place]
  | cons s rest ih =>
    obtain ⟨hs, hrest⟩ := List.forall_mem_cons.1 hspecs
    obtain ⟨hsalign, hralign⟩ := List.forall_mem_cons.1 halign
    cases h with
    | @cons _ start _ _ _ _ hstart hmore =>
      obtain ⟨hsize, hpos⟩ := naturalOf_pos ht hs
      have hlast := Stands.le ht hrest hmore
      have hstart' := hstart.1.1
      have hle := toInt_max_align ht hs
      -- what is added here stays below the end of the struct, so nothing wraps around
      have haligned : (alignUp offset (max (s.rep.sizeAlign t).2 1)).toInt = start := by
        refine (isLeast_alignUp hoffset ?_ ?_).unique (hle.symm ▸ hstart)
        · rw [hle]
          exact hpos
        · rw [hle]
          omega
      have hnatural : (s.rep.sizeAlign t).1.toInt = (naturalOf t (irType s.rep)).1 :=
        congrArg Prod.fst (sizeAlign_eq_naturalOf hs t)
      have hstop : (alignUp offset (max (s.rep.sizeAlign t).2 1) + (s.rep.sizeAlign t).1).toInt =
          start + (naturalOf t (irType s.rep)).1 := by
        rw [Int64.toInt_add, haligned, hnatural]
        exact Int.bmod_eq_of_le (by omega) (by omega)
      have hplaced := @ih (slot + 1) _ _ hrest hralign (by rw [hstop]; omega) (hstop.symm ▸ hmore)
      obtain ⟨⟨hstarts, hend⟩, hfields, hpairs⟩ := hplaced
      dsimp only [place]
      rw [List.forall_mem_cons, List.pairwise_cons, List.map_cons, hstarts, haligned, hnatural]
      refine ⟨⟨rfl, hend⟩, ⟨⟨hstart', by omega⟩, fun f hf => ?_⟩, fun f hf => ?_, hpairs⟩
      · obtain ⟨hlow, hhigh⟩ := hfields f hf
        rw [hstop] at hlow
        exact ⟨by omega, hhigh⟩
      · have hlow := (hfields f hf).1
        rwa [hstop] at hlow

/-- The header takes the first eight bytes. -/
theorem stands_header {types : List Ir.Ty} {starts : List Int} {last : Int}
    (h : Stands t 0 (.scalar .i32 :: .scalar .i32 :: types) starts last) :
    ∃ offsets, starts = 0 :: 4 :: offsets ∧ Stands t 8 types offsets last := by
  have hzero : IsLeast {n : Int | 0 ≤ n ∧ 4 ∣ n} 0 := ⟨⟨Int.le_refl 0, Int.dvd_zero 4⟩, fun n hn => hn.1⟩
  have hfour : IsLeast {n : Int | 4 ≤ n ∧ 4 ∣ n} 4 := ⟨⟨Int.le_refl 4, Int.dvd_refl 4⟩, fun n hn => hn.1⟩
  cases h with
  | cons hstart h =>
    obtain rfl := hstart.unique hzero
    cases h with
    | cons hstart h =>
      obtain rfl := hstart.unique hfour
      exact ⟨_, rfl, h⟩

/-- The widest alignment is that of the widest field, or of the header. The induction is on the fields. -/
theorem isGreatest_place (ht : 0 < t.pointerSize ∧ 0 < t.pointerAlign) (hspecs : ∀ s ∈ specs, s.rep.IsStored) :
    IsGreatest (insert 4 (alignments t (specs.map FieldSpec.machineType)))
      (place t slot offset specs).2.2.toInt := by
  induction specs generalizing slot offset with
  | nil =>
    rw [List.map_nil, alignments_nil, insert_empty_eq]
    exact isGreatest_singleton
  | cons s rest ih =>
    obtain ⟨hs, hrest⟩ := List.forall_mem_cons.1 hspecs
    dsimp only [place]
    rw [toInt_max, toInt_max_align ht hs, List.map_cons, FieldSpec.machineType, alignments_cons,
      Set.insert_comm, max_comm]
    exact (ih hrest).insert _

/-! ### Building layouts -/

theorem specLe_total (a b : FieldSpec) : decide (a.name ≤ b.name) = true ∨ decide (b.name ≤ a.name) = true := by
  simpa using String.le_total a.name b.name

theorem specLe_trans (a b c : FieldSpec) (hab : decide (a.name ≤ b.name) = true)
    (hbc : decide (b.name ≤ c.name) = true) :
    decide (a.name ≤ c.name) = true := by
  simp only [decide_eq_true_eq] at hab hbc ⊢
  exact String.le_trans hab hbc

theorem sortSpecs_eq_of_perm {specs specs' : List FieldSpec} (hnames : (specs.map (·.name)).Nodup)
    (h : specs.Perm specs') :
    sortSpecs specs = sortSpecs specs' := by
  refine Order.sorted_eq_of_perm specLe_total specLe_trans h fun a ha b hb hab hba => ?_
  have hname : a.name = b.name := String.le_antisymm (of_decide_eq_true hab) (of_decide_eq_true hba)
  exact List.inj_on_of_nodup_map hnames ha hb hname

theorem pairwise_lt_sortSpecs (hnames : (specs.map (·.name)).Nodup) :
    (sortSpecs specs).Pairwise fun a b => a.name < b.name := by
  have hsorted : ((sortSpecs specs).map (·.name)).Nodup := ((Order.sorted_perm _ specs).map _).nodup_iff.2 hnames
  refine ((Order.pairwise_sorted specLe_total specLe_trans specs).and (List.pairwise_map.1 hsorted)).imp
    fun ⟨hle, hne⟩ => ?_
  exact Std.lt_of_le_of_ne (of_decide_eq_true hle) hne

/-- A struct that has room has its natural layout: what is known of it tells how large it is, and where its fields
are. -/
theorem natural_build (ht : 0 < t.pointerSize ∧ 0 < t.pointerAlign) (hspecs : ∀ s ∈ specs, s.rep.IsStored)
    {tag : Int} {name : String} {kind : Kind} (hroom : HasRoom t (structOf (build t tag name kind specs)).fields) :
    let d := build t tag name kind specs
    IsNatural t (structOf d).fields (0 :: 4 :: d.fields.map (·.offset.toInt)) d.size.toInt d.align.toInt ∧
      d.fields.Pairwise (fun f g => f.offset.toInt + (f.rep.sizeAlign t).1.toInt ≤ g.offset.toInt) ∧
      (∀ f ∈ d.fields, 8 ≤ f.offset.toInt ∧ f.offset.toInt + (f.rep.sizeAlign t).1.toInt ≤ d.size.toInt) ∧
      d.align.toInt ∣ d.size.toInt := by
  intro d
  have hstored : ∀ s ∈ sortSpecs specs, s.rep.IsStored :=
    fun s hs => hspecs s ((Order.sorted_perm _ specs).mem_iff.1 hs)
  obtain ⟨starts, size, align, ⟨hwidest, last, hstands, hsize⟩, hroom⟩ := hroom
  rw [structOf_build] at hwidest hstands
  have hgreatest : IsGreatest (insert 4 (alignments t ((sortSpecs specs).map FieldSpec.machineType)))
    d.align.toInt :=
    isGreatest_place ht hstored
  have halign : align = d.align.toInt := by
    rw [alignments_cons, alignments_cons] at hwidest
    have h4 : (naturalOf t .i32).2 = 4 := rfl
    rw [h4, Set.insert_eq_of_mem (Set.mem_insert 4 _)] at hwidest
    exact hwidest.unique hgreatest
  subst halign
  -- the header stands at the start of the struct, as its first two members
  obtain ⟨offsets, rfl, hfields⟩ := stands_header hstands
  have hfour : (4 : Int) ≤ d.align.toInt := hgreatest.2 (Set.mem_insert 4 _)
  have hmember : ∀ s ∈ sortSpecs specs, (naturalOf t (irType s.rep)).2 ≤ d.align.toInt := by
    intro s hs
    exact hgreatest.2 (Set.mem_insert_of_mem _ ⟨irType s.rep, List.mem_map_of_mem hs, rfl⟩)
  have hlast : last ≤ size := hsize.1.1
  have hpositive : 8 ≤ last := Stands.le ht hstored hfields
  obtain ⟨⟨hoffsets, hstop⟩, hbetween, hpairs⟩ :
      let (fields, stop, _) := place t headerSlots headerSize (sortSpecs specs)
      (fields.map (·.offset.toInt) = offsets ∧ stop.toInt = last) ∧ _ :=
    place_stands ht hstored hmember (by decide) (by omega) (by omega) hfields
  have hleast : IsLeast {m | last ≤ m ∧ d.align.toInt ∣ m} d.size.toInt := by
    rw [← hstop]
    exact isLeast_alignUp (by rw [hstop]; omega) (by omega) (by rw [hstop]; omega)
  obtain rfl := hleast.unique hsize
  refine ⟨⟨?_, last, ?_, hsize⟩, hpairs, fun f hf => ?_, hsize.1.2⟩
  · rw [structOf_build]
    exact hwidest
  · rw [structOf_build]
    exact hoffsets ▸ hstands
  · obtain ⟨hlow, hhigh⟩ := hbetween f hf
    exact ⟨hlow, hhigh.trans hlast⟩

/-- Fields of different names are put behind the header in order of their names, into slots one after another; the
order in which they are given does not matter. If all of them are stored and there is room for the struct that is
declared for the layout, offsets, size and alignment are those of the struct, and no field reaches into another
one, or out of the object. Whatever a type is represented by is stored, unless it is void. -/
theorem build_natural (ht : 0 < t.pointerSize ∧ 0 < t.pointerAlign) (hnames : (specs.map (·.name)).Nodup)
    (tag : Int) (name : String) (kind : Kind) :
    let d := build t tag name kind specs
    (d.specs.Perm specs ∧ d.fields.Pairwise (fun f g => f.name < g.name) ∧
      d.fields.map (·.slot) = List.range' 2 specs.length) ∧
    (∀ specs', specs.Perm specs' → build t tag name kind specs' = d) ∧
    ((∀ s ∈ specs, s.rep.IsStored) → HasRoom t (structOf d).fields →
      IsNatural t (structOf d).fields (0 :: 4 :: d.fields.map (·.offset.toInt)) d.size.toInt d.align.toInt ∧
      d.fields.Pairwise (fun f g => f.offset.toInt + (f.rep.sizeAlign t).1.toInt ≤ g.offset.toInt) ∧
      (∀ f ∈ d.fields, 8 ≤ f.offset.toInt ∧ f.offset.toInt + (f.rep.sizeAlign t).1.toInt ≤ d.size.toInt) ∧
      d.align.toInt ∣ d.size.toInt) ∧
    ∀ calls type r r' rep, (Registry.resolve (({} : Ty.Interner).run calls) type).run.run r = (.ok rep, r') →
      rep ≠ .void → rep.IsStored := by
  intro d
  have hperm : (sortSpecs specs).Perm specs := Order.sorted_perm _ specs
  have hspec : d.specs = sortSpecs specs := specs_build t tag name kind specs
  have hslots : d.fields.map (·.slot) = List.range' 2 (sortSpecs specs).length :=
    map_slot_place t headerSlots headerSize (sortSpecs specs)
  refine ⟨⟨?_, ?_, ?_⟩, fun specs' h => ?_, fun hspecs hroom => ?_, fun calls type r r' rep h hvoid => ?_⟩
  · rw [hspec]
    exact hperm
  · have hlt := pairwise_lt_sortSpecs hnames
    rw [← hspec, Descriptor.specs] at hlt
    rwa [List.pairwise_map] at hlt
  · rw [hslots, hperm.length_eq]
  · unfold build
    rw [← sortSpecs_eq_of_perm hnames h]
    rfl
  · exact natural_build ht hspecs hroom
  · exact (isStored_of_resolveFrom (hasWidths_run calls) h).resolve_left hvoid

/-- Fields of one, eight, four and one byte, with a gap before the second and another one at the end. -/
theorem build_natural_gaps :
    let specs : List FieldSpec := [⟨"d", .bool⟩, ⟨"b", .float⟩, ⟨"a", .int 8⟩, ⟨"c", .int 32⟩]
    let d := build {} 2 "anon.1" .object specs
    (0 < ({} : Target).pointerSize ∧ 0 < ({} : Target).pointerAlign) ∧ (specs.map (·.name)).Nodup ∧
      (∀ s ∈ specs, s.rep.IsStored) ∧ HasRoom {} (structOf d).fields ∧
      d.specs = [⟨"a", .int 8⟩, ⟨"b", .float⟩, ⟨"c", .int 32⟩, ⟨"d", .bool⟩] ∧
      IsNatural {} (structOf d).fields [0, 4, 8, 16, 24, 28] 32 8 := by
  intro specs d
  have ht : 0 < ({} : Target).pointerSize ∧ 0 < ({} : Target).pointerAlign := by decide
  have hnames : (specs.map (·.name)).Nodup := by decide
  have hspecs : ∀ s ∈ specs, s.rep.IsStored := by decide
  have hfields : (structOf d).fields =
    [.scalar .i32, .scalar .i32, .scalar .i8, .scalar .f64, .scalar .i32, .scalar .i1] := rfl
  have hwidest : IsGreatest (alignments {} (structOf d).fields) 8 := by
    rw [hfields]
    refine ⟨⟨.f64, by simp, rfl⟩, ?_⟩
    rintro _ ⟨s, hs, rfl⟩
    cases s <;> decide
  have hstands : Stands {} 0 (structOf d).fields [0, 4, 8, 16, 24, 28] 29 := by
    rw [hfields]
    exact .cons (isLeast_of_lt (by decide) (by decide) (by decide)) <|
      .cons (isLeast_of_lt (by decide) (by decide) (by decide)) <|
      .cons (isLeast_of_lt (by decide) (by decide) (by decide)) <|
      .cons (isLeast_of_lt (by decide) (by decide) (by decide)) <|
      .cons (isLeast_of_lt (by decide) (by decide) (by decide)) <|
      .cons (isLeast_of_lt (by decide) (by decide) (by decide)) (.nil _)
  have hroom : HasRoom {} (structOf d).fields := by
    have hsize : IsLeast {n : Int | 29 ≤ n ∧ 8 ∣ n} 32 := isLeast_of_lt (by decide) (by decide) (by decide)
    exact ⟨_, 32, 8, ⟨hwidest, 29, hstands, hsize⟩, by decide⟩
  obtain ⟨-, -, hnatural, -⟩ := build_natural ht hnames 2 "anon.1" .object
  exact ⟨ht, hnames, hspecs, hroom, by decide, (hnatural hspecs hroom).1⟩

/-- Two layouts that are not natural. Integers of three bytes are given no more room than that, although they are
members of eight bytes in the struct; and an object with a pointer so large that it reaches beyond the address
space has a negative size. -/
theorem build_unnatural :
    let short : Descriptor := build {} 7 "T" .object [⟨"a", .int 24⟩]
    let t : Target := { pointerSize := 4611686018427387904, pointerAlign := 4611686018427387904 }
    let large : Descriptor := build t 7 "T" .object [⟨"a", .string 0⟩]
    (short.size.toInt = 12 ∧ ¬ IsNatural {} (structOf short).fields (0 :: 4 :: short.fields.map (·.offset.toInt))
      short.size.toInt short.align.toInt) ∧
    (0 < t.pointerSize ∧ 0 < t.pointerAlign) ∧ large.size.toInt = -4611686018427387904 ∧
      ¬ IsNatural t (structOf large).fields (0 :: 4 :: large.fields.map (·.offset.toInt)) large.size.toInt
        large.align.toInt := by
  intro short t large
  have ht : 0 < t.pointerSize ∧ 0 < t.pointerAlign := by decide
  have hsize : large.size.toInt = -4611686018427387904 := by decide
  refine ⟨⟨by decide, fun h => ?_⟩, ht, hsize, fun h => ?_⟩
  · have hmember : (8 : Int) ∈ alignments {} (structOf short).fields :=
      ⟨.i64, List.mem_of_getElem? (i := 2) rfl, rfl⟩
    have hle : 8 ≤ short.align.toInt := h.widest.2 hmember
    exact absurd hle (by decide)
  · obtain ⟨last, hstands, hleast⟩ := h.stands
    rw [structOf_build] at hstands
    obtain ⟨offsets, -, hfields⟩ := stands_header hstands
    have hlast : 8 ≤ last := Stands.le ht (by decide) hfields
    have hend : last ≤ large.size.toInt := hleast.1.1
    omega

end TypedScript.Layout
