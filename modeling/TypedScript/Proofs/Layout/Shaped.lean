import Mathlib.Data.List.Forall2
import Mathlib.Data.List.Nodup
import TypedScript.Layout.Registry
import TypedScript.Proofs.Order.Sorted
import TypedScript.Proofs.Text.Encoded

/-!
# What the shape of an object type tells

Object types share a layout if their shapes are one text, in which the fields stand in order, each with its name
and a fingerprint. The text can be taken apart again as long as no name has a colon; then equal shapes are made of
the same names with the same marks.

* `Rep.mark`: what a fingerprint tells of a representation, and `mark_of_fingerprint`.
* `print_sortSpecs`: fields of one shape have the same names and fingerprints, in the order in which they are
  placed, and so the same marks.
* `forall₂_place`: fields that agree get the same places.
-/

namespace TypedScript.Layout

open TypedScript.Text

/-! ### Fingerprints -/

/-- The representation without the numbers by which one interner and one registry know it: its kind and its width.
-/
def Rep.bare : Rep → Rep
  | .string _ => .string 0
  | .object l _ => .object (l.map fun _ => ⟨0, ""⟩) 0
  | .func _ => .func 0
  | rep => rep

/-- What can be told of a representation by its fingerprint: the kind, the width, and the tag of the layout. -/
def Rep.mark (rep : Rep) : Rep × Option Int := (rep.bare, rep.layout?.map (·.tag))

/-- The representation is one that types have, and no bit is taken for an integer. -/
inductive Rep.IsPlain : Rep → Prop
  | void : IsPlain .void
  | bool : IsPlain .bool
  | float : IsPlain .float
  | int {bits : Nat} (h : bits ≠ 1) : IsPlain (.int bits)
  | string (type : Nat) : IsPlain (.string type)
  | func (type : Nat) : IsPlain (.func type)
  | object (l : LayoutRef) (type : Nat) : IsPlain (.object (some l) type)

/-- A field with a proper name and representation. -/
structure FieldSpec.IsPlain (s : FieldSpec) : Prop where
  name : ':' ∉ s.name.toList
  rep : s.rep.IsPlain

def FieldSpec.mark (s : FieldSpec) : String × Rep × Option Int := (s.name, s.rep.mark)

@[simp] theorem Rep.sizeAlign_bare (t : Target) (rep : Rep) : rep.bare.sizeAlign t = rep.sizeAlign t := by
  cases rep <;> rfl

@[simp] theorem Rep.isCounted_bare (rep : Rep) : rep.bare.isCounted = rep.isCounted := by
  cases rep <;> rfl

theorem notMem_repr_int {c : Char} (hc : c.isDigit = false) (hminus : c ≠ '-') (n : Int) : c ∉ n.repr.toList := by
  cases n with
  | ofNat n => simpa [Int.repr] using notMem_toDigits hc n
  | negSucc n => simpa [Int.repr, hminus] using notMem_toDigits hc (n + 1)

/-- A fingerprint has no separators. -/
theorem Rep.IsPlain.notMem_fingerprint {rep : Rep} (h : rep.IsPlain) {c : Char} (hc : c = ':' ∨ c = ',') :
    c ∉ rep.fingerprint.toList := by
  have hdigit : c.isDigit = false := by rcases hc with rfl | rfl <;> rfl
  have hminus : c ≠ '-' := by rcases hc with rfl | rfl <;> decide
  have hdigits := notMem_toDigits hdigit
  have hint := notMem_repr_int hdigit hminus
  cases h <;> rcases hc with rfl | rfl <;> simp [fingerprint, text, toString, hdigits, hint]

theorem repr_int_inj {m n : Int} (h : m.repr = n.repr) : m = n := by
  have hminus (k : Nat) : '-' ∉ Nat.toDigits 10 k := notMem_toDigits rfl k
  have hlist := congrArg String.toList h
  cases m <;> cases n <;> simp [Int.repr] at hlist
  case ofNat.ofNat => rw [toDigits_inj hlist]
  case ofNat.negSucc m n => exact absurd (hlist ▸ List.mem_cons_self) (hminus m)
  case negSucc.ofNat m n => exact absurd (hlist ▸ List.mem_cons_self) (hminus n)
  case negSucc.negSucc => rw [Nat.succ.inj (toDigits_inj hlist)]

/-- Representations with one fingerprint have one mark. -/
theorem Rep.mark_of_fingerprint {rep rep' : Rep} (h : rep.IsPlain) (h' : rep'.IsPlain)
    (heq : rep.fingerprint = rep'.fingerprint) : rep.mark = rep'.mark := by
  have hlist := congrArg String.toList heq
  cases h <;> cases h' <;> simp [fingerprint, text, toString] at hlist
  case bool.int bits hne => exact absurd (toDigits_inj (m := 1) hlist).symm hne
  case int.bool bits hne => exact absurd (toDigits_inj (n := 1) hlist) hne
  case int.int => rw [toDigits_inj hlist]
  case object.object =>
    have htag := repr_int_inj (String.toList_inj.1 hlist)
    simp [mark, bare, layout?, htag]
  all_goals rfl

/-! ### Shapes -/

namespace FieldSpec

/-- The field as it stands in a shape. -/
def chars (s : FieldSpec) : List Char := s.name.toList ++ ':' :: s.rep.fingerprint.toList

/-- What a shape tells of the field. -/
def print (s : FieldSpec) : String × String := (s.name, s.rep.fingerprint)

/-- Fields that are written one after another, each with a comma behind it, can be told. -/
theorem map_print_of_flatMap {specs specs' : List FieldSpec} (h : ∀ s ∈ specs, s.IsPlain)
    (h' : ∀ s ∈ specs', s.IsPlain)
    (heq : specs.flatMap (fun s => s.chars ++ [',']) = specs'.flatMap fun s => s.chars ++ [',']) :
    specs.map print = specs'.map print := by
  induction specs generalizing specs' with
  | nil =>
    cases specs' with
    | nil => rfl
    | cons s' specs' => simp at heq
  | cons s specs ih =>
    cases specs' with
    | nil => simp at heq
    | cons s' specs' =>
      obtain ⟨hs, hspecs⟩ := List.forall_mem_cons.1 h
      obtain ⟨hs', hspecs'⟩ := List.forall_mem_cons.1 h'
      simp only [List.flatMap_cons, chars, List.append_assoc, List.cons_append, List.nil_append] at heq
      -- the first colon ends the name, and the comma after it the fingerprint
      obtain ⟨hname, heq⟩ := append_cons_inj hs.name hs'.name heq
      obtain ⟨hprint, heq⟩ :=
        append_cons_inj (hs.rep.notMem_fingerprint (.inr rfl)) (hs'.rep.notMem_fingerprint (.inr rfl)) heq
      have hrest := ih hspecs hspecs' (by simpa only [chars, List.append_assoc, List.cons_append] using heq)
      rw [List.map_cons, List.map_cons, hrest, print, print, String.toList_inj.1 hname, String.toList_inj.1 hprint]

theorem intercalate_chars (s : FieldSpec) (specs : List FieldSpec) :
    [','].intercalate ((s :: specs).map chars) ++ [','] = (s :: specs).flatMap fun s => s.chars ++ [','] := by
  induction specs generalizing s with
  | nil => simp
  | cons s' specs ih =>
    have hih := ih s'
    simp only [List.map_cons, List.flatMap_cons] at hih ⊢
    rw [List.intercalate_cons_cons, ← hih]
    simp

/-- Fields that are written one after another, with commas between them, can be told. -/
theorem map_print_of_intercalate {specs specs' : List FieldSpec} (h : ∀ s ∈ specs, s.IsPlain)
    (h' : ∀ s ∈ specs', s.IsPlain)
    (heq : [','].intercalate (specs.map chars) = [','].intercalate (specs'.map chars)) :
    specs.map print = specs'.map print := by
  have hne (s : FieldSpec) (specs : List FieldSpec) : [','].intercalate ((s :: specs).map chars) ≠ [] := by
    intro hnil
    have hchars := intercalate_chars s specs
    rw [hnil] at hchars
    have hlength := congrArg List.length hchars
    simp [chars] at hlength
    omega
  cases specs with
  | nil =>
    cases specs' with
    | nil => rfl
    | cons s' specs' => exact absurd heq.symm (hne s' specs')
  | cons s specs =>
    cases specs' with
    | nil => exact absurd heq (hne s specs)
    | cons s' specs' =>
      have hcomma := congrArg (· ++ [',']) heq
      simp only [intercalate_chars] at hcomma
      exact map_print_of_flatMap h h' hcomma

/-- Fields of which the same is told have the same marks. -/
theorem map_mark_of_print {specs specs' : List FieldSpec} (h : ∀ s ∈ specs, s.IsPlain)
    (h' : ∀ s ∈ specs', s.IsPlain) (heq : specs.map print = specs'.map print) : specs.map mark =
    specs'.map mark := by
  induction specs generalizing specs' with
  | nil =>
    obtain rfl := List.map_eq_nil_iff.1 heq.symm
    rfl
  | cons s specs ih =>
    cases specs' with
    | nil => cases heq
    | cons s' specs' =>
      obtain ⟨hs, hspecs⟩ := List.forall_mem_cons.1 h
      obtain ⟨hs', hspecs'⟩ := List.forall_mem_cons.1 h'
      obtain ⟨hprint, hrest⟩ := List.cons.inj heq
      have hmark := Rep.mark_of_fingerprint hs.rep hs'.rep (congrArg Prod.snd hprint)
      have hname : s.name = s'.name := congrArg Prod.fst hprint
      rw [List.map_cons, List.map_cons, ih hspecs hspecs' hrest, mark, mark, hmark, hname]

end FieldSpec

/-- The order of fields in a shape. -/
def textLe (a b : FieldSpec) : Bool := a.name ++ ":" ++ a.rep.fingerprint ≤ b.name ++ ":" ++ b.rep.fingerprint

theorem toList_shapeKey (specs : List FieldSpec) : (Registry.shapeKey specs).toList =
    "object\x7b".toList ++ [','].intercalate ((Order.sorted textLe specs).map FieldSpec.chars) ++
      "\x7d".toList := by
  have hchars : (fun s : FieldSpec => (s.name ++ ":" ++ s.rep.fingerprint).toList) = FieldSpec.chars := by
    funext s
    simp [FieldSpec.chars]
  have hcomma : ",".toList = [','] := by simp
  unfold Registry.shapeKey
  rw [Order.sorted_map, String.toList_append, String.toList_append, String.toList_intercalate, List.map_map,
    hcomma, ← hchars]
  rfl

/-- Fields of one shape have the same names and fingerprints. -/
theorem perm_print_of_shapeKey {specs specs' : List FieldSpec} (h : ∀ s ∈ specs, s.IsPlain)
    (h' : ∀ s ∈ specs', s.IsPlain) (heq : Registry.shapeKey specs = Registry.shapeKey specs') :
    (specs.map FieldSpec.print).Perm (specs'.map FieldSpec.print) := by
  have hlist := congrArg String.toList heq
  rw [toList_shapeKey, toList_shapeKey, List.append_cancel_right_eq, List.append_cancel_left_eq] at hlist
  have hperm := Order.sorted_perm textLe specs
  have hperm' := Order.sorted_perm textLe specs'
  have hprints := FieldSpec.map_print_of_intercalate (fun s hs => h s (hperm.mem_iff.1 hs))
    (fun s hs => h' s (hperm'.mem_iff.1 hs)) hlist
  exact ((hperm.map _).symm.trans (.of_eq hprints)).trans (hperm'.map _)

/-- Fields of one shape are placed in one order, if their names are different. -/
theorem print_sortSpecs {specs specs' : List FieldSpec} (h : ∀ s ∈ specs, s.IsPlain) (h' : ∀ s ∈ specs', s.IsPlain)
    (hnames : (specs.map (·.name)).Nodup) (heq : Registry.shapeKey specs = Registry.shapeKey specs') :
    (sortSpecs specs).map FieldSpec.print = (sortSpecs specs').map FieldSpec.print := by
  have hsort (specs : List FieldSpec) : (sortSpecs specs).map FieldSpec.print =
      Order.sorted Order.nameLe (specs.map FieldSpec.print) := by
    rw [Order.sorted_map]
    rfl
  rw [hsort, hsort]
  refine Order.sorted_nameLe_eq_of_perm (perm_print_of_shapeKey h h' heq) ?_
  rw [List.map_map]
  exact hnames

theorem mark_sortSpecs {specs specs' : List FieldSpec} (h : ∀ s ∈ specs, s.IsPlain) (h' : ∀ s ∈ specs', s.IsPlain)
    (hnames : (specs.map (·.name)).Nodup) (heq : Registry.shapeKey specs = Registry.shapeKey specs') :
    (sortSpecs specs).map FieldSpec.mark = (sortSpecs specs').map FieldSpec.mark :=
  FieldSpec.map_mark_of_print (fun s hs => h s ((Order.sorted_perm _ _).mem_iff.1 hs))
    (fun s hs => h' s ((Order.sorted_perm _ _).mem_iff.1 hs)) (print_sortSpecs h h' hnames heq)

/-! ### Places -/

/-- Fields that agree get the same places, whatever else is known of them. -/
theorem forall₂_place {Q : FieldSpec → FieldSpec → Prop} (hQ : ∀ s s', Q s s' → s.rep.bare = s'.rep.bare)
    (t : Target) {specs specs' : List FieldSpec} (h : List.Forall₂ Q specs specs') (slot : Nat) (offset : Int64) :
    (place t slot offset specs).2 = (place t slot offset specs').2 ∧
      List.Forall₂ (fun f f' => f.slot = f'.slot ∧ f.offset = f'.offset ∧ Q ⟨f.name, f.rep⟩ ⟨f'.name, f'.rep⟩)
        (place t slot offset specs).1 (place t slot offset specs').1 := by
  induction h generalizing slot offset with
  | nil => exact ⟨rfl, .nil⟩
  | @cons s s' rest rest' hs _ ih =>
    have hsize : s.rep.sizeAlign t = s'.rep.sizeAlign t := by
      rw [← Rep.sizeAlign_bare, hQ s s' hs, Rep.sizeAlign_bare]
    simp only [place, hsize]
    obtain ⟨hstop, hfields⟩ :=
      ih (slot + 1) (alignUp offset (max (s'.rep.sizeAlign t).2 1) + (s'.rep.sizeAlign t).1)
    exact ⟨by rw [congrArg Prod.fst hstop, congrArg Prod.snd hstop], .cons ⟨rfl, rfl, hs⟩ hfields⟩

end TypedScript.Layout
