import Mathlib.Data.List.Nodup
import TypedScript.Layout.Registry

/-!
# Fields behind the header

Every layout that a registry makes puts its fields behind the header, each in a slot of its own, so no field of an
object shares a slot with its count or with another field.
-/

namespace TypedScript.Layout

/-- No field shares a slot with the count, or with another field. -/
structure Descriptor.IsPlaced (d : Descriptor) : Prop where
  ne_count : ∀ f ∈ d.fields, f.slot ≠ countSlot
  nodup : (d.fields.map (·.slot)).Nodup

/-- Fields are put into slots one after another. -/
theorem map_slot_place (t : Target) (slot : Nat) (offset : Int64) (specs : List FieldSpec) :
    (place t slot offset specs).1.map (·.slot) = List.range' slot specs.length := by
  induction specs generalizing slot offset with
  | nil => rfl
  | cons s rest ih => simp only [place, List.map_cons, List.length_cons, List.range'_succ, ih]

/-- A field without its place. -/
def Field.spec (f : Field) : FieldSpec := ⟨f.name, f.rep⟩

/-- The fields as they were before they got their places. -/
def Descriptor.specs (d : Descriptor) : List FieldSpec := d.fields.map Field.spec

theorem map_spec_place (t : Target) (slot : Nat) (offset : Int64) (specs : List FieldSpec) :
    (place t slot offset specs).1.map Field.spec = specs := by
  induction specs generalizing slot offset with
  | nil => rfl
  | cons s rest ih => simp only [place, List.map_cons, ih, Field.spec]

theorem specs_build (t : Target) (tag : Int) (name : String) (kind : Kind) (specs : List FieldSpec) :
    (build t tag name kind specs).specs = sortSpecs specs := map_spec_place t headerSlots headerSize
    (sortSpecs specs)

theorem build_isPlaced (t : Target) (tag : Int) (name : String) (kind : Kind) (specs : List FieldSpec) :
    (build t tag name kind specs).IsPlaced := by
  have hslots := map_slot_place t headerSlots headerSize (sortSpecs specs)
  refine ⟨fun f hf => ?_, ?_⟩
  · have hmem : f.slot ∈ List.range' headerSlots (sortSpecs specs).length := hslots ▸ List.mem_map_of_mem hf
    have hle := (List.mem_range'_1.1 hmem).1
    unfold headerSlots at hle
    unfold countSlot
    omega
  · exact (congrArg List.Nodup hslots).mpr List.nodup_range'

theorem default_isPlaced : (default : Descriptor).IsPlaced := ⟨fun _ hf => (nomatch hf), List.nodup_nil⟩

theorem Descriptor.field?_mem {d : Descriptor} {name : String} {f : Field} (hf : d.field? name = some f) :
    f ∈ d.fields ∧ f.name = name := ⟨List.mem_of_find?_eq_some hf, by simpa using List.find?_some hf⟩

theorem Descriptor.field_eq_ok {d : Descriptor} {name : String} {f : Field} :
    d.field name = .ok f ↔ d.field? name = some f := by
  unfold Descriptor.field
  cases d.field? name <;> simp

theorem Descriptor.IsPlaced.field {d : Descriptor} (h : d.IsPlaced) {name : String} {f : Field}
    (hf : d.field name = .ok f) :
    f.slot ≠ countSlot := h.ne_count f (field?_mem (field_eq_ok.1 hf)).1

/-- Fields are known by their slots. -/
theorem Descriptor.IsPlaced.eq_of_slot {d : Descriptor} (h : d.IsPlaced) {f g : Field} (hf : f ∈ d.fields)
    (hg : g ∈ d.fields) (hslot : f.slot = g.slot) : f = g := List.inj_on_of_nodup_map h.nodup hf hg hslot

namespace Registry

/-- All layouts are placed. -/
def IsPlaced (r : Registry) : Prop := ∀ d ∈ r.all, d.IsPlaced

theorem closure_isPlaced (r : Registry) : r.closure.IsPlaced := build_isPlaced _ _ _ _ _

theorem ofTarget_isPlaced (t : Target) : (ofTarget t).IsPlaced := by
  intro d hd
  obtain rfl := List.mem_singleton.1 hd
  exact build_isPlaced _ _ _ _ _

variable {r : Registry}

theorem IsPlaced.install (h : r.IsPlaced) (name : String) (kind : Kind) (type : Nat) (specs : List FieldSpec) :
    (r.install name kind type specs).1.IsPlaced := by
  have hbuild := build_isPlaced r.target (r.all.length + 1) name kind specs
  intro d hmem
  rcases List.mem_append.1 hmem with hmem | hmem
  · exact h d hmem
  · obtain rfl := List.mem_singleton.1 hmem
    exact ⟨hbuild.ne_count, hbuild.nodup⟩

end Registry

end TypedScript.Layout
