import TypedScript.Proofs.Binding.Distinct
import TypedScript.Proofs.Compile.Total
import TypedScript.Proofs.Lower.Helpers

/-!
# Where variables are kept

Every variable of a container is kept in a stack slot or in a field of the scope object. Two variables of a
container have different names, so they are kept apart, with one exception: the field of a variable called
`$parent` is renamed, as the link to the scope object further out has that name, and the new name is an identifier
as well.

* `Housed.storageOf_eq_iff`: two variables are kept in one place only if they have the same field name.
* `lower_storageOf_eq_iff`: of an accepted file, only `$parent` and `$parent$` are kept in one place, and none
  replaces the link.
-/

namespace TypedScript.Lower

open TypedScript.Ast TypedScript.Binding TypedScript.Ir TypedScript.Layout TypedScript.Scope

/-- Where the value of a variable is kept. -/
inductive Storage
  | stack (slot : Operand)
  | field (slot : Nat)

/-- The place of a variable: a stack slot, or a slot of the scope object. -/
def storageOf (b : Scope.Binding) : Storage := if b.inObject then .field b.field.slot else .stack b.slot

/-! ### Names of fields -/

/-- The name of the link and the name to which a variable of that name is renamed, in some order. -/
def Clash (name name' : String) : Prop :=
  name = parentField ∧ name' = parentField ++ "$" ∨ name = parentField ++ "$" ∧ name' = parentField

instance (name name' : String) : Decidable (Clash name name') := inferInstanceAs (Decidable (_ ∨ _))

theorem renamed_ne_parentField : parentField ++ "$" ≠ parentField := by decide

/-- No variable has the field of the link. -/
theorem fieldName_ne_parentField (name : String) : fieldName name ≠ parentField := by
  unfold fieldName
  split
  · rename_i heq
    exact heq ▸ renamed_ne_parentField
  · assumption

theorem fieldName_eq_iff {name name' : String} : fieldName name = fieldName name' ↔ name = name' ∨
    Clash name name' := by
  unfold Clash fieldName
  by_cases h : name = parentField <;> by_cases h' : name' = parentField
  · simp [h, h']
  · simp only [if_neg h', h, Ne.symm h', Ne.symm renamed_ne_parentField, true_and, false_and, false_or, or_false]
    exact eq_comm
  · simp [h, h']
  · simp [h, h']

/-! ### Variables of a scope -/

variable {inp : Input} {n : Scope.Node} {b b' : Scope.Binding}

/-- A variable in the scope object has a field of its layout. -/
theorem Housed.field (h : Housed inp n) (hb : b ∈ variablesOf n) (hobject : b.inObject = true) :
    ∃ d, n.layout = some d ∧ d.field? (fieldName b.name) = some b.field := by
  obtain ⟨_, hplaced⟩ := h.placed
  exact hplaced.fields b hb (List.mem_map_of_mem hb) hobject

/-- Two variables are kept in one place only if they live in the scope object and have the same field name. -/
theorem Housed.storageOf_eq_iff (h : Housed inp n) (hlayout : ∀ d, n.layout = some d → d.IsPlaced)
    (hb : b ∈ variablesOf n) (hb' : b' ∈ variablesOf n) (hne : b.decl ≠ b'.decl) :
    storageOf b = storageOf b' ↔ b.inObject = true ∧ fieldName b.name = fieldName b'.name := by
  obtain ⟨hmem, hkind⟩ := mem_variablesOf.1 hb
  obtain ⟨hmem', hkind'⟩ := mem_variablesOf.1 hb'
  have hsame : b'.inObject = b.inObject :=
    ((h.bindings b' hmem').inObject_eq hkind').trans ((h.bindings b hmem).inObject_eq hkind).symm
  unfold storageOf
  rw [hsame]
  cases hobject : b.inObject with
  | false =>
    simp only [Bool.false_eq_true, if_false, false_and, iff_false]
    intro heq
    obtain ⟨_, hplaced⟩ := h.placed
    exact hne (hplaced.apart b hb b' hb' (List.mem_map_of_mem hb) (List.mem_map_of_mem hb') hobject
      (hsame.trans hobject)
      (Storage.stack.inj heq))
  | true =>
    simp only [if_true, true_and, Storage.field.injEq]
    obtain ⟨d, hd, hfield⟩ := h.field hb hobject
    obtain ⟨d', hd', hfield'⟩ := h.field hb' (hsame.trans hobject)
    obtain rfl := Option.some.inj (hd.symm.trans hd')
    obtain ⟨hin, hname⟩ := Descriptor.field?_mem hfield
    obtain ⟨hin', hname'⟩ := Descriptor.field?_mem hfield'
    constructor
    · intro hslot
      rw [← hname, ← hname', (hlayout d hd).eq_of_slot hin hin' hslot]
    · intro heq
      rw [heq] at hfield
      rw [Option.some.inj (hfield.symm.trans hfield')]

/-- A variable in the scope object does not replace the link. -/
theorem Housed.slot_ne_link (h : Housed inp n) (hlayout : ∀ d, n.layout = some d → d.IsPlaced)
    (hb : b ∈ variablesOf n) (hobject : b.inObject = true) : ∃ d link, n.layout = some d ∧ d.field?
    (fieldName b.name) = some b.field ∧
      d.field? parentField = some link ∧ b.field.slot ≠ link.slot := by
  obtain ⟨d, hd, hfield⟩ := h.field hb hobject
  obtain ⟨link, hlink⟩ := h.link d hd
  obtain ⟨hin, hname⟩ := Descriptor.field?_mem hfield
  obtain ⟨hin', hname'⟩ := Descriptor.field?_mem hlink
  refine ⟨d, link, hd, hfield, hlink, fun hslot => fieldName_ne_parentField b.name ?_⟩
  rw [← hname, ← hname', (hlayout d hd).eq_of_slot hin hin' hslot]

/-- The layouts of all scopes that were opened are placed. -/
theorem isPlaced_of_lower {target : Target} (ho : inp.options.IsRegular) (h : (lower inp target).error = none)
    (hn : n ∈ (lower inp target).state.chain.nodes) {d : Descriptor} (hd : n.layout = some d) : d.IsPlaced := by
  obtain ⟨w, t, hinv, hruntime⟩ := inv_of_lower ho h
  rw [(calm_defineRuntime.run hruntime).1] at hn
  exact (hinv.nodes n hn).layout d hd

end TypedScript.Lower

namespace TypedScript.Compile

open TypedScript.Binding TypedScript.Layout TypedScript.Lower

variable {file : Source.File} {limit : Nat}

/-- Of an accepted file, two variables of a container are kept in different places, unless they live in the scope
object and are called `$parent` and `$parent$`; and no variable is kept where the scope object has its link. -/
theorem lower_storageOf_eq_iff (h : IsAccepted file limit) {hooks : Lower.Options} (hnames : hooks.IsRegular)
    {target : Target} (hlower : (lower (checkedInput file limit hooks) target).error = none) {n : Scope.Node}
    (hn : n ∈ (lower (checkedInput file limit hooks) target).state.chain.nodes) {b b' : Scope.Binding}
    (hb : b ∈ variablesOf n) (hb' : b' ∈ variablesOf n) (hne : b.decl ≠ b'.decl) :
    (storageOf b = storageOf b' ↔ b.inObject = true ∧ Clash b.name b'.name) ∧
      (b.inObject = true → ∃ d link, n.layout = some d ∧ d.field? (fieldName b.name) = some b.field ∧
        d.field? parentField = some link ∧ b.field.slot ≠ link.slot) := by
  have hhoused := (h.ready hooks).housed_of_lower (runs_of_lower hlower) hn
  have hlayout : ∀ d, n.layout = some d → d.IsPlaced := fun d hd => isPlaced_of_lower hnames hlower hn hd
  refine ⟨?_, hhoused.slot_ne_link hlayout hb⟩
  -- two values of one container have different names
  have hvalue {b : Scope.Binding} (hb : b ∈ variablesOf n) : b.name =
    (checkedInput file limit hooks).tree.name b.decl ∧
      DeclaresValue (checkedInput file limit hooks).tree n.container b.decl := by
    obtain ⟨hmem, hkind⟩ := mem_variablesOf.1 hb
    have hof := hhoused.bindings b hmem
    refine ⟨hof.name, hof.decl, fun htype => ?_⟩
    have hstorage := (hof.storage hkind).1
    rw [htype] at hstorage
    exact nomatch hstorage
  have hdifferent : b.name ≠ b'.name := by
    obtain ⟨hname, hdecl⟩ := hvalue hb
    obtain ⟨hname', hdecl'⟩ := hvalue hb'
    intro heq
    refine hne (name_injective (Ast.Tree.linked_parse file limit) h.resolved hdecl hdecl' ?_)
    exact hname.symm.trans (heq.trans hname')
  rw [hhoused.storageOf_eq_iff hlayout hb hb' hne, fieldName_eq_iff, or_iff_right hdifferent]

set_option maxRecDepth 100000 in
/-- The two variables whose fields have one name are kept in one place; a third one is kept elsewhere. -/
theorem lower_storageOf_eq_of_renamed : ∃ file, IsAccepted file 100 ∧
    (lower (checkedInput file 100 {}) (Target.ofTriple "")).error = none ∧
    ∃ n ∈ (lower (checkedInput file 100 {}) (Target.ofTriple "")).state.chain.nodes, ∃ b ∈ variablesOf n,
      ∃ b' ∈ variablesOf n,
      ∃ b'' ∈ variablesOf n, b.decl ≠ b'.decl ∧ storageOf b = storageOf b' ∧ storageOf b ≠ storageOf b'' := by
  let text := "let $parent = 1;\nlet $parent$ = 2;\nlet x = 3;\nlet f = () => { $parent$ = $parent + x; };\n"
  let file := Source.File.ofContent 0 "main.ts" text.toUTF8.toList 0
  let nodes := (lower (checkedInput file 100 {}) (Target.ofTriple "")).state.chain.nodes
  -- decided at once, so that the file is checked and lowered only once
  obtain ⟨hacc, hlower, hvars⟩ : IsAccepted file 100 ∧
      (lower (checkedInput file 100 {}) (Target.ofTriple "")).error.isNone = true ∧
      (nodes[0]?.map fun n => (variablesOf n).map fun b => (b.name, b.decl, b.inObject)) =
        some [("f", 15, true), ("x", 6, true), ("$parent$", 4, true), ("$parent", 2, true)] := by decide +kernel
  have hnames : Options.IsRegular {} := by decide
  have hnone := Option.isNone_iff_eq_none.1 hlower
  obtain ⟨n, hn, hlist⟩ := Option.map_eq_some_iff.1 hvars
  have hmem (p : String × Nat × Bool)
      (hp : p ∈ [("f", 15, true), ("x", 6, true), ("$parent$", 4, true), ("$parent", 2, true)]) :
      ∃ b ∈ variablesOf n, (b.name, b.decl, b.inObject) = p := List.mem_map.1 (hlist ▸ hp)
  obtain ⟨b, hb, hfst⟩ := hmem ("$parent", 2, true) (by simp)
  obtain ⟨b', hb', hsnd⟩ := hmem ("$parent$", 4, true) (by simp)
  obtain ⟨b'', hb'', hthd⟩ := hmem ("x", 6, true) (by simp)
  simp only [Prod.mk.injEq] at hfst hsnd hthd
  obtain ⟨hname, hdecl, hobject⟩ := hfst
  obtain ⟨hname', hdecl', -⟩ := hsnd
  obtain ⟨hname'', hdecl'', -⟩ := hthd
  have hnode := Array.mem_of_getElem? hn
  have hne : b.decl ≠ b'.decl := by rw [hdecl, hdecl']; decide
  have hne' : b.decl ≠ b''.decl := by rw [hdecl, hdecl'']; decide
  refine ⟨file, hacc, hnone, n, hnode, b, hb, b', hb', b'', hb'', hne, ?_, ?_⟩
  · refine (lower_storageOf_eq_iff hacc hnames hnone hnode hb hb' hne).1.2 ⟨hobject, ?_⟩
    rw [hname, hname']
    decide
  · intro heq
    have hclash := ((lower_storageOf_eq_iff hacc hnames hnone hnode hb hb'' hne').1.1 heq).2
    rw [hname, hname''] at hclash
    exact absurd hclash (by decide)

end TypedScript.Compile
