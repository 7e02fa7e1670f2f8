import TypedScript.Proofs.Check.Rules
import TypedScript.Proofs.Compile.Backends
import TypedScript.Proofs.Lower.Traced

/-!
# Structs are told apart by their names

A struct is named after its layout, and an object type is laid out under the name of the alias by which it was
first met. A module for LLVM keeps the first struct of each name. So an alias that is declared again in another
block, for another type, gives a second struct that is never defined. If all aliases of one name stand for one
type, no two layouts have one name, and every slot is looked for in the struct that it belongs to.

* `AliasesApart`: what is asked of the aliases of a program.
* `lower_structsApart`: the structs that are declared, and the struct by which a slot is found.
-/

namespace TypedScript.Compile

open TypedScript.Ir TypedScript.Layout TypedScript.Lower

variable {file : Source.File} {limit : Nat} {hooks : Lower.Options}

/-- Two types are aliases of object types, of one name. -/
def AreNamesakes (types : Ty.Interner) (t t' : Nat) : Prop :=
  types.isHeap t = true ∧ types.isHeap t' = true ∧ types.aliasName t ≠ "" ∧ types.aliasName t = types.aliasName t'

instance (types : Ty.Interner) (t t' : Nat) : Decidable (AreNamesakes types t t') :=
  inferInstanceAs (Decidable (_ ∧ _))

/-- Aliases of object types stand for one type if they have one name, which is not that of another struct. -/
structure AliasesApart (types : Ty.Interner) : Prop where
  one : ∀ t ≤ types.types.size, ∀ t' ≤ types.types.size, AreNamesakes types t t' →
    types.unalias t = types.unalias t'
  free : ∀ t ≤ types.types.size, types.isHeap t = true → types.aliasName t ∉ ["$header", "$closure"]

instance (types : Ty.Interner) : Decidable (AliasesApart types) :=
  decidable_of_iff ((∀ t ≤ types.types.size, ∀ t' ≤ types.types.size, AreNamesakes types t t' → types.unalias t =
    types.unalias t') ∧
    ∀ t ≤ types.types.size, types.isHeap t = true → types.aliasName t ∉ ["$header", "$closure"])
    ⟨fun h => ⟨h.1, h.2⟩, fun h => ⟨h.one, h.free⟩⟩

/-- Layouts have different names, and so have the structs that are declared. -/
structure StructsApart (s : State) : Prop where
  layouts : (s.registry.all.map (·.name)).Nodup
  declared : ∀ t t', .declareStruct t ∈ s.commands → .declareStruct t' ∈ s.commands → t.name = t'.name → t = t'

/-! ### Aliases -/

/-- The name of an alias stands in the file, so that it has no dot. -/
theorem dot_notMem_aliasName (file : Source.File) (limit : Nat) (hooks : Lower.Options) (t : Nat) :
    '.' ∉ ((checkedInput file limit hooks).types.aliasName t).toList := by
  by_cases hne : (checkedInput file limit hooks).types.aliasName t ≠ ""
  · have hmem := (Check.aliasNames_check (Ast.Tree.linked_parse file limit) _).subset
      (Ty.Interner.aliasName_mem hne)
    obtain ⟨d, -, hname⟩ := List.mem_map.1 hmem
    unfold checkedInput
    dsimp only
    rw [← hname, Ast.Tree.name]
    cases hd : (Ast.parse file limit).tree.form? d with
    | none => exact List.not_mem_nil
    | some f => exact Ast.dot_notMem_name file limit hd
  · rw [not_not.1 hne]
    exact List.not_mem_nil

theorem namesApart_of_aliasesApart (h : AliasesApart (checkedInput file limit hooks).types) :
    NamesApart (checkedInput file limit hooks).types where
  unalias t t' ht ht' hne heq :=
    h.one t (Ty.Interner.le_size_of_aliasName hne) t' (Ty.Interner.le_size_of_aliasName (heq ▸ hne))
      ⟨ht, ht', hne, heq⟩
  undotted := dot_notMem_aliasName file limit hooks
  free t ht hmem := by
    refine h.free t (Ty.Interner.le_size_of_aliasName fun hempty => ?_) ht hmem
    rw [hempty] at hmem
    exact absurd hmem (by decide)

/-! ### Structs -/

theorem isFlat_of_isStruct {r : Registry} {t : Struct} (h : IsStruct r t) : t.IsFlat := by
  intro type htype
  rcases h with rfl | ⟨d, -, rfl⟩
  · simp only [headerStruct, List.mem_cons, List.not_mem_nil, or_false, or_self] at htype
    exact ⟨_, htype⟩
  · simp only [structOf, List.mem_cons, List.mem_map] at htype
    rcases htype with htype | htype | ⟨f, -, htype⟩
    · exact ⟨_, htype⟩
    · exact ⟨_, htype⟩
    · exact ⟨_, htype.symm⟩

/-- A struct of a layout does not have the name of another struct. -/
theorem eq_of_isStruct {types : Ty.Interner} (hnames : NamesApart types) {r : Registry} (hr : r.Made types)
    {t t' : Struct} (ht : IsStruct r t) (ht' : IsStruct r t') (hname : t.name = t'.name) : t = t' := by
  have hdistinct := hr.isDistinct hnames
  have hlayout {d : Descriptor} (hd : d ∈ r.all) : d.name ∉ ["$header", ""] := (hdistinct.origin d hd).notMem hnames
  have hheader {d : Descriptor} (hd : Known r d) : d.name ≠ "$header" := by
    rcases hd with hd | rfl
    · exact fun h => hlayout hd (h ▸ List.mem_cons_self)
    · decide
  rcases ht with rfl | ⟨d, hd, rfl⟩ <;> rcases ht' with rfl | ⟨d', hd', rfl⟩
  · rfl
  · exact absurd hname.symm (hheader hd')
  · exact absurd hname (hheader hd)
  · rcases hd with hd | rfl <;> rcases hd' with hd' | rfl
    · rw [hdistinct.eq_of_name hd hd' hname]
    · exact absurd (List.mem_cons_of_mem _ (List.mem_singleton.2 hname)) (hlayout hd)
    · exact absurd (List.mem_cons_of_mem _ (List.mem_singleton.2 hname.symm)) (hlayout hd')
    · rfl

/-- The structs that have been declared by a list of commands. -/
theorem mem_structsAfter {cs : List Command} {structs : List Struct} {t : Struct} :
    t ∈ cs.foldl Command.structsAfter structs ↔ t ∈ structs ∨ .declareStruct t ∈ cs := by
  induction cs generalizing structs with
  | nil => simp
  | cons c cs ih =>
    rw [List.foldl_cons, ih]
    cases c <;> simp [Command.structsAfter, or_assoc]

/-- If aliases of one name stand for one type, no two structs of a program that is lowered have one name, and
whenever a slot of an object is asked for, the module that has carried out the commands so far defines the struct
with the types of its slots. -/
theorem lower_structsApart (hapart : AliasesApart (checkedInput file limit hooks).types) {target : Target}
    (hlower : (lower (checkedInput file limit hooks) target).error = none) :
    StructsApart (lower (checkedInput file limit hooks) target).state ∧
      ∀ before after t base slot,
        (lower (checkedInput file limit hooks) target).state.commands.toList =
          before ++ .instr (.fieldAddr t base slot) :: after →
        ∀ path triple l, ({ sourceName := path, triple } : Llvm.Module).applyAll before.toArray = .ok l →
          l.structs.lookup t.name = some (t.fields.map l.typeOf) := by
  have hgrounded := (grounded_of_lower hlower).1
  have hnames := namesApart_of_aliasesApart hapart
  generalize (lower (checkedInput file limit hooks) target).state = s at hgrounded ⊢
  have hstruct {t : Struct} (ht : .declareStruct t ∈ s.commands) : IsStruct s.registry t := by
    obtain ⟨i, hi⟩ := Array.mem_iff_getElem?.1 ht
    exact hgrounded.commands i _ hi
  have hone : ∀ t t', .declareStruct t ∈ s.commands → .declareStruct t' ∈ s.commands → t.name = t'.name → t = t' :=
    fun t t' ht ht' => eq_of_isStruct hnames hgrounded.made (hstruct ht) (hstruct ht')
  refine ⟨⟨(hgrounded.made.isDistinct hnames).nodup, hone⟩,
    fun before after t base slot hsplit path triple l hl => ?_⟩
  -- what was declared before is among what is declared at all
  have hdeclared {t : Struct} (ht : .declareStruct t ∈ before) : .declareStruct t ∈ s.commands := by
    rw [← Array.mem_toList_iff, hsplit]
    exact List.mem_append_left _ ht
  have hbefore : .declareStruct t ∈ before := by
    have hget : s.commands[before.length]? = some (.instr (.fieldAddr t base slot)) := by
      rw [← Array.getElem?_toList, hsplit, List.getElem?_append_right (Nat.le_refl _), Nat.sub_self]
      rfl
    have hfounded : .declareStruct t ∈ s.commands.toList.take before.length := hgrounded.commands _ _ hget
    rwa [hsplit, List.take_left] at hfounded
  unfold Llvm.Module.applyAll at hl
  rw [← Array.foldlM_toList] at hl
  have hempty : ({ sourceName := path, triple } : Llvm.Module).Defines [] := fun _ => rfl
  have hdefines := hempty.foldlM hl fun t ht => isFlat_of_isStruct (hstruct (hdeclared ht))
  rw [hdefines t.name, Llvm.Module.map_typeOf l (isFlat_of_isStruct (hstruct (hdeclared hbefore)))]
  -- the first struct of the name is the struct itself
  obtain ⟨t', ht'⟩ : ∃ t', (before.foldl Command.structsAfter []).find? (·.name = t.name) = some t' :=
    Option.isSome_iff_exists.1 (List.find?_isSome.2 ⟨t, mem_structsAfter.2 (.inr hbefore), decide_eq_true rfl⟩)
  have hmem := (mem_structsAfter.1 (List.mem_of_find?_eq_some ht')).resolve_left List.not_mem_nil
  have hname : t'.name = t.name := by simpa using List.find?_some ht'
  obtain rfl := hone t' t (hdeclared hmem) (hdeclared hbefore) hname
  rw [ht', Option.map_some]

set_option maxRecDepth 100000 in
/-- Two blocks declare an alias of one name for one type, and a third type has no name. -/
theorem lower_structsApart_of_namesakes : ∃ file, IsAccepted file 100 ∧ AliasesApart
    (checkedInput file 100 {}).types ∧ (lower (checkedInput file 100 {}) (Target.ofTriple "")).error = none ∧
    StructsApart (lower (checkedInput file 100 {}) (Target.ofTriple "")).state := by
  let text := "{ type P = { n: number }; let p: P = { n: 1 }; }\n" ++
    "{ type P = { n: number }; let p: P = { n: 2 }; }\n" ++
    "let q = { b: true };\n"
  let file := Source.File.ofContent 0 "main.ts" text.toUTF8.toList 0
  -- decided at once, so that the file is checked and lowered only once
  obtain ⟨hacc, hapart, hlower⟩ : IsAccepted file 100 ∧ AliasesApart (checkedInput file 100 {}).types ∧
      (lower (checkedInput file 100 {}) (Target.ofTriple "")).error.isNone = true := by decide +kernel
  have hnone := Option.isNone_iff_eq_none.1 hlower
  exact ⟨file, hacc, hapart, hnone, (lower_structsApart hapart hnone).1⟩

end TypedScript.Compile
