import TypedScript.Proofs.Lower.Basic
import TypedScript.Proofs.Lower.Walk

/-!
# Objects and scopes keep the invariant

Objects are made in one way, and counts are left to the helpers. A binding that is found is either one of the
function that is lowered, whose slot is at hand, or it lies in a scope object that is reached from the
environment.

* `keepInstructions`: what instructions ask for and give is clean.
* `keepView`: so are the values of expressions and the places of variables.
-/

namespace TypedScript.Lower

open TypedScript.Ast TypedScript.Ir TypedScript.Layout TypedScript.Machine

variable {inp : Input} {w w' : World} {s s' : State} {β : Type}

/-! ### Fields -/

theorem rests_useStruct (d : Descriptor) : Rests inp w (useStruct d) fun _ => True := by
  refine .read fun s₀ _ => ?_
  dsimp only
  split
  · refine (rests_declareStruct _).rest fun _ _ => ?_
    have hmod : Rests inp w (modify fun s => { s with structs := d.tag :: s.structs } : LowerM Unit) fun _ =>
      True :=
      .update fun s hs => { hs with }
    exact hmod.rest fun _ _ => .pure ⟨rfl, trivial⟩
  · exact .pure ⟨rfl, trivial⟩

theorem keeps_slotAddr {str : Struct} {base : Operand} {slot : Nat} (hb : Clean inp.options w.marks base)
    (hs : slot ≠ countSlot) : Keeps inp w (slotAddr str base slot) fun w' v => Clean inp.options w'.marks v :=
  keeps_emitValue ⟨hb, hs⟩ rfl

/-! ### New objects -/

/-- The state with other commands and another number of registers. -/
def State.advance (s : State) (cs : Array Command) (n : Nat) : State := { s with commands := cs, registers := n }

theorem runs_emitValue {i : Instr} {v : Operand} (h : Runs (emitValue i) s v s') :
    v = .reg s.registers ∧ s' = s.advance (s.commands.push (.instr i)) (s.registers + 1) := by
  obtain ⟨_, t, hemit, hreg⟩ := runs_bind.1 h
  obtain rfl := runs_modify.1 hemit
  exact runs_modifyGet.1 hreg

theorem runs_store {addr v : Operand} {u : Unit} (h : Runs (store addr v) s u s') :
    s' = s.advance (s.commands.push (.instr (.store addr v))) s.registers := by
  obtain ⟨_, t, hemit, hmod⟩ := runs_bind.1 h
  obtain rfl := runs_modify.1 hemit
  exact (runs_pure.1 hmod).2

/-- The commands that make an object whose number goes to register `n`: the allocation, its tag, and its one
owner. -/
def makeCommands (o : Options) (cs : Array Command) (str : Struct) (size tag : Int) (n : Nat) : Array Command :=
  ((((cs.push (.instr (.call allocateSig (.func o.allocate) [.null, .int .i64 size]))).push
    (.instr (.fieldAddr str (.reg n) tagSlot))).push (.instr (.store (.reg (n + 1)) (.int .i32 tag)))).push
    (.instr (.fieldAddr str (.reg n) countSlot))).push (.instr (.store (.reg (n + 2)) (.int .i32 1)))

theorem Inv.make (h : Inv inp w s) (str : Struct) (size tag : Int) :
    Inv inp { w with marks := w.marks ++ [true, true, false] }
      (s.advance (makeCommands inp.options s.commands str size tag s.registers) (s.registers + 3)) := by
  refine h.command (List.prefix_append _ _) (fun m hm => ?_) (by simp [h.registers])
  obtain ⟨m₄, hm, h₅⟩ := built_push.1 hm
  obtain ⟨m₃, hm, h₄⟩ := built_push.1 hm
  obtain ⟨m₂, hm, h₃⟩ := built_push.1 hm
  obtain ⟨m₁, hm, h₂⟩ := built_push.1 hm
  obtain ⟨m₀, hm, h₁⟩ := built_push.1 hm
  rw [h.registers] at h₂ h₃ h₄ h₅
  exact (h.sketched m₀ hm).make h₁ h₂ h₃ h₄ h₅

/-- The allocation of an object, with its tag and its one owner. -/
theorem keeps_make {str : Struct} {size tag : Int} {rest : Operand → LowerM β} {R : World → β → Prop}
    (h : ∀ w' v, w ≤ w' → Clean inp.options w'.marks v → Keeps inp w' (rest v) R) :
    Keeps inp w (do
      let obj ← callDirect allocateSig (.func inp.options.allocate) [.null, .int .i64 size]
      store (← slotAddr str obj tagSlot) (.int .i32 tag)
      store (← slotAddr str obj countSlot) (.int .i32 1)
      rest obj) R := by
  refine .of_runs fun s hs b s' hrun => ?_
  obtain ⟨obj, t₁, hcall, hrun₁⟩ := runs_bind.1 hrun
  obtain ⟨rfl, rfl⟩ := runs_emitValue hcall
  obtain ⟨p, t₂, haddr, hrun₂⟩ := runs_bind.1 hrun₁
  obtain ⟨rfl, rfl⟩ := runs_emitValue haddr
  obtain ⟨_, t₃, hstore, hrun₃⟩ := runs_bind.1 hrun₂
  obtain rfl := runs_store hstore
  obtain ⟨q, t₄, haddr', hrun₄⟩ := runs_bind.1 hrun₃
  obtain ⟨rfl, rfl⟩ := runs_emitValue haddr'
  obtain ⟨_, t₅, hstore', hrun₅⟩ := runs_bind.1 hrun₄
  obtain rfl := runs_store hstore'
  have hle : w ≤ { w with marks := w.marks ++ [true, true, false] } :=
    ⟨List.prefix_append _ _, List.prefix_rfl, rfl⟩
  have hclean : Clean inp.options (w.marks ++ [true, true, false]) (.reg s.registers) := by
    rw [hs.registers]
    simp [Clean]
  obtain ⟨w', hs', hw', -, hb⟩ := (h _ _ hle hclean trivial _ (hs.make str size tag)).1 b s' hrun₅
  exact ⟨w', hle.trans hw', hs', hb⟩

theorem keeps_construct {d : Descriptor} (hd : d.IsPlaced) :
    Keeps inp w (construct inp d) fun w' v => Clean inp.options w'.marks v := by
  refine (rests_useStruct d).rest fun str _ => keeps_make fun w₁ obj _ hobj => ?_
  refine (Regime.Goes.forM (I := fun _ => True) trivial fun f hf w₂ hw₂ _ => ?_).bind fun w₃ _ hw₃ _ => ?_
  · refine (keeps_slotAddr (clean_mono hobj hw₂) (hd.ne_count f (List.mem_filter.1 hf).1)).bind
      fun w₃ addr _ haddr => ?_
    exact (rests_store haddr (v := .null) trivial).imp fun _ _ _ _ => trivial
  · have hmod : Rests inp w₃ (modify fun s => { s with objects := s.objects + 1 } : LowerM Unit) fun _ => True :=
      .update fun s hs => { hs with }
    exact hmod.rest fun _ _ => .pure (clean_mono hobj hw₃)

/-! ### Counts -/

theorem keeps_callHelper {name : String} {v : Operand} (hname : name ∈ helperNames)
    (hv : Clean inp.options w.marks v) :
    Keeps inp w (callHelper name v) fun _ _ => True := by
  have htame : TameInstr inp.options w.marks (.call helperSig (.func name) [.null, v]) :=
    .inr ⟨name, hname, rfl, v, hv, rfl⟩
  exact (keeps_emitValue htame rfl).bind fun _ _ _ _ => .pure trivial

/-- Operands that instructions use and give are clean, and no instruction goes to a count. -/
@[reducible]
def keepInstructions (inp : Input) : Instructions inp where
  toRegime := keepRegime inp
  Has w := Clean inp.options w.marks
  Given w := Clean inp.options w.marks
  Asked _ _ := True
  Layout _ := Descriptor.IsPlaced
  Struct _ _ := True
  Slot n := n ≠ countSlot
  Callable _ _ _ := True
  has_mono hw h := clean_mono h hw
  given_mono hw h := clean_mono h hw
  asked_mono _ _ := trivial
  layout_mono _ h := h
  struct_mono _ _ := trivial
  callable_mono _ _ := trivial
  has_given h := h
  has_literal {_ v} h := by
    cases v with
    | null | int | float | bool | string => trivial
    | _ => exact h.elim
  has_absent := trivial
  asked_given _ := trivial
  asked_literal _ := trivial
  callable_given _ := trivial
  allowed_translation := trivial
  allowed_callee := trivial
  slot_tag := by decide
  load _ h := keeps_emitValue h rfl
  store haddr hv := (rests_store haddr hv).imp fun _ _ _ _ => trivial
  alloca type := keeps_alloca type
  slotAddr _ hbase hslot := keeps_slotAddr hbase hslot
  compare _ _ _ _ := keeps_emitValue trivial rfl
  binary _ _ _ _ := keeps_emitValue trivial rfl
  callDirect _ hcallee hargs := keeps_emitValue (.inl ⟨hcallee, hargs⟩) rfl
  callHelper hname hv := keeps_callHelper hname hv
  constant v := (rests_constant v).imp fun _ _ _ _ => trivial
  useStruct _ := (rests_useStruct _).imp fun _ _ _ _ => trivial
  header _ := trivial
  construct hd := keeps_construct hd
  fieldOf name hd := (rests_fieldOf hd name).imp fun _ _ _ hf => hf.2
  layout_all hs hd := hs.layouts _ hd
  layout_closure _ := Registry.closure_isPlaced _
  repOf id := (rests_repOf id).imp fun _ _ _ _ => trivial
  signature type span := (rests_signature type span).imp fun _ _ _ _ => trivial
  noteAttribute key value := (rests_noteAttribute key value).imp fun _ _ _ _ => trivial

/-! ### Names -/

/-- What is asked of names: those that are reserved have no dot, and no function that is declared has one of them.
-/
structure Admissible (inp : Input) : Prop where
  undotted : ∀ name ∈ reservedNames inp.options, '.' ∉ name.toList
  foreign : ∀ id ∈ inp.tree.reachedOutsideTypes, ∀ name params result,
    inp.tree.form? id = some (.declareFunc name params result) → name ∉ reservedNames inp.options

/-- A numbered symbol is not reserved. -/
theorem Admissible.numbered (h : Admissible inp) (name : String) (fn : Nat) :
    s!"{name}.{fn}" ∉ reservedNames inp.options := by
  intro hmem
  refine h.undotted _ hmem ?_
  simp [toString]

theorem Admissible.codeName (h : Admissible inp) {fn : Nat}
    (hfn : ∀ name params result, inp.tree.form? fn = some (.declareFunc name params result) →
      name ∉ reservedNames inp.options) : codeName inp.tree fn ∉ reservedNames inp.options := by
  unfold Lower.codeName
  split
  · rename_i name params result hform
    exact hfn name params result hform
  · exact h.numbered _ _
  · split
    · split
      · exact h.numbered _ _
      · exact h.numbered "arrow" _
    · exact h.numbered "arrow" _

theorem Admissible.decl (h : Admissible inp) {c decl : Nat} (hd : decl ∈ inp.tree.decls c) :
    Lower.codeName inp.tree decl ∉ reservedNames inp.options :=
  h.codeName fun name params result hform => h.foreign decl (List.mem_filter.1 hd).1 name params result hform

/-! ### References -/

/-- What is known of a reference: its place can be used. -/
structure SoundRef (inp : Input) (w : World) (ref : Scope.Ref) : Prop where
  field : ref.binding.field.slot ≠ countSlot
  slot : ref.binding.inObject = false → Clean inp.options w.marks ref.binding.slot
  code : ref.binding.kind.isFunction = true → ref.binding.code ∉ reservedNames inp.options

theorem SoundRef.mono {ref : Scope.Ref} (h : SoundRef inp w ref) (hw : w ≤ w') : SoundRef inp w' ref :=
  { h with slot := fun ho => clean_mono (h.slot ho) hw }

theorem Inv.refTo (h : Inv inp w s) {n owner : Nat} {b : Scope.Binding} {ref : Scope.Ref} (hn : w.Inside n)
    (hb : b ∈ (s.chain.get owner).bindings) (href : s.chain.refTo n b owner = .ok ref) : SoundRef inp w ref := by
  have hsound := (h.node owner).bindings b hb
  unfold Scope.Chain.refTo at href
  split at href
  · rename_i hcond
    cases href
    refine ⟨hsound.field, fun _ => ?_, hsound.code⟩
    rcases Bool.or_eq_true_iff.1 hcond with hfn | hfun
    · refine (h.node owner).slots ?_ b hb
      exact (of_decide_eq_true hfn).trans (h.function_of_inside hn)
    · show Clean _ _ b.slot
      rw [hsound.slot hfun]
      trivial
  · split at href
    · cases href
    · rename_i hobj
      split at href
      · cases href
        exact ⟨hsound.field, fun ho => absurd ho (by simpa using hobj), hsound.code⟩
      · cases href

theorem mem_of_find? {c : Scope.Chain} {n owner : Nat} {p : Scope.Binding → Bool} {b : Scope.Binding}
    (h : c.find? n p = some (b, owner)) : b ∈ (c.get owner).bindings := by
  obtain ⟨m, -, hm⟩ := List.exists_of_findSome?_eq_some h
  obtain ⟨b', hb', heq⟩ := Option.map_eq_some_iff.1 hm
  cases heq
  exact List.mem_of_find?_eq_some hb'

theorem Inv.lookupDecl (h : Inv inp w s) {n decl : Nat} {name : String} {span : Source.Span} {ref : Scope.Ref}
    (hn : w.Inside n) (href : s.chain.lookupDecl n decl name span = .ok ref) : SoundRef inp w ref := by
  unfold Scope.Chain.lookupDecl at href
  split at href
  · rename_i b owner hfind
    exact h.refTo hn (mem_of_find? hfind) href
  · cases href

theorem Inv.lookup (h : Inv inp w s) {n : Nat} {name : String} {ref : Scope.Ref}
    (hn : w.Inside n) (href : s.chain.lookup n name = .ok ref) : SoundRef inp w ref := by
  unfold Scope.Chain.lookup at href
  split at href
  · rename_i b owner hfind
    exact h.refTo hn (mem_of_find? hfind) href
  · cases href

theorem rests_ofScope {α : Type} {r : Except Scope.Error α} {P : α → Prop} (h : ∀ a, r = .ok a → P a) :
    Rests inp w (ofScope r) P := by
  unfold ofScope
  split
  · exact .pure ⟨rfl, h _ rfl⟩
  · exact .throw trivial

theorem rests_lookup {cur : Nat} (id : Nat) (hcur : w.Inside cur) : Rests inp w (lookup inp cur id)
    (SoundRef inp w) := by
  refine .read fun s hs => ?_
  dsimp only
  split
  · exact rests_ofScope fun ref href => hs.lookupDecl hcur href
  · split
    · rename_i ref href
      exact .pure ⟨rfl, hs.lookup hcur href⟩
    · exact .throw trivial

/-! ### Scope objects -/

theorem rests_scopeNode (scope : Nat) : Rests inp w (scopeNode scope) (SoundNode inp w) :=
  .read fun _ hs => .pure ⟨rfl, hs.node scope⟩

/-- The layout of a scope, or none at all. -/
theorem SoundNode.layout_getD {n : Scope.Node} (h : SoundNode inp w n) : (n.layout.getD default).IsPlaced := by
  cases hl : n.layout with
  | none => exact default_isPlaced
  | some d => exact h.layout d hl

theorem rests_scopeLayout (scope : Nat) : Rests inp w (scopeLayout scope) Descriptor.IsPlaced :=
  (rests_scopeNode scope).rest fun _ hn => .pure ⟨rfl, hn.layout_getD⟩

theorem keeps_scopePointer {cur : Nat} (target : Option Nat) (hcur : w.Inside cur) :
    Keeps inp w (scopePointer cur target) fun w' v => Clean inp.options w'.marks v := by
  cases target with
  | none => exact .pure trivial
  | some target =>
    refine .read fun s hs => ?_
    dsimp only
    split
    · rename_i hfn
      exact .pure ((hs.node target).object (hfn.trans (hs.function_of_inside hcur)))
    · split
      · exact .throw trivial
      · refine .read fun s' hs' => ?_
        refine Regime.Goes.foldlM (F := keepRegime inp) hs'.env fun v hop w₁ hv => ?_
        refine (rests_scopeLayout hop).rest fun d hd => ?_
        exact (rests_fieldOf hd _).rest fun f hf => goes_loadField (I := keepInstructions inp) hd hv hf

theorem keeps_bindingAddr {cur : Nat} {ref : Scope.Ref} (hcur : w.Inside cur) (href : SoundRef inp w ref) :
    Keeps inp w (bindingAddr cur ref) fun w' v => Clean inp.options w'.marks v := by
  unfold bindingAddr
  dsimp only
  split
  · refine (keeps_scopePointer _ hcur).bind fun w₁ base _ hbase => ?_
    exact (rests_scopeLayout _).rest fun d hd => goes_fieldAddr (I := keepInstructions inp) hd hbase href.field
  · rename_i ho
    exact .pure (href.slot (by simpa using ho))

/-! ### Containers -/

theorem default_slot : (default : Field).slot ≠ countSlot := by decide

theorem rests_declare {scope : Nat} {b : Scope.Binding} (hb : SoundBinding inp b) (hslot : b.slot = .absent) :
    Rests inp w (modify fun s => { s with chain := s.chain.declare scope b } : LowerM Unit) fun _ => True := by
  refine .update fun s hs => hs.modifyNode fun node hnode => ⟨rfl, { hnode with bindings := ?_, slots := ?_ }⟩
  · intro b' hb'
    rcases List.mem_cons.1 hb' with rfl | hb'
    · exact hb
    · exact hnode.bindings b' hb'
  · intro hn b' hb'
    rcases List.mem_cons.1 hb' with rfl | hb'
    · rw [hslot]
      trivial
    · exact hnode.slots hn b' hb'

theorem rests_declareBinding {scope decl : Nat} {escaping : Bool}
    (hfree : codeName inp.tree decl ∉ reservedNames inp.options) :
    Rests inp w (declareBinding inp scope escaping decl) fun _ => True := by
  unfold declareBinding
  dsimp only
  split
  · exact .pure ⟨rfl, trivial⟩
  · rename_i hform
    refine (rests_codeFor hfree).rest fun code hcode => (rests_repOf decl).rest fun rep _ => rests_declare ?_ rfl
    exact ⟨default_slot, by
      simp [isNamedFunction, hform, Scope.BindingKind.isFunction], fun _ => rfl, fun _ => hcode⟩
  · rename_i hform
    have hfun : inp.tree.isFunction decl = true := by simp [Tree.isFunction, hform, Form.isFunction]
    refine (rests_enqueue hfun hfree).rest fun code hcode => ?_
    refine (rests_repOf decl).rest fun rep _ => rests_declare ?_ rfl
    exact ⟨default_slot, by
      simp [isNamedFunction, hform, Scope.BindingKind.isFunction], fun _ => rfl, fun _ => hcode⟩
  · rename_i h₁ h₂ h₃
    have hnamed : isNamedFunction inp.tree decl = false := by
      unfold isNamedFunction
      split
      · rename_i hform
        exact (h₂ _ _ _ hform).elim
      · rename_i hform
        exact (h₃ _ _ _ _ hform).elim
      · rfl
    refine (rests_repOf decl).rest fun rep _ => rests_declare ⟨default_slot, ?_, fun _ => rfl, fun h => ?_⟩ rfl
    · rw [hnamed]
      dsimp only
      split <;> rfl
    · dsimp only at h
      split at h <;> cases h

theorem keeps_makeScopeObject {scope container : Nat} {vars : List Scope.Binding} (hscope : w.Inside scope) :
    Keeps inp w (makeScopeObject inp scope container vars) fun _ _ => True := by
  refine .read fun s hs => ?_
  obtain ⟨hextends, hmem⟩ := Registry.extends_scope s.registry (scopeKey inp.tree container)
    (vars.map fun b => (⟨fieldName b.name, b.rep⟩ : FieldSpec))
  have hregistry := hextends.placed hs.layouts
  have hd := hregistry _ hmem
  dsimp only
  generalize s.registry.scope (scopeKey inp.tree container)
    (vars.map fun b => (⟨fieldName b.name, b.rep⟩ : FieldSpec)) = out at hregistry hd ⊢
  obtain ⟨registry, d⟩ := out
  dsimp only at hregistry hd ⊢
  have hmod : Rests inp w (modify fun s => { s with registry } : LowerM Unit) fun _ => True :=
    .update fun s hs => { hs with layouts := hregistry }
  refine hmod.rest fun _ _ => (keeps_construct hd).bind fun w₁ object hw₁ hobject => ?_
  refine Keeps.rest (rests_modifyScope fun node hnode => ⟨rfl, ?_⟩) fun _ _ => .read fun s₁ _ => ?_
  · refine { hnode with layout := fun d' hd' => ?_, object := fun _ => hobject }
    cases hd'
    exact hd
  · refine (keeps_scopePointer _ (hscope.mono hw₁)).locate.bind fun w₂ parent hw₂ hparent => ?_
    refine (rests_fieldOf hd _).rest fun link hlink => ?_
    refine (goes_retain (I := keepInstructions inp) .scope hparent).bind fun w₃ _ hw₃ _ => ?_
    exact goes_storeField (I := keepInstructions inp) hd (clean_mono hobject (hw₂.trans hw₃)) hlink
      (clean_mono hparent hw₃)

/-- The bindings of a variable are changed. -/
theorem rests_setBinding {scope : Nat} {b : Scope.Binding} {f : Scope.Binding → Scope.Binding}
    (hb : isNamedFunction inp.tree b.decl = false)
    (hf : ∀ b', b'.kind.isFunction = false → SoundBinding inp b' → SoundBinding inp (f b'))
    (hslot : ∀ b', Clean inp.options w.marks b'.slot → Clean inp.options w.marks (f b').slot) :
    Rests inp w (modifyScope scope fun n =>
      { n with bindings := n.bindings.map fun b' => if b'.decl = b.decl then f b' else b' }) fun _ => True := by
  refine rests_modifyScope fun node hnode => ⟨rfl, { hnode with bindings := ?_, slots := ?_ }⟩
  · intro c hc
    obtain ⟨b', hb', rfl⟩ := List.mem_map.1 hc
    have hsound := hnode.bindings b' hb'
    split
    · rename_i hdecl
      exact hf b' (by rw [hsound.kind, hdecl, hb]) hsound
    · exact hsound
  · intro hn c hc
    obtain ⟨b', hb', rfl⟩ := List.mem_map.1 hc
    split
    · exact hslot b' (hnode.slots hn b' hb')
    · exact hnode.slots hn b' hb'

theorem keeps_placeVariable {scope : Nat} {b : Scope.Binding} (hscope : w.Inside scope)
    (hb : isNamedFunction inp.tree b.decl = false) :
    Keeps inp w (placeVariable inp scope b) fun _ _ => True := by
  unfold placeVariable
  dsimp only
  split
  · refine .read fun s hs => ?_
    refine (rests_fieldOf (hs.node scope).layout_getD _).rest fun field hfield => ?_
    refine .rest (rests_setBinding hb (fun b' _ h => ⟨hfield, h.kind, h.slot, h.code⟩) fun _ h => h) fun _ _ => ?_
    split
    · have hobject := (hs.node scope).object (hs.function_of_inside hscope)
      refine (goes_fieldAddr (I := keepInstructions inp) (hs.node scope).layout_getD hobject hfield).bind
        fun w₁ addr _ haddr => ?_
      exact (rests_defer haddr).imp fun _ _ _ _ => trivial
    · exact .pure trivial
  · refine (keeps_alloca _).bind fun w₁ slot hw₁ hslot => ?_
    refine Keeps.rest (rests_setBinding hb (fun b' hk h => ⟨h.field, h.kind, fun hf => ?_, h.code⟩)
      fun _ _ => hslot)
      fun _ _ => ?_
    · exact Bool.noConfusion (hk.symm.trans hf)
    · split
      · refine (rests_store hslot (v := .null) trivial).rest fun _ _ => ?_
        exact (rests_defer hslot).imp fun _ _ _ _ => trivial
      · exact .pure trivial

theorem keeps_enterContainer {scope container : Nat} (hadm : Admissible inp) (hscope : w.Inside scope) :
    Keeps inp w (enterContainer inp scope container) fun _ _ => True := by
  unfold enterContainer
  dsimp only
  refine .rest (rests_modifyScope fun node hnode => ⟨rfl, { hnode with }⟩) fun _ _ => ?_
  refine (Regime.Goes.forM (I := fun _ => True) trivial fun decl hdecl w₁ hw₁ _ => ?_).bind fun w₁ _ hw₁ _ => ?_
  · exact (rests_declareBinding (hadm.decl hdecl)).imp fun _ _ _ _ => trivial
  · refine (rests_scopeNode scope).rest fun node hnode => ?_
    refine .when (fun _ => keeps_makeScopeObject (hscope.mono hw₁)) fun w₂ hw₂ => ?_
    refine (Regime.Goes.forM (I := fun _ => True) trivial fun b hb w₃ hw₃ _ => ?_).bind fun w₃ _ hw₃ _ => ?_
    · obtain ⟨hmem, hkind⟩ := List.mem_filter.1 hb
      have hsound := hnode.bindings b (List.mem_reverse.1 hmem)
      refine keeps_placeVariable (hscope.mono (hw₁.trans (hw₂.trans hw₃))) ?_
      rw [← hsound.kind]
      simpa using hkind
    · split
      · refine .read fun s hs => ?_
        have hinside := hscope.mono (hw₁.trans (hw₂.trans hw₃))
        exact (rests_defer ((hs.node scope).object (hs.function_of_inside hinside))).imp fun _ _ _ _ => trivial
      · exact .pure trivial

/-! ### The view -/

/-- Scopes around a scope were opened before it. -/
theorem le_of_mem_outward (c : Scope.Chain) (n : Nat) : ∀ k ∈ c.outward n, k ≤ n := by
  fun_induction Scope.Chain.outward c n with
  | case1 n p _ hp ih =>
    intro k hk
    rcases List.mem_cons.1 hk with rfl | hk
    · exact Nat.le_refl k
    · exact Nat.le_trans (ih k hk) (Nat.le_of_lt hp)
  | case2 n => simp
  | case3 n => simp

theorem Inv.inside_of_unwind (h : Inv inp w s) (hscope : w.Inside scope) {n : Nat} (hn : n ∈ s.chain.unwind scope) :
    w.Inside n := by
  have hlt : n < w.owners.length := by
    have hle := le_of_mem_outward s.chain scope n (List.takeWhile_subset _ hn)
    exact Nat.lt_of_le_of_lt hle (List.getElem?_eq_some_iff.1 hscope).1
  have hfn : s.chain.function n = w.fn := by
    have hsame := List.all_eq_true.1 List.all_takeWhile n hn
    exact (of_decide_eq_true hsame).trans (h.function_of_inside hscope)
  rw [h.function_eq, List.getD_eq_getElem?_getD, List.getElem?_eq_getElem hlt] at hfn
  exact (List.getElem?_eq_getElem hlt).trans (congrArg some hfn)

/-- The symbols of functions are not reserved, and what is known of a scope is that it belongs to the function. -/
@[reducible]
def keepView (hadm : Admissible inp) : View inp where
  toInstructions := keepInstructions inp
  Settled _ := True
  Ended _ := True
  Quiet _ _ := True
  Made _ _ _ := True
  Admits _ _ := True
  settled _ := trivial
  settled_ended _ := trivial
  isEnded _ _ := ⟨fun _ => trivial, fun _ => trivial⟩
  quiet := trivial
  made _ _ := trivial
  made_mono _ _ := trivial
  admits _ _ := trivial
  admits_mono _ _ := trivial
  newBlock name hw _ hlive := (rests_newBlock name hlive).imp fun _ _ hq => ⟨hw.trans hq.1, trivial, trivial⟩
  br _ hlive := (rests_br _ hlive).imp fun _ _ hq => ⟨hq.1, trivial⟩
  condBr _ _ _ hlive := (rests_condBr _ _ _ hlive).imp fun _ _ hq => ⟨hq.1, trivial⟩
  setInsert hw _ _ := (rests_setInsert _ trivial).imp fun _ _ hq => ⟨hw.trans hq.1, trivial, fun _ _ => trivial⟩
  ret hv hlive := (rests_ret hv hlive).imp fun _ _ hq => ⟨hq.1, trivial⟩
  Computed w _ := Clean inp.options w.marks
  SymbolOf _ _ name := name ∉ reservedNames inp.options
  computed_mono hw h := clean_mono h hw
  symbolOf_mono _ h := h
  has_computed h := h
  computed_given h := h
  computed_literal h := (keepInstructions inp).has_literal h
  computed_symbol h := h
  computed_assign _ h := h
  computed_void _ _ _ := trivial
  asked_unary _ _ := trivial
  asked_binary _ _ _ := trivial
  callable _ _ _ := trivial
  Inside := World.Inside
  Within _ _ _ := True
  Opened _ _ _ := True
  Entered _ _ _ := True
  New _ _ := True
  Stocked := World.Inside
  Refers w _ _ := SoundRef inp w
  Place w _ := SoundRef inp w
  inside_mono hw h := h.mono hw
  within_mono _ _ := trivial
  entered_mono _ _ := trivial
  new_mono _ _ := trivial
  stocked_mono hw h := h.mono hw
  place_mono _ hw h := h.mono hw
  stocked h := h
  stocked_unwind hs hk hn := hs.inside_of_unwind hk hn
  has_deferred hs hn hd := (hs.node _).deferred (hs.function_of_inside hn) _ hd
  inner hw _ hw' := hw.trans hw'
  operand _ _ _ := trivial
  arg _ _ _ := trivial
  property _ _ _ := trivial
  within_entered _ _ := trivial
  defer hk hd := (rests_defer hd).imp fun _ _ hw _ => hk.mono hw
  openTransient hk _ := (keeps_openTransient hk).imp fun _ _ _ hinner => ⟨hinner, trivial, trivial⟩
  openChild hs hk _ _ := (keeps_openChild (hs.function_of_inside hk)).imp fun _ _ _ hinner =>
    ⟨hinner, trivial, trivial⟩
  enterContainer hk _ := (keeps_enterContainer hadm hk).imp fun _ _ hw _ => ⟨hk.mono hw, trivial⟩
  lookup hk _ _ := (rests_lookup _ hk).imp fun _ _ hw href => href.2.mono hw
  place h _ := h
  symbol h hfun := h.code hfun
  bindingAddr hk href := keeps_bindingAddr hk href
  namedPointer _ hk _ _ := keeps_scopePointer _ hk
  ownPointer _ hk _ := keeps_scopePointer _ hk
  enqueue _ hf := by
    refine (rests_enqueue (by simp [Tree.isFunction, hf, Form.isFunction])
      (hadm.codeName fun name params result hdeclare => ?_)).imp fun _ _ _ hcode => hcode.2
    rw [hf] at hdeclare
    cases hdeclare
  varPlace hs hk _ _ := (rests_ofScope fun _ href => hs.lookupDecl hk href).imp fun _ _ hw href => href.2.mono hw
  paramPlace hs hk _ _ _ _ := (rests_ofScope fun _ href => hs.lookupDecl hk href).imp
    fun _ _ hw href => href.2.mono hw

end TypedScript.Lower
