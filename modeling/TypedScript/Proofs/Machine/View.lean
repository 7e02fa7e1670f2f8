import TypedScript.Proofs.Machine.Build

/-!
# What commands do to any module

A module that carries out commands has functions with blocks and registers, whatever the instructions are turned
into. What all backends have to have in common is a view of the module, and each command changes it in one way.

* `View.apply`: what a command does to the view.
* `view_apply`: the machine module does that.
-/

namespace TypedScript.Ir

theorem findIdx?_toList {α : Type} (xs : Array α) (p : α → Bool) : xs.toList.findIdx? p = xs.findIdx? p := by
  obtain ⟨l⟩ := xs
  rw [List.findIdx?_toArray]

/-- What a function shows: its blocks, with their names and whether they are ended, and the types of its
registers. -/
structure Shape where
  name : String
  sig : Sig
  isDefined : Bool := false
  blocks : List (String × Bool) := []
  registers : List Ty := []

/-- What a module shows: its functions, which of them is being defined, and the block that instructions go to. -/
structure View where
  functions : List Shape := []
  current : Option Nat := none
  block : Nat := 0

namespace Shape

/-- The type of an operand. -/
def typeOf (f : Shape) : Operand → Ty
  | .reg r => f.registers.getD r default
  | .int t _ => t
  | .float _ => Scalar.f64
  | .bool _ => Scalar.i1
  | _ => Scalar.ptr

/-- The type of the result of an instruction, if it has one. -/
def result? (f : Shape) : Instr → Option Ty
  | .fieldAddr .. => some Scalar.ptr
  | .load type _ => some type
  | .call sig .. => some sig.ret
  | .binary _ x _ => some (f.typeOf x)
  | .compare .. => some Scalar.i1
  | _ => none

/-- The body starts. -/
def begun (f : Shape) : Shape :=
  { f with isDefined := true, blocks := [("entry", false)], registers := f.sig.params }

def addBlock (f : Shape) (name : String) : Shape :=
  { f with blocks := f.blocks ++ [(s!"{name}.{f.blocks.length}", false)] }

/-- New registers have been given out. -/
def addRegisters (f : Shape) (types : List Ty) : Shape := { f with registers := f.registers ++ types }

/-- The block is ended. -/
def endBlock (f : Shape) (block : Nat) : Shape := { f with blocks := f.blocks.modify block fun b => (b.1, true) }

/-- An instruction ends the block or gives a result, or does neither. -/
def addInstr (f : Shape) (block : Nat) (i : Instr) : Shape :=
  if i.isTerminator then f.endBlock block else f.addRegisters (f.result? i).toList

end Shape

namespace View

/-- Changes the function that is being defined. -/
def modify (v : View) (f : Shape → Shape) : View :=
  match v.current with
  | some i => { v with functions := v.functions.modify i f }
  | none => v

def shape? (v : View) : Option Shape := v.current.bind (v.functions[·]?)

/-- The name of the block at hand, and whether it is ended. -/
def block? (v : View) : Option (String × Bool) := v.shape?.bind (·.blocks[v.block]?)

/-- What a command does to a module. -/
def apply (v : View) : Command → View
  | .declareStruct _ | .constant _ => v
  | .declareFunc name sig =>
    if v.functions.any (·.name = name) then v else { v with functions := v.functions ++ [{ name, sig }] }
  | .define name =>
    let i := v.functions.findIdx (·.name = name)
    { functions := v.functions.modify i Shape.begun, current := some i, block := 0 }
  | .newBlock name => v.modify (·.addBlock name)
  | .setInsert block => { v with block }
  | .alloca _ => v.modify (·.addRegisters [Scalar.ptr])
  | .instr i => v.modify (·.addInstr v.block i)

end View

end TypedScript.Ir

namespace TypedScript.Machine

open TypedScript.Ir

def Function.shape (f : Function) : Shape where
  name := f.name
  sig := f.sig
  isDefined := f.isDefined
  blocks := f.blocks.toList.map fun b => (b.name, b.isEnded)
  registers := f.registers.toList

def Module.view (m : Module) : View where
  functions := m.functions.toList.map Function.shape
  current := m.current
  block := m.block

variable {m m' : Module} {i : Nat} {f f' : Function}

theorem getElem?_view (m : Module) (i : Nat) : m.view.functions[i]? = (m.functions[i]?).map Function.shape := by
  simp [Module.view]

theorem shape?_view (m : Module) : m.view.shape? = m.function?.map Function.shape := by
  unfold View.shape? Module.function?
  cases hc : m.current with
  | none => simp [Module.view, hc]
  | some i => simp [Module.view, hc]

theorem block?_view (m : Module) : m.view.block? = m.block?.map fun b => (b.name, b.isEnded) := by
  rw [View.block?, shape?_view, Module.block?]
  cases m.function? with
  | none => rfl
  | some f => simp [Function.shape, Module.view]

/-- If one function has changed, one shape has. -/
theorem functions_of_turns (hf : m.functions[i]? = some f) (ht : Turns m m' i f') {g : Shape → Shape}
    (hshape : f'.shape = g f.shape) : m'.view.functions = m.view.functions.modify i g := by
  refine List.ext_getElem? fun j => ?_
  rw [List.getElem?_modify, getElem?_view, getElem?_view]
  by_cases hj : i = j
  · subst hj
    simp [ht.function, hf, hshape]
  · simp [ht.others j (Ne.symm hj), hj]

theorem view_of_turns (hf : Focus m i f) (ht : Turns m m' i f') {g : Shape → Shape} (hshape : f'.shape = g f.shape)
    (hblock : m'.block = m.block) : m'.view = m.view.modify g := by
  have hcurrent : m.view.current = some i := hf.current
  simp only [View.modify, hcurrent]
  change View.mk m'.view.functions m'.current m'.block = View.mk (m.view.functions.modify i g) (some i) m.block
  rw [functions_of_turns hf.function ht hshape, ht.current, hblock]

theorem shape_begun (f : Function) : f.begun.shape = f.shape.begun := rfl

theorem shape_addBlock (f : Function) (name : String) :
    Function.shape { f with blocks := f.blocks.push { name := s!"{name}.{f.blocks.size}" } } =
      f.shape.addBlock name := by
  simp [Function.shape, Shape.addBlock, Block.isEnded]

theorem shape_alloca (f : Function) :
    Function.shape { f with slots := f.slots ++ [f.registers.size], registers := f.registers.push Scalar.ptr } =
      f.shape.addRegisters [Scalar.ptr] := by
  simp [Function.shape, Shape.addRegisters]

theorem typeOf_shape {x : Operand} {t : Ir.Ty} (h : f.typeOf? x = some t) : f.shape.typeOf x = t := by
  cases x with
  | reg r =>
    have hr : f.registers[r]? = some t := h
    simp [Shape.typeOf, Function.shape, List.getD_eq_getElem?_getD, hr]
  | absent => exact nomatch h
  | _ => exact Option.some.inj h

/-- An instruction adds the register for its result. -/
theorem registers_push {ins : Instr} {b : Nat} {t : Ir.Ty} (ht : Module.resultType f ins = .ok t) :
    (f.push b ins t).registers.toList = f.registers.toList ++ (f.shape.result? ins).toList := by
  unfold Function.push
  cases ins with
  | binary op x y =>
    simp only [Module.resultType] at ht
    cases hx : f.typeOf? x with
    | none =>
      rw [hx] at ht
      cases ht
    | some t' =>
      rw [hx] at ht
      obtain rfl : t' = t := Except.ok.inj ht
      simp [Instr.yieldsValue, Shape.result?, typeOf_shape hx]
  | compare pred x y =>
    simp only [Module.resultType] at ht
    split at ht
    · obtain rfl := Except.ok.inj ht
      simp [Instr.yieldsValue, Shape.result?]
    · cases ht
  | fieldAddr | load | call =>
    obtain rfl := Except.ok.inj ht
    simp [Instr.yieldsValue, Shape.result?]
  | _ => simp [Instr.yieldsValue, Shape.result?]

/-- An instruction that is added to an open block ends it, or leaves it open. -/
theorem shape_push {ins : Instr} {b : Nat} {blk : Block} {t : Ir.Ty} (ht : Module.resultType f ins = .ok t)
    (hblock : f.blocks[b]? = some blk) (hopen : blk.isEnded = false) : (f.push b ins t).shape =
    f.shape.addInstr b ins := by
  have hblocks : (f.push b ins t).shape.blocks =
      if ins.isTerminator then f.shape.blocks.modify b (fun p => (p.1, true)) else f.shape.blocks := by
    refine List.ext_getElem? fun j => ?_
    have hleft : (f.push b ins t).shape.blocks[j]? =
        ((f.push b ins t).blocks[j]?).map fun blk => (blk.name, blk.isEnded) := by simp [Function.shape]
    have hold : f.shape.blocks[j]? = (f.blocks[j]?).map fun blk => (blk.name, blk.isEnded) := by
      simp [Function.shape]
    rw [hleft]
    by_cases hj : b = j
    · subst hj
      have hpushed : ((f.push b ins t).blocks[b]?).map (fun blk => (blk.name, blk.isEnded)) =
          some (blk.name, ins.isTerminator) := by
        simp only [Function.push, Array.getElem?_modify, if_true, hblock, Option.map_some, Block.isEnded_push]
      rw [hpushed]
      cases hterm : ins.isTerminator <;> simp [hold, hblock, hopen]
    · have hsame : (f.push b ins t).blocks[j]? = f.blocks[j]? := by
        simp only [Function.push, Array.getElem?_modify, if_neg hj]
      rw [hsame]
      split <;> simp [hold, hj]
  have hregisters := registers_push (b := b) ht
  unfold Shape.addInstr
  cases hterm : ins.isTerminator with
  | true =>
    rw [hterm, if_pos rfl] at hblocks
    have hnone : f.shape.result? ins = none := by cases ins <;> simp_all [Instr.isTerminator, Shape.result?]
    rw [hnone, Option.toList_none, List.append_nil] at hregisters
    simp only [if_true, Shape.endBlock, ← hblocks]
    simp only [Function.shape, hregisters]
    rfl
  | false =>
    rw [hterm, if_neg (by simp)] at hblocks
    simp only [Bool.false_eq_true, if_false, Shape.addRegisters]
    rw [show f.shape.registers = f.registers.toList from rfl, ← hregisters, ← hblocks]
    rfl

theorem find?_view (m : Module) (name : String) :
    m.view.functions.find? (·.name = name) = (m.find? name).map Function.shape := by
  rw [Module.view, List.find?_map, Module.find?, ← Array.find?_toList]
  rfl

theorem any_view (m : Module) (name : String) : m.view.functions.any (·.name = name) = (m.find? name).isSome := by
  rw [← List.isSome_find?, find?_view, Option.isSome_map]

theorem index?_view (m : Module) (name : String) : m.view.functions.findIdx? (·.name = name) = m.index? name := by
  rw [Module.view, List.findIdx?_map, Module.index?, ← Ir.findIdx?_toList]
  rfl

/-- The function that is begun is the first one of its name. -/
theorem index?_of_define {name : String} (h : m.apply (.define name) = .ok m') (hi : m'.current = some i) :
    m.index? name = some i := by
  simp only [Module.apply] at h
  split at h
  · cases h
  · rename_i j hj
    split at h
    · cases h
    · obtain rfl := Except.ok.inj h
      exact hj.trans hi

/-- A command that a module carries out changes its view as it changes any. -/
theorem view_apply {c : Command} (h : m.apply c = .ok m') : m'.view = m.view.apply c := by
  cases c with
  | declareStruct s =>
    obtain rfl := Except.ok.inj h
    rfl
  | declareFunc name sig =>
    obtain rfl := Except.ok.inj h
    simp only [View.apply, any_view]
    split
    · rfl
    · simp [Module.view, Function.shape]
  | define name =>
    obtain ⟨i, g, hg, -, -, -, hb, ht⟩ := apply_define_eq_ok h
    have hindex := (index?_view m name).trans (index?_of_define h ht.current)
    obtain rfl := (List.findIdx?_eq_some_iff_findIdx_eq.1 hindex).2
    simp only [View.apply]
    rw [← functions_of_turns hg ht (shape_begun g), ← hb, ← ht.current]
    rfl
  | newBlock name =>
    have hsome : m.function? ≠ none := by
      intro hnone
      simp only [Module.apply, hnone] at h
      cases h
    obtain ⟨i, f, hf⟩ := focus_of_function? hsome
    obtain ⟨hb, ht⟩ := apply_newBlock_eq_ok h hf
    exact view_of_turns hf ht (shape_addBlock f name) hb
  | setInsert b =>
    obtain rfl := Except.ok.inj h
    rfl
  | constant v =>
    obtain rfl := Except.ok.inj h
    rfl
  | alloca t =>
    have hsome : m.function? ≠ none := by
      intro hnone
      simp only [Module.apply, hnone] at h
      cases h
    obtain ⟨i, f, hf⟩ := focus_of_function? hsome
    obtain ⟨hb, ht⟩ := apply_alloca_eq_ok h hf
    exact view_of_turns hf ht (shape_alloca f) hb
  | instr ins =>
    obtain ⟨i, f, blk, hf, hblock, hopen⟩ := focus_of_append h
    obtain ⟨t, htype, ht, hb, -, -⟩ := append_eq_ok h hf
    exact view_of_turns hf ht (shape_push htype hblock hopen) hb

end TypedScript.Machine
