import Mathlib.Data.List.Induction
import TypedScript.Proofs.Runtime.Spec

/-!
# Modules under construction

What one command does to the module that the commands before it have built, and when it can be carried out. Apart
from the declaration of new functions, a command changes only the function that is being defined, and only by
adding to it.
-/

namespace TypedScript.Machine

open TypedScript.Ir

/-- The commands build the module. -/
def Built (cs : Array Command) (m : Module) : Prop := Module.applyAll {} cs = .ok m

theorem built_push {cs : Array Command} {c : Command} {m' : Module} :
    Built (cs.push c) m' ↔ ∃ m, Built cs m ∧ m.apply c = .ok m' := by
  unfold Built Module.applyAll
  rw [Array.foldlM_push]
  constructor
  · intro h
    cases hm : cs.foldlM Module.apply {} with
    | error e => rw [hm] at h; cases h
    | ok m => rw [hm] at h; exact ⟨m, rfl, h⟩
  · rintro ⟨m, hm, h⟩
    rw [hm]
    exact h

/-! ### The function being defined -/

/-- The function `f`, at the place `i`, is being defined. -/
structure Focus (m : Module) (i : Nat) (f : Function) : Prop where
  current : m.current = some i
  function : m.functions[i]? = some f

/-- The module `m'` is as `m`, except that the function at the place `i`, which is being defined, is now `f`. -/
structure Turns (m m' : Module) (i : Nat) (f : Function) : Prop extends Focus m' i f where
  others : ∀ j, j ≠ i → m'.functions[j]? = m.functions[j]?

theorem Turns.trans {m m' m'' : Module} {i : Nat} {f g : Function} (h : Turns m m' i f) (h' : Turns m' m'' i g) :
    Turns m m'' i g :=
  ⟨h'.toFocus, fun j hj => (h'.others j hj).trans (h.others j hj)⟩

/-- One function has changed. -/
theorem mem_of_turns {m m' : Module} {i : Nat} {f' g : Function} (ht : Turns m m' i f') (hg : g ∈ m'.functions) :
    g = f' ∨ g ∈ m.functions := by
  obtain ⟨j, hj⟩ := Array.mem_iff_getElem?.1 hg
  by_cases hji : j = i
  · subst hji
    rw [ht.function] at hj
    cases hj
    exact .inl rfl
  · rw [ht.others j hji] at hj
    exact .inr (Array.mem_of_getElem? hj)

theorem Focus.modifyFunction_eq {m : Module} {i : Nat} {f : Function} (h : Focus m i f) (g : Function → Function) :
    m.modifyFunction g = { m with functions := m.functions.modify i g } := by
  simp [Module.modifyFunction, h.current]

theorem Focus.modifyFunction {m : Module} {i : Nat} {f : Function} (h : Focus m i f) (g : Function → Function) :
    Turns m (m.modifyFunction g) i (g f) := by
  rw [h.modifyFunction_eq]
  refine ⟨⟨h.current, ?_⟩, fun j hj => ?_⟩
  · rw [Array.getElem?_modify, if_pos rfl, h.function]
    rfl
  · rw [Array.getElem?_modify, if_neg fun h => hj h.symm]

theorem Focus.function?_eq {m : Module} {i : Nat} {f : Function} (h : Focus m i f) : m.function? = some f := by
  simp [Module.function?, h.current, h.function]

/-- The function with one line more. -/
def Function.push (f : Function) (b : Nat) (i : Instr) (t : Ir.Ty) : Function :=
  { f with
    blocks := f.blocks.modify b fun blk =>
      { blk with lines := blk.lines.push ⟨if i.yieldsValue then some f.registers.size else none, i⟩ }
    registers := if i.yieldsValue then f.registers.push t else f.registers }

namespace Function

variable (f : Function) (b : Nat) (i : Instr) (t : Ir.Ty)

theorem push_name : (f.push b i t).name = f.name := rfl

theorem push_sig : (f.push b i t).sig = f.sig := rfl

theorem push_isDefined : (f.push b i t).isDefined = f.isDefined := rfl

theorem size_registers_push :
    (f.push b i t).registers.size = f.registers.size + if i.yieldsValue then 1 else 0 := by
  unfold push
  split <;> simp

end Function

theorem Function.code_push {f : Function} {b : Nat} (hb : b < f.blocks.size) (i : Instr) (t : Ir.Ty) (b' : Nat) :
    (f.push b i t).code b' =
      if b' = b then f.code b' ++ [⟨if i.yieldsValue then some f.registers.size else none, i⟩] else f.code b' := by
  unfold push code
  simp only [Array.getD_eq_getD_getElem?, Array.getElem?_modify]
  by_cases h : b' = b
  · subst h
    simp [hb]
  · have h' : b ≠ b' := fun e => h e.symm
    simp [h, h']

theorem append_eq_ok {m m' : Module} {ins : Instr} {i : Nat} {f : Function} (h : m.append ins = .ok m')
    (hf : Focus m i f) :
    ∃ t, Module.resultType f ins = .ok t ∧ Turns m m' i (f.push m.block ins t) ∧ m'.block = m.block ∧
      m'.structs = m.structs ∧ m.block < f.blocks.size := by
  have hfun := hf.function?_eq
  unfold Module.append at h
  simp only [hfun, Option.getD_some, hf.current, Option.isNone_some, Bool.and_false, Bool.false_eq_true,
    if_false] at h
  cases ht : Module.resultType f ins with
  | error e =>
    simp only [ht] at h
    split at h
    · split at h <;> cases h
    · cases h
  | ok t =>
    cases hb : m.block? with
    | none =>
      simp only [ht, hb] at h
      split at h
      · split at h <;> cases h
      · cases h
    | some blk =>
      have hblock : f.blocks[m.block]? = some blk := by simpa [Module.block?, hfun] using hb
      by_cases hended : blk.isEnded = true
      · simp only [ht, hb, hended, if_true] at h
        split at h
        · split at h <;> cases h
        · cases h
      · simp only [ht, hb, hended] at h
        have hm : m.modifyFunction (fun g => { g with
            blocks := g.blocks.modify m.block fun b =>
              { b with lines := b.lines.push ⟨if ins.yieldsValue then some f.registers.size else none, ins⟩ }
            registers := if ins.yieldsValue then g.registers.push t else g.registers }) = m' := by
          split at h
          · split at h
            · cases h
            · cases h; rfl
          · cases h; rfl
        subst hm
        refine ⟨t, rfl, hf.modifyFunction _, ?_, ?_, (Array.getElem?_eq_some_iff.1 hblock).1⟩
        · rw [hf.modifyFunction_eq]
        · rw [hf.modifyFunction_eq]

/-! ### Signatures -/

/-- The names of the declared functions with their signatures. -/
def Module.sigs (m : Module) : List (String × Sig) := m.functions.toList.map fun f => (f.name, f.sig)

theorem Turns.sigs_eq {m m' : Module} {i : Nat} {f f' : Function} (h : Turns m m' i f')
    (hf : m.functions[i]? = some f) (hname : f'.name = f.name) (hsig : f'.sig = f.sig) : m'.sigs = m.sigs := by
  unfold Module.sigs
  refine List.ext_getElem? fun j => ?_
  simp only [List.getElem?_map, Array.getElem?_toList]
  by_cases hj : j = i
  · subst hj
    rw [h.function, hf]
    simp [hname, hsig]
  · rw [h.others j hj]

theorem find?_map_sig (m : Module) (name : String) : (m.find? name).map (·.sig) = m.sigs.lookup name := by
  unfold Module.find? Module.sigs
  rw [← Array.find?_toList]
  induction m.functions.toList with
  | nil => rfl
  | cons f fs ih =>
    by_cases h : f.name = name
    · simp [h]
    · have h' : (name == f.name) = false := by simpa using fun e => h e.symm
      simp [h, h', ih, List.lookup_cons]

/-- The function of a name that is declared is the first one that has it. -/
theorem index?_eq_some {m : Module} {name : String} {i : Nat} (h : m.index? name = some i) :
    ∃ g, m.functions[i]? = some g ∧ g.name = name ∧ m.find? name = some g := by
  obtain ⟨hi, hname, hfirst⟩ := Array.findIdx?_eq_some_iff_getElem.1 h
  have hname' : m.functions[i].name = name := by simpa using hname
  refine ⟨m.functions[i], Array.getElem?_eq_getElem hi, hname', ?_⟩
  unfold Module.find?
  rw [Array.find?_eq_some_iff_getElem]
  refine ⟨by simpa using hname, i, hi, rfl, fun j hj => ?_⟩
  simpa using hfirst j hj

/-- A function whose body starts. -/
def Function.begun (g : Function) : Function :=
  { g with isDefined := true, blocks := #[{ name := "entry" }], registers := g.sig.params.toArray }

theorem Function.code_begun (g : Function) (b : Nat) : g.begun.code b = [] := by
  unfold code begun
  cases b <;> rfl

theorem apply_define_eq_ok {m m' : Module} {name : String} (h : m.apply (.define name) = .ok m') :
    ∃ i g, m.functions[i]? = some g ∧ g.name = name ∧ m.find? name = some g ∧ g.isDefined = false ∧ m'.block = 0 ∧
      Turns m m' i g.begun := by
  simp only [Module.apply] at h
  split at h
  · cases h
  · rename_i i hi
    obtain ⟨g, hg, hname, hfind⟩ := index?_eq_some hi
    have hd : m.functions.getD i default = g := by simp [Array.getD_eq_getD_getElem?, hg]
    rw [hd] at h
    split at h
    · cases h
    · rename_i hdef
      cases h
      refine ⟨i, g, hg, hname, hfind, by simpa using hdef, rfl, ⟨rfl, ?_⟩, fun j hj => ?_⟩
      · simp [Array.getElem?_modify, hg, Function.begun]
      · rw [Array.getElem?_modify, if_neg (Ne.symm hj)]

theorem apply_newBlock_eq_ok {m m' : Module} {name : String} {i : Nat} {f : Function}
    (h : m.apply (.newBlock name) = .ok m') (hf : Focus m i f) :
    m'.block = m.block ∧
      Turns m m' i { f with blocks := f.blocks.push { name := s!"{name}.{f.blocks.size}" } } := by
  simp only [Module.apply, hf.function?_eq] at h
  cases h
  refine ⟨?_, hf.modifyFunction _⟩
  rw [hf.modifyFunction_eq]

theorem apply_alloca_eq_ok {m m' : Module} {t : Ir.Ty} {i : Nat} {f : Function} (h : m.apply (.alloca t) = .ok m')
    (hf : Focus m i f) :
    m'.block = m.block ∧ Turns m m' i { f with
      slots := f.slots ++ [f.registers.size]
      registers := f.registers.push Scalar.ptr } := by
  simp only [Module.apply, hf.function?_eq] at h
  cases h
  refine ⟨?_, hf.modifyFunction _⟩
  rw [hf.modifyFunction_eq]

/-- A new block has no lines, as one that is not there. -/
theorem Function.code_pushBlock (f : Function) (name : String) (b : Nat) :
    Function.code { f with blocks := f.blocks.push { name } } b = f.code b := by
  unfold code
  simp only [Array.getD_eq_getD_getElem?, Array.getElem?_push]
  split
  · rename_i h
    subst h
    simp
    rfl
  · rfl

/-! ### Ends of blocks -/

/-- What is appended is appended to an open block of a function that is being defined. -/
theorem focus_of_append {m m' : Module} {ins : Instr} (h : m.append ins = .ok m') :
    ∃ i f blk, Focus m i f ∧ f.blocks[m.block]? = some blk ∧ blk.isEnded = false := by
  cases ht : Module.resultType (m.function?.getD default) ins with
  | error e =>
    simp only [Module.append, ht] at h
    repeat' (first | cases h | split at h)
  | ok t =>
    cases hb : m.block? with
    | none =>
      simp only [Module.append, ht, hb] at h
      repeat' (first | cases h | split at h)
    | some blk =>
      obtain ⟨f, hfun, hblock⟩ := Option.bind_eq_some_iff.1 hb
      obtain ⟨i, hi, hf⟩ := Option.bind_eq_some_iff.1 hfun
      refine ⟨i, f, blk, ⟨hi, hf⟩, hblock, ?_⟩
      cases hended : blk.isEnded with
      | false => rfl
      | true =>
        simp only [Module.append, ht, hb, hended] at h
        repeat' (first | cases h | split at h)

theorem focus_of_function? {m : Module} (h : m.function? ≠ none) : ∃ i f, Focus m i f := by
  obtain ⟨f, hfun⟩ := Option.ne_none_iff_exists'.1 h
  obtain ⟨i, hi, hf⟩ := Option.bind_eq_some_iff.1 hfun
  exact ⟨i, f, hi, hf⟩

/-- The block at hand is not ended if an instruction can be appended. -/
theorem append_isOpen {m m' : Module} {ins : Instr} {i : Nat} {f : Function} (h : m.append ins = .ok m')
    (hf : Focus m i f) {x : Line} (hx : (f.code m.block).getLast? = some x) : x.instr.isTerminator = false := by
  obtain ⟨_, g, blk, hg, hblock, hopen⟩ := focus_of_append h
  obtain rfl : f = g := Option.some.inj (hf.function?_eq.symm.trans hg.function?_eq)
  have hcode : f.code m.block = blk.lines.toList := by
    unfold Function.code
    rw [Array.getD_eq_getD_getElem?, hblock]
    rfl
  rw [hcode, Array.getLast?_toList] at hx
  unfold Block.isEnded at hopen
  rw [hx] at hopen
  exact hopen

/-- Nothing follows the end of a block. -/
def Function.EndsOnce (f : Function) : Prop :=
  ∀ b k l, (f.code b)[k]? = some l → l.instr.isTerminator = true → k + 1 = (f.code b).length

/-- Nothing is appended to a block that is ended. -/
theorem endsOnce_apply {m m' : Module} {c : Command} (h : m.apply c = .ok m') (hm : ∀ f ∈ m.functions, f.EndsOnce) :
    ∀ f ∈ m'.functions, f.EndsOnce := by
  have hblank : ∀ {f : Function}, (∀ b, f.code b = []) → f.EndsOnce := by
    intro f hf b k l hl
    simp [hf] at hl
  have hturn : ∀ {i f f'}, Focus m i f → Turns m m' i f' → (f.EndsOnce → f'.EndsOnce) → ∀ g ∈ m'.functions,
    g.EndsOnce := by
    intro i f f' hfocus ht hkeep g hg
    rcases mem_of_turns ht hg with rfl | hold
    · exact hkeep (hm f (Array.mem_of_getElem? hfocus.function))
    · exact hm g hold
  cases c with
  | declareStruct s =>
    obtain rfl := Except.ok.inj h
    exact hm
  | declareFunc name sig =>
    obtain rfl := Except.ok.inj h
    intro f hf
    split at hf
    · exact hm f hf
    · rcases Array.mem_push.1 hf with hold | rfl
      · exact hm f hold
      · exact hblank fun b => rfl
  | define name =>
    obtain ⟨i, g, hg, -, -, -, -, ht⟩ := apply_define_eq_ok h
    intro f hf
    rcases mem_of_turns ht hf with rfl | hold
    · exact hblank fun b => g.code_begun b
    · exact hm f hold
  | newBlock name =>
    have hsome : m.function? ≠ none := by
      intro hnone
      simp only [Module.apply, hnone] at h
      cases h
    obtain ⟨i, f, hi⟩ := focus_of_function? hsome
    refine hturn hi (apply_newBlock_eq_ok h hi).2 fun hends b k l hl => ?_
    rw [f.code_pushBlock] at hl ⊢
    exact hends b k l hl
  | setInsert b =>
    obtain rfl := Except.ok.inj h
    exact hm
  | constant v =>
    obtain rfl := Except.ok.inj h
    exact hm
  | alloca t =>
    have hsome : m.function? ≠ none := by
      intro hnone
      simp only [Module.apply, hnone] at h
      cases h
    obtain ⟨i, f, hi⟩ := focus_of_function? hsome
    exact hturn hi (apply_alloca_eq_ok h hi).2 fun hends => hends
  | instr ins =>
    obtain ⟨i, f, _, hi, -, -⟩ := focus_of_append h
    obtain ⟨t, -, ht, -, -, hlt⟩ := append_eq_ok h hi
    refine hturn hi ht fun hends b k l hl hterm => ?_
    rw [Function.code_push hlt] at hl ⊢
    by_cases hb : b = m.block
    · subst hb
      rw [if_pos rfl] at hl ⊢
      by_cases hk : k < (f.code m.block).length
      · -- the block would have been ended before
        rw [List.getElem?_append_left hk] at hl
        have hlast : (f.code m.block).getLast? = some l := by
          rw [List.getLast?_eq_getElem?, ← hends _ k l hl hterm, Nat.add_sub_cancel, hl]
        rw [append_isOpen h hi hlast] at hterm
        cases hterm
      · have hlt := (List.getElem?_eq_some_iff.1 hl).1
        simp only [List.length_append, List.length_singleton] at hlt ⊢
        omega
    · rw [if_neg hb] at hl ⊢
      exact hends b k l hl hterm

theorem endsOnce_of_built {cs : Array Command} {m : Module} (hm : Built cs m) : ∀ f ∈ m.functions, f.EndsOnce := by
  obtain ⟨l⟩ := cs
  induction l using List.reverseRecOn generalizing m with
  | nil =>
    obtain rfl : ({} : Module) = m := Except.ok.inj hm
    simp
  | append_singleton l c ih =>
    have hpush : (⟨l ++ [c]⟩ : Array Command) = Array.push ⟨l⟩ c := by simp
    rw [hpush] at hm
    obtain ⟨m₁, hm₁, happly⟩ := built_push.1 hm
    exact endsOnce_apply happly (ih hm₁)

/-! ### Commands that can be carried out

A module refuses an instruction that comes after the end of a block, an address in a struct that was not declared,
and a function that is defined twice; and it crashes when the type of an operand is asked for that is not there.
In all other cases the command is carried out. -/

section

/-- Commanding more does not mend a fault. -/
theorem applyAll_push_of_error {m : Module} {cs : Array Command} {e : Fault} (h : m.applyAll cs = .error e)
    (c : Command) :
    m.applyAll (cs.push c) = .error e := by
  unfold Module.applyAll at h ⊢
  rw [Array.foldlM_push, h]
  rfl

theorem applyAll_push_of_built {cs : Array Command} {m : Module} (h : Built cs m) (c : Command) :
    Module.applyAll {} (cs.push c) = m.apply c := by
  unfold Built Module.applyAll at h
  unfold Module.applyAll
  rw [Array.foldlM_push, h]
  rfl

/-- The block ends with the line that is added. -/
theorem Block.isEnded_push (b : Block) (l : Line) :
    Block.isEnded { b with lines := b.lines.push l } = l.instr.isTerminator := by
  simp [Block.isEnded]

/-- Only the block at hand gets the line. -/
theorem Function.getElem?_blocks_push {f : Function} {b b' : Nat} {i : Instr} {t : Ir.Ty} {blk : Block}
    (h : (f.push b i t).blocks[b']? = some blk) :
    (b' ≠ b ∧ f.blocks[b']? = some blk) ∨ b' = b ∧ blk.isEnded = i.isTerminator := by
  simp only [Function.push, Array.getElem?_modify] at h
  split at h
  · rename_i heq
    obtain ⟨blk', -, rfl⟩ := Option.map_eq_some_iff.1 h
    exact .inr ⟨heq.symm, Block.isEnded_push _ _⟩
  · rename_i hne
    exact .inl ⟨fun heq => hne heq.symm, h⟩

theorem Function.size_blocks_push (f : Function) (b : Nat) (i : Instr) (t : Ir.Ty) :
    (f.push b i t).blocks.size = f.blocks.size := by
  simp [Function.push]

/-- The first operand of an instruction that asks for its type. -/
def asked? : Instr → Option Operand
  | .binary _ x _ | .compare _ x _ => some x
  | _ => none

theorem mem_operands_of_asked? {ins : Instr} {x : Operand} (h : asked? ins = some x) : x ∈ operands ins := by
  cases ins with
  | binary op y z => exact Option.some.inj h ▸ List.mem_cons_self
  | compare pred y z => exact Option.some.inj h ▸ List.mem_cons_self
  | _ => cases h

theorem resultType_eq_ok {f : Function} {ins : Instr} (h : ∀ x, asked? ins = some x → (f.typeOf? x).isSome) :
    ∃ t, Module.resultType f ins = .ok t := by
  cases ins with
  | binary op x y =>
    obtain ⟨t, ht⟩ := Option.isSome_iff_exists.1 (h x rfl)
    exact ⟨t, by rw [Module.resultType, ht]; rfl⟩
  | compare pred x y => exact ⟨_, if_pos (h x rfl)⟩
  | _ => exact ⟨_, rfl⟩

variable {m : Module} {ins : Instr} {i : Nat} {f : Function}

/-- An instruction is appended to an open block if what it refers to is there. -/
theorem append_ok (hf : Focus m i f) {blk : Block} (hblock : f.blocks[m.block]? = some blk)
    (hopen : blk.isEnded = false) (hstruct : ∀ s base slot, ins = .fieldAddr s base slot → s.name ∈ m.structs)
    (hasked : ∀ x, asked? ins = some x → (f.typeOf? x).isSome) : ∃ m', m.append ins = .ok m' := by
  have hfun := hf.function?_eq
  have hb : m.block? = some blk := by simp [Module.block?, hfun, hblock]
  obtain ⟨t, ht⟩ := resultType_eq_ok hasked
  have hsome : m.current.isNone = false := by rw [hf.current]; rfl
  unfold Module.append
  simp only [hfun, Option.getD_some, ht, hsome, Bool.and_false, hb, hopen]
  split
  · rename_i s base slot
    have hmem : m.structs.contains s.name = true := by simpa using hstruct s base slot rfl
    simp only [hmem]
    exact ⟨_, rfl⟩
  · exact ⟨_, rfl⟩

/-- Asking for the type of an operand that is not there is a crash. -/
theorem append_crash (hf : Focus m i f) {x : Operand} (hasked : asked? ins = some x) (hx : f.typeOf? x = none) :
    m.append ins = .error .crash := by
  have hfun := hf.function?_eq
  cases ins with
  | binary op x' y =>
    obtain rfl : x' = x := Option.some.inj hasked
    simp only [Module.append, hfun, Option.getD_some, Module.resultType, hx]
    rfl
  | compare pred x' y =>
    obtain rfl : x' = x := Option.some.inj hasked
    simp only [Module.append, hfun, Option.getD_some, Module.resultType, hx]
    rfl
  | _ => cases hasked

/-- A function that is declared can be defined once. -/
theorem apply_define_ok {name : String} (hdecl : (m.find? name).isSome)
    (hnew : ∀ g ∈ m.functions, g.name = name → g.isDefined = false) : ∃ m', m.apply (.define name) = .ok m' := by
  have hindex : (m.index? name).isSome := by
    unfold Module.find? at hdecl
    unfold Module.index?
    rw [Array.findIdx?_isSome]
    rwa [Array.find?_isSome, ← Array.any_eq_true'] at hdecl
  obtain ⟨j, hj⟩ := Option.isSome_iff_exists.1 hindex
  obtain ⟨g, hg, hname, -⟩ := index?_eq_some hj
  have hd : m.functions.getD j default = g := by simp [Array.getD_eq_getD_getElem?, hg]
  simp only [Module.apply, hj, hd, hnew g (Array.mem_of_getElem? hg) hname]
  exact ⟨_, rfl⟩

end

end TypedScript.Machine
