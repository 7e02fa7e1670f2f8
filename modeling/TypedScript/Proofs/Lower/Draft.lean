import TypedScript.Proofs.Lower.Program

/-!
# Functions written line by line

For the helpers it is not enough that they are tame: their code is known exactly. A page is what has been written
of a function so far; `Writes` says what a computation adds to it.
-/

namespace TypedScript.Machine

open TypedScript.Ir

/-- Results go to registers that are there, and a loaded value has the type it was loaded with. -/
def Function.IsTyped (f : Function) : Prop :=
  ∀ b, ∀ l ∈ f.code b, ∀ d, l.dst = some d →
    d < f.registers.size ∧ ∀ t addr, l.instr = .load t addr → f.registers[d]? = some t

theorem Function.IsTyped.push {f : Function} {b : Nat} {i : Instr} {t : Ir.Ty} (h : f.IsTyped)
    (hb : b < f.blocks.size) (ht : Module.resultType f i = .ok t) : (f.push b i t).IsTyped := by
  -- registers that were there keep their types
  have hold : ∀ d, d < f.registers.size →
      d < (f.push b i t).registers.size ∧ (f.push b i t).registers[d]? = f.registers[d]? := by
    intro d hd
    refine ⟨by rw [Function.size_registers_push]; omega, ?_⟩
    unfold Function.push
    dsimp only
    split
    · rw [Array.getElem?_push_lt hd, Array.getElem?_eq_getElem hd]
    · rfl
  intro b' l hl d hd
  rw [Function.code_push hb] at hl
  split at hl
  · rcases List.mem_append.1 hl with hl | hl
    · obtain ⟨hlt, hload⟩ := h b' l hl d hd
      exact ⟨(hold d hlt).1, fun t' addr hi => (hold d hlt).2.trans (hload t' addr hi)⟩
    · obtain rfl := List.mem_singleton.1 hl
      by_cases hy : i.yieldsValue = true
      · simp only [hy, if_true, Option.some.injEq] at hd
        subst hd
        refine ⟨by rw [Function.size_registers_push]; simp [hy], fun t' addr hi => ?_⟩
        subst hi
        cases ht
        simp [Function.push, Instr.yieldsValue]
      · simp [hy] at hd
  · obtain ⟨hlt, hload⟩ := h b' l hl d hd
    exact ⟨(hold d hlt).1, fun t' addr hi => (hold d hlt).2.trans (hload t' addr hi)⟩

end TypedScript.Machine

namespace TypedScript.Lower

open TypedScript.Ir TypedScript.Layout TypedScript.Machine

/-! ### Pages -/

/-- What has been written of a function: the lines of its blocks, the number of its registers and of its blocks,
and the block at hand. -/
structure Page where
  code : Nat → List Line
  registers : Nat
  blocks : Nat
  block : Nat

namespace Page

/-- A function with two parameters, of which nothing has been written. -/
def blank : Page := ⟨fun _ => [], 2, 1, 0⟩

/-- One line more. -/
def line (pg : Page) (l : Line) : Page :=
  { pg with code := fun b => if b = pg.block then pg.code b ++ [l] else pg.code b }

/-- An instruction with a result. -/
def value (pg : Page) (i : Instr) : Page := { pg.line ⟨some pg.registers, i⟩ with registers := pg.registers + 1 }

/-- An instruction without a result. -/
def effect (pg : Page) (i : Instr) : Page := pg.line ⟨none, i⟩

def newBlock (pg : Page) : Page := { pg with blocks := pg.blocks + 1 }

def goto (pg : Page) (block : Nat) : Page := { pg with block }

end Page

variable {P : Function → Prop} {names : List String} {name : String} {reg : Registry} {α β : Type}

/-- The function of the name is being defined, and `pg` is what has been written of it. All others with a body
have the property, and those of `names` have one. -/
structure Draft (P : Function → Prop) (names : List String) (name : String) (pg : Page)
    (symbols : List (String × Sig)) (m : Module) (i : Nat) (f : Function) : Prop
    extends Drawing P symbols m i f where
  name : f.name = name
  defines : ∀ n ∈ names, Defines m n
  code : ∀ b, f.code b = pg.code b
  block : m.block = pg.block
  blocks : f.blocks.size = pg.blocks
  registers : f.registers.size = pg.registers
  slots : f.slots = []
  typed : f.IsTyped

/-- The page is what has been written in a state of lowering. -/
structure Drafted (P : Function → Prop) (names : List String) (name : String) (reg : Registry)
    (pg : Page) (s : State) :
    Prop where
  draft : ∀ m, Built s.commands m → ∃ i f, Draft P names name pg s.symbols m i f
  registers : s.registers = pg.registers
  blocks : s.blocks = pg.blocks
  registry : s.registry = reg
  helpers : ∀ n ∈ helperNames, s.symbols.lookup n = some helperSig

/-- The computation, if it succeeds, gives `a` and turns the page `pg` into `pg'`. -/
def Writes (P : Function → Prop) (names : List String) (name : String) (reg : Registry) (act : LowerM α)
    (pg : Page) (a : α) (pg' : Page) : Prop :=
  ∀ s x s', Drafted P names name reg pg s → Runs act s x s' → x = a ∧ Drafted P names name reg pg' s'

namespace Writes

variable {act : LowerM α} {a : α} {b : β} {pg pg' pg'' : Page}

theorem pure : Writes P names name reg (pure a) pg a pg := by
  intro s x s' h hrun
  obtain ⟨rfl, rfl⟩ := runs_pure.1 hrun
  exact ⟨rfl, h⟩

theorem bind {f : α → LowerM β} (h : Writes P names name reg act pg a pg')
    (hf : Writes P names name reg (f a) pg' b pg'') :
    Writes P names name reg (act >>= f) pg b pg'' := by
  intro s x s' hs hrun
  obtain ⟨y, t, hact, hrest⟩ := runs_bind.1 hrun
  obtain ⟨rfl, ht⟩ := h s y t hs hact
  exact hf t x s' ht hrest

end Writes

variable {pg : Page}

/-- An instruction was appended. -/
theorem Draft.instr {symbols : List (String × Sig)} {m m' : Module} {i : Nat} {f : Function} {ins : Instr}
    (h : Draft P names name pg symbols m i f) (hm : m.append ins = .ok m') :
    ∃ f', Draft P names name (if ins.yieldsValue then pg.value ins else pg.effect ins) symbols m' i f' := by
  obtain ⟨t, htype, ht, hblock, -, hlt⟩ := append_eq_ok hm h.toFocus
  refine ⟨_, h.toDrawing.turn ht rfl rfl rfl, h.name, fun n hn => ?_, fun b => ?_, ?_, ?_, ?_, h.slots,
    h.typed.push hlt htype⟩
  · exact (h.defines n hn).turn h.function ht rfl h.isDefined
  · rw [Function.code_push hlt, h.block, h.registers, h.code]
    cases ins.yieldsValue <;> rfl
  · rw [hblock, h.block]
    split <;> rfl
  · have hsize : (f.push m.block ins t).blocks.size = f.blocks.size := by simp [Function.push]
    rw [hsize, h.blocks]
    split <;> rfl
  · rw [Function.size_registers_push, h.registers]
    split <;> rfl

theorem writes_emitValue {ins : Instr} (hy : ins.yieldsValue = true) :
    Writes P names name reg (emitValue ins) pg (.reg pg.registers) (pg.value ins) := by
  intro s x s' h hrun
  obtain ⟨rfl, rfl⟩ := runs_emitValue hrun
  refine ⟨congrArg Operand.reg h.registers, ⟨fun m hm => ?_, ?_, h.blocks, h.registry, h.helpers⟩⟩
  · obtain ⟨m₀, hm₀, happly⟩ := built_push.1 hm
    obtain ⟨i, f, hdraft⟩ := h.draft m₀ hm₀
    obtain ⟨f', hdraft'⟩ := hdraft.instr happly
    rw [if_pos hy] at hdraft'
    exact ⟨i, f', hdraft'⟩
  · exact congrArg (· + 1) h.registers

theorem writes_emitEffect {ins : Instr} (hy : ins.yieldsValue = false) :
    Writes P names name reg (emitEffect ins) pg () (pg.effect ins) := by
  intro s x s' h hrun
  obtain ⟨_, t, hemit, hrest⟩ := runs_bind.1 hrun
  obtain rfl := runs_modify.1 hemit
  have hdraft : ∀ m, Built (s.commands.push (.instr ins)) m →
      ∃ i f, Draft P names name (pg.effect ins) s.symbols m i f := by
    intro m hm
    obtain ⟨m₀, hm₀, happly⟩ := built_push.1 hm
    obtain ⟨i, f, hdraft⟩ := h.draft m₀ hm₀
    obtain ⟨f', hdraft'⟩ := hdraft.instr happly
    rw [if_neg (by simp [hy])] at hdraft'
    exact ⟨i, f', hdraft'⟩
  split at hrest
  · obtain rfl := runs_modify.1 hrest
    exact ⟨rfl, hdraft, h.registers, h.blocks, h.registry, h.helpers⟩
  · obtain ⟨-, rfl⟩ := runs_pure.1 hrest
    exact ⟨rfl, hdraft, h.registers, h.blocks, h.registry, h.helpers⟩

theorem writes_newBlock (label : String) : Writes P names name reg (newBlock label) pg pg.blocks pg.newBlock := by
  intro s x s' h hrun
  obtain ⟨_, _, hget, hrun₁⟩ := runs_bind.1 hrun
  obtain ⟨rfl, rfl⟩ := runs_get.1 hget
  obtain ⟨_, _, hemit, hrun₂⟩ := runs_bind.1 hrun₁
  obtain rfl := runs_modify.1 hemit
  obtain ⟨_, _, hmod, hrun₃⟩ := runs_bind.1 hrun₂
  obtain rfl := runs_modify.1 hmod
  obtain ⟨rfl, rfl⟩ := runs_pure.1 hrun₃
  refine ⟨h.blocks, fun m hm => ?_, h.registers, congrArg (· + 1) h.blocks, h.registry, h.helpers⟩
  obtain ⟨m₀, hm₀, happly⟩ := built_push.1 hm
  obtain ⟨i, f, hd⟩ := h.draft m₀ hm₀
  obtain ⟨hblock, ht⟩ := apply_newBlock_eq_ok happly hd.toFocus
  refine ⟨i, _, hd.toDrawing.turn ht rfl rfl rfl, hd.name, fun n hn => ?_, fun b => ?_, hblock.trans hd.block,
    ?_, hd.registers,
    hd.slots, fun b => ?_⟩
  · exact (hd.defines n hn).turn hd.function ht rfl hd.isDefined
  · rw [Function.code_pushBlock]
    exact hd.code b
  · simp [hd.blocks, Page.newBlock]
  · rw [Function.code_pushBlock]
    exact hd.typed b

/-- A command that leaves the functions alone. -/
theorem Draft.congr {symbols : List (String × Sig)} {m m' : Module} {i : Nat} {f : Function} {block : Nat}
    (h : Draft P names name pg symbols m i f) (hc : m'.current = m.current) (hf : m'.functions = m.functions)
    (hb : m'.block = block) : Draft P names name (pg.goto block) symbols m' i f := by
  refine ⟨h.toDrawing.congr hc hf, h.name, fun n hn => ?_, h.code, hb, h.blocks, h.registers, h.slots, h.typed⟩
  unfold Defines
  rw [hf]
  exact h.defines n hn

theorem writes_setInsert (block : Nat) : Writes P names name reg (setInsert block) pg () (pg.goto block) := by
  intro s x s' h hrun
  obtain ⟨_, _, hemit, hrun₁⟩ := runs_bind.1 hrun
  obtain rfl := runs_modify.1 hemit
  obtain rfl := runs_modify.1 hrun₁
  refine ⟨rfl, fun m hm => ?_, h.registers, h.blocks, h.registry, h.helpers⟩
  obtain ⟨m₀, hm₀, happly⟩ := built_push.1 hm
  obtain ⟨i, f, hd⟩ := h.draft m₀ hm₀
  cases happly
  exact ⟨i, f, hd.congr rfl rfl rfl⟩

theorem writes_useStruct (d : Descriptor) : Writes P names name reg (useStruct d) pg (structOf d) pg := by
  intro s x s' h hrun
  obtain ⟨_, _, hget, hrun₁⟩ := runs_bind.1 hrun
  obtain ⟨rfl, rfl⟩ := runs_get.1 hget
  dsimp only at hrun₁
  split at hrun₁
  · obtain ⟨_, _, hemit, hrun₂⟩ := runs_bind.1 hrun₁
    obtain rfl := runs_modify.1 hemit
    obtain ⟨_, _, hmod, hrun₃⟩ := runs_bind.1 hrun₂
    obtain rfl := runs_modify.1 hmod
    obtain ⟨rfl, rfl⟩ := runs_pure.1 hrun₃
    refine ⟨rfl, fun m hm => ?_, h.registers, h.blocks, h.registry, h.helpers⟩
    obtain ⟨m₀, hm₀, happly⟩ := built_push.1 hm
    obtain ⟨i, f, hd⟩ := h.draft m₀ hm₀
    cases happly
    exact ⟨i, f, hd.congr rfl rfl hd.block⟩
  · obtain ⟨rfl, rfl⟩ := runs_pure.1 hrun₁
    exact ⟨rfl, h⟩

/-! ### Beginning and end -/

/-- No function is being defined: those with a body have the property, and those of `names` have one. -/
structure Finished (P : Function → Prop) (names : List String) (reg : Registry) (s : State) : Prop where
  declared : ∀ m, Built s.commands m → Declared P s.symbols m ∧ ∀ n ∈ names, Defines m n
  registry : s.registry = reg
  helpers : ∀ n ∈ helperNames, s.symbols.lookup n = some helperSig

variable {s s' : State}

/-- The definition of a helper begins with a blank page. -/
theorem Finished.define {n : Nat} (h : Finished P names reg s) (hname : name ∈ helperNames)
    (hrun : Runs (defineFunc name) s n s') : Drafted P (name :: names) name reg .blank s' := by
  obtain ⟨rfl, rfl⟩ := runs_defineFunc hrun
  have hcount : paramCount s.symbols name = 2 := by simp [paramCount, h.helpers name hname, helperSig]
  refine ⟨fun m hm => ?_, hcount, rfl, h.registry, h.helpers⟩
  obtain ⟨m₀, hm₀, happly⟩ := built_push.1 hm
  obtain ⟨hdeclared, hdefines⟩ := h.declared m₀ hm₀
  obtain ⟨i, g, hd, rfl, hslots, hparams, hblock, hself, hold⟩ := hdeclared.define happly
  refine ⟨i, _, hd, rfl, fun n hn => ?_, fun b => g.code_begun b, hblock, rfl, ?_, hslots, fun b l hl => ?_⟩
  · rcases List.mem_cons.1 hn with rfl | hn
    · exact hself
    · exact hold n (hdefines n hn)
  · simpa [Function.begun, Page.blank, hcount] using hparams
  · rw [g.code_begun] at hl
    cases hl

/-- The definition of a helper ends with a page that has the property. -/
theorem Drafted.finish (h : Drafted P names name reg pg s)
    (hpage : ∀ f : Function, f.name = name → HelperFrame f → f.IsTyped → (∀ b, f.code b = pg.code b) → P f)
    (hpg : 2 ≤ pg.registers) : Finished P names reg s := by
  refine ⟨fun m hm => ?_, h.registry, h.helpers⟩
  obtain ⟨i, f, hd⟩ := h.draft m hm
  have hframe : HelperFrame f :=
    ⟨hd.isDefined, hd.slots, hd.registers ▸ hpg, fun b l hl d hdst => (hd.typed b l hl d hdst).1⟩
  exact ⟨hd.toDrawing.finish (hpage f hd.name hframe hd.typed hd.code), hd.defines⟩

end TypedScript.Lower
