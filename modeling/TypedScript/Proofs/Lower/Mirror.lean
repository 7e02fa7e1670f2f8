import TypedScript.Proofs.Layout.Numbered
import TypedScript.Proofs.Lower.Named
import TypedScript.Proofs.Machine.Build

/-!
# The module that the commands build

Lowering keeps account of registers, blocks, structs and functions without looking at the module that its commands
build. The account is right: as long as instructions go to an open block, the module carries out every command,
and what it holds is what the state tells of it.

One thing can go wrong. The machine asks for the type of the first operand of a computation or comparison, and a
call of a function without a result leaves no value that has one.

* `Valid`: what holds of the state.
* `Open`, `Ahead`: the block at hand can be added to; another block still can be gone to.
-/

namespace TypedScript.Lower

open TypedScript.Ast TypedScript.Ir TypedScript.Layout TypedScript.Machine

/-! ### Operands that are not there -/

/-- The node is the first operand of a computation or comparison. -/
inductive IsFirstOperand (t : Tree) : Nat → Prop
  | unary {id x : Nat} {op : UnaryOp} : t.form? id = some (.unary op x) → IsFirstOperand t x
  | binary {id x y : Nat} {op : BinaryOp} : t.form? id = some (.binary op x y) → op.isLogical = false →
      IsFirstOperand t x

/-- The expression has no value: it calls a function without a result, or assigns what has no value. -/
inductive Valueless (inp : Input) : Nat → Prop
  | call {id callee result : Nat} {args params : List Nat} : inp.tree.form? id = some (.call callee args) →
    inp.types.resolved? (typeOf inp callee) = some (.func params result) → inp.types.resolved? result = some .void →
    Valueless inp id
  | assign {id target value : Nat} : inp.tree.form? id = some (.assign target value) → Valueless inp value →
      Valueless inp id

/-- Something without a value is computed with or compared. -/
def LacksOperand (inp : Input) : Prop := ∃ x, IsFirstOperand inp.tree x ∧ Valueless inp x

/-- The operand is a register that was given out, or a constant; it is absent only if `P` holds. -/
def Reads (registers : Nat) (P : Prop) : Operand → Prop
  | .reg r => r < registers
  | .absent => P
  | _ => True

theorem Reads.mono {n n' : Nat} {P P' : Prop} {x : Operand} (h : Reads n P x) (hn : n ≤ n') (hP : P → P') :
    Reads n' P' x := by
  cases x with
  | reg r => exact Nat.lt_of_lt_of_le h hn
  | absent => exact hP h
  | _ => trivial

/-- The type of an operand is known, unless it is absent. -/
theorem Reads.typeOf? {f : Function} {P : Prop} {x : Operand} (h : Reads f.registers.size P x) :
    (f.typeOf? x).isSome ∨ P ∧ x = .absent := by
  cases x with
  | reg r =>
    have hr : r < f.registers.size := h
    exact .inl (by simp [Function.typeOf?, hr])
  | absent => exact .inr ⟨h, rfl⟩
  | _ => exact .inl rfl

/-! ### Blocks -/

/-- Instructions can be added to the block at hand. -/
structure Open (s : State) : Prop where
  lt : s.block < s.blocks
  notMem : s.block ∉ s.ended

/-- The block is there and still to be gone to. -/
structure Ahead (s : State) (b : Nat) : Prop where
  lt : b < s.blocks
  ne : b ≠ s.block
  notMem : b ∉ s.ended

/-! ### The module -/

/-- The layout was made, or stands for one that is missing. -/
def Known (r : Registry) (d : Descriptor) : Prop := d ∈ r.all ∨ d = default

theorem Known.mono {r r' : Registry} {d : Descriptor} (h : Known r d) (hr : r.all <+: r'.all) : Known r' d :=
  h.imp_left fun hd => hr.subset hd

/-- A known layout is known by its tag. -/
theorem Known.eq_of_tag {r : Registry} {d d' : Descriptor} (hr : r.IsNumbered) (h : Known r d) (h' : Known r d')
    (htag : d.tag = d'.tag) : d = d' := by
  have hzero : (default : Descriptor).tag = 0 := rfl
  rcases h with h | rfl <;> rcases h' with h' | rfl
  · exact hr.eq_of_tag h h' htag
  · have := hr.tag_pos h
    omega
  · have := hr.tag_pos h'
    omega
  · rfl

/-- The module has the functions and structs that were commanded. -/
structure Outlines (s : State) (m : Module) : Prop where
  listed : Listed s.symbols m
  begun : ∀ g ∈ m.functions, g.isDefined = true → Begun s g.name
  header : headerStruct.name ∈ m.structs
  structs : ∀ t ∈ s.structs, ∃ d, Known s.registry d ∧ d.tag = t ∧ d.name ∈ m.structs

/-- The function `f` that is being defined has the registers and blocks that the state tells of. -/
structure Shows (s : State) (m : Module) (i : Nat) (f : Function) : Prop extends Focus m i f where
  isDefined : f.isDefined = true
  registers : f.registers.size = s.registers
  blocks : f.blocks.size = s.blocks
  block : m.block = s.block
  isOpen : ∀ (b : Nat) blk, f.blocks[b]? = some blk → b ∉ s.ended → blk.isEnded = false

/-- The module is as the state tells. -/
def Mirrors (s : State) (m : Module) : Prop := Outlines s m ∧ ∃ i f, Shows s m i f

/-- The struct can be referred to. -/
def Usable (s : State) (t : Struct) : Prop :=
  t = headerStruct ∨ ∃ d, Known s.registry d ∧ d.tag ∈ s.structs ∧ t.name = d.name

variable {inp : Input} {s s' : State} {m : Module}

theorem Outlines.usable (h : Outlines s m) (hr : s.registry.IsNumbered) {t : Struct} (ht : Usable s t) :
    t.name ∈ m.structs := by
  rcases ht with rfl | ⟨d, hd, htag, hname⟩
  · exact h.header
  · obtain ⟨d', hd', htag', hmem⟩ := h.structs d.tag htag
    rw [hname, hd.eq_of_tag hr hd' htag'.symm]
    exact hmem

/-- The state after an instruction. -/
def State.added (s : State) (i : Instr) : State :=
  { s with
    commands := s.commands.push (.instr i)
    registers := if i.yieldsValue then s.registers + 1 else s.registers
    ended := if i.isTerminator then s.block :: s.ended else s.ended }

theorem begun_push {name : String} {c : Command} (hc : ∀ n, c ≠ .define n) (h : s'.commands = s.commands.push c) :
    Begun s' name ↔ Begun s name := by
  unfold Begun
  rw [h, Array.mem_push]
  exact or_iff_left fun heq => hc name heq.symm

/-- The function that is being defined has changed. -/
theorem Outlines.turn {m' : Module} {i : Nat} {f f' : Function} (h : Outlines s m) (hf : Focus m i f)
    (hdef : f.isDefined = true) (ht : Turns m m' i f') (hname : f'.name = f.name) (hsig : f'.sig = f.sig)
    (hdef' : f'.isDefined = f.isDefined) (hstructs : m'.structs = m.structs)
    (hbegun : ∀ name, Begun s name → Begun s' name) (hsymbols : s'.symbols = s.symbols)
    (hregistry : s'.registry = s.registry) (htags : s'.structs = s.structs) : Outlines s' m' where
  listed := hsymbols ▸ h.listed.turn hf.function ht hname hsig (hdef'.trans hdef)
  begun g hg hd := by
    rcases mem_of_turns ht hg with rfl | hg
    · exact hname ▸ hbegun _ (h.begun f (Array.mem_of_getElem? hf.function) hdef)
    · exact hbegun _ (h.begun g hg hd)
  header := hstructs ▸ h.header
  structs := by rw [hstructs, hregistry, htags]; exact h.structs

/-- An instruction is carried out, or the type of an absent operand is asked for. -/
theorem Mirrors.instr {ins : Instr} {P : Prop} (h : Mirrors s m) (hr : s.registry.IsNumbered) (hopen : Open s)
    (hstruct : ∀ t base slot, ins = .fieldAddr t base slot → Usable s t)
    (hasked : ∀ x, asked? ins = some x → Reads s.registers P x) :
    (∃ m', m.apply (.instr ins) = .ok m' ∧ Mirrors (s.added ins) m') ∨
      P ∧ asked? ins = some .absent ∧ m.apply (.instr ins) = .error .crash := by
  obtain ⟨ho, i, f, hf⟩ := h
  have hlt : m.block < f.blocks.size := by
    rw [hf.block, hf.blocks]
    exact hopen.lt
  have hblk := hf.isOpen m.block _ (Array.getElem?_eq_getElem hlt) (by rw [hf.block]; exact hopen.notMem)
  by_cases hall : ∀ x, asked? ins = some x → (f.typeOf? x).isSome
  · obtain ⟨m', hm'⟩ := append_ok hf.toFocus (Array.getElem?_eq_getElem hlt) hblk
      (fun t base slot heq => ho.usable hr (hstruct t base slot heq)) hall
    obtain ⟨t, -, ht, hb, hstructs, -⟩ := append_eq_ok hm' hf.toFocus
    refine .inl ⟨m', hm', ?_, i, _,
      ⟨ht.toFocus, hf.isDefined, ?_, ?_, hb.trans hf.block, fun b blk hget hnot => ?_⟩⟩
    · refine ho.turn hf.toFocus hf.isDefined ht rfl rfl rfl hstructs (fun name hn => ?_) rfl rfl rfl
      exact Array.mem_push.2 (.inl hn)
    · rw [Function.size_registers_push, hf.registers]
      simp only [State.added]
      split <;> rfl
    · rw [Function.size_blocks_push, hf.blocks]
      rfl
    · -- the block at hand ends exactly with the instruction
      rcases Function.getElem?_blocks_push hget with ⟨hne, hold⟩ | ⟨rfl, hended⟩
      · refine hf.isOpen b blk hold fun hmem => hnot ?_
        simp only [State.added]
        split
        · exact List.mem_cons_of_mem _ hmem
        · exact hmem
      · rw [hended]
        cases hterm : ins.isTerminator with
        | false => rfl
        | true => exact absurd (by simp [State.added, hterm, hf.block]) hnot
  · simp only [not_forall] at hall
    obtain ⟨x, hx, hnone⟩ := hall
    obtain ⟨hP, rfl⟩ := (Reads.typeOf? (hf.registers ▸ hasked x hx)).resolve_left hnone
    exact .inr ⟨hP, hx, append_crash hf.toFocus hx rfl⟩

/-- A command that leaves functions and structs alone. -/
theorem Mirrors.congr {m' : Module} (h : Mirrors s m) (hcurrent : m'.current = m.current)
    (hfunctions : m'.functions = m.functions) (hstructs : m'.structs = m.structs) (hblock : m'.block = s'.block)
    (hbegun : ∀ name, Begun s name → Begun s' name) (hsymbols : s'.symbols = s.symbols)
    (hregistry : s'.registry = s.registry) (htags : s'.structs = s.structs)
    (hregisters : s'.registers = s.registers) (hblocks : s'.blocks = s.blocks) (hended : s'.ended = s.ended) :
    Mirrors s' m' := by
  obtain ⟨ho, i, f, hf⟩ := h
  have hsigs : m'.sigs = m.sigs := by rw [Module.sigs, Module.sigs, hfunctions]
  refine ⟨⟨⟨?_, fun name => ?_, hsigs ▸ ho.listed.nodup⟩, fun g hg hd => ?_, hstructs ▸ ho.header, ?_⟩, i, f,
    ⟨⟨hcurrent ▸ hf.current, hfunctions ▸ hf.function⟩, hf.isDefined, hregisters ▸ hf.registers,
    hblocks ▸ hf.blocks, hblock,
      hended ▸ hf.isOpen⟩⟩
  · rw [hfunctions]
    exact ho.listed.blank
  · rw [hsigs, hsymbols]
    exact ho.listed.sigs name
  · exact hbegun _ (ho.begun g (hfunctions ▸ hg) hd)
  · rw [hstructs, hregistry, htags]
    exact ho.structs

theorem Mirrors.newBlock (h : Mirrors s m) (name : String) : ∃ m', m.apply (.newBlock name) = .ok m' ∧
    Mirrors { s with commands := s.commands.push (.newBlock name), blocks := s.blocks + 1 } m' := by
  obtain ⟨ho, i, f, hf⟩ := h
  obtain ⟨m', hm'⟩ : ∃ m', m.apply (.newBlock name) = .ok m' := by
    simp only [Module.apply, hf.toFocus.function?_eq]
    exact ⟨_, rfl⟩
  obtain ⟨hb, ht⟩ := apply_newBlock_eq_ok hm' hf.toFocus
  have hstructs : m'.structs = m.structs := by
    simp only [Module.apply, hf.toFocus.function?_eq, Except.ok.injEq] at hm'
    rw [← hm', hf.toFocus.modifyFunction_eq]
  refine ⟨m', hm', ?_, i, _,
    ⟨ht.toFocus, hf.isDefined, hf.registers, ?_, hb.trans hf.block, fun b blk hget hnot => ?_⟩⟩
  · refine ho.turn hf.toFocus hf.isDefined ht rfl rfl rfl hstructs (fun n hn => ?_) rfl rfl rfl
    exact Array.mem_push.2 (.inl hn)
  · simp [hf.blocks]
  · rw [Array.getElem?_push] at hget
    split at hget
    · obtain rfl := Option.some.inj hget
      rfl
    · exact hf.isOpen b blk hget hnot

theorem Mirrors.alloca (h : Mirrors s m) (t : Ir.Ty) : ∃ m', m.apply (.alloca t) = .ok m' ∧
    Mirrors { s with commands := s.commands.push (.alloca t), registers := s.registers + 1 } m' := by
  obtain ⟨ho, i, f, hf⟩ := h
  obtain ⟨m', hm'⟩ : ∃ m', m.apply (.alloca t) = .ok m' := by
    simp only [Module.apply, hf.toFocus.function?_eq]
    exact ⟨_, rfl⟩
  obtain ⟨hb, ht⟩ := apply_alloca_eq_ok hm' hf.toFocus
  have hstructs : m'.structs = m.structs := by
    simp only [Module.apply, hf.toFocus.function?_eq, Except.ok.injEq] at hm'
    rw [← hm', hf.toFocus.modifyFunction_eq]
  refine ⟨m', hm', ?_, i, _, ⟨ht.toFocus, hf.isDefined, ?_, hf.blocks, hb.trans hf.block, hf.isOpen⟩⟩
  · refine ho.turn hf.toFocus hf.isDefined ht rfl rfl rfl hstructs (fun n hn => ?_) rfl rfl rfl
    exact Array.mem_push.2 (.inl hn)
  · simp [hf.registers]

/-- The struct of a layout is declared. -/
theorem Outlines.declareStruct (h : Outlines s m) {d : Descriptor} (hd : Known s.registry d) :
    Outlines { s with commands := s.commands.push (.declareStruct (structOf d)), structs := d.tag :: s.structs }
      { m with structs := (structOf d).name :: m.structs } where
  listed := ⟨h.listed.blank, h.listed.sigs, h.listed.nodup⟩
  begun g hg hdef := Array.mem_push.2 (.inl (h.begun g hg hdef))
  header := List.mem_cons_of_mem _ h.header
  structs t ht := by
    rcases List.mem_cons.1 ht with rfl | ht
    · exact ⟨d, hd, rfl, List.mem_cons_self⟩
    · obtain ⟨d', hd', htag, hmem⟩ := h.structs t ht
      exact ⟨d', hd', htag, List.mem_cons_of_mem _ hmem⟩

theorem Outlines.declareFunc (h : Outlines s m) (name : String) (sig : Sig) : ∃ m', m.apply
    (.declareFunc name sig) = .ok m' ∧
    Outlines { s with
      commands := s.commands.push (.declareFunc name sig), symbols := symbolsAfter s.symbols name sig } m' := by
  refine ⟨_, rfl, (h.listed.declareFunc rfl).1, fun g hg hd => ?_, ?_, ?_⟩
  · refine Array.mem_push.2 (.inl (h.begun g ?_ hd))
    split at hg
    · exact hg
    · rcases Array.mem_push.1 hg with hg | rfl
      · exact hg
      · exact nomatch hd
  · split <;> exact h.header
  · split <;> exact h.structs

/-- Declaring a function does not change those that are there. -/
theorem Mirrors.declareFunc (h : Mirrors s m) (name : String) (sig : Sig) : ∃ m', m.apply
    (.declareFunc name sig) = .ok m' ∧
    Mirrors { s with
      commands := s.commands.push (.declareFunc name sig), symbols := symbolsAfter s.symbols name sig } m' := by
  obtain ⟨ho, i, f, hf⟩ := h
  obtain ⟨m', hm', ho'⟩ := ho.declareFunc name sig
  refine ⟨m', hm', ho', i, f, ?_⟩
  simp only [Module.apply, Except.ok.injEq] at hm'
  have hlt := (Array.getElem?_eq_some_iff.1 hf.function).1
  split at hm'
  · subst hm'
    exact ⟨hf.toFocus, hf.isDefined, hf.registers, hf.blocks, hf.block, hf.isOpen⟩
  · subst hm'
    refine ⟨⟨hf.current, ?_⟩, hf.isDefined, hf.registers, hf.blocks, hf.block, hf.isOpen⟩
    rw [Array.getElem?_push_lt hlt, ← Array.getElem?_eq_getElem hlt]
    exact hf.function

/-- A declared function that was not begun can be defined. -/
theorem Outlines.define (h : Outlines s m) {name : String} (hdecl : (s.symbols.lookup name).isSome)
    (hnew : ¬ Begun s name) {s' : State} (hcommands : s'.commands = s.commands.push (.define name))
    (hregisters : s'.registers = paramCount s.symbols name) (hblocks : s'.blocks = 1) (hblock : s'.block = 0)
    (hsymbols : s'.symbols = s.symbols) (hregistry : s'.registry = s.registry) (htags : s'.structs = s.structs) :
    ∃ m', m.apply (.define name) = .ok m' ∧ Mirrors s' m' := by
  have hfind : (m.find? name).isSome := by
    rw [← Option.isSome_map (f := (·.sig)), find?_map_sig, h.listed.sigs]
    exact hdecl
  obtain ⟨m', hm'⟩ := apply_define_ok hfind fun g hg hname => by
    cases hd : g.isDefined with
    | false => rfl
    | true => exact absurd (hname ▸ h.begun g hg hd) hnew
  obtain ⟨i, g, hg, rfl, hfound, hdef, hb, ht⟩ := apply_define_eq_ok hm'
  have hstructs : m'.structs = m.structs := by
    simp only [Module.apply] at hm'
    split at hm'
    · cases hm'
    · split at hm'
      · cases hm'
      · obtain rfl := Except.ok.inj hm'
        rfl
  refine ⟨m', hm', ⟨hsymbols ▸ h.listed.turn hg ht rfl rfl rfl, fun g' hg' hd => ?_, hstructs ▸ h.header, ?_⟩, i, _,
    ⟨ht.toFocus, rfl, ?_, ?_, hb.trans hblock.symm, fun b blk hget _ => ?_⟩⟩
  · unfold Begun
    rw [hcommands, Array.mem_push]
    rcases mem_of_turns ht hg' with rfl | hg'
    · exact .inr rfl
    · exact .inl (h.begun g' hg' hd)
  · rw [hstructs, hregistry, htags]
    exact h.structs
  · rw [hregisters, paramCount, ← h.listed.sigs, ← find?_map_sig, hfound]
    simp [Function.begun]
  · rw [hblocks]
    rfl
  · have hentry : b = 0 ∧ blk = { name := "entry" } := by
      cases b with
      | zero => exact ⟨rfl, (Option.some.inj hget).symm⟩
      | succ b => simp [Function.begun] at hget
    rw [hentry.2]
    rfl

/-! ### The state -/

/-- The commands crash for want of an operand. -/
structure Crashes (inp : Input) (cs : Array Command) : Prop where
  lacks : LacksOperand inp
  asks : ∃ ins, Command.instr ins ∈ cs ∧ asked? ins = some .absent
  crash : Module.applyAll {} cs = .error .crash

theorem Crashes.push {cs : Array Command} (h : Crashes inp cs) (c : Command) : Crashes inp (cs.push c) where
  lacks := h.lacks
  asks := h.asks.imp fun _ hins => ⟨Array.mem_push.2 (.inl hins.1), hins.2⟩
  crash := applyAll_push_of_error h.crash c

/-- The commands are carried out, or crash for want of an operand. -/
def Applies (inp : Input) (s : State) : Prop := (∃ m, Built s.commands m ∧ Mirrors s m) ∨ Crashes inp s.commands

/-- One command more. -/
theorem Applies.push {c : Command} (h : Applies inp s) (hc : s'.commands = s.commands.push c)
    (hm : ∀ m, Mirrors s m → (∃ m', m.apply c = .ok m' ∧ Mirrors s' m') ∨
      LacksOperand inp ∧ (∃ ins, c = .instr ins ∧ asked? ins = some .absent) ∧ m.apply c = .error .crash) :
    Applies inp s' := by
  unfold Applies
  rw [hc]
  rcases h with ⟨m, hbuilt, hmirrors⟩ | hcrashes
  · have hpush := applyAll_push_of_built hbuilt c
    rcases hm m hmirrors with ⟨m', hm', hmirrors'⟩ | ⟨hlacks, ⟨ins, rfl, hasks⟩, herror⟩
    · exact .inl ⟨m', hpush.trans hm', hmirrors'⟩
    · exact .inr ⟨hlacks, ⟨ins, Array.mem_push.2 (.inr rfl), hasks⟩, hpush.trans herror⟩
  · exact .inr (hcrashes.push c)

/-- What holds of the state while a function is lowered. -/
structure Valid (inp : Input) (s : State) : Prop where
  applies : Applies inp s
  numbered : s.registry.IsNumbered
  layouts : ∀ n ∈ s.chain.nodes, ∀ d, n.layout = some d → d ∈ s.registry.all
  named : Named inp s
  ended : ∀ b ∈ s.ended, b < s.blocks

theorem Valid.instr {ins : Instr} (h : Valid inp s) (hopen : Open s)
    (hstruct : ∀ t base slot, ins = .fieldAddr t base slot → Usable s t)
    (hasked : ∀ x, asked? ins = some x → Reads s.registers (LacksOperand inp) x) : Valid inp (s.added ins) where
  applies := h.applies.push rfl fun _ hm => (hm.instr h.numbered hopen hstruct hasked).imp_right
    fun ⟨hlacks, hasks, herror⟩ => ⟨hlacks, ⟨ins, rfl, hasks⟩, herror⟩
  numbered := h.numbered
  layouts := h.layouts
  named := h.named.congr (fun _ => begun_push (by simp) rfl) rfl rfl rfl
  ended b hb := by
    simp only [State.added] at hb ⊢
    split at hb
    · rcases List.mem_cons.1 hb with rfl | hb
      · exact hopen.lt
      · exact h.ended b hb
    · exact h.ended b hb

end TypedScript.Lower
