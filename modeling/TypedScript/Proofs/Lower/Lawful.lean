import TypedScript.Proofs.Lower.Regime
import TypedScript.Proofs.Lower.Mirror

/-!
# Computations that command what can be carried out

Lowering keeps its state valid, and leaves commands that can be carried out even if it fails. Most computations go
from one open block to another and leave the blocks that are ahead for those who opened them.

* `Onward`: how the function has grown, and the blocks that were made on the way.
* `Flows`: from an open block to an open block, with all blocks that are ahead left alone.
-/

namespace TypedScript.Lower

open TypedScript.Ast TypedScript.Ir TypedScript.Layout TypedScript.Machine

variable {inp : Input} {n : Nat} {s s' s'' : State} {α β : Type}

/-! ### Going on -/

/-- The function has grown, and no other was begun. The blocks below `n` that were ahead still are. -/
structure Since (n : Nat) (s s' : State) : Prop where
  registers : s.registers ≤ s'.registers
  blocks : s.blocks ≤ s'.blocks
  layouts : s.registry.all <+: s'.registry.all
  structs : ∀ t ∈ s.structs, t ∈ s'.structs
  symbols : ∀ name sig, s.symbols.lookup name = some sig → s'.symbols.lookup name = some sig
  begun : ∀ name, Begun s' name → Begun s name
  ahead : ∀ b, b < n → Ahead s b → Ahead s' b

namespace Since

theorem refl (n : Nat) (s : State) : Since n s s :=
  ⟨Nat.le_refl _, Nat.le_refl _, List.prefix_rfl, fun _ h => h, fun _ _ h => h, fun _ h => h, fun _ _ h => h⟩

theorem trans (h : Since n s s') (h' : Since n s' s'') : Since n s s'' where
  registers := Nat.le_trans h.registers h'.registers
  blocks := Nat.le_trans h.blocks h'.blocks
  layouts := h.layouts.trans h'.layouts
  structs t ht := h'.structs t (h.structs t ht)
  symbols name sig hn := h'.symbols name sig (h.symbols name sig hn)
  begun name hn := h.begun name (h'.begun name hn)
  ahead b hb hs := h'.ahead b hb (h.ahead b hb hs)

/-- The state shows the same of registers, blocks, layouts and structs, but for a command that begins no function.
-/
theorem of_push {c : Command} (hc : ∀ name, c ≠ .define name) (hcommands : s'.commands = s.commands.push c)
    (hregisters : s.registers ≤ s'.registers) (hblocks : s.blocks ≤ s'.blocks) (hlayouts : s'.registry = s.registry)
    (hstructs : ∀ t ∈ s.structs, t ∈ s'.structs)
    (hsymbols : ∀ name sig, s.symbols.lookup name = some sig → s'.symbols.lookup name = some sig)
    (hahead : ∀ b, b < n → Ahead s b → Ahead s' b) : Since n s s' :=
  ⟨hregisters, hblocks, hlayouts ▸ List.prefix_rfl, hstructs, hsymbols,
    fun _ => (begun_push hc hcommands).1, hahead⟩

/-- If all blocks that are ahead are left alone, those of others are. -/
theorem all (h : Since s.blocks s s') (n : Nat) : Since n s s' :=
  { h with ahead := fun b _ hb => h.ahead b hb.lt hb }

theorem isAhead (h : Since s.blocks s s') {b : Nat} (hb : Ahead s b) : Ahead s' b := h.ahead b hb.lt hb

end Since

/-- Nothing has changed that the module shows; layouts may have been made. -/
structure Quietly (s s' : State) : Prop where
  commands : s'.commands = s.commands
  registers : s'.registers = s.registers
  blocks : s'.blocks = s.blocks
  block : s'.block = s.block
  ended : s'.ended = s.ended
  symbols : s'.symbols = s.symbols
  structs : s'.structs = s.structs
  registry : s.registry.Extends s'.registry

theorem Quietly.since (h : Quietly s s') : Since n s s' where
  registers := Nat.le_of_eq h.registers.symm
  blocks := Nat.le_of_eq h.blocks.symm
  layouts := h.registry.all
  structs := by rw [h.structs]; exact fun t ht => ht
  symbols := by rw [h.symbols]; exact fun _ _ hn => hn
  begun name hn := by rwa [Begun, h.commands] at hn
  ahead b _ hb := ⟨h.blocks ▸ hb.lt, h.block ▸ hb.ne, h.ended ▸ hb.notMem⟩

theorem Quietly.isOpen (h : Quietly s s') (hs : Open s) : Open s' := by
  refine ⟨?_, ?_⟩
  · rw [h.block, h.blocks]
    exact hs.lt
  · rw [h.block, h.ended]
    exact hs.notMem

theorem Quietly.mirrors {m : Module} (h : Quietly s s') (hm : Mirrors s m) : Mirrors s' m := by
  obtain ⟨ho, i, f, hf⟩ := hm
  have hbegun (name : String) : Begun s' name ↔ Begun s name := by rw [Begun, Begun, h.commands]
  refine ⟨⟨h.symbols ▸ ho.listed, fun g hg hd => (hbegun _).2 (ho.begun g hg hd), ho.header, fun t ht => ?_⟩, i, f,
    ⟨hf.toFocus, hf.isDefined, h.registers ▸ hf.registers, h.blocks ▸ hf.blocks, h.block ▸ hf.block,
    h.ended ▸ hf.isOpen⟩⟩
  obtain ⟨d, hd, htag, hmem⟩ := ho.structs t (h.structs ▸ ht)
  exact ⟨d, hd.mono h.registry.all, htag, hmem⟩

/-- The state stays valid if layouts and symbols are as they should be. -/
theorem Valid.quiet (hs : Valid inp s) (h : Quietly s s')
    (hlayouts : ∀ n ∈ s'.chain.nodes, ∀ d, n.layout = some d → d ∈ s'.registry.all) (hnamed : Named inp s') :
    Valid inp s' where
  applies := by
    unfold Applies
    rw [h.commands]
    exact hs.applies.imp_left fun ⟨m, hbuilt, hm⟩ => ⟨m, hbuilt, h.mirrors hm⟩
  numbered := h.registry.numbered hs.numbered
  layouts := hlayouts
  named := hnamed
  ended := by rw [h.ended, h.blocks]; exact hs.ended

/-! ### Lawful computations -/

/-- What is commanded when lowering fails. -/
structure Halted (inp : Input) (e : Error) (s : State) : Prop where
  error : e ≠ .missingParameter
  applies : (∃ m, Built s.commands m) ∨ Crashes inp s.commands

theorem Valid.halted (h : Valid inp s) {e : Error} (he : e ≠ .missingParameter) : Halted inp e s :=
  ⟨he, h.applies.imp_left fun ⟨m, hbuilt, _⟩ => ⟨m, hbuilt⟩⟩

/-- The function has grown. The blocks `pending` were made on the way, and are ahead. -/
structure Onward (pending : List Nat) (s s' : State) : Prop extends Since s.blocks s s' where
  waits : ∀ b ∈ pending, Ahead s' b ∧ s.blocks ≤ b
  nodup : pending.Nodup

theorem Since.onward (h : Since s.blocks s s') : Onward [] s s' :=
  ⟨h, fun _ hb => absurd hb List.not_mem_nil, List.nodup_nil⟩

theorem Onward.trans {pending : List Nat} (h : Onward pending s s') (h' : Onward [] s' s'') :
    Onward pending s s'' :=
  ⟨h.toSince.trans (h'.toSince.all s.blocks), fun b hb => ⟨h'.isAhead (h.waits b hb).1, (h.waits b hb).2⟩, h.nodup⟩

/-- Valid states, and how the function at hand has grown from one to another. -/
def flowRegime (inp : Input) : StateRegime where
  Inv := Valid inp
  Le _ pending := Onward pending
  Live := Open
  Fault := Halted inp
  Allowed e := e ≠ .missingParameter
  refl := (Since.refl _ _).onward
  trans := .trans
  any h := h
  fault he hs := hs.halted he
  located span h := ⟨located_ne h.error span, h.applies⟩

/-- The computation keeps the state valid, leads from an open block to an open block, and leaves alone what is
ahead; if it fails, what was commanded can be carried out. -/
abbrev Flows (inp : Input) (s : State) (act : LowerM α) (Q : State → α → Prop) : Prop :=
  (flowRegime inp).toRegime.Goes none s act Q

namespace Flows

variable {act : LowerM α} {Q : State → α → Prop}

theorem of_runs (h : Open s → Valid inp s → (∀ a s', Runs act s a s' →
      Valid inp s' ∧ Since s.blocks s s' ∧ Open s' ∧ Q s' a) ∧ ∀ e s', Fails act s e s' → Halted inp e s') :
    Flows inp s act Q := by
  refine fun hopen => StateRegime.leads_of fun hs => ⟨fun a s' hrun => ?_, (h hopen hs).2⟩
  obtain ⟨hs', hsince, hopen', hQ⟩ := (h hopen hs).1 a s' hrun
  exact ⟨hs', hsince.onward, hopen', hQ⟩

/-- A change that the module does not show. -/
theorem quiet {f : State → State} {Q : State → Unit → Prop} (h : Valid inp s → Valid inp (f s))
    (hq : Quietly s (f s)) (hQ : Q (f s) ()) : Flows inp s (modify f) Q :=
  .change h hq.since.onward hq.isOpen hQ

end Flows

/-! ### Commands -/

theorem Since.added (s : State) (i : Instr) (n : Nat) : Since n s (s.added i) where
  registers := by
    simp only [State.added]
    split <;> omega
  blocks := Nat.le_refl _
  layouts := List.prefix_rfl
  structs _ h := h
  symbols _ _ h := h
  begun _ := (begun_push (by simp) rfl).1
  ahead b _ hb := by
    refine ⟨hb.lt, hb.ne, fun hmem => ?_⟩
    simp only [State.added] at hmem
    split at hmem
    · exact (List.mem_cons.1 hmem).elim hb.ne hb.notMem
    · exact hb.notMem hmem

theorem Open.added (h : Open s) {i : Instr} (hi : i.isTerminator = false) : Open (s.added i) :=
  ⟨h.lt, by simpa [State.added, hi] using h.notMem⟩

theorem isTerminator_of_yieldsValue {i : Instr} (hi : i.yieldsValue = true) : i.isTerminator = false := by
  cases i with
  | fieldAddr | load | call | binary | compare => rfl
  | store | condBr | br | ret => exact nomatch hi

theorem advance_eq_added {i : Instr} (hi : i.yieldsValue = true) :
    s.advance (s.commands.push (.instr i)) (s.registers + 1) = s.added i := by
  simp [State.advance, State.added, hi, isTerminator_of_yieldsValue hi]

theorem runs_emitEffect {i : Instr} {u : Unit} (hi : i.yieldsValue = false) (h : Runs (emitEffect i) s u s') :
    s' = s.added i := by
  obtain ⟨_, t, hemit, hrest⟩ := runs_bind.1 h
  obtain rfl := runs_modify.1 hemit
  split at hrest
  · rename_i hterm
    obtain rfl := runs_modify.1 hrest
    simp [State.added, hi, hterm]
  · rename_i hterm
    obtain ⟨-, rfl⟩ := runs_pure.1 hrest
    simp [State.added, hi, hterm]

theorem not_fails_emit {c : Command} {e : Error} : ¬ Fails (emit c) s e s' := not_fails_modify

theorem not_fails_emitValue {i : Instr} {e : Error} : ¬ Fails (emitValue i) s e s' := by
  intro h
  rcases fails_bind.1 h with h | ⟨_, _, _, h⟩
  · exact not_fails_emit h
  · exact not_fails_modifyGet h

theorem not_fails_emitEffect {i : Instr} {e : Error} : ¬ Fails (emitEffect i) s e s' := by
  intro h
  rcases fails_bind.1 h with h | ⟨_, _, _, h⟩
  · exact not_fails_emit h
  · split at h
    · exact not_fails_modify h
    · exact not_fails_pure h

/-- An instruction with a result. -/
theorem flows_emitValue {i : Instr} (hi : i.yieldsValue = true)
    (hstruct : ∀ t base slot, i = .fieldAddr t base slot → Usable s t)
    (hasked : ∀ x, asked? i = some x → Reads s.registers (LacksOperand inp) x) :
    Flows inp s (emitValue i) fun s' v => Reads s'.registers False v := by
  refine .of_runs fun hopen hs => ⟨fun v s' hr => ?_, fun e s' hf => (not_fails_emitValue hf).elim⟩
  obtain ⟨rfl, rfl⟩ := runs_emitValue hr
  rw [advance_eq_added hi]
  refine ⟨hs.instr hopen hstruct hasked, .added s i _, hopen.added (isTerminator_of_yieldsValue hi), ?_⟩
  simp [Reads, State.added, hi]

/-- An instruction without a result, which may end the block. -/
theorem leads_emitEffect {i : Instr} (hi : i.yieldsValue = false) (hopen : Open s) :
    (flowRegime inp).toRegime.Leads s (emitEffect i) fun s' _ =>
      Onward [] s s' ∧ s'.block < s'.blocks ∧ (i.isTerminator = false → Open s') := by
  refine StateRegime.leads_of fun hs => ⟨fun v s' hr => ?_, fun e s' hf => (not_fails_emitEffect hf).elim⟩
  obtain rfl := runs_emitEffect hi hr
  refine ⟨hs.instr hopen ?_ ?_, (Since.added s i _).onward, hopen.lt, hopen.added⟩
  · rintro t base slot rfl
    exact nomatch hi
  · intro x hx
    cases i with
    | fieldAddr | load | call | binary | compare => exact nomatch hi
    | store | condBr | br | ret => exact nomatch hx

theorem flows_load (type : Ir.Ty) (addr : Operand) : Flows inp s (load type addr) fun s' v =>
    Reads s'.registers False v :=
  flows_emitValue rfl nofun nofun

theorem flows_callDirect (sig : Sig) (callee : Operand) (args : List Operand) :
    Flows inp s (callDirect sig callee args) fun s' v => Reads s'.registers False v :=
  flows_emitValue rfl nofun nofun

theorem flows_compare (pred : Pred) {x : Operand} (hx : Reads s.registers (LacksOperand inp) x) (y : Operand) :
    Flows inp s (compare pred x y) fun s' v => Reads s'.registers False v :=
  flows_emitValue rfl nofun fun _ h => Option.some.inj h ▸ hx

theorem flows_binary (op : Op) {x : Operand} (hx : Reads s.registers (LacksOperand inp) x) (y : Operand) :
    Flows inp s (binary op x y) fun s' v => Reads s'.registers False v :=
  flows_emitValue rfl nofun fun _ h => Option.some.inj h ▸ hx

theorem flows_slotAddr {t : Struct} (ht : Usable s t) (base : Operand) (slot : Nat) :
    Flows inp s (slotAddr t base slot) fun s' v => Reads s'.registers False v := by
  refine flows_emitValue rfl (fun t' base' slot' h => ?_) nofun
  cases h
  exact ht

theorem flows_store (addr v : Operand) : Flows inp s (store addr v) fun _ _ => True :=
  fun hs => (leads_emitEffect rfl hs).imp fun _ _ h => ⟨h.1, h.2.2 rfl, trivial⟩

/-- The block at hand is ended; what is ahead stays ahead. -/
theorem leads_terminator {i : Instr} (hi : i.yieldsValue = false) (hs : Open s) :
    (flowRegime inp).toRegime.Leads s (emitEffect i) fun s' _ => Onward [] s s' ∧ s'.block < s'.blocks :=
  (leads_emitEffect hi hs).imp fun _ _ h => ⟨h.1, h.2.1⟩

theorem leads_ret (hs : Open s) (v : Operand) :
    (flowRegime inp).toRegime.Leads s (ret v) fun s' _ => Onward [] s s' ∧ s'.block < s'.blocks := by
  unfold ret
  split
  · exact leads_terminator rfl hs
  · exact leads_terminator rfl hs

theorem flows_constant (c : Operand) : Flows inp s (emit (.constant c)) fun _ _ => True := by
  refine .change (fun hvalid => ⟨hvalid.applies.push rfl fun m hm => .inl ⟨m, rfl, ?_⟩, hvalid.numbered,
    hvalid.layouts, ?_, hvalid.ended⟩) (Since.onward ?_) (fun hs => ⟨hs.lt, hs.notMem⟩) trivial
  · obtain ⟨ho, i, f, hf⟩ := hm
    exact Mirrors.congr ⟨ho, i, f, hf⟩ rfl rfl rfl hf.block (fun _ hn => Array.mem_push.2 (.inl hn)) rfl
      rfl rfl rfl rfl rfl
  · exact hvalid.named.congr (fun _ => begun_push (by simp) rfl) rfl rfl rfl
  · refine .of_push (by simp) rfl (Nat.le_refl _) (Nat.le_refl _) rfl (fun _ h => h) (fun _ _ h => h) fun _ _ h =>
      ?_
    exact ⟨h.lt, h.ne, h.notMem⟩

theorem flows_alloca (type : Ir.Ty) : Flows inp s (alloca type) fun s' v => Reads s'.registers False v := by
  have hafter {v : Operand} {s' : State} (hr : Runs (alloca type) s v s') : v = .reg s.registers ∧
      s' = { s with commands := s.commands.push (.alloca type), registers := s.registers + 1 } := by
    obtain ⟨_, t, hemit, hreg⟩ := runs_bind.1 hr
    obtain rfl := runs_modify.1 hemit
    exact runs_modifyGet.1 hreg
  refine .of_runs fun hopen hs => ⟨fun v s' hr => ?_, fun e s' hf => ?_⟩
  · obtain ⟨rfl, rfl⟩ := hafter hr
    refine ⟨⟨hs.applies.push rfl fun m hm => .inl (hm.alloca type), hs.numbered, hs.layouts, ?_, hs.ended⟩, ?_,
      ⟨hopen.lt, hopen.notMem⟩, Nat.lt_succ_self _⟩
    · exact hs.named.congr (fun _ => begun_push (by simp) rfl) rfl rfl rfl
    · refine .of_push (by simp) rfl (Nat.le_succ _) (Nat.le_refl _) rfl (fun _ h => h) (fun _ _ h => h) fun _ _ h =>
        ?_
      exact ⟨h.lt, h.ne, h.notMem⟩
  · rcases fails_bind.1 hf with h | ⟨_, _, _, h⟩
    · exact (not_fails_emit h).elim
    · exact (not_fails_modifyGet h).elim

/-- A new block is ahead, and nobody else's. -/
theorem Onward.newBlock {pending : List Nat} {s₀ : State} (h : Onward pending s₀ s) (hopen : Open s)
    (name : String) :
    (flowRegime inp).toRegime.Leads s (newBlock name) fun s' b => Onward (b :: pending) s₀ s' ∧ Open s' := by
  have hafter {b : Nat} {s' : State} (hr : Runs (Lower.newBlock name) s b s') : b = s.blocks ∧
      s' = { s with commands := s.commands.push (.newBlock name), blocks := s.blocks + 1 } := by
    obtain ⟨_, t, hget, hr₁⟩ := runs_bind.1 hr
    obtain ⟨rfl, rfl⟩ := runs_get.1 hget
    obtain ⟨_, t₁, hemit, hr₂⟩ := runs_bind.1 hr₁
    obtain rfl := runs_modify.1 hemit
    obtain ⟨_, t₂, hmod, hr₃⟩ := runs_bind.1 hr₂
    obtain rfl := runs_modify.1 hmod
    exact runs_pure.1 hr₃
  refine StateRegime.leads_of fun hs => ⟨fun b s' hr => ?_, fun e s' hf => ?_⟩
  · obtain ⟨rfl, rfl⟩ := hafter hr
    have hsince : Since s₀.blocks s
        { s with commands := s.commands.push (.newBlock name), blocks := s.blocks + 1 } :=
      .of_push (by simp) rfl (Nat.le_refl _) (Nat.le_succ _) rfl (fun _ h => h) (fun _ _ h => h)
        fun _ _ h => ⟨Nat.lt_succ_of_lt h.lt, h.ne, h.notMem⟩
    refine ⟨⟨hs.applies.push rfl fun m hm => .inl (hm.newBlock name), hs.numbered, hs.layouts, ?_,
      fun b hb => Nat.lt_succ_of_lt (hs.ended b hb)⟩,
      ⟨h.toSince.trans hsince, List.forall_mem_cons.2 ⟨⟨⟨Nat.lt_succ_self _, Nat.ne_of_gt hopen.lt, fun hmem => ?_⟩,
        h.blocks⟩, fun b hb => ?_⟩, List.nodup_cons.2 ⟨fun hmem => ?_, h.nodup⟩⟩,
      ⟨Nat.lt_succ_of_lt hopen.lt, hopen.notMem⟩⟩
    · exact hs.named.congr (fun _ => begun_push (by simp) rfl) rfl rfl rfl
    · exact Nat.lt_irrefl _ (hs.ended _ hmem)
    · obtain ⟨hb, hge⟩ := h.waits b hb
      exact ⟨⟨Nat.lt_succ_of_lt hb.lt, hb.ne, hb.notMem⟩, hge⟩
    · exact Nat.lt_irrefl _ (h.waits _ hmem).1.lt
  · rcases fails_bind.1 hf with h | ⟨_, _, _, h⟩
    · exact (not_fails_get h).elim
    rcases fails_bind.1 h with h | ⟨_, _, _, h⟩
    · exact (not_fails_emit h).elim
    rcases fails_bind.1 h with h | ⟨_, _, _, h⟩
    · exact (not_fails_modify h).elim
    · exact (not_fails_pure h).elim

/-- A block that is ahead is gone to. -/
theorem Onward.setInsert {pending pending' : List Nat} {s₀ : State} {b : Nat} (h : Onward pending s₀ s)
    (hperm : pending.Perm (b :: pending')) :
    (flowRegime inp).toRegime.Leads s (setInsert b) fun s' _ => Onward pending' s₀ s' ∧ Open s' := by
  have hafter {u : Unit} {s' : State} (hr : Runs (Lower.setInsert b) s u s') :
      s' = { s with commands := s.commands.push (.setInsert b), block := b } := by
    obtain ⟨_, t, hemit, hr⟩ := runs_bind.1 hr
    obtain rfl := runs_modify.1 hemit
    exact runs_modify.1 hr
  obtain ⟨hb, hge⟩ := h.waits b (hperm.mem_iff.2 List.mem_cons_self)
  obtain ⟨hnew, hnodup⟩ := List.nodup_cons.1 (hperm.nodup_iff.1 h.nodup)
  refine StateRegime.leads_of fun hs => ⟨fun u s' hr => ?_, fun e s' hf => ?_⟩
  · obtain rfl := hafter hr
    have hsince : Since s₀.blocks s { s with commands := s.commands.push (.setInsert b), block := b } := by
      refine .of_push (by simp) rfl (Nat.le_refl _) (Nat.le_refl _) rfl (fun _ h => h) (fun _ _ h => h)
        fun c hc hahead => ⟨hahead.lt, ?_, hahead.notMem⟩
      exact Nat.ne_of_lt (Nat.lt_of_lt_of_le hc hge)
    refine ⟨⟨hs.applies.push rfl fun m hm => .inl ⟨_, rfl, ?_⟩, hs.numbered, hs.layouts, ?_, hs.ended⟩,
      ⟨h.toSince.trans hsince, fun c hc => ?_, hnodup⟩, ⟨hb.lt, hb.notMem⟩⟩
    · exact hm.congr rfl rfl rfl rfl (fun _ hn => Array.mem_push.2 (.inl hn)) rfl rfl rfl rfl rfl rfl
    · exact hs.named.congr (fun _ => begun_push (by simp) rfl) rfl rfl rfl
    · obtain ⟨hahead, hge'⟩ := h.waits c (hperm.mem_iff.2 (List.mem_cons_of_mem b hc))
      exact ⟨⟨hahead.lt, fun heq : c = b => hnew (heq ▸ hc), hahead.notMem⟩, hge'⟩
  · rcases fails_bind.1 hf with h | ⟨_, _, _, h⟩
    · exact (not_fails_emit h).elim
    · exact (not_fails_modify h).elim

end TypedScript.Lower
