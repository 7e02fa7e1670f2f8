import TypedScript.Proofs.Lower.Flow
import TypedScript.Proofs.Lower.Ledger
import TypedScript.Proofs.Lower.Program
import TypedScript.Proofs.Lower.Scoped

/-!
# Computations that keep account

Lowering knows a block by its number and a value by its register, and does not look back. That it never reads a
register that may be undefined, or leaves a block open, is a matter of the order in which it does things: a block
that is made is branched to from there on only, and is gone to before the function is complete.

* `Ordered`: the commands are accounted for, and the state agrees with the ledger.
* `Moves`: how far a computation has come from where it started, with the blocks it has made and not gone to yet.
* `Orderly`: the computation goes from an ordered state to an ordered state and has no blocks left to go to.
-/

namespace TypedScript.Lower

open TypedScript.Ast TypedScript.Ir TypedScript.Layout TypedScript.Machine TypedScript.Scope

/-! ### Ordered states -/

/-- What the commands so far tell. -/
def State.ledger (s : State) : Ledger := .of s.commands

/-- The operand is no register, or one that is defined where instructions go to. -/
def State.Has (s : State) (x : Operand) : Prop := ∀ r, x = .reg r → r ∈ s.ledger.here

/-- The symbol is that of a function that has been begun or waits, or the name of a declared function. -/
def Enlisted (inp : Input) (s : State) (fn : Nat) (name : String) : Prop :=
  inp.tree.isFunction fn = true ∧ (Begun s name ∨ ∃ p ∈ s.queue, p.code = name) ∨
    fn ∈ inp.tree.reachedOutsideTypes ∧ ∃ params result, inp.tree.form? fn = some (.declareFunc name params result)

/-- The commands are accounted for, the state agrees with what they tell, and bindings and symbols are those of
their declarations. -/
structure Ordered (inp : Input) (s : State) : Prop where
  accounted : Accounted s.commands
  symbols : s.ledger.symbols = s.symbols
  registers : s.ledger.registers = s.registers
  blocks : s.ledger.blocks = s.blocks
  block : s.ledger.block = s.block
  ended : s.ledger.ended = s.ended
  kinds : ∀ n, ∀ b ∈ (s.chain.get n).bindings, b.kind.isFunction = isNamedFunction inp.tree b.decl
  enlisted : ∀ fn name, s.codes.lookup fn = some name → Enlisted inp s fn name

/-- From `s` to `s'` the function has grown. What was defined still is, and of the blocks made on the way those in
`pending` are still to be gone to from where `s` was. The scopes that were there are as they were, but for the one
in `own`. -/
structure Moves (own : Option Nat) (pending : List Nat) (s s' : State) : Prop where
  begun : ∀ name, Begun s name → Begun s' name
  blocks : s.blocks ≤ s'.blocks
  starts : ∀ b < s.blocks, s'.ledger.starts b = s.ledger.starts b
  ended : ∀ b ∈ s.ended, b ∈ s'.ended
  closed : ∀ b, b = s.block ∨ (s.blocks ≤ b ∧ b < s'.blocks) → b = s'.block ∨ b ∈ s'.ended ∨ b ∈ pending
  here : ∀ r ∈ s.ledger.here, r ∈ s'.ledger.here
  ahead : ∀ b ∈ pending, b < s'.blocks ∧ s'.ledger.starts b = s.ledger.here
  env : s'.env = s.env
  size : s.chain.nodes.size ≤ s'.chain.nodes.size
  nodes : ∀ n < s.chain.nodes.size, own ≠ some n → s'.chain.get n = s.chain.get n
  links : ∀ n < s.chain.nodes.size, (s'.chain.get n).parent = (s.chain.get n).parent ∧
    (s'.chain.get n).function = (s.chain.get n).function
  functions : ∀ n, s.chain.nodes.size ≤ n → n < s'.chain.nodes.size →
    ∃ k < s.chain.nodes.size, s'.chain.function n = s.chain.function k

variable {inp : Input} {own own' : Option Nat} {pending pending' : List Nat} {s s' s'' : State} {α β : Type}

theorem State.Has.moves {x : Operand} (h : s.Has x) (hm : Moves own pending s s') : s'.Has x :=
  fun r hr => hm.here r (h r hr)

@[simp] theorem State.has_null : s.Has .null := fun _ h => nomatch h

@[simp] theorem State.has_absent : s.Has .absent := fun _ h => nomatch h

@[simp] theorem State.has_int (t : Scalar) (v : Int) : s.Has (.int t v) := fun _ h => nomatch h

@[simp] theorem State.has_float (v : Float) : s.Has (.float v) := fun _ h => nomatch h

@[simp] theorem State.has_bool (v : Bool) : s.Has (.bool v) := fun _ h => nomatch h

@[simp] theorem State.has_string (v : String) : s.Has (.string v) := fun _ h => nomatch h

@[simp] theorem State.has_func (name : String) : s.Has (.func name) := fun _ h => nomatch h

theorem State.has_reg {r : Nat} : s.Has (.reg r) ↔ r ∈ s.ledger.here :=
  ⟨fun h => h r rfl, fun h _ heq => Operand.reg.inj heq ▸ h⟩

namespace Moves

theorem refl (s : State) : Moves own [] s s where
  begun _ h := h
  blocks := Nat.le_refl _
  starts _ _ := rfl
  ended _ h := h
  closed b hb := by
    rcases hb with hb | ⟨hge, hlt⟩
    · exact .inl hb
    · omega
  here _ h := h
  ahead _ h := nomatch h
  env := rfl
  size := Nat.le_refl _
  nodes _ _ _ := rfl
  links _ _ := ⟨rfl, rfl⟩
  functions n hge hlt := by omega

/-- One part after another. The second one changes a scope of its own, or the same as the first. -/
theorem step (h : Moves own pending s s') (h' : Moves own' [] s' s'')
    (hown : ∀ n < s.chain.nodes.size, own' = some n → own = some n) : Moves own pending s s'' where
  begun name hb := h'.begun name (h.begun name hb)
  blocks := Nat.le_trans h.blocks h'.blocks
  starts b hb := (h'.starts b (Nat.lt_of_lt_of_le hb h.blocks)).trans (h.starts b hb)
  ended b hb := h'.ended b (h.ended b hb)
  closed b hb := by
    have hnew (hb' : b = s'.block ∨ (s'.blocks ≤ b ∧ b < s''.blocks)) : b = s''.block ∨ b ∈ s''.ended ∨
      b ∈ pending := by
      rcases h'.closed b hb' with heq | hend | hnil
      · exact .inl heq
      · exact .inr (.inl hend)
      · exact nomatch hnil
    by_cases hlt : b = s.block ∨ (s.blocks ≤ b ∧ b < s'.blocks)
    · rcases h.closed b hlt with heq | hend | hpend
      · exact hnew (.inl heq)
      · exact .inr (.inl (h'.ended b hend))
      · exact .inr (.inr hpend)
    · refine hnew (.inr ?_)
      omega
  here r hr := h'.here r (h.here r hr)
  ahead b hb := by
    obtain ⟨hlt, hstarts⟩ := h.ahead b hb
    exact ⟨Nat.lt_of_lt_of_le hlt h'.blocks, (h'.starts b hlt).trans hstarts⟩
  env := h'.env.trans h.env
  size := Nat.le_trans h.size h'.size
  nodes n hn hne := by
    rw [h'.nodes n (Nat.lt_of_lt_of_le hn h.size) fun heq => hne (hown n hn heq), h.nodes n hn hne]
  links n hn := by
    obtain ⟨hp, hf⟩ := h.links n hn
    obtain ⟨hp', hf'⟩ := h'.links n (Nat.lt_of_lt_of_le hn h.size)
    exact ⟨hp'.trans hp, hf'.trans hf⟩
  functions n hge hlt := by
    by_cases hn : n < s'.chain.nodes.size
    · obtain ⟨k, hk, heq⟩ := h.functions n hge hn
      exact ⟨k, hk, (h'.links n hn).2.trans heq⟩
    · obtain ⟨k, hk, heq⟩ := h'.functions n (Nat.le_of_not_lt hn) hlt
      by_cases hks : k < s.chain.nodes.size
      · exact ⟨k, hks, heq.trans (h.links k hks).2⟩
      · obtain ⟨k', hk', heq'⟩ := h.functions k (Nat.le_of_not_lt hks) hk
        exact ⟨k', hk', heq.trans heq'⟩

theorem trans (h : Moves own pending s s') (h' : Moves own [] s' s'') : Moves own pending s s'' :=
  h.step h' fun _ _ h => h

/-- What changes no scope may be part of what changes one. -/
theorem any (h : Moves none pending s s') : Moves own pending s s' :=
  { h with nodes := fun n hn _ => h.nodes n hn nofun }

/-- A scope that was not there is nobody else's. -/
theorem ofInner {k : Nat} (h : Moves none pending s s') (h' : Moves (some k) [] s' s'')
    (hk : s.chain.nodes.size ≤ k) :
    Moves none pending s s'' :=
  h.step h' fun n hn heq => absurd (Option.some.inj heq) (by omega)

/-- The block that is gone to was made before, and the one at hand is ended. -/
theorem goTo (h : Moves own pending s s') {b : Nat} (hended : s'.block ∈ s'.ended)
    (hpending : ∀ c, c ∈ pending ↔ c = b ∨ c ∈ pending') :
    Moves own pending' s { s' with commands := s'.commands.push (.setInsert b), block := b } := by
  have hledger : State.ledger { s' with commands := s'.commands.push (.setInsert b), block := b } =
      s'.ledger.next (.setInsert b) := Ledger.of_push _ _
  obtain ⟨hlt, hstarts⟩ := h.ahead b ((hpending b).2 (.inl rfl))
  constructor
  case begun => exact fun name hb => Array.mem_push.2 (.inl (h.begun name hb))
  case blocks => exact h.blocks
  case starts =>
    rw [hledger]
    exact h.starts
  case ended => exact h.ended
  case closed =>
    intro c hc
    rcases h.closed c hc with rfl | hend | hpend
    · exact .inr (.inl hended)
    · exact .inr (.inl hend)
    · exact ((hpending c).1 hpend).imp_right .inr
  case here =>
    rw [hledger]
    intro r hr
    change r ∈ s'.ledger.starts b
    rw [hstarts]
    exact hr
  case ahead =>
    rw [hledger]
    exact fun c hc => h.ahead c ((hpending c).2 (.inr hc))
  case env => exact h.env
  case size => exact h.size
  case nodes => exact h.nodes
  case links => exact h.links
  case functions => exact h.functions

end Moves

/-! ### Orderly computations -/

/-- Ordered states, and how far one of them is from another. -/
def orderlyRegime (inp : Input) : StateRegime where
  Inv := Ordered inp
  Le := Moves
  Live _ := True
  Fault _ _ := True
  Allowed _ := True
  refl := .refl _
  trans := .trans
  any := .any
  fault _ _ := trivial
  located _ _ := trivial

/-- From the state `s` on the computation leads to ordered states only, and no block is left that was not gone
to. -/
abbrev Orderly (inp : Input) (own : Option Nat) (s : State) (act : LowerM α) (Q : State → α → Prop) : Prop :=
  (orderlyRegime inp).toRegime.Goes own s act Q

section

variable {act : LowerM α} {Q : State → α → Prop}

theorem leads_of_ordered {R : State → α → Prop}
    (h : Ordered inp s → ∀ a s', Runs act s a s' → Ordered inp s' ∧ R s' a) :
    (orderlyRegime inp).toRegime.Leads s act R :=
  StateRegime.leads_of fun hs => ⟨h hs, fun _ _ _ => trivial⟩

theorem Orderly.of_runs
    (h : Ordered inp s → ∀ a s', Runs act s a s' → Ordered inp s' ∧ Moves own [] s s' ∧ Q s' a) :
    Orderly inp own s act Q :=
  fun _ => leads_of_ordered fun hs a s' hrun => (h hs a s' hrun).imp_right fun hq => ⟨hq.1, trivial, hq.2⟩

theorem Orderly.run (h : Orderly inp own s act Q) (hs : Ordered inp s) {a : α} (hrun : Runs act s a s') :
    Ordered inp s' ∧ Moves own [] s s' ∧ Q s' a :=
  (StateRegime.run (h trivial) hs hrun).imp_right fun hq => ⟨hq.1, hq.2.2⟩

end

/-! ### Commands -/

theorem State.ledger_of_push {c : Command} (h : s'.commands = s.commands.push c) : s'.ledger = s.ledger.next c := by
  rw [State.ledger, State.ledger, h, Ledger.of_push]

theorem Begun.push {name : String} {c : Command} (h : Begun s name) (hc : s'.commands = s.commands.push c) :
    Begun s' name := by
  rw [Begun, hc]
  exact Array.mem_push.2 (.inl h)

theorem Ordered.enlisted_of (hs : Ordered inp s) (hbegun : ∀ name, Begun s name → Begun s' name)
    (hcodes : s'.codes = s.codes) (hqueue : s'.queue = s.queue) : ∀ fn name, s'.codes.lookup fn = some name →
    Enlisted inp s' fn name := by
  intro fn name hn
  rcases hs.enlisted fn name (hcodes ▸ hn) with ⟨hfn, hwait⟩ | hforeign
  · exact .inl ⟨hfn, hwait.imp (hbegun name) fun hp => hqueue ▸ hp⟩
  · exact .inr hforeign

/-- A command that the ledger does not show. -/
theorem Ordered.command {c : Command} (hs : Ordered inp s) (hc : s.ledger.Allows c)
    (hl : s.ledger.next c = s.ledger) (hcommands : s'.commands = s.commands.push c)
    (hsymbols : s'.symbols = s.symbols) (hregisters : s'.registers = s.registers)
    (hblocks : s'.blocks = s.blocks) (hblock : s'.block = s.block) (hended : s'.ended = s.ended)
    (hchain : s'.chain = s.chain) (hcodes : s'.codes = s.codes) (hqueue : s'.queue = s.queue) : Ordered inp s' := by
  have hledger : s'.ledger = s.ledger := (State.ledger_of_push hcommands).trans hl
  constructor
  case accounted =>
    rw [hcommands]
    exact hs.accounted.push hc
  case symbols => rw [hledger, hsymbols, hs.symbols]
  case registers => rw [hledger, hregisters, hs.registers]
  case blocks => rw [hledger, hblocks, hs.blocks]
  case block => rw [hledger, hblock, hs.block]
  case ended => rw [hledger, hended, hs.ended]
  case kinds => rw [hchain]; exact hs.kinds
  case enlisted => exact hs.enlisted_of (fun _ hb => hb.push hcommands) hcodes hqueue

theorem State.ledger_of_quietly (h : Quietly s s') : s'.ledger = s.ledger := congrArg Ledger.of h.commands

/-- A change of what the ledger does not show. -/
theorem Ordered.quiet (hs : Ordered inp s) (h : Quietly s s')
    (hkinds : ∀ n, ∀ b ∈ (s'.chain.get n).bindings, b.kind.isFunction = isNamedFunction inp.tree b.decl)
    (henlisted : ∀ fn name, s'.codes.lookup fn = some name → Enlisted inp s' fn name) : Ordered inp s' := by
  have hledger := State.ledger_of_quietly h
  exact ⟨h.commands ▸ hs.accounted, by
    rw [hledger, h.symbols, hs.symbols], by rw [hledger, h.registers, hs.registers],
    by rw [hledger, h.blocks, hs.blocks], by rw [hledger, h.block, hs.block],
    by rw [hledger, h.ended, hs.ended], hkinds,
    henlisted⟩

/-- A change of what is of no account. -/
theorem Ordered.note (hs : Ordered inp s) (h : Quietly s s') (hchain : s'.chain = s.chain)
    (hcodes : s'.codes = s.codes) (hqueue : s'.queue = s.queue) : Ordered inp s' := by
  refine hs.quiet h ?_ (hs.enlisted_of (fun name hb => ?_) hcodes hqueue)
  · rw [hchain]
    exact hs.kinds
  · rw [Begun, h.commands]
    exact hb

/-- A change of the scopes. -/
theorem Ordered.change (hs : Ordered inp s) {chain : Scope.Chain}
    (hkinds : ∀ n, ∀ b ∈ (chain.get n).bindings, b.kind.isFunction = isNamedFunction inp.tree b.decl) :
    Ordered inp { s with chain } :=
  hs.quiet ⟨rfl, rfl, rfl, rfl, rfl, rfl, rfl, .refl _⟩ hkinds (hs.enlisted_of (fun _ hb => hb) rfl rfl)

/-- Nothing of the function or the scopes has changed, though more may be defined. -/
theorem Moves.still (hbegun : ∀ name, Begun s name → Begun s' name) (hstarts : s'.ledger.starts = s.ledger.starts)
    (hhere : ∀ r ∈ s.ledger.here, r ∈ s'.ledger.here) (hblocks : s'.blocks = s.blocks) (hblock : s'.block = s.block)
    (hended : ∀ b ∈ s.ended, b ∈ s'.ended) (henv : s'.env = s.env) (hchain : s'.chain = s.chain) :
    Moves own [] s s' where
  begun := hbegun
  blocks := Nat.le_of_eq hblocks.symm
  starts b _ := by rw [hstarts]
  ended := hended
  closed b hb := by
    rcases hb with hb | ⟨hge, hlt⟩
    · exact .inl (hb.trans hblock.symm)
    · omega
  here := hhere
  ahead _ h := nomatch h
  env := henv
  size := Nat.le_of_eq (by rw [hchain])
  nodes n _ _ := by rw [hchain]
  links n _ := by rw [hchain]; exact ⟨rfl, rfl⟩
  functions n hge hlt := by
    rw [hchain] at hlt
    omega

/-- One command more, that neither makes a block nor goes to one. -/
theorem Moves.push {c : Command} (hcommands : s'.commands = s.commands.push c)
    (hstarts : (s.ledger.next c).starts = s.ledger.starts) (hhere : ∀ r ∈ s.ledger.here, r ∈ (s.ledger.next c).here)
    (hblocks : s'.blocks = s.blocks) (hblock : s'.block = s.block) (hended : ∀ b ∈ s.ended, b ∈ s'.ended)
    (henv : s'.env = s.env) (hchain : s'.chain = s.chain) : Moves own [] s s' := by
  have hledger := State.ledger_of_push hcommands
  exact .still (fun _ hb => hb.push hcommands) (hledger ▸ hstarts) (hledger ▸ hhere) hblocks hblock
    hended henv hchain

theorem Moves.of_quietly (h : Quietly s s') (henv : s'.env = s.env) (hchain : s'.chain = s.chain) :
    Moves own [] s s' := by
  have hledger := State.ledger_of_quietly h
  refine .still (fun name hb => ?_) (by rw [hledger]) (by rw [hledger]; exact fun _ hr => hr) h.blocks
    h.block ?_ henv hchain
  · rw [Begun, h.commands]
    exact hb
  · rw [h.ended]
    exact fun _ hb => hb

/-- A change of the state that neither the ledger nor the scopes show. -/
theorem orderly_note {f : State → State} (hq : Quietly s (f s)) (henv : (f s).env = s.env)
    (hchain : (f s).chain = s.chain) (hcodes : (f s).codes = s.codes) (hqueue : (f s).queue = s.queue) :
    Orderly inp own s (modify f) fun s' _ => s' = f s :=
  .change (fun hs => hs.note hq hchain hcodes hqueue) (.of_quietly hq henv hchain) id rfl

/-- Control may go to the block from here. -/
def State.Admits (s : State) (b : Nat) : Prop := b < s.blocks ∧ ∀ r ∈ s.ledger.starts b, r ∈ s.ledger.here

theorem State.Admits.moves {b : Nat} (h : s.Admits b) (hm : Moves own pending s s') : s'.Admits b := by
  refine ⟨Nat.lt_of_lt_of_le h.1 hm.blocks, fun r hr => hm.here r (h.2 r ?_)⟩
  rwa [hm.starts b h.1] at hr

/-- An instruction that reads what is there and branches to where control may go. -/
theorem Ordered.added (hs : Ordered inp s) {i : Instr} (hreads : ∀ x ∈ operands i, s.Has x)
    (hgoes : ∀ b ∈ targets i, s.Admits b) : Ordered inp (s.added i) ∧ Moves none [] s (s.added i) := by
  have hledger : (s.added i).ledger = s.ledger.next (.instr i) := State.ledger_of_push rfl
  constructor
  · constructor
    case accounted =>
      refine hs.accounted.push ⟨fun r hr => State.has_reg.1 (hreads _ hr), fun b hb => ?_⟩
      obtain ⟨hlt, hstarts⟩ := hgoes b hb
      exact ⟨hs.blocks ▸ hlt, hstarts⟩
    case symbols => rw [hledger]; exact hs.symbols
    case registers =>
      rw [hledger]
      simp only [Ledger.next, State.added, hs.registers]
    case blocks => rw [hledger]; exact hs.blocks
    case block => rw [hledger]; exact hs.block
    case ended =>
      rw [hledger]
      simp only [Ledger.next, State.added, hs.block, hs.ended]
    case kinds => exact hs.kinds
    case enlisted => exact hs.enlisted_of (fun _ hb => hb.push rfl) rfl rfl
  · refine .push rfl rfl (fun r hr => ?_) rfl rfl (fun b hb => ?_) rfl rfl
    · simp only [Ledger.next]
      split
      · exact List.mem_cons_of_mem _ hr
      · exact hr
    · simp only [State.added]
      split
      · exact List.mem_cons_of_mem _ hb
      · exact hb

/-- An instruction with a result, which is there from then on. -/
theorem orderly_emitValue {i : Instr} (hi : i.yieldsValue = true) (hreads : ∀ x ∈ operands i, s.Has x) :
    Orderly inp own s (emitValue i) fun s' v => s'.Has v := by
  refine .of_runs fun hs v s' hrun => ?_
  obtain ⟨rfl, rfl⟩ := runs_emitValue hrun
  rw [advance_eq_added hi]
  have htargets : ∀ b ∈ targets i, s.Admits b := by
    cases i with
    | fieldAddr | load | call | binary | compare => exact fun _ h => nomatch h
    | store | condBr | br | ret => exact nomatch hi
  obtain ⟨hs', hm⟩ := hs.added hreads htargets
  have hledger : (s.added i).ledger = s.ledger.next (.instr i) := State.ledger_of_push rfl
  refine ⟨hs', hm.any, State.has_reg.2 ?_⟩
  rw [hledger]
  simp [Ledger.next, hi, hs.registers]

/-- An instruction without a result. If it is a terminator, the block is ended. -/
theorem orderly_emitEffect {i : Instr} (hi : i.yieldsValue = false) (hreads : ∀ x ∈ operands i, s.Has x)
    (hgoes : ∀ b ∈ targets i, s.Admits b) :
    Orderly inp own s (emitEffect i) fun s' _ => i.isTerminator = true → s'.block ∈ s'.ended := by
  refine .of_runs fun hs v s' hrun => ?_
  obtain rfl := runs_emitEffect hi hrun
  obtain ⟨hs', hm⟩ := hs.added hreads hgoes
  refine ⟨hs', hm.any, fun hterm => ?_⟩
  simp [State.added, hterm]

theorem orderly_load (type : Ir.Ty) {addr : Operand} (h : s.Has addr) : Orderly inp own s
    (load type addr) fun s' v => s'.Has v :=
  orderly_emitValue rfl (by simpa [operands] using h)

theorem orderly_store {addr v : Operand} (haddr : s.Has addr) (hv : s.Has v) : Orderly inp own s
    (store addr v) fun _ _ => True :=
  (orderly_emitEffect rfl (by simp [operands, haddr, hv]) (by simp [targets])).imp fun _ _ _ _ => trivial

theorem orderly_callDirect (sig : Sig) {callee : Operand} {args : List Operand} (hcallee : s.Has callee)
    (hargs : ∀ x ∈ args, s.Has x) : Orderly inp own s (callDirect sig callee args) fun s' v => s'.Has v :=
  orderly_emitValue rfl (by simpa [operands, hcallee] using hargs)

theorem orderly_compare (pred : Pred) {x y : Operand} (hx : s.Has x) (hy : s.Has y) :
    Orderly inp own s (compare pred x y) fun s' v => s'.Has v := orderly_emitValue rfl (by simp [operands, hx, hy])

theorem orderly_binary (op : Op) {x y : Operand} (hx : s.Has x) (hy : s.Has y) :
    Orderly inp own s (binary op x y) fun s' v => s'.Has v := orderly_emitValue rfl (by simp [operands, hx, hy])

theorem orderly_slotAddr (t : Struct) {base : Operand} (h : s.Has base) (slot : Nat) :
    Orderly inp own s (slotAddr t base slot) fun s' v => s'.Has v := orderly_emitValue rfl
      (by simpa [operands] using h)

theorem orderly_br {b : Nat} (hb : s.Admits b) : Orderly inp own s (br b) fun s' _ => s'.block ∈ s'.ended :=
  (orderly_emitEffect rfl (by simp [operands]) (by simpa [targets] using hb)).imp fun _ _ _ h => h rfl

theorem orderly_condBr {c : Operand} {b b' : Nat} (hc : s.Has c) (hb : s.Admits b) (hb' : s.Admits b') :
    Orderly inp own s (condBr c b b') fun s' _ => s'.block ∈ s'.ended :=
  (orderly_emitEffect rfl (by simpa [operands] using hc) (by simp [targets, hb, hb'])).imp fun _ _ _ h => h rfl

theorem orderly_ret {v : Operand} (h : s.Has v) : Orderly inp own s (ret v) fun s' _ => s'.block ∈ s'.ended := by
  unfold ret
  split
  · exact (orderly_emitEffect rfl (by simp [operands]) (by simp [targets])).imp fun _ _ _ h => h rfl
  · refine (orderly_emitEffect rfl ?_ (by simp [targets])).imp fun _ _ _ h => h rfl
    simpa [operands] using h

theorem orderly_constant (c : Operand) : Orderly inp own s (emit (.constant c)) fun _ _ => True := by
  refine .change (fun hs => hs.command (c := .constant c) trivial rfl rfl rfl rfl rfl rfl rfl rfl rfl rfl)
    ?_ id trivial
  exact .push (c := .constant c) rfl rfl (fun _ h => h) rfl rfl (fun _ h => h) rfl rfl

theorem orderly_alloca (type : Ir.Ty) : Orderly inp own s (alloca type) fun s' v => s'.Has v := by
  refine .of_runs fun hs v s' hrun => ?_
  obtain ⟨_, t, hemit, hreg⟩ := runs_bind.1 hrun
  obtain rfl := runs_modify.1 hemit
  obtain ⟨rfl, rfl⟩ := runs_modifyGet.1 hreg
  have hledger : State.ledger { s with commands := s.commands.push (.alloca type), registers := s.registers + 1 } =
      s.ledger.next (.alloca type) := State.ledger_of_push rfl
  refine ⟨⟨hs.accounted.push trivial, ?_, ?_, ?_, ?_, ?_, hs.kinds,
    hs.enlisted_of (fun _ hb => hb.push rfl) rfl rfl⟩, ?_, State.has_reg.2 ?_⟩
  · rw [hledger]; exact hs.symbols
  · rw [hledger]; exact congrArg (· + 1) hs.registers
  · rw [hledger]; exact hs.blocks
  · rw [hledger]; exact hs.block
  · rw [hledger]; exact hs.ended
  · exact .push (c := .alloca type) rfl rfl (fun _ => List.mem_cons_of_mem _) rfl rfl (fun _ h => h) rfl rfl
  · rw [hledger, ← hs.registers]
    exact List.mem_cons_self

/-- A new block is entered, if at all, from where it is made on. -/
theorem Moves.newBlock {s₀ : State} (h : Moves own pending s₀ s) (hhere : s.ledger.here = s₀.ledger.here)
    (name : String) : (orderlyRegime inp).toRegime.Leads s (newBlock name) fun s' b =>
      Moves own (b :: pending) s₀ s' ∧ s'.ledger.here = s₀.ledger.here := by
  refine leads_of_ordered fun hs b s' hrun => ?_
  obtain ⟨_, t, hget, hr₁⟩ := runs_bind.1 hrun
  obtain ⟨rfl, rfl⟩ := runs_get.1 hget
  obtain ⟨_, t₁, hemit, hr₂⟩ := runs_bind.1 hr₁
  obtain rfl := runs_modify.1 hemit
  obtain ⟨_, t₂, hmod, hr₃⟩ := runs_bind.1 hr₂
  obtain rfl := runs_modify.1 hmod
  obtain ⟨rfl, rfl⟩ := runs_pure.1 hr₃
  have hledger : State.ledger { t with commands := t.commands.push (.newBlock name), blocks := t.blocks + 1 } =
      t.ledger.next (.newBlock name) := State.ledger_of_push rfl
  have hnew : (t.ledger.next (.newBlock name)).starts t.blocks = t.ledger.here := if_pos hs.blocks.symm
  have hold {c : Nat} (hc : c < t.blocks) : (t.ledger.next (.newBlock name)).starts c = t.ledger.starts c :=
    if_neg (Nat.ne_of_lt (hs.blocks.symm ▸ hc))
  refine ⟨⟨hs.accounted.push trivial, ?_, ?_, ?_, ?_, ?_, hs.kinds,
    hs.enlisted_of (fun _ hb => hb.push rfl) rfl rfl⟩, ?_, hledger ▸ hhere⟩
  · rw [hledger]; exact hs.symbols
  · rw [hledger]; exact hs.registers
  · rw [hledger]; exact congrArg (· + 1) hs.blocks
  · rw [hledger]; exact hs.block
  · rw [hledger]; exact hs.ended
  · constructor
    case begun => exact fun name hb => (h.begun name hb).push rfl
    case blocks => exact Nat.le_succ_of_le h.blocks
    case starts =>
      intro c hc
      rw [hledger, hold (Nat.lt_of_lt_of_le hc h.blocks)]
      exact h.starts c hc
    case ended => exact h.ended
    case closed =>
      intro c hc
      by_cases hcb : c = t.blocks
      · exact .inr (.inr (hcb ▸ List.mem_cons_self))
      · have hc' : c = s₀.block ∨ (s₀.blocks ≤ c ∧ c < t.blocks) := by
          refine hc.imp_right fun ⟨hge, hlt⟩ => ⟨hge, ?_⟩
          have : c < t.blocks + 1 := hlt
          omega
        exact (h.closed c hc').imp_right (Or.imp_right (List.mem_cons_of_mem _))
    case here =>
      rw [hledger]
      exact h.here
    case ahead =>
      intro c hc
      rw [hledger]
      rcases List.mem_cons.1 hc with rfl | hc
      · exact ⟨Nat.lt_succ_self _, hnew.trans hhere⟩
      · obtain ⟨hlt, hstarts⟩ := h.ahead c hc
        exact ⟨Nat.lt_succ_of_lt hlt, (hold hlt).trans hstarts⟩
    case env => exact h.env
    case size => exact h.size
    case nodes => exact h.nodes
    case links => exact h.links
    case functions => exact h.functions

/-- A block that was made is gone to once the block at hand is ended. -/
theorem Moves.setInsert {s₀ : State} (h : Moves own pending s₀ s) (b : Nat) (pending' : List Nat)
    (hended : s.block ∈ s.ended) (hpending : ∀ c, c ∈ pending ↔ c = b ∨ c ∈ pending') :
    (orderlyRegime inp).toRegime.Leads s (setInsert b) fun s' _ => Moves own pending' s₀ s' ∧
      ∀ c, s'.blocks = s.blocks ∧ s'.ledger.starts c = s.ledger.starts c := by
  refine leads_of_ordered fun hs u s' hrun => ?_
  obtain ⟨_, t, hemit, hrun⟩ := runs_bind.1 hrun
  obtain rfl := runs_modify.1 hemit
  obtain rfl := runs_modify.1 hrun
  have hledger : State.ledger { s with commands := s.commands.push (.setInsert b), block := b } =
      s.ledger.next (.setInsert b) := State.ledger_of_push rfl
  refine ⟨⟨hs.accounted.push trivial, ?_, ?_, ?_, ?_, ?_, hs.kinds,
    hs.enlisted_of (fun _ hb => hb.push rfl) rfl rfl⟩, h.goTo hended hpending, fun c => ⟨rfl, ?_⟩⟩
  · rw [hledger]; exact hs.symbols
  · rw [hledger]; exact hs.registers
  · rw [hledger]; exact hs.blocks
  · rw [hledger]; rfl
  · rw [hledger]; exact hs.ended
  · rw [hledger]; rfl

end TypedScript.Lower
