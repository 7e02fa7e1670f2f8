import TypedScript.Proofs.Machine.Step
import TypedScript.Proofs.Machine.WellFormed

/-!
# Registers that are there

Reading a register that a call does not have ends the machine itself. A call has the registers of its function,
and what a well-formed function reads are registers of it: while functions of the module are executed, this never
happens.

* `after_execute`: an instruction of such a function leads to such calls, or fails in another way.
* `code_ne_of_run`: a run does not end the machine.
-/

namespace TypedScript.Machine

open TypedScript.Ir

/-- What is read is a register of the function. -/
def Function.ReadsOwn (f : Function) : Prop := ∀ b, ∀ l ∈ f.code b, ∀ r, .reg r ∈ operands l.instr →
    r < f.registers.size

theorem Function.WellFormed.readsOwn {f : Function} (h : f.WellFormed) : f.ReadsOwn := by
  intro b l hl r hr
  obtain ⟨i, hi⟩ := List.mem_iff_getElem?.1 hl
  exact (h.operands ⟨b, i⟩ l r hi hr).1

/-- The functions of the module read registers of their own. -/
def Module.ReadsOwn (m : Module) : Prop := ∀ f ∈ m.functions, f.isDefined = true → f.ReadsOwn

/-- The call is one of a function of the module, and has its registers. -/
structure Frame.Belongs (m : Module) (fr : Frame) : Prop where
  mem : fr.function ∈ m.functions
  isDefined : fr.function.isDefined = true
  size : fr.function.registers.size ≤ fr.registers.size

namespace Frame.Belongs

variable {m : Module} {fr : Frame}

theorem set (h : fr.Belongs m) (dst : Option Nat) (v : Value) : (fr.set dst v).Belongs m := by
  refine ⟨h.mem, h.isDefined, ?_⟩
  have hsize : (fr.set dst v).registers.size = fr.registers.size := by cases dst <;> simp [Frame.set]
  rw [hsize]
  exact h.size

theorem goto (h : fr.Belongs m) (block : Nat) : (fr.goto block).Belongs m := ⟨h.mem, h.isDefined, h.size⟩

/-- A call that begins has a register for each of its function. -/
theorem enter {f : Function} (hf : f ∈ m.functions) (hdefined : f.isDefined = true) (vs : List Value)
    (dst first : Nat) :
    (Frame.enter f vs dst first).Belongs m := by
  have hfold (ps : List (Nat × Nat)) (regs : Array Value) : (ps.foldl (fun (regs : Array Value) (p : Nat × Nat) =>
      regs.setIfInBounds p.1 (.ptr (.stack (first + p.2)))) regs).size = regs.size := by
    induction ps generalizing regs with
    | nil => rfl
    | cons p ps ih => rw [List.foldl_cons, ih, Array.size_setIfInBounds]
  refine ⟨hf, hdefined, ?_⟩
  simp only [Frame.enter, hfold, Array.size_append, List.size_toArray, Array.size_replicate]
  omega

end Frame.Belongs

/-- All active calls are of functions of the module. -/
def State.Belongs (m : Module) (s : State) : Prop := ∀ fr ∈ s.frames, fr.Belongs m

section

variable {c : Config} {M : Memory} {fr : Frame} {rest F : List Frame} {k : Nat} {calls : Array (List Value)}
  {events : Array Event}

/-! ### Failures of the heap -/

theorem Memory.code_of_checkRelease {m : Memory} {v : Value} {f : Failure} (h : m.checkRelease v = .error f) :
    f.code ≠ .crash := by
  unfold checkRelease at h
  split at h
  · dsimp only at h
    split at h
    · cases h
      simp
    · split at h <;> cases h
      simp
  · cases h
    simp

/-! ### Instructions -/

/-- An operand is evaluated, or malformed, if its register is there. -/
theorem after_operand_of_lt {Q : Value → State → Prop} {E : Failure → State → Prop} {o : Operand}
    (ho : ∀ r, o = .reg r → r < fr.registers.size) (hQ : ∀ v, Q v ⟨M, fr :: rest, k, calls, events⟩)
    (hE : ∀ f, f.code ≠ .crash → E f ⟨M, fr :: rest, k, calls, events⟩) :
    after (operand o) Q E ⟨M, fr :: rest, k, calls, events⟩ := by
  cases hv : fr.value? o with
  | some v => exact after_value hv (hQ v)
  | none =>
    cases o with
    | reg r =>
      have hget : fr.registers[r]? = none := hv
      exact absurd (ho r rfl) (Nat.not_lt.2 (Array.getElem?_eq_none_iff.1 hget))
    | func name => cases hv
    | int t z =>
      have hconstant : constant? (.int t z) = none := hv
      simp only [operand, hconstant, after_fail]
      exact hE _ (by simp)
    | absent => exact hE _ (by simp)
    | _ => cases hv

theorem after_operands_of_lt {Q : List Value → State → Prop} {E : Failure → State → Prop} {os : List Operand}
    (hos : ∀ r, .reg r ∈ os → r < fr.registers.size) (hQ : ∀ vs, Q vs ⟨M, fr :: rest, k, calls, events⟩)
    (hE : ∀ f, f.code ≠ .crash → E f ⟨M, fr :: rest, k, calls, events⟩) :
    after (os.mapM operand) Q E ⟨M, fr :: rest, k, calls, events⟩ := by
  induction os generalizing Q with
  | nil => exact hQ []
  | cons o os ih =>
    simp only [List.mapM_cons, after_bind, after_pure]
    refine after_operand_of_lt (fun r hr => hos r (hr ▸ List.mem_cons_self)) (fun v => ?_) hE
    exact ih (fun r hr => hos r (List.mem_cons_of_mem o hr)) fun vs => hQ (v :: vs)

/-- The computation leads to calls of functions of the module, or fails in a way that does not end the machine. -/
def Keeps {α : Type} (c : Config) (act : Exec α) (s : State) : Prop :=
  after act (fun _ s' => s'.Belongs c.module) (fun f _ => f.code ≠ .crash) s

/-- What an operation on values or memory fails with is ordinary. -/
theorem after_ofExcept_of_code {α : Type} {Q : α → State → Prop} {r : Except Failure α} {s : State}
    (hr : ∀ f, r = .error f → f.code ≠ .crash) (hQ : ∀ a, Q a s) : after (ofExcept r) Q
    (fun f _ => f.code ≠ .crash) s := by
  rw [after_ofExcept]
  split
  · exact hQ _
  · rename_i f
    exact hr f rfl

theorem keeps_setRegister (h : ∀ fr' ∈ fr :: rest, fr'.Belongs c.module) (dst : Option Nat) (v : Value) :
    Keeps c (do setRegister dst v; return (none : Option Value)) ⟨M, fr :: rest, k, calls, events⟩ := by
  obtain ⟨hfr, hrest⟩ := List.forall_mem_cons.1 h
  exact List.forall_mem_cons.2 ⟨hfr.set dst v, hrest⟩

theorem keeps_enterBlock (h : ∀ fr' ∈ fr :: rest, fr'.Belongs c.module) (block : Nat) :
    Keeps c (do enterBlock fr.function block; return (none : Option Value)) ⟨M, fr :: rest, k, calls, events⟩ := by
  obtain ⟨hfr, hrest⟩ := List.forall_mem_cons.1 h
  simp only [Keeps, enterBlock, after_bind, after_ite, after_fail]
  split
  · simp
  · exact List.forall_mem_cons.2 ⟨hfr.goto block, hrest⟩

theorem keeps_leave (h : ∀ fr' ∈ fr :: rest, fr'.Belongs c.module) (v : Value) :
    Keeps c (leave v) ⟨M, fr :: rest, k, calls, events⟩ := by
  obtain ⟨-, hrest⟩ := List.forall_mem_cons.1 h
  cases rest with
  | nil => exact hrest
  | cons caller rest =>
    obtain ⟨hcaller, hrest⟩ := List.forall_mem_cons.1 hrest
    exact List.forall_mem_cons.2 ⟨hcaller.set (some fr.dst) v, hrest⟩

/-- The host leaves calls alone. -/
theorem after_callHost_frames (name : String) (host : Host) (vs : List Value) :
    after (callHost c name host vs) (fun _ s' => s'.frames = F) (fun f _ => f.code ≠ .crash)
      ⟨M, F, k, calls, events⟩ := by
  unfold callHost
  split
  · simp only [after_bind, after_get]
    refine after_ofExcept_of_code (fun f hf => (Memory.ordinary_of_checkSize hf).code_ne) fun _ => ?_
    exact after_record fun events => rfl
  · simp [after_fail]
  · simp only [after_bind, after_get]
    refine after_ofExcept_of_code (fun f => Memory.code_of_checkRelease) fun id => ?_
    exact after_record fun events => rfl
  · simp [after_fail]
  · simp [after_fail]
  · rfl
  · split
    · rfl
    · simp [after_fail]

/-- Calling a function of the module begins a call of it, or gives a result at once. -/
theorem after_invoke_belongs {g : Function} {vs : List Value} {d : Nat} (hg : g ∈ c.module.functions)
    (h : ∀ fr ∈ F, fr.Belongs c.module) :
    after (invoke c g vs d) (fun r s' => s'.Belongs c.module ∧ (r ≠ none → s'.frames = F))
      (fun f _ => f.code ≠ .crash)
      ⟨M, F, k, calls, events⟩ := by
  unfold invoke
  rw [after_ite]
  split
  · split
    · simp [after_fail]
    · simp only [after_bind, after_get, after_pure]
      refine after_record fun events => ?_
      refine (after_callHost_frames _ _ _).imp fun v s' hframes => ?_
      exact ⟨fun fr hfr => h fr (hframes ▸ hfr), fun _ => hframes⟩
  · rename_i hdefined
    rw [after_ite]
    split
    · simp [after_fail]
    · have henter := Frame.Belongs.enter hg (by simpa using hdefined) vs d M.cells.size
      simp only [enterBlock, after_bind, after_modify, after_ite, after_fail, after_pure]
      split
      · simp
      · exact ⟨List.forall_mem_cons.2 ⟨henter.goto 0, h⟩, fun hne => absurd rfl hne⟩

/-- An instruction of a function of the module. -/
theorem keeps_execute (hc : c.module.ReadsOwn) {line : Line} (hline : fr.line? = some line)
    (h : ∀ fr' ∈ fr :: rest, fr'.Belongs c.module) :
    Keeps c (execute c fr.function line) ⟨M, fr :: rest, k, calls, events⟩ := by
  obtain ⟨hfr, -⟩ := List.forall_mem_cons.1 h
  have hreads (r : Nat) (hr : .reg r ∈ operands line.instr) : r < fr.registers.size := by
    have hmem : line ∈ fr.function.code fr.block := by
      rw [Frame.line?, ← Array.getElem?_toList] at hline
      exact List.mem_of_getElem? hline
    exact Nat.lt_of_lt_of_le (hc _ hfr.mem hfr.isDefined fr.block line hmem r hr) hfr.size
  -- each operand of the instruction is evaluated
  have hoperand {o : Operand} (ho : o ∈ operands line.instr) {Q : Value → State → Prop}
      (hQ : ∀ v, Q v ⟨M, fr :: rest, k, calls, events⟩) :
      after (operand o) Q (fun f _ => f.code ≠ .crash) ⟨M, fr :: rest, k, calls, events⟩ :=
    after_operand_of_lt (fun r hr => hreads r (hr ▸ ho)) hQ fun _ hf => hf
  obtain ⟨dst, instr⟩ := line
  unfold Keeps
  cases instr with
  | fieldAddr struct base slot =>
    simp only [execute, after_bind]
    refine hoperand (by simp [operands]) fun b => ?_
    refine after_ofExcept_of_code (fun f hf => (Memory.ordinary_of_fieldAddr hf).code_ne) fun v => ?_
    exact keeps_setRegister h dst v
  | load t addr =>
    simp only [execute, after_bind]
    refine hoperand (by simp [operands]) fun a => ?_
    rw [after_get]
    refine after_ofExcept_of_code (fun f hf => (Memory.ordinary_of_load hf).code_ne) fun v => ?_
    exact keeps_setRegister h dst v
  | store addr value =>
    simp only [execute, after_bind]
    refine hoperand (by simp [operands]) fun a => ?_
    refine hoperand (by simp [operands]) fun v => ?_
    rw [after_get]
    refine after_ofExcept_of_code (fun f hf => (Memory.ordinary_of_checkStore hf).code_ne) fun _ => ?_
    exact keeps_setRegister (M := M.put a v) h none .invalid
  | call sig callee args =>
    simp only [execute, after_bind]
    refine hoperand (by simp [operands]) fun v => ?_
    split
    · rw [after_bind]
      refine after_operands_of_lt (fun r hr => hreads r (by simp [operands, hr])) (fun vs => ?_) fun _ hf => hf
      split
      · simp [after_fail]
      · rename_i g hg
        rw [after_bind]
        refine (after_invoke_belongs (Array.mem_of_find?_eq_some hg) h).imp fun r s' ⟨hbelongs, hframes⟩ => ?_
        cases r with
        | none => exact hbelongs
        | some w =>
          obtain ⟨M', F', k', calls', events'⟩ := s'
          obtain rfl : F' = fr :: rest := hframes (Option.some_ne_none w)
          exact keeps_setRegister hbelongs dst w
    · simp [after_fail]
  | binary op x y =>
    simp only [execute, after_bind]
    refine hoperand (by simp [operands]) fun a => ?_
    refine hoperand (by simp [operands]) fun b => ?_
    refine after_ofExcept_of_code (fun f hf => (ordinary_of_binary hf).code_ne) fun v => ?_
    exact keeps_setRegister h dst v
  | compare p x y =>
    simp only [execute, after_bind]
    refine hoperand (by simp [operands]) fun a => ?_
    refine hoperand (by simp [operands]) fun b => ?_
    refine after_ofExcept_of_code (fun f hf => (ordinary_of_compare hf).code_ne) fun v => ?_
    exact keeps_setRegister h dst v
  | condBr cond yes no =>
    simp only [execute, after_bind]
    refine hoperand (by simp [operands]) fun v => ?_
    split
    · exact keeps_enterBlock h _
    · simp [after_fail]
  | br block => exact keeps_enterBlock h block
  | ret value =>
    cases value with
    | none => exact keeps_leave h .invalid
    | some value =>
      simp only [execute, after_bind]
      exact hoperand (by simp [operands]) fun v => keeps_leave h v

/-! ### Runs -/

/-- The next instruction. -/
theorem keeps_step (hc : c.module.ReadsOwn) {s : State} (h : s.Belongs c.module) : Keeps c (step c) s := by
  obtain ⟨M, F, k, calls, events⟩ := s
  cases F with
  | nil => exact h
  | cons fr rest =>
    simp only [Keeps, step, after_bind, after_get, after_modify, after_ite, after_fail]
    split
    · simp
    · split
      · simp [after_fail]
      · rename_i line hline
        split
        · simp only [after_bind, after_get]
          refine after_record fun events => ?_
          exact keeps_execute hc hline h
        · exact keeps_execute hc hline h

/-- Instructions that follow each other. The induction is on the number of them that may be executed. -/
theorem keeps_steps (hc : c.module.ReadsOwn) (n : Nat) {s : State} (h : s.Belongs c.module) : Keeps c
    (steps c n) s := by
  induction n generalizing s with
  | zero => simp [Keeps, steps, after_fail]
  | succ n ih =>
    rw [Keeps, steps, after_bind]
    refine (keeps_step hc h).imp fun r s' hs' => ?_
    cases r with
    | none => exact ih hs'
    | some v => exact hs'

theorem Keeps.code_ne {act : Exec Value} {s₀ s : State} {f : Failure} (hact : Keeps c act s₀)
    (h : (match act.run.run s₀ with
      | (.ok v, s') => (Outcome.value v, s')
      | (.error e, s') => (Outcome.failure e, s')) = (.failure f, s)) : f.code ≠ .crash := by
  unfold Keeps after at hact
  rcases hrun : act.run.run s₀ with ⟨r, s'⟩
  rw [hrun] at h hact
  cases r with
  | ok v => cases h
  | error e =>
    cases h
    exact hact

/-- A run of functions that read registers of their own does not end the machine. -/
theorem code_ne_of_run (hc : c.module.ReadsOwn) {name : String} {args : List Value} {f : Failure} {s : State}
    (h : run c name args = (.failure f, s)) : f.code ≠ .crash := by
  unfold run at h
  split at h
  · cases h
  · rename_i g hg
    refine Keeps.code_ne (c := c) ?_ h
    have hnone : ∀ fr ∈ ([] : List Frame), fr.Belongs c.module := fun fr hfr => absurd hfr List.not_mem_nil
    rw [Keeps, after_bind]
    refine (after_invoke_belongs (Array.mem_of_find?_eq_some hg) hnone).imp fun r s' ⟨hbelongs, _⟩ => ?_
    cases r with
    | none => exact keeps_steps hc c.fuel hbelongs
    | some v => exact hbelongs

end

end TypedScript.Machine
