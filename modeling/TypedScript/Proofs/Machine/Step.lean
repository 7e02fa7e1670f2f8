import TypedScript.Machine.Run

/-!
# Safe runs

`Safe c n M F k` says that a run with the memory `M` and the active calls `F`, after `k` instructions, comes to a
sound end if at most `n` more instructions are executed: it does not fail in giving back an object, and if it ends
regularly, exactly the objects without owners were given back. Counts are words of 32 bits, so this is asked of
runs of less than `2 ^ 31` instructions only.

There is one rule for each instruction. A rule asks nothing where the instruction fails in a way that has nothing
to do with giving back an object. What an instruction does is read off by `simp`, from one equation for each way
of building a computation.

* `after`: what holds of the result and the state of a computation, or of its failure.
* `Safe`: the runs that come to a sound end.
-/

namespace TypedScript.Machine

open TypedScript.Ir

/-! ### What computations come to -/

section

variable {α β : Type}

/-- After the computation, `Q` holds of its result and `E` of its failure, with the state that is left. -/
def after (act : Exec α) (Q : α → State → Prop) (E : Failure → State → Prop) (s : State) : Prop :=
  match act.run.run s with
  | (.ok a, s') => Q a s'
  | (.error f, s') => E f s'

variable {Q : α → State → Prop} {E : Failure → State → Prop} {s : State}

@[simp] theorem after_pure (a : α) : after (pure a) Q E s ↔ Q a s := Iff.rfl

@[simp] theorem after_bind (x : Exec β) (f : β → Exec α) :
    after (x >>= f) Q E s ↔ after x (fun b s' => after (f b) Q E s') E s := by
  simp only [after, ExceptT.run_bind, StateT.run_bind]
  rcases x.run.run s with ⟨r, s'⟩
  cases r <;> rfl

@[simp] theorem after_get {Q : State → State → Prop} : after (get : Exec State) Q E s ↔ Q s s := Iff.rfl

@[simp] theorem after_modify {Q : Unit → State → Prop} (f : State → State) :
    after (modify f : Exec Unit) Q E s ↔ Q () (f s) := Iff.rfl

@[simp] theorem after_fail (code : FailureCode) (message : String) :
    after (fail code message : Exec α) Q E s ↔ E ⟨code, message, s.frames.map (·.function.name)⟩ s := Iff.rfl

@[simp] theorem after_ofExcept (r : Except Failure α) :
    after (ofExcept r) Q E s ↔
      match r with
      | .ok a => Q a s
      | .error f => E { f with backtrace := s.frames.map (·.function.name) } s := by
  cases r <;> rfl

theorem after.mono {act : Exec α} {Q' : α → State → Prop} {E' : Failure → State → Prop} (h : after act Q E s)
    (hQ : ∀ a s', Q a s' → Q' a s') (hE : ∀ f s', E f s' → E' f s') : after act Q' E' s := by
  unfold after at h ⊢
  split at h
  · exact hQ _ _ h
  · exact hE _ _ h

theorem after.imp {act : Exec α} {Q' : α → State → Prop} (h : after act Q E s) (hQ : ∀ a s', Q a s' → Q' a s') :
    after act Q' E s := h.mono hQ fun _ _ hE => hE

theorem after_ite (p : Prop) [Decidable p] (x y : Exec α) :
    after (if p then x else y) Q E s ↔ if p then after x Q E s else after y Q E s := by
  split <;> rfl

end

/-! ### Sound ends -/

/-- The objects that were given back are those without owners, and each of them was given back once. -/
structure Memory.Settled (m : Memory) : Prop where
  released_iff : ∀ o ∈ m.objects, o.isReleased = true ↔ o.count ≤ 0
  releases_eq : m.releases = m.objects.countP (·.isReleased)

/-- Below this number of instructions no count can overflow. -/
def stepBound : Nat := 0x80000000

/-- Whether the failure is not one of giving back an object, or of not giving it back. -/
def FailureCode.isMild : FailureCode → Bool
  | doubleRelease | releasedLive | leak => false
  | _ => true

def Failure.Mild (f : Failure) : Prop := f.code.isMild = true

/-- Whether an operation fails so because of the values that it is given. -/
def FailureCode.isOrdinary (c : FailureCode) : Bool := c.isMild && c ≠ crash

def Failure.Ordinary (f : Failure) : Prop := f.code.isOrdinary = true

theorem Failure.Ordinary.mild {f : Failure} (h : f.Ordinary) : f.Mild := (Bool.and_eq_true_iff.1 h).1

theorem Failure.Ordinary.code_ne {f : Failure} (h : f.Ordinary) : f.code ≠ .crash :=
  of_decide_eq_true (Bool.and_eq_true_iff.1 h).2

/-- A run may end in this failure. -/
def Failure.Sound (f : Failure) (s : State) : Prop := s.steps < stepBound → f.Mild

/-- A run may end regularly in this state. -/
def State.Sound (s : State) : Prop := s.steps < stepBound → s.memory.Settled

/-- A run may end in this way. -/
def Outcome.Sound (s : State) : Outcome → Prop
  | .value _ => s.Sound
  | .failure f => f.Sound s
  | .noFunction _ => True

theorem Outcome.sound_of_after {act : Exec Value} {s : State}
    (h : after act (fun _ => State.Sound) Failure.Sound s) :
    (match act.run.run s with
      | (.ok v, s') => (Outcome.value v, s')
      | (.error f, s') => (Outcome.failure f, s')).1.Sound
    (match act.run.run s with
      | (.ok v, s') => (Outcome.value v, s')
      | (.error f, s') => (Outcome.failure f, s')).2 := by
  unfold after at h
  rcases hr : act.run.run s with ⟨r, s'⟩
  rw [hr] at h
  cases r <;> exact h

/-- Every run from here comes to a sound end. -/
def Safe (c : Config) (n : Nat) (M : Memory) (F : List Frame) (k : Nat) : Prop :=
  ∀ calls events, after (steps c n) (fun _ => State.Sound) Failure.Sound ⟨M, F, k, calls, events⟩

/-! ### Ordinary failures -/

theorem Memory.ordinary_of_checkLive {m : Memory} {id slot : Nat} {f : Failure}
    (h : m.checkLive id slot = .error f) :
    f.Ordinary := by
  unfold checkLive at h
  split at h
  · cases h
    rfl
  · cases h

theorem Memory.ordinary_of_load {m : Memory} {a : Value} {f : Failure} (h : m.load a = .error f) : f.Ordinary := by
  unfold load at h
  split at h
  · cases h; rfl
  · split at h <;> cases h
    rfl
  · rename_i id slot
    cases hc : m.checkLive id slot with
    | error g =>
      rw [hc] at h
      cases h
      exact ordinary_of_checkLive hc
    | ok u =>
      simp only [hc, Except.bind, bind] at h
      split at h <;> cases h
      rfl
  · split at h <;> cases h
    rfl
  · cases h; rfl
  · cases h; rfl

theorem Memory.ordinary_of_checkStore {m : Memory} {a : Value} {f : Failure} (h : m.checkStore a = .error f) :
    f.Ordinary := by
  unfold checkStore at h
  split at h
  · cases h; rfl
  · cases h
  · exact ordinary_of_checkLive h
  · cases h; rfl
  · cases h; rfl

theorem Memory.ordinary_of_fieldAddr {b : Value} {slot : Nat} {f : Failure} (h : fieldAddr b slot = .error f) :
    f.Ordinary := by
  unfold fieldAddr at h
  split at h <;> cases h <;> rfl

theorem Memory.ordinary_of_checkSize {size : Int} {f : Failure} (h : checkSize size = .error f) : f.Ordinary := by
  unfold checkSize at h
  split at h <;> cases h
  rfl

theorem ordinary_of_intBinary {op : Op} {x y : Int64} {f : Failure} (h : intBinary op x y = .error f) :
    f.Ordinary := by
  unfold intBinary at h
  split at h
  · cases h
  · cases h
  · cases h
  · split at h <;> cases h
    rfl
  · split at h <;> cases h
    rfl

theorem ordinary_of_binary {op : Op} {t : Option Ir.Ty} {x y : Value} {f : Failure}
    (h : binary op t x y = .error f) :
    f.Ordinary := by
  unfold binary at h
  split at h
  · cases h
  · rename_i a b
    cases hi : intBinary op (.ofInt a) (.ofInt b) with
    | error g =>
      rw [hi] at h
      cases h
      exact ordinary_of_intBinary hi
    | ok r =>
      rw [hi] at h
      cases h
  · cases h; rfl

theorem ordinary_of_compare {p : Pred} {x y : Value} {f : Failure} (h : compare p x y = .error f) : f.Ordinary := by
  unfold compare at h
  split at h
  · cases h
  · cases h
  · cases h
  · split at h
    · cases h; rfl
    · split at h <;> cases h
      rfl

/-! ### Results of instructions -/

theorem number_of_binary {op : Op} {t : Option Ir.Ty} {x y v : Value} (h : binary op t x y = .ok v) :
    (∃ z, v = .int z) ∨ ∃ z, v = .float z := by
  unfold binary at h
  split at h
  · cases h
    exact .inr ⟨_, rfl⟩
  · rename_i a b
    cases hr : intBinary op (.ofInt a) (.ofInt b) with
    | error f =>
      rw [hr] at h
      cases h
    | ok r =>
      rw [hr] at h
      cases h
      exact .inl ⟨_, rfl⟩
  · cases h

theorem bool_of_compare {p : Pred} {x y v : Value} (h : compare p x y = .ok v) : ∃ b, v = .bool b := by
  unfold compare at h
  split at h
  · cases h; exact ⟨_, rfl⟩
  · cases h; exact ⟨_, rfl⟩
  · cases h; exact ⟨_, rfl⟩
  · split at h
    · cases h
    · split at h <;> cases h <;> exact ⟨_, rfl⟩

/-! ### Calls -/

/-- The value of an operand in a call; an absent one has none, nor has a register that is not there. -/
def Frame.value? (fr : Frame) : Operand → Option Value
  | .reg id => fr.registers[id]?
  | .func name => some (.ptr (.code name))
  | o => constant? o

/-- The instruction that comes next. -/
def Frame.line? (fr : Frame) : Option Line := (fr.function.blocks.getD fr.block default).lines[fr.next]?

/-- The call after an instruction with a result. -/
def Frame.set (fr : Frame) (dst : Option Nat) (v : Value) : Frame :=
  { fr with registers := dst.elim fr.registers fun d => fr.registers.setIfInBounds d v, next := fr.next + 1 }

/-- The call at the start of a block. -/
def Frame.goto (fr : Frame) (block : Nat) : Frame := { fr with block, next := 0 }

/-- A call of a function that begins; the cells of its slots start at the given one. -/
def Frame.enter (f : Function) (args : List Value) (dst first : Nat) : Frame :=
  let blank := args.toArray ++ Array.replicate (f.registers.size - args.length) Value.invalid
  { function := f, dst
    registers := f.slots.zipIdx.foldl
      (fun (regs : Array Value) (p : Nat × Nat) => regs.setIfInBounds p.1 (.ptr (.stack (first + p.2)))) blank }

/-- A call that begins has the arguments in its registers, addresses of cells, and nothing. -/
theorem mem_registers_enter {f : Function} {args : List Value} {dst first : Nat} {v : Value}
    (h : v ∈ (Frame.enter f args dst first).registers) : v ∈ args ∨ v = .invalid ∨ ∃ cell, v = .ptr
    (.stack cell) := by
  have hfold : ∀ (ps : List (Nat × Nat)) (regs : Array Value),
    v ∈ ps.foldl (fun (regs : Array Value) (p : Nat × Nat) =>
      regs.setIfInBounds p.1 (.ptr (.stack (first + p.2)))) regs → v ∈ regs ∨ ∃ cell, v = .ptr (.stack cell) := by
    intro ps
    induction ps with
    | nil => exact fun regs h => .inl h
    | cons p ps ih =>
      intro regs h
      rcases ih _ h with h | h
      · rcases Array.mem_or_eq_of_mem_setIfInBounds h with h | h
        · exact .inl h
        · exact .inr ⟨_, h⟩
      · exact .inr h
  rcases hfold _ _ h with h | h
  · rcases Array.mem_append.1 h with h | h
    · exact .inl (by simpa using h)
    · exact .inr (.inl (Array.mem_replicate.1 h).2)
  · exact .inr (.inr h)

/-- The memory with cells for the slots of a function. -/
def Memory.grow (m : Memory) (f : Function) : Memory :=
  { m with cells := m.cells ++ Array.replicate f.slots.length Value.invalid }

/-! ### Instructions -/

/-- After an instruction the run is over, or goes on with at most `n` more. -/
def Continues (c : Config) (n : Nat) : Option Value → State → Prop
  | some _, s => s.Sound
  | none, s => after (steps c n) (fun _ => State.Sound) Failure.Sound s

section

variable {c : Config} {n k : Nat} {M : Memory} {fr : Frame} {rest : List Frame}

theorem safe_zero : Safe c 0 M rest k := by
  intro calls events
  exact fun _ => rfl

theorem after_record {Q : Unit → State → Prop} {E : Failure → State → Prop} {e : Event} {F : List Frame}
    {calls : Array (List Value)} {events : Array Event} (h : ∀ events, Q () ⟨M, F, k, calls, events⟩) :
    after (record c e) Q E ⟨M, F, k, calls, events⟩ := by
  unfold record
  split
  · exact h _
  · exact h _

/-- The next instruction leads on. -/
theorem safe_next {line : Line} (hline : fr.line? = some line)
    (h : ∀ m, m < n → ∀ calls events, after (execute c fr.function line) (Continues c m) Failure.Sound
      ⟨M, fr :: rest, k + 1, calls, events⟩) :
    Safe c n M (fr :: rest) k := by
  cases n with
  | zero => exact safe_zero
  | succ n =>
    have hl : (fr.function.blocks.getD fr.block default).lines[fr.next]? = some line := hline
    have hgo : ∀ g : Option Value → Exec Value, (∀ v, g (some v) = pure v) → g none = steps c n → ∀ calls events,
        after (execute c fr.function line) (fun r s => after (g r) (fun _ => State.Sound) Failure.Sound s)
          Failure.Sound
        ⟨M, fr :: rest, k + 1, calls, events⟩ := by
      intro g hsome hnone calls events
      refine (h n (Nat.lt_succ_self n) calls events).imp fun r s hr => ?_
      cases r with
      | none =>
        rw [hnone]
        exact hr
      | some v =>
        rw [hsome]
        exact hr
    intro calls events
    simp only [steps, step, after_bind, after_get, after_modify, hl, after_ite]
    split
    · exact fun _ => rfl
    · split
      · exact after_record fun events => hgo _ (fun _ => rfl) rfl calls events
      · exact hgo _ (fun _ => rfl) rfl calls events

/-- A block that is not ended fails. -/
theorem safe_of_no_line (hline : fr.line? = none) : Safe c n M (fr :: rest) k := by
  cases n with
  | zero => exact safe_zero
  | succ n =>
    have hl : (fr.function.blocks.getD fr.block default).lines[fr.next]? = none := hline
    intro calls events
    simp only [steps, step, after_bind, after_get, after_modify, hl, after_ite]
    split
    · exact fun _ => rfl
    · exact fun _ => rfl

/-- An operand that has a value is evaluated to it. -/
theorem after_value {Q : Value → State → Prop} {E : Failure → State → Prop} {o : Operand} {v : Value}
    {calls : Array (List Value)} {events : Array Event} (hv : fr.value? o = some v)
    (h : Q v ⟨M, fr :: rest, k, calls, events⟩) : after (operand o) Q E ⟨M, fr :: rest, k, calls, events⟩ := by
  unfold operand
  split
  · rename_i id
    have hv' : fr.registers[id]? = some v := hv
    simp only [after_bind, after_get, State.registers, List.head?_cons, Option.elim_some, hv']
    exact h
  · cases hv
    exact h
  · rename_i hr hf
    have hconstant : constant? o = some v := by
      unfold Frame.value? at hv
      split at hv
      · exact absurd rfl (hr _)
      · exact absurd rfl (hf _)
      · exact hv
    rw [hconstant]
    exact h

/-- An operand that has no value is malformed, or a register that is not there. -/
theorem after_no_value {Q : Value → State → Prop} {E : Failure → State → Prop} {o : Operand}
    {calls : Array (List Value)} {events : Array Event} (hv : fr.value? o = none)
    (h : ∀ f, f.code = .malformed ∨ f.code = .crash → E f ⟨M, fr :: rest, k, calls, events⟩) :
    after (operand o) Q E ⟨M, fr :: rest, k, calls, events⟩ := by
  unfold operand
  split
  · rename_i id
    have hv' : fr.registers[id]? = none := hv
    simp only [after_bind, after_get, State.registers, List.head?_cons, Option.elim_some, hv']
    exact h _ (.inr rfl)
  · cases hv
  · rename_i hr hf
    have hconstant : constant? o = none := by
      unfold Frame.value? at hv
      split at hv
      · exact absurd rfl (hr _)
      · cases hv
      · exact hv
    rw [hconstant]
    exact h _ (.inl rfl)

theorem after_values {Q : List Value → State → Prop} {E : Failure → State → Prop} {os : List Operand}
    {vs : List Value} {calls : Array (List Value)} {events : Array Event} (hvs : os.mapM fr.value? = some vs)
    (h : Q vs ⟨M, fr :: rest, k, calls, events⟩) : after
    (os.mapM operand) Q E ⟨M, fr :: rest, k, calls, events⟩ := by
  induction os generalizing Q vs with
  | nil =>
    cases hvs
    exact h
  | cons o os ih =>
    simp only [List.mapM_cons, Option.bind_eq_bind, Option.bind_eq_some_iff, Option.pure_def,
      Option.some.injEq] at hvs
    obtain ⟨v, hv, vs', hvs', rfl⟩ := hvs
    rw [List.mapM_cons, after_bind]
    refine after_value hv ?_
    rw [after_bind]
    exact ih hvs' h

theorem after_no_values {Q : List Value → State → Prop} {E : Failure → State → Prop} {os : List Operand}
    {calls : Array (List Value)} {events : Array Event} (hvs : os.mapM fr.value? = none)
    (h : ∀ f, f.code = .malformed ∨ f.code = .crash → E f ⟨M, fr :: rest, k, calls, events⟩) :
    after (os.mapM operand) Q E ⟨M, fr :: rest, k, calls, events⟩ := by
  induction os generalizing Q with
  | nil => cases hvs
  | cons o os ih =>
    rw [List.mapM_cons, after_bind]
    cases hv : fr.value? o with
    | none => exact after_no_value hv h
    | some v =>
      refine after_value hv ?_
      rw [after_bind]
      refine ih (Option.eq_none_iff_forall_ne_some.2 fun vs hrest => ?_)
      simp [List.mapM_cons, hv, hrest] at hvs

theorem after_operand {Q : Value → State → Prop} {o : Operand} {calls : Array (List Value)} {events : Array Event}
    (h : ∀ v, fr.value? o = some v → Q v ⟨M, fr :: rest, k, calls, events⟩) :
    after (operand o) Q Failure.Sound ⟨M, fr :: rest, k, calls, events⟩ := by
  cases hv : fr.value? o with
  | none => exact after_no_value hv fun f hf _ => by rcases hf with hf | hf <;> rw [Failure.Mild, hf] <;> rfl
  | some v => exact after_value hv (h v hv)

theorem after_operands {Q : List Value → State → Prop} {calls : Array (List Value)} {events : Array Event}
    {os : List Operand} (h : ∀ vs, os.mapM fr.value? = some vs → Q vs ⟨M, fr :: rest, k, calls, events⟩) :
    after (os.mapM operand) Q Failure.Sound ⟨M, fr :: rest, k, calls, events⟩ := by
  cases hvs : os.mapM fr.value? with
  | none => exact after_no_values hvs fun f hf _ => by rcases hf with hf | hf <;> rw [Failure.Mild, hf] <;> rfl
  | some vs => exact after_values hvs (h vs hvs)

theorem after_attempt {α : Type} {Q : α → State → Prop} {r : Except Failure α} {s : State}
    (hf : ∀ f, r = .error f → f.Mild) (h : ∀ a, r = .ok a → Q a s) : after (ofExcept r) Q Failure.Sound s := by
  rw [after_ofExcept]
  split
  · exact h _ rfl
  · rename_i f
    exact fun _ => hf f rfl

theorem safe_fieldAddr {dst : Option Nat} {s : Struct} {base : Operand} {slot : Nat}
    (hline : fr.line? = some ⟨dst, .fieldAddr s base slot⟩)
    (h : ∀ b v, fr.value? base = some b → Memory.fieldAddr b slot = .ok v →
      ∀ m, m < n → Safe c m M (fr.set dst v :: rest) (k + 1)) :
    Safe c n M (fr :: rest) k := by
  refine safe_next hline fun m hm calls events => ?_
  simp only [execute, after_bind]
  refine after_operand fun b hb => ?_
  refine after_attempt (fun f hf => (Memory.ordinary_of_fieldAddr hf).mild) fun v hv => ?_
  exact h b v hb hv m hm calls events

theorem safe_load {dst : Option Nat} {t : Ir.Ty} {addr : Operand} (hline : fr.line? = some ⟨dst, .load t addr⟩)
    (h : ∀ a v, fr.value? addr = some a → M.load a = .ok v →
      ∀ m, m < n → Safe c m M (fr.set dst v :: rest) (k + 1)) :
    Safe c n M (fr :: rest) k := by
  refine safe_next hline fun m hm calls events => ?_
  simp only [execute, after_bind]
  refine after_operand fun a ha => ?_
  rw [after_get]
  refine after_attempt (fun f hf => (Memory.ordinary_of_load hf).mild) fun v hv => ?_
  exact h a v ha hv m hm calls events

theorem safe_store {dst : Option Nat} {addr value : Operand} (hline : fr.line? = some ⟨dst, .store addr value⟩)
    (h : ∀ a v, fr.value? addr = some a → fr.value? value = some v → M.checkStore a = .ok () →
      ∀ m, m < n → Safe c m (M.put a v) (fr.set none .invalid :: rest) (k + 1)) :
    Safe c n M (fr :: rest) k := by
  refine safe_next hline fun m hm calls events => ?_
  simp only [execute, after_bind]
  refine after_operand fun a ha => ?_
  refine after_operand fun v hv => ?_
  rw [after_get]
  refine after_attempt (fun f hf => (Memory.ordinary_of_checkStore hf).mild) fun _ hs => ?_
  exact h a v ha hv hs m hm calls events

theorem safe_binary {dst : Option Nat} {op : Op} {x y : Operand} (hline : fr.line? = some ⟨dst, .binary op x y⟩)
    (h : ∀ a b v, fr.value? x = some a → fr.value? y = some b → binary op (fr.function.typeOf? x) a b = .ok v →
      ∀ m, m < n → Safe c m M (fr.set dst v :: rest) (k + 1)) :
    Safe c n M (fr :: rest) k := by
  refine safe_next hline fun m hm calls events => ?_
  simp only [execute, after_bind]
  refine after_operand fun a ha => ?_
  refine after_operand fun b hb => ?_
  refine after_attempt (fun f hf => (ordinary_of_binary hf).mild) fun v hv => ?_
  exact h a b v ha hb hv m hm calls events

theorem safe_compare {dst : Option Nat} {p : Pred} {x y : Operand} (hline : fr.line? = some ⟨dst, .compare p x y⟩)
    (h : ∀ a b v, fr.value? x = some a → fr.value? y = some b → compare p a b = .ok v →
      ∀ m, m < n → Safe c m M (fr.set dst v :: rest) (k + 1)) :
    Safe c n M (fr :: rest) k := by
  refine safe_next hline fun m hm calls events => ?_
  simp only [execute, after_bind]
  refine after_operand fun a ha => ?_
  refine after_operand fun b hb => ?_
  refine after_attempt (fun f hf => (ordinary_of_compare hf).mild) fun v hv => ?_
  exact h a b v ha hb hv m hm calls events

theorem after_enterBlock {block : Nat} {calls : Array (List Value)} {events : Array Event}
    (h : Safe c n M (fr.goto block :: rest) k) :
    after (do enterBlock fr.function block; return none) (Continues c n) Failure.Sound
      ⟨M, fr :: rest, k, calls, events⟩ := by
  simp only [enterBlock, after_bind, after_ite]
  split
  · exact fun _ => rfl
  · exact h calls events

theorem safe_condBr {dst : Option Nat} {cond : Operand} {yes no : Nat}
    (hline : fr.line? = some ⟨dst, .condBr cond yes no⟩)
    (h : ∀ b, fr.value? cond = some (.bool b) →
      ∀ m, m < n → Safe c m M (fr.goto (if b then yes else no) :: rest) (k + 1)) :
    Safe c n M (fr :: rest) k := by
  refine safe_next hline fun m hm calls events => ?_
  simp only [execute, after_bind]
  refine after_operand fun v hv => ?_
  split
  · exact after_enterBlock (h _ hv m hm)
  · exact fun _ => rfl

theorem safe_br {dst : Option Nat} {block : Nat} (hline : fr.line? = some ⟨dst, .br block⟩)
    (h : ∀ m, m < n → Safe c m M (fr.goto block :: rest) (k + 1)) : Safe c n M (fr :: rest) k :=
  safe_next hline fun m hm _ _ => after_enterBlock (h m hm)

/-- What becomes of the run when the innermost call returns a value. -/
def Returns (c : Config) (n : Nat) (M : Memory) (fr : Frame) (v : Value) (k : Nat) : List Frame → Prop
  | [] => M.Settled
  | caller :: rest => Safe c n M (caller.set (some fr.dst) v :: rest) k

theorem after_leave {v : Value} {calls : Array (List Value)} {events : Array Event}
    (h : Returns c n M fr v k rest) :
    after (leave v) (Continues c n) Failure.Sound ⟨M, fr :: rest, k, calls, events⟩ := by
  cases rest with
  | nil => exact fun _ => h
  | cons caller rest => exact h calls events

theorem safe_ret {dst : Option Nat} {value : Operand} (hline : fr.line? = some ⟨dst, .ret (some value)⟩)
    (h : ∀ v, fr.value? value = some v → ∀ m, m < n → Returns c m M fr v (k + 1) rest) :
    Safe c n M (fr :: rest) k := by
  refine safe_next hline fun m hm calls events => ?_
  simp only [execute, after_bind]
  exact after_operand fun v hv => after_leave (h v hv m hm)

theorem safe_ret_none {dst : Option Nat} (hline : fr.line? = some ⟨dst, .ret none⟩)
    (h : ∀ m, m < n → Returns c m M fr .invalid (k + 1) rest) : Safe c n M (fr :: rest) k :=
  safe_next hline fun m hm _ _ => after_leave (h m hm)

/-! ### Calls of functions -/

/-- What the host does for a function is followed by a state that satisfies `P`, or is a mild failure. -/
def HostLeads (M : Memory) (P : Value → Memory → Prop) : Host → List Value → Prop
  | .allocate, [_, .int size] => P (.ptr (.object (M.allocs + 1))) (M.addObject size)
  | .release, [_, v] =>
      (∀ f, M.checkRelease v = .error f → f.Mild) ∧ ∀ id, M.checkRelease v = .ok id → P .invalid (M.giveBack id)
  | .print, _ :: _ => P .invalid M
  | .answer f, vs => ∀ v, f vs = .ok v → P v M
  | _, _ => True

theorem after_callHost {name : String} {host : Host} {vs : List Value} {P : Value → Memory → Prop} {F : List Frame}
    {Q : Value → State → Prop} {calls : Array (List Value)} {events : Array Event} (h : HostLeads M P host vs)
    (hP : ∀ v M', P v M' → ∀ calls events, Q v ⟨M', F, k, calls, events⟩) :
    after (callHost c name host vs) Q Failure.Sound ⟨M, F, k, calls, events⟩ := by
  unfold callHost
  split
  · simp only [after_bind, after_get]
    refine after_attempt (fun f hf => (Memory.ordinary_of_checkSize hf).mild) fun _ _ => ?_
    refine after_record fun events => ?_
    have hs : ∀ size, (M.addObject size).allocs = M.allocs + 1 := fun size => by
      simp [Memory.addObject, Memory.allocs]
    have := hP _ _ h calls events
    rw [← hs] at this
    exact this
  · exact fun _ => rfl
  · simp only [after_bind, after_get]
    refine after_attempt h.1 fun id hid => ?_
    exact after_record fun events => hP _ _ (h.2 id hid) calls events
  · exact fun _ => rfl
  · exact fun _ => rfl
  · exact hP _ _ h _ _
  · split
    · rename_i v hv
      exact hP _ _ (h v hv) _ _
    · exact fun _ => rfl

theorem after_invoke {g : Function} {vs : List Value} {d : Nat} {F : List Frame} {Q : Option Value → State → Prop}
    {P : Value → Memory → Prop} {calls : Array (List Value)} {events : Array Event}
    (hbody : g.isDefined = true → vs.length = g.sig.params.length →
      ∀ calls events, Q none ⟨M.grow g, Frame.enter g vs d M.cells.size :: F, k, calls, events⟩)
    (hhost : g.isDefined = false → ∀ host, c.hosts.lookup g.name = some host → HostLeads M P host vs)
    (hP : ∀ v M', P v M' → ∀ calls events, Q (some v) ⟨M', F, k, calls, events⟩) :
    after (invoke c g vs d) Q Failure.Sound ⟨M, F, k, calls, events⟩ := by
  unfold invoke
  rw [after_ite]
  split
  · rename_i hd
    split
    · exact fun _ => rfl
    · rename_i host hlookup
      simp only [after_bind, after_get]
      refine after_record fun events => ?_
      exact after_callHost (hhost (by simpa using hd) host hlookup) fun v M' hv calls events =>
        hP v M' hv calls events
  · rename_i hd
    rw [after_ite]
    split
    · exact fun _ => rfl
    · rename_i hlen
      simp only [after_bind, after_modify, enterBlock, after_ite]
      split
      · exact fun _ => rfl
      · exact hbody (by simpa using hd) (by simpa using hlen) calls events

theorem safe_call {dst : Option Nat} {sig : Sig} {callee : Operand} {args : List Operand}
    (hline : fr.line? = some ⟨dst, .call sig callee args⟩)
    (h : ∀ name vs g, fr.value? callee = some (.ptr (.code name)) → args.mapM fr.value? = some vs →
      c.module.find? name = some g → ∀ m, m < n →
      (g.isDefined = true → vs.length = g.sig.params.length →
        Safe c m (M.grow g) (Frame.enter g vs (dst.getD 0) M.cells.size :: fr :: rest) (k + 1)) ∧
      (g.isDefined = false → ∀ host, c.hosts.lookup g.name = some host →
        HostLeads M (fun v M' => Safe c m M' (fr.set dst v :: rest) (k + 1)) host vs)) :
    Safe c n M (fr :: rest) k := by
  refine safe_next hline fun m hm calls events => ?_
  simp only [execute, after_bind]
  refine after_operand fun v hv => ?_
  split
  · rename_i name
    rw [after_bind]
    refine after_operands fun vs hvs => ?_
    split
    · exact fun _ => rfl
    · rename_i g hg
      obtain ⟨hbody, hhost⟩ := h name vs g hv hvs hg m hm
      rw [after_bind]
      exact after_invoke hbody hhost fun v M' hv calls events => hv calls events
  · exact fun _ => rfl

end

/-! ### Long runs -/

/-- The computation does not take back executed instructions. -/
def Counts {α : Type} (act : Exec α) : Prop := ∀ s, s.steps ≤ (act.run.run s).2.steps

section

variable {α β : Type} {c : Config}

theorem counts_pure (a : α) : Counts (pure a) := fun s => Nat.le_refl s.steps

theorem counts_get : Counts get := fun s => Nat.le_refl s.steps

theorem counts_fail (code : FailureCode) (message : String) : Counts (fail code message : Exec α) :=
  fun s => Nat.le_refl s.steps

theorem counts_modify {f : State → State} (h : ∀ s, s.steps ≤ (f s).steps) : Counts (modify f : Exec Unit) := h

theorem counts_bind {x : Exec α} {f : α → Exec β} (hx : Counts x) (hf : ∀ a, Counts (f a)) : Counts (x >>= f) := by
  intro s
  have h := hx s
  simp only [ExceptT.run_bind, StateT.run_bind]
  rcases hr : x.run.run s with ⟨r, s'⟩
  rw [hr] at h
  cases r with
  | ok a => exact Nat.le_trans h (hf a s')
  | error f => exact h

theorem counts_ofExcept (r : Except Failure α) : Counts (ofExcept r) := by
  cases r with
  | ok a => exact counts_pure a
  | error f => exact fun s => Nat.le_refl s.steps

theorem counts_record (e : Event) : Counts (record c e) := by
  unfold record
  split
  · exact counts_modify fun s => Nat.le_refl s.steps
  · exact counts_pure ()

theorem counts_modifyFrame (f : Frame → Frame) : Counts (modifyFrame f) := by
  refine counts_modify fun s => ?_
  unfold State.mapFrame
  split <;> exact Nat.le_refl _

theorem counts_operand (o : Operand) : Counts (operand o) := by
  unfold operand
  split
  · refine counts_bind counts_get fun _ => ?_
    dsimp only
    split
    · exact counts_pure _
    · exact counts_fail _ _
  · exact counts_pure _
  · split
    · exact counts_pure _
    · exact counts_fail _ _

theorem counts_operands (os : List Operand) : Counts (os.mapM operand) := by
  induction os with
  | nil => exact counts_pure []
  | cons o os ih =>
    rw [List.mapM_cons]
    exact counts_bind (counts_operand o) fun _ => counts_bind ih fun _ => counts_pure _

theorem counts_enterBlock (f : Function) (block : Nat) : Counts (enterBlock f block) := by
  unfold enterBlock
  dsimp only
  split
  · exact counts_bind (counts_fail _ _) fun _ => counts_modifyFrame _
  · exact counts_modifyFrame _

theorem counts_callHost (name : String) (host : Host) (vs : List Value) : Counts (callHost c name host vs) := by
  have hmemory : ∀ f, Counts (modifyMemory f) := fun f => counts_modify fun s => Nat.le_refl s.steps
  unfold callHost
  split
  · refine counts_bind (counts_ofExcept _) fun _ => counts_bind (hmemory _) fun _ => ?_
    exact counts_bind counts_get fun _ => counts_bind (counts_record _) fun _ => counts_pure _
  · exact counts_fail _ _
  · refine counts_bind counts_get fun _ => counts_bind (counts_ofExcept _) fun _ =>
      counts_bind (hmemory _) fun _ => ?_
    exact counts_bind counts_get fun _ => counts_bind (counts_record _) fun _ => counts_pure _
  · exact counts_fail _ _
  · exact counts_fail _ _
  · exact counts_bind (counts_modify fun s => Nat.le_refl s.steps) fun _ => counts_pure _
  · split
    · exact counts_pure _
    · exact counts_fail _ _

theorem counts_invoke (f : Function) (vs : List Value) (d : Nat) : Counts (invoke c f vs d) := by
  have henter : Counts (modify (State.enter f vs d) : Exec Unit) := counts_modify fun s => Nat.le_refl s.steps
  have hbody : Counts (do modify (State.enter f vs d); enterBlock f 0; return (none : Option Value)) :=
    counts_bind henter fun _ => counts_bind (counts_enterBlock f 0) fun _ => counts_pure _
  unfold invoke
  dsimp only
  split
  · split
    · exact counts_bind (counts_fail _ _) fun _ => by
        split
        · exact counts_bind (counts_fail _ _) fun _ => hbody
        · exact hbody
    · refine counts_bind counts_get fun _ => counts_bind (counts_record _) fun _ => ?_
      exact counts_bind (counts_callHost _ _ _) fun _ => counts_pure _
  · split
    · exact counts_bind (counts_fail _ _) fun _ => hbody
    · exact hbody

theorem counts_leave (v : Value) : Counts (leave v) := by
  refine counts_bind counts_get fun s => ?_
  split
  · exact counts_pure _
  · refine counts_bind (counts_modify fun s => Nat.le_refl s.steps) fun _ => ?_
    split
    · exact counts_pure _
    · exact counts_bind (counts_modifyFrame _) fun _ => counts_pure _

theorem counts_execute (f : Function) (line : Line) : Counts (execute c f line) := by
  have hvalue : ∀ v, Counts (do setRegister line.dst v; return (none : Option Value)) :=
    fun v => counts_bind (counts_modifyFrame _) fun _ => counts_pure _
  unfold execute
  dsimp only
  split
  · exact counts_bind (counts_operand _) fun _ => counts_bind (counts_ofExcept _) hvalue
  · exact counts_bind (counts_operand _) fun _ => counts_bind counts_get fun _ =>
      counts_bind (counts_ofExcept _) hvalue
  · refine counts_bind (counts_operand _) fun _ => counts_bind (counts_operand _) fun _ => ?_
    refine counts_bind counts_get fun _ => counts_bind (counts_ofExcept _) fun _ => ?_
    exact counts_bind (counts_modify fun s => Nat.le_refl s.steps) fun _ =>
      counts_bind (counts_modifyFrame _) fun _ => counts_pure _
  · refine counts_bind (counts_operand _) fun _ => ?_
    split
    · refine counts_bind (counts_operands _) fun _ => ?_
      split
      · exact counts_fail _ _
      · refine counts_bind (counts_invoke _ _ _) fun r => ?_
        cases r with
        | some v => exact hvalue v
        | none => exact counts_pure _
    · exact counts_fail _ _
  · exact counts_bind (counts_operand _) fun _ => counts_bind (counts_operand _) fun _ =>
      counts_bind (counts_ofExcept _) hvalue
  · exact counts_bind (counts_operand _) fun _ => counts_bind (counts_operand _) fun _ =>
      counts_bind (counts_ofExcept _) hvalue
  · refine counts_bind (counts_operand _) fun _ => ?_
    split
    · exact counts_bind (counts_enterBlock _ _) fun _ => counts_pure _
    · exact counts_fail _ _
  · exact counts_bind (counts_enterBlock _ _) fun _ => counts_pure _
  · exact counts_leave _
  · exact counts_bind (counts_operand _) fun _ => counts_leave _

theorem counts_step : Counts (step c) := by
  have htraced : ∀ f line (e : State → Event), Counts (if c.isTraced = true then do
      let s ← get
      record c (e s)
      execute c f line
    else execute c f line) := by
    intro f line e
    split
    · exact counts_bind counts_get fun _ => counts_bind (counts_record _) fun _ => counts_execute _ _
    · exact counts_execute _ _
  refine counts_bind counts_get fun s => ?_
  split
  · exact counts_pure _
  · refine counts_bind (counts_modify fun s => Nat.le_succ s.steps) fun _ => ?_
    refine counts_bind counts_get fun s => ?_
    dsimp only
    split
    · refine counts_bind (counts_fail _ _) fun _ => ?_
      split
      · exact counts_fail _ _
      · exact htraced _ _ fun s => Event.instr s.frames.length _ _ _
    · split
      · exact counts_fail _ _
      · exact htraced _ _ fun s => Event.instr s.frames.length _ _ _

theorem counts_steps (n : Nat) : Counts (steps c n) := by
  induction n with
  | zero => exact counts_fail _ _
  | succ n ih =>
    refine counts_bind counts_step fun r => ?_
    cases r with
    | some v => exact counts_pure v
    | none => exact ih

/-- A run that is long enough may end in any way. -/
theorem safe_of_bound {n k : Nat} {M : Memory} {F : List Frame} (h : stepBound ≤ k) : Safe c n M F k := by
  intro calls events
  have hk := counts_steps (c := c) n ⟨M, F, k, calls, events⟩
  unfold after
  split
  · rename_i r s hr
    rw [hr] at hk
    exact fun hs => absurd (Nat.le_trans h hk) (Nat.not_le.2 hs)
  · rename_i r s hr
    rw [hr] at hk
    exact fun hs => absurd (Nat.le_trans h hk) (Nat.not_le.2 hs)

end

end TypedScript.Machine
