import TypedScript.Proofs.Machine.Step

/-!
# Limits and records of runs

A run is followed instruction by instruction, with the calls that it makes of the host, whether it ends or not. A
limit on the number of instructions and a detailed record only observe it.

* `Config.Comes`, `Config.Passes`: how a run ends, and the states that it passes. There is no bound on their length.
* `run_eq_of_comes`: what a run comes to is what running it gives.
* `run_observed`: a run under a limit is the run without one, or its beginning; the record of a run changes nothing.
-/

namespace TypedScript.Machine

open TypedScript.Ir

/-! ### The course of a run -/

/-- A call of a function of the host, with what was answered; there is no answer if the host refused. -/
structure HostCall where
  name : String
  args : List Value
  answer : Option Value

/-- The call of the host that calling a function is. A function with a body is not the host's. -/
def Config.hostCall? (c : Config) (g : Function) (vs : List Value) (s : State) : Option HostCall :=
  if g.isDefined then none
  else (c.hosts.lookup g.name).map fun host => ⟨g.name, vs, ((callHost c g.name host vs).run.run s).1.toOption⟩

/-- Whether the limit forbids the next instruction. -/
def State.isOver (c : Config) (s : State) : Bool := c.limit > 0 && s.steps + 1 > c.limit

/-- The calls of the host that an instruction makes in a call. -/
def Frame.hostCalls (c : Config) (s : State) (fr : Frame) : Instr → List HostCall
  | .call _ callee args =>
    match fr.value? callee, args.mapM fr.value? with
    | some (.ptr (.code name)), some vs => ((c.module.find? name).bind fun g => c.hostCall? g vs s).toList
    | _, _ => []
  | _ => []

/-- The calls of the host that the next instruction makes; there is at most one. -/
def State.hostCalls (c : Config) (s : State) : List HostCall :=
  match s.frames with
  | [] => []
  | fr :: _ => if s.isOver c then [] else fr.line?.elim [] fun line => fr.hostCalls c s line.instr

/-- Instructions lead from a state to a state in which the run is not over. -/
inductive Goes (c : Config) : State → List HostCall → State → Prop
  | refl (s : State) : Goes c s [] s
  | step {s s₁ s₂ : State} {hs : List HostCall} (hstep : (step c).run.run s = (.ok none, s₁))
      (hrest : Goes c s₁ hs s₂) :
      Goes c s (s.hostCalls c ++ hs) s₂

/-- Instructions lead from a state to the end of the run. -/
inductive Finishes (c : Config) : State → List HostCall → Outcome → State → Prop
  | value {s s₁ : State} {v : Value} (hstep : (step c).run.run s = (.ok (some v), s₁)) :
      Finishes c s (s.hostCalls c) (.value v) s₁
  | failure {s s₁ : State} {f : Failure} (hstep : (step c).run.run s = (.error f, s₁)) :
      Finishes c s (s.hostCalls c) (.failure f) s₁
  | step {s s₁ s₂ : State} {hs : List HostCall} {o : Outcome} (hstep : (step c).run.run s = (.ok none, s₁))
      (hrest : Finishes c s₁ hs o s₂) : Finishes c s (s.hostCalls c ++ hs) o s₂

/-- The run of a function passes a state. -/
def Config.Passes (c : Config) (name : String) (args : List Value) (hs : List HostCall) (s : State) : Prop :=
  ∃ f s₀, c.module.find? name = some f ∧ (invoke c f args 0).run.run {} = (.ok none, s₀) ∧ Goes c s₀ hs s

/-- The run of a function ends in a state. -/
inductive Config.Comes (c : Config) (name : String) (args : List Value) : List HostCall → Outcome → State → Prop
  | noFunction (hfind : c.module.find? name = none) : Comes c name args [] (.noFunction name) {}
  /-- The host provides the function. -/
  | answered {f : Function} {v : Value} {s : State} (hfind : c.module.find? name = some f)
      (hinvoke : (invoke c f args 0).run.run {} = (.ok (some v), s)) :
      Comes c name args (c.hostCall? f args {}).toList (.value v) s
  | refused {f : Function} {e : Failure} {s : State} (hfind : c.module.find? name = some f)
      (hinvoke : (invoke c f args 0).run.run {} = (.error e, s)) :
      Comes c name args (c.hostCall? f args {}).toList (.failure e) s
  | finished {f : Function} {s₀ s : State} {hs : List HostCall} {o : Outcome} (hfind : c.module.find? name = some f)
      (hinvoke : (invoke c f args 0).run.run {} = (.ok none, s₀)) (hrest : Finishes c s₀ hs o s) :
        Comes c name args hs o s

section

variable {c : Config} {s s₁ s₂ s' : State} {hs hs' : List HostCall} {o : Outcome} {name : String}
    {args : List Value}

/-- What a state leads to lies on the way to the end. -/
theorem Goes.finishes (h : Goes c s hs s₁) (hend : Finishes c s hs' o s') : ∃ hs₁, hs' = hs ++ hs₁ ∧
    Finishes c s₁ hs₁ o s' := by
  induction h generalizing hs' with
  | refl s => exact ⟨hs', rfl, hend⟩
  | step hstep _ ih =>
    cases hend with
    | value hstep' =>
      rw [hstep] at hstep'
      cases hstep'
    | failure hstep' =>
      rw [hstep] at hstep'
      cases hstep'
    | step hstep' hrest' =>
      rw [hstep] at hstep'
      cases hstep'
      obtain ⟨hs₁, rfl, hend⟩ := ih hrest'
      exact ⟨hs₁, (List.append_assoc ..).symm, hend⟩

/-- A state that a run passes lies on the way to its end. -/
theorem Config.Passes.isPrefix_of_comes (h : c.Passes name args hs s) (hend : c.Comes name args hs' o s') :
    hs <+: hs' := by
  obtain ⟨f, s₀, hfind, hinvoke, hgoes⟩ := h
  cases hend with
  | noFunction hfind' =>
    rw [hfind] at hfind'
    cases hfind'
  | answered hfind' hinvoke' =>
    rw [hfind] at hfind'
    cases hfind'
    rw [hinvoke] at hinvoke'
    cases hinvoke'
  | refused hfind' hinvoke' =>
    rw [hfind] at hfind'
    cases hfind'
    rw [hinvoke] at hinvoke'
    cases hinvoke'
  | finished hfind' hinvoke' hrest =>
    rw [hfind] at hfind'
    cases hfind'
    rw [hinvoke] at hinvoke'
    cases hinvoke'
    obtain ⟨hs₁, rfl, -⟩ := hgoes.finishes hrest
    exact List.prefix_append ..

end

/-! ### What does not depend on the record -/

/-- The states differ at most in the detailed record. -/
structure State.Agrees (s s' : State) : Prop where
  memory : s.memory = s'.memory
  frames : s.frames = s'.frames
  steps : s.steps = s'.steps
  calls : s.calls = s'.calls

theorem State.Agrees.rfl {s : State} : s.Agrees s where
  memory := Eq.refl _
  frames := Eq.refl _
  steps := Eq.refl _
  calls := Eq.refl _

/-- The computations come to the same but for the detailed record, and count no instruction. -/
def Alike {α : Type} (x y : Exec α) : Prop := ∀ ⦃s s' : State⦄, s.Agrees s' →
  (x.run.run s).1 = (y.run.run s').1 ∧ (x.run.run s).2.Agrees (y.run.run s').2 ∧ (x.run.run s).2.steps = s.steps

section

variable {α β : Type} {c c' : Config}

theorem alike_pure (a : α) : Alike (pure a) (pure a) := fun _ _ h => ⟨rfl, h, rfl⟩

theorem Alike.bind {x y : Exec β} {f g : β → Exec α} (hx : Alike x y) (hf : ∀ a, Alike (f a) (g a)) :
    Alike (x >>= f) (y >>= g) := by
  intro s s' h
  obtain ⟨hr, hs, hk⟩ := hx h
  simp only [ExceptT.run_bind, StateT.run_bind]
  rcases hx₁ : x.run.run s with ⟨r, s₁⟩
  rcases hy₁ : y.run.run s' with ⟨r', s₁'⟩
  rw [hx₁, hy₁] at hr hs
  rw [hx₁] at hk
  cases hr
  cases r with
  | error e => exact ⟨rfl, hs, hk⟩
  | ok a =>
    obtain ⟨hr', hs', hk'⟩ := hf a hs
    exact ⟨hr', hs', hk'.trans hk⟩

theorem alike_get {f g : State → Exec α} (h : ∀ s s', s.Agrees s' → Alike (f s) (g s')) : Alike
    (get >>= f) (get >>= g) :=
  fun s s' hs => h s s' hs hs

theorem alike_failWith (f : Failure) : Alike (failWith f : Exec α) (failWith f) :=
  alike_get fun s s' h => by
    rw [h.frames]
    exact fun _ _ h' => ⟨rfl, h', rfl⟩

theorem alike_ofExcept (r : Except Failure α) : Alike (ofExcept r) (ofExcept r) := by
  cases r with
  | ok a => exact alike_pure a
  | error f => exact alike_failWith f

theorem alike_modify {f : State → State} (h : ∀ s s', s.Agrees s' → (f s).Agrees (f s'))
    (hsteps : ∀ s, (f s).steps = s.steps) :
    Alike (modify f : Exec Unit) (modify f) := fun s s' hs => ⟨rfl, h s s' hs, hsteps s⟩

/-- A record is taken at most. -/
theorem run_record (e : Event) (s : State) : ∃ es, (record c e).run.run s = (.ok (), { s with events := es }) := by
  unfold record
  split
  · exact ⟨_, rfl⟩
  · exact ⟨s.events, rfl⟩

theorem alike_record {e e' : Event} : Alike (record c e) (record c' e') := by
  intro s s' h
  obtain ⟨es, hes⟩ := run_record (c := c) e s
  obtain ⟨es', hes'⟩ := run_record (c := c') e' s'
  rw [hes, hes']
  exact ⟨rfl, ⟨h.memory, h.frames, h.steps, h.calls⟩, rfl⟩

theorem alike_modifyFrame (f : Frame → Frame) : Alike (modifyFrame f) (modifyFrame f) := by
  refine alike_modify (fun s s' h => ?_) fun s => ?_
  · obtain ⟨M, F, k, calls, events⟩ := s
    obtain ⟨M', F', k', calls', events'⟩ := s'
    obtain ⟨rfl, rfl, rfl, rfl⟩ := h
    cases F <;> exact ⟨rfl, rfl, rfl, rfl⟩
  · unfold State.mapFrame
    split <;> rfl

theorem alike_modifyMemory (f : Memory → Memory) : Alike (modifyMemory f) (modifyMemory f) :=
  alike_modify (fun _ _ h => ⟨congrArg f h.memory, h.frames, h.steps, h.calls⟩) fun _ => rfl

theorem alike_operand (o : Operand) : Alike (operand o) (operand o) := by
  unfold operand
  split
  · refine alike_get fun s s' h => ?_
    unfold State.registers
    rw [h.frames]
    dsimp only
    split
    · exact alike_pure _
    · exact alike_failWith _
  · exact alike_pure _
  · split
    · exact alike_pure _
    · exact alike_failWith _

theorem alike_operands (os : List Operand) : Alike (os.mapM operand) (os.mapM operand) := by
  induction os with
  | nil => exact alike_pure []
  | cons o os ih =>
    rw [List.mapM_cons]
    exact (alike_operand o).bind fun _ => ih.bind fun _ => alike_pure _

theorem alike_enterBlock (f : Function) (block : Nat) : Alike (enterBlock f block) (enterBlock f block) := by
  unfold enterBlock
  dsimp only
  split
  · exact (alike_failWith _).bind fun _ => alike_modifyFrame _
  · exact alike_modifyFrame _

theorem alike_callHost (name : String) (host : Host) (vs : List Value) :
    Alike (callHost c name host vs) (callHost c' name host vs) := by
  unfold callHost
  split
  · refine (alike_ofExcept _).bind fun _ => (alike_modifyMemory _).bind fun _ => alike_get fun s s' h => ?_
    rw [h.memory]
    exact alike_record.bind fun _ => alike_pure _
  · exact alike_failWith _
  · refine alike_get fun s s' h => ?_
    rw [h.memory]
    refine (alike_ofExcept _).bind fun _ => (alike_modifyMemory _).bind fun _ => alike_get fun s s' h => ?_
    exact alike_record.bind fun _ => alike_pure _
  · exact alike_failWith _
  · exact alike_failWith _
  · rename_i vs
    have hprint : Alike (modify fun s => { s with calls := s.calls.push vs } : Exec Unit) (modify _) :=
      alike_modify (fun _ _ h => ⟨h.memory, h.frames, h.steps, congrArg (·.push vs) h.calls⟩) fun _ => rfl
    exact hprint.bind fun _ => alike_pure _
  · split
    · exact alike_pure _
    · exact alike_failWith _

theorem alike_invoke (hhosts : c.hosts = c'.hosts) (f : Function) (vs : List Value) (d : Nat) :
    Alike (invoke c f vs d) (invoke c' f vs d) := by
  have henter : Alike (modify (State.enter f vs d) : Exec Unit) (modify (State.enter f vs d)) := by
    refine alike_modify (fun s s' h => ?_) fun _ => rfl
    obtain ⟨M, F, k, calls, events⟩ := s
    obtain ⟨M', F', k', calls', events'⟩ := s'
    obtain ⟨rfl, rfl, rfl, rfl⟩ := h
    exact ⟨rfl, rfl, rfl, rfl⟩
  have hbody : Alike (do modify (State.enter f vs d); enterBlock f 0; return (none : Option Value))
      (do modify (State.enter f vs d); enterBlock f 0; return none) :=
    henter.bind fun _ => (alike_enterBlock f 0).bind fun _ => alike_pure _
  unfold invoke
  dsimp only
  rw [hhosts]
  split
  · split
    · exact (alike_failWith _).bind fun _ => by
        split
        · exact (alike_failWith _).bind fun _ => hbody
        · exact hbody
    · refine alike_get fun s s' h => ?_
      exact alike_record.bind fun _ => (alike_callHost _ _ _).bind fun _ => alike_pure _
  · split
    · exact (alike_failWith _).bind fun _ => hbody
    · exact hbody

theorem alike_leave (v : Value) : Alike (leave v) (leave v) := by
  refine alike_get fun s s' h => ?_
  rw [h.frames]
  split
  · exact alike_pure _
  · rename_i fr rest hframes
    have hpop : Alike (modify fun s => { s with frames := rest } : Exec Unit) (modify _) :=
      alike_modify (fun _ _ h => ⟨h.memory, rfl, h.steps, h.calls⟩) fun _ => rfl
    refine hpop.bind fun _ => ?_
    split
    · exact alike_pure _
    · exact (alike_modifyFrame _).bind fun _ => alike_pure _

theorem alike_execute (hmodule : c.module = c'.module) (hhosts : c.hosts = c'.hosts) (f : Function) (line : Line) :
    Alike (execute c f line) (execute c' f line) := by
  have hvalue : ∀ v, Alike (do setRegister line.dst v; return (none : Option Value))
      (do setRegister line.dst v; return none) := fun v => (alike_modifyFrame _).bind fun _ => alike_pure _
  unfold execute
  dsimp only
  rw [hmodule]
  split
  · exact (alike_operand _).bind fun _ => (alike_ofExcept _).bind hvalue
  · refine (alike_operand _).bind fun _ => alike_get fun s s' h => ?_
    rw [h.memory]
    exact (alike_ofExcept _).bind hvalue
  · refine (alike_operand _).bind fun _ => (alike_operand _).bind fun _ => alike_get fun s s' h => ?_
    rw [h.memory]
    refine (alike_ofExcept _).bind fun _ => (alike_modifyMemory _).bind fun _ => ?_
    exact (alike_modifyFrame _).bind fun _ => alike_pure _
  · refine (alike_operand _).bind fun v => ?_
    split
    · refine (alike_operands _).bind fun vs => ?_
      split
      · exact alike_failWith _
      · refine (alike_invoke hhosts _ _ _).bind fun r => ?_
        cases r with
        | some v => exact hvalue v
        | none => exact alike_pure _
    · exact alike_failWith _
  · exact (alike_operand _).bind fun _ => (alike_operand _).bind fun _ => (alike_ofExcept _).bind hvalue
  · exact (alike_operand _).bind fun _ => (alike_operand _).bind fun _ => (alike_ofExcept _).bind hvalue
  · refine (alike_operand _).bind fun v => ?_
    split
    · exact (alike_enterBlock _ _).bind fun _ => alike_pure _
    · exact alike_failWith _
  · exact (alike_enterBlock _ _).bind fun _ => alike_pure _
  · exact alike_leave _
  · exact (alike_operand _).bind fun v => alike_leave v

/-- What the next instruction does, if it may be executed. -/
def perform (c : Config) (fr : Frame) : Exec (Option Value) :=
  match fr.line? with
  | none => do
    let block := fr.function.blocks.getD fr.block default
    fail .malformed s!"block {block.name} of {fr.function.name} has no terminator"
  | some line => do
    if c.isTraced then
      record c (.instr (← get).frames.length fr.function.name (fr.function.blocks.getD fr.block default).name
        (fr.function.lineText line))
    execute c fr.function line

/-- The instruction is counted. -/
def State.tick (s : State) : State := { s with steps := s.steps + 1 }

theorem run_step_nil {s : State} (hs : s.frames = []) : (step c).run.run s = (.ok (some .invalid), s) := by
  have h : after (step c) (fun r s' => r = some .invalid ∧ s' = s) (fun _ _ => False) s := by
    simp only [step, after_bind, after_get, hs]
    exact ⟨rfl, rfl⟩
  unfold after at h
  split at h
  · rename_i r s' hr
    rw [hr, h.1, h.2]
  · exact h.elim

theorem run_step {s : State} {fr : Frame} {rest : List Frame} (hs : s.frames = fr :: rest) :
    (step c).run.run s =
      if s.isOver c then
        (.error ⟨.stepLimit, s!"step limit {c.limit} exceeded", s.frames.map (·.function.name)⟩, s.tick)
      else (perform c fr).run.run s.tick := by
  have hget : ∀ {α : Type} (f : State → Exec α) (s : State), (get >>= f).run.run s = (f s).run.run s :=
    fun _ _ => rfl
  have hmodify : ∀ {α : Type} (g : State → State) (f : PUnit → Exec α) (s : State),
      (modify g >>= f).run.run s = (f ⟨⟩).run.run (g s) := fun _ _ _ => rfl
  unfold step
  rw [hget]
  simp only [hs]
  rw [hmodify, hget]
  unfold State.isOver
  split
  · rw [← hs]
    rfl
  · rfl

/-- What comes after a record does not see it. -/
theorem alike_recorded {x y : Exec α} {f g : State → Event} (h : Alike x y) :
    Alike (if c.isTraced then do let s ← get; record c (f s); x else x)
      (if c'.isTraced then do let s ← get; record c' (g s); y else y) := by
  have hskip : ∀ (c : Config) (f : State → Event) (x : Exec α) (s : State), ∃ es,
      (if c.isTraced then do let s ← get; record c (f s); x else x).run.run s =
      x.run.run { s with events := es } := by
    intro c f x s
    split
    · obtain ⟨es, hes⟩ := run_record (c := c) (f s) s
      refine ⟨es, ?_⟩
      change (do record c (f s); x).run.run s = _
      simp only [ExceptT.run_bind, StateT.run_bind, hes]
      rfl
    · exact ⟨s.events, rfl⟩
  intro s s' hs
  obtain ⟨es, hes⟩ := hskip c f x s
  obtain ⟨es', hes'⟩ := hskip c' g y s'
  rw [hes, hes']
  exact h ⟨hs.memory, hs.frames, hs.steps, hs.calls⟩

theorem alike_perform (hmodule : c.module = c'.module) (hhosts : c.hosts = c'.hosts) (fr : Frame) :
    Alike (perform c fr) (perform c' fr) := by
  unfold perform
  split
  · exact alike_failWith _
  · exact alike_recorded (alike_execute hmodule hhosts _ _)

end

/-! ### Counting -/

section

variable {c : Config} {s s₁ s' : State} {hs : List HostCall} {o : Outcome} {name : String} {args : List Value}

theorem isOver_eq_false_iff : s.isOver c = false ↔ c.limit = 0 ∨ s.steps + 1 ≤ c.limit := by
  simp only [State.isOver, Bool.and_eq_false_iff, decide_eq_false_iff_not]
  omega

/-- An instruction counts as one, also if it fails. -/
theorem steps_step {fr : Frame} {rest : List Frame} (hframes : s.frames = fr :: rest) :
    ((step c).run.run s).2.steps = s.steps + 1 := by
  rw [run_step hframes]
  split
  · rfl
  · exact (alike_perform rfl rfl fr .rfl).2.2

theorem le_steps_of_step {r : Except Failure (Option Value)} (hstep : (step c).run.run s = (r, s₁)) :
    s.steps ≤ s₁.steps := by
  have h := counts_step (c := c) s
  rwa [hstep] at h

theorem Finishes.le_steps (h : Finishes c s hs o s') : s.steps ≤ s'.steps := by
  induction h with
  | value hstep => exact le_steps_of_step hstep
  | failure hstep => exact le_steps_of_step hstep
  | step hstep _ ih => exact Nat.le_trans (le_steps_of_step hstep) ih

/-- The run goes on only from a state with an active call, and the instruction counts. -/
theorem steps_of_step (hstep : (step c).run.run s = (.ok none, s₁)) : s₁.steps = s.steps + 1 ∧
    s.isOver c = false := by
  cases hframes : s.frames with
  | nil =>
    rw [run_step_nil hframes] at hstep
    cases hstep
  | cons fr rest =>
    have hsteps := steps_step (c := c) hframes
    rw [hstep] at hsteps
    refine ⟨hsteps, ?_⟩
    rw [run_step hframes] at hstep
    split at hstep
    · cases hstep
    · exact Bool.not_eq_true _ ▸ ‹_›

/-! ### Runs by fuel -/

/-- How a run ends that gives a value or a failure. -/
def Outcome.of : Except Failure Value → Outcome
  | .ok v => .value v
  | .error f => .failure f

/-- Fuel that lasts to the end of a run is as good as any, and so is fuel that lasts to the limit. -/
theorem steps_of_finishes (h : Finishes c s hs o s') {n : Nat}
    (hfuel : s'.steps < s.steps + n ∨ (s.steps ≤ c.limit ∧ c.limit < s.steps + n ∧ 0 < c.limit)) :
    Outcome.of ((steps c n).run.run s).1 = o ∧ ((steps c n).run.run s).2 = s' := by
  induction h generalizing n with
  | @value s s₁ v hstep =>
    have hle := le_steps_of_step hstep
    obtain ⟨n, rfl⟩ : ∃ k, n = k + 1 := ⟨n - 1, by omega⟩
    simp only [steps, ExceptT.run_bind, StateT.run_bind, hstep]
    exact ⟨rfl, rfl⟩
  | @failure s s₁ f hstep =>
    have hle := le_steps_of_step hstep
    obtain ⟨n, rfl⟩ : ∃ k, n = k + 1 := ⟨n - 1, by omega⟩
    simp only [steps, ExceptT.run_bind, StateT.run_bind, hstep]
    exact ⟨rfl, rfl⟩
  | @step s s₁ s₂ hs o hstep hrest ih =>
    have hle := hrest.le_steps
    obtain ⟨hone, hover⟩ := steps_of_step hstep
    obtain ⟨n, rfl⟩ : ∃ k, n = k + 1 := ⟨n - 1, by omega⟩
    have hroom : c.limit = 0 ∨ s.steps + 1 ≤ c.limit := isOver_eq_false_iff.1 hover
    simp only [steps, ExceptT.run_bind, StateT.run_bind, hstep]
    exact ih (by omega)

theorem steps_of_invoke {f : Function} {r : Except Failure (Option Value)}
    (hinvoke : (invoke c f args 0).run.run {} = (r, s)) :
    s.steps = 0 := by
  have hsame := (alike_invoke (c := c) rfl f args 0 (.rfl : State.Agrees {} {})).2.2
  rwa [hinvoke] at hsame

/-- Running a function calls it and then executes instructions. -/
theorem run_of_find? {f : Function} (hfind : c.module.find? name = some f) : run c name args =
    match (invoke c f args 0).run.run {} with
    | (.error e, s) => (.failure e, s)
    | (.ok (some v), s) => (.value v, s)
    | (.ok none, s) => (.of ((steps c c.fuel).run.run s).1, ((steps c c.fuel).run.run s).2) := by
  simp only [run, hfind, ExceptT.run_bind, StateT.run_bind]
  rcases (invoke c f args 0).run.run {} with ⟨e | _ | v, s⟩
  · rfl
  · dsimp only [bind, Id.instMonad]
    rcases (steps c c.fuel).run.run s with ⟨r, s'⟩
    cases r <;> rfl
  · rfl

/-- Where executing instructions ends, the run is over or has got there. -/
theorem goes_or_finishes (n : Nat) (s : State) :
    (∃ hs, Goes c s hs ((steps c n).run.run s).2) ∨
      ∃ hs, Finishes c s hs (.of ((steps c n).run.run s).1) ((steps c n).run.run s).2 := by
  induction n generalizing s with
  | zero => exact .inl ⟨[], .refl s⟩
  | succ n ih =>
    rcases hstep : (step c).run.run s with ⟨r, s₁⟩
    simp only [steps, ExceptT.run_bind, StateT.run_bind, hstep]
    rcases r with f | _ | v
    · exact .inr ⟨_, .failure hstep⟩
    · rcases ih s₁ with ⟨hs, h⟩ | ⟨hs, h⟩
      · exact .inl ⟨_, .step hstep h⟩
      · exact .inr ⟨_, .step hstep h⟩
    · exact .inr ⟨_, .value hstep⟩

/-- Where running a function ends, its run is over or has got there. -/
theorem passes_or_comes (c : Config) (name : String) (args : List Value) :
    (∃ hs, c.Passes name args hs (run c name args).2) ∨
      ∃ hs, c.Comes name args hs (run c name args).1 (run c name args).2 := by
  cases hfind : c.module.find? name with
  | none =>
    have hrun : run c name args = (.noFunction name, {}) := by simp only [run, hfind]
    rw [hrun]
    exact .inr ⟨[], .noFunction hfind⟩
  | some f =>
    rw [run_of_find? hfind]
    rcases hinvoke : (invoke c f args 0).run.run {} with ⟨r, s⟩
    rcases r with e | _ | v
    · exact .inr ⟨_, .refused hfind hinvoke⟩
    · rcases goes_or_finishes (c := c) c.fuel s with ⟨hs, h⟩ | ⟨hs, h⟩
      · exact .inl ⟨hs, f, s, hfind, hinvoke, h⟩
      · exact .inr ⟨hs, .finished hfind hinvoke h⟩
    · exact .inr ⟨_, .answered hfind hinvoke⟩

/-- Running a function gives what its run comes to, if the run is not too long to be run. -/
theorem run_eq_of_comes (h : c.Comes name args hs o s) (hlong : 0 < c.limit ∨ s.steps < Nat.pow 2 62) :
    run c name args = (o, s) := by
  cases h with
  | noFunction hfind => simp only [run, hfind]
  | answered hfind hinvoke => rw [run_of_find? hfind, hinvoke]
  | refused hfind hinvoke => rw [run_of_find? hfind, hinvoke]
  | @finished f s₀ _ _ _ hfind hinvoke hrest =>
    have hfuel : s.steps < s₀.steps + c.fuel ∨
      (s₀.steps ≤ c.limit ∧ c.limit < s₀.steps + c.fuel ∧ 0 < c.limit) := by
      rw [steps_of_invoke hinvoke]
      unfold Config.fuel
      split <;> omega
    obtain ⟨ho, hs⟩ := steps_of_finishes hrest hfuel
    rw [run_of_find? hfind, hinvoke]
    exact Prod.ext ho hs

end

/-! ### Limits -/

/-- The run without a limit. -/
def Config.unlimited (c : Config) : Config := { c with limit := 0 }

/-- The run with the given limit. -/
def Config.upTo (c : Config) (m : Nat) : Config := { c with limit := m }

section

variable {c : Config} {s s₀ s₁ s' : State} {hs : List HostCall} {o : Outcome} {name : String}
    {args : List Value} {m : Nat}

theorem isOver_unlimited (c : Config) (s : State) : s.isOver c.unlimited = false := rfl

/-- An instruction within the limit is executed as it is without one. -/
theorem step_upTo {r : Except Failure (Option Value)} (hstep : (step c.unlimited).run.run s = (r, s₁))
    (hm : s₁.steps ≤ m) :
    (step (c.upTo m)).run.run s = (r, s₁) ∧ s.hostCalls (c.upTo m) = s.hostCalls c.unlimited := by
  rw [← hstep]
  cases hframes : s.frames with
  | nil =>
    rw [run_step_nil hframes, run_step_nil hframes]
    unfold State.hostCalls
    rw [hframes]
    exact ⟨rfl, rfl⟩
  | cons fr rest =>
    have hone := steps_step (c := c.unlimited) hframes
    rw [hstep] at hone
    have hover : s.isOver (c.upTo m) = false := isOver_eq_false_iff.2 (.inr (hone ▸ hm))
    rw [run_step hframes, run_step hframes, hover, isOver_unlimited]
    refine ⟨rfl, ?_⟩
    unfold State.hostCalls
    rw [hframes, hover, isOver_unlimited]
    rfl

/-- A run that ends within the limit does not feel it. -/
theorem Finishes.upTo (h : Finishes c.unlimited s hs o s') (hm : s'.steps ≤ m) : Finishes (c.upTo m) s hs o s' := by
  induction h with
  | value hstep =>
    obtain ⟨hsame, hcalls⟩ := step_upTo hstep hm
    rw [← hcalls]
    exact .value hsame
  | failure hstep =>
    obtain ⟨hsame, hcalls⟩ := step_upTo hstep hm
    rw [← hcalls]
    exact .failure hsame
  | step hstep hrest ih =>
    obtain ⟨hsame, hcalls⟩ := step_upTo hstep (Nat.le_trans hrest.le_steps hm)
    rw [← hcalls]
    exact .step hsame (ih hm)

/-- At the limit a run is stopped before it calls anything. -/
theorem Finishes.stop {fr : Frame} {rest : List Frame} (hframes : s.frames = fr :: rest)
    (hs : s.steps = m) (hm : 0 < m) :
    ∃ f, f.code = .stepLimit ∧ Finishes (c.upTo m) s [] (.failure f) s.tick := by
  have hover : s.isOver (c.upTo m) = true := by
    rw [← Bool.not_eq_false, isOver_eq_false_iff]
    simp only [Config.upTo]
    omega
  have hstep := run_step (c := c.upTo m) hframes
  rw [if_pos hover] at hstep
  have hnone : s.hostCalls (c.upTo m) = [] := by
    unfold State.hostCalls
    rw [hframes, hover]
    rfl
  have hend := Finishes.failure hstep
  rw [hnone] at hend
  exact ⟨_, rfl, hend⟩

/-- A run that does not end within the limit is stopped there. -/
theorem exists_stop (hlong : ∀ hs o s', Finishes c.unlimited s hs o s' → m < s'.steps) (hm : 0 < m)
    (hs : s.steps ≤ m) :
    ∃ hs s' f, Goes c.unlimited s hs s' ∧ s'.steps = m ∧ f.code = .stepLimit ∧
      Finishes (c.upTo m) s hs (.failure f) s'.tick := by
  obtain ⟨d, hd⟩ : ∃ d, m - s.steps = d := ⟨_, rfl⟩
  induction d generalizing s with
  | zero =>
    cases hframes : s.frames with
    | nil => exact absurd (hlong _ _ _ (.value (run_step_nil hframes))) (Nat.not_lt.2 hs)
    | cons fr rest =>
      obtain ⟨f, hcode, hend⟩ := Finishes.stop (c := c) (m := m) hframes (by omega) hm
      exact ⟨[], s, f, .refl s, by omega, hcode, hend⟩
  | succ d ih =>
    rcases hstep : (step c.unlimited).run.run s with ⟨r, s₁⟩
    have hwithin : s₁.steps ≤ m := by
      cases hframes : s.frames with
      | nil =>
        rw [run_step_nil hframes] at hstep
        cases hstep
        exact hs
      | cons fr rest =>
        have hone := steps_step (c := c.unlimited) hframes
        rw [hstep] at hone
        change s₁.steps = s.steps + 1 at hone
        omega
    obtain ⟨hsame, hcalls⟩ := step_upTo hstep hwithin
    rcases r with f | _ | v
    · exact absurd (hlong _ _ _ (.failure hstep)) (Nat.not_lt.2 hwithin)
    · obtain ⟨hone, -⟩ := steps_of_step hstep
      obtain ⟨hs', s', f, hgoes, hend, hcode, hfinishes⟩ :=
        ih (fun hs o s' h => hlong _ _ _ (.step hstep h)) hwithin (by omega)
      have hall := Finishes.step hsame hfinishes
      rw [hcalls] at hall
      exact ⟨_, s', f, .step hstep hgoes, hend, hcode, hall⟩
    · exact absurd (hlong _ _ _ (.value hstep)) (Nat.not_lt.2 hwithin)

theorem Config.Comes.upTo (h : c.unlimited.Comes name args hs o s) (hm : s.steps ≤ m) :
    (c.upTo m).Comes name args hs o s := by
  cases h with
  | noFunction hfind => exact .noFunction hfind
  | answered hfind hinvoke => exact .answered hfind hinvoke
  | refused hfind hinvoke => exact .refused hfind hinvoke
  | finished hfind hinvoke hrest => exact .finished hfind hinvoke (hrest.upTo hm)

theorem exists_stop_of_comes (hlong : ∀ hs o s, c.unlimited.Comes name args hs o s → m < s.steps) (hm : 0 < m) :
    ∃ hs s f, c.unlimited.Passes name args hs s ∧ s.steps = m ∧ f.code = .stepLimit ∧
      (c.upTo m).Comes name args hs (.failure f) s.tick := by
  -- no run ends before its first instruction
  have hbegin : ∀ {hs o s}, c.unlimited.Comes name args hs o s → s.steps ≠ 0 := fun h h0 => by
    have := hlong _ _ _ h
    omega
  cases hfind : c.module.find? name with
  | none => exact absurd rfl (hbegin (.noFunction hfind))
  | some f =>
    rcases hinvoke : (invoke c.unlimited f args 0).run.run {} with ⟨r, s₀⟩
    have hstart := steps_of_invoke hinvoke
    rcases r with e | _ | v
    · exact absurd hstart (hbegin (.refused hfind hinvoke))
    · obtain ⟨hs, s, e, hgoes, hend, hcode, hfinishes⟩ :=
        exists_stop (fun hs o s h => hlong hs o s (.finished hfind hinvoke h)) hm (by omega)
      exact ⟨hs, s, e, ⟨f, s₀, hfind, hinvoke, hgoes⟩, hend, hcode, .finished hfind hinvoke hfinishes⟩
    · exact absurd hstart (hbegin (.answered hfind hinvoke))

end

/-! ### Records -/

/-- The run with or without a detailed record. -/
def Config.recorded (c : Config) (isTraced : Bool) : Config := { c with isTraced }

section

variable {c c' : Config} {s s₁ s' : State} {hs : List HostCall} {o : Outcome} {name : String}
    {args : List Value} {b d : Bool}

theorem hostCall?_recorded (g : Function) (vs : List Value) (h : s.Agrees s') :
    (c.recorded b).hostCall? g vs s = (c.recorded d).hostCall? g vs s' := by
  unfold Config.hostCall?
  have hanswer : ∀ host, ((callHost (c.recorded b) g.name host vs).run.run s).1 =
      ((callHost (c.recorded d) g.name host vs).run.run s').1 := fun host => (alike_callHost g.name host vs h).1
  simp only [hanswer]
  rfl

theorem hostCalls_recorded (h : s.Agrees s') : s.hostCalls (c.recorded b) = s'.hostCalls (c.recorded d) := by
  have hover : s.isOver (c.recorded b) = s'.isOver (c.recorded d) := by
    unfold State.isOver
    rw [h.steps]
    rfl
  have hcall : ∀ g vs, (c.recorded b).hostCall? g vs s = (c.recorded d).hostCall? g vs s' :=
    fun g vs => hostCall?_recorded g vs h
  have hline : ∀ (fr : Frame) i, fr.hostCalls (c.recorded b) s i = fr.hostCalls (c.recorded d) s' i := by
    intro fr i
    unfold Frame.hostCalls
    simp only [hcall]
    rfl
  unfold State.hostCalls
  rw [h.frames, hover]
  simp only [hline]

/-- The next instruction does the same with and without a record. -/
theorem step_recorded (h : s.Agrees s') :
    ((step (c.recorded b)).run.run s).1 = ((step (c.recorded d)).run.run s').1 ∧
      ((step (c.recorded b)).run.run s).2.Agrees ((step (c.recorded d)).run.run s').2 := by
  have htick : s.tick.Agrees s'.tick := ⟨h.memory, h.frames, congrArg (· + 1) h.steps, h.calls⟩
  cases hframes : s.frames with
  | nil =>
    rw [run_step_nil hframes, run_step_nil (h.frames ▸ hframes)]
    exact ⟨rfl, h⟩
  | cons fr rest =>
    have hover : s.isOver (c.recorded b) = s'.isOver (c.recorded d) := by
      unfold State.isOver
      rw [h.steps]
      rfl
    rw [run_step hframes, run_step (h.frames ▸ hframes), hover, h.frames]
    split
    · exact ⟨rfl, htick⟩
    · have hperform : Alike (perform (c.recorded b) fr) (perform (c.recorded d) fr) := by
        refine alike_perform ?_ ?_ fr <;> rfl
      obtain ⟨hr, hs, -⟩ := hperform htick
      exact ⟨hr, hs⟩

/-- An outcome of the next instruction, with another record. -/
theorem step_recorded_eq {r : Except Failure (Option Value)} (h : s.Agrees s')
    (hstep : (step (c.recorded b)).run.run s = (r, s₁)) :
    ∃ s₁', (step (c.recorded d)).run.run s' = (r, s₁') ∧ s₁.Agrees s₁' := by
  obtain ⟨hr, hs⟩ := step_recorded (c := c) (b := b) (d := d) h
  rw [hstep] at hr hs
  exact ⟨((step (c.recorded d)).run.run s').2, Prod.ext hr.symm rfl, hs⟩

theorem Goes.recorded (h : Goes (c.recorded b) s hs s₁) (hs' : s.Agrees s') (d : Bool) :
    ∃ s₁', Goes (c.recorded d) s' hs s₁' ∧ s₁.Agrees s₁' := by
  induction h generalizing s' with
  | refl s => exact ⟨s', .refl s', hs'⟩
  | step hstep _ ih =>
    obtain ⟨t, ht, hagrees⟩ := step_recorded_eq (d := d) hs' hstep
    obtain ⟨s₁', hgoes, hend⟩ := ih hagrees
    rw [hostCalls_recorded (d := d) hs']
    exact ⟨s₁', .step ht hgoes, hend⟩

theorem Finishes.recorded (h : Finishes (c.recorded b) s hs o s₁) (hs' : s.Agrees s') (d : Bool) :
    ∃ s₁', Finishes (c.recorded d) s' hs o s₁' ∧ s₁.Agrees s₁' := by
  induction h generalizing s' with
  | value hstep =>
    obtain ⟨t, ht, hagrees⟩ := step_recorded_eq (d := d) hs' hstep
    rw [hostCalls_recorded (d := d) hs']
    exact ⟨t, .value ht, hagrees⟩
  | failure hstep =>
    obtain ⟨t, ht, hagrees⟩ := step_recorded_eq (d := d) hs' hstep
    rw [hostCalls_recorded (d := d) hs']
    exact ⟨t, .failure ht, hagrees⟩
  | step hstep _ ih =>
    obtain ⟨t, ht, hagrees⟩ := step_recorded_eq (d := d) hs' hstep
    obtain ⟨s₁', hfinishes, hend⟩ := ih hagrees
    rw [hostCalls_recorded (d := d) hs']
    exact ⟨s₁', .step ht hfinishes, hend⟩

/-- A function is called in the same way with and without a record. -/
theorem invoke_recorded_eq {f : Function} {r : Except Failure (Option Value)}
    (hinvoke : (invoke (c.recorded b) f args 0).run.run {} = (r, s)) (d : Bool) :
    ∃ s', (invoke (c.recorded d) f args 0).run.run {} = (r, s') ∧ s.Agrees s' := by
  have hsame : Alike (invoke (c.recorded b) f args 0) (invoke (c.recorded d) f args 0) := by
    refine alike_invoke ?_ f args 0
    rfl
  obtain ⟨hr, hs, -⟩ := hsame (.rfl : State.Agrees {} {})
  rw [hinvoke] at hr hs
  exact ⟨((invoke (c.recorded d) f args 0).run.run {}).2, Prod.ext hr.symm rfl, hs⟩

theorem Config.Passes.recorded (h : (c.recorded b).Passes name args hs s) (d : Bool) :
    ∃ s', (c.recorded d).Passes name args hs s' ∧ s.Agrees s' := by
  obtain ⟨f, s₀, hfind, hinvoke, hgoes⟩ := h
  obtain ⟨t, ht, hagrees⟩ := invoke_recorded_eq hinvoke d
  obtain ⟨s', hgoes', hs'⟩ := hgoes.recorded hagrees d
  exact ⟨s', ⟨f, t, hfind, ht, hgoes'⟩, hs'⟩

theorem Config.Comes.recorded (h : (c.recorded b).Comes name args hs o s) (d : Bool) :
    ∃ s', (c.recorded d).Comes name args hs o s' ∧ s.Agrees s' := by
  cases h with
  | noFunction hfind => exact ⟨{}, .noFunction hfind, .rfl⟩
  | answered hfind hinvoke =>
    obtain ⟨t, ht, hagrees⟩ := invoke_recorded_eq hinvoke d
    rw [hostCall?_recorded (d := d) _ _ .rfl]
    exact ⟨t, .answered hfind ht, hagrees⟩
  | refused hfind hinvoke =>
    obtain ⟨t, ht, hagrees⟩ := invoke_recorded_eq hinvoke d
    rw [hostCall?_recorded (d := d) _ _ .rfl]
    exact ⟨t, .refused hfind ht, hagrees⟩
  | finished hfind hinvoke hrest =>
    obtain ⟨t, ht, hagrees⟩ := invoke_recorded_eq hinvoke d
    obtain ⟨s', hfinishes, hs'⟩ := hrest.recorded hagrees d
    exact ⟨s', .finished hfind ht hfinishes, hs'⟩

theorem steps_recorded (n : Nat) (h : s.Agrees s') :
    ((steps (c.recorded b) n).run.run s).1 = ((steps (c.recorded d) n).run.run s').1 ∧
      ((steps (c.recorded b) n).run.run s).2.Agrees ((steps (c.recorded d) n).run.run s').2 := by
  induction n generalizing s s' with
  | zero =>
    obtain ⟨hr, hs, -⟩ := alike_failWith (α := Value) ⟨.stepLimit, s!"step limit {c.limit} exceeded", []⟩ h
    exact ⟨hr, hs⟩
  | succ n ih =>
    rcases hstep : (step (c.recorded b)).run.run s with ⟨r, s₁⟩
    obtain ⟨s₁', hstep', hs₁⟩ := step_recorded_eq (d := d) h hstep
    simp only [steps, ExceptT.run_bind, StateT.run_bind, hstep, hstep']
    rcases r with f | _ | v
    · exact ⟨rfl, hs₁⟩
    · exact ih hs₁
    · exact ⟨rfl, hs₁⟩

/-- Running a function gives the same with and without a record. -/
theorem run_recorded (c : Config) (name : String) (args : List Value) (b d : Bool) :
    (run (c.recorded b) name args).1 = (run (c.recorded d) name args).1 ∧
      (run (c.recorded b) name args).2.Agrees (run (c.recorded d) name args).2 := by
  cases hfind : c.module.find? name with
  | none =>
    have hnone : ∀ b, run (c.recorded b) name args = (.noFunction name, {}) := by
      intro b
      have hfind' : (c.recorded b).module.find? name = none := hfind
      simp only [run, hfind']
    rw [hnone, hnone]
    exact ⟨rfl, .rfl⟩
  | some f =>
    have hfind' : ∀ b, (c.recorded b).module.find? name = some f := fun _ => hfind
    rcases hinvoke : (invoke (c.recorded b) f args 0).run.run {} with ⟨r, s⟩
    obtain ⟨s', hinvoke', hs⟩ := invoke_recorded_eq hinvoke d
    rw [run_of_find? (hfind' b), run_of_find? (hfind' d), hinvoke, hinvoke']
    rcases r with e | _ | v
    · exact ⟨rfl, hs⟩
    · obtain ⟨hr, hs'⟩ := steps_recorded (c := c) (b := b) (d := d) c.fuel hs
      exact ⟨congrArg Outcome.of hr, hs'⟩
    · exact ⟨rfl, hs⟩

end

/-! ### Limits and records -/

/-- A limit lets a run be as it is if it ends within the limit, and otherwise stops it there, with the calls of
the host that were made before. A detailed record changes neither what a run comes to nor what it does to the
memory, which calls of the host it makes and how many instructions it has. -/
theorem run_observed (c : Config) (name : String) (args : List Value) {m : Nat} (hm : 0 < m) :
    (∀ hs o s, c.unlimited.Comes name args hs o s → s.steps ≤ m →
      run (c.upTo m) name args = (o, s) ∧ (c.upTo m).Comes name args hs o s) ∧
    ((∀ hs o s, c.unlimited.Comes name args hs o s → m < s.steps) →
      ∃ f hs s, run (c.upTo m) name args = (.failure f, s.tick) ∧ f.code = .stepLimit ∧
        (c.upTo m).Comes name args hs (.failure f) s.tick ∧ c.unlimited.Passes name args hs s ∧ s.steps = m ∧
        ∀ hs' o s', c.unlimited.Comes name args hs' o s' → hs <+: hs') ∧
    ∀ b b', ((run (c.recorded b) name args).1 = (run (c.recorded b') name args).1 ∧
        (run (c.recorded b) name args).2.Agrees (run (c.recorded b') name args).2) ∧
      (∀ hs s, (c.recorded b).Passes name args hs s → ∃ s', (c.recorded b').Passes name args hs s' ∧ s.Agrees s') ∧
      ∀ hs o s, (c.recorded b).Comes name args hs o s → ∃ s', (c.recorded b').Comes name args hs o s' ∧
        s.Agrees s' := by
  refine ⟨fun hs o s h hsteps => ?_, fun hlong => ?_, fun b b' =>
    ⟨run_recorded c name args b b', fun hs s h => h.recorded b', fun hs o s h => h.recorded b'⟩⟩
  · have hcomes := h.upTo hsteps
    exact ⟨run_eq_of_comes hcomes (.inl hm), hcomes⟩
  · obtain ⟨hs, s, f, hpasses, hsteps, hcode, hcomes⟩ := exists_stop_of_comes hlong hm
    exact ⟨f, hs, s, run_eq_of_comes hcomes (.inl hm), hcode, hcomes, hpasses, hsteps,
      fun hs' o s' h => hpasses.isPrefix_of_comes h⟩

/-- A function that prints one again and again. -/
def printing : Config where
  module := { functions := #[
    { name := "main", sig := { params := [], ret := Scalar.void }, isDefined := true, registers := #[Scalar.void]
      blocks := #[{ name := "entry", lines := #[
        ⟨some 0, .call { params := [Scalar.ptr, Scalar.i64], ret := Scalar.void } (.func "print")
        [.null, .int .i64 1]⟩,
        ⟨none, .br 0⟩] }] },
    { name := "print", sig := { params := [Scalar.ptr, Scalar.i64], ret := Scalar.void } }] }
  hosts := [("print", .print)]
  limit := 0

/-- A run without an end is stopped after three instructions, two of which print. -/
theorem run_observed_of_printing : 0 < 3 ∧ ∃ f hs s, run (printing.upTo 3) "main" [] = (.failure f, s.tick) ∧
    f.code = .stepLimit ∧ printing.unlimited.Passes "main" [] hs s ∧ s.steps = 3 ∧ s.calls.size = 2 := by
  obtain ⟨hends, hstops, -⟩ := run_observed printing "main" [] (m := 3) (by decide)
  have hsteps : (run (printing.upTo 3) "main" []).2.steps = 4 := by decide +kernel
  have hcalls : (run (printing.upTo 3) "main" []).2.calls.size = 2 := by decide +kernel
  obtain ⟨f, hs, s, hrun, hcode, -, hpasses, hend, -⟩ := hstops fun hs o s h => Nat.lt_of_not_le fun hle => by
    have hrun := (hends hs o s h hle).1
    rw [hrun] at hsteps
    change s.steps = 4 at hsteps
    omega
  rw [hrun] at hcalls
  exact ⟨by decide, f, hs, s, hrun, hcode, hpasses, hend, hcalls⟩

end TypedScript.Machine
