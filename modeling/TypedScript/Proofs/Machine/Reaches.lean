import TypedScript.Proofs.Machine.Cascade
import TypedScript.Proofs.Machine.Step

/-!
# Runs without failures

`Executes c n s log s'` says that the next `n` instructions are executed without a failure and lead from the state
`s` to the state `s'`, and that nothing happens to objects on the way but what the record `log` tells.

`Reaches` leaves out of a state what the instructions of the helpers do not look at. There is one rule for each
instruction that they are made of. Unlike the rules for safe runs, a rule asks for all that an instruction needs
to succeed.
-/

namespace TypedScript.Machine

open TypedScript.Ir TypedScript.Layout

/-- What one instruction does to objects. -/
inductive Does : Memory → List Deed → Memory → Prop
  | nothing (M : Memory) : Does M [] M
  | lower {M : Memory} {id : Nat} {z : Int} (hcount : M.load (.ptr (.field id countSlot)) = .ok (.int z)) :
      Does M [.lower (id - 1)] (M.setCount id (z - 1))
  | back {M : Memory} {id : Nat} (hcheck : M.checkRelease (.ptr (.object id)) = .ok id) :
      Does M [.back (id - 1)] (M.giveBack id)

/-- Instructions are executed, none of them fails, and the run is not over. -/
inductive Executes (c : Config) : Nat → State → List Deed → State → Prop
  | refl (s : State) : Executes c 0 s [] s
  | step {n : Nat} {s s₁ s₂ : State} {log log' : List Deed} (hstep : (step c).run.run s = (.ok none, s₁))
      (hdoes : Does s.memory log s₁.memory) (hrest : Executes c n s₁ log' s₂) : Executes c (n + 1) s
        (log ++ log') s₂

section

variable {c : Config} {n n' : Nat} {s s₁ s₂ : State} {log log' : List Deed}

theorem Executes.trans (h₁ : Executes c n s log s₁) (h₂ : Executes c n' s₁ log' s₂) :
    Executes c (n + n') s (log ++ log') s₂ := by
  induction h₁ with
  | refl s => simpa using h₂
  | step hstep hdoes _ ih =>
    rw [Nat.add_right_comm, List.append_assoc]
    exact .step hstep hdoes (ih h₂)

end

/-! ### What a run reaches -/

/-- The instructions from here lead there, if the limit allows for them, whatever was printed and recorded before.
-/
def Reaches (c : Config) (M : Memory) (F : List Frame) (log : List Deed) (M' : Memory) (F' : List Frame) : Prop :=
  ∃ n, ∀ k calls events, c.limit = 0 ∨ k + n ≤ c.limit →
    ∃ events', Executes c n ⟨M, F, k, calls, events⟩ log ⟨M', F', k + n, calls, events'⟩

/-- The instruction at a line leads on. -/
def Moves (c : Config) (M : Memory) (fr : Frame) (rest : List Frame) (line : Line) (M₁ : Memory)
    (F₁ : List Frame) : Prop :=
  ∀ k calls events, after (execute c fr.function line)
    (fun r s => r = none ∧ ∃ events', s = ⟨M₁, F₁, k, calls, events'⟩)
    (fun _ _ => False) ⟨M, fr :: rest, k, calls, events⟩

section

variable {c : Config} {M M₁ M' M₂ : Memory} {F F₁ F' F₂ rest : List Frame} {fr : Frame}
    {log log' : List Deed} {line : Line}
  {dst : Option Nat} {k : Nat} {calls : Array (List Value)} {events : Array Event}

theorem Reaches.refl (M : Memory) (F : List Frame) : Reaches c M F [] M F :=
  ⟨0, fun _ _ events _ => ⟨events, .refl _⟩⟩

theorem Reaches.trans (h₁ : Reaches c M F log M₁ F₁) (h₂ : Reaches c M₁ F₁ log' M₂ F₂) :
    Reaches c M F (log ++ log') M₂ F₂ := by
  obtain ⟨n, h₁⟩ := h₁
  obtain ⟨n', h₂⟩ := h₂
  refine ⟨n + n', fun k calls events hlimit => ?_⟩
  obtain ⟨events₁, he₁⟩ := h₁ k calls events (by omega)
  obtain ⟨events₂, he₂⟩ := h₂ (k + n) calls events₁ (by omega)
  rw [← Nat.add_assoc]
  exact ⟨events₂, he₁.trans he₂⟩

/-- The next instruction leads on. -/
theorem reaches_next (hline : fr.line? = some line) (hmoves : Moves c M fr rest line M₁ F₁) (hdoes : Does M log M₁)
    (h : Reaches c M₁ F₁ log' M' F') : Reaches c M (fr :: rest) (log ++ log') M' F' := by
  have hl : (fr.function.blocks.getD fr.block default).lines[fr.next]? = some line := hline
  refine Reaches.trans ⟨1, fun k calls events hlimit => ?_⟩ h
  have hstep : after (step c) (fun r s => r = none ∧ ∃ events', s = ⟨M₁, F₁, k + 1, calls, events'⟩)
    (fun _ _ => False)
      ⟨M, fr :: rest, k, calls, events⟩ := by
    simp only [step, after_bind, after_get, after_modify, hl, after_ite]
    split
    · rename_i hover
      simp only [Bool.and_eq_true, decide_eq_true_eq] at hover
      omega
    · split
      · exact after_record fun events => hmoves _ _ _
      · exact hmoves _ _ _
  unfold after at hstep
  rcases hrun : (step c).run.run ⟨M, fr :: rest, k, calls, events⟩ with ⟨r, s⟩
  rw [hrun] at hstep
  cases r with
  | error f => exact hstep.elim
  | ok r =>
    obtain ⟨rfl, events', rfl⟩ := hstep
    have hone := Executes.step hrun hdoes (.refl _)
    rw [List.append_nil] at hone
    exact ⟨events', hone⟩

/-- An instruction that does nothing to objects leads on. -/
theorem reaches_quiet (hline : fr.line? = some line) (hmoves : Moves c M fr rest line M F₁)
    (h : Reaches c M F₁ log M' F') :
    Reaches c M (fr :: rest) log M' F' :=
  reaches_next hline hmoves (.nothing M) h

/-! ### Rules -/

theorem reaches_fieldAddr {s : Struct} {base : Operand} {slot : Nat} {b v : Value}
    (hline : fr.line? = some ⟨dst, .fieldAddr s base slot⟩) (hb : fr.value? base = some b)
    (hv : Memory.fieldAddr b slot = .ok v) (h : Reaches c M (fr.set dst v :: rest) log M' F') :
    Reaches c M (fr :: rest) log M' F' := by
  refine reaches_quiet hline (fun k calls events => ?_) h
  simp only [execute, after_bind]
  refine after_value hb ?_
  rw [hv]
  exact ⟨rfl, events, rfl⟩

theorem reaches_load {t : Ir.Ty} {addr : Operand} {a v : Value} (hline : fr.line? = some ⟨dst, .load t addr⟩)
    (ha : fr.value? addr = some a) (hv : M.load a = .ok v) (h : Reaches c M (fr.set dst v :: rest) log M' F') :
    Reaches c M (fr :: rest) log M' F' := by
  refine reaches_quiet hline (fun k calls events => ?_) h
  simp only [execute, after_bind]
  refine after_value ha ?_
  rw [after_get, hv]
  exact ⟨rfl, events, rfl⟩

/-- An owner is taken away: a count that is less by one is stored. -/
theorem reaches_lower {addr value : Operand} {id : Nat} {z : Int} (hline : fr.line? = some ⟨dst, .store addr value⟩)
    (ha : fr.value? addr = some (.ptr (.field id countSlot))) (hv : fr.value? value = some (.int (z - 1)))
    (hcount : M.load (.ptr (.field id countSlot)) = .ok (.int z))
    (h : Reaches c (M.setCount id (z - 1)) (fr.set none .invalid :: rest) log M' F') :
    Reaches c M (fr :: rest) (.lower (id - 1) :: log) M' F' := by
  refine reaches_next hline (fun k calls events => ?_) (.lower hcount) h
  have hlive : M.checkStore (.ptr (.field id countSlot)) = .ok () := by
    refine if_neg ?_
    rw [Memory.object_eq, (Memory.load_field_eq_ok hcount).2.1]
    decide
  simp only [execute, after_bind]
  refine after_value ha ?_
  refine after_value hv ?_
  rw [after_get, hlive]
  exact ⟨rfl, events, rfl⟩

theorem reaches_binary {op : Op} {x y : Operand} {a b v : Value} (hline : fr.line? = some ⟨dst, .binary op x y⟩)
    (ha : fr.value? x = some a) (hb : fr.value? y = some b) (hv : binary op (fr.function.typeOf? x) a b = .ok v)
    (h : Reaches c M (fr.set dst v :: rest) log M' F') : Reaches c M (fr :: rest) log M' F' := by
  refine reaches_quiet hline (fun k calls events => ?_) h
  simp only [execute, after_bind]
  refine after_value ha ?_
  refine after_value hb ?_
  rw [hv]
  exact ⟨rfl, events, rfl⟩

theorem reaches_compare {p : Pred} {x y : Operand} {a b v : Value} (hline : fr.line? = some ⟨dst, .compare p x y⟩)
    (ha : fr.value? x = some a) (hb : fr.value? y = some b) (hv : compare p a b = .ok v)
    (h : Reaches c M (fr.set dst v :: rest) log M' F') : Reaches c M (fr :: rest) log M' F' := by
  refine reaches_quiet hline (fun k calls events => ?_) h
  simp only [execute, after_bind]
  refine after_value ha ?_
  refine after_value hb ?_
  rw [hv]
  exact ⟨rfl, events, rfl⟩

/-- Control can enter the block. -/
def Function.Enters (f : Function) (b : Nat) : Prop := (f.blocks.getD b default).isEnded = true

theorem after_goto {f : Function} {b : Nat} (hb : f.Enters b) :
    after (do enterBlock f b; return none)
      (fun (r : Option Value) s => r = none ∧ ∃ events', s = ⟨M, fr.goto b :: rest, k, calls, events'⟩)
        (fun _ _ => False)
      ⟨M, fr :: rest, k, calls, events⟩ := by
  have hb' : (f.blocks.getD b default).isEnded = true := hb
  simp only [enterBlock, hb', Bool.not_true, Bool.false_eq_true, if_false]
  exact ⟨rfl, events, rfl⟩

theorem reaches_condBr {cond : Operand} {yes no : Nat} {b : Bool}
    (hline : fr.line? = some ⟨dst, .condBr cond yes no⟩) (hb : fr.value? cond = some (.bool b))
    (henters : fr.function.Enters (if b then yes else no))
    (h : Reaches c M (fr.goto (if b then yes else no) :: rest) log M' F') : Reaches c M (fr :: rest) log M' F' := by
  refine reaches_quiet hline (fun k calls events => ?_) h
  simp only [execute, after_bind]
  exact after_value hb (after_goto henters)

theorem reaches_br {block : Nat} (hline : fr.line? = some ⟨dst, .br block⟩) (henters : fr.function.Enters block)
    (h : Reaches c M (fr.goto block :: rest) log M' F') : Reaches c M (fr :: rest) log M' F' :=
  reaches_quiet hline (fun _ _ _ => after_goto henters) h

theorem reaches_ret {caller : Frame} (hline : fr.line? = some ⟨dst, .ret none⟩)
    (h : Reaches c M (caller.set (some fr.dst) .invalid :: rest) log M' F') :
    Reaches c M (fr :: caller :: rest) log M' F' :=
  reaches_quiet hline (fun _ _ events => ⟨rfl, events, rfl⟩) h

/-- A function without slots is entered. -/
theorem run_invoke {vs : List Value} {g : Function} {d : Nat} (hdefined : g.isDefined = true)
    (hslots : g.slots = []) (hlength : vs.length = g.sig.params.length) (henters : g.Enters 0) :
    (invoke c g vs d).run.run ⟨M, F, k, calls, events⟩ =
      (.ok none, ⟨M, Frame.enter g vs d M.cells.size :: F, k, calls, events⟩) := by
  have hgrow : M.grow g = M := by simp [Memory.grow, hslots]
  have hentry : (g.blocks.getD 0 default).isEnded = true := henters
  have hone : after (invoke c g vs d)
    (fun r s => r = none ∧ s = ⟨M.grow g, Frame.enter g vs d M.cells.size :: F, k, calls, events⟩)
      (fun _ _ => False) ⟨M, F, k, calls, events⟩ := by
    simp only [invoke, hdefined, hlength, enterBlock, hentry, Bool.not_true, Bool.false_eq_true, if_false, ne_eq,
      not_true_eq_false, after_bind, after_modify]
    exact ⟨rfl, rfl⟩
  unfold after at hone
  rcases hrun : (invoke c g vs d).run.run ⟨M, F, k, calls, events⟩ with ⟨r, s⟩
  rw [hrun] at hone
  cases r with
  | error f => exact hone.elim
  | ok r =>
    obtain ⟨rfl, rfl⟩ := hone
    rw [hgrow]

/-- A function without slots is called. -/
theorem reaches_call {sig : Sig} {callee : Operand} {args : List Operand} {name : String}
    {vs : List Value} {g : Function} (hline : fr.line? = some ⟨dst, .call sig callee args⟩)
    (hcallee : fr.value? callee = some (.ptr (.code name))) (hvs : args.mapM fr.value? = some vs)
    (hfind : c.module.find? name = some g) (hdefined : g.isDefined = true) (hslots : g.slots = [])
    (hlength : vs.length = g.sig.params.length) (henters : g.Enters 0)
    (h : Reaches c M (Frame.enter g vs (dst.getD 0) M.cells.size :: fr :: rest) log M' F') :
    Reaches c M (fr :: rest) log M' F' := by
  refine reaches_quiet hline (fun k calls events => ?_) h
  simp only [execute, after_bind]
  refine after_value hcallee ?_
  rw [after_bind]
  refine after_values hvs ?_
  simp only [hfind, after_bind]
  unfold after
  rw [run_invoke hdefined hslots hlength henters]
  exact ⟨rfl, events, rfl⟩

/-- The host takes back an object. -/
theorem reaches_back {sig : Sig} {callee : Operand} {args : List Operand} {name : String} {a : Value}
    {id : Nat} {g : Function} (hline : fr.line? = some ⟨dst, .call sig callee args⟩)
    (hcallee : fr.value? callee = some (.ptr (.code name)))
    (hvs : args.mapM fr.value? = some [a, .ptr (.object id)]) (hfind : c.module.find? name = some g)
    (hdefined : g.isDefined = false) (hhost : c.hosts.lookup g.name = some .release)
    (hcheck : M.checkRelease (.ptr (.object id)) = .ok id)
    (h : Reaches c (M.giveBack id) (fr.set dst .invalid :: rest) log M' F') :
    Reaches c M (fr :: rest) (.back (id - 1) :: log) M' F' := by
  refine reaches_next hline (fun k calls events => ?_) (.back hcheck) h
  simp only [execute, after_bind]
  refine after_value hcallee ?_
  rw [after_bind]
  refine after_values hvs ?_
  simp only [hfind, after_bind, invoke, hdefined, hhost, Bool.not_false, if_true, after_get]
  refine after_record fun events => ?_
  simp only [callHost, after_bind, after_get, hcheck, after_ofExcept]
  exact after_record fun events => ⟨rfl, events, rfl⟩

end

end TypedScript.Machine
