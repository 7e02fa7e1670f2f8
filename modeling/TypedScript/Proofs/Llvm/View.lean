import TypedScript.Llvm.Module
import TypedScript.Proofs.Machine.View

/-!
# LLVM modules seen from outside

Operands become values, and values are cast where the command does not say what they point to. None of this shows:
the module has more instructions than it was commanded, but the same functions, blocks and registers as any other
module that has carried out the commands.

* `Gives`: a step of building succeeds.
* `Hidden`: a step that does not show.
* `view_apply`: a command changes the view as it changes any.
-/

namespace TypedScript.Llvm

open TypedScript.Ir (Operand Scalar Shape View Command Instr Sig)

namespace Module

variable {α β : Type} {m m' : Module}

/-! ### Steps -/

/-- The step succeeds from `m` with the result `a` and leaves the module `m'`. -/
def Gives (act : BuildM α) (m : Module) (a : α) (m' : Module) : Prop := act.run m = .ok (a, m')

theorem gives_pure {a b : α} : Gives (pure a) m b m' ↔ b = a ∧ m' = m := by
  constructor
  · rintro h; cases h; exact ⟨rfl, rfl⟩
  · rintro ⟨rfl, rfl⟩; rfl

theorem gives_bind {x : BuildM α} {f : α → BuildM β} {b : β} :
    Gives (x >>= f) m b m' ↔ ∃ a t, Gives x m a t ∧ Gives (f a) t b m' := by
  simp only [Gives, StateT.run_bind]
  constructor
  · intro h
    cases hx : x.run m with
    | error e =>
      rw [hx] at h
      exact nomatch h
    | ok p =>
      rw [hx] at h
      exact ⟨p.1, p.2, rfl, h⟩
  · rintro ⟨a, t, hx, hf⟩
    rw [hx]
    exact hf

theorem gives_get_bind {f : Module → BuildM β} {b : β} : Gives (get >>= f) m b m' ↔ Gives (f m) m b m' := Iff.rfl

theorem gives_modify {f : Module → Module} {u : Unit} : Gives (modify f) m u m' ↔ m' = f m := by
  constructor
  · rintro h; cases h; rfl
  · rintro rfl; rfl

theorem gives_set {n : Module} {u : Unit} : Gives (set n) m u m' ↔ m' = n := by
  constructor
  · rintro h; cases h; rfl
  · rintro rfl; rfl

theorem gives_modifyGet {f : Module → α × Module} {a : α} : Gives (modifyGet f) m a m' ↔ a = (f m).1 ∧
    m' = (f m).2 := by
  have hrun : (modifyGet f : BuildM α).run m = .ok (f m) := rfl
  rw [Gives, hrun]
  constructor
  · intro h
    rw [Except.ok.inj h]
    exact ⟨rfl, rfl⟩
  · rintro ⟨rfl, rfl⟩; rfl

theorem not_gives_throw {e : Ir.Fault} {a : α} : ¬ Gives (throw e) m a m' := nofun

theorem not_gives_broken {message : String} {a : α} : ¬ Gives (broken message) m a m' := nofun

/-! ### What shows -/

end Module

def Function.shape (f : Function) : Shape where
  name := f.name
  sig := f.sig
  isDefined := f.isDefined
  blocks := f.blocks.toList.map fun b => (b.name, b.term.isSome)
  registers := f.registers.toList.map (·.type)

/-- The signature of a function, in both languages. -/
def Function.head (f : Function) : Sig × Ty × List (String × Ty) := (f.sig, f.ret, f.params)

namespace Module

variable {α β : Type} {m m' m'' : Module}

def view (m : Module) : View where
  functions := m.functions.toList.map Function.shape
  current := m.current
  block := m.block

/-- Every function has the parameters of its signature. -/
def Matched (m : Module) : Prop := ∀ f ∈ m.functions, f.params.length = f.sig.params.length

theorem shape?_view (m : Module) : m.view.shape? = m.function?.map Function.shape := by
  unfold View.shape? function?
  cases hc : m.current with
  | none => simp [view, hc]
  | some i => simp [view, hc]

theorem block?_view (m : Module) : m.view.block? = m.block?.map fun b => (b.name, b.term.isSome) := by
  rw [View.block?, shape?_view, block?]
  cases m.function? with
  | none => rfl
  | some f => simp [Function.shape, view]

/-- What shows has changed by `g`. Structs and signatures are as they were. -/
structure Turns (g : View → View) (m m' : Module) : Prop where
  view : m'.view = g m.view
  structs : m'.structs = m.structs
  heads : m'.functions.toList.map Function.head = m.functions.toList.map Function.head

/-- The modules show the same, and their registers hold the same. -/
structure Alike (m m' : Module) : Prop extends Turns id m m' where
  registers : m'.functions.toList.map (·.registers) = m.functions.toList.map (·.registers)

/-- What does not show may come first. -/
theorem Alike.after {g : View → View} (h : Alike m m') (h' : Turns g m' m'') : Turns g m m'' :=
  ⟨h'.view.trans (congrArg g h.view), h'.structs.trans h.structs, h'.heads.trans h.heads⟩

theorem Alike.refl (m : Module) : Alike m m := ⟨⟨rfl, rfl, rfl⟩, rfl⟩

theorem Alike.trans (h : Alike m m') (h' : Alike m' m'') : Alike m m'' :=
  ⟨h.after h'.toTurns, h'.registers.trans h.registers⟩

theorem Turns.matched {g : View → View} (h : Turns g m m') (hm : m.Matched) : m'.Matched := by
  intro f' hf'
  have hmem := List.mem_map_of_mem (f := Function.head) (Array.mem_toList_iff.2 hf')
  rw [h.heads] at hmem
  obtain ⟨f, hf, heq⟩ := List.mem_map.1 hmem
  obtain ⟨hsig, -, hparams⟩ : f.sig = f'.sig ∧ f.ret = f'.ret ∧ f.params = f'.params := by
    simpa [Function.head] using heq
  rw [← hsig, ← hparams]
  exact hm f (Array.mem_toList_iff.1 hf)

theorem modify_id (v : View) : v.modify id = v := by
  unfold View.modify
  split
  · rw [List.modify_id]
  · rfl

section

variable {f : Function → Function} {u : Unit} (h : Gives (modifyCurrent f) m u m')
include h

/-- What is the same in the function that is being defined is the same in all. -/
theorem map_modifyCurrent {γ : Type} {p : Function → γ} (hp : ∀ f₀, p (f f₀) = p f₀) :
    m'.functions.toList.map p = m.functions.toList.map p := by
  obtain rfl := gives_modify.1 h
  split
  · refine List.ext_getElem? fun j => ?_
    simp only [List.getElem?_map, Array.getElem?_toList, Array.getElem?_modify]
    split <;> cases m.functions[j]? <;> simp [hp]
  · rfl

/-- The function that is being defined is changed. -/
theorem turns_modifyCurrent {g : Shape → Shape} (hshape : ∀ f₀, (f f₀).shape = g f₀.shape)
    (hhead : ∀ f₀, (f f₀).head = f₀.head) : Turns (·.modify g) m m' := by
  refine ⟨?_, ?_, map_modifyCurrent h hhead⟩
  · obtain rfl := gives_modify.1 h
    cases hc : m.current with
    | none => simp [View.modify, view, hc]
    | some i =>
      have hfunctions : ((m.functions.modify i f).toList.map Function.shape) =
          (m.functions.toList.map Function.shape).modify i g := by
        refine List.ext_getElem? fun j => ?_
        simp only [List.getElem?_map, Array.getElem?_toList, Array.getElem?_modify, List.getElem?_modify]
        split <;> cases m.functions[j]? <;> simp_all
      simp only [view, View.modify, hc, hfunctions]
  · obtain rfl := gives_modify.1 h
    split <;> rfl

/-- The function that is being defined is changed in what does not show. -/
theorem alike_modifyCurrent (hshape : ∀ f₀, (f f₀).shape = f₀.shape) (hhead : ∀ f₀, (f f₀).head = f₀.head)
    (hregisters : ∀ f₀, (f f₀).registers = f₀.registers) : Alike m m' := by
  obtain ⟨hview, hstructs, hheads⟩ := turns_modifyCurrent (g := id) h hshape hhead
  exact ⟨⟨hview.trans (modify_id _), hstructs, hheads⟩, map_modifyCurrent h hregisters⟩

end

/-- A step that does not show. -/
def Hidden (act : BuildM α) : Prop := ∀ m a m', Gives act m a m' → Alike m m'

namespace Hidden

theorem pure (a : α) : Hidden (pure a : BuildM α) := by
  intro m b m' h
  obtain ⟨-, rfl⟩ := gives_pure.1 h
  exact .refl _

theorem broken (message : String) : Hidden (Module.broken message : BuildM α) :=
  fun _ _ _ h => (not_gives_broken h).elim

theorem throw (e : Ir.Fault) : Hidden (throw e : BuildM α) := fun _ _ _ h => (not_gives_throw h).elim

/-- The module is read. -/
theorem read {f : Module → BuildM β} (hf : ∀ m, Hidden (f m)) : Hidden (get >>= f) :=
  fun m a m' h => hf m m a m' (gives_get_bind.1 h)

theorem bind {x : BuildM α} {f : α → BuildM β} (hx : Hidden x) (hf : ∀ a, Hidden (f a)) : Hidden (x >>= f) := by
  intro m b m' h
  obtain ⟨a, t, hxa, hfa⟩ := gives_bind.1 h
  exact (hx m a t hxa).trans (hf a t b m' hfa)

theorem mapM {f : α → BuildM β} (hf : ∀ a, Hidden (f a)) (xs : List α) : Hidden (xs.mapM f) := by
  induction xs with
  | nil =>
    rw [List.mapM_nil]
    exact .pure _
  | cons x xs ih =>
    rw [List.mapM_cons]
    exact (hf x).bind fun _ => ih.bind fun _ => .pure _

end Hidden

/-- Values and casts are instructions, which do not show. -/
theorem hidden_appendTo (block : Nat) (type : Ty) (inst : Inst) : Hidden (appendTo block type inst) := by
  refine Hidden.read fun m => ?_
  split
  · exact .throw _
  · rename_i f hf
    refine Hidden.bind (fun m a m' h => alike_modifyCurrent h (fun f₀ => ?_) (fun _ => rfl) fun _ => rfl) fun _ =>
      .pure _
    simp only [Function.shape, Shape.mk.injEq, true_and, and_true]
    refine List.ext_getElem? fun j => ?_
    simp only [List.getElem?_map, Array.getElem?_toList, Array.getElem?_modify]
    split <;> cases f₀.blocks[j]? <;> simp

theorem hidden_append (type : Ty) (inst : Inst) : Hidden (append type inst) :=
  Hidden.read fun m => hidden_appendTo m.block type inst

theorem hidden_intern (s : String) : Hidden (intern s) := by
  intro m a m' h
  obtain ⟨-, rfl⟩ := gives_modifyGet.1 h
  split <;> exact ⟨⟨rfl, rfl, rfl⟩, rfl⟩

theorem hidden_unwrap (o : Operand) : Hidden (unwrap o) := by
  refine Hidden.read fun m => ?_
  split
  case h_2 => split <;> first | exact .pure _ | exact .broken _
  case h_6 => exact (hidden_intern _).bind fun _ => .pure _
  case h_7 => split <;> first | exact .pure _ | exact .throw _
  case h_8 => exact .broken _
  all_goals exact .pure _

theorem hidden_castTo (v : Val) (type : Ty) : Hidden (castTo v type) := by
  unfold castTo
  split
  · exact .pure _
  · split
    · exact .pure _
    · exact hidden_append _ _

theorem hidden_castPtr (v : Val) (type : Ty) : Hidden (castPtr v type) := by
  unfold castPtr
  split
  · exact hidden_castTo _ _
  · exact .pure _

/-- A value gets the next register. -/
theorem turns_bind {val : Val} {type : Ir.Ty} {u : Unit} (h : Gives (bind val type) m u m') :
    Turns (·.modify (·.addRegisters [type])) m m' :=
  turns_modifyCurrent h (fun f₀ => by simp [Function.shape, Shape.addRegisters]) fun _ => rfl

/-- Ending a block, if some function is being defined. -/
theorem gives_terminate {t : Term} {u : Unit} : Gives (terminate t) m u m' ↔ m.current.isNone = false ∧
    Gives (modifyCurrent fun f => { f with blocks := f.blocks.modify m.block fun b => { b with term := some t } })
      m u m' := by
  unfold terminate
  rw [gives_get_bind]
  dsimp only
  cases m.current.isNone with
  | true =>
    simp only [if_true, gives_bind, Bool.true_eq_false, false_and, iff_false]
    rintro ⟨_, _, hthrow, -⟩
    exact not_gives_throw hthrow
  | false => simp

/-- A block is ended. -/
theorem turns_terminate {t : Term} {u : Unit} (h : Gives (terminate t) m u m') :
    Turns (fun v => v.modify (·.endBlock v.block)) m m' := by
  have hturns : Turns (·.modify (·.endBlock m.block)) m m' := by
    refine turns_modifyCurrent (gives_terminate.1 h).2 (fun f₀ => ?_) fun _ => rfl
    simp only [Function.shape, Shape.endBlock, Shape.mk.injEq, true_and, and_true]
    refine List.ext_getElem? fun j => ?_
    simp only [List.getElem?_map, Array.getElem?_toList, Array.getElem?_modify, List.getElem?_modify]
    split <;> cases f₀.blocks[j]? <;> simp
  exact ⟨hturns.view, hturns.structs, hturns.heads⟩

/-! ### Instructions -/

/-- Functions that show the same are changed in the same way. -/
theorem modify_congr {v : View} {g g' : Shape → Shape} (h : ∀ f, v.shape? = some f → g f = g' f) :
    v.modify g = v.modify g' := by
  unfold View.modify
  cases hc : v.current with
  | none => rfl
  | some i =>
    have hfunctions : v.functions.modify i g = v.functions.modify i g' := by
      refine List.ext_getElem? fun j => ?_
      rw [List.getElem?_modify, List.getElem?_modify]
      split
      · rename_i heq
        subst heq
        cases hf : v.functions[i]? with
        | none => rfl
        | some f => exact congrArg some (h f (by simp [View.shape?, hc, hf]))
      · rfl
    simp only [hfunctions]

/-- The type of an operand is that in the view. -/
theorem gives_operandType {o : Operand} {t : Ir.Ty} (h : Gives (operandType o) m t m') :
    m' = m ∧ ∀ f, m.view.shape? = some f → t = f.typeOf o := by
  cases o with
  | reg r =>
    have hpure : Gives (pure ((m.function?.getD default).registers.getD r default).type) m t m' := h
    obtain ⟨rfl, rfl⟩ := gives_pure.1 hpure
    refine ⟨rfl, fun f hf => ?_⟩
    rw [shape?_view] at hf
    obtain ⟨f₀, hf₀, rfl⟩ := Option.map_eq_some_iff.1 hf
    rw [hf₀]
    simp only [Option.getD_some, Shape.typeOf, Function.shape, List.getD_eq_getElem?_getD, List.getElem?_map,
      Array.getElem?_toList, Array.getD_eq_getD_getElem?]
    cases f₀.registers[r]? <;> rfl
  | _ =>
    obtain ⟨rfl, rfl⟩ := gives_pure.1 h
    exact ⟨rfl, fun f _ => rfl⟩

/-- The view after an instruction. -/
abbrev addInstr (i : Instr) (v : View) : View := v.modify (·.addInstr v.block i)

/-- The instruction gives its result to the next register. -/
theorem Turns.result {i : Instr} {t : Ir.Ty} (h : Turns (·.modify (·.addRegisters [t])) m m')
    (hi : i.isTerminator = false) (ht : ∀ f, m.view.shape? = some f → f.result? i = some t) : Turns
    (addInstr i) m m' := by
  refine ⟨h.view.trans (modify_congr fun f hf => ?_), h.structs, h.heads⟩
  simp only [Shape.addInstr, hi, ht f hf, Option.toList_some, Bool.false_eq_true, if_false]

/-- The instruction ends the block. -/
theorem Turns.terminator {i : Instr} (h : Turns (fun v => v.modify (·.endBlock v.block)) m m')
    (hi : i.isTerminator = true) :
    Turns (addInstr i) m m' := by
  refine ⟨h.view.trans (modify_congr fun f hf => ?_), h.structs, h.heads⟩
  simp only [Shape.addInstr, hi, if_true]

/-- The result of an instruction is bound to the next register. -/
theorem turns_result {i : Instr} {t : Ir.Ty} {u : Unit} {x : BuildM Val} (hx : Hidden x)
    (h : Gives (x >>= fun v => bind v t) m u m') (hi : i.isTerminator = false)
    (ht : ∀ f, m.view.shape? = some f → f.result? i = some t) : Turns (addInstr i) m m' := by
  obtain ⟨v, t₁, hv, hbind⟩ := gives_bind.1 h
  exact Turns.result ((hx _ _ _ hv).after (turns_bind hbind)) hi ht

theorem turns_binary {op : Ir.Op} {x y : Operand} {u : Unit} (h : Gives (binary op x y) m u m') :
    Turns (addInstr (.binary op x y)) m m' := by
  obtain ⟨a, m₁, ha, h₁⟩ := gives_bind.1 h
  obtain ⟨b, m₂, hb, h₂⟩ := gives_bind.1 h₁
  obtain ⟨t, m₃, ht, h₃⟩ := gives_bind.1 h₂
  obtain ⟨rfl, htype⟩ := gives_operandType ht
  have hsame : Alike m m₃ := (hidden_unwrap x _ _ _ ha).trans (hidden_unwrap y _ _ _ hb)
  refine hsame.after (turns_result (hidden_append _ _) h₃ rfl fun f hf => ?_)
  rw [htype f hf]
  rfl

theorem hidden_checkComparable (double : Bool) (t : Ty) : Hidden (checkComparable double t) := by
  unfold checkComparable
  split <;> first | exact .pure _ | exact .broken _

theorem turns_compare {pred : Ir.Pred} {x y : Operand} {u : Unit} (h : Gives (compare pred x y) m u m') :
    Turns (addInstr (.compare pred x y)) m m' := by
  obtain ⟨a, m₁, ha, h₁⟩ := gives_bind.1 h
  obtain ⟨b, m₂, hb, h₂⟩ := gives_bind.1 h₁
  obtain ⟨t, m₃, ht, h₃⟩ := gives_bind.1 h₂
  obtain ⟨rfl, -⟩ := gives_operandType ht
  have hsame : Alike m m₃ := (hidden_unwrap x _ _ _ ha).trans (hidden_unwrap y _ _ _ hb)
  refine hsame.after ?_
  -- the last steps, whether the second value has been cast or not
  have hlast {n : Module} {b : Val} (h : Gives (do
      if (← get).current.isNone then throw .crash
      checkComparable (isDouble t) a.type
      bind (← append (.int 1) (.compare (compareName (isDouble t) pred) a b)) Scalar.i1) n u m') :
      Turns (addInstr (.compare pred x y)) n m' := by
    have h := gives_get_bind.1 h
    dsimp only at h
    split at h
    · obtain ⟨_, _, hthrow, -⟩ := gives_bind.1 h
      exact (not_gives_throw hthrow).elim
    · obtain ⟨_, n₁, hcheck, h₁⟩ := gives_bind.1 h
      exact Alike.after (hidden_checkComparable _ _ _ _ _ hcheck)
        (turns_result (hidden_append _ _) h₁ rfl fun _ _ => rfl)
  dsimp only at h₃
  split at h₃
  · obtain ⟨b', m₄, hb', h₄⟩ := gives_bind.1 h₃
    exact Alike.after (hidden_castTo _ _ _ _ _ hb') (hlast h₄)
  · obtain ⟨b', m₄, hb', h₄⟩ := gives_bind.1 h₃
    obtain ⟨-, rfl⟩ := gives_pure.1 hb'
    exact hlast h₄

theorem turns_load {type : Ir.Ty} {addr : Operand} {u : Unit} (h : Gives (load type addr) m u m') :
    Turns (addInstr (.load type addr)) m m' := by
  obtain ⟨a, m₁, ha, h₁⟩ := gives_bind.1 (gives_get_bind.1 h)
  obtain ⟨p, m₂, hp, h₂⟩ := gives_bind.1 h₁
  have hsame : Alike m m₂ := (hidden_unwrap addr _ _ _ ha).trans (hidden_castTo _ _ _ _ _ hp)
  exact hsame.after (turns_result (hidden_append _ _) h₂ rfl fun _ _ => rfl)

theorem turns_slotAddr {s : Ir.Struct} {base : Operand} {slot : Nat} {u : Unit}
    (h : Gives (slotAddr s base slot) m u m') :
    Turns (addInstr (.fieldAddr s base slot)) m m' := by
  have h₀ := gives_get_bind.1 h
  split at h₀
  · exact (not_gives_broken h₀).elim
  · obtain ⟨a, m₁, ha, h₁⟩ := gives_bind.1 h₀
    obtain ⟨p, m₂, hp, h₂⟩ := gives_bind.1 h₁
    have hsame : Alike m m₂ := (hidden_unwrap base _ _ _ ha).trans (hidden_castTo _ _ _ _ _ hp)
    refine hsame.after ?_
    have h₃ := gives_get_bind.1 h₂
    dsimp only at h₃
    split at h₃
    · obtain ⟨_, _, hthrow, -⟩ := gives_bind.1 h₃
      exact (not_gives_throw hthrow).elim
    · split at h₃
      · exact (not_gives_throw h₃).elim
      · exact turns_result (hidden_append _ _) h₃ rfl fun _ _ => rfl

theorem turns_call {sig : Sig} {callee : Operand} {args : List Operand} {u : Unit}
    (h : Gives (call sig callee args) m u m') :
    Turns (addInstr (.call sig callee args)) m m' := by
  obtain ⟨vs, m₁, hargs, h₁⟩ := gives_bind.1 h
  have hvs : Alike m m₁ := by
    refine Hidden.mapM (fun p => ?_) _ _ _ _ hargs
    refine (hidden_unwrap _).bind fun x => ?_
    split
    · exact .read fun m => hidden_castPtr _ _
    · exact .pure _
  refine hvs.after ?_
  split at h₁
  · have h₂ := gives_get_bind.1 h₁
    split at h₂
    · exact (not_gives_throw h₂).elim
    · exact turns_result (hidden_append _ _) h₂ rfl fun _ _ => rfl
  · obtain ⟨a, m₂, ha, h₂⟩ := gives_bind.1 (gives_get_bind.1 h₁)
    obtain ⟨f, m₃, hf, h₃⟩ := gives_bind.1 h₂
    have hsame : Alike m₁ m₃ := (hidden_unwrap _ _ _ _ ha).trans (hidden_castTo _ _ _ _ _ hf)
    exact hsame.after (turns_result (hidden_append _ _) h₃ rfl fun _ _ => rfl)

theorem turns_store {addr v : Operand} {u : Unit} (h : Gives (store addr v) m u m') :
    Turns (addInstr (.store addr v)) m m' := by
  have hhidden : Hidden (store addr v) := (hidden_unwrap v).bind fun x => (hidden_unwrap addr).bind fun a =>
    (hidden_castTo _ _).bind fun p => (hidden_append _ _).bind fun _ => .pure _
  obtain ⟨⟨hview, hstructs, hheads⟩, -⟩ := hhidden _ _ _ h
  refine ⟨hview.trans ((modify_id _).symm.trans (modify_congr fun f _ => ?_)), hstructs, hheads⟩
  simp [Shape.addInstr, Instr.isTerminator, Shape.result?, Shape.addRegisters]

theorem turns_ret {v : Option Operand} {u : Unit} (h : Gives (ret v) m u m') : Turns (addInstr (.ret v)) m m' := by
  cases v with
  | none => exact (turns_terminate h).terminator rfl
  | some v =>
    obtain ⟨x, m₁, hx, h₁⟩ := gives_bind.1 h
    have h₂ := gives_get_bind.1 h₁
    refine Alike.after (hidden_unwrap _ _ _ _ hx) ?_
    split at h₂
    · split at h₂
      · exact (not_gives_broken h₂).elim
      · exact (not_gives_throw h₂).elim
    · obtain ⟨w, m₂, hw, h₃⟩ := gives_bind.1 h₂
      exact Alike.after (hidden_castPtr _ _ _ _ _ hw) ((turns_terminate h₃).terminator rfl)

theorem turns_instr {i : Instr} {u : Unit} (h : Gives (instr i) m u m') : Turns (addInstr i) m m' := by
  cases i with
  | fieldAddr s base slot => exact turns_slotAddr h
  | load type addr => exact turns_load h
  | store addr v => exact turns_store h
  | call sig callee args => exact turns_call h
  | binary op x y => exact turns_binary h
  | compare pred x y => exact turns_compare h
  | condBr cond t e =>
    obtain ⟨c, m₁, hc, h₁⟩ := gives_bind.1 h
    exact Alike.after (hidden_unwrap _ _ _ _ hc) ((turns_terminate h₁).terminator rfl)
  | br b => exact (turns_terminate h).terminator rfl
  | ret v => exact turns_ret h

/-! ### Commands -/

theorem find?_view (m : Module) (name : String) :
    m.view.functions.find? (·.name = name) = (m.find? name).map Function.shape := by
  rw [view, List.find?_map, find?, ← Array.find?_toList]
  rfl

theorem any_view (m : Module) (name : String) : m.view.functions.any (·.name = name) = (m.find? name).isSome := by
  rw [← List.isSome_find?, find?_view, Option.isSome_map]

theorem index?_view (m : Module) (name : String) : m.view.functions.findIdx? (·.name = name) = m.index? name := by
  rw [view, List.findIdx?_map, index?, ← Ir.findIdx?_toList]
  rfl

theorem shape_begun {f : Function} (h : f.params.length = f.sig.params.length) :
    Function.shape { f with
      isDefined := true, blocks := #[{ name := "entry" }]
      registers := ((f.params.zip f.sig.params).map fun ((n, t), p) => (⟨.param n t, p⟩ : Register)).toArray } =
        f.shape.begun := by
  have hregisters : ((f.params.zip f.sig.params).map fun ((n, t), p) => (⟨.param n t, p⟩ : Register)).map (·.type) =
      f.sig.params := by
    rw [List.map_map]
    exact List.map_snd_zip (Nat.le_of_eq h.symm)
  simp only [Function.shape, Shape.begun, hregisters]
  rfl

/-- A command that a module carries out changes its view as it changes any. -/
theorem gives_command {c : Command} {u : Unit} (h : Gives (command c) m u m') (hm : m.Matched) :
    m'.view = m.view.apply c ∧ m'.Matched := by
  cases c with
  | declareStruct s =>
    obtain rfl := gives_modify.1 h
    split
    · exact ⟨rfl, hm⟩
    · exact ⟨rfl, hm⟩
  | declareFunc name sig =>
    obtain rfl := gives_modify.1 h
    simp only [View.apply, any_view]
    split
    · exact ⟨rfl, hm⟩
    · refine ⟨by simp [view, Function.shape], fun f hf => ?_⟩
      rcases Array.mem_push.1 hf with hf | rfl
      · exact hm f hf
      · simp
  | define name =>
    have h₀ := gives_get_bind.1 h
    split at h₀
    · exact (not_gives_throw h₀).elim
    · rename_i i hi
      dsimp only at h₀
      split at h₀
      · obtain ⟨_, _, hbroken, -⟩ := gives_bind.1 h₀
        exact (not_gives_broken hbroken).elim
      · obtain rfl := gives_set.1 h₀
        obtain ⟨hlt, -⟩ := Array.findIdx?_eq_some_iff_findIdx_eq.1 hi
        have hget : m.functions.getD i default = m.functions[i] := by simp [Array.getD_eq_getD_getElem?, hlt]
        have hlength := hm m.functions[i] (Array.getElem_mem hlt)
        rw [hget]
        refine ⟨?_, fun f hf => ?_⟩
        · have hindex := (index?_view m name).trans hi
          simp only [View.apply, (List.findIdx?_eq_some_iff_findIdx_eq.1 hindex).2]
          refine View.mk.injEq .. ▸ ⟨List.ext_getElem? fun j => ?_, rfl, rfl⟩
          simp only [view, List.getElem?_map, Array.getElem?_toList, Array.getElem?_setIfInBounds,
            List.getElem?_modify]
          split
          · rename_i heq
            subst heq
            rw [Array.getElem?_eq_getElem hlt]
            exact congrArg some (shape_begun hlength)
          · cases m.functions[j]? <;> rfl
        · rcases Array.mem_or_eq_of_mem_setIfInBounds hf with hf | rfl
          · exact hm f hf
          · exact hlength
  | newBlock name =>
    have h₀ := gives_get_bind.1 h
    split at h₀
    · exact (not_gives_broken h₀).elim
    · rename_i f hf
      have hturns := turns_modifyCurrent h₀
        (g := fun f' => { f' with blocks := f'.blocks ++ [(s!"{name}.{f.blocks.size}", false)] })
        (fun f₀ => by simp [Function.shape]) fun _ => rfl
      refine ⟨hturns.view.trans (modify_congr fun f' hf' => ?_), hturns.matched hm⟩
      rw [shape?_view, hf, Option.map_some] at hf'
      obtain rfl := Option.some.inj hf'
      simp [Shape.addBlock, Function.shape]
  | setInsert b =>
    obtain rfl := gives_modify.1 h
    exact ⟨rfl, hm⟩
  | constant c =>
    have hsame := (hidden_unwrap c).bind (fun _ => .pure _) _ _ _ h
    exact ⟨hsame.view, hsame.matched hm⟩
  | alloca type =>
    have h₀ := gives_get_bind.1 h
    dsimp only at h₀
    split at h₀
    · obtain ⟨_, _, hbroken, -⟩ := gives_bind.1 h₀
      exact (not_gives_broken hbroken).elim
    · have h₁ := gives_get_bind.1 h₀
      obtain ⟨v, t, hv, hbind⟩ := gives_bind.1 h₁
      have hturns := Alike.after (hidden_appendTo _ _ _ _ _ _ hv) (turns_bind hbind)
      exact ⟨hturns.view, hturns.matched hm⟩
  | instr i =>
    have hturns := turns_instr h
    exact ⟨hturns.view, hturns.matched hm⟩

theorem apply_eq_ok {c : Command} : m.apply c = .ok m' ↔ ∃ u, Gives (command c) m u m' := by
  have happly : m.apply c = ((command c).run m).map Prod.snd := by
    unfold apply
    cases (command c).run m <;> rfl
  rw [happly]
  unfold Gives
  cases (command c).run m with
  | error e => simp [Except.map]
  | ok p => simp [Except.map, Prod.ext_iff]

/-- A value that is absent is refused. -/
theorem absent_refused {i : Instr} (hi : Machine.asked? i = some .absent)
    (h : m.apply (.instr i) = .ok m') : False := by
  obtain ⟨u, hgives⟩ := apply_eq_ok.1 h
  have hunwrap {a : Val} {t : Module} : ¬ Gives (unwrap .absent) m a t := not_gives_broken
  cases i with
  | binary op x y =>
    obtain rfl : x = .absent := Option.some.inj hi
    obtain ⟨a, t, ha, -⟩ := gives_bind.1 hgives
    exact hunwrap ha
  | compare pred x y =>
    obtain rfl : x = .absent := Option.some.inj hi
    obtain ⟨a, t, ha, -⟩ := gives_bind.1 hgives
    exact hunwrap ha
  | _ => exact nomatch hi

theorem view_apply {c : Command} (h : m.apply c = .ok m') (hm : m.Matched) : m'.view = m.view.apply c ∧
    m'.Matched := by
  obtain ⟨u, h⟩ := apply_eq_ok.1 h
  exact gives_command h hm

end Module

end TypedScript.Llvm
