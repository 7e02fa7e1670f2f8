import TypedScript.Proofs.Llvm.View

/-!
# Commands that keep the contract

A module refuses what has no value, and what has no type that it knows of. The contract that commands should keep
says that every operand has a value, that an address is that of a slot of the struct that was declared first under
its name, that what is compared is no struct and no function, and that a function is called for the result that it
was declared with.

* `obeys`: the contract, read off the commands.
* `apply_ok`: a command that keeps the contract is carried out if the machine carries it out.
* `Defines.foldlM`: of the structs of one name the first is defined.
-/

namespace TypedScript.Ir

/-- Values of the type can be compared. -/
def Ty.isComparable : Ty → Bool
  | .scalar s => s != .void
  | _ => false

/-- The operand has a value. -/
def Operand.hasValue (v : View) : Operand → Bool
  | .int t _ => t.intBits?.isSome
  | .func name => v.functions.any (·.name = name)
  | .absent => false
  | _ => true

/-- What an instruction asks of its operands, apart from having values. -/
def Instr.suits (structs : List Struct) (v : View) : Instr → Bool
  | .fieldAddr s _ slot => (structs.find? (·.name = s.name)).any fun t => decide (slot < t.fields.length)
  | .compare _ x _ => v.shape?.any fun f => (f.typeOf x).isComparable
  | .call sig (.func name) _ => (v.functions.find? (·.name = name)).any fun f => f.sig.ret == sig.ret
  | _ => true

/-- The command keeps the contract, after the structs have been declared. -/
def Command.obeys (structs : List Struct) (v : View) : Command → Bool
  | .constant c => c.hasValue v
  | .instr i => (Machine.operands i).all (·.hasValue v) && i.suits structs v
  | _ => true

/-- The structs after a command. -/
def Command.structsAfter (structs : List Struct) : Command → List Struct
  | .declareStruct s => structs ++ [s]
  | _ => structs

/-- The struct consists of scalars. -/
def Struct.IsFlat (t : Struct) : Prop := ∀ type ∈ t.fields, ∃ x : Scalar, type = x

/-- The commands keep the contract. -/
def obeys (structs : List Struct) (v : View) : List Command → Bool
  | [] => true
  | c :: cs => c.obeys structs v && obeys (c.structsAfter structs) (v.apply c) cs

/-- No instruction has an operand that is absent. -/
theorem absent_notMem_of_obeys {structs : List Struct} {v : View} {cs : List Command}
    (h : obeys structs v cs = true) {ins : Instr} (hins : .instr ins ∈ cs) : .absent ∉ Machine.operands ins := by
  induction cs generalizing structs v with
  | nil => exact nomatch hins
  | cons c cs ih =>
    obtain ⟨hc, hcs⟩ := Bool.and_eq_true_iff.1 h
    rcases List.mem_cons.1 hins with rfl | hins
    · intro hmem
      exact nomatch List.all_eq_true.1 (Bool.and_eq_true_iff.1 hc).1 .absent hmem
    · exact ih hcs hins

end TypedScript.Ir

namespace TypedScript.Llvm

open TypedScript.Ir (Operand Scalar Shape View Command Instr Sig Struct)

/-- A value of the LLVM type can stand for one of the type, as far as comparing goes. -/
def Carries (t : Ty) : Ir.Ty → Prop
  | .scalar .void => True
  | .scalar .ptr => t.isPtr = true
  | .scalar .f64 => t = .double
  | .scalar _ => ∃ bits, t = .int bits
  | _ => True

theorem carries_typeOf (m : Module) (t : Ir.Ty) : Carries (m.typeOf t) t := by
  cases t with
  | scalar s => cases s <;> simp [Carries, Module.typeOf, ofTy, ofScalar, Scalar.intBits?, Ty.bytePtr, Ty.isPtr]
  | _ => trivial

theorem carries_ptr (t : Ty) : Carries (.ptr t) Scalar.ptr := rfl

theorem carries_i1 : Carries (.int 1) Scalar.i1 := ⟨1, rfl⟩

/-- What the types of scalars are is decided by their equality. -/
theorem Carries.of_beq {type : Ty} {t t' : Ir.Ty} (h : Carries type t) (ht : (t == t') = true) :
    Carries type t' := by
  cases t' with
  | scalar s' =>
    cases t with
    | scalar s =>
      obtain rfl : s = s' := by simpa using ht
      exact h
    | _ => exact nomatch ht
  | _ => trivial

namespace Module

variable {α β : Type} {m m' : Module} {structs : List Struct} {v : View} {f : Shape}

/-- What holds of the signatures of functions does not depend on anything else. -/
theorem forall_head {P : Sig × Ty × List (String × Ty) → Prop} (h : ∀ f ∈ m.functions, P f.head)
    (hheads : m'.functions.toList.map Function.head = m.functions.toList.map Function.head) : ∀ f ∈ m'.functions,
    P f.head := by
  intro f' hf'
  have hmem := List.mem_map_of_mem (f := Function.head) (Array.mem_toList_iff.2 hf')
  rw [hheads] at hmem
  obtain ⟨f, hf, heq⟩ := List.mem_map.1 hmem
  exact heq ▸ h f (Array.mem_toList_iff.1 hf)

/-- The signature of a function is that of the types that it stands for. -/
def Fits (head : Sig × Ty × List (String × Ty)) : Prop :=
  Carries head.2.1 head.1.ret ∧ ∀ p ∈ head.2.2.zip head.1.params, Carries p.1.2 p.2

/-- The module has the structs, and its values are of the types that they stand for. -/
structure Solid (structs : List Struct) (m : Module) : Prop where
  structs : ∀ name, (m.structs.lookup name).map (·.length) = (structs.find? (·.name = name)).map (·.fields.length)
  heads : ∀ f ∈ m.functions, Fits f.head
  registers : ∀ f ∈ m.functions, ∀ r ∈ f.registers, Carries r.val.type r.type

/-- Registers and signatures decide. -/
theorem Solid.of_map (h : m.Solid structs) (hstructs : m'.structs = m.structs)
    (hheads : m'.functions.toList.map Function.head = m.functions.toList.map Function.head)
    (hregisters : m'.functions.toList.map (·.registers) = m.functions.toList.map (·.registers)) :
    m'.Solid structs := by
  refine ⟨hstructs ▸ h.structs, forall_head h.heads hheads, fun f' hf' => ?_⟩
  have hmem := List.mem_map_of_mem (f := Function.registers) (Array.mem_toList_iff.2 hf')
  rw [hregisters] at hmem
  obtain ⟨f, hf, heq⟩ := List.mem_map.1 hmem
  exact heq ▸ h.registers f (Array.mem_toList_iff.1 hf)

/-- The function with the shape `f` is being defined, in a module that shows `v`. -/
structure Ready (structs : List Struct) (v : View) (f : Shape) (m : Module) : Prop where
  solid : m.Solid structs
  view : m.view = v
  shape : v.shape? = some f

theorem Ready.alike (h : Ready structs v f m) (ha : Alike m m') : Ready structs v f m' :=
  ⟨h.solid.of_map ha.structs ha.heads ha.registers, ha.view.trans h.view, h.shape⟩

theorem Ready.function? (h : Ready structs v f m) : ∃ f₀, m.function? = some f₀ ∧ f₀.shape = f ∧
    f₀ ∈ m.functions := by
  have hshape := h.shape
  rw [← h.view, shape?_view] at hshape
  obtain ⟨f₀, hf₀, heq⟩ := Option.map_eq_some_iff.1 hshape
  obtain ⟨i, -, hi⟩ := Option.bind_eq_some_iff.1 hf₀
  exact ⟨f₀, hf₀, heq, Array.mem_of_getElem? hi⟩

theorem Ready.current (h : Ready structs v f m) : m.current.isNone = false := by
  obtain ⟨f₀, hf₀, -⟩ := h.function?
  obtain ⟨i, hi, -⟩ := Option.bind_eq_some_iff.1 hf₀
  rw [hi]
  rfl

/-! ### Steps that succeed -/

/-- The step succeeds with a result that has the property. -/
def Succeeds (act : BuildM α) (m : Module) (P : α → Prop) : Prop := ∃ a m', Gives act m a m' ∧ P a

namespace Succeeds

variable {P : α → Prop}

theorem pure {a : α} (h : P a) : Succeeds (pure a) m P := ⟨a, m, gives_pure.2 ⟨rfl, rfl⟩, h⟩

theorem read {g : Module → BuildM α} (h : Succeeds (g m) m P) : Succeeds (get >>= g) m P := h

theorem modify {g : Module → Module} {k : Unit → BuildM α} (h : Succeeds (k ()) (g m) P) : Succeeds
    (modify g >>= k) m P := h

theorem modifyGet {g : Module → β × Module} {k : β → BuildM α} (h : Succeeds (k (g m).1) (g m).2 P) :
    Succeeds (modifyGet g >>= k) m P := h

end Succeeds

/-- The step succeeds without a trace that shows, and its result has the property. -/
def Goes (structs : List Struct) (v : View) (f : Shape) (act : BuildM α) (P : α → Prop) : Prop :=
  ∀ m, Ready structs v f m → ∃ a m', Gives act m a m' ∧ Ready structs v f m' ∧ P a

/-- The step succeeds and keeps the module solid. -/
def Ends (structs : List Struct) (v : View) (f : Shape) (act : BuildM Unit) : Prop :=
  ∀ m, Ready structs v f m → ∃ m', Gives act m () m' ∧ m'.Solid structs

namespace Goes

variable {x : BuildM α} {P : α → Prop}

theorem of_hidden (h : Hidden x) (hx : ∀ m, Ready structs v f m → Succeeds x m P) : Goes structs v f x P := by
  intro m hm
  obtain ⟨a, m', ha, hP⟩ := hx m hm
  exact ⟨a, m', ha, hm.alike (h m a m' ha), hP⟩

theorem imp {Q : α → Prop} (h : Goes structs v f x P) (hQ : ∀ a, P a → Q a) : Goes structs v f x Q := by
  intro m hm
  obtain ⟨a, m', ha, hm', hP⟩ := h m hm
  exact ⟨a, m', ha, hm', hQ a hP⟩

theorem pure {a : α} (h : P a) : Goes structs v f (pure a) P := fun m hm => ⟨a, m, gives_pure.2 ⟨rfl, rfl⟩, hm, h⟩

theorem read {g : Module → BuildM α}
    (h : ∀ m, Ready structs v f m → ∃ a m', Gives (g m) m a m' ∧ Ready structs v f m' ∧ P a) :
    Goes structs v f (get >>= g) P := h

theorem bind {g : α → BuildM β} {Q : β → Prop} (h : Goes structs v f x P)
    (hg : ∀ a, P a → Goes structs v f (g a) Q) :
    Goes structs v f (x >>= g) Q := by
  intro m hm
  obtain ⟨a, t, ha, ht, hP⟩ := h m hm
  obtain ⟨b, m', hb, hm', hQ⟩ := hg a hP t ht
  exact ⟨b, m', gives_bind.2 ⟨a, t, ha, hb⟩, hm', hQ⟩

/-- The last step may show. -/
theorem ends {g : α → BuildM Unit} (h : Goes structs v f x P) (hg : ∀ a, P a → Ends structs v f (g a)) :
    Ends structs v f (x >>= g) := by
  intro m hm
  obtain ⟨a, t, ha, ht, hP⟩ := h m hm
  obtain ⟨m', hm', hsolid⟩ := hg a hP t ht
  exact ⟨m', gives_bind.2 ⟨a, t, ha, hm'⟩, hsolid⟩

theorem mapM {g : α → BuildM β} {xs : List α} (h : ∀ a ∈ xs, Goes structs v f (g a) fun _ => True) :
    Goes structs v f (xs.mapM g) fun _ => True := by
  induction xs with
  | nil =>
    rw [List.mapM_nil]
    exact .pure trivial
  | cons a as ih =>
    rw [List.forall_mem_cons] at h
    rw [List.mapM_cons]
    exact h.1.bind fun _ _ => (ih h.2).bind fun _ _ => .pure trivial

end Goes

/-- The module is read. -/
theorem Ends.read {g : Module → BuildM Unit}
    (h : ∀ m, Ready structs v f m → ∃ m', Gives (g m) m () m' ∧ m'.Solid structs) :
    Ends structs v f (get >>= g) := h

theorem goes_appendTo (block : Nat) (type : Ty) (inst : Inst) :
    Goes structs v f (appendTo block type inst) fun x => x.type = type := by
  refine .of_hidden (hidden_appendTo block type inst) fun m hm => ?_
  obtain ⟨f₀, hf₀, -⟩ := hm.function?
  refine .read ?_
  simp only [hf₀]
  exact .modify (.pure rfl)

theorem goes_append (type : Ty) (inst : Inst) : Goes structs v f (append type inst) fun x => x.type = type := by
  unfold append
  exact .read fun m hm => goes_appendTo m.block type inst m hm

theorem goes_castTo (x : Val) (type : Ty) : Goes structs v f (castTo x type) fun _ => True := by
  unfold castTo
  split
  · exact .pure trivial
  · split
    · exact .pure trivial
    · exact (goes_append type _).imp fun _ _ => trivial

theorem goes_castPtr (x : Val) (type : Ty) : Goes structs v f (castPtr x type) fun _ => True := by
  unfold castPtr
  split
  · exact goes_castTo _ _
  · exact .pure trivial

/-- An operand that has a value becomes one of its type. -/
theorem succeeds_unwrap (hm : m.Solid structs) {o : Operand} (ho : o.hasValue m.view = true) :
    Succeeds (unwrap o) m fun x => ∀ f, m.view.shape? = some f → Carries x.type (f.typeOf o) := by
  cases o with
  | reg r =>
    refine .read (.pure fun f hf => ?_)
    rw [shape?_view] at hf
    obtain ⟨f₀, hf₀, rfl⟩ := Option.map_eq_some_iff.1 hf
    obtain ⟨i, -, hi⟩ := Option.bind_eq_some_iff.1 hf₀
    rw [hf₀, Option.getD_some, Array.getD_eq_getD_getElem?]
    simp only [Shape.typeOf, Function.shape, List.getD_eq_getElem?_getD, List.getElem?_map, Array.getElem?_toList]
    cases hr : f₀.registers[r]? with
    | none => trivial
    | some x => exact hm.registers f₀ (Array.mem_of_getElem? hi) x (Array.mem_of_getElem? hr)
  | int t n =>
    obtain ⟨bits, hbits⟩ := Option.isSome_iff_exists.1 ho
    refine .read ?_
    simp only [hbits]
    refine .pure fun f _ => ?_
    cases t <;> first | exact ⟨bits, rfl⟩ | cases hbits
  | string s => exact .read (.modifyGet (.pure fun _ _ => rfl))
  | func name =>
    have hfind : (m.find? name).isSome = true := by
      rw [← any_view]
      exact ho
    obtain ⟨g, hg⟩ := Option.isSome_iff_exists.1 hfind
    refine .read ?_
    simp only [hg]
    exact .pure fun _ _ => rfl
  | absent => cases ho
  | float x => exact .read (.pure fun _ _ => rfl)
  | bool b => exact .read (.pure fun _ _ => ⟨_, rfl⟩)
  | null => exact .read (.pure fun _ _ => rfl)

theorem goes_unwrap {o : Operand} (ho : o.hasValue v = true) :
    Goes structs v f (unwrap o) fun x => Carries x.type (f.typeOf o) := by
  refine .of_hidden (hidden_unwrap o) fun m hm => ?_
  obtain ⟨x, m', hx, hcarries⟩ := succeeds_unwrap hm.solid (hm.view ▸ ho)
  exact ⟨x, m', hx, hcarries f (hm.view ▸ hm.shape)⟩

theorem goes_operandType (o : Operand) : Goes structs v f (operandType o) fun t => t = f.typeOf o := by
  intro m hm
  have hgives : ∃ t, Gives (operandType o) m t m := by
    cases o with
    | reg r => exact ⟨((m.function?.getD default).registers.getD r default).type, gives_pure.2 ⟨rfl, rfl⟩⟩
    | _ => exact ⟨_, gives_pure.2 ⟨rfl, rfl⟩⟩
  obtain ⟨t, ht⟩ := hgives
  exact ⟨t, m, ht, hm, (gives_operandType ht).2 f (hm.view ▸ hm.shape)⟩

/-! ### Steps that show -/

/-- The functions after one of them was changed. -/
theorem mem_modifyCurrent {g : Function → Function} {u : Unit} (h : Gives (modifyCurrent g) m u m') {f' : Function}
    (hf' : f' ∈ m'.functions) : f' ∈ m.functions ∨ ∃ f ∈ m.functions, f' = g f := by
  obtain rfl := gives_modify.1 h
  split at hf'
  · obtain ⟨j, hj⟩ := Array.mem_iff_getElem?.1 hf'
    rw [Array.getElem?_modify] at hj
    split at hj
    · obtain ⟨f, hf, rfl⟩ := Option.map_eq_some_iff.1 hj
      exact .inr ⟨f, Array.mem_of_getElem? hf, rfl⟩
    · exact .inl (Array.mem_of_getElem? hj)
  · exact .inl hf'

theorem ends_bind {x : Val} {type : Ir.Ty} (h : Carries x.type type) : Ends structs v f (bind x type) := by
  intro m hm
  obtain ⟨m', hm'⟩ : ∃ m', Gives (bind x type) m () m' := ⟨_, gives_modify.2 rfl⟩
  have hturns := turns_bind hm'
  refine ⟨m', hm', hturns.structs ▸ hm.solid.structs, forall_head hm.solid.heads hturns.heads,
    fun f' hf' r hr => ?_⟩
  rcases mem_modifyCurrent hm' hf' with hf' | ⟨f₀, hf₀, rfl⟩
  · exact hm.solid.registers f' hf' r hr
  · rcases Array.mem_push.1 hr with hr | rfl
    · exact hm.solid.registers f₀ hf₀ r hr
    · exact h

/-- The result of an instruction gets the next register. -/
theorem ends_result {t : Ir.Ty} {x : BuildM Val} {type : Ty} (hx : Goes structs v f x fun x => x.type = type)
    (h : Carries type t) : Ends structs v f (x >>= fun x => bind x t) := hx.ends fun _ hx => ends_bind (hx ▸ h)

theorem ends_terminate (t : Term) : Ends structs v f (terminate t) := by
  intro m hm
  have hexists : ∃ m', Gives (modifyCurrent fun f =>
      { f with blocks := f.blocks.modify m.block fun b => { b with term := some t } }) m () m' :=
        ⟨_, gives_modify.2 rfl⟩
  obtain ⟨m', hm'⟩ := hexists
  have hend := gives_terminate.2 ⟨hm.current, hm'⟩
  have hturns := turns_terminate hend
  exact ⟨m', hend, hm.solid.of_map hturns.structs hturns.heads (map_modifyCurrent hm' fun _ => rfl)⟩

/-! ### Instructions -/

theorem ends_pure : Ends structs v f (pure ()) := fun m hm => ⟨m, gives_pure.2 ⟨rfl, rfl⟩, hm.solid⟩

theorem ends_load {type : Ir.Ty} {addr : Operand} (ha : addr.hasValue v = true) : Ends structs v f
    (load type addr) := by
  refine .read fun m hm => ?_
  exact ((goes_unwrap ha).ends fun x _ => (goes_castTo x _).ends fun p _ =>
    ends_result (goes_append _ _) (carries_typeOf m type)) m hm

theorem ends_store {addr x : Operand} (ha : addr.hasValue v = true) (hx : x.hasValue v = true) :
    Ends structs v f (store addr x) :=
  (goes_unwrap hx).ends fun _ _ => (goes_unwrap ha).ends fun a _ => (goes_castTo a _).ends fun _ _ =>
    (goes_append _ _).ends fun _ _ => ends_pure

theorem ends_binary {op : Ir.Op} {x y : Operand} (hx : x.hasValue v = true) (hy : y.hasValue v = true) :
    Ends structs v f (binary op x y) := by
  refine (goes_unwrap hx).ends fun a ha => (goes_unwrap hy).ends fun b _ => (goes_operandType x).ends ?_
  rintro t rfl
  exact ends_result (goes_append _ _) ha

theorem goes_checkComparable {t : Ir.Ty} {type : Ty} (ht : t.isComparable = true) (h : Carries type t) :
    Goes structs v f (checkComparable (isDouble t) type) fun _ => True := by
  cases t with
  | scalar s =>
    cases s with
    | void => exact nomatch ht
    | ptr =>
      cases type <;> first | exact .pure trivial | exact nomatch h
    | f64 =>
      obtain rfl := h
      exact .pure trivial
    | _ =>
      obtain ⟨bits, rfl⟩ := h
      exact .pure trivial
  | _ => exact nomatch ht

theorem ends_compare {pred : Ir.Pred} {x y : Operand} (hx : x.hasValue v = true) (hy : y.hasValue v = true)
    (ht : (f.typeOf x).isComparable = true) : Ends structs v f (compare pred x y) := by
  refine (goes_unwrap hx).ends fun a ha => (goes_unwrap hy).ends fun b _ => (goes_operandType x).ends ?_
  rintro t rfl
  have hlast (b : Val) : Ends structs v f (do
      if (← get).current.isNone then throw .crash
      checkComparable (isDouble (f.typeOf x)) a.type
      bind (← append (.int 1) (.compare (compareName (isDouble (f.typeOf x)) pred) a b)) Scalar.i1) := by
    refine .read fun m hm => ?_
    simp only [hm.current]
    exact ((goes_checkComparable ht ha).ends fun _ _ => ends_result (goes_append _ _) carries_i1) m hm
  dsimp only
  split
  · exact (goes_castTo b _).ends fun b _ => hlast b
  · exact (Goes.pure (P := fun _ => True) trivial).ends fun b _ => hlast b

theorem ends_slotAddr {s : Struct} {base : Operand} {slot : Nat} (hbase : base.hasValue v = true)
    (hslot : (Instr.fieldAddr s base slot).suits structs v = true) : Ends structs v f (slotAddr s base slot) := by
  refine .read fun m hm => ?_
  obtain ⟨t, ht, hlt⟩ : ∃ t, structs.find? (·.name = s.name) = some t ∧ slot < t.fields.length := by
    simpa [Instr.suits, Option.any_eq_true] using hslot
  have hlength := hm.solid.structs s.name
  rw [ht, Option.map_some] at hlength
  obtain ⟨types, htypes, heq⟩ := Option.map_eq_some_iff.1 hlength
  have htype := List.getElem?_eq_getElem (heq ▸ hlt : slot < types.length)
  simp only [htypes]
  refine ((goes_unwrap hbase).ends fun b _ => (goes_castTo b _).ends fun p _ => .read fun m hm => ?_) m hm
  simp only [hm.current, htype]
  exact ends_result (goes_append _ _) (carries_ptr _) m hm

theorem ends_call {sig : Sig} {callee : Operand} {args : List Operand} (hcallee : callee.hasValue v = true)
    (hargs : ∀ a ∈ args, a.hasValue v = true) (hsuits : (Instr.call sig callee args).suits structs v = true) :
    Ends structs v f (call sig callee args) := by
  unfold call
  refine Goes.ends (P := fun _ => True) (.mapM ?_) fun vs _ => ?_
  · rintro ⟨a, i⟩ ha
    refine (goes_unwrap (hargs a (List.fst_mem_of_mem_zipIdx ha))).bind fun x _ => ?_
    split
    · exact fun m hm => goes_castPtr x _ m hm
    · exact .pure trivial
  · split
    · rename_i name
      refine .read fun m hm => ?_
      obtain ⟨g, hg, hret⟩ : ∃ g, v.functions.find? (·.name = name) = some g ∧ (g.sig.ret == sig.ret) = true := by
        simpa [Instr.suits, Option.any_eq_true] using hsuits
      rw [← hm.view, find?_view] at hg
      obtain ⟨f₀, hf₀, rfl⟩ := Option.map_eq_some_iff.1 hg
      simp only [hf₀]
      have hmem : f₀ ∈ m.functions := Array.mem_of_find?_eq_some hf₀
      exact ends_result (goes_append _ _) (.of_beq (hm.solid.heads f₀ hmem).1 hret) m hm
    · refine .read fun m hm => ?_
      exact ((goes_unwrap hcallee).ends fun a _ => (goes_castTo a _).ends fun c _ =>
        ends_result (goes_append _ _) (carries_typeOf m sig.ret)) m hm

theorem ends_ret {x : Option Operand} (hx : ∀ y ∈ x, y.hasValue v = true) : Ends structs v f (ret x) := by
  cases x with
  | none => exact ends_terminate _
  | some x =>
    refine (goes_unwrap (hx x rfl)).ends fun y _ => .read fun m hm => ?_
    obtain ⟨f₀, hf₀, -⟩ := hm.function?
    simp only [hf₀]
    exact ((goes_castPtr y _).ends fun z _ => ends_terminate _) m hm

/-- An instruction that keeps the contract is carried out. -/
theorem ends_instr {i : Instr} (hoperands : ∀ x ∈ Machine.operands i, x.hasValue v = true)
    (hsuits : i.suits structs v = true) (hshape : v.shape? = some f) : Ends structs v f (instr i) := by
  cases i with
  | fieldAddr s base slot => exact ends_slotAddr (hoperands base (by simp [Machine.operands])) hsuits
  | load type addr => exact ends_load (hoperands addr (by simp [Machine.operands]))
  | store addr x =>
    exact ends_store (hoperands addr (by simp [Machine.operands])) (hoperands x (by simp [Machine.operands]))
  | call sig callee args =>
    exact ends_call (hoperands callee List.mem_cons_self)
      (fun a ha => hoperands a (List.mem_cons_of_mem _ ha)) hsuits
  | binary op x y =>
    exact ends_binary (hoperands x (by simp [Machine.operands])) (hoperands y (by simp [Machine.operands]))
  | compare pred x y =>
    refine ends_compare (hoperands x (by simp [Machine.operands])) (hoperands y (by simp [Machine.operands])) ?_
    simpa [Instr.suits, hshape] using hsuits
  | condBr cond t e =>
    exact (goes_unwrap (hoperands cond (by simp [Machine.operands]))).ends fun c _ => ends_terminate _
  | br b => exact ends_terminate _
  | ret x => exact ends_ret fun y hy => hoperands y (by simpa [Machine.operands] using hy)

/-! ### Commands -/

/-- The first definition of a name is kept, and what is seen of it is what is seen of the struct that was declared
first. -/
theorem lookup_declare {γ : Type} {p : List Ty → γ} {q : Struct → γ} {definitions : List (String × List Ty)}
    (h : ∀ name, (definitions.lookup name).map p = (structs.find? (·.name = name)).map q) {s : Struct}
    {types : List Ty} (hs : p types = q s) (name : String) :
    ((if (definitions.lookup s.name).isSome then definitions else definitions ++ [(s.name, types)]).lookup name).map
    p =
      ((structs ++ [s]).find? (·.name = name)).map q := by
  have hfind : (structs ++ [s]).find? (·.name = name) =
      (structs.find? (·.name = name)).or (if s.name = name then some s else none) := by
    rw [List.find?_append]
    by_cases hname : s.name = name <;> simp [hname]
  rw [hfind]
  split
  · rename_i hsome
    rw [h]
    cases hold : structs.find? (·.name = name) with
    | some t => rfl
    | none =>
      rw [if_neg, Option.or_none]
      rintro rfl
      have hnone := h s.name
      rw [hold, Option.map_none, Option.map_eq_none_iff] at hnone
      rw [hnone] at hsome
      cases hsome
  · have hold := h name
    rw [List.lookup_append]
    cases hl : definitions.lookup name with
    | some types =>
      rw [hl, Option.map_some] at hold
      obtain ⟨t, ht, -⟩ := Option.map_eq_some_iff.1 hold.symm
      rw [Option.some_or, ht, Option.some_or, ← ht]
      exact hold
    | none =>
      rw [hl, Option.map_none] at hold
      rw [Option.map_eq_none_iff.1 hold.symm, Option.none_or, Option.none_or, List.lookup_cons]
      by_cases hname : s.name = name
      · subst hname
        simpa using hs
      · have hne : (name == s.name) = false := by simpa using Ne.symm hname
        simp [hname, hne]

/-- A struct is declared, unless its name is taken. -/
theorem Solid.declareStruct (hm : m.Solid structs) (s : Struct) :
    (if (m.structs.lookup s.name).isSome then m
      else { m with structs := m.structs ++ [(s.name, s.fields.map m.typeOf)] }).Solid (structs ++ [s]) := by
  have hlength : (s.fields.map m.typeOf).length = s.fields.length := List.length_map _
  have hstructs := lookup_declare hm.structs hlength
  split at hstructs
  · rename_i hsome
    rw [if_pos hsome]
    exact ⟨hstructs, hm.heads, hm.registers⟩
  · rename_i hnone
    rw [if_neg hnone]
    exact ⟨hstructs, hm.heads, hm.registers⟩

/-- A function is declared, unless its name is taken. -/
theorem Solid.declareFunc (hm : m.Solid structs) (name : String) (sig : Sig) :
    (if (m.find? name).isSome then m
      else
        let params := sig.params.zipIdx.map fun (t, i) => (paramName i t, m.typeOf t)
        { m with functions := m.functions.push { name, sig, ret := m.typeOf sig.ret, params } }).Solid structs := by
  split
  · exact hm
  · refine ⟨hm.structs, fun f hf => ?_, fun f hf r hr => ?_⟩
    · rcases Array.mem_push.1 hf with hf | rfl
      · exact hm.heads f hf
      · refine ⟨carries_typeOf m sig.ret, fun p hp => ?_⟩
        -- a parameter is paired with the type it is made from
        obtain ⟨i, hi⟩ := List.mem_iff_getElem?.1 hp
        obtain ⟨hparam, htype⟩ := List.getElem?_zip_eq_some.1 hi
        simp only [Function.head, List.getElem?_map, List.getElem?_zipIdx] at hparam htype
        rw [htype] at hparam
        exact congrArg Prod.snd (Option.some.inj hparam) ▸ carries_typeOf m p.2
    · rcases Array.mem_push.1 hf with hf | rfl
      · exact hm.registers f hf r hr
      · simp at hr

theorem ends_alloca (type : Ir.Ty) : Ends structs v f (command (.alloca type)) := by
  unfold command
  refine .read fun m hm => ?_
  simp only [hm.current, Bool.false_eq_true, if_false]
  exact (Ends.read (g := fun m => appendTo 0 (.ptr (m.typeOf type)) (.alloca (m.typeOf type)) >>=
    fun x => bind x Scalar.ptr)
    fun m hm => ends_result (goes_appendTo 0 _ _) (carries_ptr _) m hm) m hm

/-- A command that the machine carries out is carried out here, if it keeps the contract. -/
theorem apply_ok {n n' : Machine.Module} {c : Command} (hm : m.Solid structs) (hview : n.view = m.view)
    (hn : n.apply c = .ok n') (hc : c.obeys structs m.view = true) :
    ∃ m', m.apply c = .ok m' ∧ m'.Solid (c.structsAfter structs) := by
  -- commands about the function that is being defined find one
  have hready {g : Machine.Function} (hg : n.function? = some g) : Ready structs m.view g.shape m := by
    refine ⟨hm, rfl, ?_⟩
    rw [← hview, Machine.shape?_view, hg]
    rfl
  suffices ∃ m', Gives (command c) m () m' ∧ m'.Solid (c.structsAfter structs) by
    obtain ⟨m', hgives, hsolid⟩ := this
    exact ⟨m', apply_eq_ok.2 ⟨(), hgives⟩, hsolid⟩
  cases c with
  | declareStruct s => exact ⟨_, gives_modify.2 rfl, hm.declareStruct s⟩
  | declareFunc name sig => exact ⟨_, gives_modify.2 rfl, hm.declareFunc name sig⟩
  | define name =>
    obtain ⟨i, g, hg, -, -, hdef, -, ht⟩ := Machine.apply_define_eq_ok hn
    have hindex : m.index? name = some i := by
      rw [← index?_view, ← hview, Machine.index?_view]
      exact Machine.index?_of_define hn ht.current
    have hlt := (Array.findIdx?_eq_some_iff_findIdx_eq.1 hindex).1
    have hget : m.functions.getD i default = m.functions[i] := by simp [Array.getD_eq_getD_getElem?, hlt]
    have hshape : m.view.functions[i]? = some g.shape := by rw [← hview, Machine.getElem?_view, hg, Option.map_some]
    have hnew : m.functions[i].isDefined = false := by
      simp only [view, List.getElem?_map, Array.getElem?_toList, Array.getElem?_eq_getElem hlt, Option.map_some,
        Option.some.injEq] at hshape
      exact (congrArg Shape.isDefined hshape).trans hdef
    have hmem := Array.getElem_mem hlt
    unfold command
    simp only [gives_get_bind, hindex, hget, hnew]
    refine ⟨_, gives_set.2 rfl, hm.structs, fun f hf => ?_, fun f hf r hr => ?_⟩
    · rcases Array.mem_or_eq_of_mem_setIfInBounds hf with hf | rfl
      · exact hm.heads f hf
      · exact hm.heads m.functions[i] hmem
    · rcases Array.mem_or_eq_of_mem_setIfInBounds hf with hf | rfl
      · exact hm.registers f hf r hr
      · obtain ⟨p, hp, rfl⟩ := List.mem_map.1 (List.mem_toArray.1 hr)
        exact (hm.heads m.functions[i] hmem).2 p hp
  | newBlock name =>
    have hsome : n.function? ≠ none := by
      intro hnone
      simp only [Machine.Module.apply, hnone] at hn
      cases hn
    obtain ⟨g, hg⟩ := Option.ne_none_iff_exists'.1 hsome
    obtain ⟨f₀, hf₀, -⟩ := (hready hg).function?
    unfold command
    simp only [gives_get_bind, hf₀]
    obtain ⟨m', hm'⟩ : ∃ m', Gives (modifyCurrent fun f =>
        { f with blocks := f.blocks.push { name := s!"{name}.{f₀.blocks.size}" } }) m () m' :=
          ⟨_, gives_modify.2 rfl⟩
    have hstructs : m'.structs = m.structs := by
      obtain rfl := gives_modify.1 hm'
      split <;> rfl
    exact ⟨m', hm', hm.of_map hstructs (map_modifyCurrent hm' fun _ => rfl) (map_modifyCurrent hm' fun _ => rfl)⟩
  | setInsert b => exact ⟨_, gives_modify.2 rfl, hm.structs, hm.heads, hm.registers⟩
  | constant x =>
    obtain ⟨y, m', hy, -⟩ := succeeds_unwrap hm hc
    have hsame := hidden_unwrap x _ _ _ hy
    exact ⟨m', gives_bind.2 ⟨y, m', hy, gives_pure.2 ⟨rfl, rfl⟩⟩,
      hm.of_map hsame.structs hsame.heads hsame.registers⟩
  | alloca type =>
    have hsome : n.function? ≠ none := by
      intro hnone
      simp only [Machine.Module.apply, hnone] at hn
      cases hn
    obtain ⟨g, hg⟩ := Option.ne_none_iff_exists'.1 hsome
    exact ends_alloca type m (hready hg)
  | instr i =>
    obtain ⟨j, g, blk, hfocus, -⟩ := Machine.focus_of_append hn
    obtain ⟨hoperands, hsuits⟩ := Bool.and_eq_true_iff.1 hc
    have hinstr := ends_instr (fun x hx => List.all_eq_true.1 hoperands x hx) hsuits
      (hready hfocus.function?_eq).shape
    exact hinstr m (hready hfocus.function?_eq)

/-- The commands that the machine carries out are carried out here, if they keep the contract. The induction is on
the commands. -/
theorem foldlM_ok {n n' : Machine.Module} {cs : List Command} (hm : m.Solid structs) (hmatched : m.Matched)
    (hview : n.view = m.view) (hn : cs.foldlM Machine.Module.apply n = .ok n')
    (hcs : Ir.obeys structs m.view cs = true) :
    ∃ m', cs.foldlM apply m = .ok m' := by
  induction cs generalizing structs m n with
  | nil => exact ⟨m, rfl⟩
  | cons c cs ih =>
    rw [List.foldlM_cons] at hn ⊢
    obtain ⟨hc, hcs⟩ := Bool.and_eq_true_iff.1 hcs
    cases hn₁ : n.apply c with
    | error e =>
      rw [hn₁] at hn
      exact nomatch hn
    | ok n₁ =>
      rw [hn₁] at hn
      obtain ⟨m₁, hm₁, hsolid⟩ := apply_ok hm hview hn₁ hc
      obtain ⟨hview₁, hmatched₁⟩ := view_apply hm₁ hmatched
      rw [hm₁]
      refine ih hsolid hmatched₁ ?_ hn (hview₁ ▸ hcs)
      rw [Machine.view_apply hn₁, hview₁, hview]

/-! ### Definitions of structs -/

/-- The module defines the structs that were declared first under their names, slot by slot. -/
def Defines (structs : List Struct) (m : Module) : Prop :=
  ∀ name, m.structs.lookup name = (structs.find? (·.name = name)).map fun t => t.fields.map (ofTy [])

/-- The type of a scalar does not depend on the structs. -/
theorem map_typeOf (m : Module) {t : Struct} (ht : t.IsFlat) :
    t.fields.map m.typeOf = t.fields.map (ofTy []) := by
  refine List.map_congr_left fun type htype => ?_
  obtain ⟨x, rfl⟩ := ht type htype
  simp only [typeOf, ofTy]

/-- Only a declaration changes what structs there are. -/
theorem structs_command {c : Command} {u : Unit} (h : Gives (command c) m u m') (hc : ∀ s, c ≠ .declareStruct s) :
    m'.structs = m.structs := by
  cases c with
  | declareStruct s => exact absurd rfl (hc s)
  | declareFunc name sig =>
    obtain rfl := gives_modify.1 h
    split <;> rfl
  | define name =>
    have h₀ := gives_get_bind.1 h
    split at h₀
    · exact (not_gives_throw h₀).elim
    · dsimp only at h₀
      split at h₀
      · obtain ⟨_, _, hbroken, -⟩ := gives_bind.1 h₀
        exact (not_gives_broken hbroken).elim
      · obtain rfl := gives_set.1 h₀
        rfl
  | newBlock name =>
    have h₀ := gives_get_bind.1 h
    split at h₀
    · exact (not_gives_broken h₀).elim
    · obtain rfl := gives_modify.1 h₀
      split <;> rfl
  | setInsert b =>
    obtain rfl := gives_modify.1 h
    rfl
  | constant x => exact ((hidden_unwrap x).bind (fun _ => .pure _) _ _ _ h).structs
  | alloca type =>
    have h₀ := gives_get_bind.1 h
    dsimp only at h₀
    split at h₀
    · obtain ⟨_, _, hbroken, -⟩ := gives_bind.1 h₀
      exact (not_gives_broken hbroken).elim
    · obtain ⟨v, t, hv, hbind⟩ := gives_bind.1 (gives_get_bind.1 h₀)
      exact (Alike.after (hidden_appendTo _ _ _ _ _ _ hv) (turns_bind hbind)).structs
  | instr i => exact (turns_instr h).structs

theorem Defines.apply (hm : m.Defines structs) {c : Command} (h : m.apply c = .ok m')
    (hflat : ∀ s, c = .declareStruct s → s.IsFlat) : m'.Defines (c.structsAfter structs) := by
  obtain ⟨u, h⟩ := apply_eq_ok.1 h
  cases c with
  | declareStruct s =>
    have hold : ∀ name, (m.structs.lookup name).map id = (structs.find? (·.name = name)).map fun t =>
      t.fields.map (ofTy []) :=
      fun name => (congrFun Option.map_id _).trans (hm name)
    have hstructs := lookup_declare hold (map_typeOf m (hflat s rfl))
    obtain rfl := gives_modify.1 h
    intro name
    have hname := (congrFun Option.map_id _).symm.trans (hstructs name)
    split at hname
    · rename_i hsome
      rw [if_pos hsome]
      exact hname
    · rename_i hnone
      rw [if_neg hnone]
      exact hname
  | _ =>
    intro name
    rw [structs_command h fun _ heq => by cases heq]
    exact hm name

/-- A module that has carried out declarations of structs defines those that were first. The induction is on the
commands. -/
theorem Defines.foldlM (hm : m.Defines structs) {cs : List Command} (h : cs.foldlM Module.apply m = .ok m')
    (hflat : ∀ s, .declareStruct s ∈ cs → s.IsFlat) :
    m'.Defines (cs.foldl Command.structsAfter structs) := by
  induction cs generalizing structs m with
  | nil =>
    obtain rfl := Except.ok.inj h
    exact hm
  | cons c cs ih =>
    rw [List.foldlM_cons] at h
    cases hc : m.apply c with
    | error e =>
      rw [hc] at h
      cases h
    | ok m₁ =>
      rw [hc] at h
      refine ih (hm.apply hc fun s hs => ?_) h fun s hs => hflat s (List.mem_cons_of_mem c hs)
      exact hflat s (hs ▸ List.mem_cons_self)

end Module

end TypedScript.Llvm
