import TypedScript.Proofs.Lower.View

/-!
# The walk over expressions, statements and functions

One step for each function of lowering, for any view. An expression is lowered in one scope, with which it registers
what is to be released; it may go through other blocks, but comes out of them where all that was known before still
is. A statement leaves the scopes that were there as they were, and ends in a block of its own, or has ended the
block.

* `Evaluates`: the parts of an expression are lowered in the scope at hand, and their values are those of the parts.
* `in_expr`: expressions.
* `leads_stmt`: statements.
* `leads_lowerBody`: the bodies of functions.
-/

namespace TypedScript.Lower

open TypedScript.Ast TypedScript.Ast.Tree TypedScript.Binding TypedScript.Ir TypedScript.Layout

variable {inp : Input} {V : View inp} {own : Option Nat} {k : Nat} {w w' : V.World}

/-! ### Calls -/

/-- The two ways to call a pointer meet again. The result has a value if the signature tells of one. -/
theorem goes_dispatch {callee : Operand} {sig : Sig} {args : List Operand} (hcallee : V.Has w callee)
    (hcall : V.Callable w sig callee) (hargs : ∀ x ∈ args, V.Has w x) :
    V.Goes none w (dispatch callee sig args) fun w' v =>
      (sig.ret == (Scalar.void : Ir.Ty)) = false → V.Given w' v := by
  have hkeep {w : V.World} {slot r : Operand} (hslot : V.Has w slot) (hr : V.Given w r) :
      V.Goes none w (if (sig.ret == (Scalar.void : Ir.Ty)) = true then pure () else store slot r) fun _ _ =>
        True := by
    split
    · exact .pure trivial
    · exact V.store hslot (V.has_given hr)
  unfold dispatch
  dsimp only
  refine .either (Q := fun w' v => V.Has w' v) (.pure V.has_absent)
    ((V.alloca _).imp fun _ _ _ hv => V.has_given hv) fun w₀ slot hl₀ hslot hlive₀ => ?_
  have hcallee := V.has_mono hl₀ hcallee
  have hcall := V.callable_mono hl₀ hcall
  have hargs : ∀ x ∈ args, V.Has w₀ x := fun x hx => V.has_mono hl₀ (hargs x hx)
  refine (V.newBlock "call.closure" V.refl V.quiet hlive₀).bind fun w₁ closure ⟨hb₁, hq₁, hlive₁⟩ => ?_
  refine (V.newBlock "call.code" hb₁ hq₁ hlive₁).bind fun w₂ bare ⟨hb₂, hq₂, hlive₂⟩ => ?_
  refine (V.newBlock "call.join" hb₂ hq₂ hlive₂).bind fun w₃ join ⟨hb₃, _, hlive₃⟩ => ?_
  have hw₃ : V.Way [join, bare, closure] [join, bare, closure] w₀ w₃ := .start hb₃
  refine hw₃.bind hlive₃ (goes_testTag (V.has_mono hb₃ hcallee) closureTag) fun w₄ tag hw₄ hlive₄ _ htag => ?_
  refine (hw₄.condBr hlive₄ (V.has_given htag) (by simp) (by simp)).bind fun w₅ _ ⟨hw₅, _, hended₅⟩ => ?_
  -- a closure is called through its code, with its scope
  refine (hw₅.enter hended₅ (List.perm_append_comm : ([join, bare] ++ [closure]).Perm _)).bind
    fun w₆ _ ⟨hw₆, hlive₆⟩ => .read fun s₆ hs₆ => ?_
  have hd := V.layout_closure hs₆
  refine hw₆.bind hlive₆ (goes_closureFields hd) fun w₇ fs hw₇ hlive₇ hl₇ ⟨hcodeSlot, henvSlot⟩ => ?_
  have hd₇ := V.layout_mono hl₇ hd
  refine hw₇.bind hlive₇ (goes_loadField hd₇ (V.has_mono hw₇.le hcallee) hcodeSlot)
    fun w₈ code hw₈ hlive₈ hl₈ hcode => ?_
  refine hw₈.bind hlive₈ (goes_loadField (V.layout_mono hl₈ hd₇) (V.has_mono hw₈.le hcallee) henvSlot)
    fun w₉ env hw₉ hlive₉ hl₉ henv => ?_
  have hcode₉ := V.given_mono hl₉ hcode
  have hpassed : ∀ x ∈ env :: args, V.Has w₉ x :=
    List.forall_mem_cons.2 ⟨V.has_given henv, fun x hx => V.has_mono hw₉.le (hargs x hx)⟩
  refine hw₉.bind hlive₉ (V.callDirect (V.callable_given hcode₉) (V.has_given hcode₉) hpassed)
    fun w₁₀ r hw₁₀ hlive₁₀ _ hr => ?_
  refine hw₁₀.bind hlive₁₀ (hkeep (V.has_mono hw₁₀.le hslot) hr) fun w₁₁ _ hw₁₁ hlive₁₁ _ _ => ?_
  refine (hw₁₁.br hlive₁₁ (b := join) (by simp)).bind fun w₁₂ _ ⟨hw₁₂, hended₁₂⟩ => ?_
  -- anything else is code itself, and has no scope
  refine (hw₁₂.enter hended₁₂ (.swap bare join [])).bind fun w₁₃ _ ⟨hw₁₃, hlive₁₃⟩ => ?_
  have hbare : ∀ x ∈ Operand.null :: args, V.Has w₁₃ x :=
    List.forall_mem_cons.2 ⟨V.has_literal trivial, fun x hx => V.has_mono hw₁₃.le (hargs x hx)⟩
  refine hw₁₃.bind hlive₁₃ (V.callDirect (V.callable_mono hw₁₃.le hcall) (V.has_mono hw₁₃.le hcallee) hbare)
    fun w₁₄ r' hw₁₄ hlive₁₄ _ hr' => ?_
  refine hw₁₄.bind hlive₁₄ (hkeep (V.has_mono hw₁₄.le hslot) hr') fun w₁₅ _ hw₁₅ hlive₁₅ _ _ => ?_
  refine (hw₁₅.br hlive₁₅ (b := join) (by simp)).bind fun w₁₆ _ ⟨hw₁₆, hended₁₆⟩ => ?_
  refine (hw₁₆.enter hended₁₆ (.refl [join])).bind fun w₁₇ _ ⟨hw₁₇, hlive₁₇⟩ => ?_
  split
  · rename_i hvoid
    exact .pure ⟨hw₁₇.le, hlive₁₇, fun hnot => absurd (hvoid.symm.trans hnot) (by decide)⟩
  · exact (hw₁₇.last hlive₁₇ (V.load _ (V.has_mono hw₁₇.le hslot))).imp fun _ _ ⟨hl, hlive, hv⟩ =>
      ⟨hl, hlive, fun _ => hv⟩

/-- A callee is called with the signature of its type. -/
theorem goes_invoke {id callee : Nat} {ids : List Nat} (hid : inp.tree.form? id = some (.call callee ids))
    {out : Sig × Rep × List Rep} (hout : IsSignature inp (typeOf inp callee) out) {c : Callee}
    (hc : V.FunctionOf w callee c) {args : List Operand} (hargs : ∀ x ∈ args, V.Has w x) :
    V.Goes none w (c.invoke out.1 args) fun w' v =>
      (out.1.ret == (Scalar.void : Ir.Ty)) = false → V.Given w' v := by
  have hsymbol {name : String} (hname : V.SymbolOf w callee name) :
      V.Callable w out.1 (.func name) ∧ V.Has w (.func name) :=
    ⟨V.callable hid hout (V.computed_symbol hname), V.has_computed (V.computed_symbol hname)⟩
  cases c with
  | code name =>
    obtain ⟨hcall, hname⟩ := hsymbol hc
    have hargs' := List.forall_mem_cons.2 ⟨V.has_literal (v := .null) trivial, hargs⟩
    exact (V.callDirect hcall hname hargs').imp fun _ _ _ hv _ => hv
  | closure name scope =>
    obtain ⟨hcall, hname⟩ := hsymbol hc.1
    exact (V.callDirect hcall hname (List.forall_mem_cons.2 ⟨hc.2, hargs⟩)).imp fun _ _ _ hv _ => hv
  | dynamic v => exact goes_dispatch (V.has_computed hc) (V.callable hid hout hc) hargs

theorem goes_namedFunction {id : Nat} {ref : Scope.Ref} (hk : V.Inside w k) (href : V.Refers w k id ref)
    (hfun : ref.binding.kind.isFunction = true) :
    V.Goes own w (namedFunction inp k ref) fun w' c => V.FunctionOf w' id c := by
  have hname := V.symbol href hfun
  unfold namedFunction
  dsimp only
  split
  · exact .pure hname
  · refine .read fun s hs => (V.namedPointer hs hk href hfun).bind fun w₁ scope hl₁ hscope => ?_
    exact .pure ⟨V.symbolOf_mono hl₁ hname, hscope⟩

theorem goes_arrowValue {id body : Nat} {params : List Nat} {result : Option Nat} (hk : V.Inside w k)
    (hid : V.Within w k id) (hf : inp.tree.form? id = some (.arrowFunc params result body)) :
    V.Goes none w (arrowValue inp k id) fun w' c => V.FunctionOf w' id c := by
  refine (V.enqueue hid hf).bind fun w₁ code hl₁ hcode => ?_
  split
  · exact .pure hcode
  · refine .read fun s hs => ?_
    refine (V.ownPointer hs (V.inside_mono hl₁ hk) (V.within_mono hl₁ hid)).locate.bind fun w₂ scope hl₂ hscope =>
      ?_
    exact .pure ⟨V.symbolOf_mono hl₂ hcode, hscope⟩

/-! ### Expressions -/

/-- The parts of an expression are lowered in the scope at hand, and their values are those of the parts. -/
def Evaluates (V : View inp) (ev : Evaluator) : Prop :=
  ∀ w k id, V.Within w k id → V.In k w (ev k id) fun w' h => V.ValueOf w' id h

theorem goes_ident {id : Nat} {name : String} (hk : V.Inside w k) (hid : V.Within w k id)
    (hf : inp.tree.form? id = some (.ident name)) :
    V.Goes none w (ident inp k id) fun w' h => V.ValueOf w' id h := by
  refine (V.lookup hk hid hf).bind fun w₁ ref hl₁ href => ?_
  have hk₁ := V.inside_mono hl₁ hk
  dsimp only
  split
  · rename_i hfun
    exact (goes_namedFunction hk₁ href hfun).locate.bind fun w₂ c _ hc => .pure hc
  · rename_i hvar
    have hplace := V.place href (by simpa using hvar)
    refine (V.bindingAddr hk₁ hplace).locate.bind fun w₂ addr _ haddr => ?_
    exact (V.load _ haddr).bind fun w₃ v _ hv => .pure (View.valueOf_ofRep (V.computed_given hv) _)

theorem goes_number (id : Nat) (value : Float) : V.Goes none w (number inp id value) fun w' h =>
    V.ValueOf w' id h := by
  refine (V.repOf id).bind fun w₁ rep _ _ => ?_
  split
  · exact .pure (V.computed_literal trivial)
  · exact .pure (V.computed_literal trivial)

/-- A type that is represented by something has values. -/
theorem irType_ne_void {r : Rep} (h : r ≠ .void) : ((irType r : Ir.Ty) == (Scalar.void : Ir.Ty)) = false := by
  cases r with
  | void => exact absurd rfl h
  | int bits =>
    simp only [irType, Scalar.ofBits]
    split <;> rfl
  | _ => rfl

theorem IsSignature.ret {type : Nat} {out : Sig × Rep × List Rep} (h : IsSignature inp type out) :
    out.1.ret = irType out.2.1 := by
  obtain ⟨_, _, _, hrun⟩ := h
  obtain ⟨_, _, _, _, hret, _⟩ := runs_signature hrun
  exact hret

section

variable {ev : Evaluator} (hev : Evaluates V ev)
include hev

theorem in_objectOperand {object : Nat} (hobject : V.Within w k object) (id : Nat) (name : String) :
    V.In k w (objectOperand inp ev k id object name) fun w' out =>
      V.Has w' out.1 ∧ V.Layout w' out.2.1 ∧ V.Slot out.2.2.slot := by
  refine (hev w k object hobject).bind fun w₁ h _ hh => ?_
  dsimp only
  split
  · rename_i v rep
    have hv : V.Has w₁ v := V.has_computed hh
    refine .step (goes_layoutOfRep rep) fun w₂ d? hl₂ hd => ?_
    split
    · rename_i d
      refine .step (V.fieldOf name (hd d rfl)).locate fun w₃ f hl₃ hf =>
        .pure ⟨?_, V.layout_mono hl₃ (hd d rfl), hf⟩
      exact V.has_mono hl₃ (V.has_mono hl₂ hv)
    · exact in_unsupported
  · exact in_unsupported

theorem in_member {object : Nat} (hobject : V.Within w k object) (id : Nat) (name : String) :
    V.In k w (member inp ev k id object name) fun w' h => V.ValueOf w' id h :=
  (in_objectOperand hev hobject id name).bind fun _ _ _ ⟨hv, hd, hf⟩ =>
    .step (goes_loadField hd hv hf) fun _ _ _ hv => .pure (View.valueOf_ofRep (V.computed_given hv) _)

theorem in_objectLiteral {id : Nat} {props : List Nat} (hid : V.Within w k id)
    (hf : inp.tree.form? id = some (.object props)) :
    V.In k w (objectLiteral inp ev k id props) fun w' h => V.ValueOf w' id h := by
  refine .step (V.repOf id) fun w₁ rep hl₁ _ => .step (goes_layoutOfRep rep) fun w₂ d? hl₂ hd => ?_
  split
  · exact in_unsupported
  · rename_i d
    have hid₂ := V.within_mono hl₂ (V.within_mono hl₁ hid)
    have hd₂ := hd d rfl
    refine .bind (Q := fun w' inits => ∀ x ∈ inits, V.Slot (x : Field × Operand).1.slot ∧ V.Has w' x.2)
      (.mapM (fun _ _ x hl hx => ⟨hx.1, V.has_mono hl hx.2⟩) fun p hp w₃ hl₃ => ?_) fun w₃ inits hl₃ hinits => ?_
    · refine .step (V.fieldOf _ (V.layout_mono hl₃ hd₂)).locate fun w₄ f hl₄ hslot => ?_
      have hvalue := V.within_mono hl₄ (V.within_mono hl₃ (V.property hid₂ hf hp))
      refine (hev w₄ k _ hvalue).bind fun w₅ h _ hh => (in_toOperand hh).bind fun w₆ v _ hv => ?_
      exact .pure ⟨hslot, V.has_computed hv⟩
    · have hd₃ := V.layout_mono hl₃ hd₂
      refine .step (V.construct hd₃) fun w₄ obj hl₄ hobj => ?_
      have hd₄ := V.layout_mono hl₄ hd₃
      refine .bind (.forM fun x hx w₅ hl₅ => ?_) fun w₅ _ hl₅ _ => ?_
      · obtain ⟨hslot, hv⟩ := hinits x hx
        have hv₅ := V.has_mono hl₅ (V.has_mono hl₄ hv)
        refine .step (goes_retain _ hv₅) fun w₆ _ hl₆ _ => .of_goes fun _ => ?_
        have hd₆ := V.layout_mono hl₆ (V.layout_mono hl₅ hd₄)
        exact goes_storeField hd₆ (V.has_given (V.given_mono hl₆ (V.given_mono hl₅ hobj))) hslot
          (V.has_mono hl₆ hv₅)
      · have hobj₅ := V.given_mono hl₅ hobj
        refine (in_defer (V.has_given hobj₅)).bind fun w₆ _ hl₆ _ => .pure ?_
        exact V.computed_given (V.given_mono hl₆ hobj₅)

theorem in_call {id callee : Nat} {args : List Nat} (hid : V.Within w k id)
    (hf : inp.tree.form? id = some (.call callee args)) :
    V.In k w (call inp ev k id callee args) fun w' h => V.ValueOf w' id h := by
  have hcallee : V.Within w k callee := V.operand hid hf (.head _)
  have hargs : ∀ a ∈ args, V.Within w k a := fun a ha => V.arg hid hf ha
  refine .step ((V.signature _ _).runs (P := IsSignature inp (typeOf inp callee)) fun s _ s' hrun =>
    ⟨_, s, s', hrun⟩)
    fun w₁ out hl₁ ⟨_, hout⟩ => ?_
  dsimp only
  refine .when (fun _ => in_unsupported) fun w₂ hl₂ => ?_
  have hargs₂ : ∀ a ∈ args, V.Within w₂ k a := fun a ha => V.within_mono hl₂ (V.within_mono hl₁ (hargs a ha))
  refine (hev w₂ k callee (V.within_mono hl₂ (V.within_mono hl₁ hcallee))).bind fun w₃ hd hl₃ hhd => ?_
  have hargs₃ : ∀ a ∈ args, V.Within w₃ k a := fun a ha => V.within_mono hl₃ (hargs₂ a ha)
  split
  · rename_i fn fnRep
    have hfn : V.FunctionOf w₃ callee fn := hhd
    -- the arguments and the call, whether or not the callee was retained before
    have hrest {w₄ : V.World} (hfn : V.FunctionOf w₄ callee fn) (hargs : ∀ a ∈ args, V.Within w₄ k a) :
        V.In k w₄ (do
          let vs ← (args.zip out.2.2).mapM fun x => do
            let h ← ev k x.1
            let v ← h.toOperand inp k
            retain x.2 v
            return v
          let r ← fn.invoke out.1 vs
          if out.2.1 = .void then return Handle.none
          if out.2.1.isCounted then Lower.defer k ⟨.value, r, out.2.1⟩
          return Handle.ofRep r out.2.1) fun w' h => V.ValueOf w' id h := by
      refine .bind (.mapM (Q := fun w' v => V.Has w' v) (fun _ _ v hl hv => V.has_mono hl hv) fun x hx w₅ hl₅ => ?_)
        fun w₅ vs hl₅ hvs => ?_
      · refine (hev w₅ k x.1 (V.within_mono hl₅ (hargs x.1 (List.of_mem_zip hx).1))).bind fun w₆ h _ hh => ?_
        refine (in_toOperand hh).bind fun w₇ v _ hv => ?_
        have hv := V.has_computed hv
        exact .step (goes_retain x.2 hv) fun w₈ _ hl₈ _ => .pure (V.has_mono hl₈ hv)
      · refine .step (goes_invoke hf hout (hfn.mono hl₅) hvs) fun w₆ r _ hr => ?_
        dsimp only
        split
        · rename_i hvoid
          exact .pure (V.computed_void hf hout hvoid)
        · rename_i hvoid
          have hr := hr (by rw [hout.ret]; exact irType_ne_void hvoid)
          split
          · refine (in_defer (V.has_given hr)).bind fun w₇ _ hl₇ _ => .pure (View.valueOf_ofRep ?_ _)
            exact V.computed_given (V.given_mono hl₇ hr)
          · exact .pure (View.valueOf_ofRep (V.computed_given hr) _)
    split
    · rename_i v
      have hv : V.Computed w₃ callee v := hfn
      refine .step (goes_retain fnRep (V.has_computed hv)) fun w₄ _ hl₄ _ => ?_
      refine (in_defer (V.has_computed (V.computed_mono hl₄ hv))).bind fun w₅ _ hl₅ _ => ?_
      exact hrest ((hfn.mono hl₄).mono hl₅) fun a ha => V.within_mono hl₅ (V.within_mono hl₄ (hargs₃ a ha))
    · exact hrest hfn hargs₃
  · exact .throw V.allowed_callee

theorem in_unary {id operand : Nat} {op : UnaryOp} (hid : V.Within w k id)
    (hf : inp.tree.form? id = some (.unary op operand)) :
    V.In k w (unary inp ev k id op operand) fun w' h => V.ValueOf w' id h := by
  have hoperand : V.Within w k operand := V.operand hid hf (.head _)
  refine (hev w k operand hoperand).bind fun w₁ h _ hh => ?_
  split
  · rename_i x rep
    have hx : V.Computed w₁ operand x := hh
    have hasked := V.asked_unary hf hx
    have hx := V.has_computed hx
    have hvalue {w' : V.World} {v : Operand} (hv : V.Given w' v) : V.ValueOf w' id (.scalar v rep) :=
      V.computed_given hv
    split
    · exact .step (V.binary .mul hx hasked (V.has_literal trivial)) fun _ _ _ hv => .pure (hvalue hv)
    · refine .step (V.binary .sub (V.has_literal trivial) (V.asked_literal trivial) hx) fun _ _ _ hv => ?_
      exact .pure (hvalue hv)
    · refine .step (V.compare .eq hx hasked (V.has_literal trivial)) fun _ _ _ hv => .pure ?_
      exact V.computed_given hv
    · exact in_unsupported
  · exact in_unsupported

theorem in_strict {id lhs rhs : Nat} {op : BinaryOp} (hf : inp.tree.form? id = some (.binary op lhs rhs))
    (hop : op.isLogical = false) (hlhs : V.Within w k lhs) (hrhs : V.Within w k rhs) :
    V.In k w (strict inp ev k id op lhs rhs) fun w' h => V.ValueOf w' id h := by
  refine (hev w k lhs hlhs).bind fun w₁ xh hl₁ hxh => (in_toOperand hxh).bind fun w₂ x hl₂ hx => ?_
  refine (hev w₂ k rhs (V.within_mono hl₂ (V.within_mono hl₁ hrhs))).bind fun w₃ yh hl₃ hyh => ?_
  refine (in_toOperand hyh).bind fun w₄ y hl₄ hy => ?_
  have hx₄ := V.computed_mono hl₄ (V.computed_mono hl₃ hx)
  split
  · refine .when (fun _ => in_unsupported) fun w₅ hl₅ => ?_
    have hx₅ := V.computed_mono hl₅ hx₄
    refine .step (V.binary _ (V.has_computed hx₅) (V.asked_binary hf hop hx₅) ?_) fun _ _ _ hv => .pure ?_
    · exact V.has_mono hl₅ (V.has_computed hy)
    · exact V.computed_given hv
  · refine .step (V.compare _ (V.has_computed hx₄) (V.asked_binary hf hop hx₄) (V.has_computed hy))
      fun _ _ _ hv => .pure ?_
    exact V.computed_given hv
  · exact in_unsupported

/-- The right operand is evaluated in a block of its own, and what it made is released there. -/
theorem in_logical {id lhs rhs : Nat} (op : BinaryOp) (hlhs : V.Within w k lhs) (hrhs : V.Within w k rhs) :
    V.In k w (logical inp ev k op lhs rhs) fun w' h => V.ValueOf w' id h := by
  refine .step (V.alloca _) fun w₁ result hl₁ hresult => ?_
  refine (hev w₁ k lhs (V.within_mono hl₁ hlhs)).bind fun w₂ xh hl₂ hxh => ?_
  refine (in_toOperand hxh).bind fun w₃ x hl₃ hx => ?_
  have hresult₃ := V.has_given (V.given_mono hl₃ (V.given_mono hl₂ hresult))
  have hx := V.has_computed hx
  refine .step (V.store hresult₃ hx) fun w₄ _ hl₄ _ => .of_goes fun hk₄ hlive₄ => ?_
  have hresult₄ := V.has_mono hl₄ hresult₃
  have hrhs₄ := V.within_mono hl₄ (V.within_mono hl₃ (V.within_mono hl₂ (V.within_mono hl₁ hrhs)))
  refine (V.newBlock "logic.rhs" V.refl V.quiet hlive₄).bind fun w₅ more ⟨hb₅, hq₅, hlive₅⟩ => ?_
  refine (V.newBlock "logic.join" hb₅ hq₅ hlive₅).bind fun w₆ join ⟨hb₆, _, hlive₆⟩ => ?_
  have hw₆ : V.Way [join, more] [join, more] w₄ w₆ := .start hb₆
  have hx₆ := V.has_mono hb₆ (V.has_mono hl₄ hx)
  have hbranch (b b' : Nat) (hb : b ∈ [join, more]) (hb' : b' ∈ [join, more]) :
      V.Leads w₆ (condBr x b b') fun w' _ => V.Way [join, more] [join, more] w₄ w' ∧ V.Ended w' :=
    (hw₆.condBr hlive₆ hx₆ hb hb').imp fun _ _ hq => ⟨hq.1, hq.2.2⟩
  -- which of the two blocks is gone to first depends on the operator, and makes no difference
  refine .either (hbranch more join (by simp) (by simp)) (hbranch join more (by simp) (by simp))
    fun w₇ _ ⟨hw₇, hended₇⟩ => ?_
  refine (hw₇.enter hended₇ (.swap more join [])).bind fun w₈ _ ⟨hw₈, hlive₈⟩ => ?_
  refine hw₈.bind hlive₈ (V.openTransient (V.inside_mono hw₈.le hk₄) (V.within_mono hw₈.le hrhs₄))
    fun w₉ inner hw₉ hlive₉ _ ⟨hinner, hwithin, hnew⟩ => ?_
  have hnew₄ := V.new_mono hw₈.le hnew
  refine hw₉.bindInner hlive₉ hnew₄ (hev w₉ inner rhs hwithin hinner) fun w₁₀ yh hw₁₀ hlive₁₀ _ ⟨hinner₁₀, hyh⟩ =>
    ?_
  refine hw₁₀.bindInner hlive₁₀ hnew₄ (in_toOperand hyh hinner₁₀) fun w₁₁ y hw₁₁ hlive₁₁ _ ⟨hinner₁₁, hy⟩ => ?_
  refine hw₁₁.bind hlive₁₁ (V.store (V.has_mono hw₁₁.le hresult₄) (V.has_computed hy))
    fun w₁₂ _ hw₁₂ hlive₁₂ hl₁₂ _ => ?_
  refine hw₁₂.bind hlive₁₂ (goes_emitDeferred (V.stocked (V.inside_mono hl₁₂ hinner₁₁)))
    fun w₁₃ _ hw₁₃ hlive₁₃ _ _ => ?_
  refine (hw₁₃.br hlive₁₃ (b := join) (by simp)).bind fun w₁₄ _ ⟨hw₁₄, hended₁₄⟩ => ?_
  refine (hw₁₄.enter hended₁₄ (.refl [join])).bind fun w₁₅ _ ⟨hw₁₅, hlive₁₅⟩ => ?_
  refine hw₁₅.bind hlive₁₅ (V.load _ (V.has_mono hw₁₅.le hresult₄)) fun w₁₆ v hw₁₆ hlive₁₆ _ hv => ?_
  exact .pure ⟨hw₁₆.le, hlive₁₆, V.computed_given hv⟩

theorem in_assignTarget {target : Nat} (htarget : V.Within w k target) (id : Nat) :
    V.In k w (assignTarget inp ev k id target) fun w' out => V.Has w' out.1 := by
  unfold assignTarget
  split
  · rename_i name hf
    refine .of_kept fun hk => .step (V.lookup hk htarget hf) fun w₁ ref hl₁ href => ?_
    dsimp only
    split
    · exact .bind (Q := fun _ _ => False) in_unsupported fun _ _ _ h => h.elim
    · rename_i hvar
      have hplace := V.place href (by simpa using hvar)
      exact .step (V.bindingAddr (V.inside_mono hl₁ hk) hplace).locate fun w₂ addr _ haddr => .pure haddr
  · rename_i object name hf
    have hobject : V.Within w k object := V.operand htarget hf (.head _)
    refine (in_objectOperand hev hobject target name).bind ?_
    rintro w₁ out - ⟨hv, hd, hslot⟩
    exact .step (goes_fieldAddr hd hv hslot) fun w₂ addr _ haddr => .pure (V.has_given haddr)
  · exact in_unsupported

/-- An assignment has the value that is assigned. -/
theorem in_assign {id target value : Nat} (hid : V.Within w k id)
    (hf : inp.tree.form? id = some (.assign target value)) :
    V.In k w (assign inp ev k id target value) fun w' h => V.ValueOf w' id h := by
  have htarget : V.Within w k target := V.operand hid hf (.head _)
  have hvalue : V.Within w k value := V.operand hid hf (.tail _ (.head _))
  refine (hev w k value hvalue).bind fun w₁ h hl₁ hh => ?_
  refine (in_toOperand hh).bind fun w₂ v hl₂ hv => ?_
  refine (in_assignTarget hev (V.within_mono hl₂ (V.within_mono hl₁ htarget)) id).bind fun w₃ out hl₃ hout => ?_
  have hv₃ := V.computed_mono hl₃ hv
  refine .step (goes_storeOwned out.2 hout (V.has_computed hv₃)) fun w₄ _ hl₄ _ => .pure ?_
  exact View.valueOf_ofRep (V.computed_assign hf (V.computed_mono hl₄ hv₃)) _

end

/-- The induction is on the depth, with one step for each form of expression. -/
theorem evaluates_expr (V : View inp) (depth : Nat) : Evaluates V (expr inp depth) := by
  induction depth with
  | zero => exact fun _ _ _ _ => in_unsupported
  | succ depth ih =>
    intro w k id hid
    unfold expr
    dsimp only
    split
    · rename_i hf
      exact .of_goes fun hk => goes_ident hk hid hf
    · exact .of_goes fun _ => goes_number id _
    · exact .step (V.constant _) fun _ _ _ _ => .pure (V.computed_literal trivial)
    · exact .pure (V.computed_literal trivial)
    · exact .step (V.repOf id) fun _ _ _ _ => .pure (View.valueOf_ofRep (V.computed_literal (v := .null) trivial) _)
    · rename_i hf
      exact in_objectLiteral ih hid hf
    · rename_i object name hf
      exact in_member ih (V.operand hid hf (.head _)) id name
    · rename_i hf
      exact in_call ih hid hf
    · rename_i hf
      exact in_unary ih hid hf
    · rename_i op lhs rhs hf
      have hlhs : V.Within w k lhs := V.operand hid hf (.head _)
      have hrhs : V.Within w k rhs := V.operand hid hf (.tail _ (.head _))
      split
      · exact in_logical ih op hlhs hrhs
      · rename_i hop
        exact in_strict ih hf (by simpa using hop) hlhs hrhs
    · rename_i hf
      exact in_assign ih hid hf
    · rename_i hf
      refine .of_kept fun hk => .step (goes_arrowValue hk hid hf) fun w₁ c _ hc => ?_
      exact .step (V.repOf id) fun w₂ rep hl₂ _ => .pure (hc.mono hl₂)
    · exact in_unsupported
    · exact in_unsupported

theorem in_evaluate {id : Nat} (hid : V.Within w k id) :
    V.In k w (evaluate inp k id) fun w' h => V.ValueOf w' id h :=
  evaluates_expr V (id + 1) w k id hid

/-! ### Statements -/

/-- From an open block the computation leads on, with no block left to go to; it may end the block at hand. -/
def Proceeds (V : View inp) (w : V.World) {α : Type} (act : LowerM α) : Prop :=
  V.Live w → V.Leads w act fun w' _ => V.Le none [] w w' ∧ V.Settled w'

theorem Proceeds.of_goes {α : Type} {act : LowerM α} {Q : V.World → α → Prop} (h : V.Goes none w act Q) :
    Proceeds V w act :=
  fun hlive => (h hlive).imp fun _ _ ⟨hl, hlive', _⟩ => ⟨hl, V.settled hlive'⟩

theorem runs_isEnded {s s' : State} {ended : Bool} (h : Runs isEnded s ended s') :
    ended = s.ended.contains s.block ∧ s' = s := by
  obtain ⟨_, _, hget, h₁⟩ := runs_bind.1 h
  obtain ⟨rfl, rfl⟩ := runs_get.1 hget
  obtain ⟨_, _, hget', h₂⟩ := runs_bind.1 h₁
  obtain ⟨rfl, rfl⟩ := runs_get.1 hget'
  exact runs_pure.1 h₂

theorem not_fails_isEnded {s s' : State} {e : Error} : ¬ Fails isEnded s e s' := by
  intro h
  rcases fails_bind.1 h with h | ⟨_, _, _, h⟩
  · exact not_fails_get h
  rcases fails_bind.1 h with h | ⟨_, _, _, h⟩
  · exact not_fails_get h
  · exact not_fails_pure h

theorem leads_isEnded (hw : V.Settled w) : V.Leads w isEnded fun w' ended =>
    w' = w ∧ (ended = false → V.Live w) ∧ (ended = true → V.Ended w) := by
  refine fun s hs => ⟨fun ended s' hrun => ?_, fun e s' hf => (not_fails_isEnded hf).elim⟩
  obtain ⟨rfl, rfl⟩ := runs_isEnded hrun
  exact ⟨w, hs, rfl, V.isEnded hs hw⟩

/-- What is done only if the block at hand is not ended. -/
theorem leads_unlessEnded {act : LowerM Unit} {R : V.World → Unit → Prop} (hw : V.Settled w)
    (h : V.Live w → V.Leads w act R) (hdone : V.Ended w → R w ()) :
    V.Leads w (do if !(← isEnded) then act) R := by
  refine (leads_isEnded hw).bind ?_
  rintro _ ended ⟨rfl, hopen, hended⟩
  cases ended with
  | true => exact .pure (hdone (hended rfl))
  | false => exact h (hopen rfl)

section

variable {made pending : List Nat} {w₀ : V.World}

/-- A statement on the way. -/
theorem View.Way.proceed {act : LowerM Unit} {β : Type} {f : Unit → LowerM β} {R : V.World → β → Prop}
    (h : V.Way made pending w₀ w) (hlive : V.Live w) (hact : Proceeds V w act)
    (hf : ∀ w' a, V.Way made pending w₀ w' → V.Settled w' → V.Leads w' (f a) R) : V.Leads w (act >>= f) R :=
  (hact hlive).bind fun w' a hq => hf w' a (h.trans hq.1) hq.2

theorem View.Way.fallThrough (h : V.Way made pending w₀ w) (hw : V.Settled w) {b : Nat} (hb : b ∈ made) :
    V.Leads w (fallThrough b) fun w' _ => V.Way made pending w₀ w' ∧ V.Ended w' :=
  leads_unlessEnded hw (fun hlive => h.br hlive hb) fun hended => ⟨h, hended⟩

end

theorem goes_varDecl {id init : Nat} {name : String} {isConst : Bool} {type : Option Nat} (hk : V.Inside w k)
    (hid : V.Within w k id) (hf : inp.tree.form? id = some (.varDecl name isConst type init)) :
    V.Goes none w (varDecl inp k id init) fun _ _ => True := by
  have hinit : V.Within w k init := V.operand hid hf (.head _)
  refine .read fun s hs => (V.varPlace hs hk hid hf).bind fun w₁ ref hl₁ hplace hlive₁ => ?_
  have hk₁ := V.inside_mono hl₁ hk
  have hw₁ : V.Way [] [] w₁ w₁ := .start V.refl
  refine hw₁.bind hlive₁ (V.openTransient hk₁ (V.within_mono hl₁ hinit))
    fun w₂ inner hw₂ hlive₂ _ ⟨hinner, hwithin, hnew⟩ => ?_
  refine hw₂.bindInner hlive₂ hnew (in_evaluate hwithin hinner) fun w₃ h hw₃ hlive₃ _ ⟨hinner₃, hh⟩ => ?_
  refine hw₃.bindInner hlive₃ hnew (in_toOperand hh hinner₃) fun w₄ v hw₄ hlive₄ _ ⟨hinner₄, hv⟩ => ?_
  refine hw₄.bind hlive₄ (V.bindingAddr (V.inside_mono hw₄.le hk₁) (V.place_mono hk₁ hw₄.le hplace)).locate
    fun w₅ addr hw₅ hlive₅ hl₅ haddr => ?_
  refine hw₅.bind hlive₅ (goes_storeOwned _ haddr (V.has_mono hl₅ (V.has_computed hv)))
    fun w₆ _ hw₆ hlive₆ hl₆ _ => ?_
  exact hw₆.last hlive₆ (goes_emitDeferred (V.stocked (V.inside_mono hl₆ (V.inside_mono hl₅ hinner₄))))

/-- What the evaluation of a condition made is released before the branch. -/
theorem goes_condition {id : Nat} (hk : V.Inside w k) (hid : V.Within w k id) :
    V.Goes none w (condition inp k id) V.Has := by
  intro hlive
  have hw : V.Way [] [] w w := .start V.refl
  refine hw.bind hlive (V.openTransient hk hid) fun w₁ inner hw₁ hlive₁ _ ⟨hinner, hwithin, hnew⟩ => ?_
  refine hw₁.bindInner hlive₁ hnew (in_evaluate hwithin hinner) fun w₂ h hw₂ hlive₂ _ ⟨hinner₂, hh⟩ => ?_
  refine hw₂.bindInner hlive₂ hnew (in_toOperand hh hinner₂) fun w₃ v hw₃ hlive₃ _ ⟨hinner₃, hv⟩ => ?_
  refine hw₃.bind hlive₃ (goes_emitDeferred (V.stocked hinner₃)) fun w₄ _ hw₄ hlive₄ hl₄ _ => ?_
  exact .pure ⟨hw₄.le, hlive₄, V.has_mono hl₄ (V.has_computed hv)⟩

/-- The induction is on the list; nothing is lowered after the block is ended. -/
theorem leads_stmtsWith {lowerStmt : Nat → LowerM Unit} (body : List Nat)
    (h : ∀ id ∈ body, ∀ w', V.Le none [] w w' → Proceeds V w' (lowerStmt id)) (hw : V.Settled w) :
    V.Leads w (stmtsWith lowerStmt body) fun w' _ => V.Le none [] w w' ∧ V.Settled w' := by
  induction body generalizing w with
  | nil => exact .pure ⟨V.refl, hw⟩
  | cons id rest ih =>
    refine (leads_isEnded hw).bind ?_
    rintro _ ended ⟨rfl, hopen, _⟩
    cases ended with
    | true => exact .pure ⟨V.refl, hw⟩
    | false =>
      refine (h id List.mem_cons_self _ V.refl (hopen rfl)).bind fun w₁ _ ⟨hl₁, hw₁⟩ => ?_
      refine (ih (fun c hc w' hl => ?_) hw₁).imp fun w' _ ⟨hl, hw'⟩ => ⟨V.trans hl₁ hl, hw'⟩
      exact h c (List.mem_cons_of_mem id hc) w' (V.trans hl₁ hl)

/-- A scope is left, unless the block is ended. -/
theorem leads_leave (hk : V.Inside w k) (hw : V.Settled w) :
    V.Leads w (do if !(← isEnded) then emitDeferred k) fun w' _ => V.Le none [] w w' ∧ V.Settled w' :=
  leads_unlessEnded hw (fun hlive => (goes_emitDeferred (V.stocked hk) hlive).imp fun _ _ ⟨hl, hlive', _⟩ =>
    ⟨hl, V.settled hlive'⟩) fun _ => ⟨V.refl, hw⟩

section

variable {lowerStmt : Nat → LowerM Unit}
  (h : ∀ id w, V.Inside w k → V.Within w k id → Proceeds V w (lowerStmt id))
include h

/-- The two ways through a condition meet again at the end. -/
theorem leads_ifElse {cond thenBranch : Nat} {elseBranch : Option Nat} (hk : V.Inside w k)
    (hcond : V.Within w k cond) (hthen : V.Within w k thenBranch)
    (helse : ∀ e, elseBranch = some e → V.Within w k e) : Proceeds V w (do
      let c ← condition inp k cond
      let thenBlock ← newBlock "if.then"
      let join ← newBlock "if.end"
      let elseBlock ← if elseBranch.isSome then newBlock "if.else" else pure join
      condBr c thenBlock elseBlock
      setInsert thenBlock
      lowerStmt thenBranch
      fallThrough join
      if let some e := elseBranch then
        setInsert elseBlock
        lowerStmt e
        fallThrough join
      setInsert join) := by
  intro hlive
  refine (goes_condition hk hcond hlive).bind fun w₁ c ⟨hl₁, hlive₁, hc⟩ => ?_
  have hk₁ := V.inside_mono hl₁ hk
  have hthen₁ := V.within_mono hl₁ hthen
  have hend {made : List Nat} {w' : V.World} (hw : V.Way made [] w₁ w') (hlive : V.Live w') :
      V.Le none [] w w' ∧ V.Settled w' := ⟨V.trans hl₁ hw.le, V.settled hlive⟩
  refine (V.newBlock "if.then" V.refl V.quiet hlive₁).bind fun w₂ thenBlock ⟨hb₂, hq₂, hlive₂⟩ => ?_
  refine (V.newBlock "if.end" hb₂ hq₂ hlive₂).bind fun w₃ join ⟨hb₃, hq₃, hlive₃⟩ => ?_
  cases elseBranch with
  | none =>
    simp only [Option.isSome_none, Bool.false_eq_true, if_false, pure_bind]
    have hw₃ : V.Way [join, thenBlock] [join, thenBlock] w₁ w₃ := .start hb₃
    refine (hw₃.condBr hlive₃ (V.has_mono hb₃ hc) (by simp) (by simp)).bind fun w₄ _ ⟨hw₄, _, hended₄⟩ => ?_
    refine (hw₄.enter hended₄ (.swap thenBlock join [])).bind fun w₅ _ ⟨hw₅, hlive₅⟩ => ?_
    have hbranch := h thenBranch w₅ (V.inside_mono hw₅.le hk₁) (V.within_mono hw₅.le hthen₁)
    refine hw₅.proceed hlive₅ hbranch fun w₆ _ hw₆ hsettled₆ => ?_
    refine (hw₆.fallThrough hsettled₆ (b := join) (by simp)).bind fun w₇ _ ⟨hw₇, hended₇⟩ => ?_
    exact (hw₇.enter hended₇ (.refl [join])).imp fun w₈ _ ⟨hw₈, hlive₈⟩ => hend hw₈ hlive₈
  | some e =>
    simp only [Option.isSome_some, if_true]
    refine (V.newBlock "if.else" hb₃ hq₃ hlive₃).bind fun w₄ elseBlock ⟨hb₄, _, hlive₄⟩ => ?_
    have hw₄ : V.Way [elseBlock, join, thenBlock] [elseBlock, join, thenBlock] w₁ w₄ := .start hb₄
    refine (hw₄.condBr hlive₄ (V.has_mono hb₄ hc) (by simp) (by simp)).bind fun w₅ _ ⟨hw₅, _, hended₅⟩ => ?_
    refine (hw₅.enter hended₅ (List.perm_append_comm : ([elseBlock, join] ++ [thenBlock]).Perm _)).bind
      fun w₆ _ ⟨hw₆, hlive₆⟩ => ?_
    have hbranch := h thenBranch w₆ (V.inside_mono hw₆.le hk₁) (V.within_mono hw₆.le hthen₁)
    refine hw₆.proceed hlive₆ hbranch fun w₇ _ hw₇ hsettled₇ => ?_
    refine (hw₇.fallThrough hsettled₇ (b := join) (by simp)).bind fun w₈ _ ⟨hw₈, hended₈⟩ => ?_
    refine (hw₈.enter hended₈ (.refl [elseBlock, join])).bind fun w₉ _ ⟨hw₉, hlive₉⟩ => ?_
    have hbranch' := h e w₉ (V.inside_mono hw₉.le hk₁) (V.within_mono hw₉.le (V.within_mono hl₁ (helse e rfl)))
    refine hw₉.proceed hlive₉ hbranch' fun w₁₀ _ hw₁₀ hsettled₁₀ => ?_
    refine (hw₁₀.fallThrough hsettled₁₀ (b := join) (by simp)).bind fun w₁₁ _ ⟨hw₁₁, hended₁₁⟩ => ?_
    exact (hw₁₁.enter hended₁₁ (.refl [join])).imp fun w₁₂ _ ⟨hw₁₂, hlive₁₂⟩ => hend hw₁₂ hlive₁₂

/-- The head of a loop is gone to twice, from where the loop starts and from its body. -/
theorem leads_whileLoop {cond body : Nat} (hk : V.Inside w k) (hcond : V.Within w k cond)
    (hbody : V.Within w k body) : Proceeds V w (do
      let head ← newBlock "while.head"
      let loop ← newBlock "while.body"
      let exit ← newBlock "while.end"
      br head
      setInsert head
      let c ← condition inp k cond
      condBr c loop exit
      setInsert loop
      lowerStmt body
      fallThrough head
      setInsert exit) := by
  intro hlive
  refine (V.newBlock "while.head" V.refl V.quiet hlive).bind fun w₁ head ⟨hb₁, hq₁, hlive₁⟩ => ?_
  refine (V.newBlock "while.body" hb₁ hq₁ hlive₁).bind fun w₂ loop ⟨hb₂, hq₂, hlive₂⟩ => ?_
  refine (V.newBlock "while.end" hb₂ hq₂ hlive₂).bind fun w₃ exit ⟨hb₃, _, hlive₃⟩ => ?_
  have hw₃ : V.Way [exit, loop, head] [exit, loop, head] w w₃ := .start hb₃
  refine (hw₃.br hlive₃ (b := head) (by simp)).bind fun w₄ _ ⟨hw₄, hended₄⟩ => ?_
  refine (hw₄.enter hended₄ (List.perm_append_comm : ([exit, loop] ++ [head]).Perm _)).bind
    fun w₅ _ ⟨hw₅, hlive₅⟩ => ?_
  refine hw₅.bind hlive₅ (goes_condition (V.inside_mono hw₅.le hk) (V.within_mono hw₅.le hcond))
    fun w₆ c hw₆ hlive₆ _ hc => ?_
  refine (hw₆.condBr hlive₆ hc (by simp) (by simp)).bind fun w₇ _ ⟨hw₇, _, hended₇⟩ => ?_
  refine (hw₇.enter hended₇ (.swap loop exit [])).bind fun w₈ _ ⟨hw₈, hlive₈⟩ => ?_
  have hstmt := h body w₈ (V.inside_mono hw₈.le hk) (V.within_mono hw₈.le hbody)
  refine hw₈.proceed hlive₈ hstmt fun w₉ _ hw₉ hsettled₉ => ?_
  refine (hw₉.fallThrough hsettled₉ (b := head) (by simp)).bind fun w₁₀ _ ⟨hw₁₀, hended₁₀⟩ => ?_
  exact (hw₁₀.enter hended₁₀ (.refl [exit])).imp fun w₁₁ _ ⟨hw₁₁, hlive₁₁⟩ => ⟨hw₁₁.le, V.settled hlive₁₁⟩

end

/-- A block has a scope of its own, which is left at its end. -/
theorem leads_block {lowerStmt : Nat → Nat → LowerM Unit}
    (h : ∀ k id w, V.Inside w k → V.Within w k id → Proceeds V w (lowerStmt k id)) {id : Nat} {body : List Nat}
    (hk : V.Inside w k) (hid : V.Within w k id) (hf : inp.tree.form? id = some (.block body)) : Proceeds V w (do
      let child ← openChild k id ((← get).chain.function k)
      enterContainer inp child id
      stmtsWith (lowerStmt child) body
      if !(← isEnded) then emitDeferred child) := by
  intro hlive
  have hw : V.Way [] [] w w := .start V.refl
  refine .read fun s hs => ?_
  refine hw.bind hlive (V.openChild hs hk hid hf) fun w₁ child hw₁ hlive₁ _ ⟨hchild, hopened, hnew⟩ => ?_
  refine hw₁.bindInner hlive₁ hnew (V.enterContainer hchild hopened) fun w₂ _ hw₂ hlive₂ _ ⟨hchild₂, hentered⟩ => ?_
  have hbody : V.Leads w₂ (stmtsWith (lowerStmt child) body) fun w' _ => V.Le none [] w₂ w' ∧ V.Settled w' := by
    refine leads_stmtsWith body (fun c hc w' hl => h child c w' (V.inside_mono hl hchild₂) ?_) (V.settled hlive₂)
    exact V.within_entered (V.entered_mono hl hentered) ((valueParts_block hf).symm ▸ hc)
  refine hbody.bind fun w₃ _ ⟨hl₃, hsettled₃⟩ => ?_
  refine (leads_leave (V.inside_mono hl₃ hchild₂) hsettled₃).imp fun w₄ _ ⟨hl₄, hsettled₄⟩ => ?_
  exact ⟨V.trans (V.trans hw₂.le hl₃) hl₄, hsettled₄⟩

theorem leads_return {id : Nat} {value : Option Nat} (hk : V.Inside w k) (hid : V.Within w k id)
    (hf : inp.tree.form? id = some (.ret value)) : Proceeds V w (do
      let inner ← openTransient k
      let v ← match value with
        | none => pure .absent
        | some e => (← evaluate inp inner e).toOperand inp inner
      emitReturn inner v (← get).result) := by
  intro hlive
  have hw : V.Way [] [] w w := .start V.refl
  cases value with
  | none =>
    refine hw.bind hlive (V.openTransient hk hid) fun w₁ inner hw₁ hlive₁ _ ⟨hinner, _, _⟩ => ?_
    refine .bind (Q := fun w' v => w' = w₁ ∧ v = .absent) (.pure ⟨rfl, rfl⟩) ?_
    rintro _ _ ⟨rfl, rfl⟩
    refine .read fun s _ => (leads_emitReturn hinner V.has_absent _ hlive₁).imp fun w₂ _ ⟨hl₂, hended₂⟩ => ?_
    exact ⟨V.trans hw₁.le hl₂, V.settled_ended hended₂⟩
  | some e =>
    have he : V.Within w k e := V.operand hid hf (.head _)
    refine hw.bind hlive (V.openTransient hk he) fun w₁ inner hw₁ hlive₁ _ ⟨hinner, hwithin, hnew⟩ => ?_
    dsimp only
    refine hw₁.bindInner hlive₁ hnew (in_evaluate hwithin hinner) fun w₂ h hw₂ hlive₂ _ ⟨hinner₂, hh⟩ => ?_
    refine hw₂.bindInner hlive₂ hnew (in_toOperand hh hinner₂) fun w₃ v hw₃ hlive₃ _ ⟨hinner₃, hv⟩ => ?_
    refine .read fun s _ => ?_
    refine (leads_emitReturn hinner₃ (V.has_computed hv) _ hlive₃).imp fun w₄ _ ⟨hl₄, hended₄⟩ => ?_
    exact ⟨V.trans hw₃.le hl₄, V.settled_ended hended₄⟩

theorem goes_exprStmt {e : Nat} (hk : V.Inside w k) (he : V.Within w k e) : V.Goes none w (do
      let inner ← openTransient k
      let _ ← evaluate inp inner e
      emitDeferred inner) fun _ _ => True := by
  intro hlive
  have hw : V.Way [] [] w w := .start V.refl
  refine hw.bind hlive (V.openTransient hk he) fun w₁ inner hw₁ hlive₁ _ ⟨hinner, hwithin, hnew⟩ => ?_
  refine hw₁.bindInner hlive₁ hnew (in_evaluate hwithin hinner) fun w₂ h hw₂ hlive₂ _ ⟨hinner₂, _⟩ => ?_
  exact hw₂.last hlive₂ (goes_emitDeferred (V.stocked hinner₂))

/-- The induction is on the depth, with one step for each form of statement. -/
theorem proceeds_stmt (V : View inp) (depth : Nat) :
    ∀ k id w, V.Inside w k → V.Within w k id → Proceeds V w (stmt inp depth k id) := by
  induction depth with
  | zero => exact fun _ _ _ _ _ => .of_goes (Q := fun _ _ => True) goes_unsupported
  | succ depth ih =>
    intro k id w hk hid
    unfold stmt
    split
    · exact .of_goes (Q := fun _ _ => True) (.pure trivial)
    · exact .of_goes (Q := fun _ _ => True) (.pure trivial)
    · exact .of_goes (Q := fun _ _ => True) (.pure trivial)
    · rename_i hf
      exact .of_goes (goes_varDecl hk hid hf)
    · rename_i e hf
      exact .of_goes (goes_exprStmt hk (V.operand hid hf (.head _)))
    · rename_i value hf
      exact leads_return hk hid hf
    · rename_i body hf
      exact leads_block ih hk hid hf
    · rename_i cond thenBranch elseBranch hf
      have hpart {c : Nat} : c ∈ [cond, thenBranch] ++ elseBranch.toList → V.Within w k c := V.operand hid hf
      exact leads_ifElse (ih k) hk (hpart (by simp)) (hpart (by simp)) fun e he => hpart (by simp [he])
    · rename_i cond body hf
      exact leads_whileLoop (ih k) hk (V.operand hid hf (.head _)) (V.operand hid hf (.tail _ (.head _)))
    · exact .of_goes (Q := fun _ _ => True) goes_unsupported

theorem leads_stmts {body : List Nat} (hk : V.Inside w k) (hbody : ∀ id ∈ body, V.Within w k id)
    (hw : V.Settled w) :
    V.Leads w (stmts inp k body) fun w' _ => V.Le none [] w w' ∧ V.Settled w' :=
  leads_stmtsWith body (fun id hid w' hl =>
    proceeds_stmt V (id + 1) k id w' (V.inside_mono hl hk) (V.within_mono hl (hbody id hid))) hw

/-! ### Bodies -/

theorem isFunction_zero (r : Rep) : IsLiteral (zero r) ∨ zero r = .absent := by
  unfold zero
  split
  · exact .inr rfl
  · exact .inl trivial
  · exact .inl trivial
  · exact .inl trivial
  · exact .inl trivial

theorem has_zero (r : Rep) : V.Has w (zero r) := by
  rcases isFunction_zero r with h | h
  · exact V.has_literal h
  · exact h ▸ V.has_absent

/-- The scopes of a function are left at its end, unless a statement has done so. -/
theorem leads_finish {v : Operand} (hk : V.Inside w k) (hv : V.Has w v) (hw : V.Settled w) : V.Leads w (do
      if !(← isEnded) then
        emitDeferred k
        ret v) fun w' _ => V.Le none [] w w' ∧ V.Ended w' := by
  refine leads_unlessEnded hw (fun hlive => ?_) fun hended => ⟨V.refl, hended⟩
  have hw : V.Way [] [] w w := .start V.refl
  refine hw.bind hlive (goes_emitDeferred (V.stocked hk)) fun w₁ _ hw₁ hlive₁ hl₁ _ => ?_
  exact (V.ret (V.has_mono hl₁ hv) hlive₁).imp fun _ _ ⟨hl₂, hended⟩ => ⟨V.trans hw₁.le hl₂, hended⟩

/-- The arguments belong to the function, and are stored at the places of its parameters. -/
theorem in_storeParams {fn count : Nat} {f : Form} (hf : inp.tree.form? fn = some f) (hfun : f.isFunction = true)
    (hentered : V.Entered w k fn) (hparams : ∀ i < count, V.Has w (.reg i))
    (hcount : f.params.length < count ∨ V.Allowed .missingParameter) :
    V.In k w (storeParams inp k count f.params) fun _ _ => True := by
  refine .forM fun x hx w₁ hl₁ => .read fun s hs => .of_kept fun hk₁ => ?_
  have hparam : x.1 ∈ f.params := List.fst_mem_of_mem_zipIdx hx
  refine .step (V.paramPlace hs hk₁ (V.entered_mono hl₁ hentered) hf hfun hparam) fun w₂ ref hl₂ hplace => ?_
  have hk₂ := V.inside_mono hl₂ hk₁
  refine .step (V.bindingAddr hk₂ hplace).locate fun w₃ addr hl₃ haddr => ?_
  dsimp only
  split
  · rename_i hge
    have hlt := List.snd_lt_of_mem_zipIdx hx
    refine .bind (Q := fun _ _ => False) (.throw (hcount.resolve_left ?_)) fun _ _ _ h => h.elim
    omega
  · rename_i hlt
    have harg : V.Has w₃ (.reg (x.2 + 1)) :=
      V.has_mono hl₃ (V.has_mono hl₂ (V.has_mono hl₁ (hparams (x.2 + 1) (by omega))))
    refine .step (goes_storeOwned _ haddr harg) fun w₄ _ hl₄ _ => ?_
    split
    · exact in_defer (V.has_mono hl₄ harg)
    · exact .pure trivial

/-- The parameters of a function are stored, its body is lowered, and its scopes are left. -/
theorem leads_lowerBody {fn count body : Nat} {f : Form} (hf : inp.tree.form? fn = some f)
    (hbody : f.body? = some body) (hk : V.Inside w k) (hentered : V.Entered w k fn)
    (hparams : ∀ i < count, V.Has w (.reg i)) (hcount : f.params.length < count ∨ V.Allowed .missingParameter)
    (result : Rep) (hlive : V.Live w) :
    V.Leads w (lowerBody inp k count f.params body result) fun w' _ => V.Le (some k) [] w w' ∧ V.Ended w' := by
  have hparts := valueParts_of_body? hf hbody
  unfold lowerBody
  refine (in_storeParams hf (isFunction_of_body? hbody) hentered hparams hcount hk hlive).bind ?_
  rintro w₁ _ ⟨hl₁, hlive₁, hk₁, -⟩
  have hentered₁ := V.entered_mono hl₁ hentered
  have hfinish {w₂ : V.World} (hl₂ : V.Le none [] w₁ w₂) (hw₂ : V.Settled w₂) : V.Leads w₂ (do
      if !(← isEnded) then
        emitDeferred k
        ret (zero result)) fun w' _ => V.Le (some k) [] w w' ∧ V.Ended w' :=
    (leads_finish (V.inside_mono hl₂ hk₁) (has_zero result) hw₂).imp fun _ _ h =>
      ⟨V.trans hl₁ (V.any (V.trans hl₂ h.1)), h.2⟩
  split
  · rename_i list hlist
    have hlist' : ∀ id ∈ list, V.Within w₁ k id := fun id hid =>
      V.within_entered hentered₁ (by rwa [hparts, bodyParts_block hlist])
    exact (leads_stmts hk₁ hlist' (V.settled hlive₁)).bind fun w₂ _ h => hfinish h.1 h.2
  · rename_i hne
    have hpart : body ∈ bodyParts inp.tree body := mem_bodyParts hne
    have hw₁ : V.Way [] [] w₁ w₁ := .start V.refl
    refine hw₁.bind hlive₁ (V.openTransient hk₁ (V.within_entered hentered₁ (hparts ▸ hpart))) ?_
    rintro w₂ inner hw₂ hlive₂ - ⟨hinner, hwithin, hnew⟩
    refine hw₂.bindInner hlive₂ hnew (in_evaluate hwithin hinner) ?_
    rintro w₃ h hw₃ hlive₃ - ⟨hinner₃, hh⟩
    split
    · refine hw₃.bind hlive₃ (goes_emitDeferred (V.stocked hinner₃)) fun w₄ _ hw₄ hlive₄ _ _ => ?_
      exact hfinish hw₄.le (V.settled hlive₄)
    · refine hw₃.bindInner hlive₃ hnew (in_toOperand hh hinner₃) ?_
      rintro w₄ v hw₄ hlive₄ - ⟨hinner₄, hv⟩
      refine (leads_emitReturn hinner₄ (V.has_computed hv) result hlive₄).bind fun w₅ _ h => ?_
      exact hfinish (V.trans hw₄.le h.1) (V.settled_ended h.2)

/-- The scope of a function is entered before its body is lowered. -/
theorem leads_function {fn count body : Nat} {f : Form} (hf : inp.tree.form? fn = some f)
    (hbody : f.body? = some body) (hk : V.Inside w k) (hopened : V.Opened w k fn)
    (hparams : ∀ i < count, V.Has w (.reg i)) (hcount : f.params.length < count ∨ V.Allowed .missingParameter)
    (result : Rep) (hlive : V.Live w) :
    V.Leads w (do
      enterContainer inp k fn
      if let some d := (← scopeNode k).layout then noteAttribute "scope" (layoutFields d)
      lowerBody inp k count f.params body result) fun w' _ => V.Le (some k) [] w w' ∧ V.Ended w' := by
  refine (V.enterContainer hk hopened hlive).bind fun w₁ _ ⟨hl₁, hlive₁, hk₁, hentered₁⟩ => .read fun s _ => ?_
  have hrest {w₂ : V.World} (hl₂ : V.Le none [] w₁ w₂) (hlive₂ : V.Live w₂) :
      V.Leads w₂ (lowerBody inp k count f.params body result) fun w' _ =>
        V.Le (some k) [] w w' ∧ V.Ended w' := by
    have hl := V.trans hl₁ (V.any hl₂)
    refine (leads_lowerBody hf hbody (V.inside_mono hl₂ hk₁) (V.entered_mono hl₂ hentered₁)
      (fun i hi => V.has_mono hl (hparams i hi)) hcount result hlive₂).imp fun w' _ ⟨hl', hended⟩ => ?_
    exact ⟨V.trans hl hl', hended⟩
  dsimp only
  split
  · have hw₁ : V.Way [] [] w₁ w₁ := .start V.refl
    exact hw₁.bind hlive₁ (V.noteAttribute _ _) fun w₂ _ hw₂ hlive₂ _ _ => hrest hw₂.le hlive₂
  · exact hrest V.refl hlive₁

/-- The module's own statements are lowered in the scope of the module. -/
theorem leads_entry (hk : V.Inside w k) (hopened : V.Opened w k inp.tree.root)
    (hwithin : ∀ w', V.Entered w' k inp.tree.root → ∀ id ∈ inp.tree.children inp.tree.root, V.Within w' k id)
    (hlive : V.Live w) :
    V.Leads w (do
      enterContainer inp k inp.tree.root
      stmts inp k (inp.tree.children inp.tree.root)
      if !(← isEnded) then
        emitDeferred k
        ret .absent) fun w' _ => V.Le (some k) [] w w' ∧ V.Ended w' := by
  refine (V.enterContainer hk hopened hlive).bind fun w₁ _ ⟨hl₁, hlive₁, hk₁, hentered₁⟩ => ?_
  refine (leads_stmts hk₁ (hwithin w₁ hentered₁) (V.settled hlive₁)).bind fun w₂ _ ⟨hl₂, hw₂⟩ => ?_
  refine (leads_finish (V.inside_mono hl₂ hk₁) V.has_absent hw₂).imp fun w₃ _ ⟨hl₃, hended⟩ => ?_
  exact ⟨V.trans hl₁ (V.any (V.trans hl₂ hl₃)), hended⟩

/-! ### Helpers -/

section

variable (hparam : V.Has w helperParam) (hasked : V.Asked w helperParam)
include hparam hasked

theorem leads_retainBody (hslot : V.Slot countSlot) (hlive : V.Live w) : V.Leads w (do
      let inc ← newBlock "inc"
      let done ← newBlock "done"
      condBr (← compare .eq helperParam .null) done inc
      setInsert inc
      let count ← slotAddr headerStruct helperParam countSlot
      store count (← binary .add (← load Scalar.i32 count) (.int .i32 1))
      br done
      setInsert done
      ret .absent) fun w' _ => V.Le none [] w w' ∧ V.Ended w' := by
  refine (V.newBlock "inc" V.refl V.quiet hlive).bind fun w₁ inc ⟨hb₁, hq₁, hlive₁⟩ => ?_
  refine (V.newBlock "done" hb₁ hq₁ hlive₁).bind fun w₂ done ⟨hb₂, _, hlive₂⟩ => ?_
  have hw₂ : V.Way [done, inc] [done, inc] w w₂ := .start hb₂
  refine hw₂.bind hlive₂ (V.compare .eq (V.has_mono hb₂ hparam) (V.asked_mono hb₂ hasked)
    (V.has_literal (v := .null) trivial)) fun w₃ c hw₃ hlive₃ _ hc => ?_
  refine (hw₃.condBr hlive₃ (V.has_given hc) (by simp) (by simp)).bind fun w₄ _ ⟨hw₄, _, hended₄⟩ => ?_
  refine (hw₄.enter hended₄ (.swap inc done [])).bind fun w₅ _ ⟨hw₅, hlive₅⟩ => .of_holds fun s₅ hs₅ => ?_
  refine hw₅.bind hlive₅ (V.slotAddr (V.header hs₅) (V.has_mono hw₅.le hparam) hslot)
    fun w₆ count hw₆ hlive₆ _ hcount => ?_
  refine hw₆.bind hlive₆ (V.load _ (V.has_given hcount)) fun w₇ old hw₇ hlive₇ hl₇ hold => ?_
  refine hw₇.bind hlive₇ (V.binary .add (V.has_given hold) (V.asked_given hold) (V.has_literal trivial))
    fun w₈ sum hw₈ hlive₈ hl₈ hsum => ?_
  have hcount₈ := V.given_mono hl₈ (V.given_mono hl₇ hcount)
  refine hw₈.bind hlive₈ (V.store (V.has_given hcount₈) (V.has_given hsum)) fun w₉ _ hw₉ hlive₉ _ _ => ?_
  refine (hw₉.br hlive₉ (b := done) (by simp)).bind fun w₁₀ _ ⟨hw₁₀, hended₁₀⟩ => ?_
  refine (hw₁₀.enter hended₁₀ (.refl [done])).bind fun w₁₁ _ ⟨hw₁₁, hlive₁₁⟩ => ?_
  exact (V.ret V.has_absent hlive₁₁).imp fun w₁₂ _ ⟨hl₁₂, hended₁₂⟩ => ⟨V.trans hw₁₁.le hl₁₂, hended₁₂⟩

theorem leads_fnHelperBody {inner : String} (hinner : inner ∈ helperNames) (hlive : V.Live w) : V.Leads w (do
      let check ← newBlock "check"
      let call ← newBlock "closure"
      let done ← newBlock "done"
      condBr (← compare .eq helperParam .null) done check
      setInsert check
      condBr (← testTag helperParam closureTag) call done
      setInsert call
      callHelper inner helperParam
      br done
      setInsert done
      ret .absent) fun w' _ => V.Le none [] w w' ∧ V.Ended w' := by
  refine (V.newBlock "check" V.refl V.quiet hlive).bind fun w₁ check ⟨hb₁, hq₁, hlive₁⟩ => ?_
  refine (V.newBlock "closure" hb₁ hq₁ hlive₁).bind fun w₂ call ⟨hb₂, hq₂, hlive₂⟩ => ?_
  refine (V.newBlock "done" hb₂ hq₂ hlive₂).bind fun w₃ done ⟨hb₃, _, hlive₃⟩ => ?_
  have hw₃ : V.Way [done, call, check] [done, call, check] w w₃ := .start hb₃
  refine hw₃.bind hlive₃ (V.compare .eq (V.has_mono hb₃ hparam) (V.asked_mono hb₃ hasked)
    (V.has_literal (v := .null) trivial)) fun w₄ c hw₄ hlive₄ _ hc => ?_
  refine (hw₄.condBr hlive₄ (V.has_given hc) (by simp) (by simp)).bind fun w₅ _ ⟨hw₅, _, hended₅⟩ => ?_
  refine (hw₅.enter hended₅ (List.perm_append_comm : ([done, call] ++ [check]).Perm _)).bind
    fun w₆ _ ⟨hw₆, hlive₆⟩ => ?_
  refine hw₆.bind hlive₆ (goes_testTag (V.has_mono hw₆.le hparam) closureTag) fun w₇ tag hw₇ hlive₇ _ htag => ?_
  refine (hw₇.condBr hlive₇ (V.has_given htag) (by simp) (by simp)).bind fun w₈ _ ⟨hw₈, _, hended₈⟩ => ?_
  refine (hw₈.enter hended₈ (.swap call done [])).bind fun w₉ _ ⟨hw₉, hlive₉⟩ => ?_
  refine hw₉.bind hlive₉ (V.callHelper hinner (V.has_mono hw₉.le hparam)) fun w₁₀ _ hw₁₀ hlive₁₀ _ _ => ?_
  refine (hw₁₀.br hlive₁₀ (b := done) (by simp)).bind fun w₁₁ _ ⟨hw₁₁, hended₁₁⟩ => ?_
  refine (hw₁₁.enter hended₁₁ (.refl [done])).bind fun w₁₂ _ ⟨hw₁₂, hlive₁₂⟩ => ?_
  exact (V.ret V.has_absent hlive₁₂).imp fun w₁₃ _ ⟨hl₁₃, hended₁₃⟩ => ⟨V.trans hw₁₂.le hl₁₃, hended₁₃⟩

end

/-- The fields of one layout are released in a block of their own, from where `free` is gone to. -/
theorem goes_emitDrop (hslot : ∀ n, V.Slot n) (hparam : V.Has w helperParam) {free : Nat} (hfree : V.Admits w free)
    {tag : Operand} (htag : V.Given w tag) {d : Descriptor} (hd : V.Layout w d) :
    V.Goes none w (emitDrop tag free d) fun _ _ => True := by
  intro hlive
  refine (V.newBlock _ V.refl V.quiet hlive).bind fun w₁ matched ⟨hb₁, hq₁, hlive₁⟩ => ?_
  refine (V.newBlock "next" hb₁ hq₁ hlive₁).bind fun w₂ next ⟨hb₂, _, hlive₂⟩ => ?_
  have hw₂ : V.Way [next, matched] [next, matched] w w₂ := .start hb₂
  have htag₂ := V.given_mono hb₂ htag
  refine hw₂.bind hlive₂ (V.compare .eq (V.has_given htag₂) (V.asked_given htag₂) (V.has_literal trivial))
    fun w₃ c hw₃ hlive₃ _ hc => ?_
  refine (hw₃.condBr hlive₃ (V.has_given hc) (by simp) (by simp)).bind fun w₄ _ ⟨hw₄, _, hended₄⟩ => ?_
  refine (hw₄.enter hended₄ (.swap matched next [])).bind fun w₅ _ ⟨hw₅, hlive₅⟩ => ?_
  have hd₅ := V.layout_mono hw₅.le hd
  have hparam₅ := V.has_mono hw₅.le hparam
  have hdrop : V.Goes none w₅ (d.countedFields.forM fun f => do release f.rep (← loadField d helperParam f))
      fun _ _ => True :=
    Regime.Goes.forM (I := fun _ => True) trivial fun f _ w₆ hl₆ _ =>
      (goes_loadField (V.layout_mono hl₆ hd₅) (V.has_mono hl₆ hparam₅) (hslot _)).bind fun _ _ _ hv =>
        goes_release f.rep (V.has_given hv)
  refine hw₅.bind hlive₅ hdrop fun w₆ _ hw₆ hlive₆ _ _ => ?_
  refine (V.br (V.admits_mono hw₆.le hfree) hlive₆).bind fun w₇ _ ⟨hl₇, hended₇⟩ => ?_
  exact ((hw₆.trans hl₇).enter hended₇ (.refl [next])).imp fun w₈ _ ⟨hw₈, hlive₈⟩ => ⟨hw₈.le, hlive₈, trivial⟩

/-- The fields of an object are released by its tag, and the object is given back. -/
theorem leads_giveBack {β : Type} {act : LowerM β} {R : V.World → β → Prop} (hslot : ∀ n, V.Slot n)
    (hparam : V.Has w helperParam) (hcall : V.Callable w helperSig (.func inp.options.release))
    (hhook : V.Has w (.func inp.options.release)) (hlive : V.Live w)
    (hact : ∀ w', V.Le none [] w w' → V.Live w' → V.Leads w' act R) : V.Leads w (do
      let tag ← load Scalar.i32 (← slotAddr headerStruct helperParam tagSlot)
      let free ← newBlock "free"
      ((← get).registry.all.filter fun d => !d.countedFields.isEmpty).forM (emitDrop tag free)
      br free
      setInsert free
      let _ ← callDirect helperSig (.func inp.options.release) [.null, helperParam]
      act) R := by
  have hw : V.Way [] [] w w := .start V.refl
  refine .of_holds fun s hs => ?_
  refine hw.bind hlive (V.slotAddr (V.header hs) hparam (hslot _)) fun w₁ addr hw₁ hlive₁ _ haddr => ?_
  refine hw₁.bind hlive₁ (V.load _ (V.has_given haddr)) fun w₂ tag hw₂ hlive₂ _ htag => ?_
  refine (V.newBlock "free" V.refl V.quiet hlive₂).bind fun w₃ free ⟨hb₃, _, hlive₃⟩ => .read fun s₃ hs₃ => ?_
  have hw₃ : V.Way [free] [free] w₂ w₃ := .start hb₃
  have hparam₃ := V.has_mono hb₃ (V.has_mono hw₂.le hparam)
  have hdrops : V.Goes none w₃ ((s₃.registry.all.filter fun d => !d.countedFields.isEmpty).forM
      (emitDrop tag free)) fun _ _ => True := by
    refine Regime.Goes.forM (I := fun _ => True) trivial fun d hd w₄ hl₄ _ => ?_
    have hd' := V.layout_mono hl₄ (V.layout_all hs₃ (List.mem_filter.1 hd).1)
    exact goes_emitDrop hslot (V.has_mono hl₄ hparam₃)
      (V.admits_mono hl₄ (V.admits hb₃ (hw₃.made free (by simp)))) (V.given_mono hl₄ (V.given_mono hb₃ htag)) hd'
  refine hw₃.bind hlive₃ hdrops fun w₄ _ hw₄ hlive₄ _ _ => ?_
  refine (hw₄.br hlive₄ (b := free) (by simp)).bind fun w₅ _ ⟨hw₅, hended₅⟩ => ?_
  refine (hw₅.enter hended₅ (.refl [free])).bind fun w₆ _ ⟨hw₆, hlive₆⟩ => ?_
  have hw₆ := hw₂.trans hw₆.le
  have hargs : ∀ x ∈ [Operand.null, helperParam], V.Has w₆ x :=
    List.forall_mem_cons.2 ⟨V.has_literal trivial, List.forall_mem_singleton.2 (V.has_mono hw₆.le hparam)⟩
  exact hw₆.bind hlive₆ (V.callDirect (V.callable_mono hw₆.le hcall) (V.has_mono hw₆.le hhook) hargs)
    fun w₇ _ hw₇ hlive₇ _ _ => hact w₇ hw₇.le hlive₇

/-- When the count of an object drops to zero its fields are released, and it is given back. -/
theorem leads_releaseBody (hslot : ∀ n, V.Slot n) (hparam : V.Has w helperParam) (hasked : V.Asked w helperParam)
    (hcall : V.Callable w helperSig (.func inp.options.release)) (hhook : V.Has w (.func inp.options.release))
    (hlive : V.Live w) : V.Leads w (do
      let dec ← newBlock "dec"
      let drop ← newBlock "drop"
      let done ← newBlock "done"
      condBr (← compare .eq helperParam .null) done dec
      setInsert dec
      let addr ← slotAddr headerStruct helperParam countSlot
      let count ← binary .sub (← load Scalar.i32 addr) (.int .i32 1)
      store addr count
      condBr (← compare .le count (.int .i32 0)) drop done
      setInsert drop
      let tag ← load Scalar.i32 (← slotAddr headerStruct helperParam tagSlot)
      let free ← newBlock "free"
      ((← get).registry.all.filter fun d => !d.countedFields.isEmpty).forM (emitDrop tag free)
      br free
      setInsert free
      let _ ← callDirect helperSig (.func inp.options.release) [.null, helperParam]
      br done
      setInsert done
      ret .absent) fun w' _ => V.Le none [] w w' ∧ V.Ended w' := by
  refine (V.newBlock "dec" V.refl V.quiet hlive).bind fun w₁ dec ⟨hb₁, hq₁, hlive₁⟩ => ?_
  refine (V.newBlock "drop" hb₁ hq₁ hlive₁).bind fun w₂ drop ⟨hb₂, hq₂, hlive₂⟩ => ?_
  refine (V.newBlock "done" hb₂ hq₂ hlive₂).bind fun w₃ done ⟨hb₃, _, hlive₃⟩ => ?_
  have hw₃ : V.Way [done, drop, dec] [done, drop, dec] w w₃ := .start hb₃
  refine hw₃.bind hlive₃ (V.compare .eq (V.has_mono hb₃ hparam) (V.asked_mono hb₃ hasked)
    (V.has_literal (v := .null) trivial)) fun w₄ c hw₄ hlive₄ _ hc => ?_
  refine (hw₄.condBr hlive₄ (V.has_given hc) (by simp) (by simp)).bind fun w₅ _ ⟨hw₅, _, hended₅⟩ => ?_
  -- the object is there: its count goes down
  refine (hw₅.enter hended₅ (List.perm_append_comm : ([done, drop] ++ [dec]).Perm _)).bind
    fun w₆ _ ⟨hw₆, hlive₆⟩ => .of_holds fun s₆ hs₆ => ?_
  refine hw₆.bind hlive₆ (V.slotAddr (V.header hs₆) (V.has_mono hw₆.le hparam) (hslot _))
    fun w₇ addr hw₇ hlive₇ _ haddr => ?_
  refine hw₇.bind hlive₇ (V.load _ (V.has_given haddr)) fun w₈ old hw₈ hlive₈ hl₈ hold => ?_
  refine hw₈.bind hlive₈ (V.binary .sub (V.has_given hold) (V.asked_given hold) (V.has_literal trivial))
    fun w₉ count hw₉ hlive₉ hl₉ hcount => ?_
  have haddr₉ := V.given_mono hl₉ (V.given_mono hl₈ haddr)
  refine hw₉.bind hlive₉ (V.store (V.has_given haddr₉) (V.has_given hcount)) fun w₁₀ _ hw₁₀ hlive₁₀ hl₁₀ _ => ?_
  have hcount₁₀ := V.given_mono hl₁₀ hcount
  refine hw₁₀.bind hlive₁₀ (V.compare .le (V.has_given hcount₁₀) (V.asked_given hcount₁₀) (V.has_literal trivial))
    fun w₁₁ c' hw₁₁ hlive₁₁ _ hc' => ?_
  refine (hw₁₁.condBr hlive₁₁ (V.has_given hc') (by simp) (by simp)).bind fun w₁₂ _ ⟨hw₁₂, _, hended₁₂⟩ => ?_
  -- the last owner is gone
  refine (hw₁₂.enter hended₁₂ (.swap drop done [])).bind fun w₁₃ _ ⟨hw₁₃, hlive₁₃⟩ => ?_
  refine leads_giveBack hslot (V.has_mono hw₁₃.le hparam) (V.callable_mono hw₁₃.le hcall)
    (V.has_mono hw₁₃.le hhook) hlive₁₃ fun w₁₄ hl₁₄ hlive₁₄ => ?_
  refine ((hw₁₃.trans hl₁₄).br hlive₁₄ (b := done) (by simp)).bind fun w₁₅ _ ⟨hw₁₅, hended₁₅⟩ => ?_
  refine (hw₁₅.enter hended₁₅ (.refl [done])).bind fun w₁₆ _ ⟨hw₁₆, hlive₁₆⟩ => ?_
  exact (V.ret V.has_absent hlive₁₆).imp fun w₁₇ _ ⟨hl₁₇, hended₁₇⟩ => ⟨V.trans hw₁₆.le hl₁₇, hended₁₇⟩

end TypedScript.Lower
