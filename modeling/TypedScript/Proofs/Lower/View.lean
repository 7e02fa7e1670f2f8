import TypedScript.Proofs.Binding.Visited
import TypedScript.Proofs.Layout.Numbered
import TypedScript.Proofs.Lower.Regime

/-!
# Views of lowering

What is proved of lowered code is proved along one walk over the translator: what is known at a point, what each
instruction asks for and gives, and what becomes of blocks and scopes on the way. A view says what that is, and
the walk is made once for all of them.

* `View`: what is known, with one rule for each primitive.
* `View.In`: a computation changes no scope but the one at hand.
-/

namespace TypedScript.Lower

open TypedScript.Ast TypedScript.Ast.Tree TypedScript.Binding TypedScript.Ir TypedScript.Layout

variable {inp : Input} {α β : Type}

/-- A constant that is the value of an expression. -/
def IsLiteral : Operand → Prop
  | .null | .int .. | .float _ | .bool _ | .string _ => True
  | _ => False

/-- What a signature tells of the function type. -/
theorem runs_signature {type : Nat} {span : Source.Span} {s s' : State} {out : Sig × Rep × List Rep}
    (h : Runs (signature inp type span) s out s') : ∃ params result,
      inp.types.resolved? type = some (.func params result) ∧ out.1.params.length = params.length + 1 ∧
      out.1.ret = irType out.2.1 ∧ (out.2.1 = .void → inp.types.resolved? result = some .void) := by
  unfold signature at h
  split at h
  · rename_i params result htype
    obtain ⟨reps, t, hreps, h⟩ := runs_bind.1 h
    obtain ⟨rep, t', hrep, h⟩ := runs_bind.1 h
    obtain ⟨rfl, -⟩ := runs_pure.1 h
    refine ⟨params, result, htype, ?_, rfl, fun hvoid => ?_⟩
    · simp [length_of_runs_mapM hreps]
    · obtain rfl : rep = .void := hvoid
      exact Registry.resolved?_of_resolve (runs_ofLayout (runs_locate.1 hrep)).1
  · exact (runs_throw h).elim

/-- The signature is the one that is found for a type, with the representations of its result and parameters. -/
def IsSignature (inp : Input) (type : Nat) (out : Sig × Rep × List Rep) : Prop :=
  ∃ span s s', Runs (signature inp type span) s out s'

/-! ### Views -/

/-- What instructions ask for and give. -/
structure Instructions (inp : Input) extends Regime where
  /-- The operand can be used. -/
  Has : World → Operand → Prop
  /-- The operand is the result of an instruction. -/
  Given : World → Operand → Prop
  /-- The operand can be computed with and compared. -/
  Asked : World → Operand → Prop
  /-- The layout can be used. -/
  Layout : World → Descriptor → Prop
  /-- The struct is there. -/
  Struct : World → Ir.Struct → Prop
  /-- The field may be gone to. -/
  Slot : Nat → Prop
  /-- The operand may be called with the signature. -/
  Callable : World → Sig → Operand → Prop
  has_mono : ∀ {own pending w w' v}, Le own pending w w' → Has w v → Has w' v
  given_mono : ∀ {own pending w w' v}, Le own pending w w' → Given w v → Given w' v
  asked_mono : ∀ {own pending w w' v}, Le own pending w w' → Asked w v → Asked w' v
  layout_mono : ∀ {own pending w w' d}, Le own pending w w' → Layout w d → Layout w' d
  struct_mono : ∀ {own pending w w' t}, Le own pending w w' → Struct w t → Struct w' t
  callable_mono : ∀ {own pending w w' sig v}, Le own pending w w' → Callable w sig v → Callable w' sig v
  has_given : ∀ {w v}, Given w v → Has w v
  has_literal : ∀ {w v}, IsLiteral v → Has w v
  has_absent : ∀ {w}, Has w .absent
  asked_given : ∀ {w v}, Given w v → Asked w v
  asked_literal : ∀ {w v}, IsLiteral v → Asked w v
  callable_given : ∀ {w sig v}, Given w v → Callable w sig v
  allowed_translation : ∀ {kind span reason}, Allowed (.translation kind span reason)
  allowed_callee : ∀ {span type}, Allowed (.unknownCallee span type)
  slot_tag : Slot tagSlot
  load : ∀ {own w addr} type, Has w addr → toRegime.Goes own w (load type addr) Given
  store : ∀ {own w addr v}, Has w addr → Has w v → toRegime.Goes own w (store addr v) fun _ _ => True
  alloca : ∀ {own w} type, toRegime.Goes own w (alloca type) Given
  slotAddr : ∀ {own w t base slot}, Struct w t → Has w base → Slot slot →
    toRegime.Goes own w (slotAddr t base slot) Given
  compare : ∀ {own w x y} pred, Has w x → Asked w x → Has w y → toRegime.Goes own w (compare pred x y) Given
  binary : ∀ {own w x y} op, Has w x → Asked w x → Has w y → toRegime.Goes own w (binary op x y) Given
  callDirect : ∀ {own w sig callee args}, Callable w sig callee → Has w callee → (∀ a ∈ args, Has w a) →
    toRegime.Goes own w (callDirect sig callee args) Given
  callHelper : ∀ {own w name v}, name ∈ helperNames → Has w v →
    toRegime.Goes own w (callHelper name v) fun _ _ => True
  constant : ∀ {own w} v, toRegime.Goes own w (emit (.constant v)) fun _ _ => True
  useStruct : ∀ {own w d}, Layout w d → toRegime.Goes own w (useStruct d) Struct
  header : ∀ {w s}, Holds w s → Struct w headerStruct
  construct : ∀ {own w d}, Layout w d → toRegime.Goes own w (construct inp d) Given
  fieldOf : ∀ {own w d} name, Layout w d → toRegime.Goes own w (fieldOf d name) fun _ f => Slot f.slot
  layout_all : ∀ {w s d}, Holds w s → d ∈ s.registry.all → Layout w d
  layout_closure : ∀ {w s}, Holds w s → Layout w s.registry.closure
  repOf : ∀ {own w} id, toRegime.Goes own w (repOf inp id) fun _ _ => True
  signature : ∀ {own w} type span, toRegime.Goes own w (signature inp type span) fun _ _ => True
  noteAttribute : ∀ {own w} key value, toRegime.Goes own w (noteAttribute key value) fun _ _ => True

/-- What becomes of blocks. -/
structure Blocks (inp : Input) extends Instructions inp where
  /-- The block at hand is open or ended. -/
  Settled : World → Prop
  /-- The block at hand is ended. -/
  Ended : World → Prop
  /-- Nothing was done on the way but to make blocks. -/
  Quiet : World → World → Prop
  /-- The block was made on the way, and may be gone to from all that comes after its start. -/
  Made : World → World → Nat → Prop
  /-- The block may be gone to from here. -/
  Admits : World → Nat → Prop
  settled : ∀ {w}, Live w → Settled w
  settled_ended : ∀ {w}, Ended w → Settled w
  isEnded : ∀ {w s}, Holds w s → Settled w →
    (s.ended.contains s.block = false → Live w) ∧ (s.ended.contains s.block = true → Ended w)
  quiet : ∀ {w}, Quiet w w
  made : ∀ {own pending w w' b}, Le own pending w w' → b ∈ pending → Made w w' b
  made_mono : ∀ {own w w' w'' b}, Le own [] w' w'' → Made w w' b → Made w w'' b
  admits : ∀ {pending w₀ w b}, Le none pending w₀ w → Made w₀ w b → Admits w b
  admits_mono : ∀ {own pending w w' b}, Le own pending w w' → Admits w b → Admits w' b
  newBlock : ∀ {pending w₀ w} name, Le none pending w₀ w → Quiet w₀ w → Live w →
    toRegime.Leads w (newBlock name) fun w' b => Le none (b :: pending) w₀ w' ∧ Quiet w₀ w' ∧ Live w'
  br : ∀ {w b}, Admits w b → Live w → toRegime.Leads w (br b) fun w' _ => Le none [] w w' ∧ Ended w'
  condBr : ∀ {w c b b'}, Has w c → Admits w b → Admits w b' → Live w →
    toRegime.Leads w (condBr c b b') fun w' _ => Le none [] w w' ∧ Ended w'
  setInsert : ∀ {pending pending' w₀ w b}, Le none pending w₀ w → Ended w → pending.Perm (b :: pending') →
    toRegime.Leads w (setInsert b) fun w' _ =>
      Le none pending' w₀ w' ∧ Live w' ∧ ∀ c, Made w₀ w c → Made w₀ w' c
  ret : ∀ {w v}, Has w v → Live w → toRegime.Leads w (ret v) fun w' _ => Le none [] w w' ∧ Ended w'

/-- What the values of expressions are. -/
structure Values (inp : Input) extends Blocks inp where
  /-- The operand is the value of the expression. -/
  Computed : World → Nat → Operand → Prop
  /-- The symbol is that of the function which the expression stands for. -/
  SymbolOf : World → Nat → String → Prop
  computed_mono : ∀ {own pending w w' id v}, Le own pending w w' → Computed w id v → Computed w' id v
  symbolOf_mono : ∀ {own pending w w' id name}, Le own pending w w' → SymbolOf w id name → SymbolOf w' id name
  has_computed : ∀ {w id v}, Computed w id v → Has w v
  computed_given : ∀ {w id v}, Given w v → Computed w id v
  computed_literal : ∀ {w id v}, IsLiteral v → Computed w id v
  computed_symbol : ∀ {w id name}, SymbolOf w id name → Computed w id (.func name)
  computed_assign : ∀ {w id target value v}, inp.tree.form? id = some (.assign target value) →
    Computed w value v → Computed w id v
  /-- A call of a function without a result has no value. -/
  computed_void : ∀ {w id callee args out}, inp.tree.form? id = some (.call callee args) →
    IsSignature inp (typeOf inp callee) out → out.2.1 = .void → Computed w id .absent
  asked_unary : ∀ {w id op operand v}, inp.tree.form? id = some (.unary op operand) →
    Computed w operand v → Asked w v
  asked_binary : ∀ {w id op lhs rhs v}, inp.tree.form? id = some (.binary op lhs rhs) → op.isLogical = false →
    Computed w lhs v → Asked w v
  /-- A callee is called with the signature of its type. -/
  callable : ∀ {w id callee args v out}, inp.tree.form? id = some (.call callee args) →
    IsSignature inp (typeOf inp callee) out → Computed w callee v → Callable w out.1 v

/-- A view of lowering, with what becomes of scopes. -/
structure View (inp : Input) extends Values inp where
  /-- Code may be made in the scope. -/
  Inside : World → Nat → Prop
  /-- The node may be lowered in the scope. -/
  Within : World → Nat → Nat → Prop
  /-- The scope was opened for the container. -/
  Opened : World → Nat → Nat → Prop
  /-- The scope is that of the container, whose names are all declared. -/
  Entered : World → Nat → Nat → Prop
  /-- The scope was not there before. -/
  New : World → Nat → Prop
  /-- What is to be released when the scope is left can be used. -/
  Stocked : World → Nat → Prop
  /-- What the identifier refers to, as seen from a scope. -/
  Refers : World → Nat → Nat → Scope.Ref → Prop
  /-- A variable that can be read and written from a scope. -/
  Place : World → Nat → Scope.Ref → Prop
  inside_mono : ∀ {pending w w' k}, Le none pending w w' → Inside w k → Inside w' k
  within_mono : ∀ {own pending w w' k id}, Le own pending w w' → Within w k id → Within w' k id
  entered_mono : ∀ {own pending w w' k id}, Le own pending w w' → Entered w k id → Entered w' k id
  new_mono : ∀ {own pending w w' k}, Le own pending w w' → New w' k → New w k
  stocked_mono : ∀ {pending w w' k}, Le none pending w w' → Stocked w k → Stocked w' k
  place_mono : ∀ {own pending w w' k ref}, Inside w k → Le own pending w w' → Place w k ref → Place w' k ref
  stocked : ∀ {w k}, Inside w k → Stocked w k
  stocked_unwind : ∀ {w s k n}, Holds w s → Inside w k → n ∈ s.chain.unwind k → Stocked w n
  has_deferred : ∀ {w s n d}, Holds w s → Stocked w n → d ∈ (s.chain.get n).deferred → Has w d.operand
  /-- A scope that was opened on the way is nobody else's. -/
  inner : ∀ {pending w₀ w w' k}, Le none pending w₀ w → New w₀ k → Le (some k) [] w w' → Le none pending w₀ w'
  operand : ∀ {w k id f c}, Within w k id → inp.tree.form? id = some f → c ∈ f.operands → Within w k c
  arg : ∀ {w k id callee args c}, Within w k id → inp.tree.form? id = some (.call callee args) → c ∈ args →
    Within w k c
  property : ∀ {w k id props p}, Within w k id → inp.tree.form? id = some (.object props) → p ∈ props →
    Within w k ((inp.tree.children p).headD 0)
  within_entered : ∀ {w k id c}, Entered w k id → c ∈ valueParts inp.tree id → Within w k c
  defer : ∀ {w k d}, Inside w k → Has w d.operand → toRegime.Goes (some k) w (defer k d) fun w' _ => Inside w' k
  openTransient : ∀ {w k id}, Inside w k → Within w k id →
    toRegime.Goes none w (openTransient k) fun w' i => Inside w' i ∧ Within w' i id ∧ New w i
  openChild : ∀ {w s k id body}, Holds w s → Inside w k → Within w k id →
    inp.tree.form? id = some (.block body) →
    toRegime.Goes none w (openChild k id (s.chain.function k)) fun w' i => Inside w' i ∧ Opened w' i id ∧ New w i
  enterContainer : ∀ {w k id}, Inside w k → Opened w k id →
    toRegime.Goes (some k) w (enterContainer inp k id) fun w' _ => Inside w' k ∧ Entered w' k id
  lookup : ∀ {own w k id name}, Inside w k → Within w k id → inp.tree.form? id = some (.ident name) →
    toRegime.Goes own w (lookup inp k id) fun w' ref => Refers w' k id ref
  place : ∀ {w k id ref}, Refers w k id ref → ref.binding.kind.isFunction = false → Place w k ref
  symbol : ∀ {w k id ref}, Refers w k id ref → ref.binding.kind.isFunction = true → SymbolOf w id ref.binding.code
  bindingAddr : ∀ {own w k ref}, Inside w k → Place w k ref → toRegime.Goes own w (bindingAddr k ref) Has
  namedPointer : ∀ {own w s k id ref}, Holds w s → Inside w k → Refers w k id ref →
    ref.binding.kind.isFunction = true → toRegime.Goes own w (scopePointer k (s.chain.envAt? ref.node)) Has
  ownPointer : ∀ {own w s k id}, Holds w s → Inside w k → Within w k id →
    toRegime.Goes own w (scopePointer k (s.chain.envAt? k)) Has
  enqueue : ∀ {own w k id params result body}, Within w k id →
    inp.tree.form? id = some (.arrowFunc params result body) →
    toRegime.Goes own w (enqueue inp id k) fun w' code => SymbolOf w' id code
  varPlace : ∀ {own w s k id name isConst type init}, Holds w s → Inside w k → Within w k id →
    inp.tree.form? id = some (.varDecl name isConst type init) →
    toRegime.Goes own w (ofScope (s.chain.lookupDecl k id (inp.tree.name id) (inp.tree.span id)))
      fun w' ref => Place w' k ref
  paramPlace : ∀ {own w s k fn f param}, Holds w s → Inside w k → Entered w k fn → inp.tree.form? fn = some f →
    f.isFunction = true → param ∈ f.params →
    toRegime.Goes own w (ofScope (s.chain.lookupDecl k param (inp.tree.name param) (inp.tree.span param)))
      fun w' ref => Place w' k ref

/-! ### The scope at hand -/

namespace View

variable (V : View inp)

/-- The scope at hand, in which code can be made. -/
abbrev scopePart (k : Nat) : V.Part := ⟨(V.Inside · k), some k, V.inside_mono⟩

/-- In the scope at hand the computation changes no scope but that one, and code can still be made in it. -/
abbrev In (k : Nat) (w : V.World) (act : LowerM α) (Q : V.World → α → Prop) : Prop :=
  V.Stays (V.scopePart k) w act Q

/-- On the way from `w₀` the blocks `made` were made, of which those in `pending` are still to be gone to. -/
structure Way (made pending : List Nat) (w₀ w : V.World) : Prop where
  le : V.Le none pending w₀ w
  made : ∀ b ∈ made, V.Made w₀ w b

end View

theorem in_unsupported {V : View inp} {k : Nat} {w : V.World} {Q : V.World → α → Prop} {id : Nat}
    {reason : String} : V.In k w (unsupported inp id reason : LowerM α) Q := .throw V.allowed_translation

namespace View.Way

variable {V : View inp} {made pending pending' : List Nat} {w₀ w : V.World} {act : LowerM α}
variable {Q : V.World → α → Prop} {R : V.World → β → Prop}

/-- The blocks were made one after another, and nothing else was done. -/
theorem start (h : V.Le none pending w₀ w) : V.Way pending pending w₀ w := ⟨h, fun _ hb => V.made h hb⟩

theorem trans {w' : V.World} (h : V.Way made pending w₀ w) (hl : V.Le none [] w w') :
    V.Way made pending w₀ w' := ⟨V.trans h.le hl, fun b hb => V.made_mono hl (h.made b hb)⟩

/-- A step on the way. -/
theorem bind {f : α → LowerM β} (h : V.Way made pending w₀ w) (hlive : V.Live w) (hact : V.Goes none w act Q)
    (hf : ∀ w' a, V.Way made pending w₀ w' → V.Live w' → V.Le none [] w w' → Q w' a → V.Leads w' (f a) R) :
    V.Leads w (act >>= f) R :=
  (hact hlive).bind fun w' a hq => hf w' a (h.trans hq.1) hq.2.1 hq.1 hq.2.2

/-- A step in a scope that was opened on the way. -/
theorem bindInner {f : α → LowerM β} {k : Nat} (h : V.Way made pending w₀ w) (hlive : V.Live w) (hnew : V.New w₀ k)
    (hact : V.Goes (some k) w act Q)
    (hf : ∀ w' a, V.Way made pending w₀ w' → V.Live w' → V.Le (some k) [] w w' → Q w' a → V.Leads w' (f a) R) :
    V.Leads w (act >>= f) R :=
  (hact hlive).bind fun w' a hq => hf w' a
    ⟨V.inner h.le hnew hq.1, fun b hb => V.made_mono hq.1 (h.made b hb)⟩ hq.2.1 hq.1 hq.2.2

/-- The end of the way. -/
theorem last (h : V.Way made [] w₀ w) (hlive : V.Live w) (hact : V.Goes none w act Q) :
    V.Leads w act fun w' a => V.Le none [] w₀ w' ∧ V.Live w' ∧ Q w' a :=
  (hact hlive).imp fun _ _ hq => ⟨V.trans h.le hq.1, hq.2⟩

theorem br (h : V.Way made pending w₀ w) (hlive : V.Live w) {b : Nat} (hb : b ∈ made) :
    V.Leads w (br b) fun w' _ => V.Way made pending w₀ w' ∧ V.Ended w' :=
  (V.br (V.admits h.le (h.made b hb)) hlive).imp fun _ _ hq => ⟨h.trans hq.1, hq.2⟩

theorem condBr (h : V.Way made pending w₀ w) (hlive : V.Live w) {c : Operand} (hc : V.Has w c) {b b' : Nat}
    (hb : b ∈ made) (hb' : b' ∈ made) :
    V.Leads w (condBr c b b') fun w' _ => V.Way made pending w₀ w' ∧ V.Le none [] w w' ∧ V.Ended w' :=
  (V.condBr hc (V.admits h.le (h.made b hb)) (V.admits h.le (h.made b' hb')) hlive).imp fun _ _ hq =>
    ⟨h.trans hq.1, hq.1, hq.2⟩

/-- A block that was made is gone to. -/
theorem enter (h : V.Way made pending w₀ w) (hended : V.Ended w) {b : Nat} (hperm : pending.Perm (b :: pending')) :
    V.Leads w (setInsert b) fun w' _ => V.Way made pending' w₀ w' ∧ V.Live w' :=
  (V.setInsert h.le hended hperm).imp fun _ _ hq => ⟨⟨hq.1, fun c hc => hq.2.2 c (h.made c hc)⟩, hq.2.1⟩

end View.Way

section

variable {I : Instructions inp} {own : Option Nat} {w : I.World}

theorem goes_unsupported {Q : I.World → α → Prop} {id : Nat} {reason : String} :
    I.Goes own w (unsupported inp id reason : LowerM α) Q := .throw I.allowed_translation

/-! ### Objects -/

theorem goes_fieldAddr {d : Descriptor} {base : Operand} {f : Field} (hd : I.Layout w d) (hbase : I.Has w base)
    (hf : I.Slot f.slot) : I.Goes own w (fieldAddr d base f) I.Given :=
  (I.useStruct hd).bind fun _ _ hl ht => I.slotAddr ht (I.has_mono hl hbase) hf

theorem goes_loadField {d : Descriptor} {base : Operand} {f : Field} (hd : I.Layout w d) (hbase : I.Has w base)
    (hf : I.Slot f.slot) : I.Goes own w (loadField d base f) I.Given :=
  (goes_fieldAddr hd hbase hf).bind fun _ _ _ haddr => I.load _ (I.has_given haddr)

theorem goes_storeField {d : Descriptor} {base v : Operand} {f : Field} (hd : I.Layout w d) (hbase : I.Has w base)
    (hf : I.Slot f.slot) (hv : I.Has w v) : I.Goes own w (do store (← fieldAddr d base f) v) fun _ _ => True :=
  (goes_fieldAddr hd hbase hf).bind fun _ _ hl haddr => I.store (I.has_given haddr) (I.has_mono hl hv)

theorem goes_retain (r : Rep) {v : Operand} (hv : I.Has w v) : I.Goes own w (retain r v) fun _ _ => True := by
  unfold retain
  split
  · exact I.callHelper (by simp [helperNames]) hv
  · exact I.callHelper (by simp [helperNames]) hv
  · exact I.callHelper (by simp [helperNames]) hv
  · exact .pure trivial

theorem goes_release (r : Rep) {v : Operand} (hv : I.Has w v) : I.Goes own w (release r v) fun _ _ => True := by
  unfold release
  split
  · exact I.callHelper (by simp [helperNames]) hv
  · exact I.callHelper (by simp [helperNames]) hv
  · exact I.callHelper (by simp [helperNames]) hv
  · exact .pure trivial

theorem goes_storeOwned {addr v : Operand} (r : Rep) (haddr : I.Has w addr) (hv : I.Has w v) :
    I.Goes own w (storeOwned addr r v) fun _ _ => True := by
  unfold storeOwned
  split
  · refine (goes_retain r hv).bind fun w₁ _ hl₁ _ => ?_
    refine (I.load _ (I.has_mono hl₁ haddr)).bind fun w₂ old hl₂ hold => ?_
    have hl := I.trans hl₁ hl₂
    refine (I.store (I.has_mono hl haddr) (I.has_mono hl hv)).bind fun w₃ _ hl₃ _ => ?_
    exact goes_release r (I.has_given (I.given_mono hl₃ hold))
  · exact I.store haddr hv

theorem goes_testTag {p : Operand} (hp : I.Has w p) (tag : Int) : I.Goes own w (testTag p tag) I.Given := by
  refine .of_holds fun s hs => ?_
  refine (I.slotAddr (I.header hs) hp I.slot_tag).bind fun w₁ addr _ haddr => ?_
  refine (I.load _ (I.has_given haddr)).bind fun w₂ word _ hword => ?_
  exact I.compare .eq (I.has_given hword) (I.asked_given hword) (I.has_literal trivial)

theorem goes_closureFields {d : Descriptor} (hd : I.Layout w d) :
    I.Goes own w (closureFields d) fun _ fs => I.Slot fs.1.slot ∧ I.Slot fs.2.slot :=
  (I.fieldOf "code" hd).bind fun _ _ hl hcode => (I.fieldOf "env" (I.layout_mono hl hd)).bind fun _ _ _ henv =>
    .pure ⟨hcode, henv⟩

theorem goes_layoutOfRep (r : Rep) : I.Goes own w (layoutOfRep r) fun w' d => ∀ d', d = some d' →
    I.Layout w' d' := by
  refine .read fun s hs => .pure fun d hd => ?_
  obtain ⟨l, -, hl⟩ := Option.bind_eq_some_iff.1 hd
  exact I.layout_all hs (Registry.mem_of_descriptor? hl)

end

variable {V : View inp} {own : Option Nat} {k : Nat} {w w' : V.World}

/-! ### Leaving scopes -/

/-- What is released when a scope is left can be used. -/
theorem goes_emitDeferred {n : Nat} (h : V.Stocked w n) : V.Goes own w (emitDeferred n) fun _ _ => True := by
  refine .read fun s hs => Regime.Goes.forM (I := fun _ => True) trivial fun d hd w₁ hl₁ _ => ?_
  have hoperand := V.has_mono hl₁ (V.has_deferred hs h hd)
  split
  · exact goes_release d.rep hoperand
  · exact (V.load _ hoperand).bind fun w₂ old _ hold => goes_release d.rep (V.has_given hold)
  · refine (V.load _ hoperand).bind fun w₂ old hl₂ hold => ?_
    refine (V.store (V.has_mono hl₂ hoperand) (V.has_literal (v := .null) trivial)).bind fun w₃ _ hl₃ _ => ?_
    exact goes_release d.rep (V.has_given (V.given_mono hl₃ hold))

/-- A return leaves all scopes of the function. -/
theorem leads_emitReturn {v : Operand} (hk : V.Inside w k) (hv : V.Has w v) (r : Rep) (hlive : V.Live w) :
    V.Leads w (emitReturn k v r) fun w' _ => V.Le none [] w w' ∧ V.Ended w' := by
  have hrest (w : V.World) (v : Operand) (hk : V.Inside w k) (hv : V.Has w v) (hlive : V.Live w) : V.Leads w (do
      ((← get).chain.unwind k).forM emitDeferred
      ret v) fun w' _ => V.Le none [] w w' ∧ V.Ended w' := by
    refine .read fun s hs => ?_
    have hleave : V.Goes none w ((s.chain.unwind k).forM emitDeferred) fun _ _ => True :=
      Regime.Goes.forM (I := fun _ => True) trivial fun n hn w₁ hl₁ _ =>
        goes_emitDeferred (V.stocked_mono hl₁ (V.stocked_unwind hs hk hn))
    refine (hleave hlive).bind fun w₁ _ ⟨hl₁, hlive₁, _⟩ => ?_
    exact (V.ret (V.has_mono hl₁ hv) hlive₁).imp fun _ _ hq => ⟨V.trans hl₁ hq.1, hq.2⟩
  unfold emitReturn
  have hv' : V.Has w (if r = .void then .absent else v) := by
    split
    · exact V.has_absent
    · exact hv
  dsimp only
  split
  · exact hrest w _ hk hv' hlive
  · refine ((goes_retain r hv' : V.Goes none w _ _) hlive).bind fun w₁ _ ⟨hl₁, hlive₁, _⟩ => ?_
    refine (hrest w₁ _ (V.inside_mono hl₁ hk) (V.has_mono hl₁ hv') hlive₁).imp fun _ _ hq => ?_
    exact ⟨V.trans hl₁ hq.1, hq.2⟩

/-! ### Function values -/

/-- The function value is that of the expression. -/
def View.FunctionOf (V : View inp) (w : V.World) (id : Nat) : Callee → Prop
  | .code name => V.SymbolOf w id name
  | .closure name scope => V.SymbolOf w id name ∧ V.Has w scope
  | .dynamic v => V.Computed w id v

/-- The handle is the value of the expression. -/
def View.ValueOf (V : View inp) (w : V.World) (id : Nat) : Handle → Prop
  | .scalar v _ | .heap v _ => V.Computed w id v
  | .function c _ => V.FunctionOf w id c

theorem View.FunctionOf.mono {pending : List Nat} {id : Nat} {c : Callee} (h : V.FunctionOf w id c)
    (hl : V.Le own pending w w') : V.FunctionOf w' id c := by
  cases c with
  | code name => exact V.symbolOf_mono hl h
  | closure name scope => exact ⟨V.symbolOf_mono hl h.1, V.has_mono hl h.2⟩
  | dynamic v => exact V.computed_mono hl h

theorem View.valueOf_ofRep {id : Nat} {v : Operand} (h : V.Computed w id v) (r : Rep) :
    V.ValueOf w id (.ofRep v r) := by
  unfold Handle.ofRep
  split <;> exact h

/-- A function value is turned into a pointer. -/
theorem in_materialize {id : Nat} {c : Callee} (hc : V.FunctionOf w id c) :
    V.In k w (materialize inp k c) fun w' v => V.Computed w' id v := by
  cases c with
  | code name => exact .pure (V.computed_symbol hc)
  | dynamic v => exact .pure hc
  | closure name scope =>
    obtain ⟨hname, hscope⟩ := hc
    have hfunc : V.Has w (.func name) := V.has_computed (V.computed_symbol hname)
    refine .read fun s hs => ?_
    have hd := V.layout_closure hs
    refine .step (V.construct hd) fun w₁ obj hl₁ hobj => ?_
    refine .step (goes_closureFields (V.layout_mono hl₁ hd)) fun w₂ fs hl₂ ⟨hcode, henv⟩ => ?_
    have hl₁₂ := V.trans hl₁ hl₂
    have hobj₂ := V.given_mono hl₂ hobj
    refine .step (goes_fieldAddr (V.layout_mono hl₁₂ hd) (V.has_given hobj₂) hcode) fun w₃ addr hl₃ haddr => ?_
    have hl₁₃ := V.trans hl₁₂ hl₃
    refine .step (V.store (V.has_given haddr) (V.has_mono hl₁₃ hfunc)) fun w₄ _ hl₄ _ => ?_
    have hl₁₄ := V.trans hl₁₃ hl₄
    refine .step (goes_retain .scope (V.has_mono hl₁₄ hscope)) fun w₅ _ hl₅ _ => ?_
    have hl₁₅ := V.trans hl₁₄ hl₅
    have hobj₅ := V.given_mono hl₅ (V.given_mono hl₄ (V.given_mono hl₃ hobj₂))
    refine .step (goes_fieldAddr (V.layout_mono hl₁₅ hd) (V.has_given hobj₅) henv) fun w₆ addr' hl₆ haddr' => ?_
    have hl₁₆ := V.trans hl₁₅ hl₆
    refine .step (V.store (V.has_given haddr') (V.has_mono hl₁₆ hscope)) fun w₇ _ hl₇ _ => .of_kept fun hk => ?_
    have hobj₇ := V.given_mono hl₇ (V.given_mono hl₆ hobj₅)
    refine .bind (fun _ => (V.defer hk (V.has_given hobj₇)).imp fun _ _ _ hk' => ⟨hk', trivial⟩)
      fun w₈ _ hl₈ _ => .pure (V.computed_given (V.given_mono hl₈ hobj₇))

theorem in_toOperand {id : Nat} {h : Handle} (hh : V.ValueOf w id h) :
    V.In k w (h.toOperand inp k) fun w' v => V.Computed w' id v := by
  cases h with
  | scalar v r => exact .pure hh
  | heap v r => exact .pure hh
  | function c r => exact in_materialize hh

theorem in_defer {d : Scope.Deferred} (hd : V.Has w d.operand) : V.In k w (defer k d) fun _ _ => True :=
  fun hk => (V.defer hk hd).imp fun _ _ _ hk' => ⟨hk', trivial⟩

end TypedScript.Lower
