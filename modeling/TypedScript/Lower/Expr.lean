import TypedScript.Decimal.Reading
import TypedScript.Decimal.Text
import TypedScript.Lower.Value

/-!
# Lowering: expressions

Values that have to be released once the expression has been used are registered with the scope the expression is
lowered in. Operands are lowered from left to right, except that an assignment lowers its value before its target.
-/

namespace TypedScript.Lower

open TypedScript.Ast TypedScript.Ir TypedScript.Layout

/-- How the parts of an expression are lowered: given the scope and the node. -/
abbrev Evaluator := Nat → Nat → LowerM Handle

/-- The number without its fraction as a 64-bit integer; the least one if it does not fit. -/
def truncated (x : Float) : Int :=
  let least := -Decimal.int64Bound
  match Decimal.Binary.ofBits x.toBits with
  | .finite negative mantissa exponent =>
    let whole := if exponent ≥ 0 then mantissa * Nat.pow 2 exponent.toNat else mantissa / Nat.pow 2 exponent.natAbs
    let v : Int := if negative then -whole else whole
    if Decimal.fitsInt64 v then v else least
  | _ => least

/-- A number, of an integer type if its context asks for one. -/
def number (inp : Input) (id : Nat) (value : Float) : LowerM Handle := do
  match ← repOf inp id with
  | .int bits => return .scalar (.int (.ofBits bits) (truncated value)) (.int bits)
  | _ => return .scalar (.float value) .float

/-- The use of a name. -/
def ident (inp : Input) (cur id : Nat) : LowerM Handle := do
  let ref ← lookup inp cur id
  let b := ref.binding
  if b.kind.isFunction then return .function (← locate (inp.tree.span id) (namedFunction inp cur ref)) b.rep
  let addr ← locate (inp.tree.span id) (bindingAddr cur ref)
  return .ofRep (← load (irType b.rep) addr) b.rep

/-- The layout of the objects that values of a representation point to. -/
def layoutOfRep (r : Rep) : LowerM (Option Descriptor) := do
  let registry := (← get).registry
  return r.layout?.bind fun l => registry.descriptor? l.tag

/-- The object of a property access with its layout, and the field. -/
def objectOperand (inp : Input) (ev : Evaluator) (cur id object : Nat) (name : String) :
    LowerM (Operand × Descriptor × Field) := do
  let fail {α : Type} : LowerM α := unsupported inp id "property access on a value without a layout"
  match ← ev cur object with
  | .heap v rep =>
    match ← layoutOfRep rep with
    | some d => return (v, d, ← locate (inp.tree.span id) (fieldOf d name))
    | none => fail
  | _ => fail

/-- A property access. -/
def member (inp : Input) (ev : Evaluator) (cur id object : Nat) (name : String) : LowerM Handle := do
  let (v, d, f) ← objectOperand inp ev cur id object name
  return .ofRep (← loadField d v f) f.rep

/-- An object literal: the properties in source order, then the object, which `cur` owns. -/
def objectLiteral (inp : Input) (ev : Evaluator) (cur id : Nat) (props : List Nat) : LowerM Handle := do
  let rep ← repOf inp id
  match ← layoutOfRep rep with
  | none => unsupported inp id "object literal without a structural type"
  | some d =>
    let inits ← props.mapM fun p => do
      let f ← locate (inp.tree.span p) (fieldOf d (inp.tree.name p))
      let h ← ev cur ((inp.tree.children p).headD 0)
      return (f, ← h.toOperand inp cur)
    let obj ← construct inp d
    inits.forM fun (f, v) => do
      retain f.rep v
      store (← fieldAddr d obj f) v
    defer cur ⟨.value, obj, rep⟩
    return .heap obj rep

/-- A call: the callee, then the arguments, each retained for the callee. A counted result is owned by `cur`. -/
def call (inp : Input) (ev : Evaluator) (cur id callee : Nat) (args : List Nat) : LowerM Handle := do
  let (sig, result, params) ← signature inp (typeOf inp callee) (inp.tree.span callee)
  if params.length ≠ args.length then
    unsupported inp id "argument count does not match the signature"
  match ← ev cur callee with
  | .function fn fnRep =>
    if let .dynamic v := fn then
      -- the callee stays alive while the arguments are lowered and the call runs
      retain fnRep v
      defer cur ⟨.value, v, fnRep⟩
    let vs ← (args.zip params).mapM fun (a, p) => do
      let h ← ev cur a
      let v ← h.toOperand inp cur
      retain p v
      return v
    let r ← fn.invoke sig vs
    if result = .void then return .none
    if result.isCounted then defer cur ⟨.value, r, result⟩
    return .ofRep r result
  | h => throw (.unknownCallee (inp.tree.span callee) h.rep.text)

/-- A prefix operator. -/
def unary (inp : Input) (ev : Evaluator) (cur id : Nat) (op : UnaryOp) (operand : Nat) : LowerM Handle := do
  match ← ev cur operand with
  | .scalar x rep =>
    match op, rep with
    | .negate, .float => return .scalar (← binary .mul x (.float (-1))) rep
    | .negate, .int bits => return .scalar (← binary .sub (.int (.ofBits bits) 0) x) rep
    | .not, .bool => return .scalar (← compare .eq x (.bool false)) .bool
    | _, _ => unsupported inp id s!"operator {op.token.name} on {rep.text}"
  | _ => unsupported inp id "operand is not a scalar"

/-- The instruction of an arithmetic operator. -/
def arithmetic? : BinaryOp → Option Op
  | .add => some .add
  | .sub => some .sub
  | .mul => some .mul
  | .div => some .div
  | .rem => some .rem
  | _ => none

/-- The predicate of a comparison. -/
def predicate? : BinaryOp → Option Pred
  | .eq | .eqStrict => some .eq
  | .ne | .neStrict => some .ne
  | .lt => some .lt
  | .le => some .le
  | .gt => some .gt
  | .ge => some .ge
  | _ => none

/-- Whether a representation is that of numbers. -/
def isNumeric : Rep → Bool
  | .int _ | .float => true
  | _ => false

/-- An arithmetic operator or a comparison. -/
def strict (inp : Input) (ev : Evaluator) (cur id : Nat) (op : BinaryOp) (lhs rhs : Nat) : LowerM Handle := do
  let xh ← ev cur lhs
  let x ← xh.toOperand inp cur
  let yh ← ev cur rhs
  let y ← yh.toOperand inp cur
  match arithmetic? op, predicate? op with
  | some o, _ =>
    if !isNumeric xh.rep then unsupported inp id s!"operator {op.token.name} on {xh.rep.text}"
    return .scalar (← binary o x y) xh.rep
  | none, some p => return .scalar (← compare p x y) .bool
  | none, none => unsupported inp id s!"operator {op.token.name}"

/-- A logical operator. The right operand is lowered in a scope of its own, because what it makes is to be
released only where it has been evaluated. -/
def logical (inp : Input) (ev : Evaluator) (cur : Nat) (op : BinaryOp) (lhs rhs : Nat) : LowerM Handle := do
  let result ← alloca Scalar.i1
  let xh ← ev cur lhs
  let x ← xh.toOperand inp cur
  store result x
  let more ← newBlock "logic.rhs"
  let join ← newBlock "logic.join"
  if op = .and then condBr x more join else condBr x join more
  setInsert more
  let inner ← openTransient cur
  let yh ← ev inner rhs
  store result (← yh.toOperand inp inner)
  emitDeferred inner
  br join
  setInsert join
  return .scalar (← load Scalar.i1 result) .bool

/-- The address that an assignment writes to, and the representation of what is there. -/
def assignTarget (inp : Input) (ev : Evaluator) (cur id target : Nat) : LowerM (Operand × Rep) := do
  match inp.tree.form? target with
  | some (.ident name) =>
    let ref ← lookup inp cur target
    if ref.binding.kind.isFunction then unsupported inp id ("cannot assign to function " ++ name)
    return (← locate (inp.tree.span target) (bindingAddr cur ref), ref.binding.rep)
  | some (.member object name) =>
    let (v, d, f) ← objectOperand inp ev cur target object name
    return (← fieldAddr d v f, f.rep)
  | _ => unsupported inp id ("invalid assignment target " ++ inp.tree.kindName target)

/-- An assignment: the value, then the place it goes to. -/
def assign (inp : Input) (ev : Evaluator) (cur id target value : Nat) : LowerM Handle := do
  let h ← ev cur value
  let v ← h.toOperand inp cur
  let (addr, rep) ← assignTarget inp ev cur id target
  storeOwned addr rep v
  return .ofRep v rep

/-- Lowers an expression in a scope. Parts come before wholes, so the number of the node bounds the depth. -/
def expr (inp : Input) : Nat → Evaluator
  | 0, _, id => unsupported inp id "not an expression"
  | depth + 1, cur, id =>
    let ev := expr inp depth
    match inp.tree.form? id with
    | some (.ident _) => ident inp cur id
    | some (.number v) => number inp id v
    | some (.string v) => do
      emit (.constant (.string v))
      return .scalar (.string v) (.string (typeOf inp id))
    | some (.bool v) => return .scalar (.bool v) .bool
    | some .null => return .ofRep .null (← repOf inp id)
    | some (.object props) => objectLiteral inp ev cur id props
    | some (.member object name) => member inp ev cur id object name
    | some (.call callee args) => call inp ev cur id callee args
    | some (.unary op operand) => unary inp ev cur id op operand
    | some (.binary op lhs rhs) =>
      if op.isLogical then logical inp ev cur op lhs rhs else strict inp ev cur id op lhs rhs
    | some (.assign target value) => assign inp ev cur id target value
    | some (.arrowFunc ..) => do
      let fn ← arrowValue inp cur id
      return .function fn (← repOf inp id)
    | some .this => unsupported inp id "receivers are not supported"
    | _ => unsupported inp id "not an expression"

end TypedScript.Lower
