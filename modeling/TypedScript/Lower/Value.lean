import TypedScript.Lower.Scopes

/-!
# Lowering: values and function values

The value of an expression is borrowed: who keeps it has to retain it. A function value is kept in the simplest of
three shapes for as long as possible; only when it is stored or passed is it turned into a pointer.
-/

namespace TypedScript.Lower

open TypedScript.Ir TypedScript.Layout

/-- A function value, as far as it is known before the program runs. -/
inductive Callee where
  /-- A function that needs no environment. -/
  | code (name : String)
  /-- A function with the scope object it is called in. -/
  | closure (name : String) (scope : Operand)
  /-- A code pointer or a pointer to a closure object. -/
  | dynamic (value : Operand)

/-- The outcome of lowering an expression. -/
inductive Handle where
  /-- A value without parts, or a pointer to immutable bytes. -/
  | scalar (value : Operand) (rep : Rep)
  /-- A pointer to a counted object, or null. -/
  | heap (value : Operand) (rep : Rep)
  | function (callee : Callee) (rep : Rep)

namespace Handle

def rep : Handle → Rep
  | scalar _ r | heap _ r | function _ r => r

/-- What a call without a result gives. -/
def none : Handle := scalar .absent .void

/-- A loaded value, by its representation. -/
def ofRep (v : Operand) (r : Rep) : Handle :=
  match r with
  | .func _ => function (.dynamic v) r
  | .object .. | .scope => heap v r
  | _ => scalar v r

end Handle

/-- The code and the environment field of a closure layout. -/
def closureFields (d : Descriptor) : LowerM (Field × Field) := return (← fieldOf d "code", ← fieldOf d "env")

/-- Turns a function value into a pointer. A closure is put into a new closure object, which `cur` owns. -/
def materialize (inp : Input) (cur : Nat) : Callee → LowerM Operand
  | .code name => return .func name
  | .dynamic v => return v
  | .closure name scope => do
    let d := (← get).registry.closure
    let obj ← construct inp d
    let (code, env) ← closureFields d
    store (← fieldAddr d obj code) (.func name)
    retain .scope scope
    store (← fieldAddr d obj env) scope
    defer cur ⟨.value, obj, .object (some d.ref) 0⟩
    return obj

/-- The value of a handle as a single operand. -/
def Handle.toOperand (inp : Input) (cur : Nat) : Handle → LowerM Operand
  | scalar v _ | heap v _ => return v
  | function callee _ => materialize inp cur callee

/-- Calls a pointer that may be a code pointer or a closure. The tag tells them apart: a code pointer shows no
tag. -/
def dispatch (callee : Operand) (sig : Sig) (args : List Operand) : LowerM Operand := do
  let isVoid := sig.ret == (Scalar.void : Ir.Ty)
  let slot ← if isVoid then pure .absent else alloca sig.ret
  let keep (r : Operand) : LowerM Unit := if isVoid then pure () else store slot r
  let closure ← newBlock "call.closure"
  let bare ← newBlock "call.code"
  let join ← newBlock "call.join"
  condBr (← testTag callee closureTag) closure bare
  setInsert closure
  let d := (← get).registry.closure
  let (codeField, envField) ← closureFields d
  let code ← loadField d callee codeField
  let env ← loadField d callee envField
  keep (← callDirect sig code (env :: args))
  br join
  setInsert bare
  keep (← callDirect sig callee (.null :: args))
  br join
  setInsert join
  if isVoid then return .absent else load sig.ret slot

/-- Calls a function with arguments that were retained for it. -/
def Callee.invoke (c : Callee) (sig : Sig) (args : List Operand) : LowerM Operand :=
  match c with
  | code name => callDirect sig (.func name) (.null :: args)
  | closure name scope => callDirect sig (.func name) (scope :: args)
  | dynamic v => dispatch v sig args

/-- The value of a function that is known by name. -/
def namedFunction (inp : Input) (cur : Nat) (ref : Scope.Ref) : LowerM Callee := do
  let b := ref.binding
  if b.kind = .foreign || inp.analysis.isPure b.decl then return .code b.code
  return .closure b.code (← scopePointer cur ((← get).chain.envAt? ref.node))

/-- The value of an arrow function, whose body is lowered later. -/
def arrowValue (inp : Input) (cur id : Nat) : LowerM Callee := do
  let code ← enqueue inp id cur
  if inp.analysis.isPure id then return .code code
  return .closure code (← locate (inp.tree.span id) (scopePointer cur ((← get).chain.envAt? cur)))

/-- Hands a value to the caller and leaves every scope of the function. -/
def emitReturn (cur : Nat) (v : Operand) (r : Rep) : LowerM Unit := do
  let v := if r = .void then .absent else v
  match v with
  | .absent => pure ()
  | v => retain r v
  ((← get).chain.unwind cur).forM emitDeferred
  ret v

/-- What a function returns if its end is reached. -/
def zero : Rep → Operand
  | .void => .absent
  | .bool => .bool false
  | .int bits => .int (.ofBits bits) 0
  | .float => .float 0
  | _ => .null

end TypedScript.Lower
