import TypedScript.Ir.Command
import TypedScript.Llvm.Value

/-!
# LLVM modules

A module carries out commands as LLVM instructions. Pointers are cast where the command does not say what they
point to.
-/

namespace TypedScript.Llvm

open TypedScript.Ir (Fault Operand Scalar)

inductive Inst where
  | alloca (type : Ty)
  | cast (v : Val) (target : Ty)
  /-- The address of a slot of a struct. -/
  | slot (struct : Ty) (base : Val) (index : Nat)
  | load (type : Ty) (addr : Val)
  | store (v addr : Val)
  | call (ret : Ty) (callee : Val) (args : List Val)
  | binary (name : String) (x y : Val)
  | compare (name : String) (x y : Val)
  deriving Inhabited

inductive Term where
  | ret (v : Option Val)
  | br (block : Nat)
  | condBr (cond : Val) (thenBlock elseBlock : Nat)
  deriving Inhabited

/-- An instruction with the key and the type of its result. -/
structure Line where
  key : Nat
  type : Ty
  inst : Inst
  deriving Inhabited

structure Block where
  name : String
  lines : Array Line := #[]
  term : Option Term := none
  deriving Inhabited

/-- What a register of the commands stands for: a value, and its type in the commands. -/
structure Register where
  val : Val
  type : Ir.Ty
  deriving Inhabited

structure Function where
  name : String
  sig : Ir.Sig
  ret : Ty
  params : List (String × Ty)
  isDefined : Bool := false
  blocks : Array Block := #[]
  registers : Array Register := #[]
  /-- The number of instructions, which are the keys of results. -/
  count : Nat := 0
  deriving Inhabited

structure Module where
  sourceName : String := ""
  triple : String := ""
  /-- The structs with the types of their slots, in the order of their declaration. -/
  structs : List (String × List Ty) := []
  texts : Array String := #[]
  functions : Array Function := #[]
  current : Option Nat := none
  block : Nat := 0
  deriving Inhabited

namespace Module

def index? (m : Module) (name : String) : Option Nat := m.functions.findIdx? (·.name = name)

def find? (m : Module) (name : String) : Option Function := m.functions.find? (·.name = name)

def function? (m : Module) : Option Function := m.current.bind (m.functions[·]?)

def block? (m : Module) : Option Block := m.function?.bind (·.blocks[m.block]?)

/-- Whether the block at hand has its last instruction. -/
def isEnded (m : Module) : Bool := m.block?.elim true (·.term.isSome)

end Module

/-! ### Types -/

def ofScalar : Scalar → Ty
  | .void => .void
  | .f64 => .double
  | .ptr => .bytePtr
  | s => (s.intBits?).elim .bytePtr .int

mutual

/-- The type of values of a command's type. A struct that was not declared is pointed to. -/
def ofTy (structs : List String) : Ir.Ty → Ty
  | .scalar s => ofScalar s
  | .struct name _ => if structs.contains name then .struct name else .bytePtr
  | .func ret params => .ptr (.func (ofTy structs ret) (ofTys structs params))

def ofTys (structs : List String) : List Ir.Ty → List Ty
  | [] => []
  | t :: ts => ofTy structs t :: ofTys structs ts

end

namespace Module

def typeOf (m : Module) (t : Ir.Ty) : Ty := ofTy (m.structs.map (·.1)) t

/-! ### Building -/

abbrev BuildM := StateT Module (Except Fault)

def broken {α : Type} (message : String) : BuildM α := throw (.broken message)

def modifyCurrent (f : Function → Function) : BuildM Unit :=
  modify fun m =>
    match m.current with
    | some i => { m with functions := m.functions.modify i f }
    | none => m

/-- Appends an instruction to a block; the result is its value. -/
def appendTo (block : Nat) (type : Ty) (inst : Inst) : BuildM Val := do
  match (← get).function? with
  | none => throw .crash
  | some f =>
    let key := f.count
    let put (b : Block) : Block := { b with lines := b.lines.push ⟨key, type, inst⟩ }
    modifyCurrent fun f => { f with blocks := f.blocks.modify block put, count := key + 1 }
    return .result key type

/-- Appends an instruction to the block at hand. -/
def append (type : Ty) (inst : Inst) : BuildM Val := do appendTo (← get).block type inst

/-- Ends the block at hand. A later end replaces an earlier one. -/
def terminate (t : Term) : BuildM Unit := do
  let m ← get
  if m.current.isNone then throw .crash
  modifyCurrent fun f => { f with blocks := f.blocks.modify m.block fun b => { b with term := some t } }

/-- Gives a value the next register. -/
def bind (val : Val) (type : Ir.Ty) : BuildM Unit :=
  modifyCurrent fun f => { f with registers := f.registers.push ⟨val, type⟩ }

/-- The place of a text among the texts of the module. -/
def intern (s : String) : BuildM Nat :=
  modifyGet fun m =>
    match m.texts.findIdx? (· = s) with
    | some i => (i, m)
    | none => (m.texts.size, { m with texts := m.texts.push s })

/-- The value of an operand. -/
def unwrap (o : Operand) : BuildM Val := do
  let m ← get
  match o with
  | .reg id => return ((m.function?.getD default).registers.getD id default).val
  | .int t v =>
    match t.intBits? with
    | some bits => return .const (.int bits v)
    | none => broken s!"llvm: {t.text} is not an integer type"
  | .float v => return .const (.double v)
  | .bool v => return .const (.int 1 (if v then 1 else 0))
  | .null => return .const .null
  | .string v => return .const (.cast (.text (← intern v) (v.utf8ByteSize + 1)) .bytePtr)
  | .func name =>
    match m.find? name with
    | some f => return .const (.cast (.function name f.ret (f.params.map (·.2))) .bytePtr)
    | none => throw .crash
  | .absent => broken "llvm: foreign value <nil>"

/-- The type of an operand in the commands. -/
def operandType (o : Operand) : BuildM Ir.Ty := do
  match o with
  | .reg id => return (((← get).function?.getD default).registers.getD id default).type
  | .int t _ => return t
  | .float _ => return Scalar.f64
  | .bool _ => return Scalar.i1
  | _ => return Scalar.ptr

/-- A value as one of the given type. -/
def castTo (v : Val) (type : Ty) : BuildM Val := do
  if v.type == type then return v
  match v with
  | .const c => return .const (.cast c type)
  | v => append type (.cast v type)

/-- The value as one of the given type, if it is a pointer. -/
def castPtr (v : Val) (type : Ty) : BuildM Val := if v.type.isPtr then castTo v type else pure v

/-! ### Instructions -/

def slotAddr (s : Ir.Struct) (base : Operand) (slot : Nat) : BuildM Unit := do
  match (← get).structs.lookup s.name with
  | none => broken s!"llvm: struct {s.name} was not declared"
  | some fields =>
    let p ← castTo (← unwrap base) (.ptr (.struct s.name))
    if (← get).current.isNone then throw .crash
    match fields[slot]? with
    | none => throw .crash
    | some type => bind (← append (.ptr type) (.slot (.struct s.name) p slot)) Scalar.ptr

def load (type : Ir.Ty) (addr : Operand) : BuildM Unit := do
  let t := (← get).typeOf type
  let p ← castTo (← unwrap addr) (.ptr t)
  bind (← append t (.load t p)) type

def store (addr v : Operand) : BuildM Unit := do
  let x ← unwrap v
  let p ← castTo (← unwrap addr) (.ptr x.type)
  let _ ← append .void (.store x p)

def call (sig : Ir.Sig) (callee : Operand) (args : List Operand) : BuildM Unit := do
  let args ← args.zipIdx.mapM fun (a, i) => do
    let x ← unwrap a
    match sig.params[i]? with
    | some p => castPtr x ((← get).typeOf p)
    | none => return x
  match callee with
  | .func name =>
    match (← get).find? name with
    | none => throw .crash
    | some f =>
      bind (← append f.ret (.call f.ret (.const (.function name f.ret (f.params.map (·.2)))) args)) sig.ret
  | callee =>
    let m ← get
    let ret := m.typeOf sig.ret
    let f ← castTo (← unwrap callee) (.ptr (.func ret (sig.params.map m.typeOf)))
    bind (← append ret (.call ret f args)) sig.ret

def isDouble (t : Ir.Ty) : Bool := t == (Scalar.f64 : Ir.Ty)

def binaryName (double : Bool) : Ir.Op → String
  | .add => if double then "fadd" else "add"
  | .sub => if double then "fsub" else "sub"
  | .mul => if double then "fmul" else "mul"
  | .div => if double then "fdiv" else "sdiv"
  | .rem => if double then "frem" else "srem"

def binary (op : Ir.Op) (x y : Operand) : BuildM Unit := do
  let a ← unwrap x
  let b ← unwrap y
  let t ← operandType x
  bind (← append a.type (.binary (binaryName (isDouble t) op) a b)) t

def compareName (double : Bool) : Ir.Pred → String
  | .eq => if double then "fcmp oeq" else "icmp eq"
  | .ne => if double then "fcmp une" else "icmp ne"
  | .lt => if double then "fcmp olt" else "icmp slt"
  | .le => if double then "fcmp ole" else "icmp sle"
  | .gt => if double then "fcmp ogt" else "icmp sgt"
  | .ge => if double then "fcmp oge" else "icmp sge"

/-- Refuses values that cannot be compared. -/
def checkComparable (double : Bool) (t : Ty) : BuildM Unit :=
  match double, t with
  | true, .double | false, .int _ | false, .ptr _ => pure ()
  | true, t =>
    broken ("invalid fcmp operand type; expected *types.FloatType or *types.VectorType, got " ++ t.className)
  | false, t =>
    broken ("invalid icmp operand type; expected *types.IntType, *types.PointerType or *types.VectorType, got "
      ++ t.className)

def compare (pred : Ir.Pred) (x y : Operand) : BuildM Unit := do
  let a ← unwrap x
  let b ← unwrap y
  let double := isDouble (← operandType x)
  let b ← if !double && a.type.isPtr then castTo b a.type else pure b
  if (← get).current.isNone then throw .crash
  checkComparable double a.type
  bind (← append (.int 1) (.compare (compareName double pred) a b)) Scalar.i1

def ret (v : Option Operand) : BuildM Unit := do
  match v with
  | none => terminate (.ret none)
  | some v =>
    let x ← unwrap v
    let m ← get
    match m.function? with
    | none => if x.type.isPtr then broken "llvm: no function is being defined" else throw .crash
    | some f => terminate (.ret (some (← castPtr x (m.typeOf f.sig.ret))))

def instr : Ir.Instr → BuildM Unit
  | .fieldAddr s base slot => slotAddr s base slot
  | .load type addr => load type addr
  | .store addr v => store addr v
  | .call sig callee args => call sig callee args
  | .binary op x y => binary op x y
  | .compare pred x y => compare pred x y
  | .condBr cond t e => do terminate (.condBr (← unwrap cond) t e)
  | .br b => terminate (.br b)
  | .ret v => ret v

/-- The name of a parameter: the environment comes first if it is a pointer. -/
def paramName (i : Nat) (t : Ir.Ty) : String :=
  if i = 0 && t == (Scalar.ptr : Ir.Ty) then "env" else s!"a{i}"

def command : Ir.Command → BuildM Unit
  | .declareStruct s =>
    modify fun m =>
      if (m.structs.lookup s.name).isSome then m
      else { m with structs := m.structs ++ [(s.name, s.fields.map m.typeOf)] }
  | .declareFunc name sig =>
    modify fun m =>
      if (m.find? name).isSome then m
      else
        let params := sig.params.zipIdx.map fun (t, i) => (paramName i t, m.typeOf t)
        { m with functions := m.functions.push { name, sig, ret := m.typeOf sig.ret, params } }
  | .define name => do
    let m ← get
    match m.index? name with
    | none => throw .crash
    | some i =>
      let f := m.functions.getD i default
      if f.isDefined then broken s!"llvm: function {shownName name} defined twice"
      let registers := (f.params.zip f.sig.params).map fun ((n, t), p) => (⟨.param n t, p⟩ : Register)
      let f := { f with isDefined := true, blocks := #[{ name := "entry" }], registers := registers.toArray }
      set { m with functions := m.functions.setIfInBounds i f, current := some i, block := 0 }
  | .newBlock name => do
    match (← get).function? with
    | none => broken "llvm: no function is being defined"
    | some f =>
      let b : Block := { name := s!"{name}.{f.blocks.size}" }
      modifyCurrent fun f => { f with blocks := f.blocks.push b }
  | .setInsert block => modify fun m => { m with block }
  | .constant c => do let _ ← unwrap c
  | .alloca type => do
    if (← get).current.isNone then broken "llvm: no function is being defined"
    let t := (← get).typeOf type
    bind (← appendTo 0 (.ptr t) (.alloca t)) Scalar.ptr
  | .instr i => instr i

/-- Carries out a command. -/
def apply (m : Module) (c : Ir.Command) : Except Fault Module := do
  let (_, m) ← (command c).run m
  return m

/-- Carries out commands in order. -/
def applyAll (m : Module) (cs : Array Ir.Command) : Except Fault Module := cs.foldlM apply m

end Module

end TypedScript.Llvm
