/-!
# Target instructions

Lowering produces a sequence of commands that build a module: they declare structs and functions, open blocks, and
append instructions to the block at hand. Every backend is a way of carrying out commands.

Values are registers of the function that is being defined, counted from its parameters on, or constants. Blocks are
counted per function; block zero is the entry.
-/

namespace TypedScript.Ir

/-- The machine types without parts. A pointer does not say what it points to. -/
inductive Scalar where
  | void
  | i1
  | i8
  | i16
  | i32
  | i64
  | f64
  | ptr
  deriving DecidableEq, Inhabited, Repr

namespace Scalar

def text : Scalar → String
  | void => "void"
  | i1 => "i1"
  | i8 => "i8"
  | i16 => "i16"
  | i32 => "i32"
  | i64 => "i64"
  | f64 => "f64"
  | ptr => "ptr"

/-- The number of bits of an integer type. -/
def intBits? : Scalar → Option Nat
  | i1 => some 1
  | i8 => some 8
  | i16 => some 16
  | i32 => some 32
  | i64 => some 64
  | _ => none

/-- The integer type with the given number of bits; the widest if there is none. -/
def ofBits (bits : Nat) : Scalar :=
  match bits with
  | 1 => i1
  | 8 => i8
  | 16 => i16
  | 32 => i32
  | _ => i64

end Scalar

/-- A machine type. -/
inductive Ty where
  | scalar (s : Scalar)
  | struct (name : String) (fields : List Ty)
  | func (ret : Ty) (params : List Ty)
  deriving Inhabited, Repr

instance : Coe Scalar Ty := ⟨Ty.scalar⟩

mutual

/-- Whether two types have the same names and parts. -/
def Ty.same : Ty → Ty → Bool
  | .scalar s, .scalar s' => s == s'
  | .struct name fields, .struct name' fields' => name == name' && sameList fields fields'
  | .func ret params, .func ret' params' => ret.same ret' && sameList params params'
  | _, _ => false

def sameList : List Ty → List Ty → Bool
  | [], [] => true
  | t :: ts, t' :: ts' => t.same t' && sameList ts ts'
  | _, _ => false

end

instance : BEq Ty := ⟨Ty.same⟩

@[simp] theorem Ty.scalar_beq_scalar (s s' : Scalar) : (Ty.scalar s == Ty.scalar s') = (s == s') := by
  simp [BEq.beq, Ty.same]

/-- The types of the parameters and of the result of a function. -/
structure Sig where
  ret : Ty
  params : List Ty := []
  deriving Inhabited, Repr, BEq

/-- A named struct. -/
structure Struct where
  name : String
  fields : List Ty
  deriving Inhabited, Repr, BEq

mutual

def Ty.text : Ty → String
  | .scalar s => s.text
  | .struct name _ => "%" ++ name
  | .func ret params => ret.text ++ " (" ++ ", ".intercalate (textList params) ++ ")"

def textList : List Ty → List String
  | [] => []
  | t :: ts => t.text :: textList ts

end

def Sig.text (s : Sig) : String := (Ty.func s.ret s.params).text

inductive Op where
  | add
  | sub
  | mul
  | div
  | rem
  deriving DecidableEq, Inhabited, Repr

def Op.text : Op → String
  | .add => "add"
  | .sub => "sub"
  | .mul => "mul"
  | .div => "div"
  | .rem => "rem"

/-- A comparison; integers are signed. -/
inductive Pred where
  | eq
  | ne
  | lt
  | le
  | gt
  | ge
  deriving DecidableEq, Inhabited, Repr

def Pred.text : Pred → String
  | .eq => "eq"
  | .ne => "ne"
  | .lt => "lt"
  | .le => "le"
  | .gt => "gt"
  | .ge => "ge"

/-- What an instruction works on. -/
inductive Operand where
  /-- A register of the function that is being defined. -/
  | reg (id : Nat)
  | int (type : Scalar) (value : Int)
  | float (value : Float)
  | bool (value : Bool)
  | null
  /-- A pointer to immutable bytes. -/
  | string (value : String)
  /-- The address of a declared function. -/
  | func (name : String)
  /-- What a function without a result returns. -/
  | absent
  deriving Inhabited, Repr

/-- What is done when a program runs. -/
inductive Instr where
  /-- The address of a slot of a struct. -/
  | fieldAddr (struct : Struct) (base : Operand) (slot : Nat)
  | load (type : Ty) (addr : Operand)
  | store (addr value : Operand)
  /-- Calls a declared function directly, or any other pointer indirectly. -/
  | call (sig : Sig) (callee : Operand) (args : List Operand)
  | binary (op : Op) (x y : Operand)
  | compare (pred : Pred) (x y : Operand)
  | condBr (cond : Operand) (thenBlock elseBlock : Nat)
  | br (block : Nat)
  | ret (value : Option Operand)
  deriving Inhabited, Repr

namespace Instr

/-- Whether the instruction ends a block. -/
def isTerminator : Instr → Bool
  | condBr .. | br _ | ret _ => true
  | _ => false

/-- Whether the result goes to a new register. A call has one even if there is no result to put there. -/
def yieldsValue : Instr → Bool
  | fieldAddr .. | load .. | call .. | binary .. | compare .. => true
  | _ => false

end Instr

inductive Command where
  | declareStruct (s : Struct)
  /-- Declares a function; a name that is declared already keeps its signature. -/
  | declareFunc (name : String) (sig : Sig)
  /-- Starts the body of a declared function and goes to its entry. -/
  | define (name : String)
  /-- Opens a block whose name starts with the given one. -/
  | newBlock (name : String)
  /-- Goes to a block. -/
  | setInsert (block : Nat)
  /-- Makes a constant available. -/
  | constant (c : Operand)
  /-- Reserves a stack slot; a new register gets its address. -/
  | alloca (type : Ty)
  /-- Appends to the block at hand. -/
  | instr (i : Instr)
  deriving Inhabited, Repr

/-- How carrying out a command can go wrong: with a message, or by using what is not there. -/
inductive Fault where
  | broken (message : String)
  | crash
  deriving DecidableEq, Repr, Inhabited

end TypedScript.Ir
