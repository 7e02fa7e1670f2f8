import TypedScript.Ir.Command
import TypedScript.Machine.Value

/-!
# Machine modules

A module records commands as functions made of blocks. A function that is declared and never defined is provided
by the host.
-/

namespace TypedScript.Machine

open TypedScript.Ir

/-- An instruction with the register of its result. -/
structure Line where
  dst : Option Nat
  instr : Instr
  deriving Inhabited

structure Block where
  name : String
  lines : Array Line := #[]
  deriving Inhabited

/-- Whether the block ends in a branch or a return. -/
def Block.isEnded (b : Block) : Bool := b.lines.back?.elim false (·.instr.isTerminator)

structure Function where
  name : String
  sig : Sig
  isDefined : Bool := false
  /-- The first block is the entry. -/
  blocks : Array Block := #[]
  /-- The registers that hold the addresses of stack cells. -/
  slots : List Nat := []
  /-- The types of the registers, the parameters first. -/
  registers : Array Ir.Ty := #[]
  deriving Inhabited

/-- The type of an operand; there is none for a value that is absent. -/
def Function.typeOf? (f : Function) : Operand → Option Ir.Ty
  | .reg id => f.registers[id]?
  | .int t _ => some t
  | .float _ => some Scalar.f64
  | .bool _ => some Scalar.i1
  | .null | .string _ | .func _ => some Scalar.ptr
  | .absent => none

def Function.blockName (f : Function) (block : Nat) : String := (f.blocks.getD block default).name

structure Module where
  structs : List String := []
  /-- The functions in the order of their declaration. -/
  functions : Array Function := #[]
  /-- The place of the function being defined. -/
  current : Option Nat := none
  /-- The block that instructions go to. -/
  block : Nat := 0
  deriving Inhabited

namespace Module

def find? (m : Module) (name : String) : Option Function := m.functions.find? (·.name = name)

def index? (m : Module) (name : String) : Option Nat := m.functions.findIdx? (·.name = name)

/-- The function being defined. -/
def function? (m : Module) : Option Function := m.current.bind (m.functions[·]?)

/-- The block that instructions go to. -/
def block? (m : Module) : Option Block := m.function?.bind (·.blocks[m.block]?)

/-- Whether no instruction can be appended. -/
def isEnded (m : Module) : Bool := m.block?.elim true (·.isEnded)

/-- Changes the function being defined. -/
def modifyFunction (m : Module) (f : Function → Function) : Module :=
  match m.current with
  | some i => { m with functions := m.functions.modify i f }
  | none => m

/-- The name of an instruction. -/
def opcode : Instr → String
  | .fieldAddr .. => "fieldaddr"
  | .load .. => "load"
  | .store .. => "store"
  | .call .. => "call"
  | .binary .. => "binary"
  | .compare .. => "compare"
  | .condBr .. => "condbr"
  | .br .. => "br"
  | .ret .. => "ret"

/-- The type of the result of an instruction in a function. Comparing or computing with an absent value is not
possible. -/
def resultType (f : Function) : Instr → Except Fault Ir.Ty
  | .load type _ => .ok type
  | .call sig .. => .ok sig.ret
  | .binary _ x _ => (f.typeOf? x).elim (.error .crash) .ok
  | .compare _ x _ => if (f.typeOf? x).isSome then .ok Scalar.i1 else .error .crash
  | _ => .ok Scalar.ptr

/-- Appends an instruction. -/
def append (m : Module) (i : Instr) : Except Fault Module := do
  if let .fieldAddr s .. := i then
    if !m.structs.contains s.name then throw (.broken s!"vm: struct {s.name} was not declared")
  let f := m.function?.getD default
  let type ← resultType f i
  if i.yieldsValue && m.current.isNone then throw (.broken "vm: no function is being defined")
  match m.block? with
  | none => throw .crash
  | some b =>
    if b.isEnded then throw (.broken s!"vm: instruction {opcode i} after terminator in {b.name}")
    let dst := if i.yieldsValue then some f.registers.size else none
    let put (b : Block) : Block := { b with lines := b.lines.push ⟨dst, i⟩ }
    return m.modifyFunction fun f => { f with
      blocks := f.blocks.modify m.block put
      registers := if i.yieldsValue then f.registers.push type else f.registers }

/-- Carries out a command. -/
def apply (m : Module) : Command → Except Fault Module
  | .declareStruct s => .ok { m with structs := s.name :: m.structs }
  | .declareFunc name sig =>
    .ok (if (m.find? name).isSome then m else { m with functions := m.functions.push { name, sig } })
  | .define name =>
    match m.index? name with
    | none => .error .crash
    | some i =>
      if (m.functions.getD i default).isDefined then .error (.broken s!"vm: function {name} defined twice")
      else .ok { m with
        functions := m.functions.modify i fun f =>
          { f with isDefined := true, blocks := #[{ name := "entry" }], registers := f.sig.params.toArray }
        current := some i
        block := 0 }
  | .newBlock name =>
    match m.function? with
    | none => .error (.broken "vm: no function is being defined")
    | some f =>
      .ok (m.modifyFunction fun g => { g with blocks := g.blocks.push { name := s!"{name}.{f.blocks.size}" } })
  | .setInsert block => .ok { m with block }
  | .constant _ => .ok m
  | .alloca _ =>
    match m.function? with
    | none => .error (.broken "vm: no function is being defined")
    | some f =>
      .ok (m.modifyFunction fun g => { g with
        slots := g.slots ++ [f.registers.size]
        registers := g.registers.push Scalar.ptr })
  | .instr i => m.append i

/-- Carries out commands in order. -/
def applyAll (m : Module) (cs : Array Command) : Except Fault Module := cs.foldlM apply m

end Module

/-! ### Text -/

/-- The value of a constant operand. A one-bit integer is a truth value. -/
def constant? : Operand → Option Value
  | .int .i1 v => some (.bool (v ≠ 0))
  | .int _ v => some (.int v)
  | .float v => some (.float v)
  | .bool v => some (.bool v)
  | .null => some .null
  | .string v => some (.ptr (.string v))
  | _ => none

def operandText : Operand → String
  | .reg id => s!"%{id}"
  | .func name => "@" ++ name
  | c => (constant? c).elim "?" (·.text)

/-- The operands of an instruction, in order. -/
def operands : Instr → List Operand
  | .fieldAddr _ base _ => [base]
  | .load _ addr => [addr]
  | .store addr value => [addr, value]
  | .call _ callee args => callee :: args
  | .binary _ x y | .compare _ x y => [x, y]
  | .condBr cond .. => [cond]
  | .br _ => []
  | .ret value => value.toList

/-- What is written after the name of an instruction. -/
def detail : Instr → String
  | .fieldAddr s _ slot => s!" {s.name}.{slot}"
  | .load type _ => " " ++ type.text
  | .binary op .. => " " ++ op.text
  | .compare pred .. => " " ++ pred.text
  | _ => ""

/-- The blocks that an instruction may go to. -/
def targets : Instr → List Nat
  | .condBr _ t e => [t, e]
  | .br b => [b]
  | _ => []

/-- A line of a function as text. -/
def Function.lineText (f : Function) (l : Line) : String :=
  let dst := l.dst.elim "" fun d => s!"%{d} = "
  let args := String.join ((operands l.instr).map fun a => " " ++ operandText a)
  let goals := String.join ((targets l.instr).map fun b => " ^" ++ f.blockName b)
  dst ++ Module.opcode l.instr ++ detail l.instr ++ args ++ goals

def Function.dump (f : Function) : String :=
  if !f.isDefined then s!"declare {f.name} {f.sig.text}\n"
  else
    let block (b : Block) :=
      b.name ++ ":\n" ++ String.join (b.lines.toList.map fun l => "  " ++ f.lineText l ++ "\n")
    s!"define {f.name} {f.sig.text} \x7b\n" ++ String.join (f.blocks.toList.map block) ++ "\x7d\n"

/-- The recorded program, one instruction a line. -/
def Module.dump (m : Module) : String := String.join (m.functions.toList.map Function.dump)

end TypedScript.Machine
