import TypedScript.Compile.Code
import TypedScript.Decimal.Reading
import TypedScript.Text.Blank

/-!
# Assembling by hand

A module can be written line by line. A line names what it does and refers to types, values and blocks by words: a
value or block is known by the label of the line that made it, `$2` is a parameter of the function being defined,
`@f` a declared function, `%S` a struct, and a constant is written after its type, as in `i32:7` or `str:text`.
-/

namespace TypedScript.Compile

open TypedScript.Ir

/-- One line, as words. -/
structure Line where
  verb : String
  name : String := ""
  /-- What the outcome is called by later lines. -/
  label : String := ""
  type : String := ""
  result : String := ""
  struct : String := ""
  function : String := ""
  operator : String := ""
  params : List String := []
  fields : List String := []
  args : List String := []
  targets : List String := []
  slot : Nat := 0

/-- Why a line cannot be carried out. -/
inductive LineError where
  /-- A word has no meaning. -/
  | malformed
  | fault (f : Fault)

/-- What a line comes to. -/
inductive Reply where
  | text (s : String)
  | flag (b : Bool)
  /-- The entry of a function, and the types of its parameters. -/
  | entry (block : String) (params : List String)

/-- A module under construction with the words that have a meaning. -/
structure Assembly where
  code : Code
  values : List (String × Operand) := []
  blocks : List (String × Nat) := []
  structs : List (String × Struct) := []

abbrev AssembleM := ExceptT LineError (StateM Assembly)

namespace Assembly

def scalar (word : String) : Scalar :=
  ([.i1, .i8, .i16, .i32, .i64, .f64, .ptr].find? fun (t : Scalar) => t.text = word).getD .void

/-- The type that a word stands for. -/
def type (a : Assembly) (word : String) : Ty :=
  match word.toList with
  | '%' :: cs =>
    let name := String.ofList cs
    .struct name ((a.structs.lookup name).elim [] (·.fields))
  | '@' :: cs => ((a.code.sig? (String.ofList cs)).map fun g => Ty.func g.ret g.params).getD Scalar.void
  | _ => scalar word

/-- The constant that a word spells. -/
def constant? (word : String) : Option Operand :=
  match Text.after? "str:" word, Text.after? "f64:" word, Text.after? "bool:" word with
  | some v, _, _ => some (.string v)
  | _, some v, _ => some (.float (Decimal.parse v))
  | _, _, some v => some (.bool (v = "true"))
  | none, none, none =>
    if word.toList.contains ':' then
      let type := String.ofList (word.toList.takeWhile (· ≠ ':'))
      let digits := String.ofList (word.toList.drop (type.length + 1))
      some (.int (scalar type) (Decimal.parseInt digits))
    else none

/-- Carries out a command. -/
def command (c : Command) : AssembleM Unit := do
  match (← get).code.apply c with
  | .ok code => modify fun a => { a with code }
  | .error f => throw (.fault f)

/-- What a word stands for. A constant is made available on the way. -/
def operand (word : String) : AssembleM Operand := do
  let a ← get
  match word.toList with
  | '$' :: cs => return .reg ((String.ofList cs).toNat?.getD 0)
  | '@' :: cs =>
    let name := String.ofList cs
    if (a.code.sig? name).isSome then return .func name else throw .malformed
  | _ =>
    if word = "null" then return .null
    match constant? word, a.values.lookup word with
    | some c, _ =>
      command (.constant c)
      return c
    | none, some v => return v
    | none, none => throw .malformed

/-- The type of an operand in the function being defined. -/
def typeOf (a : Assembly) : Operand → Ty
  | .reg id => a.code.registers.getD id Scalar.void
  | .int t _ => t
  | .float _ => Scalar.f64
  | .bool _ => Scalar.i1
  | _ => Scalar.ptr

/-- The word at a place of a line; a word that is missing ends everything. -/
def wordAt (words : List String) (k : Nat) : AssembleM String :=
  match words[k]? with
  | some w => return w
  | none => throw (.fault .crash)

def operandAt (line : Line) (k : Nat) : AssembleM Operand := do operand (← wordAt line.args k)

/-- The block that a line goes to. -/
def targetAt (line : Line) (k : Nat) : AssembleM Nat := do
  match (← get).blocks.lookup (← wordAt line.targets k) with
  | some b => return b
  | none => throw .malformed

/-- Gives a value the label of the line. -/
def keep (line : Line) (v : Operand) : AssembleM Reply := do
  modify fun a => { a with values := (line.label, v) :: a.values }
  return .text ((← get).typeOf v).text

/-- Carries out a command whose outcome is a new register. -/
def yielding (line : Line) (c : Command) : AssembleM Reply := do
  let id := (← get).code.registers.length
  command c
  keep line (.reg id)

/-- Appends an instruction without an outcome. -/
def append (i : Instr) : AssembleM Reply := do
  command (.instr i)
  return .text "ok"

def ops : List Op := [.add, .sub, .mul, .div, .rem]

def preds : List Pred := [.eq, .ne, .lt, .le, .gt, .ge]

/-- Carries out a line that declares something or opens a block. -/
def declaration (line : Line) : AssembleM Reply := do
  let a ← get
  let struct : Struct := ⟨line.name, line.fields.map a.type⟩
  match line.verb with
  | "struct" =>
    set { a with structs := (line.name, struct) :: a.structs }
    command (.declareStruct struct)
    return .text ("%" ++ line.name)
  | "unknown_struct" =>
    set { a with structs := (line.name, struct) :: a.structs }
    return .text ("%" ++ line.name)
  | "declare" =>
    let sig : Sig := ⟨a.type line.result, line.params.map a.type⟩
    command (.declareFunc line.name sig)
    let code := (← get).code
    return .text (code.shownName line.name ++ " " ++ ((code.sig? line.name).getD sig).text)
  | "define" =>
    match a.code.sig? line.function with
    | none => throw .malformed
    | some g =>
      command (.define line.function)
      modify fun a => { a with blocks := ("entry", 0) :: a.blocks }
      return .entry "entry" (g.params.map (·.text))
  | "block" =>
    command (.newBlock line.name)
    let names := (← get).code.blockNames
    modify fun a => { a with blocks := (line.label, names.length - 1) :: a.blocks }
    return .text (names.getLastD "")
  | "insert" =>
    command (.setInsert (← targetAt line 0))
    match (← get).code.blockName? with
    | some name => return .text name
    | none => throw (.fault .crash)
  | "terminated" => return .flag a.code.isEnded
  | _ => throw .malformed

/-- Carries out a line. -/
def execute (line : Line) : AssembleM Reply := do
  let a ← get
  let value (i : Instr) : AssembleM Reply := yielding line (.instr i)
  match line.verb with
  | "alloca" => yielding line (.alloca (a.type line.type))
  | "field" =>
    let base ← operandAt line 0
    match a.structs.lookup line.struct with
    | none => throw (.fault .crash)
    | some t => value (.fieldAddr t base line.slot)
  | "load" => value (.load (a.type line.type) (← operandAt line 0))
  | "store" =>
    let addr ← operandAt line 0
    append (.store addr (← operandAt line 1))
  | "call" =>
    match ← line.args.mapM operand with
    | f :: args => value (.call ⟨a.type line.result, line.params.map a.type⟩ f args)
    | [] => throw (.fault .crash)
  | "binary" =>
    let x ← operandAt line 0
    let y ← operandAt line 1
    match ops.find? (·.text = line.operator) with
    | some op => value (.binary op x y)
    | none => throw .malformed
  | "compare" =>
    let x ← operandAt line 0
    let y ← operandAt line 1
    match preds.find? (·.text = line.operator) with
    | some p => value (.compare p x y)
    | none => throw .malformed
  | "condbr" =>
    let c ← operandAt line 0
    append (.condBr c (← targetAt line 0) (← targetAt line 1))
  | "br" => append (.br (← targetAt line 0))
  | "ret" => if line.args.isEmpty then append (.ret none) else append (.ret (some (← operandAt line 0)))
  | "const" => keep line (← operandAt line 0)
  | _ => declaration line

end Assembly

end TypedScript.Compile
