import TypedScript.Llvm.Module

/-!
# LLVM modules as text

Results are numbered per function in the order of the text, those without a value left out. A module has a text
only if every block is ended.
-/

namespace TypedScript.Llvm

/-- The numbers of the results of a function, by key. -/
def Function.numbers (f : Function) : Array Nat :=
  let keys := f.blocks.toList.flatMap fun b =>
    (b.lines.toList.filter fun l => !(l.type == Ty.void)).map (·.key)
  keys.zipIdx.foldl (fun (ns : Array Nat) (p : Nat × Nat) => ns.setIfInBounds p.1 p.2) (Array.replicate f.count 0)

/-- An instruction without its result. -/
def Inst.text (number : Nat → Nat) : Inst → Except String String
  | alloca t => .ok ("alloca " ++ t.text)
  | cast v target => .ok ("bitcast " ++ v.typed number ++ " to " ++ target.text)
  | slot struct base index =>
    .ok ("getelementptr " ++ struct.text ++ ", " ++ base.typed number ++ s!", i32 0, i32 {index}")
  | load t addr => .ok ("load " ++ t.text ++ ", " ++ addr.typed number)
  | store v addr => .ok ("store " ++ v.typed number ++ ", " ++ addr.typed number)
  | call ret callee args => do
    let name ← callee.ident number
    let args ← args.mapM fun a => do return a.type.text ++ " " ++ (← a.ident number)
    return "call " ++ ret.text ++ " " ++ name ++ "(" ++ ", ".intercalate args ++ ")"
  | binary op x y | compare op x y => do
    let right ← y.ident number
    return op ++ " " ++ x.typed number ++ ", " ++ right

/-- A line of a block. -/
def Line.text (number : Nat → Nat) (l : Line) : Except String String := do
  let dst := if l.type == .void then "" else s!"%{number l.key} = "
  return dst ++ (← l.inst.text number)

def Function.label (f : Function) (block : Nat) : String :=
  "label " ++ localName (f.blocks.getD block default).name

def Term.text (f : Function) (number : Nat → Nat) : Term → String
  | ret none => "ret void"
  | ret (some v) => "ret " ++ v.typed number
  | br block => "br " ++ f.label block
  | condBr cond t e => "br " ++ cond.typed number ++ ", " ++ f.label t ++ ", " ++ f.label e

/-- A block of a function. -/
def Block.text (f : Function) (number : Nat → Nat) (b : Block) : Except String String := do
  let lines ← b.lines.toList.mapM fun l => do return "\t" ++ (← l.text number) ++ "\n"
  let body := valueName b.name ++ ":\n" ++ String.join lines
  match b.term with
  | some t => return body ++ "\t" ++ t.text f number ++ "\n"
  | none =>
    throw ("missing terminator in basic block " ++ "\"" ++ b.name ++ "\".\ncurrent instructions:\n" ++ body)

def Function.text (f : Function) : Except String String := do
  let params := f.params.map fun (n, t) => t.text ++ " " ++ localName n
  let head := f.ret.text ++ " " ++ globalName f.name ++ "(" ++ ", ".intercalate params ++ ")"
  if !f.isDefined then return "declare " ++ head ++ "\n"
  let numbers := f.numbers
  let blocks ← f.blocks.toList.mapM (Block.text f fun key => numbers.getD key 0)
  return "define " ++ head ++ " \x7b\n" ++ "\n".intercalate blocks ++ "\x7d\n"

/-- A struct with its slots. -/
def structText (name : String) (fields : List Ty) : String :=
  let body := if fields.isEmpty then "\x7b\x7d" else "\x7b " ++ ", ".intercalate (fields.map Ty.text) ++ " \x7d"
  "%" ++ identifier name ++ " = type " ++ body ++ "\n"

/-- A text that the module holds, with the zero byte at its end. -/
def textDefinition (index : Nat) (s : String) : String :=
  let count := s.utf8ByteSize + 1
  s!"@.str.{index} = private constant [{count} x i8] c" ++ quoted (s ++ "\x00") ++ "\n"

/-- The text of a module, or why it has none. -/
def Module.text (m : Module) : Except String String := do
  let head :=
    (if m.sourceName = "" then "" else "source_filename = " ++ quoted m.sourceName ++ "\n")
      ++ if m.triple = "" then "" else "target triple = " ++ quoted m.triple ++ "\n"
  let structs := String.join (m.structs.map fun (n, fs) => structText n fs)
  let texts := String.join (m.texts.toList.zipIdx.map fun (s, i) => textDefinition i s)
  let functions ← m.functions.toList.mapM Function.text
  return "\n".intercalate (([head, structs, texts] ++ functions).filter (· ≠ ""))

end TypedScript.Llvm
