import TypedScript.Capture.Analysis
import TypedScript.Check.Program
import TypedScript.Scope.Chain

/-!
# Lowering: state and primitives

Lowering turns a checked program into commands. Its state keeps what was commanded so far, the function and block
that instructions go to, and the layouts and scopes that were made on the way. After an error the commands up to
it remain.
-/

namespace TypedScript.Lower

open TypedScript.Ast TypedScript.Binding TypedScript.Ir TypedScript.Layout TypedScript.Source

/-- The names of the symbols that a module defines and imports. -/
structure Options where
  entry : String := "__scriptc_start"
  allocate : String := "allocate"
  release : String := "release"
  deriving DecidableEq, Inhabited, Repr

/-- The options with the given names, an empty name standing for the default. -/
def Options.ofNames (entry allocate release : String) : Options :=
  let d : Options := {}
  let pick (name default : String) := if name = "" then default else name
  ⟨pick entry d.entry, pick allocate d.allocate, pick release d.release⟩

/-- Why a program cannot be lowered. -/
inductive Error where
  /-- The construct has no translation. -/
  | translation (kind : String) (span : Span) (reason : String)
  /-- What is called is no function. -/
  | unknownCallee (span : Span) (type : String)
  | layout (cause : Layout.Error) (span : Option Span)
  | scope (cause : Scope.Error) (span : Option Span)
  /-- No scope object leads to the one of the container. -/
  | unreachableObject (container : Nat) (span : Option Span)
  /-- The symbol of a function was declared with fewer parameters than the function has. -/
  | missingParameter
  deriving Repr

namespace Error

def message : Error → String
  | translation kind _ reason => "cannot translate " ++ kind ++ ": " ++ reason
  | unknownCallee _ type => "cannot call a value of type " ++ type
  | layout cause _ => cause.message
  | scope cause _ => cause.message
  | unreachableObject container _ => s!"scope object of container {container} is not reachable"
  | missingParameter => "missing parameter"

/-- The place that the error carries. -/
def span? : Error → Option Span
  | translation _ span _ | unknownCallee span _ => some span
  | layout _ span | scope _ span | unreachableObject _ span => span
  | missingParameter => none

/-- The error at a place, unless it carries one already. -/
def located (e : Error) (span : Span) : Error :=
  match e with
  | layout cause none => layout cause (some span)
  | scope cause none => scope cause (some span)
  | unreachableObject container none => unreachableObject container (some span)
  | e => e

def code : Error → Diagnostic.Code
  | translation .. => .unsupportedConstruct
  | unknownCallee .. => .unknownCallee
  | layout (.recursive ..) _ => .recursiveType
  | layout (.fieldNotFound ..) _ => .fieldNotFound
  | layout (.notStructural ..) _ => .notStructural
  | scope (.unresolved ..) _ => .unresolvedReference
  | scope .. | unreachableObject .. | missingParameter => .internalLowering

/-- The diagnostic that tells of the error. A cycle of types is shown in a note. -/
def diagnostic (e : Error) (file : Nat) : Diagnostic :=
  let span := match e.span?, e with
    | some span, _ => span
    | none, scope (.unresolved _ span) _ => span
    | none, _ => { file }
  let notes : List Diagnostic.Note := match e with
    | layout (.recursive _ (c :: cycle)) _ => [⟨span, "cycle: " ++ " -> ".intercalate (c :: cycle)⟩]
    | _ => []
  { code := e.code, span, message := e.message, notes }

end Error

/-- What is lowered. -/
structure Input where
  tree : Tree
  table : Table
  types : Ty.Interner
  /-- The types of expressions and declarations. -/
  info : Std.TreeMap Nat Nat
  analysis : Capture.Analysis
  options : Options

/-- A function whose body is still to be lowered, inside the scope that declares it. -/
structure Pending where
  node : Nat
  scope : Nat
  code : String

/-- A body that was lowered. -/
structure FunctionInfo where
  name : String
  node : Nat
  isPure : Bool
  deriving DecidableEq, Inhabited, Repr

/-- What is told about the lowering of a function: its symbol, and its properties by name. -/
structure FunctionRecord where
  name : String
  attributes : List (String × String) := []

structure State where
  commands : Array Command := #[]
  /-- The registers and blocks of the function being defined. -/
  registers : Nat := 0
  blocks : Nat := 0
  /-- The block that instructions go to. -/
  block : Nat := 0
  /-- The blocks that are ended. -/
  ended : List Nat := []
  /-- The functions declared so far. -/
  symbols : List (String × Sig) := []
  registry : Registry
  chain : Scope.Chain := {}
  /-- The tags of the layouts whose structs are declared. -/
  structs : List Int := []
  /-- The symbols of functions that were needed so far. -/
  codes : List (Nat × String) := []
  queue : List Pending := []
  /-- The environment and the result of the function being defined. -/
  env : Operand := .null
  result : Rep := .void
  functions : List FunctionInfo := []
  /-- The number of places where objects are allocated. -/
  objects : Nat := 0
  records : List FunctionRecord := []

abbrev LowerM := ExceptT Error (StateM State)

/-! ### Commands -/

def emit (c : Command) : LowerM Unit := modify fun s => { s with commands := s.commands.push c }

/-- Takes the next register. -/
def newRegister : LowerM Operand := modifyGet fun s => (.reg s.registers, { s with registers := s.registers + 1 })

/-- Appends an instruction whose result goes to a new register. -/
def emitValue (i : Instr) : LowerM Operand := do
  emit (.instr i)
  newRegister

/-- Appends an instruction without a result. -/
def emitEffect (i : Instr) : LowerM Unit := do
  emit (.instr i)
  if i.isTerminator then modify fun s => { s with ended := s.block :: s.ended }

/-- Declares a function, unless its name is declared. -/
def declareFunc (name : String) (sig : Sig) : LowerM Unit := do
  emit (.declareFunc name sig)
  modify fun s => if (s.symbols.lookup name).isSome then s else { s with symbols := (name, sig) :: s.symbols }

/-- Starts the body of a declared function; the result is the number of its parameters. -/
def defineFunc (name : String) : LowerM Nat := do
  emit (.define name)
  let params := (((← get).symbols.lookup name).map (·.params.length)).getD 0
  modify fun s => { s with registers := params, blocks := 1, block := 0, ended := [] }
  return params

def newBlock (name : String) : LowerM Nat := do
  let id := (← get).blocks
  emit (.newBlock name)
  modify fun s => { s with blocks := id + 1 }
  return id

def setInsert (block : Nat) : LowerM Unit := do
  emit (.setInsert block)
  modify fun s => { s with block }

/-- Whether the block at hand is ended. -/
def isEnded : LowerM Bool := return (← get).ended.contains (← get).block

def alloca (type : Ir.Ty) : LowerM Operand := do
  emit (.alloca type)
  newRegister

def load (type : Ir.Ty) (addr : Operand) : LowerM Operand := emitValue (.load type addr)

def store (addr value : Operand) : LowerM Unit := emitEffect (.store addr value)

def callDirect (sig : Sig) (callee : Operand) (args : List Operand) : LowerM Operand :=
  emitValue (.call sig callee args)

def compare (pred : Pred) (x y : Operand) : LowerM Operand := emitValue (.compare pred x y)

def binary (op : Op) (x y : Operand) : LowerM Operand := emitValue (.binary op x y)

def br (block : Nat) : LowerM Unit := emitEffect (.br block)

def condBr (cond : Operand) (thenBlock elseBlock : Nat) : LowerM Unit :=
  emitEffect (.condBr cond thenBlock elseBlock)

/-- Returns a value, or nothing if it is absent. -/
def ret (value : Operand) : LowerM Unit :=
  match value with
  | .absent => emitEffect (.ret none)
  | v => emitEffect (.ret (some v))

/-! ### Errors -/

def unsupported {α : Type} (inp : Input) (id : Nat) (reason : String) : LowerM α :=
  throw (.translation (inp.tree.kindName id) (inp.tree.span id) reason)

/-- Locates the errors of a computation at a place. -/
def locate {α : Type} (span : Span) (act : LowerM α) : LowerM α :=
  tryCatch act fun e => throw (e.located span)

/-- The outcome of a lookup. -/
def ofScope {α : Type} (r : Except Scope.Error α) : LowerM α :=
  match r with
  | .ok a => return a
  | .error e => throw (.scope e none)

/-- Runs a computation on the registry. -/
def ofLayout {α : Type} (act : Registry.LayoutM α) : LowerM α := do
  let (r, registry) := act.run.run (← get).registry
  modify fun s => { s with registry }
  match r with
  | .ok a => return a
  | .error e => throw (.layout e none)

/-- The field of a layout. -/
def fieldOf (d : Descriptor) (name : String) : LowerM Field :=
  match d.field name with
  | .ok f => return f
  | .error e => throw (.layout e none)

/-! ### Types -/

/-- The machine type of values of a representation. -/
def irType : Rep → Scalar
  | .void => .void
  | .bool => .i1
  | .int bits => .ofBits bits
  | .float => .f64
  | _ => .ptr

/-- The static type of a node; zero if it has none. -/
def typeOf (inp : Input) (id : Nat) : Nat := inp.info.getD id 0

/-- The representation of the static type of a node. -/
def repOf (inp : Input) (id : Nat) : LowerM Rep := do
  let type := typeOf inp id
  if type = 0 then unsupported inp id "no static type"
  else if inp.types.resolved? type = some .null then return .object none type
  else locate (inp.tree.span id) (ofLayout (Registry.resolve inp.types type))

/-- The signature of a function type, with the representations of its result and its parameters. Every function
takes its environment first. -/
def signature (inp : Input) (type : Nat) (span : Span) : LowerM (Sig × Rep × List Rep) := do
  match inp.types.resolved? type with
  | some (.func params result) =>
    let params ← params.mapM fun p => locate span (ofLayout (Registry.resolve inp.types p))
    let result ← locate span (ofLayout (Registry.resolve inp.types result))
    let sig : Sig := ⟨irType result, (Scalar.ptr : Ir.Ty) :: params.map fun r => (irType r : Ir.Ty)⟩
    return (sig, result, params)
  | _ => throw (.unknownCallee span (inp.types.render type))

/-! ### Symbols -/

/-- The symbol of a function: declared functions keep their names, the others are numbered. -/
def codeName (t : Tree) (fn : Nat) : String :=
  match t.form? fn with
  | some (.declareFunc name ..) => name
  | some (.funcDecl name ..) => s!"{name}.{fn}"
  | _ =>
    match t.form? (t.parent fn) with
    | some (.varDecl name _ _ init) => if init = fn then s!"{name}.{fn}" else s!"arrow.{fn}"
    | _ => s!"arrow.{fn}"

/-- The symbol of a function, which is declared when it is first needed. -/
def codeFor (inp : Input) (fn : Nat) : LowerM String := do
  match (← get).codes.lookup fn with
  | some name => return name
  | none =>
    let (sig, _, _) ← signature inp (typeOf inp fn) (inp.tree.span fn)
    let name := codeName inp.tree fn
    declareFunc name sig
    modify fun s => { s with codes := (fn, name) :: s.codes }
    return name

/-- The symbol of a function whose body is to be lowered inside the given scope. -/
def enqueue (inp : Input) (fn scope : Nat) : LowerM String := do
  let seen := ((← get).codes.lookup fn).isSome
  let code ← codeFor inp fn
  if !seen then modify fun s => { s with queue := s.queue ++ [⟨fn, scope, code⟩] }
  return code

/-! ### Scopes -/

def defer (scope : Nat) (d : Scope.Deferred) : LowerM Unit :=
  modify fun s => { s with chain := s.chain.defer scope d }

def openTransient (scope : Nat) : LowerM Nat :=
  modifyGet fun s => let (chain, n) := s.chain.openTransient scope; (n, { s with chain })

def openChild (scope container function : Nat) : LowerM Nat :=
  modifyGet fun s => let (chain, n) := s.chain.openChild scope container function; (n, { s with chain })

def modifyScope (scope : Nat) (f : Scope.Node → Scope.Node) : LowerM Unit :=
  modify fun s => { s with chain := s.chain.modify scope f }

end TypedScript.Lower
