import TypedScript.Machine.Arithmetic
import TypedScript.Machine.Memory
import TypedScript.Machine.Module

/-!
# Running a module

A run goes instruction by instruction. Its state keeps the active calls, the memory and what was observed; an
instruction either goes on to the next state or fails. Functions without a body are provided by the host.
-/

namespace TypedScript.Machine

open TypedScript.Ir

/-- What the host does for a function without a body. Every function gets its environment as first argument. -/
inductive Host where
  /-- Allocates an object of the size that is given. -/
  | allocate
  /-- Takes back an object. -/
  | release
  /-- Prints the arguments. -/
  | print
  /-- Answers with what it makes of the arguments, or refuses them. -/
  | answer (f : List Value → Except String Value)
  deriving Inhabited

def Host.fail (message : String) : Host := answer fun _ => .error message

def Host.give (value : Value) : Host := answer fun _ => .ok value

/-- What is run, and under which conditions. -/
structure Config where
  module : Module
  /-- The host's functions; the first one of a name counts. -/
  hosts : List (String × Host)
  /-- The number of instructions after which a run is stopped; zero for no limit. -/
  limit : Nat
  /-- Whether the run is recorded in detail. -/
  isTraced : Bool := false

/-- The host's functions with the given names for the allocator's two; an empty name stands for the default. -/
def allocatorHosts (allocate release : String) : List (String × Host) :=
  [(if release = "" then "release" else release, .release),
    (if allocate = "" then "allocate" else allocate, .allocate)]

/-- Something that a detailed record of a run tells. -/
inductive Event where
  | instr (depth : Nat) (function block line : String)
  | host (depth : Nat) (function : String) (args : List Value)
  | alloc (id : Nat) (size : Int)
  | release (id : Nat) (tag : Int)

def Event.text : Event → String
  | instr depth function block line => s!"[depth={depth}] {function} {block} {line}\n"
  | host depth function args =>
      s!"[depth={depth}] host {function}[" ++ " ".intercalate (args.map Value.text) ++ "]\n"
  | alloc id size => s!"[heap] alloc obj#{id} size={size}\n"
  | release id tag => s!"[heap] release obj#{id} tag={tag}\n"

/-- An active call. -/
structure Frame where
  function : Function
  registers : Array Value
  block : Nat := 0
  /-- The instruction that comes next in the block. -/
  next : Nat := 0
  /-- The register of the caller that the result goes to. -/
  dst : Nat := 0
  deriving Inhabited

structure State where
  memory : Memory := {}
  /-- The active calls, innermost first. -/
  frames : List Frame := []
  steps : Nat := 0
  /-- The arguments of the calls that printed, without the environment. -/
  calls : Array (List Value) := #[]
  events : Array Event := #[]

/-- What was printed. -/
def State.output (s : State) : String :=
  String.join (s.calls.toList.map fun vs => " ".intercalate (vs.map Value.format) ++ "\n")

/-- The detailed record as text. -/
def State.traceText (s : State) : String := String.join (s.events.toList.map Event.text)

abbrev Exec := ExceptT Failure (StateM State)

/-- Fails with the calls that are active. -/
def failWith {α : Type} (f : Failure) : Exec α := do
  throw { f with backtrace := (← get).frames.map (·.function.name) }

def fail {α : Type} (code : FailureCode) (message : String) : Exec α := failWith ⟨code, message, []⟩

/-- The outcome of an operation on values or memory. -/
def ofExcept {α : Type} : Except Failure α → Exec α
  | .ok a => return a
  | .error f => failWith f

def record (c : Config) (e : Event) : Exec Unit :=
  if c.isTraced then modify fun s => { s with events := s.events.push e } else pure ()

/-- Changes the innermost call. -/
def State.mapFrame (f : Frame → Frame) : State → State
  | ⟨memory, fr :: rest, steps, calls, events⟩ => ⟨memory, f fr :: rest, steps, calls, events⟩
  | s => s

/-- Changes the memory. -/
def State.mapMemory (f : Memory → Memory) : State → State
  | ⟨memory, frames, steps, calls, events⟩ => ⟨f memory, frames, steps, calls, events⟩

def modifyFrame (f : Frame → Frame) : Exec Unit := modify (State.mapFrame f)

def modifyMemory (f : Memory → Memory) : Exec Unit := modify (State.mapMemory f)

/-- Puts a result into a register and goes on. -/
def setRegister (dst : Option Nat) (v : Value) : Exec Unit :=
  modifyFrame fun
    | ⟨function, registers, block, next, to_⟩ =>
      ⟨function, dst.elim registers fun d => registers.setIfInBounds d v, block, next + 1, to_⟩

/-- The registers of the innermost call. -/
def State.registers (s : State) : Array Value := s.frames.head?.elim #[] (·.registers)

/-- The value of an operand in the innermost call. -/
def operand (o : Operand) : Exec Value := do
  match o with
  | .reg id =>
    let registers := (← get).registers
    match registers[id]? with
    | some v => return v
    | none => fail .crash s!"index out of range: {id} of {registers.size}"
  | .func name => return .ptr (.code name)
  | o =>
    match constant? o with
    | some v => return v
    | none => fail .malformed "foreign operand <nil>"

/-- Goes to a block of the innermost call. -/
def enterBlock (f : Function) (block : Nat) : Exec Unit := do
  let b := f.blocks.getD block default
  if !b.isEnded then fail .malformed s!"block {b.name} of {f.name} has no terminator"
  modifyFrame fun fr => { fr with block, next := 0 }

/-- Does what the host provides under a name. -/
def callHost (c : Config) (name : String) (host : Host) (args : List Value) : Exec Value := do
  let refuse {α : Type} (message : String) : Exec α := fail .unknownHost s!"{name}: {message}"
  match host, args with
  | .allocate, [_, .int size] =>
    ofExcept (Memory.checkSize size)
    modifyMemory (·.addObject size)
    let id := (← get).memory.allocs
    record c (.alloc id size)
    return .ptr (.object id)
  | .allocate, _ => refuse s!"{name} expects (env, i64)"
  | .release, [_, v] =>
    let id ← ofExcept ((← get).memory.checkRelease v)
    modifyMemory (·.giveBack id)
    record c (.release id ((← get).memory.object id).tag)
    return .invalid
  | .release, _ => refuse s!"{name} expects (env, ptr)"
  | .print, [] => refuse "missing env argument"
  | .print, _ :: vs =>
    modify fun s => { s with calls := s.calls.push vs }
    return .invalid
  | .answer f, args =>
    match f args with
    | .ok v => return v
    | .error message => refuse message

/-- Makes a call of a function with a body the innermost one. Every slot of the function gets a new cell. -/
def State.enter (f : Function) (args : List Value) (dst : Nat) : State → State
  | ⟨⟨objects, releases, cells⟩, frames, steps, calls, events⟩ =>
    let first := cells.size
    let blank := args.toArray ++ Array.replicate (f.registers.size - args.length) Value.invalid
    let registers := f.slots.zipIdx.foldl
      (fun (regs : Array Value) (p : Nat × Nat) => regs.setIfInBounds p.1 (.ptr (.stack (first + p.2)))) blank
    let cells := cells ++ Array.replicate f.slots.length Value.invalid
    ⟨⟨objects, releases, cells⟩, { function := f, registers, dst } :: frames, steps, calls, events⟩

/-- Calls a function. The result is there at once if the host provides it; otherwise the body of the function is
entered. -/
def invoke (c : Config) (f : Function) (args : List Value) (dst : Nat) : Exec (Option Value) := do
  if !f.isDefined then
    match c.hosts.lookup f.name with
    | none => fail .unknownHost s!"call to undefined function {f.name}"
    | some host =>
      record c (.host (← get).frames.length f.name args)
      return some (← callHost c f.name host args)
  let want := f.sig.params.length
  if args.length ≠ want then
    fail .typeMismatch s!"{f.name} called with {args.length} arguments, want {want}"
  modify (State.enter f args dst)
  enterBlock f 0
  return none

/-- Leaves the innermost call; the result of the outermost one ends the run. -/
def leave (v : Value) : Exec (Option Value) := do
  match (← get).frames with
  | [] => return some v
  | fr :: rest =>
    modify fun s => { s with frames := rest }
    if rest.isEmpty then return some v
    setRegister (some fr.dst) v
    return none

/-- Executes an instruction of the innermost call. -/
def execute (c : Config) (f : Function) (line : Line) : Exec (Option Value) := do
  let value (v : Value) : Exec (Option Value) := do
    setRegister line.dst v
    return none
  match line.instr with
  | .fieldAddr _ base slot => value (← ofExcept (Memory.fieldAddr (← operand base) slot))
  | .load _ addr =>
    let addr ← operand addr
    value (← ofExcept ((← get).memory.load addr))
  | .store addr v =>
    let addr ← operand addr
    let v ← operand v
    ofExcept ((← get).memory.checkStore addr)
    modifyMemory (·.put addr v)
    setRegister none .invalid
    return none
  | .call _ callee args =>
    match ← operand callee with
    | .ptr (.code name) =>
      let args ← args.mapM operand
      match c.module.find? name with
      | none => fail .unknownHost s!"call to undefined function {name}"
      | some g =>
        match ← invoke c g args (line.dst.getD 0) with
        | some v => value v
        | none => return none
    | v => fail .invalidPointer s!"call through {v.text}"
  | .binary op x y =>
    let vx ← operand x
    let vy ← operand y
    value (← ofExcept (binary op (f.typeOf? x) vx vy))
  | .compare pred x y =>
    let x ← operand x
    let y ← operand y
    value (← ofExcept (compare pred x y))
  | .condBr cond thenBlock elseBlock =>
    match ← operand cond with
    | .bool b =>
      enterBlock f (if b then thenBlock else elseBlock)
      return none
    | v => fail .typeMismatch s!"branch on {v.kindName}"
  | .br block =>
    enterBlock f block
    return none
  | .ret none => leave .invalid
  | .ret (some v) => leave (← operand v)

/-- Executes the next instruction; the result is there if the run is over. -/
def step (c : Config) : Exec (Option Value) := do
  match (← get).frames with
  | [] => return some .invalid
  | fr :: _ =>
    let f := fr.function
    let b := f.blocks.getD fr.block default
    let line? := b.lines[fr.next]?
    modify fun s => { s with steps := s.steps + 1 }
    if c.limit > 0 && (← get).steps > c.limit then fail .stepLimit s!"step limit {c.limit} exceeded"
    match line? with
    | none => fail .malformed s!"block {b.name} of {f.name} has no terminator"
    | some line =>
      if c.isTraced then record c (.instr (← get).frames.length f.name b.name (f.lineText line))
      execute c f line

/-- Executes instructions until the run is over, at most `fuel` of them. -/
def steps (c : Config) : Nat → Exec Value
  | 0 => fail .stepLimit s!"step limit {c.limit} exceeded"
  | fuel + 1 => do
    match ← step c with
    | some v => return v
    | none => steps c fuel

/-- How many instructions a run can execute. Without a limit this is more than any run gets to. -/
def Config.fuel (c : Config) : Nat := if c.limit = 0 then Nat.pow 2 62 else c.limit + 1

/-- How a run ended. -/
inductive Outcome where
  | value (v : Value)
  | failure (f : Failure)
  | noFunction (name : String)

/-- Calls a function of the module from outside. -/
def run (c : Config) (name : String) (args : List Value) : Outcome × State :=
  match c.module.find? name with
  | none => (.noFunction name, {})
  | some f =>
    let go : Exec Value := do
      match ← invoke c f args 0 with
      | some v => return v
      | none => steps c c.fuel
    match go.run.run {} with
    | (.ok v, s) => (.value v, s)
    | (.error e, s) => (.failure e, s)

end TypedScript.Machine
