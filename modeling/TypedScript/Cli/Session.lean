import TypedScript.Cli.Command
import TypedScript.Compile.Unit
import TypedScript.Diagnostic.Render
import TypedScript.Project.Config
import TypedScript.Trace.Format

/-!
# Sessions

A command works on a disk and writes to two outputs. What it needs to know stands in the flags, in the manifest
and in the environment. A trace of the compilations, if one is asked for, goes to a file or among the errors.
-/

namespace TypedScript.Cli

open TypedScript.Files

/-- What the program finds around it. -/
structure Environment where
  /-- The directory for caches; empty if none is set. -/
  cacheHome : String := ""
  /-- The directory of the user; empty if none is set. -/
  home : String := ""
  /-- Whether the output is a terminal. -/
  isTerminal : Bool := false
  deriving Inhabited, Repr

/-- A command with its arguments. -/
structure Invocation where
  environment : Environment
  command : Command
  arguments : Arguments

/-- A trace that is being written. -/
structure Tracing where
  stream : Trace.Stream
  /-- The file that the trace goes to; none for the errors. -/
  path : Option String
  /-- The last identity of a span. -/
  last : Nat := 0

structure State where
  stdout : List UInt8 := []
  stderr : List UInt8 := []
  tracing : Option Tracing := none
  /-- Whether colours are on. -/
  color : Bool := false

/-- Why a command ends early. -/
inductive Stop where
  | error (message : String)
  | fault (f : Ir.Fault)

abbrev CommandM (m : Type → Type) := ReaderT Invocation (ExceptT Stop (StateT State m))

namespace CommandM

variable {m : Type → Type} [Monad m]

/-- Ends the command with a message. -/
def fail {α : Type} (message : String) : CommandM m α := throw (.error message)

/-- Does something that may fail. -/
def attempt {α ε : Type} (message : ε → String) (x : ExceptT ε m α) : CommandM m α := do
  match ← (liftM x.run : CommandM m (Except ε α)) with
  | .ok a => return a
  | .error e => fail (message e)

/-- Goes on with a result that may be none for a reason. -/
def orFail {α ε : Type} (message : ε → String) : Except ε α → CommandM m α
  | .ok a => return a
  | .error e => fail (message e)

/-- Writes to the output. -/
def say (text : String) : CommandM m PUnit := modify fun s => { s with stdout := s.stdout ++ Text.encode text }

/-- Writes bytes to the errors. -/
def complainBytes (bytes : List UInt8) : CommandM m PUnit := modify fun s => { s with stderr := s.stderr ++ bytes }

/-- Writes to the errors. -/
def complain (text : String) : CommandM m PUnit := complainBytes (Text.encode text)

/-! ### Flags -/

def value? (name : String) : CommandM m (Option Value) := do
  let i ← read
  return i.arguments.value? i.command.flags name

/-- The value of a flag that takes a text. -/
def textFlag (name : String) : CommandM m String := do
  return match ← value? name with
    | some (.text s) => s
    | _ => ""

def boolFlag (name : String) : CommandM m Bool := do
  return match ← value? name with
    | some (.bool v) => v
    | _ => false

def integerFlag (name : String) : CommandM m Int := do
  return match ← value? name with
    | some (.integer n) => n
    | _ => 0

/-- Whether a flag was set. -/
def isSet (name : String) : CommandM m Bool := do return (← read).arguments.isSet name

/-! ### Settings -/

/-- Turns colours on or off. -/
def applyColor : CommandM m PUnit := do
  let mode ← textFlag "color"
  let color ← match mode with
    | "on" => pure true
    | "off" => pure false
    | "auto" => pure (← read).environment.isTerminal
    | _ => fail ("invalid --color value " ++ Text.quote mode ++ " (expected auto|on|off)")
  modify fun s => { s with color }

variable [Disk m]

/-- The manifest that is named by a flag, or else governs the working directory. -/
def manifest? : CommandM m (Option Project.Manifest) := do
  let path ← textFlag "config"
  if path ≠ "" then return some (← attempt (·.message) (Project.Manifest.load path))
  attempt (·.message) (Project.Manifest.discover ".")

/-- The settings of a manifest, or the defaults, with those that flags set. -/
def configured (manifest : Option Project.Manifest) : CommandM m Project.Config := do
  let c := manifest.elim {} (·.config)
  let set (name current : String) : CommandM m String := do if ← isSet name then textFlag name else return current
  let entry ← set "entry" c.entry
  let triple ← set "triple" c.triple
  let allocate ← set "allocate-hook" c.allocate
  let release ← set "release-hook" c.release
  orFail (fun e => "invalid configuration: " ++ e.message)
    (Project.Config.validate { c with entry, triple, allocate, release })

/-! ### Traces -/

/-- Starts the trace, if one is asked for. A level of the manifest counts only if no flag sets one, and a trace
without a level is one of phases. -/
def startTrace : CommandM m PUnit := do
  let output ← textFlag "trace"
  let flag ← textFlag "trace-level"
  let word ← if flag ≠ "" then pure flag else do
    let manifest ← manifest?
    pure (manifest.elim ({} : Project.Config) (·.config)).level
  let level ← orFail id (Trace.Level.parse word)
  if level = .off && output = "" then return
  let level := if level = .off then ⟨Trace.Scope.phase.rank⟩ else level
  let format ← orFail id (Trace.Format.parse (← textFlag "trace-format"))
  let some stream := Trace.Stream.ofPath? level format output | return
  let path := if output = "" || output = "-" then none else some output
  match path with
  | none => complain stream.output
  | some path => attempt (fun f => "failed to create tracer: open trace output: " ++ f.message) (writeFile path [])
  modify fun s => { s with tracing := some { stream, path } }

/-- Puts a stream in the place of the one so far. -/
def updateTrace (t : Tracing) (stream : Trace.Stream) (last : Nat) : CommandM m PUnit := do
  if t.path.isNone then complain ((stream.output.drop t.stream.output.length).toString)
  modify fun s => { s with tracing := some { t with stream, last } }

/-- Adds a unit to the trace. -/
def traceUnit (u : Compile.Unit) : CommandM m PUnit := do
  let some t := (← get).tracing | return
  let r := Compile.recordUnit { level := t.stream.level, last := t.last } u
  updateTrace t (r.events.foldl Trace.Stream.emit t.stream) r.last

/-- Ends the trace. -/
def finishTrace : CommandM m PUnit := do
  let some t := (← get).tracing | return
  let stream := t.stream.close
  updateTrace t stream t.last
  if let some path := t.path then
    attempt (·.message) (writeFile path (Text.encode stream.output))

/-! ### Profiles -/

/-- Makes the file of a profile. -/
def makeProfile (flag title : String) : CommandM m PUnit := do
  let path ← textFlag flag
  if path ≠ "" then attempt (fun f => title ++ ": " ++ f.message) (writeFile path [])

/-! ### Diagnostics -/

/-- Shows the diagnostics of a unit among the errors, in the form that is asked for. -/
def showDiagnostics (base : String) (u : Compile.Unit) : CommandM m PUnit := do
  if u.bag.items.isEmpty then return
  let format ← textFlag "format"
  let mode := if ← boolFlag "absolute-paths" then Diagnostic.PathMode.absolute else .auto
  let paths : Diagnostic.PathStyle :=
    { mode, base, workDir := ← (liftM (Disk.workDir : m String) : CommandM m String) }
  let bag := u.bag.sort
  let shown ← match format with
    | "pretty" =>
      let context := (min (← integerFlag "context") 9).toNat
      pure (Diagnostic.RenderOptions.render { color := (← get).color, context, paths } u.files bag)
    | "json" =>
      let most ← integerFlag "max-diagnostics"
      pure ((Diagnostic.JsonOptions.render { paths, most } u.files bag).map Text.encode)
    | _ => fail ("unsupported format " ++ Text.quote format ++ " (must be pretty or json)")
  match shown with
  | some bytes => complainBytes bytes
  | none => throw (.fault .crash)

end CommandM

end TypedScript.Cli
