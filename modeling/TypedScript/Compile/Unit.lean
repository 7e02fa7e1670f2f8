import TypedScript.Ast.Parser.Grammar
import TypedScript.Binding.Resolve
import TypedScript.Compile.Code
import TypedScript.Lower.Program
import TypedScript.Trace.Event

/-!
# Compilation units

A source file is compiled in phases: parse, resolve, check, capture, lower and, for LLVM, emit. The first phase
that reports errors is the last one. A unit is what has come out so far, with a record of the phases. In a trace
it is one span, with a span for every phase inside and, in the lowering phase, one for every function.
-/

namespace TypedScript.Compile

open TypedScript.Ir

/-- What the commands are carried out for. -/
inductive Backend where
  | llvm
  | machine
  | unsupported (name : String)
  deriving DecidableEq, Inhabited, Repr

/-- The backend with the given name; without one, LLVM. -/
def Backend.ofName (name : String) : Backend :=
  match name with
  | "" | "llvm" => llvm
  | "vm" => machine
  | name => unsupported name

def Backend.name : Backend → String
  | llvm => "llvm"
  | machine => "vm"
  | unsupported name => name

/-- How far a file is compiled. -/
inductive Stage where
  | check
  | lower
  | all
  deriving DecidableEq, Inhabited, Repr

def Stage.ofName (name : String) : Stage :=
  match name with
  | "check" => check
  | "lower" => lower
  | _ => all

structure Options where
  backend : Backend := .llvm
  stage : Stage := .all
  triple : String := ""
  hooks : Lower.Options := {}
  /-- The number of diagnostics that are kept; the default if it is not positive. -/
  maxDiagnostics : Int := 0
  /-- Whether the compilation was called off before it began. -/
  isCancelled : Bool := false

def Options.diagnosticLimit (o : Options) : Nat := if o.maxDiagnostics ≤ 0 then 100 else o.maxDiagnostics.toNat

/-- A phase that has been run. -/
structure Phase where
  name : String
  /-- What the phase came to, in short. -/
  note : String
  /-- Whether there were errors at its end. -/
  failed : Bool
  attributes : List (String × String) := []
  /-- The functions that were lowered in it. -/
  functions : List Lower.FunctionRecord := []

structure Unit where
  /-- The files that diagnostics tell of. -/
  files : Source.FileSet
  file : Source.File
  bag : Diagnostic.Bag
  hooks : Lower.Options
  phases : List Phase := []
  tree : Ast.Tree := {}
  /-- The state at the end of lowering. -/
  lowered : Option Lower.State := none
  code : Option Code := none
  /-- The text of the module, for LLVM. -/
  ir : String := ""
  /-- Why the compilation ended early, if the file is not to blame. -/
  error : Option String := none

namespace Unit

def path (u : Unit) : String := u.file.path

def failed (u : Unit) : Bool := u.bag.hasErrors

def report (u : Unit) (ds : List Diagnostic) : Unit := { u with bag := u.bag.addAll ds }

/-- Records a phase that ends now. -/
def finish (u : Unit) (name note : String) (attributes : List (String × String) := [])
    (functions : List Lower.FunctionRecord := []) : Unit :=
  { u with phases := u.phases ++ [⟨name, note, u.failed, attributes, functions⟩] }

/-- The note of a phase that counts the diagnostics. -/
def diagnosticNote (u : Unit) : String := s!"diags={u.bag.items.length}"

end Unit

/-- The module that lowering writes to. -/
def emptyCode (o : Options) (path : String) : Code :=
  match o.backend with
  | .machine => .machine {}
  | _ => .llvm { sourceName := path, triple := o.triple }

/-- Lowers a checked unit. A command that cannot be carried out ends everything. -/
def lowerUnit (o : Options) (u : Unit) (inp : Lower.Input) : Except Fault Unit := do
  let r := Lower.lower inp (Layout.Target.ofTriple o.triple)
  let code ← (emptyCode o u.path).applyAll r.state.commands
  let st := r.state
  match r.error with
  | some .missingParameter => throw .crash
  | some e =>
    let u := u.report [e.diagnostic u.file.id]
    return u.finish "lower" "failed" [] st.records
  | none =>
    let counts := s!"functions={st.functions.length} objects={st.objects} layouts={st.registry.all.length}"
    let escaping := toString inp.analysis.escapingContainers.length
    let u := { u with lowered := some st, code := some code }
    return u.finish "lower" counts [("backend", o.backend.name), ("escaping", escaping)] st.records

/-- Writes the text of a module for LLVM. -/
def emitUnit (u : Unit) : Except Fault Unit := do
  match u.code with
  | some (.llvm m) =>
    match m.text with
    | .ok ir => return { u with ir }.finish "emit" s!"bytes={ir.utf8ByteSize}"
    | .error message => throw (.broken message)
  | _ => return u

/-- What cannot be counted ends everything. -/
def bounded {α : Type} (result : Except Source.Overflow α) : Except Fault α :=
  result.mapError fun w => .broken w.message

theorem bounded_bind_eq_ok {α β : Type} {result : Except Source.Overflow α} {f : α → Except Fault β} {b : β}
    (h : (bounded result >>= f) = .ok b) : ∃ a, result = .ok a ∧ f a = .ok b := by
  cases result with
  | error w => cases h
  | ok a => exact ⟨a, rfl, h⟩

/-- What is told of a phase: that it begins, or that it is over, and whether there were errors at its end. -/
inductive Notice where
  | begun (phase : String)
  | ended (phase : String) (failed : Bool)

/-- Whether there is a text to be written, so that the last phase is run. -/
def Unit.isEmitted (u : Unit) : Bool := u.code matches some (.llvm _)

/-- Compiles a file of a set, and tells of the phases. -/
def compileWith {m : Type → Type} [Monad m] [MonadLiftT (Except Fault) m] (tell : Notice → m PUnit) (o : Options)
    (files : Source.FileSet) (file : Source.File) : m Unit := do
  let limit := o.diagnosticLimit
  let u : Unit := { files, file, bag := .ofLimit limit, hooks := o.hooks }
  if o.isCancelled then return { u with error := some "context canceled" }
  tell (.begun "parse")
  let parsed ← bounded (Ast.parseFile file limit)
  let tree := parsed.tree
  let u := ({ u with tree }.report parsed.diagnostics).finish "parse" s!"nodes={tree.size}"
  tell (.ended "parse" u.failed)
  if u.failed then return u
  tell (.begun "resolve")
  let resolved := Binding.resolve tree
  let u := u.report resolved.diagnostics
  let u := u.finish "resolve" u.diagnosticNote
  tell (.ended "resolve" u.failed)
  if u.failed then return u
  tell (.begun "check")
  let checked ← bounded (Check.checkTree tree resolved.table)
  let u := u.report checked.diagnostics
  let u := u.finish "check" u.diagnosticNote
  tell (.ended "check" u.failed)
  if u.failed || o.stage = .check then return u
  tell (.begun "capture")
  let analysis := Capture.analyze tree resolved.table
  let u := u.finish "capture" s!"escaping={analysis.escapingContainers.length} rounds={analysis.rounds}"
  tell (.ended "capture" u.failed)
  if let .unsupported name := o.backend then
    return { u with error := some s!"unsupported backend: {name} (supported: llvm, vm)" }
  tell (.begun "lower")
  let u ← lowerUnit o u
    { tree, table := resolved.table, types := checked.types, info := checked.info, analysis, options := o.hooks }
  tell (.ended "lower" u.failed)
  if u.failed || o.stage = .lower then return u
  if u.isEmitted then tell (.begun "emit")
  let u ← emitUnit u
  if u.isEmitted then tell (.ended "emit" u.failed)
  return u

/-- Compiles a file of a set. -/
def compile (o : Options) (files : Source.FileSet) (file : Source.File) : Except Fault Unit :=
  compileWith (fun _ => pure ⟨⟩) o files file

/-- Compiles a text under a name. -/
def compileSource (o : Options) (name : String) (content : List UInt8) : Except Fault Unit :=
  let (files, id) := Source.FileSet.addVirtual {} name content
  compile o files ((files.get? id).getD {})

/-! ### Traces -/

section

open TypedScript.Trace

/-- Records the lowering of a function. -/
def recordFunction (parent : Identity) (r : Recorder) (f : Lower.FunctionRecord) : Recorder :=
  let (r, span) := r.openSpan .func f.name parent
  let span := f.attributes.foldl (fun (s : Span) (a : String × String) => s.note a.1 a.2) span
  (r.closeSpan span "").1

/-- Records a phase. -/
def recordPhase (parent : Identity) (r : Recorder) (p : Phase) : Recorder :=
  let (r, span) := r.openSpan .phase p.name parent
  let r := p.functions.foldl (recordFunction span.identity) r
  let span := p.attributes.foldl (fun (s : Span) (a : String × String) => s.note a.1 a.2) span
  (r.closeSpan span p.note).1

/-- Records the compilation of a unit. -/
def recordUnit (r : Recorder) (u : Unit) : Recorder :=
  let (r, span) := r.openSpan .unit u.path {}
  let r := u.phases.foldl (recordPhase span.identity) r
  (r.closeSpan span u.diagnosticNote).1

end

end TypedScript.Compile
