import TypedScript.Build.Cache
import TypedScript.Build.Work
import TypedScript.Project.Config
import TypedScript.Text.Blank
import TypedScript.Text.Path

/-!
# Builds

A build compiles every file of a request for LLVM and writes the modules below one directory, in the places that
the files have below the base directory. A file that fails does not keep the others from being built.

The units may be worked on at the same time, step by step in any order. Here one order is chosen: files are taken
in waves, and all files of a wave are looked up in the cache before the first of them is compiled.
-/

namespace TypedScript.Build

open TypedScript.Files

/-- The name that a file is shown by. -/
def displayName (workDir base file : String) : String :=
  let base := Text.trim base
  let path := Path.clean file
  if base = "" then path
  else
    let path := Path.absolute workDir path
    match Path.relative (Path.absolute workDir base) path with
    | .ok r => if r ≠ "." && !r.startsWith ".." then r else path
    | .error _ => path

structure Request where
  files : List String
  /-- The directory that names of units are relative to. -/
  base : String := ""
  /-- Where the modules go; the working directory if empty. -/
  outDir : String := ""
  config : Project.Config := {}
  /-- How many files there are in a wave; all of them if it is not positive. -/
  jobs : Int := 0
  cache : Option Cache := none
  /-- How entries of the cache are written. -/
  codec : Codec := .plain
  /-- The number of diagnostics that are kept for a file; the default if it is not positive. -/
  maxDiagnostics : Int := 0
  /-- Whether the build was called off before it began. -/
  isCancelled : Bool := false

/-- What came of one file. -/
structure Product where
  path : String := ""
  display : String := ""
  /-- Where the module goes. -/
  output : String := ""
  isCached : Bool := false
  /-- The unit, if the file was compiled. -/
  unit : Option Compile.Unit := none
  error : Option String := none
  /-- The stages that were timed. -/
  timed : List String := []

namespace Product

/-- Whether there is no new module. -/
def failed (p : Product) : Bool := p.error.isSome || p.unit.any (·.failed)

def time (p : Product) (stage : String) : Product := { p with timed := p.timed ++ [stage] }

/-- Tells how the unit of the file stands. -/
def tell (p : Product) (stage : String) (status : Status) (error : Option String := none) : Work PUnit :=
  .tell ⟨p.display, stage, status, error⟩ (pure ⟨⟩)

/-- Ends the unit in a stage, for a reason. -/
def fail (p : Product) (stage message : String) : Work Product := do
  p.tell stage .error (some message)
  return { p with error := some message }

/-- Tells of a phase of the compilation. That a phase ended well is not told. -/
def tellPhase (p : Product) : Compile.Notice → Work PUnit
  | .begun phase => p.tell phase .working
  | .ended phase failed => if failed then p.tell phase .error else pure ⟨⟩

end Product

/-- Why a build as a whole fails. -/
inductive Error where
  | noRequest
  | noFiles
  | cancelled
  | unitsFailed (failed all : Nat)
  deriving DecidableEq, Repr

def Error.message : Error → String
  | noRequest => "missing build request"
  | noFiles => "no input files"
  | cancelled => "context canceled"
  | unitsFailed failed all => s!"build failed: {failed} of {all} units"

/-- What came of a build. -/
structure Outcome where
  products : List Product := []
  events : List Event := []
  error : Option Error := none

namespace Outcome

def failedCount (o : Outcome) : Nat := (o.products.filter (·.failed)).length

/-- The stages that were timed for some file. -/
def timings (o : Outcome) : Timings := (o.products.flatMap (·.timed)).foldl (fun t s => t.add s 0) {}

end Outcome

/-- The path of a module below the directory of all modules. No dot or slash starts it. -/
def outputName (display : String) : String :=
  String.ofList ((Path.withoutExtension display ++ ".ll").toList.dropWhile fun c => c = '.' || c = '/')

namespace Request

def options (r : Request) : Compile.Options :=
  { triple := r.config.triple, maxDiagnostics := r.maxDiagnostics,
    hooks := .ofNames r.config.entry r.config.allocate r.config.release }

/-- The settings that modules depend on. -/
def settings (r : Request) : List String := [r.config.triple, r.config.entry, r.config.allocate, r.config.release]

/-- A file before anything was done to it. -/
def product (r : Request) (workDir path : String) : Product :=
  let display := displayName workDir r.base path
  { path, display, output := Path.join [if r.outDir = "" then "." else r.outDir, outputName display] }

end Request

/-- A file that was looked at. -/
inductive Prepared where
  | unreadable (p : Product)
  /-- The module is in the cache. -/
  | kept (p : Product) (ir : String)
  | fresh (p : Product) (key : List UInt8)

/-- Writes a module. -/
def writeModule (path ir : String) : ExceptT String Work PUnit := do
  (makeDirs (m := Work) (Path.dir path)).adapt fun f => "failed to create output dir: " ++ f.message
  (writeFile (m := Work) path (Text.encode ir)).adapt fun f => "failed to write " ++ path ++ ": " ++ f.message

/-- Reads a file and looks it up. -/
def prepare (r : Request) (p : Product) : Work Prepared := do
  match ← (readFile (m := Work) p.path).run with
  | .error f => return .unreadable (← p.fail "parse" ("failed to read " ++ p.path ++ ": " ++ f.message))
  | .ok source =>
    let key := Cache.key source r.settings
    let kept ← match r.cache with
      | some c => c.get? (m := Work) r.codec key
      | none => pure none
    return match kept with
      | some e => .kept p e.ir
      | none => .fresh p key

/-- Compiles a source for a unit. -/
def compileProduct (r : Request) (p : Product) (source : List UInt8) : ExceptT Ir.Fault Work
    (Product × Compile.Unit) := do
  let (files, id) := Source.FileSet.addRaw {} p.path source 0
  let u ← Compile.compileWith (m := ExceptT Ir.Fault Work) (liftM ∘ p.tellPhase) r.options files
    ((files.get? id).getD {})
  let p := { p with unit := some u, timed := p.timed ++ u.phases.map (·.name) }
  match u.error with
  | some message => return (← p.fail "parse" message, u)
  | none => return (p, u)

/-- Writes the module of a unit that was compiled, and keeps it. -/
def writeProduct (r : Request) (p : Product) (key : List UInt8) (u : Compile.Unit) :
    ExceptT Ir.Fault Work Product := do
  p.tell "write" .working
  match ← (writeModule p.output u.ir).run with
  | .error message => p.fail "write" message
  | .ok _ =>
    if let some c := r.cache then c.put (m := Work) r.codec key (.ofUnit u)
    let p := p.time "write"
    p.tell "write" .done
    return p

/-- Brings a file to its end. One that is not in the cache is read once more to be compiled. -/
def finish (r : Request) : Prepared → ExceptT Ir.Fault Work Product
  | .unreadable p => return p
  | .kept p ir => do
    let p := { p with isCached := true }.time "write"
    match ← (writeModule p.output ir).run with
    | .error message => p.fail "write" message
    | .ok _ =>
      p.tell "write" .cached
      return p
  | .fresh p key => do
    match ← (readFile (m := Work) p.path).run with
    | .error f => p.fail "parse" ("failed to load " ++ p.path ++ ": " ++ f.message)
    | .ok source =>
      let (p, u) ← compileProduct r p source
      if p.failed then return p else writeProduct r p key u

variable {m : Type → Type} [Monad m] [Disk m]

/-- Builds the files of a wave. -/
def buildWave (r : Request) (ps : List Product) : ExceptT Ir.Fault (StateT (List Event) m) (List Product) := do
  let prepared ← ps.mapM fun p => (prepare r p).perform (m := m)
  prepared.mapM fun q => ExceptT.mk ((finish r q).run.perform (m := m))

/-- Carries out a request. Only a fault of the compiler ends it early. -/
def Request.build (r : Request) : ExceptT Ir.Fault m Outcome := do
  if r.files.isEmpty then return { error := some .noFiles }
  let products := r.files.map (r.product (← Disk.workDir (m := m)))
  let queued : List Event := products.map fun p => ⟨p.display, "parse", .queued, none⟩
  if r.isCancelled then
    return { products := r.files.map fun _ => {}, events := queued, error := some .cancelled }
  let size := if r.jobs ≤ 0 then r.files.length else r.jobs.toNat
  let (result, events) ← ((Digest.chunks size products).mapM (buildWave (m := m) r)).run.run queued
  let products := (← result).flatten
  let o : Outcome := { products, events }
  return if o.failedCount = 0 then o else { o with error := some (.unitsFailed o.failedCount products.length) }

/-- Carries out a request, if there is one. -/
def build (r : Option Request) : ExceptT Ir.Fault m Outcome :=
  match r with
  | some r => r.build
  | none => return { error := some .noRequest }

end TypedScript.Build
