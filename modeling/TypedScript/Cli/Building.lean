import TypedScript.Build.Session
import TypedScript.Cli.Session
import TypedScript.Compile.Run
import TypedScript.Native.Host
import TypedScript.Text.Width

/-!
# Building from the command line

A version has three numbers and perhaps a suffix. On a terminal every number has a colour of its own.

Files and directories are named on the command line; without any, all sources of the project are built. A
directory stands for the sources below it, except in hidden directories and in the one that the modules go to.
-/

/-!
## Running and inspecting from the command line

A single file is compiled for the machine, to be run there or to have the layouts of its objects shown.
-/

namespace TypedScript.Cli

open TypedScript.Files CommandM

variable {m : Type → Type} [Monad m] [Disk m]

/-- Compiles the file that the arguments name, and shows its diagnostics. -/
def compileArgument (adjust : Compile.Options → Compile.Options) : CommandM m Compile.Unit := do
  let path := (← read).arguments.positional.headD ""
  let c ← configured (← manifest?)
  let options := adjust
    { backend := .machine, triple := c.triple, hooks := .ofNames c.entry c.allocate c.release }
  let source ← attempt (fun f => "failed to load " ++ path ++ ": " ++ f.message) (readFile path)
  let (files, id) := Source.FileSet.addRaw {} path source 0
  match Compile.compile options files ((files.get? id).getD {}) with
  | .error f => throw (.fault f)
  | .ok u =>
    traceUnit u
    if let some e := u.error then fail e
    showDiagnostics "" u
    if u.failed then fail (path ++ ": compilation failed")
    return u

/-- Runs a file. -/
def runFile : CommandM m PUnit := do
  let most ← integerFlag "max-diagnostics"
  let u ← compileArgument fun o => { o with maxDiagnostics := most }
  let (state, error) :=
    Compile.run { maxSteps := (← integerFlag "max-steps").toNat, isTraced := ← boolFlag "vm-trace" } u
  if let some s := state then
    say s.output
    if ← boolFlag "vm-trace" then complain s.traceText
    if ← boolFlag "stats" then
      complain s!"steps={s.steps} allocs={s.memory.allocs} releases={s.memory.releases}\n"
  if let some e := error then fail e.message

/-- A layout for tools. -/
def layoutJson (d : Layout.Descriptor) : Text.Json :=
  let field (f : Layout.Field) : Text.Json :=
    .object [("name", .string f.name), ("slot", .number f.slot), ("offset", .number f.offset.toInt),
      ("repr", .string f.rep.text)]
  .object [("kind", .string d.kind.name), ("name", .string d.name), ("tag", .number d.tag),
  ("size", .number d.size.toInt),
    ("align", .number d.align.toInt), ("fields", if d.fields.isEmpty then .null else .array (d.fields.map field))]

/-- Shows the layouts of a file. -/
def showLayouts : CommandM m PUnit := do
  let u ← compileArgument fun o => { o with stage := .lower }
  let some lowered := u.lowered | return
  let layouts := lowered.registry.all
  if ← boolFlag "json" then say ((Text.Json.array (layouts.map layoutJson)).indented "" ++ "\n")
  else
    say (String.join (layouts.map (·.render)))
    if ← boolFlag "functions" then
      say "functions:\n"
      for f in lowered.functions do
        say ("  " ++ Text.padRight 24 f.name ++ " " ++ (if f.isPure then "pure" else "closure") ++ "\n")

end TypedScript.Cli

/-! ## Building from the command line -/

/-! ## Versions -/

namespace TypedScript.Cli

/-- What is known of a build of the program. -/
structure Version where
  number : String := "0.1.0-dev"
  commit : String := ""
  date : String := ""
  deriving Inhabited, Repr

/-- A text cut at the first occurrence of a character, which is left out; the second part is empty if there is
none. -/
def cutAt (c : Char) (cs : List Char) : List Char × List Char :=
  (cs.takeWhile (· ≠ c), (cs.dropWhile (· ≠ c)).drop 1)

namespace Version

/-- The number, with colours if they are on. A number that does not have three parts stays plain. -/
def colored (v : Version) (color : Bool) : String :=
  let (core, suffix) := cutAt '-' v.number.toList
  match (String.ofList core).splitOn "." with
  | major :: minor :: patch :: rest =>
    let paint (a : Text.Attribute) (s : String) : String := Text.paint color [a, .bold] s
    let patch := ".".intercalate (patch :: rest)
    paint .yellow major ++ "." ++ paint .green minor ++ "." ++ paint .blue patch
      ++ if suffix.isEmpty then "" else "-" ++ String.ofList suffix
  | _ => v.number

/-- The line that tells the version. -/
def text (v : Version) (color : Bool) : String :=
  "scriptc " ++ v.colored color ++ (if v.commit = "" then "" else " (" ++ v.commit ++ ")")
    ++ if v.date = "" then "" else " built " ++ v.date

end Version

end TypedScript.Cli

/-! ## Builds -/

namespace TypedScript.Cli

open TypedScript.Files CommandM

/-- Whether a file is a source that is built if its directory is. Files that only declare are not. -/
def isSource (path : String) : Bool := path.endsWith ".ts" && !path.endsWith ".d.ts"

variable {m : Type → Type} [Monad m] [Disk m]

/-- The sources below a directory, in order. -/
def sourcesBelow (dir skip : String) : ExceptT Failure m (List String) := do
  let leaveOut (path : String) : Bool :=
    path ≠ dir && ((Path.base path).startsWith "." || Path.clean path = Path.clean skip)
  let files ← filesBelow leaveOut longestPath dir
  return (files.filter isSource).mergeSort fun a b => a ≤ b

/-- The files that inputs stand for. -/
def expandInputs (inputs : List String) (skip : String) : ExceptT Failure m (List String) := do
  let found ← inputs.mapM fun input => do
    match ← kindOf input with
    | .file => return [input]
    | .directory => sourcesBelow input skip
  return found.flatten

/-- Whether progress is to be shown on a board. -/
def boardMode (word : String) : Except String (Option Bool) :=
  match Text.word word with
  | "" | "auto" => .ok none
  | "on" | "tui" => .ok (some true)
  | "off" => .ok (some false)
  | _ => .error ("invalid --ui value " ++ Text.quote word ++ " (expected auto|on|off)")

/-- Opens the cache of the user. -/
def openCache (e : Environment) : ExceptT String m Build.Cache := do
  if e.cacheHome = "" && e.home = "" then throw "$HOME is not defined"
  let dir := if e.cacheHome = "" then Path.join [e.home, ".cache"] else e.cacheHome
  (Build.Cache.openIn ({} : Version).number (Path.join [dir, programName])).adapt (·.message)

/-- Writes the host of the modules beside them. -/
def writeHost (outputDir : String) (c : Project.Config) : CommandM m PUnit := do
  let host : Native.Host := { entry := c.entry, allocate := c.allocate, release := c.release, reportLeaks := true }
  let text ← orFail id host.text
  attempt (·.message) (makeDirs outputDir)
  attempt (·.message) (writeFile (Path.join [outputDir, Native.Host.fileName]) (Text.encode text))

/-- The time that the stages took. -/
def timingsText (t : Build.Timings) : String :=
  let line (stage : String) (nanos : Int64) : String :=
    let hundredths := nanos.toInt.toNat / 10000
    Text.padRight 8 stage ++ " " ++ Text.padLeft 8 s!"{hundredths / 100}.{Text.zeroPadded 2 (hundredths % 100)}" ++
      " ms\n"
  String.join ((Build.stages.filter t.has).map fun s => line s (t.duration s)) ++ line "total" (t.sum Build.stages)

/-- The request that flags, manifest and settings make up. -/
def buildRequest (manifest : Option Project.Manifest) (c : Project.Config) (outputDir : String) :
    CommandM m Build.Request := do
  let i ← read
  let base ← match manifest with
    | some manifest => pure manifest.root
    | none => (liftM (Disk.workDir : m String) : CommandM m String)
  let inputs ← match i.arguments.positional, manifest with
    | [], none => fail "no scriptc.toml found\nplease name the files to build, e.g.:\n  scriptc build main.ts"
    | [], some manifest => pure [manifest.root]
    | inputs, _ => pure inputs
  let files ← attempt (·.message) (expandInputs inputs outputDir)
  if files.isEmpty then fail ("no .ts files found in [" ++ " ".intercalate inputs ++ "]")
  let cache ← if !c.cache || (← boolFlag "no-cache") then pure none else do
    match ← (liftM (openCache (m := m) i.environment).run : CommandM m (Except String Build.Cache)) with
    | .ok cache => pure (some cache)
    | .error e =>
      if !(← boolFlag "quiet") then complain ("warning: build cache disabled: " ++ e ++ "\n")
      pure none
  let jobs ← if ← isSet "jobs" then integerFlag "jobs" else pure c.jobs
  let maxDiagnostics ← integerFlag "max-diagnostics"
  return { files, base, outDir := outputDir, config := c, jobs, cache, maxDiagnostics }

/-- Builds what the arguments name. -/
def runBuild : CommandM m PUnit := do
  let _ ← orFail id (boardMode (← textFlag "ui"))
  let manifest ← manifest?
  let c ← configured manifest
  let outputDir ← if ← isSet "output" then textFlag "output" else pure (manifest.elim c.output (·.outputDir))
  let r ← buildRequest manifest c outputDir
  let outcome ← match ← (liftM (r.build (m := m)).run : CommandM m (Except Ir.Fault Build.Outcome)) with
    | .ok outcome => pure outcome
    | .error f => throw (.fault f)
  for p in outcome.products do
    if let some e := p.error then complain (p.display ++ ": " ++ e ++ "\n")
    if let some u := p.unit then
      traceUnit u
      showDiagnostics r.base u
  if ← boolFlag "timings" then say (timingsText outcome.timings)
  if let some e := outcome.error then fail e.message
  if ← boolFlag "emit-runtime" then writeHost outputDir c
  if !(← boolFlag "quiet") then
    let cached := (outcome.products.filter (·.isCached)).length
    let shown := match Path.relative r.base outputDir with
      | .ok dir => if dir.startsWith ".." then outputDir else dir
      | .error _ => outputDir
    say s!"built {outcome.products.length} unit(s) into {shown} ({cached} cached)\n"

end TypedScript.Cli
