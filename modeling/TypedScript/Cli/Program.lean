import TypedScript.Cli.Building

/-!
# The program

The program finds the command, takes its flags and carries it out. It ends with status zero, or with an error that
is told last.
-/

namespace TypedScript.Cli

open TypedScript.Files CommandM

/-- What a run of the program leaves. -/
structure Result where
  exit : Nat
  stdout : List UInt8
  stderr : List UInt8
  deriving Inhabited

/-- How the program is used, in short. -/
def usage : String :=
  "Usage:\n  scriptc [command] [flags]\n\nCommands:\n" ++
    String.join (Command.all.map fun c => "  " ++ c.name ++ "\n")

/-- Checks the number of arguments that are no flags. -/
def checkCount (c : Command) (count : Nat) : Except String PUnit :=
  if (c = .run || c = .layouts) && count ≠ 1 then .error s!"accepts 1 arg(s), received {count}" else .ok ()

variable {m : Type → Type} [Monad m]

/-- Tells the version. -/
def showVersion : CommandM m PUnit := do
  let format ← textFlag "format"
  let v : Version := {}
  let optional (key value : String) : List (String × Text.Json) :=
    if Text.trim value = "" then [] else [(key, .string (Text.trim value))]
  match format.map Text.lower with
  | "pretty" => say (v.text (← get).color ++ "\n")
  | "json" =>
    let members := [("tool", .string programName), ("version", .string (Text.trim v.number))]
      ++ optional "git_commit" v.commit ++ optional "build_date" v.date
    say ((Text.Json.object members).indented "" ++ "\n")
  | _ => fail ("unsupported format " ++ Text.quote format ++ " (must be pretty or json)")

variable [Disk m]

/-- Carries out a command. -/
def perform : CommandM m PUnit := do
  let i ← read
  orFail id (checkCount i.command i.arguments.positional.length)
  applyColor
  startTrace
  makeProfile "cpuprofile" "cpu profile"
  makeProfile "runtime-trace" "runtime trace"
  match i.command with
  | .build => runBuild
  | .run => runFile
  | .layouts => showLayouts
  | .version => showVersion
  | _ => say usage

/-- What is told last about a command that ended early, and the status that it ends with. -/
def Stop.verdict : Stop → Nat × String
  | .error message => (1, "Error: " ++ message ++ "\n")
  | .fault (.broken message) => (2, "panic: " ++ message ++ "\n")
  | .fault .crash => (2, "panic: invalid reference\n")

/-- Carries out a command from a state on. -/
def CommandM.continue (x : CommandM m PUnit) (i : Invocation) (s : State) : m (Result × State) := do
  let (r, s) ← ((x.run i).run).run s
  match r with
  | .ok _ => return (⟨0, s.stdout, s.stderr⟩, s)
  | .error e =>
    let s := { s with stderr := s.stderr ++ Text.encode e.verdict.2 }
    return (⟨e.verdict.1, s.stdout, s.stderr⟩, s)

/-- Carries out a command and ends its trace, whether or not it succeeds. -/
def performAll (i : Invocation) : m Result := do
  let (r, s) ← perform.continue i {}
  if r.exit = 0 then
    let finish : CommandM m PUnit := do
      finishTrace
      makeProfile "memprofile" "heap profile"
    return (← finish.continue i s).1
  else
    let (last, _) ← finishTrace.continue i s
    return { last with exit := r.exit }

/-- The outcome of arguments that make no sense. -/
def refuse (message : String) (hint : String := "") : Result :=
  ⟨1, [], Text.encode ("Error: " ++ message ++ "\n" ++ hint)⟩

/-- Runs the program. -/
def run (e : Environment) (arguments : List String) : m Result := do
  match Command.find arguments with
  | .error word => return refuse (Command.unknownMessage word) "Run 'scriptc --help' for usage.\n"
  | .ok (command, rest) =>
    match Arguments.parse command.flags rest with
    | .error e => return refuse e.message
    | .ok a =>
      let isOn (name : String) : Bool := a.set.lookup name = some (.bool true)
      if isOn "help" then return ⟨0, Text.encode usage, []⟩
      if isOn "version" then
        return ⟨0, Text.encode (programName ++ " version " ++ ({} : Version).number ++ "\n"), []⟩
      if [Command.root, .help, .completion].contains command then return ⟨0, Text.encode usage, []⟩
      performAll ⟨e, command, a⟩

end TypedScript.Cli
