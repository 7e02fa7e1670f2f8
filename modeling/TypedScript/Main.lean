import TypedScript.Cli.Program

/-!
# The command line

The program on the disk of the machine.
-/

namespace TypedScript.Cli

open TypedScript.Files

/-- The cause that the machine describes. -/
def causeOfText (description : String) : Cause :=
  let text := description.map Char.toLower
  ([Cause.notFound, .notDirectory, .isDirectory, .alreadyThere, .nameTooLong, .invalid].find? (·.text = text)).getD
    (.other text)

/-- What the machine says about a failed operation. -/
def causeOf : IO.Error → Cause
  | .noFileOrDirectory _ _ d | .alreadyExists _ _ d | .inappropriateType _ _ d | .invalidArgument _ _ d
  | .permissionDenied _ _ d | .resourceExhausted _ _ d | .noSuchThing _ _ d | .unsatisfiedConstraints _ d =>
      causeOfText d
  | e => .other e.toString

/-- An operation of the machine. -/
def onMachine {α : Type} (x : IO α) : IO (Except Cause α) := do
  try
    return .ok (← x)
  catch e => return .error (causeOf e)

/-- A path as the machine takes it. -/
def entryAt (path : String) : IO.FS.DirEntry := { root := path, fileName := "" }

instance : Disk IO where
  workDir := do return (← IO.currentDir).toString
  kind path := onMachine do
    let data ← (entryAt path).root.metadata
    return if data.type == .dir then .directory else .file
  read path := onMachine do
    let data ← IO.FS.readBinFile path
    return data.data.toList
  write path bytes := onMachine do
    IO.FS.writeBinFile path ⟨bytes.toArray⟩
    return ⟨⟩
  makeDir path := onMachine do
    IO.FS.createDir path
    return ⟨⟩
  names path := onMachine do
    let entries ← (entryAt path).root.readDir
    return (entries.toList.map (·.fileName)).mergeSort fun a b => a ≤ b

end TypedScript.Cli

/-- Runs the program with the arguments of the command line. -/
def main (arguments : List String) : IO UInt32 := do
  let stdout ← IO.getStdout
  let stderr ← IO.getStderr
  let environment : TypedScript.Cli.Environment :=
    { cacheHome := (← IO.getEnv "XDG_CACHE_HOME").getD "", home := (← IO.getEnv "HOME").getD "",
      isTerminal := ← stdout.isTty }
  let r ← TypedScript.Cli.run (m := IO) environment arguments
  stdout.write ⟨r.stdout.toArray⟩
  stderr.write ⟨r.stderr.toArray⟩
  return r.exit.toUInt32
