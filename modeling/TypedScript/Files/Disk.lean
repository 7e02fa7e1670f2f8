import TypedScript.Text.Path

/-!
# Disks

A disk holds directories and files, which are named by paths. Whoever works on a disk does so through a few
operations that may fail; what is built from them works on any disk, be it the one of the machine or a tree in
memory.
-/

namespace TypedScript.Files

/-- Why an operation on a disk fails. -/
inductive Cause where
  | notFound
  | notDirectory
  | isDirectory
  | alreadyThere
  | nameTooLong
  | invalid
  /-- A cause of the machine's own. -/
  | other (text : String)
  deriving DecidableEq, Inhabited, Repr

def Cause.text : Cause → String
  | notFound => "no such file or directory"
  | notDirectory => "not a directory"
  | isDirectory => "is a directory"
  | alreadyThere => "file exists"
  | nameTooLong => "file name too long"
  | invalid => "invalid argument"
  | other text => text

/-- A failed operation: what was done to which path. -/
structure Failure where
  action : String
  path : String
  cause : Cause
  deriving DecidableEq, Inhabited, Repr

def Failure.message (f : Failure) : String := f.action ++ " " ++ f.path ++ ": " ++ f.cause.text

/-- What a path names. -/
inductive Kind where
  | directory
  | file
  deriving DecidableEq, Inhabited, Repr

/-- The operations of a disk. Relative paths start at the working directory. -/
class Disk (m : Type → Type) where
  workDir : m String
  kind : String → m (Except Cause Kind)
  /-- The bytes of a file. A directory has none. -/
  read : String → m (Except Cause (List UInt8))
  /-- Sets the bytes of a file, which is made if there is none. -/
  write : String → List UInt8 → m (Except Cause PUnit)
  makeDir : String → m (Except Cause PUnit)
  /-- The names in a directory, in order. -/
  names : String → m (Except Cause (List String))

section

variable {m : Type → Type} [Monad m] [Disk m]

/-- What a path names. -/
def kindOf (path : String) : ExceptT Failure m Kind := do
  match ← Disk.kind (m := m) path with
  | .ok k => return k
  | .error c => throw ⟨"stat", path, c⟩

/-- The bytes of a file. Directories can be opened, but not read. -/
def readFile (path : String) : ExceptT Failure m (List UInt8) := do
  match ← Disk.read (m := m) path with
  | .ok bytes => return bytes
  | .error .isDirectory => throw ⟨"read", path, .isDirectory⟩
  | .error c => throw ⟨"open", path, c⟩

/-- Sets the bytes of a file. -/
def writeFile (path : String) (bytes : List UInt8) : ExceptT Failure m PUnit := do
  match ← Disk.write (m := m) path bytes with
  | .ok _ => return
  | .error c => throw ⟨"open", path, c⟩

/-- The names in a directory. -/
def namesIn (path : String) : ExceptT Failure m (List String) := do
  match ← Disk.names (m := m) path with
  | .ok names => return names
  | .error c => throw ⟨"open", path, c⟩

/-- A path without its last component, up to and with the slash before it. -/
def parentText (path : String) : String :=
  String.ofList ((path.toList.reverse.dropWhile (· = '/')).dropWhile (· ≠ '/')).reverse

/-- Makes a directory unless it is there, after the directories above it. The fuel bounds how many those are. -/
def makeDirsWithin : Nat → String → ExceptT Failure m PUnit
  | 0, path => throw ⟨"mkdir", path, .nameTooLong⟩
  | fuel + 1, path => do
    match ← Disk.kind (m := m) path with
    | .ok .directory => return
    | .ok .file => throw ⟨"mkdir", path, .notDirectory⟩
    | .error _ =>
      if parentText path ≠ "" then makeDirsWithin fuel (parentText path)
      match ← Disk.makeDir (m := m) path with
      | .ok _ => return
      | .error c =>
        -- a path such as `a/.` names a directory that its own making has brought about
        match ← Disk.kind (m := m) path with
        | .ok .directory => return
        | _ => throw ⟨"mkdir", path, c⟩

/-- Makes a directory and those above it, as far as they are missing. -/
def makeDirs (path : String) : ExceptT Failure m PUnit := makeDirsWithin (path.length + 1) path

/-- No path is longer than this, so no directory lies deeper. -/
def longestPath : Nat := 4096

/-- The files below a path, except in directories that are left out. -/
def filesBelow (leaveOut : String → Bool) : Nat → String → ExceptT Failure m (List String)
  | 0, path => throw ⟨"open", path, .nameTooLong⟩
  | fuel + 1, path => do
    match ← kindOf path with
    | .file => return [path]
    | .directory =>
      if leaveOut path then return []
      let below ← (← namesIn path).mapM fun name => filesBelow leaveOut fuel (Path.join [path, name])
      return below.flatten

end

end TypedScript.Files
