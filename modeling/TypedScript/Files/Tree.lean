import TypedScript.Files.Disk

/-!
# Trees

A disk in memory. Places are lists of names from the root on; a place holds a directory or a file, or nothing. A
path is followed name by name, and every name but the last one must be that of a directory.
-/

namespace TypedScript.Files

inductive Node where
  | directory
  | file (bytes : List UInt8)
  deriving DecidableEq, Inhabited

/-- The names from the root on. -/
abbrev Place := List String

structure Tree where
  workDir : Place := []
  entries : List (Place × Node) := []
  deriving Inhabited

namespace Tree

/-- What is at a place. The root is always there. -/
def get? (t : Tree) (p : Place) : Option Node := if p = [] then some .directory else t.entries.lookup p

/-- Puts something at a place. -/
def put (t : Tree) (p : Place) (x : Node) : Tree :=
  { t with entries := t.entries.filter (·.1 ≠ p) ++ [(p, x)] }

/-- Removes a place and everything below it. -/
def remove (t : Tree) (p : Place) : Tree := { t with entries := t.entries.filter fun e => !p.isPrefixOf e.1 }

/-- The longest name that a file can have, in bytes. -/
def longestName : Nat := 255

/-- Makes sure that there is a directory at a place that another name follows. -/
def enter (t : Tree) (p : Place) : Except Cause PUnit :=
  match t.get? p with
  | some .directory => .ok ()
  | some (.file _) => .error .notDirectory
  | none => .error .notFound

/-- Follows names from a place. -/
def follow (t : Tree) : Place → List String → Except Cause Place
  | p, [] => .ok p
  | p, name :: rest => do
    t.enter p
    if name.utf8ByteSize > longestName then throw .nameTooLong
    match name with
    | "." => t.follow p rest
    | ".." => t.follow p.dropLast rest
    | name => t.follow (p ++ [name]) rest

/-- The place that a path names, whether or not there is something. A path with a slash at its end names a
directory. -/
def locate (t : Tree) (path : String) : Except Cause Place := do
  if path.toList.contains '\x00' then throw .invalid
  if path = "" then throw .notFound
  let p ← t.follow (if Path.isAbsolute path then [] else t.workDir) (Path.components path)
  if path.endsWith "/" && (t.get? p).isSome then t.enter p
  return p

/-- What a path names. -/
def lookup (t : Tree) (path : String) : Except Cause (Place × Node) := do
  let p ← t.locate path
  match t.get? p with
  | some x => return (p, x)
  | none => throw .notFound

def kind (t : Tree) (path : String) : Except Cause Kind := do
  match (← t.lookup path).2 with
  | .directory => return .directory
  | .file _ => return .file

def read (t : Tree) (path : String) : Except Cause (List UInt8) := do
  match (← t.lookup path).2 with
  | .directory => throw .isDirectory
  | .file bytes => return bytes

/-- Sets the bytes of a file in a directory that is there. -/
def write (t : Tree) (path : String) (bytes : List UInt8) : Except Cause Tree := do
  let p ← t.locate path
  match t.get? p with
  | some .directory => throw .isDirectory
  | some (.file _) => return t.put p (.file bytes)
  | none =>
    if path.endsWith "/" then throw .isDirectory
    return t.put p (.file bytes)

/-- Makes a directory in one that is there. -/
def makeDir (t : Tree) (path : String) : Except Cause Tree := do
  if path.toList.contains '\x00' then throw .invalid
  if path = "" then throw .notFound
  let p ← t.follow (if Path.isAbsolute path then [] else t.workDir) (Path.components path)
  if (t.get? p).isSome then throw .alreadyThere
  return t.put p .directory

def names (t : Tree) (path : String) : Except Cause (List String) := do
  match ← t.lookup path with
  | (_, .file _) => throw .notDirectory
  | (p, .directory) =>
    let below := t.entries.filterMap fun e => if e.1.dropLast = p && e.1 ≠ [] then e.1.getLast? else none
    return below.mergeSort fun a b => a ≤ b

/-- Puts directories at a place and all places above it. -/
def putDirs (t : Tree) (p : Place) : Tree :=
  ((List.range (p.length + 1)).map p.take).foldl (fun t q => if (t.get? q).isSome then t else t.put q .directory) t

/-- Puts a file with all directories above it. -/
def putFile (t : Tree) (p : Place) (bytes : List UInt8) : Tree := (t.putDirs p.dropLast).put p (.file bytes)

/-- The files below a place by the rest of their paths, in order. -/
def filesUnder (t : Tree) (p : Place) : List (String × List UInt8) :=
  let found := t.entries.filterMap fun e =>
    match e.2 with
    | .file bytes => if p.isPrefixOf e.1 then some ("/".intercalate (e.1.drop p.length), bytes) else none
    | .directory => none
  found.mergeSort fun a b => a.1 ≤ b.1

/-- The path of a place. -/
def pathOf (p : Place) : String := "/" ++ "/".intercalate p

theorem get?_put_self {p : Place} (t : Tree) (h : p ≠ []) (x : Node) : (t.put p x).get? p = some x := by
  have none_before : (t.entries.filter fun e => !decide (e.1 = p)).lookup p = none := by
    rw [List.lookup_eq_none_iff]
    intro e he
    have := (List.mem_filter.1 he).2
    grind
  simp [get?, put, h, List.lookup_append, none_before]

end Tree

/-- Carries out an operation that changes the tree if it succeeds. -/
def changeTree (f : Tree → Except Cause Tree) : StateM Tree (Except Cause PUnit) := fun t =>
  match f t with
  | .ok t => (.ok (), t)
  | .error c => (.error c, t)

instance : Disk (StateM Tree) where
  workDir := fun t => (Tree.pathOf t.workDir, t)
  kind path := fun t => (t.kind path, t)
  read path := fun t => (t.read path, t)
  write path bytes := changeTree (·.write path bytes)
  makeDir path := changeTree (·.makeDir path)
  names path := fun t => (t.names path, t)

end TypedScript.Files
