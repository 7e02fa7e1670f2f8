import TypedScript.Files.Disk
import TypedScript.Text.Blank
import TypedScript.Text.Category
import TypedScript.Text.Path
import TypedScript.Text.Quoted
import TypedScript.Toml.Parser

/-!
# Project settings

A project is described by a manifest, a TOML file in its root directory. Settings that are missing have defaults;
settings that are unknown or make no sense are errors. The manifest is looked for in a directory, then in the ones
above.
-/

namespace TypedScript.Project

structure Config where
  name : String := ""
  entry : String := "__scriptc_start"
  triple : String := "x86_64-unknown-linux-gnu"
  output : String := "build"
  jobs : Int := 0
  cache : Bool := true
  allocate : String := "allocate"
  release : String := "release"
  level : String := "off"
  deriving Inhabited, Repr, DecidableEq

/-- Why settings cannot be used. -/
inductive ConfigError where
  /-- The text is no TOML document, or a setting is of the wrong type. -/
  | syntactic
  | unknownKeys (keys : List String)
  | missingName
  | badSymbol (setting symbol : String)
  | sameHooks (symbol : String)
  | entryIsHook (symbol : String)
  | negativeJobs (jobs : Int)
  | noTriple
  deriving DecidableEq, Repr

def ConfigError.message : ConfigError → String
  | syntactic => "failed to parse TOML"
  | unknownKeys keys => "unknown keys: " ++ ", ".intercalate keys
  | missingName => "missing [package].name"
  | badSymbol setting symbol => setting ++ ": " ++ Text.quote symbol ++ " is not a valid symbol name"
  | sameHooks symbol => "runtime.allocate and runtime.release must differ (both " ++ Text.quote symbol ++ ")"
  | entryIsHook symbol => "build.entry " ++ Text.quote symbol ++ " collides with a runtime hook"
  | negativeJobs jobs => s!"build.jobs must not be negative, got {jobs}"
  | noTriple => "build.triple must not be empty"

/-- Whether a name can be the name of a symbol: letters, digits that are not first, and three signs. -/
def isSymbol (s : String) : Bool :=
  let isSign (c : Char) : Bool := c = '_' || c = '$' || c = '.' || Text.isLetter c
  match s.toList with
  | [] => false
  | c :: rest => isSign c && rest.all fun c => isSign c || Text.isDecimalDigit c

namespace Config

/-- Checks that the settings make sense together. The first fault counts. -/
def validate (c : Config) : Except ConfigError Config := do
  for (setting, symbol) in [("build.entry", c.entry), ("runtime.allocate", c.allocate),
    ("runtime.release", c.release)] do
    if !isSymbol symbol then throw (.badSymbol setting symbol)
  if c.allocate = c.release then throw (.sameHooks c.allocate)
  if c.entry = c.allocate || c.entry = c.release then throw (.entryIsHook c.entry)
  if c.jobs < 0 then throw (.negativeJobs c.jobs)
  if Text.trim c.triple = "" then throw .noTriple
  return c

/-! ### Reading -/

/-- How one setting is changed by a value; none if the value is of the wrong type. -/
abbrev Setter := Toml.Value → Config → Option Config

def onString (set : String → Config → Config) : Setter
  | .string s, c => some (set s c)
  | _, _ => none

def onInteger (set : Int → Config → Config) : Setter
  | .integer n, c => some (set n c)
  | _, _ => none

def onBool (set : Bool → Config → Config) : Setter
  | .boolean b, c => some (set b c)
  | _, _ => none

/-- The settings by section and name. -/
def settings : List (String × List (String × Setter)) :=
  [("package", [("name", onString fun s c => { c with name := s })]),
    ("build", [("entry", onString fun s c => { c with entry := s }),
    ("triple", onString fun s c => { c with triple := s }),
      ("output", onString fun s c => { c with output := s }), ("jobs", onInteger fun n c => { c with jobs := n }),
      ("cache", onBool fun b c => { c with cache := b })]),
    ("runtime", [("allocate", onString fun s c => { c with allocate := s }),
      ("release", onString fun s c => { c with release := s })]),
    ("trace", [("level", onString fun s c => { c with level := s })])]

/-- The letters that a name is compared by. Beyond ASCII, only the long s and the sign for kelvin are letters of
it. -/
def foldName (s : String) : List Char :=
  s.toList.map fun c => if c.toNat = 0x17F then 's' else if c.toNat = 0x212A then 'k' else c.toLower

/-- Finds by name, with regard to case if possible. -/
def find? {α : Type} (entries : List (String × α)) (name : String) : Option α :=
  (entries.lookup name).or ((entries.find? fun e => foldName e.1 = foldName name).map (·.2))

/-- Takes over the settings of a section. Gives the keys that were used, too. -/
def readSection (heading : String) (setters : List (String × Setter)) (t : Toml.Table) (c : Config) :
    Option (Config × List Toml.Key) :=
  t.foldlM (fun (c, used) (name, v) =>
    match find? setters name with
    | some set => (set v c).map (·, used ++ [[heading, name]])
    | none => some (c, used)) (c, [])

/-- Takes over the settings of a document. -/
def readDocument (d : Toml.Document) : Option (Config × List Toml.Key) :=
  (d.table 0).foldlM (fun (c, used) (name, v) =>
    match find? settings name with
    | none => some (c, used)
    | some setters =>
      match v with
      | .table inner =>
        (readSection name setters (d.table inner) c).map fun (c, more) => (c, used ++ [name] :: more)
      | _ => none) ({}, [])

/-- Reads a manifest. -/
def parse (bytes : List UInt8) : Except ConfigError Config := do
  let some d := Toml.parse? bytes | throw .syntactic
  let some (c, used) := readDocument d | throw .syntactic
  let unknown := d.order.filter fun k => !used.contains k
  if !unknown.isEmpty then throw (.unknownKeys (unknown.map Toml.keyText))
  if (d.get? ["package", "name"]).isNone || Text.trim c.name = "" then throw .missingName
  c.validate

/-- The directory that the outputs of a project go to. -/
def outputDir (c : Config) (root : String) : String :=
  if Path.isAbsolute c.output then c.output else Path.join [root, c.output]

end Config

/-! ### Finding the manifest -/

open TypedScript.Files

/-- A manifest that was read. -/
structure Manifest where
  path : String
  config : Config
  deriving Inhabited, Repr

namespace Manifest

/-- The name that a manifest has in its directory. -/
def fileName : String := "scriptc.toml"

/-- The root directory of the project. -/
def root (m : Manifest) : String := Path.dir m.path

/-- The directory that the outputs of the project go to. -/
def outputDir (m : Manifest) : String := m.config.outputDir m.root

/-- Why there is no manifest to work with. -/
inductive Error where
  /-- It cannot be told whether there is a manifest at the path. -/
  | hidden (path : String) (f : Failure)
  | unreadable (path : String) (f : Failure)
  | invalid (path : String) (e : ConfigError)
  deriving DecidableEq, Repr

namespace Error

def message : Error → String
  | hidden path f => "failed to stat " ++ Text.quote path ++ ": " ++ f.message
  | unreadable path f => path ++ ": " ++ f.message
  | invalid path e => path ++ ": " ++ e.message

/-- Whether a manifest was found at least. -/
def isFound : Error → Bool
  | hidden .. => false
  | _ => true

end Error

/-- A directory and all directories above it, the deepest first. -/
def directoriesAbove (dir : String) : List String :=
  let names := Path.components dir
  (List.range (names.length + 1)).reverse.map fun n => "/" ++ "/".intercalate (names.take n)

variable {m : Type → Type} [Monad m] [Disk m]

/-- Reads the manifest at a path. -/
def load (path : String) : ExceptT Error m Manifest := do
  let bytes ← (readFile path).adapt (Error.unreadable path)
  let config ← ((Config.parse bytes).mapError (Error.invalid path) : Except Error Config)
  return { path, config }

/-- The first directory of a list that has a manifest. A place that cannot be looked at ends the search. -/
def findIn : List String → ExceptT Error m (Option String)
  | [] => return none
  | dir :: rest => do
    let path := Path.join [dir, fileName]
    match ← (kindOf (m := m) path).run with
    | .ok _ => return some path
    | .error f => if f.cause = .notFound then findIn rest else throw (.hidden path f)

/-- Finds and reads the manifest that governs a directory. -/
def discover (start : String) : ExceptT Error m (Option Manifest) := do
  let dir := Path.absolute (← Disk.workDir (m := m)) (if start = "" then "." else start)
  match ← findIn (directoriesAbove dir) with
  | some path => some <$> load path
  | none => return none

end Manifest

end TypedScript.Project
