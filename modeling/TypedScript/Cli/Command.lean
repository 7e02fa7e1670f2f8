import TypedScript.Cli.Flag
import TypedScript.Text.Blank

/-!
# Commands

The first argument that is neither a flag nor the value of one names the command. Which flags take a value is
known before the command is, as far as all commands share them; of any other flag it is assumed.
-/

namespace TypedScript.Cli

inductive Command where
  /-- No command at all. -/
  | root
  | build
  | run
  | layouts
  | version
  | help
  | completion
  deriving DecidableEq, Inhabited, Repr

/-- The name that the program is called by. -/
def programName : String := "scriptc"

namespace Command

def name : Command → String
  | root => programName
  | build => "build"
  | run => "run"
  | layouts => "layouts"
  | version => "version"
  | help => "help"
  | completion => "completion"

/-- The commands, in the order that they are proposed in. -/
def all : List Command := [build, run, layouts, version, help, completion]

/-- The flags of every command. -/
def sharedFlags : List Flag :=
  [.text "color" "auto", .bool "quiet", .bool "timings", .integer "max-diagnostics" 100,
    .text "config", .text "trace",
    .text "trace-level", .text "trace-format" "auto", { name := "trace-heartbeat", initial := .duration 0 },
    .text "cpuprofile", .text "memprofile", .text "runtime-trace"]

/-- The flags that change what a module looks like. -/
def codeFlags : List Flag := [.text "entry", .text "triple", .text "allocate-hook", .text "release-hook"]

/-- The flags that change how diagnostics are shown. -/
def diagnosticFlags : List Flag := [.text "format" "pretty", .bool "absolute-paths", .integer "context"]

/-- The flags that a command has besides the shared ones. -/
def ownFlags : Command → List Flag
  | build =>
    [{ Flag.text "output" with letter := some 'o' }, { Flag.integer "jobs" with letter := some 'j' },
    .bool "no-cache",
      .text "ui" "auto", .bool "emit-runtime"] ++ codeFlags ++ diagnosticFlags
  | run => [.integer "max-steps" 10000000, .bool "vm-trace", .bool "stats"] ++ codeFlags ++ diagnosticFlags
  | layouts => [.bool "json", .bool "functions"] ++ codeFlags ++ diagnosticFlags
  | version => [.text "format" "pretty"]
  | _ => []

/-- The flags that can stand before and after the name of a command. -/
def knownFlags (c : Command) : List Flag := sharedFlags ++ c.ownFlags

/-- All flags of a command. Those that only ask for information come last. -/
def flags (c : Command) : List Flag :=
  c.knownFlags ++ { Flag.bool "help" with letter := some 'h' } ::
    if c = root then [{ Flag.bool "version" with letter := some 'v' }] else []

/-! ### Finding the command -/

/-- Whether an argument is a flag whose value is the next argument, as far as one can tell. -/
def takesNext (flags : List Flag) (argument : String) : Bool :=
  !argument.contains '=' && match argument.toList with
    | '-' :: '-' :: name => !(flagNamed? flags (String.ofList name)).any (·.implied?.isSome)
    | ['-', c] => c.toNat < 0x80 && !(flagLettered? flags c).any (·.implied?.isSome)
    | _ => false

/-- The arguments that are neither flags nor values of flags. A flag that takes the next argument must leave
another one, or else all that follows is passed over. -/
def words (flags : List Flag) : List String → List String
  | [] => []
  | "--" :: _ => []
  | argument :: rest =>
    if takesNext flags argument then
      match rest with
      | _ :: next :: more => words flags (next :: more)
      | _ => []
    else if argument = "" || argument.startsWith "-" then words flags rest
    else argument :: words flags rest

/-- The arguments without the first one that is the given word and no value of a flag. -/
def withoutWord (flags : List Flag) (word : String) : List String → List String
  | [] => []
  | "--" :: rest => "--" :: rest
  | argument :: rest =>
    if takesNext flags argument then
      match rest with
      | [] => [argument]
      | value :: rest => argument :: value :: withoutWord flags word rest
    else if argument = word then rest
    else argument :: withoutWord flags word rest

/-- Continues a row of distances, `left` being the distance that was found last. -/
def extendRow (a : UInt8) : Nat → List UInt8 → List Nat → List Nat
  | left, b :: t, before :: above :: row =>
    let here := if a = b then before else 1 + min (min before above) left
    here :: extendRow a here t (above :: row)
  | _, _, _ => []

/-- The distances of a text with one letter more from all beginnings of `t`. -/
def nextRow (t : List UInt8) (row : List Nat) (a : UInt8) : List Nat :=
  let first := row.headD 0 + 1
  first :: extendRow a first t row

/-- How many single changes lead from one text to another: a letter more, less, or another one. -/
def distance (s t : List UInt8) : Nat := (s.foldl (nextRow t) (List.range (t.length + 1))).getLastD 0

/-- Names farther away than this are not proposed. -/
def nearDistance : Nat := 2

/-- Whether a name may have been meant by a word, without regard to case. -/
def isNear (word name : String) : Bool :=
  let bytes := Text.encode (word.map Text.lower)
  bytes.isPrefixOf (Text.encode name) || distance bytes (Text.encode name) ≤ nearDistance

/-- The commands that may have been meant. -/
def proposals (word : String) : List Command := (all.filter (· ≠ help)).filter fun c => isNear word c.name

/-- The message for a word that names no command. -/
def unknownMessage (word : String) : String :=
  let names := (proposals word).map fun c => "\t" ++ c.name ++ "\n"
  "unknown command " ++ Text.quote word ++ " for " ++ Text.quote programName
    ++ if names.isEmpty then "" else "\n\nDid you mean this?\n" ++ String.join names

/-- Finds the command, and the arguments that are left for it; fails with a word that names none. -/
def find (arguments : List String) : Except String (Command × List String) :=
  match words sharedFlags arguments with
  | [] => .ok (root, arguments)
  | word :: _ =>
    match all.find? (·.name = word) with
    | some c => .ok (c, withoutWord sharedFlags word arguments)
    | none => .error word

end Command

end TypedScript.Cli
