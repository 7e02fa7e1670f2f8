import TypedScript.Cli.Value

/-!
# Flags

An argument that begins with a dash sets a flag: `--name value`, `--name=value`, or `-n value` for a flag with a
letter. Letters can be put together, and the value of the last one can follow without a blank. Truth values need
no value. All other arguments are left to the command, as is everything after `--`.
-/

namespace TypedScript.Cli

structure Flag where
  name : String
  letter : Option Char := none
  /-- The value of the flag if it is not set; the kind of it is that of all values. -/
  initial : Value
  deriving DecidableEq, Inhabited, Repr

namespace Flag

def text (name : String) (initial : String := "") : Flag := { name, initial := .text initial }

def bool (name : String) : Flag := { name, initial := .bool false }

def integer (name : String) (initial : Int := 0) : Flag := { name, initial := .integer initial }

/-- The value that the flag has if it is set without one. -/
def implied? (f : Flag) : Option String :=
  match f.initial with
  | .bool _ => some "true"
  | _ => none

/-- How the flag is called in messages. -/
def title (f : Flag) : String :=
  match f.letter with
  | some c => "-" ++ c.toString ++ ", --" ++ f.name
  | none => "--" ++ f.name

end Flag

/-- The flag with the given name. -/
def flagNamed? (flags : List Flag) (name : String) : Option Flag := flags.find? (·.name = name)

/-- The flag with the given letter. -/
def flagLettered? (flags : List Flag) (c : Char) : Option Flag := flags.find? (·.letter = some c)

/-- What is wrong with the arguments. -/
inductive FlagError where
  | badSyntax (argument : String)
  | unknown (name : String)
  | unknownLetter (c : Char) (letters : String)
  | missingValue (name : String)
  | missingLetterValue (c : Char) (letters : String)
  | badValue (f : Flag) (value cause : String)
  deriving DecidableEq, Repr

/-- A letter between single quotes. Letters are taken byte by byte, so that one beyond ASCII shows as its first
byte. -/
def letterText (c : Char) : String :=
  if c.toNat ≥ 0x80 then "'Ã'"
  else if c = '\'' then "'\\''"
  else if c = '"' then "'\"'"
  else String.ofList ('\'' :: Text.quoteChar c ++ ['\''])

def FlagError.message : FlagError → String
  | badSyntax argument => "bad flag syntax: " ++ argument
  | unknown name => "unknown flag: --" ++ name
  | unknownLetter c letters => "unknown shorthand flag: " ++ letterText c ++ " in -" ++ letters
  | missingValue name => "flag needs an argument: --" ++ name
  | missingLetterValue c letters => "flag needs an argument: " ++ letterText c ++ " in -" ++ letters
  | badValue f value cause =>
    "invalid argument " ++ Text.quote value ++ " for " ++ Text.quote f.title ++ " flag: " ++ cause

/-- Arguments that were taken apart. -/
structure Arguments where
  /-- The flags that were set, the latest first. -/
  set : List (String × Value) := []
  positional : List String := []
  deriving Inhabited, Repr

namespace Arguments

/-- Whether a flag was set. -/
def isSet (a : Arguments) (name : String) : Bool := a.set.any (·.1 = name)

/-- Sets a flag to a value that is spelled. -/
def assign (a : Arguments) (f : Flag) (value : String) : Except FlagError Arguments :=
  match f.initial.read value with
  | .ok v => .ok { a with set := (f.name, v) :: a.set }
  | .error cause => .error (.badValue f value cause)

/-- The value of a flag, if it is one of `flags`. -/
def value? (flags : List Flag) (a : Arguments) (name : String) : Option Value :=
  (a.set.lookup name).or ((flagNamed? flags name).map (·.initial))

/-- Takes a long flag. Gives the arguments that are left. -/
def takeLong (flags : List Flag) (a : Arguments) (argument : String) (rest : List String) :
    Except FlagError (Arguments × List String) := do
  let body := argument.toList.drop 2
  if body.head?.all fun c => c = '-' || c = '=' then throw (.badSyntax argument)
  let name := String.ofList (body.takeWhile (· ≠ '='))
  let some f := flagNamed? flags name | throw (.unknown name)
  match body.dropWhile (· ≠ '='), f.implied?, rest with
  | _ :: value, _, _ => return (← a.assign f (String.ofList value), rest)
  | [], some value, _ => return (← a.assign f value, rest)
  | [], none, value :: rest => return (← a.assign f value, rest)
  | [], none, [] => throw (.missingValue name)

/-- Takes the letters of an argument. Gives the arguments that are left. -/
def takeLetters (flags : List Flag) (a : Arguments) (rest : List String) :
    List Char → Except FlagError (Arguments × List String)
  | [] => .ok (a, rest)
  | c :: letters => do
    let all := String.ofList (c :: letters)
    -- flags of this form belong to test runners and are passed over
    if all.startsWith "test." then return (a, rest)
    let some f := flagLettered? flags c | throw (.unknownLetter c all)
    match letters, f.implied?, rest with
    | '=' :: v :: value, _, _ => return (← a.assign f (String.ofList (v :: value)), rest)
    | _, some value, _ => takeLetters flags (← a.assign f value) rest letters
    | v :: value, none, _ => return (← a.assign f (String.ofList (v :: value)), rest)
    | [], none, value :: rest => return (← a.assign f value, rest)
    | [], none, [] => throw (.missingLetterValue c all)

/-- Takes one argument after another. At most one of the others is used up by each, so there is fuel for all. -/
def takeAll (flags : List Flag) : Nat → Arguments → List String → Except FlagError Arguments
  | 0, a, _ => .ok a
  | _ + 1, a, [] => .ok a
  | fuel + 1, a, argument :: rest =>
    match argument.toList with
    | ['-', '-'] => .ok { a with positional := a.positional ++ rest }
    | '-' :: '-' :: _ => do
      let (a, rest) ← a.takeLong flags argument rest
      takeAll flags fuel a rest
    | '-' :: c :: letters => do
      let (a, rest) ← a.takeLetters flags rest (c :: letters)
      takeAll flags fuel a rest
    | _ => takeAll flags fuel { a with positional := a.positional ++ [argument] } rest

/-- Takes arguments apart. The first thing that is wrong counts. -/
def parse (flags : List Flag) (arguments : List String) : Except FlagError Arguments :=
  takeAll flags arguments.length {} arguments

end Arguments

end TypedScript.Cli
