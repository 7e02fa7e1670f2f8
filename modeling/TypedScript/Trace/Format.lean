import TypedScript.Text.Json
import TypedScript.Trace.Event

/-!
# Traces as text

An event is written as a line for people, as a JSON line, or as an element of a JSON array in the form that trace
viewers read.
-/

namespace TypedScript.Trace

inductive Format where
  /-- Decided by the name of the output. -/
  | auto
  | text
  | ndjson
  | chrome
  deriving DecidableEq, Inhabited, Repr

namespace Format

def all : List Format := [auto, text, ndjson, chrome]

def name : Format → String
  | auto => "auto"
  | text => "text"
  | ndjson => "ndjson"
  | chrome => "chrome"

/-- The name of the format with the given number. -/
def nameOfNumber (n : Nat) : String := (all[n]?).elim "unknown" name

/-- The format that a word names. -/
def parse (s : String) : Except String Format :=
  match Text.word s with
  | "" | "auto" => .ok auto
  | "text" => .ok text
  | "ndjson" | "json" => .ok ndjson
  | "chrome" => .ok chrome
  | _ => .error ("invalid trace format " ++ Text.quote s ++ " (expected auto|text|ndjson|chrome)")

/-- The format for an output with the given path. -/
def ofPath (path : String) : Format :=
  if path.endsWith ".ndjson" then ndjson else if path.endsWith ".json" then chrome else text

end Format

/-! ### Times -/

/-- The year, month and day of a number of days since the start of 1970, in the calendar that has 97 leap years in
400. -/
def civilDate (days : Int) : Int × Nat × Nat :=
  -- years are counted from March on, so that a leap day is the last day of its year
  let z := days + 719468
  let era := z.fdiv 146097
  let dayOfEra := (z - era * 146097).toNat
  let yearOfEra := (dayOfEra - dayOfEra / 1460 + dayOfEra / 36524 - dayOfEra / 146096) / 365
  let dayOfYear := dayOfEra - (365 * yearOfEra + yearOfEra / 4 - yearOfEra / 100)
  let shifted := (5 * dayOfYear + 2) / 153
  let day := dayOfYear - (153 * shifted + 2) / 5 + 1
  let month := if shifted < 10 then shifted + 3 else shifted - 9
  let year : Int := yearOfEra + era * 400 + if month ≤ 2 then 1 else 0
  (year, month, day)

/-- The fraction of a second, without zeros at the end; empty for a whole second. -/
def fractionText (micros : Nat) : String :=
  let digits := ((Text.zeroPadded 6 micros).toList.reverse.dropWhile (· = '0')).reverse
  if digits.isEmpty then "" else "." ++ String.ofList digits

/-- A time in universal time, to the microsecond. -/
def timeText (micros : Int) : String :=
  let seconds := micros.fdiv 1000000
  let fraction := (micros - seconds * 1000000).toNat
  let days := seconds.fdiv 86400
  let rest := (seconds - days * 86400).toNat
  let (year, month, day) := civilDate days
  let two := Text.zeroPadded 2
  let yearText := if year < 0 then "-" ++ Text.zeroPadded 4 year.natAbs else Text.zeroPadded 4 year.toNat
  s!"{yearText}-{two month}-{two day}T{two (rest / 3600)}:{two (rest / 60 % 60)}:{two (rest % 60)}"
    ++ fractionText fraction ++ "Z"

/-- Microseconds as milliseconds with three places. -/
def millisText (micros : Int) : String :=
  let n := micros.natAbs
  (if micros < 0 then "-" else "") ++ toString (n / 1000) ++ "." ++ Text.zeroPadded 3 (n % 1000)

/-! ### Events -/

/-- The attributes by key, in order of the keys; the last value of a key counts. -/
def attributeMap (attributes : List (String × String)) : List (String × Text.Json) :=
  let keys := (attributes.map (·.1)).eraseDups.mergeSort fun a b => a ≤ b
  keys.map fun k => (k, .string ((attributes.reverse.lookup k).getD ""))

namespace Event

def mark (e : Event) : String :=
  if e.kind = .opened then "-> " else if e.kind = .closed then "<- " else "*  "

/-- The event as a line for people. -/
def lineText (e : Event) : String :=
  let scope := if e.scope = .none then "" else e.scope.name ++ " "
  let detail := if e.detail = "" then "" else " (" ++ e.detail ++ ")"
  let attributes :=
    if e.attributes.isEmpty then ""
    else " \x7b" ++ ", ".intercalate (e.attributes.map fun (k, v) => k ++ "=" ++ v) ++ "\x7d"
  Text.padLeft 10 (millisText e.time) ++ "ms t" ++ Text.padRight 3 (toString e.track) ++ " " ++
    e.mark ++ scope ++ e.name
    ++ detail ++ attributes ++ "\n"

/-- Members that are left out if they are empty or zero. -/
def optional (key value : String) : List (String × Text.Json) := if value = "" then [] else [(key, .string value)]

def optionalNumber (key : String) (n : Nat) : List (String × Text.Json) := if n = 0 then [] else [(key, .number n)]

def scopeName (e : Event) : String := if e.scope = .none then "" else e.scope.name

/-- The event as a JSON line. -/
def ndjsonText (e : Event) : String :=
  let attributes := attributeMap e.attributes
  let members : List (String × Text.Json) :=
    [("time", Text.Json.string (timeText e.time)), ("kind", Text.Json.string e.kind.name)] ++
      optional "scope" e.scopeName
      ++ optionalNumber "span" e.span ++ optionalNumber "parent" e.parent ++ optionalNumber "track" e.track
      ++ [("name", Text.Json.string e.name)] ++ optional "detail" e.detail
      ++ if attributes.isEmpty then [] else [("attrs", Text.Json.object attributes)]
  (Text.Json.object members).compact ++ "\n"

/-- The event for trace viewers. The detail of an end is shown among the attributes. -/
def chromeText (e : Event) : String :=
  let phase := if e.kind = .opened then "B" else if e.kind = .closed then "E" else "i"
  let detail := if e.kind = .closed && e.detail ≠ "" then [("detail", e.detail)] else []
  let arguments := attributeMap (e.attributes ++ detail)
  let members : List (String × Text.Json) :=
    [("name", Text.Json.string e.name)] ++ optional "cat" e.scopeName
      ++ [("ph", Text.Json.string phase), ("ts", Text.Json.number e.time), ("pid", Text.Json.number 1),
        ("tid", Text.Json.number e.track)]
      ++ (if phase = "i" then [("s", Text.Json.string "g")] else [])
      ++ if arguments.isEmpty then [] else [("args", Text.Json.object arguments)]
  (Text.Json.object members).compact

def render (f : Format) (e : Event) : String :=
  match f with
  | .ndjson => e.ndjsonText
  | .chrome => e.chromeText
  | _ => e.lineText

end Event

/-! ### Streams -/

/-- A trace that is written as its events arrive. -/
structure Stream where
  level : Level
  format : Format
  written : Nat := 0
  isClosed : Bool := false
  output : String
  deriving Inhabited

namespace Stream

def start (level : Level) (format : Format) : Stream :=
  { level, format, output := if format = .chrome then "\x7b\"traceEvents\":[\n" else "" }

def emit (s : Stream) (e : Event) : Stream :=
  if !e.isKept s.level || s.isClosed then s
  else
    let separator := if s.format = .chrome && s.written > 0 then ",\n" else ""
    { s with output := s.output ++ separator ++ e.render s.format, written := s.written + 1 }

/-- Ends the trace; later events are dropped. -/
def close (s : Stream) : Stream :=
  if s.isClosed then s
  else { s with isClosed := true, output := s.output ++ if s.format = .chrome then "\n]\x7d\n" else "" }

/-- The stream for an output with the given path; none if nothing is to be traced. -/
def ofPath? (level : Level) (format : Format) (path : String) : Option Stream :=
  if level = .off then none else some (start level (if format = .auto then .ofPath path else format))

end Stream

end TypedScript.Trace
