import TypedScript.Diagnostic.Basic
import TypedScript.Source.File
import TypedScript.Text.Blank
import TypedScript.Text.Json
import TypedScript.Text.Width

/-!
# How diagnostics are shown

To people a diagnostic is shown as a line with its place, severity, code and message, followed by the source line
with the span underlined. Columns are measured in terminal cells, so that the marks stand below the text whatever
characters precede it. Source lines are shown byte for byte.

For tools the diagnostics are an indented JSON document, with the offsets of every place and, if asked for, its
lines and columns.
-/

/-! ## Diagnostics for people -/

namespace TypedScript.Diagnostic

open TypedScript.Source TypedScript.Text

/-- How paths of files are shown. -/
inductive PathMode where
  /-- Relative to the base directory for files below it. -/
  | auto
  | absolute
  | relative
  | basename
  /-- As the path was given. -/
  | stored
  deriving DecidableEq, Inhabited, Repr

/-- The mode with the given number. -/
def PathMode.ofNumber (n : Nat) : PathMode := [auto, absolute, relative, basename].getD n stored

structure PathStyle where
  mode : PathMode := .auto
  /-- The directory that paths are relative to; the path is left as it is without one. -/
  base : String := ""
  workDir : String := "/"

/-- The path of a file as it is shown. Files given from memory have no place on the disk and keep their name. -/
def PathStyle.show (s : PathStyle) (f : File) : String :=
  if f.flags &&& Flags.inMemory ≠ 0 then f.path
  else
    let near (accept : String → Bool) : String :=
      if s.base = "" then f.path
      else
        match Path.relative s.base f.path with
        | .ok r => if accept r then r else f.path
        | .error _ => f.path
    match s.mode with
    | .absolute => Path.absolute s.workDir f.path
    | .basename => Path.base f.path
    | .relative => near fun _ => true
    | .auto => near fun r => !r.startsWith ".."
    | .stored => f.path

structure RenderOptions where
  color : Bool := false
  /-- How many lines are shown before and after the line of the span. -/
  context : Nat := 0
  paths : PathStyle := {}
  showNotes : Bool := true

namespace RenderOptions

def severityStyle (s : Severity) : List Attribute :=
  match s.rank with
  | 0 => [.cyan, .bold]
  | 1 => [.yellow, .bold]
  | _ => [.red, .bold]

/-- The place of a span: path, line and column. -/
def placeText (o : RenderOptions) (f : File) (span : Span) : String :=
  let p := f.position span.start
  s!"{o.paths.show f}:{p.line}:{p.column}"

/-- The marks below a line, from one column up to another or to the end of the line. -/
def marks (line : List UInt8) (start : Nat) (stop : Option Nat) : Nat × String :=
  let first := min (start - 1) line.length
  let last := match stop with
    | some c => min (c - 1) line.length
    | none => line.length
  let cells := max (width ((line.take last).drop first)) 1
  (width (line.take first), "^" ++ String.ofList (List.replicate (cells - 1) '~'))

/-- The numbers of the lines that are shown around a line. The first empty line after it is the last. -/
def shownLines (o : RenderOptions) (f : File) (line : Nat) : List Nat :=
  let before := min o.context (line - 1)
  let earlier := (List.range before).map (line - before + ·)
  let later := (List.range o.context).map (line + 1 + ·)
  earlier ++ line :: later.takeWhile fun n => !(f.line n).isEmpty

/-- The source line of a span with the marks below it, among its neighbours. -/
def excerpt (o : RenderOptions) (f : File) (span : Span) : List UInt8 :=
  let start := f.position span.start
  let stop := f.position span.stop
  let margin := (toString (start.line + o.context)).length
  let gutter (s : String) : String := paint o.color [.blue] (s ++ " |") ++ " "
  (o.shownLines f start.line).flatMap fun n =>
    let text := f.line n
    let shown := encode (gutter (padLeft margin (toString n))) ++ text ++ encode "\n"
    if n ≠ start.line then shown
    else
      let (indent, underline) := marks text start.column (if stop.line = start.line then some stop.column else none)
      shown ++ encode (gutter (padLeft margin "") ++ padLeft indent "" ++
        paint o.color [.red, .bold] underline ++ "\n")

/-- A note below a diagnostic. -/
def note (o : RenderOptions) (files : FileSet) (m : Note) : Option (List UInt8) := do
  let f ← files.get? m.span.file
  let label := paint o.color [.cyan] "note:"
  return encode s!"  {label} {o.placeText f m.span}: {m.message}\n" ++ o.excerpt f m.span

/-- One diagnostic; none if it tells of a file that is not there. -/
def diagnostic (o : RenderOptions) (files : FileSet) (d : Diagnostic) : Option (List UInt8) := do
  let f ← files.get? d.span.file
  let place := paint o.color [.bold] (o.placeText f d.span)
  let severity := paint o.color (severityStyle d.severity) d.severity.name
  let notes ← if o.showNotes then d.notes.mapM (o.note files) else some []
  return encode s!"{place}: {severity} {d.code.id}: {d.message}\n" ++ o.excerpt f d.span ++ notes.flatten

/-- The diagnostics of a bag, in its order. -/
def render (o : RenderOptions) (files : FileSet) (b : Bag) : Option (List UInt8) :=
  (b.items.mapM (o.diagnostic files)).map List.flatten

end RenderOptions

end TypedScript.Diagnostic

/-! ## Diagnostics for tools -/

namespace TypedScript.Diagnostic

open TypedScript.Source TypedScript.Text

structure JsonOptions where
  positions : Bool := true
  paths : PathStyle := {}
  /-- The number of diagnostics that are written; all if it is not positive. -/
  most : Int := 0
  showNotes : Bool := true

namespace JsonOptions

/-- A place; none if its file is not there. -/
def place (o : JsonOptions) (files : FileSet) (span : Span) : Option Json := do
  let f ← files.get? span.file
  let (start, stop) := files.resolve span
  let numbers := [("start_line", start.line), ("start_col", start.column), ("end_line", stop.line),
    ("end_col", stop.column)]
  let positions := if o.positions then numbers.filter (·.2 ≠ 0) else []
  return .object ([("file", .string (o.paths.show f)), ("start_byte", .number span.start),
    ("end_byte", .number span.stop)]
    ++ positions.map fun (k, n) => (k, .number n))

def note (o : JsonOptions) (files : FileSet) (m : Note) : Option Json := do
  return .object [("message", .string m.message), ("location", ← o.place files m.span)]

def diagnostic (o : JsonOptions) (files : FileSet) (d : Diagnostic) : Option Json := do
  let location ← o.place files d.span
  let notes ← if o.showNotes then d.notes.mapM (o.note files) else some []
  return .object ([("severity", .string d.severity.name), ("code", .string d.code.id),
    ("message", .string d.message),
    ("location", location)] ++ if notes.isEmpty then [] else [("notes", .array notes)])

/-- The diagnostics of a bag, in its order. -/
def render (o : JsonOptions) (files : FileSet) (b : Bag) : Option String := do
  let shown := if o.most > 0 then b.items.take o.most.toNat else b.items
  let items ← shown.mapM (o.diagnostic files)
  return (Json.object [("diagnostics", .array items), ("count", .number items.length)]).indented "" ++ "\n"

end JsonOptions

end TypedScript.Diagnostic
