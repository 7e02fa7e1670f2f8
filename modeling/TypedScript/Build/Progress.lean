import TypedScript.Build.Stage
import TypedScript.Text.Width

/-!
# Progress of a build

While a build is going on, a board shows every unit with one mark for each stage, and a bar below them. Events
move a unit forward until it is done, was found in the cache, or has failed.
-/

namespace TypedScript.Build

/-- A unit on the board. -/
structure Row where
  path : String
  /-- The latest stage that was begun; none while the unit waits. -/
  reached : Option Nat := none
  status : Status := .queued
  error : Option String := none
  deriving Inhabited, Repr

namespace Row

def isFinished (r : Row) : Bool := r.status.isFinal

/-- The mark of a stage: `=` for passed, `>` for running, `x` for failed, and `.` for not reached. -/
def mark (r : Row) (stage : Nat) : Char :=
  if r.status = .cached || r.status = .done then '='
  else if r.status = .error && r.reached = some stage then 'x'
  else if r.reached.any (stage < ·) then '='
  else if r.reached = some stage && r.status = .working then '>'
  else '.'

/-- The marks of all stages. -/
def ladder (r : Row) : String := String.ofList ((List.range stages.length).map r.mark)

/-- The row after an event of its unit. Nothing happens to a unit that is finished. -/
def update (r : Row) (e : Event) : Row :=
  if r.isFinished then r
  else
    let reached := match stages.findIdx? (· = e.stage) with
      | some i => if e.status = .queued then r.reached else some (max (r.reached.getD 0) i)
      | none => r.reached
    { r with reached, status := e.status, error := e.error }

theorem update_of_isFinished {r : Row} (h : r.isFinished) (e : Event) : r.update e = r := by simp [update, h]

end Row

structure Board where
  title : String
  rows : List Row
  /-- The width of the terminal in cells. -/
  width : Nat := 80
  barWidth : Nat := 40
  /-- Whether the build is over. -/
  isClosed : Bool := false
  /-- The number of units that are finished. -/
  settled : Nat := 0
  /-- The number of units that have failed. -/
  failed : Nat := 0
  deriving Inhabited, Repr

namespace Board

def ofFiles (title : String) (files : List String) : Board := { title, rows := files.map fun path => { path } }

/-- The place of the row of a file; the last one if there are several. -/
def place? (b : Board) (file : String) : Option Nat :=
  (b.rows.reverse.findIdx? (·.path = file)).map fun i => b.rows.length - 1 - i

/-- Puts the row of a unit that was not finished, and counts the unit if it is finished now. -/
def putRow (b : Board) (i : Nat) (r : Row) : Board :=
  { b with
    rows := b.rows.set i r
    settled := if r.isFinished then b.settled + 1 else b.settled
    failed := if r.status = .error then b.failed + 1 else b.failed }

/-- The board after an event. Events of unknown files change nothing, nor do events of units that are finished. -/
def update (b : Board) (e : Event) : Board :=
  match b.place? e.file with
  | none => b
  | some i =>
    match b.rows[i]? with
    | none => b
    | some r => if r.isFinished then b else b.putRow i (r.update e)

/-- Fits the board to the width of the terminal. -/
def resize (b : Board) (width : Int) : Board :=
  if width > 0 then { b with width := width.toNat, barWidth := max (width.toNat - 4) 10 } else b

def close (b : Board) : Board := { b with isClosed := true }

/-- Lines made equally wide; tabs take four cells. -/
def evenLines (s : String) : String :=
  let plain := (s.replace "\t" "    ").replace "\r\n" "\n"
  match plain.splitOn "\n" with
  | [_] => plain
  | lines =>
    let cells (l : String) : Nat := Text.width (Text.encode l)
    let widest := (lines.map cells).foldl max 0
    "\n".intercalate (lines.map fun l => l ++ String.ofList (List.replicate (widest - cells l) ' '))

/-- The line of the title, with the number of units that are finished and that failed. -/
def head (b : Board) : String :=
  let failures := if b.failed = 0 then "" else s!" ({b.failed} failed)"
  evenLines ((if b.isClosed then "" else "⠋ ") ++ s!"{b.title} {b.settled}/{b.rows.length}" ++ failures)

/-- The width that is left for the name of a unit. -/
def nameWidth (b : Board) : Nat := max (b.width - stages.length - 6) 20

def rowText (b : Board) (r : Row) : String :=
  let shown := Text.truncate b.nameWidth "..."
  let error := r.error.elim "" fun e => evenLines ("  " ++ shown e)
  "  " ++ r.ladder ++ "  " ++ shown r.path ++ error ++ "\n"

/-- The bar is empty until the build is over. -/
def bar (b : Board) : String := String.ofList (List.replicate b.barWidth (if b.isClosed then '█' else '░'))

/-- The board as it is shown; nothing if there are no units. -/
def view (b : Board) : String :=
  if b.rows.isEmpty then ""
  else b.head ++ "\n\n" ++ String.join (b.rows.map b.rowText) ++ "\n" ++ b.bar ++ "\n"

end Board

end TypedScript.Build
