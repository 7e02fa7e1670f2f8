import TypedScript.Text.Blank
import TypedScript.Text.Quoted

/-!
# Trace events

A trace tells when spans of work begin and end, and of single points in time. Spans belong to a scope, the finer
the higher its rank, and a level says down to which rank events are kept.

A recorder keeps events in memory and hands out the identities of spans. A span that is not kept passes the
identity of its parent on to the spans below it.
-/

namespace TypedScript.Trace

/-- What an event tells, by number. -/
structure Kind where
  number : Nat
  deriving DecidableEq, Inhabited, Repr

namespace Kind

def opened : Kind := ⟨1⟩
def closed : Kind := ⟨2⟩
def point : Kind := ⟨3⟩

def name (k : Kind) : String :=
  match k.number with
  | 1 => "begin"
  | 2 => "end"
  | 3 => "point"
  | _ => "unknown"

end Kind

/-- The granularity of a span; rank zero is none. -/
structure Scope where
  rank : Nat
  deriving DecidableEq, Inhabited, Repr

namespace Scope

def none : Scope := ⟨0⟩
def unit : Scope := ⟨1⟩
def phase : Scope := ⟨2⟩
def func : Scope := ⟨3⟩

def name (s : Scope) : String :=
  match s.rank with
  | 1 => "unit"
  | 2 => "phase"
  | 3 => "func"
  | _ => "unknown"

end Scope

/-- The finest scope that is kept; rank zero keeps no spans. -/
structure Level where
  rank : Nat
  deriving DecidableEq, Inhabited, Repr

namespace Level

def off : Level := ⟨0⟩

def name (l : Level) : String :=
  match l.rank with
  | 0 => "off"
  | 1 => "unit"
  | 2 => "phase"
  | 3 => "func"
  | _ => "unknown"

/-- Whether spans of a scope are kept. -/
def includes (l : Level) (s : Scope) : Bool := l.rank ≠ 0 && s.rank ≤ l.rank

/-- The level that a word names. -/
def parse (s : String) : Except String Level :=
  match Text.word s with
  | "" | "off" => .ok ⟨0⟩
  | "unit" => .ok ⟨1⟩
  | "phase" => .ok ⟨2⟩
  | "func" => .ok ⟨3⟩
  | _ => .error ("invalid trace level " ++ Text.quote s ++ " (expected off|unit|phase|func)")

end Level

structure Event where
  /-- Microseconds since the start of 1970. -/
  time : Int := 0
  kind : Kind := ⟨0⟩
  scope : Scope := .none
  span : Nat := 0
  parent : Nat := 0
  /-- The spans of one unit of work have one track. -/
  track : Nat := 0
  name : String := ""
  detail : String := ""
  attributes : List (String × String) := []
  deriving DecidableEq, Inhabited, Repr

/-- The first value of an attribute; empty if it is missing. -/
def Event.attribute (e : Event) (key : String) : String := (e.attributes.lookup key).getD ""

/-- Whether an event is kept at a level. Points always are. -/
def Event.isKept (e : Event) (l : Level) : Bool := e.kind = .point || l.includes e.scope

/-! ### Recorded traces -/

/-- The identity that spans below a span refer to. -/
structure Identity where
  id : Nat := 0
  track : Nat := 0
  deriving DecidableEq, Inhabited, Repr

structure Span where
  /-- Whether the span is kept and not closed yet. -/
  isOpen : Bool
  identity : Identity
  parent : Nat := 0
  scope : Scope := .none
  name : String := ""
  attributes : List (String × String) := []
  deriving Inhabited, Repr

/-- Adds an attribute, which the end of the span tells. -/
def Span.note (s : Span) (key value : String) : Span :=
  if s.isOpen then { s with attributes := s.attributes ++ [(key, value)] } else s

structure Recorder where
  level : Level := ⟨3⟩
  events : List Event := []
  /-- The last identity that was handed out. -/
  last : Nat := 0
  deriving Inhabited

namespace Recorder

def emit (r : Recorder) (e : Event) : Recorder :=
  if e.isKept r.level then { r with events := r.events ++ [e] } else r

/-- Opens a span. Without a parent it starts a new track. -/
def openSpan (r : Recorder) (scope : Scope) (name : String) (parent : Identity) : Recorder × Span :=
  if r.level.includes scope then
    let id := r.last + 1
    let track := if parent.track = 0 then id else parent.track
    let e : Event := { kind := .opened, scope, span := id, parent := parent.id, track, name }
    ({ r with last := id }.emit e, { isOpen := true, identity := ⟨id, track⟩, parent := parent.id, scope, name })
  else (r, { isOpen := false, identity := parent })

/-- Closes a span; closing it again does nothing. -/
def closeSpan (r : Recorder) (s : Span) (detail : String) : Recorder × Span :=
  if s.isOpen then
    let e : Event :=
      { kind := .closed, scope := s.scope, span := s.identity.id, parent := s.parent, track := s.identity.track,
        name := s.name, detail, attributes := s.attributes }
    (r.emit e, { s with isOpen := false })
  else (r, s)

/-- The ends of the spans of a scope, in the order in which they were closed. -/
def ends (r : Recorder) (scope : Scope) : List Event :=
  r.events.filter fun e => e.kind = .closed && e.scope = scope

end Recorder

end TypedScript.Trace
