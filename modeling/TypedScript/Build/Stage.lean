/-!
# Stages of a build

Every unit of a build goes through the stages in order. A timing sums the time that a stage took over all units, in
nanoseconds.
-/

namespace TypedScript.Build

/-- The stages that a unit goes through, in order. -/
def stages : List String := ["parse", "resolve", "check", "capture", "lower", "emit", "write"]

/-- How a unit stands in a stage. -/
inductive Status where
  | queued
  | working
  | done
  | cached
  | error
  /-- A word without a meaning of its own. -/
  | other (word : String)
  deriving DecidableEq, Inhabited, Repr

namespace Status

def name : Status → String
  | queued => "queued"
  | working => "working"
  | done => "done"
  | cached => "cached"
  | error => "error"
  | other word => word

def ofName (word : String) : Status :=
  ([queued, working, done, cached, error].find? fun s => s.name = word).getD (other word)

/-- Whether nothing more will happen to the unit. -/
def isFinal : Status → Bool
  | done | cached | error => true
  | _ => false

end Status

/-- Tells how a unit stands; without a file, how the build as a whole does. -/
structure Event where
  file : String
  stage : String
  status : Status
  error : Option String := none
  deriving DecidableEq, Inhabited, Repr

/-- The time that stages took. -/
structure Timings where
  entries : List (String × Int64) := []
  deriving Inhabited

namespace Timings

/-- Whether a stage was timed. -/
def has (t : Timings) (stage : String) : Bool := t.entries.any (·.1 = stage)

/-- The time of a stage; zero if it was not timed. -/
def duration (t : Timings) (stage : String) : Int64 := (t.entries.lookup stage).getD 0

/-- Adds to the time of a stage. -/
def add (t : Timings) (stage : String) (nanos : Int64) : Timings :=
  if t.has stage then ⟨t.entries.map fun e => if e.1 = stage then (stage, e.2 + nanos) else e⟩
  else ⟨t.entries ++ [(stage, nanos)]⟩

/-- Adds the times of all stages. -/
def merge (t other : Timings) : Timings := other.entries.foldl (fun t e => t.add e.1 e.2) t

/-- The time of several stages. -/
def sum (t : Timings) (which : List String) : Int64 := which.foldl (fun total s => total + t.duration s) 0

theorem has_add_self (t : Timings) (stage : String) (nanos : Int64) : (t.add stage nanos).has stage := by
  unfold add
  split
  · rename_i h
    simp only [has, List.any_eq_true, List.mem_map, decide_eq_true_eq] at h ⊢
    obtain ⟨e, he, hs⟩ := h
    exact ⟨(stage, e.2 + nanos), ⟨e, he, by simp [hs]⟩, rfl⟩
  · simp [has]

end Timings

end TypedScript.Build
