/-!
# Spans

A span is a range of byte offsets in one file of a file set.
-/

namespace TypedScript.Source

/-- Offsets are counted in 32-bit words. -/
def offsetLimit : Nat := 4294967296

/-- What there may be more of than a word of 32 bits can count. -/
inductive Overflow where
  | content
  | nodes
  | types
  deriving DecidableEq, Repr

def Overflow.message : Overflow → String
  | content => "len file content overflow: out of range"
  | nodes => "arena overflow: out of range"
  | types => "len(types) overflow: out of range"

/-- The bytes of `file` from offset `start` up to, not including, offset `stop`. -/
structure Span where
  file : Nat := 0
  start : Nat := 0
  stop : Nat := 0
  deriving DecidableEq, Inhabited, Repr

namespace Span

/-- The empty range at one offset. -/
def point (file off : Nat) : Span := ⟨file, off, off⟩

def isEmpty (s : Span) : Bool := s.start == s.stop

/-- The number of bytes, as a word: an inverted range wraps around. -/
def length (s : Span) : Nat := (s.stop + offsetLimit - s.start) % offsetLimit

/-- The least range that contains both; a range of another file is ignored. -/
def cover (s other : Span) : Span :=
  if s.file = other.file then ⟨s.file, min s.start other.start, max s.stop other.stop⟩ else s

def render (s : Span) : String := s!"{s.file}:{s.start}-{s.stop}"

theorem start_cover_le (s t : Span) : (s.cover t).start ≤ s.start := by
  unfold cover
  split
  · exact Nat.min_le_left _ _
  · exact Nat.le_refl _

theorem stop_le_cover (s t : Span) : s.stop ≤ (s.cover t).stop := by
  unfold cover
  split
  · exact Nat.le_max_left _ _
  · exact Nat.le_refl _

end Span

end TypedScript.Source
