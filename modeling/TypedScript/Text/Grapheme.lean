import TypedScript.Text.Category
import TypedScript.Text.Utf8

/-!
# Grapheme clusters

A grapheme cluster is what a reader takes for one character: a base with the marks on it, a syllable of Hangul
letters, a flag of two letters. Text is cut into clusters between any two characters unless a rule forbids it.

Bytes that do not encode a character belong to no class. A character that is cut off at the end of the text joins
the cluster before it.
-/

set_option maxRecDepth 8000

namespace TypedScript.Text

/-- What matters about a character for the rules. -/
inductive BreakClass where
  | carriageReturn
  | lineFeed
  | control
  | extend
  | joiner
  | regional
  | prepend
  | spacing
  | hangulL
  | hangulV
  | hangulT
  | hangulLV
  | hangulLVT
  | pictograph
  | other
  deriving DecidableEq, Inhabited, Repr

/-- Characters that extend a cluster and are no nonspacing marks. -/
def extendingBeyondMarks : Array (Nat × Nat) := #[
  (0x488, 0x489), (0x9BE, 0x9BE), (0x9D7, 0x9D7), (0xB3E, 0xB3E), (0xB57, 0xB57), (0xBBE, 0xBBE), (0xBD7, 0xBD7),
  (0xCC2, 0xCC2), (0xCD5, 0xCD6), (0xD3E, 0xD3E), (0xD57, 0xD57), (0xDCF, 0xDCF), (0xDDF, 0xDDF), (0x1ABE, 0x1ABE),
  (0x1B35, 0x1B35), (0x200C, 0x200C), (0x20DD, 0x20E0), (0x20E2, 0x20E4), (0x302E, 0x302F),
  (0xA670, 0xA672), (0xFF9E,
  0xFF9F), (0x1133E, 0x1133E), (0x11357, 0x11357), (0x114B0, 0x114B0), (0x114BD, 0x114BD), (0x115AF, 0x115AF),
  (0x11930, 0x11930), (0x1D165, 0x1D165), (0x1D16E, 0x1D172), (0x1F3FB, 0x1F3FF), (0xE0020, 0xE007F)]

/-- Spacing marks that do not join the character before them. -/
def standingMarks : Array (Nat × Nat) := #[
  (0x102B, 0x102C), (0x1038, 0x1038), (0x1062, 0x1064), (0x1067, 0x106D), (0x1083, 0x1083),
  (0x1087, 0x108C), (0x108F,
  0x108F), (0x109A, 0x109C), (0x1A61, 0x1A61), (0x1A63, 0x1A64), (0xAA7B, 0xAA7B), (0xAA7D, 0xAA7D), (0x11720,
  0x11721)]

/-- Signs that join the character after them. -/
def prependedSigns : Array (Nat × Nat) := #[
  (0x600, 0x605), (0x6DD, 0x6DD), (0x70F, 0x70F), (0x890, 0x891), (0x8E2, 0x8E2), (0xD4E, 0xD4E),
  (0x110BD, 0x110BD),
  (0x110CD, 0x110CD), (0x111C2, 0x111C3), (0x1193F, 0x1193F), (0x11941, 0x11941), (0x11A3A, 0x11A3A), (0x11A84,
  0x11A89), (0x11D46, 0x11D46), (0x11F02, 0x11F02)]

/-- Controls and characters without a shape, line ends apart. -/
def controlCharacters : Array (Nat × Nat) := #[
  (0x0, 0x9), (0xB, 0xC), (0xE, 0x1F), (0x7F, 0x9F), (0xAD, 0xAD), (0x61C, 0x61C), (0x180E, 0x180E),
  (0x200B, 0x200B),
  (0x200E, 0x200F), (0x2028, 0x202E), (0x2060, 0x206F), (0xFEFF, 0xFEFF), (0xFFF0, 0xFFFB), (0x13430, 0x1343F),
  (0x1BCA0, 0x1BCA3), (0x1D173, 0x1D17A), (0xE0000, 0xE001F), (0xE0080, 0xE00FF), (0xE01F0, 0xE0FFF)]

/-- Characters that emoji are made of. -/
def pictographs : Array (Nat × Nat) := #[
  (0xA9, 0xA9), (0xAE, 0xAE), (0x203C, 0x203C), (0x2049, 0x2049), (0x2122, 0x2122), (0x2139, 0x2139), (0x2194,
  0x2199), (0x21A9, 0x21AA), (0x231A, 0x231B), (0x2328, 0x2328), (0x2388, 0x2388), (0x23CF, 0x23CF),
    (0x23E9, 0x23F3),
  (0x23F8, 0x23FA), (0x24C2, 0x24C2), (0x25AA, 0x25AB), (0x25B6, 0x25B6), (0x25C0, 0x25C0),
  (0x25FB, 0x25FE), (0x2600,
  0x2605), (0x2607, 0x2612), (0x2614, 0x2685), (0x2690, 0x2705), (0x2708, 0x2712), (0x2714, 0x2714),
    (0x2716, 0x2716),
  (0x271D, 0x271D), (0x2721, 0x2721), (0x2728, 0x2728), (0x2733, 0x2734), (0x2744, 0x2744),
  (0x2747, 0x2747), (0x274C,
  0x274C), (0x274E, 0x274E), (0x2753, 0x2755), (0x2757, 0x2757), (0x2763, 0x2767), (0x2795, 0x2797),
    (0x27A1, 0x27A1),
  (0x27B0, 0x27B0), (0x27BF, 0x27BF), (0x2934, 0x2935), (0x2B05, 0x2B07), (0x2B1B, 0x2B1C),
  (0x2B50, 0x2B50), (0x2B55,
  0x2B55), (0x3030, 0x3030), (0x303D, 0x303D), (0x3297, 0x3297), (0x3299, 0x3299), (0x1F000, 0x1F0FF), (0x1F10D,
  0x1F10F), (0x1F12F, 0x1F12F), (0x1F16C, 0x1F171), (0x1F17E, 0x1F17F), (0x1F18E, 0x1F18E), (0x1F191, 0x1F19A),
  (0x1F1AD, 0x1F1E5), (0x1F201, 0x1F20F), (0x1F21A, 0x1F21A), (0x1F22F, 0x1F22F), (0x1F232, 0x1F23A), (0x1F23C,
  0x1F23F), (0x1F249, 0x1F3FA), (0x1F400, 0x1F53D), (0x1F546, 0x1F64F), (0x1F680, 0x1F6FF), (0x1F774, 0x1F77F),
  (0x1F7D5, 0x1F7FF), (0x1F80C, 0x1F80F), (0x1F848, 0x1F84F), (0x1F85A, 0x1F85F), (0x1F888, 0x1F88F), (0x1F8AE,
  0x1F8FF), (0x1F90C, 0x1F93A), (0x1F93C, 0x1F945), (0x1F947, 0x1FAFF), (0x1FC00, 0x1FFFD)]

namespace BreakClass

/-- Whether the number lies between two others, both included. -/
private def within (n lo hi : Nat) : Bool := lo ≤ n && n ≤ hi

/-- The class of a character beyond ASCII. -/
def ofWide (c : Char) : BreakClass :=
  let n := c.toNat
  if within n 0xAC00 0xD7A3 then if (n - 0xAC00) % 28 = 0 then hangulLV else hangulLVT
  else if within n 0x1100 0x115F || within n 0xA960 0xA97C then hangulL
  else if within n 0x1160 0x11A7 || within n 0xD7B0 0xD7C6 then hangulV
  else if within n 0x11A8 0x11FF || within n 0xD7CB 0xD7FB then hangulT
  else if n = 0x200D then joiner
  else if within n 0x1F1E6 0x1F1FF then regional
  else if inRanges nonspacingMarks c || inRanges extendingBeyondMarks c then extend
  else if inRanges controlCharacters c then control
  else if inRanges pictographs c then pictograph
  else if inRanges prependedSigns c then prepend
  else if n = 0xE33 || n = 0xEB3 || (inRanges spacingMarks c && !inRanges standingMarks c) then spacing
  else other

/-- The class of a character. -/
def ofChar (c : Char) : BreakClass :=
  let n := c.toNat
  if n = 13 then carriageReturn
  else if n = 10 then lineFeed
  else if n < 0x20 || n = 0x7F then control
  else if n < 0x7F then other
  else ofWide c

def isControl : BreakClass → Bool
  | carriageReturn | lineFeed | control => true
  | _ => false

end BreakClass

open BreakClass

/-- What has been seen of a cluster so far. -/
structure ClusterState where
  last : BreakClass
  /-- The last class that is neither of an extending character nor of a joiner. -/
  base : BreakClass
  /-- How many pairs of neighbours were both letters of flags. -/
  flags : Nat := 0

/-- Whether a character of the given class belongs to the cluster. -/
def ClusterState.admits (s : ClusterState) (c : BreakClass) : Bool :=
  if s.last = carriageReturn && c = lineFeed then true
  else if s.last.isControl || c.isControl then false
  else
    match s.last, c with
    | hangulL, hangulL | hangulL, hangulV | hangulL, hangulLV | hangulL, hangulLVT => true
    | hangulLV, hangulV | hangulV, hangulV | hangulLV, hangulT | hangulV, hangulT => true
    | hangulLVT, hangulT | hangulT, hangulT => true
    | _, extend | _, joiner | _, spacing | prepend, _ => true
    | joiner, pictograph => s.base = pictograph
    | regional, regional => s.flags % 2 = 0
    | _, _ => false

/-- The cluster with one more character. -/
def ClusterState.push (s : ClusterState) (c : BreakClass) : ClusterState :=
  { last := c, base := if c = extend || c = joiner then s.base else c,
    flags := if s.last = regional && c = regional then s.flags + 1 else s.flags }

/-- The length in bytes of a character that starts with the given byte; one if none does. -/
def sequenceLength (b : UInt8) : Nat :=
  if b < 0xC2 then 1 else if b < 0xE0 then 2 else if b < 0xF0 then 3 else if b < 0xF8 then 4 else 1

/-- The class of the character that the bytes start with, and its length. The length is zero if the bytes end
inside the character. -/
def classOfHead (bytes : List UInt8) : BreakClass × Nat :=
  match bytes with
  | [] => (other, 0)
  | b :: rest =>
    let size := sequenceLength b
    if bytes.length < size then (other, 0)
    else
      match decodeHead bytes with
      | some (c, k) => (BreakClass.ofChar c, k)
      | none => (other, 1 + ((rest.take (size - 1)).takeWhile fun b => (continuation? b).isSome).length)

/-- The length of the rest of a cluster. -/
def clusterRest : Nat → ClusterState → List UInt8 → Nat
  | 0, _, _ => 0
  | fuel + 1, s, bytes =>
    if bytes.isEmpty then 0
    else
      match classOfHead bytes with
      | (_, 0) => bytes.length
      | (c, k) => if s.admits c then k + clusterRest fuel (s.push c) (bytes.drop k) else 0

/-- The length of the cluster that the bytes start with. -/
def clusterLength (bytes : List UInt8) : Nat :=
  match classOfHead bytes with
  | (_, 0) => bytes.length
  | (c, k) =>
    k + clusterRest bytes.length { last := c, base := if c = extend || c = joiner then other else c } (bytes.drop k)

/-- The clusters of a text. -/
def clusters (bytes : List UInt8) : List (List UInt8) :=
  match bytes with
  | [] => []
  | b :: rest =>
    -- a cluster is never empty
    let k := clusterLength (b :: rest) - 1
    (b :: rest.take k) :: clusters (rest.drop k)
  termination_by bytes.length
  decreasing_by simp only [List.length_cons, List.length_drop]; omega

/-- Cutting a text into clusters loses nothing. -/
theorem flatten_clusters (bytes : List UInt8) : (clusters bytes).flatten = bytes := by
  fun_induction clusters bytes with
  | case1 => rfl
  | case2 b rest k ih => simp [ih, List.take_append_drop]

end TypedScript.Text
