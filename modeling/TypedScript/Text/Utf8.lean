/-!
# UTF-8

Source files are byte strings that need not be well formed, so decoding is done one character at a time:
`decodeHead` reads the character at the front, and refuses overlong forms, surrogates and values beyond U+10FFFF.

* `decodeHead_pos`: a decoded character takes at least one byte, so every loop over characters ends.
-/

namespace TypedScript.Text

/-- Stands for one byte that is not part of any character. -/
def replacementChar : Char := '\uFFFD'

/-- The low six bits of a continuation byte. -/
def continuation? (b : UInt8) : Option Nat :=
  if b.toNat / 64 = 2 then some (b.toNat % 64) else none

/-- The scalar value `n`, if it is one and needs at least the form that starts at `least`. -/
private def scalar? (least n : Nat) : Option Char :=
  if h : n.isValidChar then
    if least ≤ n then some (Char.ofNatAux n h) else none
  else none

/-- The character at the head of a byte string, with the number of bytes it takes. -/
def decodeHead (bytes : List UInt8) : Option (Char × Nat) :=
  match bytes with
  | [] => none
  | b :: rest =>
    let lead := b.toNat
    if lead < 0x80 then some (Char.ofNat lead, 1)
    else if lead < 0xC0 then none
    else if lead < 0xE0 then
      match rest with
      | b₁ :: _ => do
        let x ← continuation? b₁
        let c ← scalar? 0x80 (lead % 32 * 64 + x)
        return (c, 2)
      | _ => none
    else if lead < 0xF0 then
      match rest with
      | b₁ :: b₂ :: _ => do
        let x ← continuation? b₁
        let y ← continuation? b₂
        let c ← scalar? 0x800 (lead % 16 * 4096 + x * 64 + y)
        return (c, 3)
      | _ => none
    else if lead < 0xF8 then
      match rest with
      | b₁ :: b₂ :: b₃ :: _ => do
        let x ← continuation? b₁
        let y ← continuation? b₂
        let z ← continuation? b₃
        let c ← scalar? 0x10000 (lead % 8 * 262144 + x * 4096 + y * 64 + z)
        return (c, 4)
      | _ => none
    else none

/-- The characters of a byte string, each undecodable byte being read as `replacementChar`. -/
def decodeLossy (bytes : List UInt8) : List Char :=
  match bytes with
  | [] => []
  | b :: rest =>
    match decodeHead (b :: rest) with
    | some (c, k) => c :: decodeLossy (rest.drop (k - 1))
    | none => replacementChar :: decodeLossy rest
  termination_by bytes.length
  decreasing_by all_goals simp only [List.length_cons, List.length_drop]; omega

/-- The characters of a byte string, if all of it is well formed. -/
def decode? (bytes : List UInt8) : Option (List Char) :=
  match bytes with
  | [] => some []
  | b :: rest =>
    match decodeHead (b :: rest) with
    | some (c, k) => (decode? (rest.drop (k - 1))).map (c :: ·)
    | none => none
  termination_by bytes.length
  decreasing_by all_goals simp only [List.length_cons, List.length_drop]; omega

/-- The bytes of one character. -/
def encodeChar (c : Char) : List UInt8 :=
  c.toString.toUTF8.data.toList

/-- The bytes of a text. -/
def encode (s : String) : List UInt8 :=
  s.toUTF8.data.toList

/-- The text that a byte string spells, each undecodable byte being read as `replacementChar`. -/
def ofBytesLossy (bytes : List UInt8) : String :=
  String.ofList (decodeLossy bytes)

theorem decodeHead_pos {bytes : List UInt8} {c : Char} {k : Nat} (h : decodeHead bytes = some (c, k)) : 0 < k := by
  unfold decodeHead at h
  split at h
  · simp at h
  · dsimp only at h
    repeat' split at h
    all_goals
      simp only [Option.bind_eq_bind, Option.bind_eq_some_iff, Option.pure_def, Option.some.injEq, Prod.mk.injEq,
        reduceCtorEq] at h
    all_goals grind

end TypedScript.Text
