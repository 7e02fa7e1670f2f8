/-!
# SHA-256

Message digests of byte strings, and their lower-case hexadecimal text.
-/

namespace TypedScript.Digest

/-- The round constants. -/
def roundConstants : Array UInt32 := #[
  0x428a2f98, 0x71374491, 0xb5c0fbcf, 0xe9b5dba5, 0x3956c25b, 0x59f111f1, 0x923f82a4, 0xab1c5ed5,
  0xd807aa98, 0x12835b01, 0x243185be, 0x550c7dc3, 0x72be5d74, 0x80deb1fe, 0x9bdc06a7, 0xc19bf174,
  0xe49b69c1, 0xefbe4786, 0x0fc19dc6, 0x240ca1cc, 0x2de92c6f, 0x4a7484aa, 0x5cb0a9dc, 0x76f988da,
  0x983e5152, 0xa831c66d, 0xb00327c8, 0xbf597fc7, 0xc6e00bf3, 0xd5a79147, 0x06ca6351, 0x14292967,
  0x27b70a85, 0x2e1b2138, 0x4d2c6dfc, 0x53380d13, 0x650a7354, 0x766a0abb, 0x81c2c92e, 0x92722c85,
  0xa2bfe8a1, 0xa81a664b, 0xc24b8b70, 0xc76c51a3, 0xd192e819, 0xd6990624, 0xf40e3585, 0x106aa070,
  0x19a4c116, 0x1e376c08, 0x2748774c, 0x34b0bcb5, 0x391c0cb3, 0x4ed8aa4a, 0x5b9cca4f, 0x682e6ff3,
  0x748f82ee, 0x78a5636f, 0x84c87814, 0x8cc70208, 0x90befffa, 0xa4506ceb, 0xbef9a3f7, 0xc67178f2]

/-- The eight words that a digest is built up in. -/
structure Chaining where
  a : UInt32
  b : UInt32
  c : UInt32
  d : UInt32
  e : UInt32
  f : UInt32
  g : UInt32
  h : UInt32

/-- The words a digest starts from. -/
def Chaining.start : Chaining :=
  ⟨0x6a09e667, 0xbb67ae85, 0x3c6ef372, 0xa54ff53a, 0x510e527f, 0x9b05688c, 0x1f83d9ab, 0x5be0cd19⟩

def rotateRight (x : UInt32) (n : UInt32) : UInt32 :=
  (x >>> n) ||| (x <<< (32 - n))

/-- One round, with schedule word plus round constant `kw`. -/
def Chaining.round (s : Chaining) (kw : UInt32) : Chaining :=
  let big₁ := rotateRight s.e 6 ^^^ rotateRight s.e 11 ^^^ rotateRight s.e 25
  let choice := (s.e &&& s.f) ^^^ (~~~ s.e &&& s.g)
  let t₁ := s.h + big₁ + choice + kw
  let big₀ := rotateRight s.a 2 ^^^ rotateRight s.a 13 ^^^ rotateRight s.a 22
  let majority := (s.a &&& s.b) ^^^ (s.a &&& s.c) ^^^ (s.b &&& s.c)
  ⟨t₁ + (big₀ + majority), s.a, s.b, s.c, s.d + t₁, s.e, s.f, s.g⟩

def Chaining.add (s t : Chaining) : Chaining :=
  ⟨s.a + t.a, s.b + t.b, s.c + t.c, s.d + t.d, s.e + t.e, s.f + t.f, s.g + t.g, s.h + t.h⟩

def Chaining.words (s : Chaining) : List UInt32 := [s.a, s.b, s.c, s.d, s.e, s.f, s.g, s.h]

/-- Extends the sixteen words of a block by `n` words. -/
def extendSchedule : Nat → Array UInt32 → Array UInt32
  | 0, w => w
  | n + 1, w =>
    let i := w.size
    let x := w.getD (i - 15) 0
    let y := w.getD (i - 2) 0
    let small₀ := rotateRight x 7 ^^^ rotateRight x 18 ^^^ (x >>> 3)
    let small₁ := rotateRight y 17 ^^^ rotateRight y 19 ^^^ (y >>> 10)
    extendSchedule n (w.push (w.getD (i - 16) 0 + small₀ + w.getD (i - 7) 0 + small₁))

/-- The word with the given bytes, most significant first. -/
def wordOfBytes (bytes : List UInt8) : UInt32 :=
  bytes.foldl (fun acc b => acc <<< 8 ||| b.toUInt32) 0

/-- Cuts a list into pieces of `n` elements; the last may be shorter. -/
def chunks {α : Type} (n : Nat) (xs : List α) : List (List α) :=
  match xs with
  | [] => []
  | x :: rest => (x :: rest.take (n - 1)) :: chunks n (rest.drop (n - 1))
  termination_by xs.length
  decreasing_by all_goals simp only [List.length_cons, List.length_drop]; omega

/-- Digests one block of 64 bytes. -/
def Chaining.block (s : Chaining) (bytes : List UInt8) : Chaining :=
  let schedule := extendSchedule 48 ((chunks 4 bytes).map wordOfBytes).toArray
  s.add ((schedule.zip roundConstants).foldl (fun t p => t.round (p.1 + p.2)) s)

/-- The `n` low bytes of a number, most significant first. -/
def bigEndian : Nat → Nat → List UInt8
  | 0, _ => []
  | n + 1, x => bigEndian n (x / 256) ++ [UInt8.ofNat (x % 256)]

/-- The message followed by its terminator and its length in bits, a whole number of blocks. -/
def padded (message : List UInt8) : List UInt8 :=
  let n := message.length
  message ++ 0x80 :: List.replicate ((119 - n % 64) % 64) 0 ++ bigEndian 8 (n * 8)

/-- The 32 bytes of the digest. -/
def sha256 (message : List UInt8) : List UInt8 :=
  ((chunks 64 (padded message)).foldl Chaining.block .start).words.flatMap fun w => bigEndian 4 w.toNat

/-- The digest of digests put one after another. -/
def combine (first : List UInt8) (more : List (List UInt8)) : List UInt8 := sha256 (first ++ more.flatten)

def hexDigit (n : Nat) : Char :=
  if n < 10 then Char.ofNat (48 + n) else Char.ofNat (87 + n)

/-- Two lower-case hexadecimal digits per byte. -/
def hex (bytes : List UInt8) : String :=
  String.ofList (bytes.flatMap fun b => [hexDigit (b.toNat / 16), hexDigit (b.toNat % 16)])

end TypedScript.Digest
