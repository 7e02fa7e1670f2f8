import Mathlib.Data.List.Basic
import TypedScript.Text.Utf8

/-!
# Texts that can be read back

A number is told by its digits, and no separator is a digit. So a text that is put together from parts with
separators behind them can be taken apart again; and a text is read from its bytes as it was.

* `append_cons_inj`: what stands before a separator, and what stands after it.
* `decodeHead_encoded`: the character whose bytes are at the head is read.
* `ofBytesLossy_encode`: a text is read from its bytes.
-/

/-! ## Decimal digits and separators -/

namespace TypedScript.Text

/-- Numbers are written with digits only. -/
theorem notMem_toDigits {c : Char} (hc : c.isDigit = false) (n : Nat) : c ∉ Nat.toDigits 10 n := by
  intro hmem
  rw [Nat.isDigit_of_mem_toDigits (by decide) (by decide) hmem] at hc
  exact nomatch hc

theorem toDigits_inj {m n : Nat} (h : Nat.toDigits 10 m = Nat.toDigits 10 n) : m = n := by
  rw [← Nat.ofDigitChars_ten_toDigits (n := m), h, Nat.ofDigitChars_ten_toDigits]

/-- What stands before the first separator, and what stands after it. -/
theorem append_cons_inj {c : Char} {l l' m m' : List Char} (h : c ∉ l) (h' : c ∉ l')
    (heq : l ++ c :: m = l' ++ c :: m') :
    l = l' ∧ m = m' := by
  induction l generalizing l' with
  | nil =>
    cases l' with
    | nil => simpa using heq
    | cons b l' =>
      obtain rfl : c = b := by simpa using (List.cons.inj heq).1
      simp at h'
  | cons a l ih =>
    cases l' with
    | nil =>
      obtain rfl : a = c := by simpa using (List.cons.inj heq).1
      simp at h
    | cons b l' =>
      obtain ⟨rfl, hrest⟩ := List.cons.inj heq
      obtain ⟨rfl, rfl⟩ := ih (List.not_mem_of_not_mem_cons h) (List.not_mem_of_not_mem_cons h') hrest
      exact ⟨rfl, rfl⟩

/-- What stands before the last separator, and what stands after it. -/
theorem append_cons_inj_last {c : Char} {l l' m m' : List Char} (h : c ∉ m) (h' : c ∉ m')
    (heq : l ++ c :: m = l' ++ c :: m') :
    l = l' ∧ m = m' := by
  have hreverse := congrArg List.reverse heq
  simp only [List.reverse_append, List.reverse_cons, List.append_assoc, List.singleton_append] at hreverse
  obtain ⟨hm, hl⟩ := append_cons_inj (mt List.mem_reverse.1 h) (mt List.mem_reverse.1 h') hreverse
  exact ⟨List.reverse_injective hl, List.reverse_injective hm⟩

end TypedScript.Text

/-! ## Encoded texts -/

namespace TypedScript.Text

open String (utf8EncodeChar)

/-- The bytes of characters. -/
def bytesOf (cs : List Char) : List UInt8 := cs.flatMap utf8EncodeChar

theorem encode_eq (s : String) : encode s = bytesOf s.toList := by
  rw [encode, String.toUTF8_eq_toByteArray, ← String.utf8Encode_toList, List.utf8Encode, List.data_toByteArray]
  rfl

@[simp] theorem bytesOf_nil : bytesOf [] = [] := rfl

@[simp] theorem bytesOf_cons (c : Char) (cs : List Char) : bytesOf (c :: cs) = utf8EncodeChar c ++ bytesOf cs := rfl

@[simp] theorem bytesOf_append (cs cs' : List Char) : bytesOf (cs ++ cs') = bytesOf cs ++ bytesOf cs' :=
  List.flatMap_append

theorem utf8EncodeChar_eq (c : Char) : utf8EncodeChar c =
    if c.toNat < 0x80 then [.ofNat c.toNat]
    else if c.toNat < 0x800 then [.ofNat (c.toNat / 64 % 32 + 192), .ofNat (c.toNat % 64 + 128)]
    else if c.toNat < 0x10000 then
      [.ofNat (c.toNat / 4096 % 16 + 224), .ofNat (c.toNat / 64 % 64 + 128), .ofNat (c.toNat % 64 + 128)]
    else
      [.ofNat (c.toNat / 262144 % 8 + 240), .ofNat (c.toNat / 4096 % 64 + 128), .ofNat (c.toNat / 64 % 64 + 128),
        .ofNat (c.toNat % 64 + 128)] := by
  simp only [Nat.lt_succ_iff]
  exact utf8EncodeChar.eq_1 c

theorem bytesOf_ne_nil {cs : List Char} (h : cs ≠ []) : bytesOf cs ≠ [] := by
  obtain ⟨c, cs, rfl⟩ := List.exists_cons_of_ne_nil h
  rw [bytesOf_cons]
  exact fun h => String.utf8EncodeChar_ne_nil (List.append_eq_nil_iff.1 h).1

/-- An ASCII character is one byte of its own value. -/
theorem utf8EncodeChar_ascii {c : Char} (h : c.toNat < 0x80) : utf8EncodeChar c = [.ofNat c.toNat] := by
  rw [utf8EncodeChar_eq, if_pos h]

/-- The bytes of ASCII characters are their values. -/
theorem bytesOf_ascii {cs : List Char} (h : ∀ c ∈ cs, c.toNat < 0x80) : bytesOf cs = cs.map fun c =>
    UInt8.ofNat c.toNat := by
  induction cs with
  | nil => rfl
  | cons c cs ih =>
    obtain ⟨hc, h⟩ := List.forall_mem_cons.1 h
    rw [bytesOf_cons, utf8EncodeChar_ascii hc, ih h]
    rfl

/-- The bytes of a character that is no ASCII character stand for no ASCII character. -/
theorem le_of_mem_utf8EncodeChar {c : Char} (hc : 0x80 ≤ c.toNat) : ∀ b ∈ utf8EncodeChar c, 0x80 ≤ b.toNat := by
  rw [utf8EncodeChar_eq, if_neg (Nat.not_lt.2 hc)]
  split <;> try split
  all_goals
    simp only [List.mem_cons, List.not_mem_nil, or_false]
    rintro b (rfl | rfl | rfl | rfl)
  all_goals simp only [UInt8.toNat_ofNat']; omega

theorem continuation?_ofNat (n : Nat) : continuation? (UInt8.ofNat (n % 64 + 128)) = some (n % 64) := by
  have h : (UInt8.ofNat (n % 64 + 128)).toNat = n % 64 + 128 := by rw [UInt8.toNat_ofNat']; omega
  rw [continuation?, h, if_pos (by omega)]
  congr 1
  omega

section Decode

variable {b b₁ b₂ b₃ : UInt8} {x y z : Nat} {c : Char} {rest : List UInt8}

theorem decodeHead_two (hb : 0xC0 ≤ b.toNat) (hb' : b.toNat < 0xE0) (h₁ : continuation? b₁ = some x)
    (hvalue : b.toNat % 32 * 64 + x = c.toNat) (hc : 0x80 ≤ c.toNat) : decodeHead (b :: b₁ :: rest) =
    some (c, 2) := by
  rw [decodeHead, if_neg (by omega), if_neg (by omega), if_pos (by omega)]
  refine Option.bind_eq_some_iff.2 ⟨x, h₁, Option.bind_eq_some_iff.2 ⟨c, ?_, rfl⟩⟩
  rw [hvalue]
  exact (dif_pos c.valid).trans (if_pos hc)

theorem decodeHead_three (hb : 0xE0 ≤ b.toNat) (hb' : b.toNat < 0xF0) (h₁ : continuation? b₁ = some x)
    (h₂ : continuation? b₂ = some y) (hvalue : b.toNat % 16 * 4096 + x * 64 + y = c.toNat) (hc : 0x800 ≤ c.toNat) :
    decodeHead (b :: b₁ :: b₂ :: rest) = some (c, 3) := by
  rw [decodeHead, if_neg (by omega), if_neg (by omega), if_neg (by omega), if_pos (by omega)]
  refine Option.bind_eq_some_iff.2
    ⟨x, h₁, Option.bind_eq_some_iff.2 ⟨y, h₂, Option.bind_eq_some_iff.2 ⟨c, ?_, rfl⟩⟩⟩
  rw [hvalue]
  exact (dif_pos c.valid).trans (if_pos hc)

theorem decodeHead_four (hb : 0xF0 ≤ b.toNat) (hb' : b.toNat < 0xF8) (h₁ : continuation? b₁ = some x)
    (h₂ : continuation? b₂ = some y) (h₃ : continuation? b₃ = some z)
    (hvalue : b.toNat % 8 * 262144 + x * 4096 + y * 64 + z = c.toNat) (hc : 0x10000 ≤ c.toNat) :
    decodeHead (b :: b₁ :: b₂ :: b₃ :: rest) = some (c, 4) := by
  rw [decodeHead, if_neg (by omega), if_neg (by omega), if_neg (by omega), if_neg (by omega), if_pos (by omega)]
  refine Option.bind_eq_some_iff.2 ⟨x, h₁, Option.bind_eq_some_iff.2 ⟨y, h₂, Option.bind_eq_some_iff.2 ⟨z, h₃,
    Option.bind_eq_some_iff.2 ⟨c, ?_, rfl⟩⟩⟩⟩
  rw [hvalue]
  exact (dif_pos c.valid).trans (if_pos hc)

end Decode

/-- The character whose bytes are at the head is read. -/
theorem decodeHead_encoded (c : Char) (rest : List UInt8) :
    decodeHead (utf8EncodeChar c ++ rest) = some (c, (utf8EncodeChar c).length) := by
  have hscalar : c.toNat < 0x110000 := by
    rcases c.valid with h | h
    · exact Nat.lt_trans h (by decide)
    · exact h.2
  rw [utf8EncodeChar_eq]
  split
  · rename_i hlt
    have hlead : (UInt8.ofNat c.toNat).toNat = c.toNat := by rw [UInt8.toNat_ofNat']; omega
    simp only [decodeHead, List.cons_append, hlead, if_pos hlt, Char.ofNat_toNat]
    rfl
  split
  · have hlead : (UInt8.ofNat (c.toNat / 64 % 32 + 192)).toNat = c.toNat / 64 + 192 := by
      rw [UInt8.toNat_ofNat']; omega
    exact decodeHead_two (by omega) (by omega) (continuation?_ofNat _) (by omega) (by omega)
  split
  · have hlead : (UInt8.ofNat (c.toNat / 4096 % 16 + 224)).toNat = c.toNat / 4096 + 224 := by
      rw [UInt8.toNat_ofNat']; omega
    exact decodeHead_three (by omega) (by omega) (continuation?_ofNat _) (continuation?_ofNat _)
      (by omega) (by omega)
  · have hlead : (UInt8.ofNat (c.toNat / 262144 % 8 + 240)).toNat = c.toNat / 262144 + 240 := by
      rw [UInt8.toNat_ofNat']
      omega
    exact decodeHead_four (by omega) (by omega) (continuation?_ofNat _) (continuation?_ofNat _)
      (continuation?_ofNat _)
      (by omega) (by omega)

theorem decodeLossy_bytesOf (cs : List Char) : decodeLossy (bytesOf cs) = cs := by
  induction cs with
  | nil => rw [bytesOf_nil, decodeLossy]
  | cons c cs ih =>
    have hdecode := decodeHead_encoded c (bytesOf cs)
    obtain ⟨b, bs, hb⟩ := List.exists_cons_of_ne_nil (String.utf8EncodeChar_ne_nil (c := c))
    rw [hb, List.cons_append] at hdecode
    rw [bytesOf_cons, hb, List.cons_append, decodeLossy, hdecode]
    simp [ih]

/-- A text is read from its bytes. -/
theorem ofBytesLossy_bytesOf (cs : List Char) : ofBytesLossy (bytesOf cs) = String.ofList cs := by
  rw [ofBytesLossy, decodeLossy_bytesOf]

end TypedScript.Text
