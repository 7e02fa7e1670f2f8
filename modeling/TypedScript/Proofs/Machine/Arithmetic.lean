import Mathlib.Data.Int.ModEq
import TypedScript.Machine.Arithmetic

/-!
# Integer arithmetic of the machine

The machine computes with words of 64 bits and cuts the result by shifting its low bits to the top of the word and
back. Shifting up multiplies by a power of two that divides the modulus, so only the bits that are cut off are
lost (`bmod_mul_left`), and shifting back divides by it (`toInt_cut`). A narrower modulus divides a wider one, so
it does not matter that the result was reduced to 64 bits before (`toInt_wrap_ofInt`).

`binary_twosComplement` says what an operation on integers of any width gives.
-/

namespace TypedScript.Machine

open TypedScript.Ir

/-! ### Cutting words -/

/-- Reducing a multiple by a multiple of the modulus, which is even. -/
theorem bmod_mul_left {m c : Nat} (hm : 2 ∣ m) (hc : 0 < c) (n : Int) : (c * n).bmod (c * m) = c * n.bmod m := by
  obtain ⟨h, rfl⟩ := hm
  have hpos : (0 : Int) < c := Int.natCast_pos.2 hc
  have hrem : (c * n : Int) % ((c * (2 * h) : Nat) : Int) = c * (n % ((2 * h : Nat) : Int)) := by
    rw [Int.natCast_mul, Int.mul_emod_mul_of_pos _ _ hpos]
  -- halves are exact, so that the two conditions agree
  have hhalf : (((c * (2 * h) : Nat) : Int) + 1) / 2 = c * h := by
    rw [Nat.mul_left_comm, Int.natCast_mul, Int.natCast_mul]
    omega
  have hhalf' : (((2 * h : Nat) : Int) + 1) / 2 = h := by omega
  rw [Int.bmod_def, Int.bmod_def, hrem, hhalf, hhalf']
  by_cases hlt : n % ((2 * h : Nat) : Int) < h
  · rw [if_pos hlt, if_pos (Int.mul_lt_mul_of_pos_left hlt hpos)]
  · rw [if_neg hlt, if_neg fun h' => hlt (Int.lt_of_mul_lt_mul_left h' (Int.le_of_lt hpos)), Int.mul_sub,
      Int.natCast_mul c]

/-- Shifting takes the amount as it is if that is less than the width of a word. -/
theorem toNat_shiftAmount : ∀ k < 64, ((Int64.ofNat k).toBitVec.smod 64).toNat = k := by decide

/-- Moving the low bits to the top and back reduces a word. -/
theorem toInt_cut {bits : Nat} (hpos : 0 < bits) (hle : bits ≤ 64) (r : Int64) :
    (cut bits r).toInt = r.toInt.bmod (2 ^ bits) := by
  have hamount : ((Int64.ofNat (64 - bits)).toBitVec.smod 64).toNat = 64 - bits := toNat_shiftAmount _ (by omega)
  have hsplit : 2 ^ 64 = 2 ^ (64 - bits) * 2 ^ bits := by rw [← Nat.pow_add, Nat.sub_add_cancel hle]
  have heven : 2 ∣ 2 ^ bits :=
    ⟨2 ^ (bits - 1), by rw [← Nat.pow_succ', Nat.succ_eq_add_one, Nat.sub_add_cancel hpos]⟩
  have hup : ((r.toBitVec.toNat <<< (64 - bits) : Nat) : Int).bmod (2 ^ 64) =
      ((2 ^ (64 - bits) : Nat) : Int) * (r.toBitVec.toNat : Int).bmod (2 ^ bits) := by
    rw [Nat.shiftLeft_eq, Nat.mul_comm, Int.natCast_mul, hsplit, bmod_mul_left heven (Nat.two_pow_pos _)]
  calc (cut bits r).toInt
    _ = ((r.toBitVec.toNat <<< (64 - bits) : Nat) : Int).bmod (2 ^ 64) >>> (64 - bits) := by
      rw [cut, ← Int64.toInt_toBitVec, Int64.toBitVec_shiftRight, Int64.toBitVec_shiftLeft, BitVec.sshiftRight_eq',
        BitVec.toInt_sshiftRight, BitVec.shiftLeft_eq', BitVec.toInt_shiftLeft, hamount]
    _ = (r.toBitVec.toNat : Int).bmod (2 ^ bits) := by
      rw [hup, Int.shiftRight_eq_div_pow,
        Int.mul_ediv_cancel_left _ (Int.natCast_ne_zero.2 (Nat.two_pow_pos _).ne')]
    _ = r.toInt.bmod (2 ^ bits) := by
      rw [← Int64.toInt_toBitVec, BitVec.toInt_eq_toNat_bmod, Int.bmod_bmod_of_dvd (Nat.pow_dvd_pow 2 hle)]

theorem intBits?_pos_le {s : Scalar} {bits : Nat} (h : s.intBits? = some bits) : 0 < bits ∧ bits ≤ 64 := by
  cases s <;> cases h <;> decide

/-- A word is reduced to the width of an integer type. -/
theorem toInt_wrap {s : Scalar} {bits : Nat} (hs : s.intBits? = some bits) (r : Int64) :
    (wrap (some (.scalar s)) r).toInt = r.toInt.bmod (2 ^ bits) := by
  obtain ⟨hpos, hle⟩ := intBits?_pos_le hs
  simp only [wrap, hs, Option.elim_some]
  split
  · exact toInt_cut hpos hle r
  · obtain rfl : bits = 64 := by omega
    exact (Int.bmod_eq_of_le (Int64.le_toInt r) (Int64.toInt_lt r)).symm

/-- It does not matter that a result was reduced to a word before. -/
theorem toInt_wrap_ofInt {s : Scalar} {bits : Nat} (hs : s.intBits? = some bits) (z : Int) :
    (wrap (some (.scalar s)) (.ofInt z)).toInt = z.bmod (2 ^ bits) := by
  rw [toInt_wrap hs, Int64.toInt_ofInt, Int.bmod_bmod_of_dvd (Nat.pow_dvd_pow 2 (intBits?_pos_le hs).2)]

/-! ### Results -/

/-- The integers of a signed word of the given width. -/
def Signed (bits : Nat) (v : Int) : Prop := -2 ^ (bits - 1) ≤ v ∧ v < 2 ^ (bits - 1)

instance (bits : Nat) (v : Int) : Decidable (Signed bits v) := inferInstanceAs (Decidable (_ ∧ _))

/-- What an operation gives if nothing is cut. Quotients go toward zero; there is none if the divisor is zero. -/
def uncut? (op : Op) (x y : Int) : Option Int :=
  match op with
  | .add => some (x + y)
  | .sub => some (x - y)
  | .mul => some (x * y)
  | .div => if y = 0 then none else some (x.tdiv y)
  | .rem => if y = 0 then none else some (x.tmod y)

/-- Only a division by zero has no result. -/
theorem uncut?_eq_none_iff {op : Op} {x y : Int} : uncut? op x y = none ↔ (op = .div ∨ op = .rem) ∧ y = 0 := by
  cases op <;> simp [uncut?]

theorem Signed.mono {bits bits' : Nat} {v : Int} (h : Signed bits v) (hle : bits ≤ bits') : Signed bits' v := by
  have hpow : (2 : Int) ^ (bits - 1) ≤ 2 ^ (bits' - 1) := by
    exact_mod_cast Nat.pow_le_pow_right (by decide) (Nat.sub_le_sub_right hle 1)
  exact ⟨Int.le_trans (Int.neg_le_neg hpow) h.1, Int.lt_of_lt_of_le h.2 hpow⟩

/-- A reduced integer is one of a signed word. -/
theorem signed_bmod {bits : Nat} (hpos : 0 < bits) (z : Int) : Signed bits (z.bmod (2 ^ bits)) := by
  have hhalf : 2 ^ bits = 2 * 2 ^ (bits - 1) := by
    rw [← Nat.pow_succ', Nat.succ_eq_add_one, Nat.sub_add_cancel hpos]
  have hlow := Int.le_bmod (x := z) (Nat.two_pow_pos bits)
  have hhigh := Int.bmod_lt (x := z) (Nat.two_pow_pos bits)
  have hcast : ((2 ^ (bits - 1) : Nat) : Int) = 2 ^ (bits - 1) := by norm_cast
  unfold Signed
  rw [hhalf] at hlow hhigh ⊢
  generalize (2 : Int) ^ (bits - 1) = w at *
  omega

/-- A word that is zero stands for zero. -/
theorem ofInt_eq_zero_iff {y : Int} (hy : Signed 64 y) : Int64.ofInt y = 0 ↔ y = 0 := by
  constructor
  · intro h
    rw [← Int64.toInt_ofInt_of_le hy.1 hy.2, h]
    rfl
  · rintro rfl
    rfl

/-- Arithmetic on words is exact up to multiples of the modulus, and fails where there is no exact result. -/
theorem intBinary_ofInt (op : Op) {x y : Int} (hx : Signed 64 x) (hy : Signed 64 y) :
    intBinary op (.ofInt x) (.ofInt y) =
      (uncut? op x y).elim (.error ⟨.divisionByZero, "integer division by zero", []⟩) fun z => .ok (.ofInt z) := by
  have hx' := Int.le_sub_one_of_lt hx.2
  have hy' := Int.le_sub_one_of_lt hy.2
  cases op with
  | add => exact congrArg Except.ok (Int64.ofInt_add x y).symm
  | sub => exact congrArg Except.ok (Int64.ofInt_sub x y).symm
  | mul => exact congrArg Except.ok (Int64.ofInt_mul x y).symm
  | div =>
    by_cases hzero : y = 0
    · simp [intBinary, uncut?, hzero]
    · simp [intBinary, uncut?, hzero, ofInt_eq_zero_iff hy, Int64.ofInt_tdiv hx.1 hx' hy.1 hy']
  | rem =>
    by_cases hzero : y = 0
    · simp [intBinary, uncut?, hzero]
    · simp [intBinary, uncut?, hzero, ofInt_eq_zero_iff hy, Int64.ofInt_tmod hx.1 hx' hy.1 hy']

/-- An operation on integers of a width reduces the exact result. -/
theorem binary_int {s : Scalar} {bits : Nat} (hs : s.intBits? = some bits) (op : Op) {x y : Int}
    (hx : Signed bits x) (hy : Signed bits y) :
    binary op (some (.scalar s)) (.int x) (.int y) =
      (uncut? op x y).elim (.error ⟨.divisionByZero, "integer division by zero", []⟩) fun z =>
        .ok (.int (z.bmod (2 ^ bits))) := by
  have hle := (intBits?_pos_le hs).2
  have hwords := intBinary_ofInt op (hx.mono hle) (hy.mono hle)
  cases hz : uncut? op x y with
  | none =>
    rw [hz] at hwords
    simp only [binary, hwords]
    rfl
  | some z =>
    rw [hz] at hwords
    simp only [binary, hwords]
    exact congrArg (fun v => Except.ok (Value.int v)) (toInt_wrap_ofInt hs z)

/-- The least integer has no negative of its own width, and is its own quotient by minus one. -/
theorem bmod_tdiv_least {bits : Nat} (hpos : 0 < bits) :
    ((-2 ^ (bits - 1) : Int).tdiv (-1)).bmod (2 ^ bits) = -2 ^ (bits - 1) := by
  have hhalf : 2 ^ bits = 2 * 2 ^ (bits - 1) := by
    rw [← Nat.pow_succ', Nat.succ_eq_add_one, Nat.sub_add_cancel hpos]
  have hcast : ((2 ^ (bits - 1) : Nat) : Int) = 2 ^ (bits - 1) := by norm_cast
  have hrem : ((2 ^ (bits - 1) : Nat) : Int) % ((2 * 2 ^ (bits - 1) : Nat) : Int) = (2 ^ (bits - 1) : Nat) := by
    refine Int.emod_eq_of_lt (Int.natCast_nonneg _) (Int.ofNat_lt.2 ?_)
    have := Nat.two_pow_pos (bits - 1)
    omega
  rw [Int.tdiv_neg, Int.tdiv_one, Int.neg_neg, ← hcast, hhalf, Int.bmod_def, hrem, if_neg (by omega)]
  omega

/-- Arithmetic of the machine is two's complement: on integers of a width, an operation gives the integer of that
width that agrees with the exact result modulo the power of two. It fails for a zero divisor only; the least
integer divided by minus one is the least integer again. -/
theorem binary_twosComplement {s : Scalar} {bits : Nat} (hs : s.intBits? = some bits) (op : Op) {x y : Int}
    (hx : Signed bits x) (hy : Signed bits y) :
    (∀ z, uncut? op x y = some z →
      ∃ v, binary op (some (.scalar s)) (.int x) (.int y) = .ok (.int v) ∧ Signed bits v ∧ v ≡ z [ZMOD 2 ^ bits]) ∧
    (∀ f, binary op (some (.scalar s)) (.int x) (.int y) = .error f ↔
      ((op = .div ∨ op = .rem) ∧ y = 0) ∧ f = ⟨.divisionByZero, "integer division by zero", []⟩) ∧
    (x = -2 ^ (bits - 1) → binary .div (some (.scalar s)) (.int x) (.int (-1)) = .ok (.int x)) := by
  have hpos := (intBits?_pos_le hs).1
  refine ⟨fun z hz => ?_, fun f => ?_, ?_⟩
  · refine ⟨z.bmod (2 ^ bits), ?_, signed_bmod hpos z, ?_⟩
    · rw [binary_int hs op hx hy, hz]
      rfl
    · have hmod : z.bmod (2 ^ bits) ≡ z [ZMOD (2 ^ bits : Nat)] := Int.bmod_emod
      exact_mod_cast hmod
  · rw [binary_int hs op hx hy, ← uncut?_eq_none_iff]
    cases uncut? op x y with
    | none => simp [eq_comm]
    | some z => simp
  · rintro rfl
    have hpower : (0 : Int) < 2 ^ (bits - 1) := Int.pow_pos (by decide)
    have hone : Signed bits (-1) := ⟨Int.neg_le_neg hpower, Int.lt_trans (by decide) hpower⟩
    rw [binary_int hs .div hx hone]
    exact congrArg (fun v => Except.ok (Value.int v)) (bmod_tdiv_least hpos)

/-- The greatest integer of eight bits and one add up to the least one. -/
theorem binary_twosComplement_of_overflow :
    Scalar.intBits? .i8 = some 8 ∧ Signed 8 127 ∧ Signed 8 1 ∧ uncut? .add 127 1 = some 128 ∧
      binary .add (some (.scalar .i8)) (.int 127) (.int 1) = .ok (.int (-128)) ∧
      ∃ v, binary .add (some (.scalar .i8)) (.int 127) (.int 1) = .ok (.int v) ∧ Signed 8 v ∧ v ≡ 128
        [ZMOD 2 ^ 8] := by
  have hx : Signed 8 127 := by decide
  have hy : Signed 8 1 := by decide
  exact ⟨rfl, hx, hy, rfl, rfl, (binary_twosComplement rfl .add hx hy).1 128 rfl⟩

end TypedScript.Machine
