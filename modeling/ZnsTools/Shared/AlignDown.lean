import Mathlib.Data.Nat.Bitwise
import Mathlib.Tactic.ByContra

set_option autoImplicit false

namespace AlignDown

-- Rounding down to a power of two, as C code does it: `x & ~(size - 1)` on 64-bit words.

theorem pred_toNat (size : UInt64) (bits : Nat) (power : size.toNat = 2 ^ bits) :
    (size - 1).toNat = 2 ^ bits - 1 := by
  have positive : 1 ≤ size.toNat := by rw [power]; exact Nat.one_le_two_pow
  rw [UInt64.toNat_sub_of_le _ _ (by simpa [UInt64.le_iff_toNat_le] using positive), power]
  rfl

theorem and_complement_toNat (word size : UInt64) (bits : Nat) (power : size.toNat = 2 ^ bits) :
    (word &&& ~~~(size - 1)).toNat = word.toNat / 2 ^ bits * 2 ^ bits := by
  have low (i : Nat) : (size - 1).toBitVec.getLsbD i = decide (i < bits) := by
    rw [← BitVec.testBit_toNat, UInt64.toNat_toBitVec, pred_toNat size bits power,
      Nat.testBit_two_pow_sub_one]
  rw [← Nat.shiftRight_eq_div_pow, ← Nat.shiftLeft_eq, ← UInt64.toNat_toBitVec]
  apply Nat.eq_of_testBit_eq
  intro i
  simp only [UInt64.toBitVec_and, UInt64.toBitVec_not, BitVec.testBit_toNat, BitVec.getLsbD_and,
    BitVec.getLsbD_not, low, Nat.testBit_shiftLeft, Nat.testBit_shiftRight,
    ← UInt64.toNat_toBitVec]
  by_cases high : bits ≤ i
  · by_cases inside : i < 64
    · simp [high, inside, Nat.not_lt.mpr high]
    · simp [high, inside, BitVec.getLsbD_of_ge _ _ (Nat.not_lt.mp inside)]
  · simp [high, Nat.lt_of_not_le high]

-- A mask held in 32 bits is zero-extended, so it also clears the upper half of the word.
theorem and_narrow_mask (word mask : UInt64) :
    word &&& mask.toUInt32.toUInt64 = word.toUInt32.toUInt64 &&& mask := by
  apply UInt64.toNat_inj.mp
  simp only [UInt64.toNat_and, UInt32.toNat_toUInt64, UInt64.toNat_toUInt32]
  apply Nat.eq_of_testBit_eq
  intro i
  simp only [Nat.testBit_and, Nat.testBit_mod_two_pow]
  cases decide (i < 32) <;> simp

theorem and_narrow_complement_toNat (word size : UInt64) (bits : Nat)
    (power : size.toNat = 2 ^ bits) :
    (word &&& (~~~(size - 1)).toUInt32.toUInt64).toNat =
      word.toNat % 2 ^ 32 / 2 ^ bits * 2 ^ bits := by
  rw [and_narrow_mask, and_complement_toNat _ size bits power]
  rfl

theorem shiftRight_toNat (word amount : UInt64) (bits : Nat) (small : bits < 64)
    (exact : amount.toNat = bits) :
    (word >>> amount).toNat = word.toNat / 2 ^ bits := by
  rw [UInt64.toNat_shiftRight, exact, Nat.mod_eq_of_lt small, Nat.shiftRight_eq_div_pow]

theorem shiftLeft_toNat (word amount : UInt64) (bits : Nat) (small : bits < 64)
    (exact : amount.toNat = bits) (fits : word.toNat * 2 ^ bits < 2 ^ 64) :
    (word <<< amount).toNat = word.toNat * 2 ^ bits := by
  rw [UInt64.toNat_shiftLeft, exact, Nat.mod_eq_of_lt small, Nat.shiftLeft_eq,
    Nat.mod_eq_of_lt fits]

theorem mod_div_exact (lba bits : Nat) :
    lba % 2 ^ 32 / 2 ^ bits = lba / 2 ^ bits ↔ lba < 2 ^ 32 ∨ lba < 2 ^ bits := by
  constructor
  · intro same
    by_contra large
    simp only [not_or, Nat.not_lt] at large
    obtain ⟨past, outside⟩ := large
    rcases Nat.le_total bits 32 with narrow | wide
    · have divides : 2 ^ bits ∣ 2 ^ 32 := Nat.pow_dvd_pow 2 narrow
      have split := Nat.div_add_mod lba (2 ^ 32)
      have quotient : 1 ≤ lba / 2 ^ 32 := (Nat.one_le_div_iff (by decide)).mpr past
      obtain ⟨parts, exact⟩ := divides
      have whole : lba / 2 ^ bits = parts * (lba / 2 ^ 32) + lba % 2 ^ 32 / 2 ^ bits := by
        conv_lhs => rw [← split]
        rw [exact, Nat.mul_assoc, Nat.mul_add_div (Nat.two_pow_pos bits)]
      have positive : 1 ≤ parts := by
        rcases Nat.eq_zero_or_pos parts with rfl | h
        · simp at exact
        · exact h
      have : 1 ≤ parts * (lba / 2 ^ 32) := Nat.one_le_iff_ne_zero.mpr (by
        exact Nat.mul_ne_zero (by omega) (by omega))
      omega
    · have low : lba % 2 ^ 32 < 2 ^ bits :=
        Nat.lt_of_lt_of_le (Nat.mod_lt _ (by decide)) (Nat.pow_le_pow_right (by decide) wide)
      rw [Nat.div_eq_of_lt low] at same
      have : 1 ≤ lba / 2 ^ bits := (Nat.one_le_div_iff (Nat.two_pow_pos bits)).mpr outside
      omega
  · rintro (small | first)
    · rw [Nat.mod_eq_of_lt small]
    · rw [Nat.div_eq_of_lt first, Nat.div_eq_of_lt (Nat.lt_of_le_of_lt (Nat.mod_le _ _) first)]

theorem div_mul_div_of_dvd (address size block : Nat) (positive : 0 < size) (divides : size ∣ block) :
    address / size * size / block = address / block := by
  obtain ⟨parts, rfl⟩ := divides
  rw [← Nat.div_div_eq_div_mul, Nat.mul_div_cancel _ positive, Nat.div_div_eq_div_mul]

theorem eq_div_iff_zero (number parts : Nat) (several : 1 < parts) :
    number / parts = number ↔ number = 0 := by
  constructor
  · intro same
    by_contra nonzero
    have := Nat.div_lt_self (Nat.pos_of_ne_zero nonzero) several
    omega
  · rintro rfl
    exact Nat.zero_div parts

theorem in_block_iff (address block size : Nat) (positive : 0 < size) :
    (block * size ≤ address ∧ address < (block + 1) * size) ↔ address / size = block := by
  rw [Nat.div_eq_iff positive, Nat.add_mul]
  omega

end AlignDown
