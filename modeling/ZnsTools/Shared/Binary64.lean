import Mathlib.Data.Int.Log
import Mathlib.Data.Rat.Floor
import Mathlib.Tactic.Linarith
import Mathlib.Tactic.NormNum
import Mathlib.Tactic.Positivity

set_option autoImplicit false

namespace Binary64

-- Rational numbers rounded to IEEE 754 double precision.

def roundHalfEven (q : ℚ) : ℤ :=
  if q - ⌊q⌋ < 1 / 2 then ⌊q⌋
  else if 1 / 2 < q - ⌊q⌋ then ⌊q⌋ + 1
  else if ⌊q⌋ % 2 = 0 then ⌊q⌋
  else ⌊q⌋ + 1

-- The distance of the doubles about `q`: 53 significant bits, and 2^-1074 at the least.
def ulp (q : ℚ) : ℚ :=
  2 ^ max (Int.log 2 |q| - 52) (-1074)

def toDouble (q : ℚ) : ℚ :=
  roundHalfEven (q / ulp q) * ulp q

/-- A natural number of at most 53 significant bits. -/
def HasDouble (n : ℕ) : Prop :=
  ∃ m e : ℕ, m < 2 ^ 53 ∧ n = m * 2 ^ e

section Round

theorem roundHalfEven_intCast (n : ℤ) : roundHalfEven n = n := by
  simp [roundHalfEven]

theorem roundHalfEven_bounds (q : ℚ) : ⌊q⌋ ≤ roundHalfEven q ∧ roundHalfEven q ≤ ⌊q⌋ + 1 := by
  rw [roundHalfEven]
  split
  · omega
  · split
    · omega
    · split <;> omega

theorem abs_roundHalfEven_le (q : ℚ) : |(roundHalfEven q : ℚ)| ≤ |q| + 1 := by
  have ⟨low, high⟩ := roundHalfEven_bounds q
  have below : ((⌊q⌋ : ℤ) : ℚ) ≤ roundHalfEven q := by exact_mod_cast low
  have above : (roundHalfEven q : ℚ) ≤ (⌊q⌋ : ℤ) + 1 := by exact_mod_cast high
  have floor := Int.floor_le q
  have next := Int.lt_floor_add_one q
  rw [abs_le]
  constructor <;> cases abs_cases q <;> linarith

theorem ulp_pos (q : ℚ) : 0 < ulp q :=
  zpow_pos (by norm_num) _

theorem ulp_le (q : ℚ) : ulp q ≤ |q| + 1 := by
  rw [ulp]
  rcases le_total (Int.log 2 |q| - 52) (-1074) with small | large
  · rw [max_eq_right small]
    have : (2 : ℚ) ^ (-1074 : ℤ) ≤ 1 := zpow_le_one_of_nonpos₀ (by norm_num) (by norm_num)
    linarith [abs_nonneg q]
  · rw [max_eq_left large]
    rcases (abs_nonneg q).eq_or_lt with zero | positive
    · rw [← zero, Int.log_zero_right]
      norm_num
    · have own := Int.zpow_log_le_self (b := 2) (by decide) positive
      have less : (2 : ℚ) ^ (Int.log 2 |q| - 52) ≤ 2 ^ Int.log 2 |q| :=
        zpow_le_zpow_right₀ (by norm_num) (by omega)
      have : (2 : ℚ) ^ Int.log 2 |q| ≤ |q| := by exact_mod_cast own
      linarith

theorem abs_toDouble_le (q : ℚ) : |toDouble q| ≤ 2 * |q| + 1 := by
  have positive := ulp_pos q
  have rounded := abs_roundHalfEven_le (q / ulp q)
  have near := ulp_le q
  have scaled : |q / ulp q| * ulp q = |q| := by
    rw [abs_div, abs_of_pos positive, div_mul_cancel₀ _ positive.ne']
  rw [toDouble, abs_mul, abs_of_pos positive]
  calc |(roundHalfEven (q / ulp q) : ℚ)| * ulp q
      ≤ (|q / ulp q| + 1) * ulp q := mul_le_mul_of_nonneg_right rounded positive.le
    _ = |q| + ulp q := by rw [add_mul, one_mul, scaled]
    _ ≤ 2 * |q| + 1 := by linarith

end Round

section Nat

variable {n : ℕ}

theorem ulp_natCast (n : ℕ) : ulp n = 2 ^ ((Nat.log 2 n : ℤ) - 52) := by
  have large : (-1074 : ℤ) ≤ (Nat.log 2 n : ℤ) - 52 := by omega
  rw [ulp, Nat.abs_cast, Int.log_natCast, max_eq_left large]

theorem ulp_of_large (large : 52 ≤ Nat.log 2 n) : ulp n = ((2 ^ (Nat.log 2 n - 52) : ℕ) : ℚ) := by
  rw [ulp_natCast, ← Nat.cast_ofNat, Nat.cast_pow, ← zpow_natCast]
  congr 1
  omega

theorem toDouble_of_small (small : n < 2 ^ 53) : toDouble n = n := by
  have exponent : Nat.log 2 n ≤ 52 := by
    rcases Nat.eq_zero_or_pos n with rfl | positive
    · simp
    · exact Nat.lt_succ_iff.mp (Nat.log_lt_of_lt_pow positive.ne' small)
  have whole : (n : ℚ) / ulp n = ((n * 2 ^ (52 - Nat.log 2 n) : ℤ) : ℚ) := by
    rw [div_eq_iff (ulp_pos n).ne', ulp_natCast]
    push_cast
    rw [mul_assoc, ← zpow_natCast, ← zpow_add₀ (by norm_num)]
    have cancel : ((52 - Nat.log 2 n : ℕ) : ℤ) + ((Nat.log 2 n : ℤ) - 52) = 0 := by omega
    rw [cancel, zpow_zero, mul_one]
  rw [toDouble, whole, roundHalfEven_intCast, ← whole, div_mul_cancel₀ _ (ulp_pos n).ne']

theorem toDouble_of_multiple (large : 52 ≤ Nat.log 2 n) {c : ℕ}
    (multiple : n = c * 2 ^ (Nat.log 2 n - 52)) : toDouble n = n := by
  have whole : (n : ℚ) / ulp n = ((c : ℤ) : ℚ) := by
    rw [div_eq_iff (ulp_pos n).ne', ulp_of_large large]
    conv_lhs => rw [multiple]
    push_cast
    rfl
  rw [toDouble, whole, roundHalfEven_intCast, ← whole, div_mul_cancel₀ _ (ulp_pos n).ne']

theorem toDouble_exact (short : HasDouble n) : toDouble n = n := by
  by_cases small : n < 2 ^ 53
  · exact toDouble_of_small small
  · have ⟨m, e, bound, value⟩ := short
    have positive : n ≠ 0 := by omega
    have large : 53 ≤ Nat.log 2 n := (Nat.le_log_iff_pow_le (by decide) positive).mpr (by omega)
    have below : n < 2 ^ (53 + e) := by
      rw [value, pow_add]
      exact Nat.mul_lt_mul_of_pos_right bound (Nat.two_pow_pos e)
    have exponent : Nat.log 2 n - 52 ≤ e := by
      have := Nat.log_lt_of_lt_pow positive below
      omega
    have ⟨more, split⟩ := Nat.exists_eq_add_of_le exponent
    refine toDouble_of_multiple (c := m * 2 ^ more) (by omega) ?_
    rw [mul_assoc, ← pow_add, add_comm more, ← split]
    exact value

theorem toDouble_natCast (n : ℕ) : ∃ k : ℕ, toDouble n = k ∧ HasDouble k := by
  by_cases small : n < 2 ^ 53
  · exact ⟨n, toDouble_of_small small, n, 0, small, by simp⟩
  · have positive : n ≠ 0 := by omega
    have large : 53 ≤ Nat.log 2 n := (Nat.le_log_iff_pow_le (by decide) positive).mpr (by omega)
    have exponent := ulp_of_large (n := n) (by omega)
    have below : (n : ℚ) / ulp n < 2 ^ 53 := by
      rw [div_lt_iff₀ (ulp_pos n), exponent]
      have := Nat.lt_pow_succ_log_self (b := 2) (by decide) n
      rw [show (Nat.log 2 n).succ = 53 + (Nat.log 2 n - 52) by omega, pow_add] at this
      exact_mod_cast this
    have bounds := roundHalfEven_bounds ((n : ℚ) / ulp n)
    have floor_nonneg : 0 ≤ ⌊(n : ℚ) / ulp n⌋ := by
      rw [Int.floor_nonneg, exponent]
      positivity
    have floor_lt : ⌊(n : ℚ) / ulp n⌋ < 2 ^ 53 := by
      rw [Int.floor_lt]
      exact_mod_cast below
    have ⟨m, rounded⟩ := Int.eq_ofNat_of_zero_le (floor_nonneg.trans bounds.1)
    have most : m ≤ 2 ^ 53 := by omega
    refine ⟨m * 2 ^ (Nat.log 2 n - 52), ?_, ?_⟩
    · rw [toDouble, rounded, exponent]
      push_cast
      rfl
    · rcases Nat.lt_or_eq_of_le most with fewer | whole
      · exact ⟨m, _, fewer, rfl⟩
      · exact ⟨1, 53 + (Nat.log 2 n - 52), by decide, by rw [whole, pow_add, one_mul]⟩

end Nat

section Floor

theorem le_roundHalfEven {q : ℚ} {m : ℤ} (above : (m : ℚ) ≤ q) : m ≤ roundHalfEven q :=
  (Int.le_floor.mpr above).trans (roundHalfEven_bounds q).1

theorem roundHalfEven_lt {q : ℚ} {m : ℤ} (below : q < m - 1 / 2) : roundHalfEven q < m := by
  have floor := Int.floor_le q
  have under : ⌊q⌋ < m := Int.floor_lt.mpr (by linarith)
  rw [roundHalfEven]
  split
  · exact under
  · next half =>
    have next : ⌊q⌋ + 1 < m := by
      have far : ((⌊q⌋ + 1 : ℤ) : ℚ) < m := by
        push_cast
        linarith
      exact_mod_cast far
    split
    · exact next
    · split
      · exact under
      · exact next

theorem roundHalfEven_eq {q : ℚ} {m : ℤ} (even : m % 2 = 0) (near : m - 1 / 2 ≤ q)
    (below : q < m) : roundHalfEven q = m := by
  have floor : ⌊q⌋ = m - 1 := by
    rw [Int.floor_eq_iff]
    push_cast
    constructor <;> linarith
  rw [roundHalfEven, floor]
  push_cast
  rw [if_neg (by linarith), if_neg (c := (m - 1) % 2 = 0) (by omega), sub_add_cancel, ite_self]

theorem ulp_inv {q : ℚ} (small : |q| < 2 ^ 53) : ∃ j : ℕ, ulp q = ((2 ^ j : ℕ) : ℚ)⁻¹ := by
  have log : Int.log 2 |q| ≤ 52 := by
    rcases (abs_nonneg q).eq_or_lt with zero | positive
    · rw [← zero, Int.log_zero_right]
      norm_num
    · have bound := (Int.lt_zpow_iff_log_lt (b := 2) (x := 53) (by decide) positive).mp
        (by exact_mod_cast small)
      omega
  refine ⟨(-max (Int.log 2 |q| - 52) (-1074)).toNat, ?_⟩
  rw [ulp, Nat.cast_pow, Nat.cast_ofNat, ← zpow_natCast, ← zpow_neg, Int.toNat_of_nonneg (by omega),
    neg_neg]

theorem ulp_le_pow {q : ℚ} {e : ℕ} (small : |q| < 2 ^ (e + 1)) : ulp q ≤ 2 ^ e / 2 ^ 52 := by
  have log : Int.log 2 |q| ≤ e := by
    rcases (abs_nonneg q).eq_or_lt with zero | positive
    · rw [← zero, Int.log_zero_right]
      omega
    · have bound := (Int.lt_zpow_iff_log_lt (b := 2) (x := (e + 1 : ℕ)) (by decide) positive).mp
        (by exact_mod_cast small)
      omega
  have exponent : max (Int.log 2 |q| - 52) (-1074) ≤ (e : ℤ) - 52 := by omega
  calc ulp q ≤ 2 ^ ((e : ℤ) - 52) := zpow_le_zpow_right₀ (by norm_num) exponent
    _ = 2 ^ e / 2 ^ 52 := by rw [zpow_sub₀ (by norm_num), zpow_natCast, zpow_ofNat]

theorem half_le_of_ulp {q : ℚ} {j e : ℕ} (step : ulp q = ((2 ^ j : ℕ) : ℚ)⁻¹)
    (fine : ulp q ≤ 2 ^ e / 2 ^ 52) : 1 / 2 ≤ 2 ^ e / 2 ^ 53 * ((2 ^ j : ℕ) : ℚ) := by
  have positive : (0 : ℚ) < (2 ^ j : ℕ) := by positivity
  have unit : ulp q * ((2 ^ j : ℕ) : ℚ) = 1 := by rw [step, inv_mul_cancel₀ positive.ne']
  have twice : (2 : ℚ) ^ e / 2 ^ 52 = 2 * (2 ^ e / 2 ^ 53) := by ring
  have least := mul_le_mul_of_nonneg_right fine positive.le
  rw [unit, twice] at least
  linarith

theorem floor_toDouble {q : ℚ} {n e : ℕ} (low : n ≤ q) (high : q < n + 1 - 2 ^ e / 2 ^ 53)
    (small : n + 1 ≤ 2 ^ (e + 1)) (exponent : e ≤ 52) : ⌊toDouble q⌋ = n := by
  have gap : (0 : ℚ) < 2 ^ e / 2 ^ 53 := by positivity
  have top : (n : ℚ) + 1 ≤ 2 ^ (e + 1) := by exact_mod_cast small
  have size : |q| < 2 ^ (e + 1) := by
    rw [abs_of_nonneg ((Nat.cast_nonneg n).trans low)]
    linarith
  have most : (2 : ℚ) ^ (e + 1) ≤ 2 ^ 53 := pow_le_pow_right₀ (by norm_num) (by omega)
  obtain ⟨j, step⟩ := ulp_inv (size.trans_le most)
  have scaled : q / ulp q = q * (2 ^ j : ℕ) := by rw [step, div_inv_eq_mul]
  have positive : (0 : ℚ) < (2 ^ j : ℕ) := by positivity
  have half := half_le_of_ulp step (ulp_le_pow size)
  have least : (n : ℤ) * (2 ^ j : ℕ) ≤ roundHalfEven (q / ulp q) := by
    refine le_roundHalfEven ?_
    rw [scaled]
    push_cast
    exact mul_le_mul_of_nonneg_right low (by positivity)
  have below : roundHalfEven (q / ulp q) < ((n : ℤ) + 1) * (2 ^ j : ℕ) := by
    refine roundHalfEven_lt ?_
    rw [scaled]
    have stretched := mul_lt_mul_of_pos_right high positive
    rw [sub_mul] at stretched
    push_cast at stretched half ⊢
    linarith
  rw [toDouble, Int.floor_eq_iff]
  rw [step] at least below ⊢
  rw [← div_eq_mul_inv, le_div_iff₀ positive, div_lt_iff₀ positive]
  exact ⟨by exact_mod_cast least, by exact_mod_cast below⟩

theorem toDouble_eq {q : ℚ} {m e : ℕ} (exponent : e < 52) (low : (2 : ℚ) ^ e ≤ q)
    (near : m - 2 ^ e / 2 ^ 53 ≤ q) (below : q < m) (high : m ≤ 2 ^ (e + 1)) :
    toDouble q = m := by
  have positive : 0 < q := (by positivity : (0 : ℚ) < 2 ^ e).trans_le low
  have top : q < 2 ^ (e + 1) := below.trans_le (by exact_mod_cast high)
  have log : Int.log 2 |q| = e := by
    rw [abs_of_pos positive]
    have least := (Int.zpow_le_iff_le_log (b := 2) (x := e) (by decide) positive).mp
      (by exact_mod_cast low)
    have most := (Int.lt_zpow_iff_log_lt (b := 2) (x := (e + 1 : ℕ)) (by decide) positive).mp
      (by exact_mod_cast top)
    omega
  have step : ulp q = ((2 ^ (52 - e) : ℕ) : ℚ)⁻¹ := by
    have power : max ((e : ℤ) - 52) (-1074) = -((52 - e : ℕ) : ℤ) := by omega
    rw [ulp, log, power, zpow_neg, zpow_natCast, Nat.cast_pow, Nat.cast_ofNat]
  have scaled : q / ulp q = q * (2 ^ (52 - e) : ℕ) := by rw [step, div_inv_eq_mul]
  have many : (0 : ℚ) < (2 ^ (52 - e) : ℕ) := by positivity
  have half : 2 ^ e / 2 ^ 53 * ((2 ^ (52 - e) : ℕ) : ℚ) = 1 / 2 := by
    have whole : (2 : ℚ) ^ e * 2 ^ (52 - e) = 2 ^ 52 := by
      rw [← pow_add, Nat.add_sub_cancel' exponent.le]
    rw [Nat.cast_pow, Nat.cast_ofNat, div_mul_eq_mul_div, whole]
    norm_num
  have rounded : roundHalfEven (q / ulp q) = (m * 2 ^ (52 - e) : ℕ) := by
    refine roundHalfEven_eq ?_ ?_ ?_
    · obtain ⟨more, same⟩ := Nat.exists_eq_add_of_le' (Nat.sub_pos_of_lt exponent)
      rw [same, pow_succ, ← mul_assoc, Nat.cast_mul]
      exact Int.mul_emod_left _ _
    · have stretched := mul_le_mul_of_nonneg_right near many.le
      rw [sub_mul, half] at stretched
      rw [scaled]
      push_cast at stretched ⊢
      linarith
    · rw [scaled]
      push_cast
      exact mul_lt_mul_of_pos_right below (by positivity)
  rw [toDouble, rounded, step, Nat.cast_mul]
  push_cast
  rw [mul_inv_cancel_right₀ (by positivity)]

end Floor

end Binary64
