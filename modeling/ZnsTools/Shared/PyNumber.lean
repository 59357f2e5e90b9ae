import ZnsTools.Shared.Binary64
import ZnsTools.Shared.PyText

set_option autoImplicit false

namespace PyText

-- Python's calls that can raise, and its division of integers.

inductive PyError where
  | valueError
  | indexError
  | keyError
  | attributeError
  | zeroDivisionError
  | overflowError
  | systemExit
  deriving DecidableEq, Repr

def pyInt (text : Text) : Except PyError Int :=
  match int text with
  | some i => .ok i
  | none => .error .valueError

def index (parts : List Text) (i : Nat) : Except PyError Text :=
  match parts[i]? with
  | some part => .ok part
  | none => .error .indexError

def trueDiv (a b : Int) : Except PyError ℚ :=
  if b = 0 then .error .zeroDivisionError
  else
    let quotient := Binary64.toDouble (a / b)
    if 2 ^ 1024 ≤ |quotient| then .error .overflowError else .ok quotient

theorem not_mem_printInt {c : Char} (other : ¬ c.isDigit) (unsigned : c ≠ '-') (i : Int) :
    c ∉ printInt i := by
  cases i with
  | ofNat n => exact not_mem_toDigits other n
  | negSucc n =>
    intro inside
    rcases List.mem_cons.mp inside with minus | later
    · exact unsigned minus
    · exact not_mem_toDigits other (n + 1) later

theorem pyInt_printInt (i : Int) : pyInt (printInt i) = .ok i := by
  have read : int ([] ++ printInt i ++ []) = some i := int_printInt (by simp) (by simp) i
  rw [List.nil_append, List.append_nil] at read
  rw [pyInt, read]

theorem trueDiv_ok_of_quotient {total count : Int} (large : |(total : ℚ) / count| ≤ 2 ^ 128)
    (positive : 1 ≤ count) : trueDiv total count = .ok (Binary64.toDouble (total / count)) := by
  have near := Binary64.abs_toDouble_le ((total : ℚ) / count)
  have bound : |Binary64.toDouble ((total : ℚ) / count)| < 2 ^ 1024 := by
    calc |Binary64.toDouble ((total : ℚ) / count)| ≤ 2 * |(total : ℚ) / count| + 1 := near
      _ ≤ 2 ^ 130 := by linarith
      _ < 2 ^ 1024 := pow_lt_pow_right₀ (by norm_num) (by norm_num)
  rw [trueDiv, if_neg (by omega)]
  exact if_neg (not_le.mpr bound)

theorem trueDiv_ok_of_le {total count : Int} (large : |total| ≤ 2 ^ 128) (positive : 1 ≤ count) :
    trueDiv total count = .ok (Binary64.toDouble (total / count)) := by
  have whole : (1 : ℚ) ≤ count := by exact_mod_cast positive
  have top : |(total : ℚ)| ≤ 2 ^ 128 := by exact_mod_cast large
  have less : |(total : ℚ) / count| ≤ |(total : ℚ)| := by
    rw [abs_div]
    exact div_le_self (abs_nonneg _) (whole.trans (le_abs_self _))
  exact trueDiv_ok_of_quotient (less.trans top) positive

theorem trueDiv_ok {total count : Int} (large : |total| ≤ 2 ^ 64) (positive : 1 ≤ count) :
    trueDiv total count = .ok (Binary64.toDouble (total / count)) :=
  trueDiv_ok_of_le (large.trans (by norm_num)) positive

end PyText
