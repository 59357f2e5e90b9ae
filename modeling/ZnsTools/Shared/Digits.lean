import Mathlib.Data.List.Basic
import Mathlib.Tactic.Ring

set_option autoImplicit false

namespace Digits

-- Numbers in a base of at most sixteen, written with the digits 0 to 9 and a to f.

def value (c : Char) : Option Nat :=
  if '0' ≤ c ∧ c ≤ '9' then some (c.toNat - '0'.toNat)
  else if 'a' ≤ c ∧ c ≤ 'f' then some (c.toNat - 'a'.toNat + 10)
  else none

def digit (base : Nat) (c : Char) : Option Nat :=
  (value c).filter fun n => n < base

def readFrom (base : Nat) : Nat → List Char → Option Nat
  | sofar, [] => some sofar
  | sofar, c :: rest => (digit base c).bind fun d => readFrom base (base * sofar + d) rest

def read (base : Nat) (text : List Char) : Option Nat :=
  if text = [] then none else readFrom base 0 text

theorem value_digitChar {n : Nat} (small : n < 16) : value n.digitChar = some n := by
  have all : ∀ n < 16, value n.digitChar = some n := by decide
  exact all n small

theorem digit_lt {base : Nat} {c : Char} {d : Nat} (found : digit base c = some d) : d < base := by
  have kept := (Option.filter_eq_some_iff.mp found).2
  simpa using kept

theorem readFrom_append (base sofar : Nat) (front back : List Char) :
    readFrom base sofar (front ++ back) =
      (readFrom base sofar front).bind fun n => readFrom base n back := by
  induction front generalizing sofar with
  | nil => rfl
  | cons c rest ih =>
    cases found : digit base c with
    | none => simp [readFrom, found]
    | some d => simp [readFrom, found, ih]

theorem readFrom_lt {base sofar n : Nat} {text : List Char}
    (result : readFrom base sofar text = some n) : n < (sofar + 1) * base ^ text.length := by
  induction text generalizing sofar with
  | nil =>
    cases result
    simp
  | cons c rest ih =>
    obtain ⟨d, found, later⟩ := Option.bind_eq_some_iff.mp result
    have small := digit_lt found
    calc n < (base * sofar + d + 1) * base ^ rest.length := ih later
      _ ≤ (base * sofar + base) * base ^ rest.length := Nat.mul_le_mul_right _ (by omega)
      _ = (sofar + 1) * base ^ (c :: rest).length := by rw [List.length_cons]; ring

section Written

variable {base : Nat}

theorem readFrom_toDigits (proper : 1 < base) (known : base ≤ 16) (n : Nat) :
    readFrom base 0 (Nat.toDigits base n) = some n := by
  have digits : ∀ d < base, digit base d.digitChar = some d := fun d small => by
    rw [digit, value_digitChar (by omega)]
    simp [small]
  induction n using Nat.strongRecOn with
  | ind n ih =>
    rw [Nat.toDigits_eq_if proper]
    split
    · next single => simp [readFrom, digits n single]
    · next several =>
      have fewer : n / base < n := Nat.div_lt_self (by omega) proper
      rw [readFrom_append, ih _ fewer]
      simp [readFrom, digits _ (Nat.mod_lt n (by omega)), Nat.div_add_mod]

theorem read_toDigits (proper : 1 < base) (known : base ≤ 16) (n : Nat) :
    read base (Nat.toDigits base n) = some n := by
  rw [read, if_neg Nat.toDigits_ne_nil, readFrom_toDigits proper known]

theorem read_take_iff (proper : 1 < base) (known : base ≤ 16) {n k : Nat} (some_digit : 0 < k) :
    read base ((Nat.toDigits base n).take k) = some n ↔ n < base ^ k := by
  rw [← Nat.length_toDigits_le_iff proper some_digit]
  constructor
  · intro whole
    by_contra longer
    rw [read, if_neg (by simp; omega)] at whole
    have small := readFrom_lt whole
    rw [List.length_take, Nat.min_eq_left (by omega), Nat.zero_add, Nat.one_mul] at small
    exact longer ((Nat.length_toDigits_le_iff proper some_digit).mpr small)
  · intro short
    rw [List.take_of_length_le short, read_toDigits proper known]

end Written

end Digits
