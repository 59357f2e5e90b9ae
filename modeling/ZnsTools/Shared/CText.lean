import Mathlib.Algebra.Group.Int.Defs
import Mathlib.Algebra.GroupWithZero.Nat
import ZnsTools.Shared.PyText

set_option autoImplicit false

namespace CText

-- What the C library makes of text: lines, tokens and numbers. Both languages know the same spaces.

open PyText (Text isSpace digit_solid digit_of_mem not_mem_toDigits)

-- The lines that calls of `getline` return one after the other, with their newlines.
def getlines : Text → List Text
  | [] => []
  | c :: rest =>
    if c = '\n' then ['\n'] :: getlines rest
    else
      match getlines rest with
      | [] => [[c]]
      | line :: more => (c :: line) :: more

def cString (buffer : Text) : Text :=
  buffer.takeWhile (· != '\x00')

/-- The tokens that calls of `strsep` return one after the other, empty ones among them. -/
def strsep (delims : List Char) (text : Text) : List Text :=
  text.splitOnP fun c => c ∈ delims

def magnitude (digits : Text) : Int :=
  Nat.ofDigitChars 10 (digits.takeWhile Char.isDigit) 0

-- In base 10, for a `long` of 64 bits.
def strtol (text : Text) : Int :=
  match text.dropWhile isSpace with
  | '-' :: digits => max (-magnitude digits) (-2 ^ 63)
  | '+' :: digits => min (magnitude digits) (2 ^ 63 - 1)
  | digits => min (magnitude digits) (2 ^ 63 - 1)

def atoi (text : Text) : Int32 :=
  Int32.ofInt (strtol text)

theorem getlines_cons {line : Text} (whole : '\n' ∉ line) (rest : Text) :
    getlines (line ++ '\n' :: rest) = (line ++ ['\n']) :: getlines rest := by
  induction line with
  | nil => rfl
  | cons c line ih =>
    have ⟨first, later⟩ := List.ne_and_not_mem_of_not_mem_cons whole
    rw [List.cons_append, getlines, if_neg first.symm, ih later]
    rfl

theorem cString_of_not_mem {buffer : Text} (absent : '\x00' ∉ buffer) : cString buffer = buffer := by
  have solid : ∀ c ∈ buffer, (c != '\x00') = true := by
    intro c inside
    simpa using fun nul : c = '\x00' => absent (nul ▸ inside)
  rw [cString, ← List.append_nil buffer, List.takeWhile_append_of_pos solid]
  rfl

section Tokens

variable {delims : List Char} {token : Text}

theorem strsep_single (plain : ∀ c ∈ token, c ∉ delims) : strsep delims token = [token] :=
  List.splitOnP_eq_singleton (by simpa using plain)

theorem strsep_cons (plain : ∀ c ∈ token, c ∉ delims) {delim : Char} (cut : delim ∈ delims)
    (rest : Text) : strsep delims (token ++ delim :: rest) = token :: strsep delims rest :=
  List.splitOnP_append_cons_of_forall_mem (by simpa using plain) _ (by simpa using cut) _

theorem strsep_delim {delim : Char} (cut : delim ∈ delims) (rest : Text) :
    strsep delims (delim :: rest) = [] :: strsep delims rest := by
  have empty : ∀ c ∈ ([] : Text), c ∉ delims := fun c inside => by cases inside
  exact strsep_cons empty cut rest

theorem strsep_length (text : Text) (inside : token ∈ strsep delims text) :
    token.length ≤ text.length := by
  induction text generalizing token with
  | nil =>
    rw [strsep_single fun c none => by cases none] at inside
    exact Nat.le_of_eq (congrArg _ (List.mem_singleton.mp inside))
  | cons c text ih =>
    by_cases cut : c ∈ delims
    · rw [strsep_delim cut] at inside
      rcases List.mem_cons.mp inside with rfl | later
      · exact Nat.zero_le _
      · exact Nat.le_succ_of_le (ih later)
    · have grown : strsep delims (c :: text) = (strsep delims text).modifyHead (List.cons c) := by
        rw [strsep, List.splitOnP_cons_eq_if_modifyHead, if_neg (by simpa using cut), strsep]
      rw [grown] at inside
      cases tokens : strsep delims text with
      | nil => simp [tokens] at inside
      | cons first rest =>
        rw [tokens] at inside ih
        rcases List.mem_cons.mp inside with rfl | later
        · exact Nat.succ_le_succ (ih List.mem_cons_self)
        · exact Nat.le_succ_of_le (ih (List.mem_cons_of_mem _ later))

end Tokens

theorem magnitude_toDigits (n : Nat) {rest : Text} (ends : ∀ c ∈ rest.head?, ¬ c.isDigit) :
    magnitude (Nat.toDigits 10 n ++ rest) = n := by
  have none : rest.takeWhile Char.isDigit = [] := by
    cases rest with
    | nil => rfl
    | cons c rest => exact List.takeWhile_cons_of_neg (ends c rfl)
  rw [magnitude, List.takeWhile_append_of_pos fun c inside => digit_of_mem inside, none,
    List.append_nil, Nat.ofDigitChars_ten_toDigits]

theorem atoi_toDigits {n : Nat} (small : n < 2 ^ 63) {rest : Text}
    (ends : ∀ c ∈ rest.head?, ¬ c.isDigit) :
    atoi (Nat.toDigits 10 n ++ rest) = Int32.ofNat n := by
  have value := magnitude_toDigits n ends
  obtain ⟨c, digits, start⟩ := List.exists_cons_of_ne_nil (Nat.toDigits_ne_nil (b := 10) (n := n))
  have digit : c.isDigit := digit_of_mem (start ▸ List.mem_cons_self)
  have solid : (Nat.toDigits 10 n ++ rest).dropWhile isSpace = Nat.toDigits 10 n ++ rest := by
    rw [start]
    exact List.dropWhile_cons_of_neg (digit_solid digit)
  have read : strtol (Nat.toDigits 10 n ++ rest) = n := by
    rw [strtol, solid]
    split
    · next minus =>
      rw [start] at minus
      rw [(List.cons.inj minus).1] at digit
      exact absurd digit (by decide)
    · next plus =>
      rw [start] at plus
      rw [(List.cons.inj plus).1] at digit
      exact absurd digit (by decide)
    · rw [value]
      omega
  rw [atoi, read]
  rfl

end CText
