import Mathlib.Data.List.Infix

set_option autoImplicit false

namespace PyText

-- Python's operations on text: strip, split, int and in.

abbrev Text := List Char

def isSpace (c : Char) : Bool :=
  c ∈ [' ', '\t', '\n', '\r', '\x0b', '\x0c']

def strip (text : Text) : Text :=
  ((text.dropWhile isSpace).reverse.dropWhile isSpace).reverse

def unsigned (digits : Text) : Option Nat :=
  let parts := digits.splitOn '_'
  if parts.all (fun part => !part.isEmpty && part.all Char.isDigit) then
    some (Nat.ofDigitChars 10 parts.flatten 0)
  else none

def int (text : Text) : Option Int :=
  match strip text with
  | '-' :: digits => (unsigned digits).map fun n => -(n : Int)
  | '+' :: digits => (unsigned digits).map fun n => (n : Int)
  | digits => (unsigned digits).map fun n => (n : Int)

def printInt : Int → Text
  | .ofNat n => Nat.toDigits 10 n
  | .negSucc n => '-' :: Nat.toDigits 10 (n + 1)

section Strip

theorem dropWhile_spaces {front : Text} (spaces : ∀ c ∈ front, isSpace c) (text : Text) :
    (front ++ text).dropWhile isSpace = text.dropWhile isSpace :=
  List.dropWhile_append_of_pos spaces

theorem dropWhile_solid {text : Text} (solid : ∀ c ∈ text, ¬ isSpace c) :
    text.dropWhile isSpace = text := by
  cases text with
  | nil => rfl
  | cons c rest => exact List.dropWhile_cons_of_neg (solid c List.mem_cons_self)

theorem strip_padded {front text back : Text} (before : ∀ c ∈ front, isSpace c)
    (solid : ∀ c ∈ text, ¬ isSpace c) (after : ∀ c ∈ back, isSpace c) :
    strip (front ++ text ++ back) = text := by
  cases text with
  | nil =>
    have empty : (front ++ back).dropWhile isSpace = [] := by
      rw [dropWhile_spaces before, ← List.append_nil back, dropWhile_spaces after]
      rfl
    rw [strip, List.append_nil, empty]
    rfl
  | cons c rest =>
    have first : (front ++ c :: rest ++ back).dropWhile isSpace = c :: rest ++ back := by
      rw [List.append_assoc, dropWhile_spaces before, List.cons_append]
      exact List.dropWhile_cons_of_neg (solid c List.mem_cons_self)
    have last : ∀ d ∈ (c :: rest).reverse, ¬ isSpace d :=
      fun d inside => solid d (List.mem_reverse.mp inside)
    have padding : ∀ d ∈ back.reverse, isSpace d :=
      fun d inside => after d (List.mem_reverse.mp inside)
    rw [strip, first, List.reverse_append, dropWhile_spaces padding, dropWhile_solid last,
      List.reverse_reverse]

end Strip

section Int

theorem digit_solid {c : Char} (digit : c.isDigit) : ¬ isSpace c := by
  intro space
  have listed : c ∈ [' ', '\t', '\n', '\r', '\x0b', '\x0c'] := by simpa [isSpace] using space
  have none : [' ', '\t', '\n', '\r', '\x0b', '\x0c'].all (fun d => !d.isDigit) = true := by
    decide
  have solid := List.all_eq_true.mp none c listed
  rw [digit] at solid
  cases solid

theorem digit_of_mem {n : Nat} {c : Char} (inside : c ∈ Nat.toDigits 10 n) : c.isDigit :=
  Nat.isDigit_of_mem_toDigits (by decide) (by decide) inside

theorem not_mem_toDigits {c : Char} (other : ¬ c.isDigit) (n : Nat) : c ∉ Nat.toDigits 10 n :=
  fun inside => other (digit_of_mem inside)

theorem unsigned_toDigits (n : Nat) : unsigned (Nat.toDigits 10 n) = some n := by
  have whole : (Nat.toDigits 10 n).splitOn '_' = [Nat.toDigits 10 n] :=
    List.splitOn_eq_singleton Nat.underscore_not_in_toDigits
  have digits : ∀ c ∈ Nat.toDigits 10 n, c.isDigit := fun c inside => digit_of_mem inside
  simpa [unsigned, whole, Nat.toDigits_ne_nil, Nat.ofDigitChars_ten_toDigits] using digits

theorem printInt_solid (i : Int) : ∀ c ∈ printInt i, ¬ isSpace c := by
  intro c inside
  cases i with
  | ofNat n => exact digit_solid (digit_of_mem inside)
  | negSucc n =>
    rcases List.mem_cons.mp inside with rfl | later
    · decide
    · exact digit_solid (digit_of_mem later)

theorem int_of_strip {text : Text} {i : Int} (bare : strip text = printInt i) :
    int text = some i := by
  rw [int, bare]
  cases i with
  | negSucc n =>
    simp only [printInt, unsigned_toDigits]
    rfl
  | ofNat n =>
    have value : (unsigned (printInt (.ofNat n))).map (fun n => (n : Int)) = some (.ofNat n) := by
      rw [printInt, unsigned_toDigits]
      rfl
    split
    · next digits start =>
      have minus : '-' ∈ Nat.toDigits 10 n := by
        have : printInt (.ofNat n) = Nat.toDigits 10 n := rfl
        rw [← this, start]
        exact List.mem_cons_self
      exact absurd minus (not_mem_toDigits (by decide) n)
    · next digits start =>
      have plus : '+' ∈ Nat.toDigits 10 n := by
        have : printInt (.ofNat n) = Nat.toDigits 10 n := rfl
        rw [← this, start]
        exact List.mem_cons_self
      exact absurd plus (not_mem_toDigits (by decide) n)
    · exact value

theorem int_printInt {front back : Text} (before : ∀ c ∈ front, isSpace c)
    (after : ∀ c ∈ back, isSpace c) (i : Int) : int (front ++ printInt i ++ back) = some i :=
  int_of_strip (strip_padded before (printInt_solid i) after)

end Int

theorem not_infix_of_not_mem {needle text : Text} {c : Char} (inside : c ∈ needle)
    (absent : c ∉ text) : ¬ needle <:+: text :=
  fun found => absent (found.subset inside)

end PyText
