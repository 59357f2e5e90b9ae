import ZnsTools.Shared.CText
import ZnsTools.Shared.Digits

set_option autoImplicit false

namespace Printf

-- Formats of the C library whose conversions are set apart by blanks, and what can be read back
-- from the lines they print.

open PyText (Text isSpace digit_solid digit_of_mem printInt printInt_solid)
open CText (getlines getlines_cons)

def words (text : Text) : List Text :=
  (text.splitOnP isSpace).filter fun word => !word.isEmpty

structure IsWord (word : Text) : Prop where
  some_char : word ≠ []
  solid : ∀ c ∈ word, isSpace c = false

theorem IsWord.of_all {word : Text} (some_char : word ≠ [])
    (solid : word.all (fun c => !isSpace c) = true) : IsWord word :=
  ⟨some_char, fun c inside => by simpa using List.all_eq_true.mp solid c inside⟩

section Words

variable {word front rest : Text} {c : Char}

@[simp] theorem words_nil : words [] = [] := by
  simp [words]

theorem words_append_space (space : isSpace c) (front rest : Text) :
    words (front ++ c :: rest) = words front ++ words rest := by
  rw [words, List.splitOnP_append_cons front rest space, List.filter_append]
  rfl

theorem words_space (space : isSpace c) (rest : Text) : words (c :: rest) = words rest := by
  have split := words_append_space space [] rest
  rwa [words_nil] at split

theorem words_word (isWord : IsWord word) : words word = [word] := by
  have whole : word.splitOnP isSpace = [word] :=
    List.splitOnP_eq_singleton isWord.solid
  rw [words, whole, List.filter_cons_of_pos]
  · rfl
  · simpa using isWord.some_char

theorem words_append_of_last (blank : front.getLast? = some ' ') (rest : Text) :
    words (front ++ rest) = words front ++ words rest := by
  obtain ⟨before, rfl⟩ := List.getLast?_eq_some_iff.mp blank
  have space : isSpace ' ' := by decide
  rw [List.append_assoc, List.singleton_append, words_append_space space,
    words_append_space space, words_nil, List.append_nil]

theorem words_newline (line : Text) : words (line ++ ['\n']) = words line := by
  rw [words_append_space (by decide), words_nil, List.append_nil]

theorem words_append_of_head (blank : ∀ c ∈ rest.head?, isSpace c) (front : Text) :
    words (front ++ rest) = words front ++ words rest := by
  cases rest with
  | nil => rw [List.append_nil, words_nil, List.append_nil]
  | cons c rest =>
    have space := blank c rfl
    rw [words_append_space space, words_space space]

theorem words_spaces {blanks : Text} (spaces : ∀ c ∈ blanks, isSpace c) : words blanks = [] := by
  induction blanks with
  | nil => exact words_nil
  | cons c blanks ih =>
    rw [words_space (spaces c List.mem_cons_self)]
    exact ih fun d inside => spaces d (List.mem_cons_of_mem _ inside)

theorem words_flatMap {list : List Text} (solid : ∀ word ∈ list, IsWord word) :
    words (list.flatMap fun word => word ++ [' ', ' ']) = list := by
  induction list with
  | nil => exact words_nil
  | cons word rest ih =>
    have blanks : ∀ text : Text, words (' ' :: ' ' :: text) = words text := fun text => by
      rw [words_space (by decide), words_space (by decide)]
    have starts : ∀ c ∈ (' ' :: ' ' :: rest.flatMap fun word => word ++ [' ', ' ']).head?,
        isSpace c := by
      intro c first
      rw [← Option.some.inj first]
      decide
    rw [List.flatMap_cons, List.append_assoc, List.cons_append, List.cons_append, List.nil_append,
      words_append_of_head starts, words_word (solid word List.mem_cons_self), blanks,
      ih fun other inside => solid other (List.mem_cons_of_mem _ inside)]
    rfl

end Words

def leftAlign (width : Nat) (word : Text) : Text :=
  word ++ List.replicate (width - word.length) ' '

theorem mem_leftAlign {width : Nat} {word : Text} {c : Char} (inside : c ∈ leftAlign width word) :
    c ∈ word ∨ c = ' ' := by
  rcases List.mem_append.mp inside with own | padding
  · exact .inl own
  · exact .inr (List.mem_replicate.mp padding).2

theorem words_leftAlign {word rest : Text} (isWord : IsWord word) (width : Nat)
    (blank : ∀ c ∈ rest.head?, isSpace c) :
    words (leftAlign width word ++ rest) = word :: words rest := by
  have padding : ∀ c ∈ List.replicate (width - word.length) ' ', isSpace c := by
    intro c inside
    rw [(List.mem_replicate.mp inside).2]
    rfl
  have starts : ∀ c ∈ (List.replicate (width - word.length) ' ').head?, isSpace c :=
    fun c first => padding c (List.mem_of_mem_head? first)
  rw [words_append_of_head blank, leftAlign, words_append_of_head starts, words_word isWord,
    words_spaces padding]
  rfl

/-- How values are printed, and read back. -/
structure Conversion (α : Type) where
  print : α → Text
  read : Text → Option α
  isWord : ∀ value, IsWord (print value)
  read_print : ∀ value, read (print value) = some value

section Conversions

theorem hexDigit_solid {n : Nat} {c : Char} (inside : c ∈ Nat.toDigits 16 n) :
    isSpace c = false := by
  have digits : ∀ d < 16, isSpace d.digitChar = false := by decide
  induction n using Nat.strongRecOn with
  | ind n ih =>
    rw [Nat.toDigits_eq_if (by decide)] at inside
    split at inside
    · next single =>
      rw [List.mem_singleton.mp inside]
      exact digits n single
    · next several =>
      rcases List.mem_append.mp inside with before | last
      · exact ih (n / 16) (Nat.div_lt_self (by omega) (by decide)) before
      · rw [List.mem_singleton.mp last]
        exact digits _ (Nat.mod_lt n (by decide))

-- `%#x`: zero has no prefix.
def altHex (n : Nat) : Text :=
  if n = 0 then ['0'] else '0' :: 'x' :: Nat.toDigits 16 n

def readHex : Text → Option Nat
  | '0' :: 'x' :: digits => Digits.read 16 digits
  | digits => Digits.read 16 digits

theorem altHex_isWord (n : Nat) : IsWord (altHex n) := by
  rw [altHex]
  split
  · exact .of_all (List.cons_ne_nil _ _) (by decide)
  · refine ⟨List.cons_ne_nil _ _, fun c inside => ?_⟩
    rcases List.mem_cons.mp inside with rfl | inside
    · rfl
    rcases List.mem_cons.mp inside with rfl | digit
    · rfl
    · exact hexDigit_solid digit

theorem readHex_altHex (n : Nat) : readHex (altHex n) = some n := by
  rw [altHex]
  split
  · next zero =>
    rw [zero]
    rfl
  · exact Digits.read_toDigits (by decide) (by decide) n

-- `0x%06x` and the like: as many digits as there are, and zeros in front of fewer.
def zeroHex (width n : Nat) : Text :=
  '0' :: 'x' :: (List.replicate (width - (Nat.toDigits 16 n).length) '0' ++ Nat.toDigits 16 n)

theorem zeroHex_isWord (width n : Nat) : IsWord (zeroHex width n) := by
  refine ⟨List.cons_ne_nil _ _, fun c inside => ?_⟩
  rcases List.mem_cons.mp inside with rfl | inside
  · rfl
  rcases List.mem_cons.mp inside with rfl | inside
  · rfl
  rcases List.mem_append.mp inside with zero | digit
  · rw [(List.mem_replicate.mp zero).2]
    rfl
  · exact hexDigit_solid digit

theorem readFrom_zeros (count : Nat) (digits : Text) :
    Digits.readFrom 16 0 (List.replicate count '0' ++ digits) = Digits.readFrom 16 0 digits := by
  induction count with
  | zero => rfl
  | succ count ih => exact ih

theorem readHex_zeroHex (width n : Nat) : readHex (zeroHex width n) = some n := by
  have some_digit : List.replicate (width - (Nat.toDigits 16 n).length) '0' ++ Nat.toDigits 16 n ≠
      [] := by
    intro empty
    exact Nat.toDigits_ne_nil (List.append_eq_nil_iff.mp empty).2
  rw [zeroHex, readHex, Digits.read, if_neg some_digit, readFrom_zeros,
    Digits.readFrom_toDigits (by decide) (by decide)]

theorem toDigits_isWord (n : Nat) : IsWord (Nat.toDigits 10 n) :=
  ⟨Nat.toDigits_ne_nil, fun _ inside => by simpa using digit_solid (digit_of_mem inside)⟩

-- `%d` of an unsigned value shows it as a signed one.
def signed : Conversion UInt32 where
  print value := printInt value.toInt32.toInt
  read text := (PyText.int text).map fun value => (Int32.ofInt value).toUInt32
  isWord value := by
    refine ⟨?_, fun c inside => by simpa using printInt_solid _ c inside⟩
    cases value.toInt32.toInt with
    | ofNat n => exact Nat.toDigits_ne_nil
    | negSucc n => exact List.cons_ne_nil _ _
  read_print value := by
    have bare : PyText.int (printInt value.toInt32.toInt) = some value.toInt32.toInt := by
      have none : ∀ c ∈ ([] : Text), isSpace c := fun c empty => by cases empty
      simpa using PyText.int_printInt none none value.toInt32.toInt
    rw [bare, Option.map_some, Int32.ofInt_toInt, UInt32.toUInt32_toInt32]

def unsigned32 : Conversion UInt32 where
  print value := Nat.toDigits 10 value.toNat
  read text := (Digits.read 10 text).map UInt32.ofNat
  isWord value := toDigits_isWord _
  read_print value := by
    rw [Digits.read_toDigits (by decide) (by decide), Option.map_some, UInt32.ofNat_toNat]

def unsigned64 : Conversion UInt64 where
  print value := Nat.toDigits 10 value.toNat
  read text := (Digits.read 10 text).map UInt64.ofNat
  isWord value := toDigits_isWord _
  read_print value := by
    rw [Digits.read_toDigits (by decide) (by decide), Option.map_some, UInt64.ofNat_toNat]

def hex32 : Conversion UInt32 where
  print value := altHex value.toNat
  read text := (readHex text).map UInt32.ofNat
  isWord value := altHex_isWord _
  read_print value := by rw [readHex_altHex, Option.map_some, UInt32.ofNat_toNat]

def hex64 : Conversion UInt64 where
  print value := altHex value.toNat
  read text := (readHex text).map UInt64.ofNat
  isWord value := altHex_isWord _
  read_print value := by rw [readHex_altHex, Option.map_some, UInt64.ofNat_toNat]

-- `0x%06x`
def zeroHex32 : Conversion UInt32 where
  print value := zeroHex 6 value.toNat
  read text := (readHex text).map UInt32.ofNat
  isWord value := zeroHex_isWord _ _
  read_print value := by rw [readHex_zeroHex, Option.map_some, UInt32.ofNat_toNat]

-- `0x%06llx`
def zeroHex64 : Conversion UInt64 where
  print value := zeroHex 6 value.toNat
  read text := (readHex text).map UInt64.ofNat
  isWord value := zeroHex_isWord _ _
  read_print value := by rw [readHex_zeroHex, Option.map_some, UInt64.ofNat_toNat]

end Conversions

/-- A format: labels with the widths of the fields behind them, and what is after the last one. -/
structure Format where
  cells : List (Text × Nat)
  tail : Text

def printCells : List (Text × Nat) → List Text → Text
  | (label, width) :: cells, word :: fields =>
    label ++ leftAlign width word ++ printCells cells fields
  | _, _ => []

def Format.print (format : Format) (fields : List Text) : Text :=
  printCells format.cells fields ++ format.tail

def readCells : List (Text × Nat) → List Text → Option (List Text × List Text)
  | [], line => some ([], line)
  | (label, _) :: cells, line =>
    if (words label).isPrefixOf line then
      match line.drop (words label).length with
      | [] => none
      | word :: rest => (readCells cells rest).map fun read => (word :: read.1, read.2)
    else none

def Format.read (format : Format) (line : List Text) : Option (List Text) :=
  match readCells format.cells line with
  | some (fields, rest) => if rest = words format.tail then some fields else none
  | none => none

def Format.Proper (format : Format) : Prop :=
  (∀ cell ∈ format.cells, cell.1.getLast? = some ' ' ∧ '\n' ∉ cell.1) ∧
    (∀ cell ∈ format.cells.tail, cell.1.head? = some ' ') ∧
    format.tail.head?.all isSpace = true ∧ '\n' ∉ format.tail

instance (format : Format) : Decidable format.Proper :=
  inferInstanceAs (Decidable (_ ∧ _ ∧ _ ∧ _))

section Formats

variable {format : Format} {fields : List Text}

theorem head_printCells {cells : List (Text × Nat)} {tail : Text}
    (starts : ∀ cell ∈ cells, cell.1.head? = some ' ') (ends : ∀ c ∈ tail.head?, isSpace c)
    (fields : List Text) : ∀ c ∈ (printCells cells fields ++ tail).head?, isSpace c := by
  intro c first
  match cells, fields with
  | [], _ => exact ends c first
  | _ :: _, [] => exact ends c first
  | (label, width) :: cells, word :: fields =>
    have own := starts (label, width) List.mem_cons_self
    obtain ⟨rest, rfl⟩ : ∃ rest, label = ' ' :: rest := by
      cases label with
      | nil => cases own
      | cons d rest => exact ⟨rest, by rw [Option.some.inj own]⟩
    rw [← Option.some.inj first]
    rfl

theorem readCells_printCells {cells : List (Text × Nat)} {tail : Text}
    (labels : ∀ cell ∈ cells, cell.1.getLast? = some ' ')
    (starts : ∀ cell ∈ cells.tail, cell.1.head? = some ' ') (ends : ∀ c ∈ tail.head?, isSpace c)
    (length : fields.length = cells.length) (solid : ∀ word ∈ fields, IsWord word) :
    readCells cells (words (printCells cells fields ++ tail)) = some (fields, words tail) := by
  induction cells generalizing fields with
  | nil =>
    rw [List.length_nil, List.length_eq_zero_iff] at length
    rw [length]
    rfl
  | cons cell cells ih =>
    obtain ⟨label, width⟩ := cell
    obtain ⟨word, fields, rfl⟩ := List.exists_cons_of_length_eq_add_one length
    rw [List.tail_cons] at starts
    have own : label.getLast? = some ' ' := labels (label, width) List.mem_cons_self
    have after := head_printCells starts ends fields
    have rest := ih (fun other inside => labels other (List.mem_cons_of_mem _ inside))
      (fun other inside => starts other (List.mem_of_mem_tail inside)) (Nat.succ.inj length)
      fun other inside => solid other (List.mem_cons_of_mem _ inside)
    have line : words (printCells ((label, width) :: cells) (word :: fields) ++ tail) =
        words label ++ word :: words (printCells cells fields ++ tail) := by
      rw [printCells, List.append_assoc, List.append_assoc, words_append_of_last own,
        words_leftAlign (solid word List.mem_cons_self) width after]
    rw [line, readCells, if_pos (by simp), List.drop_left]
    dsimp only
    rw [rest]
    rfl

theorem Format.read_print (proper : format.Proper) (length : fields.length = format.cells.length)
    (solid : ∀ word ∈ fields, IsWord word) :
    format.read (words (format.print fields)) = some fields := by
  obtain ⟨labels, starts, ends, -⟩ := proper
  have after : ∀ c ∈ format.tail.head?, isSpace c := fun c first => by
    rw [Option.mem_def.mp first] at ends
    exact ends
  rw [Format.read, Format.print,
    readCells_printCells (fun cell inside => (labels cell inside).1) starts after length solid]
  dsimp only
  rw [if_pos rfl]

theorem Format.tag_print {label : Text} {width : Nat} {cells : List (Text × Nat)}
    (first : format.cells = (label, width) :: cells) (blank : label.getLast? = some ' ')
    {tag : Text} (named : (words label).head? = some tag) (some_field : fields ≠ []) :
    (words (format.print fields)).head? = some tag := by
  obtain ⟨word, fields, rfl⟩ := List.exists_cons_of_ne_nil some_field
  obtain ⟨more, begins⟩ := List.head?_eq_some_iff.mp named
  rw [Format.print, first, printCells, List.append_assoc, List.append_assoc,
    words_append_of_last blank, begins]
  rfl

theorem newline_not_mem_printCells {cells : List (Text × Nat)}
    (labels : ∀ cell ∈ cells, '\n' ∉ cell.1) (solid : ∀ word ∈ fields, IsWord word) :
    '\n' ∉ printCells cells fields := by
  induction cells generalizing fields with
  | nil => exact List.not_mem_nil
  | cons cell cells ih =>
    obtain ⟨label, width⟩ := cell
    cases fields with
    | nil => exact List.not_mem_nil
    | cons word fields =>
      intro inside
      rw [printCells, List.append_assoc] at inside
      rcases List.mem_append.mp inside with here | inside
      · exact labels (label, width) List.mem_cons_self here
      rcases List.mem_append.mp inside with field | later
      · rcases mem_leftAlign field with own | blank
        · exact absurd ((solid word List.mem_cons_self).solid _ own) (by decide)
        · exact absurd blank (by decide)
      · exact ih (fun other member => labels other (List.mem_cons_of_mem _ member))
          (fun other member => solid other (List.mem_cons_of_mem _ member)) later

theorem Format.newline_not_mem_print (proper : format.Proper)
    (solid : ∀ word ∈ fields, IsWord word) : '\n' ∉ format.print fields := by
  obtain ⟨labels, -, -, tail⟩ := proper
  intro inside
  rcases List.mem_append.mp inside with cells | after
  · exact newline_not_mem_printCells (fun cell member => (labels cell member).2) solid cells
  · exact tail after

end Formats

def unlines (lines : List Text) : Text :=
  lines.flatMap fun line => line ++ ['\n']

theorem getlines_unlines {lines : List Text} (whole : ∀ line ∈ lines, '\n' ∉ line) :
    getlines (unlines lines) = lines.map fun line => line ++ ['\n'] := by
  induction lines with
  | nil => rfl
  | cons line lines ih =>
    have text : unlines (line :: lines) = line ++ '\n' :: unlines lines := by
      rw [unlines, List.flatMap_cons, List.append_assoc]
      rfl
    rw [text, getlines_cons (whole line List.mem_cons_self), List.map_cons,
      ih fun other inside => whole other (List.mem_cons_of_mem _ inside)]

end Printf
