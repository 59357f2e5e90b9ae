import ZnsTools.Procfs
import ZnsTools.Shared.Runs

set_option autoImplicit false

namespace ZnsTools

open PyText (Text digit_of_mem not_mem_toDigits)
open CText

-- The file as the kernel prints it: segments by type and number of valid blocks.

def separators : List Char := [' ', '\t']

def segmentToken (segment : Nat × Nat) : Text :=
  Nat.toDigits 10 segment.1 ++ '|' :: Nat.toDigits 10 segment.2

/-- A row of at most ten tokens, each behind some separators, with the index in front. -/
structure SegmentRow where
  before : Text
  index : Nat
  tokens : List (Text × Nat × Nat)
  after : Text
  few : tokens.length ≤ 10
  margins : ∀ c ∈ before ++ after, c ∈ separators
  pads : ∀ token ∈ tokens, token.1 ≠ [] ∧ ∀ c ∈ token.1, c ∈ separators

def tokensText (tokens : List (Text × Nat × Nat)) (after : Text) : Text :=
  tokens.flatMap (fun token => token.1 ++ segmentToken token.2) ++ after

def SegmentRow.text (row : SegmentRow) : Text :=
  row.before ++ (Nat.toDigits 10 row.index ++ tokensText row.tokens row.after)

def SegmentRow.segments (row : SegmentRow) : List (Nat × Nat) :=
  row.tokens.map Prod.snd

def segmentInfoText (first second : Text) (rows : List SegmentRow) : Text :=
  first ++ '\n' :: (second ++ '\n' :: rows.flatMap fun row => row.text ++ ['\n'])

def Kernel (segments : List (Nat × Nat)) : Prop :=
  ∀ segment ∈ segments, segment.1 ≤ 5 ∧ segment.2 ≤ 512

instance (segments : List (Nat × Nat)) : Decidable (Kernel segments) :=
  inferInstanceAs (Decidable (∀ _ ∈ _, _))

def decoded (id : Nat) (segment : Nat × Nat) : SegmentInfo :=
  ⟨id.toUInt32, .ofInt (Int32.ofNat segment.1), segment.2.toUInt32⟩

def emptySegment : SegmentInfo :=
  ⟨0, .cursegHotData, 0⟩

def filled (count : Nat) (segments : List (Nat × Nat)) : SegmentManager :=
  ⟨segments.length.toUInt32,
    segments.mapIdx decoded ++ List.replicate (count - segments.length) emptySegment⟩

section Characters

theorem separator_plain {c : Char} (separator : c ∈ separators) :
    ¬ c.isDigit ∧ c ≠ '|' ∧ c ≠ '\n' ∧ c ≠ '\x00' := by
  rw [separators, List.mem_cons, List.mem_singleton] at separator
  rcases separator with rfl | rfl <;> decide

theorem toDigits_separate (n : Nat) : ∀ c ∈ Nat.toDigits 10 n, c ∉ separators :=
  fun _ inside separator => (separator_plain separator).1 (digit_of_mem inside)

theorem segmentToken_separate (segment : Nat × Nat) : ∀ c ∈ segmentToken segment, c ∉ separators := by
  intro c inside
  rcases List.mem_append.mp inside with digit | rest
  · exact toDigits_separate _ c digit
  · rcases List.mem_cons.mp rest with rfl | digit
    · decide
    · exact toDigits_separate _ c digit

theorem tokensText_characters {tokens : List (Text × Nat × Nat)} {after : Text}
    (pads : ∀ token ∈ tokens, ∀ c ∈ token.1, c ∈ separators) (margin : ∀ c ∈ after, c ∈ separators) :
    ∀ c ∈ tokensText tokens after, c ∈ separators ∨ c.isDigit ∨ c = '|' := by
  intro c inside
  rcases List.mem_append.mp inside with inside | inside
  · obtain ⟨token, member, inside⟩ := List.mem_flatMap.mp inside
    rcases List.mem_append.mp inside with pad | inside
    · exact .inl (pads token member c pad)
    · rcases List.mem_append.mp inside with digit | inside
      · exact .inr (.inl (digit_of_mem digit))
      · rcases List.mem_cons.mp inside with bar | digit
        · exact .inr (.inr bar)
        · exact .inr (.inl (digit_of_mem digit))
  · exact .inl (margin c inside)

theorem SegmentRow.characters (row : SegmentRow) :
    ∀ c ∈ row.text, c ∈ separators ∨ c.isDigit ∨ c = '|' := by
  intro c inside
  rcases List.mem_append.mp inside with before | inside
  · exact .inl (row.margins c (List.mem_append_left _ before))
  · rcases List.mem_append.mp inside with digit | inside
    · exact .inr (.inl (digit_of_mem digit))
    · exact tokensText_characters (fun token member => (row.pads token member).2)
        (fun c inside => row.margins c (List.mem_append_right _ inside)) c inside

theorem SegmentRow.plain (row : SegmentRow) : '\n' ∉ row.text ∧ '\x00' ∉ row.text := by
  have other : ∀ c : Char, c ∉ separators → ¬ c.isDigit → c ≠ '|' → c ∉ row.text := by
    intro c noSeparator noDigit noBar inside
    rcases row.characters c inside with separator | digit | bar
    · exact noSeparator separator
    · exact noDigit digit
    · exact noBar bar
  exact ⟨other _ (by decide) (by decide) (by decide), other _ (by decide) (by decide) (by decide)⟩

end Characters

section Entry

variable {nrSegments : UInt32} {front back : List SegmentInfo} {segI : SegmentInfo}

theorem update_entry (write : SegmentInfo → SegmentInfo)
    (next : nrSegments.toNat = front.length) :
    SegmentManager.update ⟨nrSegments, front ++ segI :: back⟩ write =
      .ok ⟨nrSegments, front ++ write segI :: back⟩ := by
  have inside : nrSegments.toNat < (front ++ segI :: back).length := by
    rw [next, List.length_append, List.length_cons]
    omega
  rw [SegmentManager.update, if_pos inside, next, List.modify_eq_take_drop, List.take_left,
    List.drop_left]
  rfl

theorem bar_not_mem (n : Nat) : '|' ∉ Nat.toDigits 10 n :=
  not_mem_toDigits (by decide) n

theorem readPieces_token (next : nrSegments.toNat = front.length) {segment : Nat × Nat}
    (small : segment.1 ≤ 5 ∧ segment.2 ≤ 512) {suffix : Text} (newline : ∀ c ∈ suffix, c = '\n') :
    readPieces false (strsep ['|'] (segmentToken segment ++ suffix))
        ⟨nrSegments, front ++ segI :: back⟩ =
      .ok ⟨nrSegments, front ++ { segI with
        type := .ofInt (Int32.ofNat segment.1)
        validBlocks := segment.2.toUInt32 } :: back⟩ := by
  have bare : '|' ∉ Nat.toDigits 10 segment.2 ++ suffix := by
    intro inside
    rcases List.mem_append.mp inside with digit | rest
    · exact bar_not_mem _ digit
    · exact absurd (newline _ rest) (by decide)
  have plain : ∀ {text : Text}, '|' ∉ text → ∀ c ∈ text, c ∉ ['|'] := by
    intro text absent c inside bar
    exact absent (List.mem_singleton.mp bar ▸ inside)
  have pieces : strsep ['|'] (segmentToken segment ++ suffix) =
      [Nat.toDigits 10 segment.1, Nat.toDigits 10 segment.2 ++ suffix] := by
    rw [segmentToken, List.append_assoc, List.cons_append,
      strsep_cons (plain (bar_not_mem _)) (by decide), strsep_single (plain bare)]
  have other : ∀ {text : Text}, '|' ∉ text → text ≠ ['|'] := by
    intro text absent same
    exact absent (same ▸ List.mem_singleton_self _)
  have type : atoi (Nat.toDigits 10 segment.1) = Int32.ofNat segment.1 := by
    rw [← List.append_nil (Nat.toDigits 10 segment.1)]
    exact atoi_toDigits (by omega) (by simp)
  have validBlocks : atoi (Nat.toDigits 10 segment.2 ++ suffix) = Int32.ofNat segment.2 := by
    apply atoi_toDigits (by omega)
    intro c first
    rw [newline c (List.mem_of_head? first)]
    decide
  rw [pieces, readPieces, if_neg (other (bar_not_mem _)), if_pos (by decide), type,
    update_entry _ next, Runs.ok_bind, readPieces, if_neg (other bare), if_neg (by decide),
    validBlocks, update_entry _ next]
  rfl

theorem readContents_plain {segman : SegmentManager} {contents : Text} (bare : '|' ∉ contents) :
    readContents segman contents = .ok segman :=
  if_neg bare

end Entry

section Rows

variable {count : Nat} {segments : List (Nat × Nat)}

theorem filled_nrSegments (small : count < 2 ^ 32) (inside : segments.length ≤ count) :
    (filled count segments).nrSegments.toNat = segments.length :=
  Nat.mod_eq_of_lt (Nat.lt_of_le_of_lt inside small)

theorem readContents_token (small : count < 2 ^ 32) (room : segments.length < count)
    {segment : Nat × Nat} (known : segment.1 ≤ 5 ∧ segment.2 ≤ 512) {suffix : Text}
    (newline : ∀ c ∈ suffix, c = '\n') :
    readContents (filled count segments) (segmentToken segment ++ suffix) =
      .ok (filled count (segments ++ [segment])) := by
  have next : segments.length.toUInt32.toNat = (segments.mapIdx decoded).length := by
    rw [List.length_mapIdx]
    exact filled_nrSegments small (Nat.le_of_lt room)
  obtain ⟨free, rest⟩ : ∃ free, count - segments.length = free + 1 :=
    ⟨count - segments.length - 1, by omega⟩
  have left : count - (segments ++ [segment]).length = free := by
    rw [List.length_append, List.length_singleton]
    omega
  have bar : '|' ∈ segmentToken segment ++ suffix := by simp [segmentToken]
  rw [filled, filled, rest, left, List.replicate_succ, List.mapIdx_concat, List.append_assoc,
    List.length_append, readContents, if_pos bar, readPieces_token next known newline, Runs.ok_bind,
    update_entry _ next]
  have increment : segments.length.toUInt32 + 1 = (segments.length + 1).toUInt32 :=
    (UInt32.ofNat_add _ _).symm
  change Except.ok _ = Except.ok _
  rw [List.length_singleton, ← increment]
  rfl

theorem foldlM_separator {c : Char} (separator : c ∈ separators) (text : Text)
    (segman : SegmentManager) :
    (strsep separators (c :: text)).foldlM readContents segman =
      (strsep separators text).foldlM readContents segman := by
  rw [strsep_delim separator, List.foldlM_cons, readContents_plain (by simp)]
  rfl

theorem foldlM_padding {pad : Text} (blank : ∀ c ∈ pad, c ∈ separators) (text : Text)
    (segman : SegmentManager) :
    (strsep separators (pad ++ text)).foldlM readContents segman =
      (strsep separators text).foldlM readContents segman := by
  induction pad with
  | nil => rfl
  | cons c pad ih =>
    have ⟨first, later⟩ := List.forall_mem_cons.mp blank
    rw [List.cons_append, foldlM_separator first, ih later]

theorem foldlM_token {token text : Text} (solid : ∀ c ∈ token, c ∉ separators)
    (ends : text = [] ∨ ∃ c ∈ text.head?, c ∈ separators) {segman next : SegmentManager}
    (read : ∀ suffix : Text, (∀ c ∈ suffix, c = '\n') →
      readContents segman (token ++ suffix) = .ok next) :
    (strsep separators (token ++ (text ++ ['\n']))).foldlM readContents segman =
      (strsep separators (text ++ ['\n'])).foldlM readContents next := by
  have newline : ∀ c ∈ ['\n'], c ∉ separators := List.forall_mem_singleton.mpr (by decide)
  rcases ends with rfl | ⟨c, first, separator⟩
  · have whole : ∀ c ∈ token ++ ['\n'], c ∉ separators := List.forall_mem_append.mpr ⟨solid, newline⟩
    rw [List.nil_append, strsep_single whole, strsep_single newline, List.foldlM_cons,
      read _ (by simp), Runs.ok_bind, List.foldlM_cons, readContents_plain (by decide)]
    rfl
  · obtain ⟨rest, rfl⟩ : ∃ rest, text = c :: rest := List.head?_eq_some_iff.mp first
    have own := read [] (by simp)
    rw [List.append_nil] at own
    rw [List.cons_append, strsep_cons solid separator, List.foldlM_cons, own, Runs.ok_bind,
      foldlM_separator separator]

theorem tokensText_ends {tokens : List (Text × Nat × Nat)} {after : Text}
    (pads : ∀ token ∈ tokens, token.1 ≠ [] ∧ ∀ c ∈ token.1, c ∈ separators)
    (margin : ∀ c ∈ after, c ∈ separators) :
    tokensText tokens after = [] ∨ ∃ c ∈ (tokensText tokens after).head?, c ∈ separators := by
  cases tokens with
  | nil =>
    cases after with
    | nil => exact .inl rfl
    | cons c rest => exact .inr ⟨c, rfl, margin c List.mem_cons_self⟩
  | cons token rest =>
    have ⟨some_blank, blank⟩ := pads token List.mem_cons_self
    obtain ⟨c, pad, same⟩ := List.exists_cons_of_ne_nil some_blank
    refine .inr ⟨c, ?_, blank c (same ▸ List.mem_cons_self)⟩
    simp [tokensText, same]

theorem foldlM_tokens (small : count < 2 ^ 32) {tokens : List (Text × Nat × Nat)} {after : Text}
    (pads : ∀ token ∈ tokens, token.1 ≠ [] ∧ ∀ c ∈ token.1, c ∈ separators)
    (margin : ∀ c ∈ after, c ∈ separators)
    (room : segments.length + tokens.length ≤ count) (known : Kernel (tokens.map Prod.snd)) :
    (strsep separators (tokensText tokens after ++ ['\n'])).foldlM readContents
        (filled count segments) =
      .ok (filled count (segments ++ tokens.map Prod.snd)) := by
  induction tokens generalizing segments with
  | nil =>
    have newline : ∀ c ∈ ['\n'], c ∉ separators := List.forall_mem_singleton.mpr (by decide)
    rw [tokensText, List.flatMap_nil, List.nil_append, foldlM_padding margin,
      strsep_single newline, List.foldlM_cons, readContents_plain (by decide), List.map_nil,
      List.append_nil]
    rfl
  | cons token rest ih =>
    have ⟨first, later⟩ := List.forall_mem_cons.mp pads
    have ⟨own, others⟩ := List.forall_mem_cons.mp known
    rw [List.length_cons] at room
    have text : tokensText (token :: rest) after ++ ['\n'] =
        token.1 ++ (segmentToken token.2 ++ (tokensText rest after ++ ['\n'])) := by
      simp [tokensText]
    have tail := @ih (segments ++ [token.2]) later (by simp; omega) others
    rw [text, foldlM_padding first.2, foldlM_token (segmentToken_separate token.2)
      (tokensText_ends later margin) fun suffix newline =>
        readContents_token small (by omega) own newline, tail]
    simp

theorem readLine_row (small : count < 2 ^ 32) (row : SegmentRow)
    (room : segments.length + row.segments.length ≤ count) (known : Kernel row.segments) :
    readLine (filled count segments) (row.text ++ ['\n']) =
      .ok (filled count (segments ++ row.segments)) := by
  have nul : '\x00' ∉ row.text ++ ['\n'] := by simp [row.plain.2]
  have margin : ∀ c ∈ row.after, c ∈ separators := fun c inside =>
    row.margins c (List.mem_append_right _ inside)
  have ends := tokensText_ends row.pads margin
  have read : ∀ suffix : Text, (∀ c ∈ suffix, c = '\n') →
      readContents (filled count segments) (Nat.toDigits 10 row.index ++ suffix) =
        .ok (filled count segments) := by
    intro suffix newline
    apply readContents_plain
    intro bar
    rcases List.mem_append.mp bar with digit | rest
    · exact bar_not_mem _ digit
    · exact absurd (newline _ rest) (by decide)
  rw [SegmentRow.segments, List.length_map] at room
  change (strsep separators _).foldlM _ _ = _
  rw [cString_of_not_mem nul, SegmentRow.text, List.append_assoc, List.append_assoc,
    foldlM_padding (fun c inside => row.margins c (List.mem_append_left _ inside)),
    foldlM_token (toDigits_separate row.index) ends read,
    foldlM_tokens small row.pads margin room known]
  rfl

theorem readLines_rows {highestSegment : UInt32} {rows : List SegmentRow}
    (room : segments.length + (rows.flatMap SegmentRow.segments).length ≤ highestSegment.toNat)
    (known : Kernel (rows.flatMap SegmentRow.segments)) :
    readLines highestSegment 2 (rows.map fun row => row.text ++ ['\n'])
        (filled highestSegment.toNat segments) =
      .ok (filled highestSegment.toNat (segments ++ rows.flatMap SegmentRow.segments)) := by
  induction rows generalizing segments with
  | nil =>
    rw [List.flatMap_nil, List.append_nil]
    rfl
  | cons row rest ih =>
    rw [List.flatMap_cons, List.length_append] at room
    have ⟨own, others⟩ := List.forall_mem_append.mp known
    have small := highestSegment.toNat_lt
    have read : readLine (filled highestSegment.toNat segments) (row.text ++ ['\n']) = _ :=
      readLine_row small row (by omega) own
    have tail := @ih (segments ++ row.segments) (by rw [List.length_append]; omega) others
    have within : ¬ highestSegment <
        (filled highestSegment.toNat (segments ++ row.segments)).nrSegments := by
      rw [UInt32.lt_iff_toNat_lt, filled_nrSegments small (by rw [List.length_append]; omega),
        List.length_append]
      omega
    rw [List.map_cons, readLines, if_neg (by decide), read, Runs.ok_bind, if_neg within, tail,
      List.flatMap_cons, List.append_assoc]

end Rows

theorem getlines_rows (rows : List SegmentRow) :
    getlines (rows.flatMap fun row => row.text ++ ['\n']) =
      rows.map fun row => row.text ++ ['\n'] := by
  induction rows with
  | nil => rfl
  | cons row rest ih =>
    rw [List.flatMap_cons, List.append_assoc, List.singleton_append, getlines_cons row.plain.1, ih]
    rfl

theorem readLines_file {highestSegment : UInt32} {first second : Text} {rows : List SegmentRow}
    (headers : '\n' ∉ first ∧ '\n' ∉ second)
    (room : (rows.flatMap SegmentRow.segments).length ≤ highestSegment.toNat)
    (known : Kernel (rows.flatMap SegmentRow.segments)) :
    readLines highestSegment 0 (getlines (segmentInfoText first second rows))
        (callocSegments highestSegment) =
      .ok (filled highestSegment.toNat (rows.flatMap SegmentRow.segments)) := by
  have start : callocSegments highestSegment = filled highestSegment.toNat [] := rfl
  have body : readLines highestSegment 2 (rows.map fun row => row.text ++ ['\n'])
      (filled highestSegment.toNat []) = _ := readLines_rows (by simpa using room) known
  rw [segmentInfoText, getlines_cons headers.1, getlines_cons headers.2, getlines_rows, start,
    readLines, if_pos (by decide), readLines, if_pos (by decide), body, List.nil_append]

theorem segmentInfoPath_short {devName : Text} (short : devName.length < maxDevName) :
    (segmentInfoPath devName).length < pathBytes := by
  have piece : ((strsep ['/'] devName).getLastD []).length ≤ devName.length := by
    rw [List.getLastD_eq_getLast?]
    cases last : (strsep ['/'] devName).getLast? with
    | none => exact Nat.zero_le _
    | some token => exact strsep_length _ (List.mem_of_getLast? last)
  have front : procfsDirectory.length = 14 := by decide
  have back : segmentInfoName.length = 13 := by decide
  rw [maxDevName] at short
  rw [segmentInfoPath, pathBytes, List.length_append, List.length_append, front, back]
  omega

/-- If the kernel lists as many segments as the main area has, they are all read back, in order. -/
theorem procfs_segments_decoded (procfs : Procfs) (devName first second : Text)
    (segmentCountMain : UInt32) (rows : List SegmentRow) (segments : List (Nat × Nat))
    (short : devName.length < maxDevName) (headers : '\n' ∉ first ∧ '\n' ∉ second)
    (file : procfs (segmentInfoPath devName) = some (segmentInfoText first second rows))
    (listed : rows.flatMap SegmentRow.segments = segments)
    (whole : segments.length = segmentCountMain.toNat) (known : Kernel segments) :
    ∃ segman : SegmentManager, initProcfsSegmentBits procfs devName segmentCountMain
        (callocSegments segmentCountMain) = .ok (true, segman) ∧
      f2fsFsManagerInit procfs devName segmentCountMain = .ok (some segman) ∧
      segman.nrSegments.toNat = segments.length ∧
      segman.segments.length = segments.length ∧
      ∀ (i : Nat) segment, segments[i]? = some segment → segman.segments[i]? = some
        ⟨i.toUInt32, .ofInt (Int32.ofNat segment.1), segment.2.toUInt32⟩ := by
  subst listed
  have read := readLines_file headers (Nat.le_of_eq whole) known
  have init : initProcfsSegmentBits procfs devName segmentCountMain
      (callocSegments segmentCountMain) =
        .ok (true, filled segmentCountMain.toNat (rows.flatMap SegmentRow.segments)) := by
    rw [initProcfsSegmentBits, if_neg (Nat.not_le.mpr (segmentInfoPath_short short)), file]
    dsimp only
    rw [read]
    rfl
  have entries : (filled segmentCountMain.toNat (rows.flatMap SegmentRow.segments)).segments =
      (rows.flatMap SegmentRow.segments).mapIdx decoded := by
    rw [filled, whole, Nat.sub_self, List.replicate_zero, List.append_nil]
  refine ⟨_, init, ?_, filled_nrSegments segmentCountMain.toNat_lt (Nat.le_of_eq whole), ?_, ?_⟩
  · rw [f2fsFsManagerInit, init]
    rfl
  · rw [entries, List.length_mapIdx]
  · intro i segment found
    rw [entries, List.getElem?_mapIdx, found]
    rfl

-- Eleven segments. The first row ends with blanks, and the last token of the file in its newline.
def elevenSegments : List SegmentRow :=
  [⟨[], 0, (List.replicate 9 ' ', 3, 1) :: List.replicate 9 ([' ', ' ', ' '], 0, 0), [' ', ' '],
      by decide, by simp [separators], by simp [separators]⟩,
    ⟨[], 10, [(List.replicate 8 ' ', 1, 512)], [], by decide, by simp, by simp [separators]⟩]

theorem eleven_segments_decoded :
    let procfs : Procfs := fun path =>
      if path = segmentInfoPath ['s', 'd', 'a'] then
        some (segmentInfoText ['f', 'o', 'r', 'm', 'a', 't', ':'] ['(', '0', ')'] elevenSegments)
      else none
    ∃ segman : SegmentManager, f2fsFsManagerInit procfs ['s', 'd', 'a'] 11 = .ok (some segman) ∧
      segman.nrSegments = 11 ∧ segman.segments[0]? = some ⟨0, .cursegHotNode, 1⟩ ∧
      segman.segments[10]? = some ⟨10, .cursegWarmData, 512⟩ := by
  intro procfs
  obtain ⟨segman, -, init, count, -, entries⟩ := procfs_segments_decoded procfs ['s', 'd', 'a'] _ _ 11
    elevenSegments _ (by decide) (by decide) (if_pos rfl) rfl (by decide) (by decide)
  refine ⟨segman, init, UInt32.toNat_inj.mp count, ?_, ?_⟩
  · exact entries 0 (3, 1) rfl
  · exact entries 10 (1, 512) rfl

end ZnsTools
