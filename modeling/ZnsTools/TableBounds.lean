import ZnsTools.Procfs
import ZnsTools.SegmentInfoFile
import ZnsTools.Shared.Metered

set_option autoImplicit false

namespace ZnsTools

open PyText (Text)
open CText (cString getlines strsep)
open Metered (Uses)

-- How many entries a line takes: one for each of its tokens with a bar.
def lineTokens (line : Text) : Nat :=
  ((strsep [' ', '\t'] (cString line)).map fun contents => if '|' ∈ contents then 1 else 0).sum

def fileTokens (contents : Text) : Nat :=
  (((getlines contents).drop 2).map lineTokens).sum

def StaysInTable (procfs : Procfs) (devName : Text) (segmentCountMain : UInt32) : Prop :=
  ∃ success segman, initProcfsSegmentBits procfs devName segmentCountMain
      (callocSegments segmentCountMain) = .ok (success, segman) ∧
    segman.segments.length = segmentCountMain.toNat ∧
    segman.nrSegments ≤ segmentCountMain

def Table (entries : Nat) (segman : SegmentManager) : Prop :=
  segman.segments.length = entries

def taken (segman : SegmentManager) : Nat :=
  segman.nrSegments.toNat

section Token

variable {entries : Nat} {segman next : SegmentManager}

theorem update_ok {write : SegmentInfo → SegmentInfo} (updated : segman.update write = .ok next) :
    taken next = taken segman ∧ next.segments.length = segman.segments.length := by
  rw [SegmentManager.update] at updated
  split at updated
  · cases updated
    exact ⟨rfl, List.length_modify _ _ _⟩
  · cases updated

theorem update_exists (room : taken segman < segman.segments.length)
    (write : SegmentInfo → SegmentInfo) : ∃ next, segman.update write = .ok next :=
  ⟨_, if_pos room⟩

theorem readPieces_ok {setFirst : Bool} {pieces : List Text}
    (read : readPieces setFirst pieces segman = .ok next) :
    taken next = taken segman ∧ next.segments.length = segman.segments.length := by
  induction pieces generalizing setFirst segman with
  | nil =>
    cases read
    exact ⟨rfl, rfl⟩
  | cons splitString rest ih =>
    rw [readPieces] at read
    split at read
    · exact ih read
    · split at read
      all_goals
        obtain ⟨middle, updated, later⟩ := Runs.bind_ok read
        obtain ⟨same, length⟩ := update_ok updated
        rw [← same, ← length]
        exact ih later

theorem readPieces_exists {setFirst : Bool} {pieces : List Text}
    (room : taken segman < segman.segments.length) :
    ∃ next, readPieces setFirst pieces segman = .ok next := by
  induction pieces generalizing setFirst segman with
  | nil => exact ⟨segman, rfl⟩
  | cons splitString rest ih =>
    have later : ∀ write flag, ∃ next,
        (segman.update write >>= readPieces flag rest) = .ok next := by
      intro write flag
      obtain ⟨middle, updated⟩ := update_exists room write
      obtain ⟨same, length⟩ := update_ok updated
      rw [updated, Runs.ok_bind]
      exact ih (by omega)
    rw [readPieces]
    split
    · exact ih room
    · split
      · exact later _ true
      · exact later _ setFirst

theorem readContents_uses (small : entries < 2 ^ 32) (contents : Text)
    (table : Table entries segman) (inside : taken segman ≤ entries) :
    Uses (Table entries) taken entries (if '|' ∈ contents then 1 else 0) segman
      (readContents segman contents) := by
  rw [Table] at table
  by_cases bar : '|' ∈ contents
  · rw [readContents, if_pos bar, if_pos bar]
    constructor
    · intro room
      obtain ⟨read, pieces⟩ := @readPieces_exists segman false (strsep ['|'] contents) (by omega)
      obtain ⟨same, length⟩ := readPieces_ok pieces
      obtain ⟨last, numbered⟩ := @update_exists read (by omega)
        fun segI => { segI with id := read.nrSegments }
      obtain ⟨kept, still⟩ := update_ok numbered
      have next : (last.nrSegments + 1).toNat = taken segman + 1 := by
        rw [UInt32.toNat_add, UInt32.toNat_one]
        change (taken last + 1) % 2 ^ 32 = _
        omega
      rw [pieces, Runs.ok_bind, numbered]
      exact ⟨_, rfl, still.trans (length.trans table), next⟩
    · intro full
      cases read : readPieces false (strsep ['|'] contents) segman with
      | error e => exact ⟨e, rfl⟩
      | ok middle =>
        obtain ⟨same, length⟩ := readPieces_ok read
        have refused : ¬ middle.nrSegments.toNat < middle.segments.length := by
          change ¬ taken middle < _
          omega
        exact ⟨.badAccess, by rw [Runs.ok_bind, SegmentManager.update, if_neg refused]; rfl⟩
  · rw [readContents_plain bar, if_neg bar]
    exact .idle table inside

theorem readLine_uses (small : entries < 2 ^ 32) (line : Text) (table : Table entries segman)
    (inside : taken segman ≤ entries) :
    Uses (Table entries) taken entries (lineTokens line) segman (readLine segman line) :=
  .foldlM (fun _ => readContents_uses small) _ table inside

theorem readLines_uses {highestSegment : UInt32} (lines : List Text)
    (table : Table highestSegment.toNat segman) (inside : taken segman ≤ highestSegment.toNat) :
    Uses (Table highestSegment.toNat) taken highestSegment.toNat (lines.map lineTokens).sum segman
      (readLines highestSegment 2 lines segman) := by
  induction lines generalizing segman with
  | nil => exact .idle table inside
  | cons line rest ih =>
    rw [List.map_cons, List.sum_cons, readLines, if_neg (by decide)]
    refine (readLine_uses highestSegment.toNat_lt line table inside).bind ?_
    intro middle kept within
    have goesOn : ¬ highestSegment < middle.nrSegments := by
      rw [UInt32.lt_iff_toNat_lt]
      exact Nat.not_lt.mpr within
    rw [if_neg goesOn]
    exact ih kept within

end Token

theorem readLines_headers (highestSegment : UInt32) (lines : List Text) (segman : SegmentManager) :
    readLines highestSegment 0 lines segman =
      readLines highestSegment 2 (lines.drop 2) segman := by
  match lines with
  | [] => rfl
  | [_] => rfl
  | _ :: _ :: _ => rfl

/-- The table is never left exactly when the file lists no more segments than were allocated. -/
theorem procfs_table_bounds_iff (procfs : Procfs) (devName : Text) (segmentCountMain : UInt32)
    (short : devName.length < maxDevName) :
    StaysInTable procfs devName segmentCountMain ↔
      ∀ contents, procfs (segmentInfoPath devName) = some contents →
        fileTokens contents ≤ segmentCountMain.toNat := by
  have allocated : Table segmentCountMain.toNat (callocSegments segmentCountMain) :=
    List.length_replicate
  have empty : taken (callocSegments segmentCountMain) = 0 := rfl
  rw [StaysInTable, initProcfsSegmentBits, if_neg (Nat.not_le.mpr (segmentInfoPath_short short))]
  cases file : procfs (segmentInfoPath devName) with
  | none =>
    have untouched : (callocSegments segmentCountMain).nrSegments ≤ segmentCountMain :=
      UInt32.zero_le
    exact iff_of_true ⟨false, _, rfl, allocated, untouched⟩ (by simp)
  | some contents =>
    have uses := readLines_uses ((getlines contents).drop 2) allocated (Nat.zero_le _)
    have total : taken (callocSegments segmentCountMain) +
        (((getlines contents).drop 2).map lineTokens).sum = fileTokens contents := by
      rw [empty, Nat.zero_add, fileTokens]
    rw [← readLines_headers] at uses
    constructor
    · rintro ⟨success, segman, done, -⟩ _ ⟨⟩
      obtain ⟨read, lines, -⟩ := Runs.bind_ok done
      rw [← total]
      exact uses.ok_iff.mp ⟨read, lines⟩
    · intro room
      have fits := room contents rfl
      obtain ⟨segman, lines, table, count⟩ := uses.fits (by omega)
      refine ⟨true, segman, ?_, table, ?_⟩
      · dsimp only
        rw [lines]
        rfl
      · rw [UInt32.le_iff_toNat_le]
        change taken segman ≤ _
        omega

def rowsOfOne (rows : Nat) : Text :=
  ['f', '\n', 'h', '\n'] ++ (List.replicate rows ['0', ' ', '3', '|', '1', '\n']).flatten

def onlyFile (contents : Text) : Procfs := fun path =>
  if path = segmentInfoPath ['s', 'd', 'a'] then some contents else none

-- After the first row the table of one entry is full, but not yet more than full.
theorem second_row_outside :
    onlyFile (rowsOfOne 2) (segmentInfoPath ['s', 'd', 'a']) = some (rowsOfOne 2) ∧
      ¬ StaysInTable (onlyFile (rowsOfOne 2)) ['s', 'd', 'a'] 1 := by
  have file : onlyFile (rowsOfOne 2) (segmentInfoPath ['s', 'd', 'a']) = some (rowsOfOne 2) :=
    if_pos rfl
  have failed : readLines 1 0 (getlines (rowsOfOne 2)) (callocSegments 1) = .error .badAccess := by
    decide
  refine ⟨file, ?_⟩
  rintro ⟨success, segman, done, -⟩
  rw [initProcfsSegmentBits, if_neg (by decide), file] at done
  dsimp only at done
  rw [failed] at done
  cases done

theorem one_row_inside : StaysInTable (onlyFile (rowsOfOne 1)) ['s', 'd', 'a'] 1 := by
  refine (procfs_table_bounds_iff _ ['s', 'd', 'a'] 1 (by decide)).mpr ?_
  intro contents file
  have same : rowsOfOne 1 = contents := Option.some.inj ((if_pos rfl).symm.trans file)
  rw [← same]
  decide

end ZnsTools
