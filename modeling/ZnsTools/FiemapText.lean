import ZnsTools.FiemapLines
import ZnsTools.Shared.NamedBits
import ZnsTools.Shared.Printf

set_option autoImplicit false

namespace ZnsTools

-- The report of zns.fiemap as the text that is printed, line by line without the line feeds, and
-- what can be read back from it.

open PyText (Text)
open Printf

def zoneFormat : Format where
  cells := [("============ ZONE ".toList, 0)]
  tail := " ============".toList

def zoneInfoFormat : Format where
  cells := [("LBAS: ".toList, 0), ("  LBAE: ".toList, 0), ("  CAP: ".toList, 0),
    ("  WP: ".toList, 0), ("  SIZE: ".toList, 0), ("  STATE: ".toList, 4), ("  MASK: ".toList, 0)]
  tail := []

def ZoneHeading.printed (heading : ZoneHeading) : List Text :=
  [[], zoneFormat.print [signed.print heading.zone],
    zoneInfoFormat.print [zeroHex64.print heading.lbas, zeroHex64.print heading.lbae,
      zeroHex64.print heading.cap, zeroHex64.print heading.wp, zeroHex64.print heading.size,
      hex32.print heading.state, zeroHex32.print heading.mask]]

def extentFormat : Format where
  cells := [("EXTID: ".toList, 4), ("  PBAS: ".toList, 10), ("  PBAE: ".toList, 10),
    ("  SIZE: ".toList, 10)]
  tail := []

def FiemapExtentLine.printed (line : FiemapExtentLine) : Text :=
  extentFormat.print [signed.print line.extId, hex64.print line.pbas, hex64.print line.pbae,
    hex64.print line.size]

def holeFormat (leading : Bool) : Format where
  cells := [(if leading then "---- HOLE:    PBAS: ".toList else "--- HOLE:    PBAS: ".toList, 10),
    ("  PBAE: ".toList, 10), ("  SIZE: ".toList, 10)]
  tail := []

def FiemapHole.printed (hole : FiemapHole) : Text :=
  (holeFormat hole.leading).print [hex64.print hole.pbas, hex64.print hole.pbae,
    hex64.print hole.size]

def printedFlags (names : List String) : Text :=
  "|--- FLAGS:  ".toList ++ (names.map String.toList).flatMap fun name => name ++ [' ', ' ']

def rule (c : Char) (length : Nat) : Text :=
  List.replicate length c

def FiemapLine.printed : FiemapLine → Text
  | .holeFormatter => rule '-' 105
  | .hole found => found.printed
  | .extent line => line.printed
  | .flags names => printedFlags names

def printedHeading : Line → List Text
  | .zone heading => heading.printed
  | _ => []

def FiemapBlock.printed (block : FiemapBlock) : List Text :=
  block.heading.flatMap printedHeading ++ [[]] ++ block.lines.map FiemapLine.printed

-- `%f` of a value that is not negative.
def fixed (value : ℚ) : Text :=
  let millionths := (Binary64.roundHalfEven (value * 10 ^ 6)).toNat
  let fraction := Nat.toDigits 10 (millionths % 10 ^ 6)
  Nat.toDigits 10 (millionths / 10 ^ 6) ++ '.' :: (List.replicate (6 - fraction.length) '0' ++ fraction)

def totalsFormat : Format where
  cells := [("NOE: ".toList, 4), ("  TES: ".toList, 10), ("  AES: ".toList, 10),
    ("  EAES: ".toList, 10), ("  NOZ: ".toList, 4)]
  tail := []

def holeTotalsFormat : Format where
  cells := [("NOH: ".toList, 4), ("  THS: ".toList, 10), ("  AHS: ".toList, 10),
    ("  EAHS: ".toList, 10)]
  tail := []

def HoleStats.printed : HoleStats → List Text
  | .off => []
  | .empty => ["NOH: 0".toList]
  | .summary noh ths ahs eahs =>
    [holeTotalsFormat.print [unsigned32.print noh, hex64.print ths, hex64.print ahs, fixed eahs]]

def FiemapStats.printed (stats : FiemapStats) : List Text :=
  [[], totalsFormat.print [unsigned64.print stats.noe, hex64.print stats.tes, hex64.print stats.aes,
    fixed stats.eaes, unsigned32.print stats.noz]] ++ stats.holes.printed

def FiemapReport.printed (report : FiemapReport) : List Text :=
  [rule '=' 68, "\t\t\tEXTENT MAPPINGS".toList, rule '=' 68] ++
    report.blocks.flatMap FiemapBlock.printed ++
    [[], [], rule '=' 68, "\t\t\tSTATS SUMMARY".toList, rule '=' 68] ++ report.stats.printed

def FiemapReport.text (report : FiemapReport) : Text :=
  unlines report.printed

inductive PrintedEntry where
  | zone (number : UInt32)
  | extent (line : FiemapExtentLine)
  | flags (names : List Text)
  deriving DecidableEq, Repr

def readZone (line : List Text) : Option PrintedEntry :=
  match zoneFormat.read line with
  | some [number] => (signed.read number).map .zone
  | _ => none

def readExtent (line : List Text) : Option PrintedEntry :=
  match extentFormat.read line with
  | some [extId, pbas, pbae, size] => do
    pure (.extent ⟨← signed.read extId, ← hex64.read pbas, ← hex64.read pbae, ← hex64.read size⟩)
  | _ => none

def readEntry (line : List Text) : Option PrintedEntry :=
  match line.head? with
  | none => none
  | some tag =>
    if tag = "============".toList then readZone line
    else if tag = "EXTID:".toList then readExtent line
    else if tag = "|---".toList then some (.flags (line.drop 2))
    else none

def lineEntry (line : Text) : Option PrintedEntry :=
  readEntry (words line)

def readEntries (text : Text) : List PrintedEntry :=
  (CText.getlines text).filterMap lineEntry

structure ReadExtent where
  zone : UInt32
  line : FiemapExtentLine
  flags : UInt32
  deriving DecidableEq, Repr

-- The zone whose extents come, and the extents read, the last one first.
structure Reader where
  zone : UInt32
  found : List ReadExtent

def flagTexts : List (UInt32 × Text) :=
  flagNames.map (Prod.map id String.toList)

def Reader.enter (reader : Reader) : PrintedEntry → Reader
  | .zone number => { reader with zone := number }
  | .extent line => { reader with found := ⟨reader.zone, line, 0⟩ :: reader.found }
  | .flags names =>
    match reader.found with
    | [] => reader
    | last :: before =>
      { reader with found := { last with flags := NamedBits.decode flagTexts names } :: before }

def readFiemap (text : Text) : List ReadExtent :=
  ((readEntries text).foldl Reader.enter ⟨0, []⟩).found.reverse

section Lines

theorem extentFormat_proper : extentFormat.Proper := by
  decide

theorem holeFormat_proper (leading : Bool) : (holeFormat leading).Proper := by
  cases leading <;> decide

theorem zoneFormat_proper : zoneFormat.Proper := by
  decide

theorem zoneInfoFormat_proper : zoneInfoFormat.Proper := by
  decide

theorem lineEntry_extent (line : FiemapExtentLine) :
    lineEntry line.printed = some (.extent line) := by
  have isWord : ∀ word ∈ [signed.print line.extId, hex64.print line.pbas, hex64.print line.pbae,
      hex64.print line.size], IsWord word := by
    simp [Conversion.isWord]
  have tag : (words line.printed).head? = some "EXTID:".toList :=
    Format.tag_print rfl rfl (by decide) (List.cons_ne_nil _ _)
  have fields := Format.read_print extentFormat_proper rfl isWord
  rw [lineEntry, readEntry, tag]
  dsimp only
  rw [if_neg (by decide), if_pos rfl, readExtent, FiemapExtentLine.printed, fields]
  simp [Conversion.read_print]

theorem lineEntry_zone (number : UInt32) :
    lineEntry (zoneFormat.print [signed.print number]) = some (.zone number) := by
  have isWord : ∀ word ∈ [signed.print number], IsWord word := by
    simp [Conversion.isWord]
  have tag : (words (zoneFormat.print [signed.print number])).head? =
      some "============".toList :=
    Format.tag_print rfl rfl (by decide) (List.cons_ne_nil _ _)
  have fields := Format.read_print zoneFormat_proper rfl isWord
  rw [lineEntry, readEntry, tag]
  dsimp only
  rw [if_pos rfl, readZone, fields]
  simp [Conversion.read_print]

def passedOver (tag : Text) : Bool :=
  tag != "============".toList && tag != "EXTID:".toList && tag != "|---".toList

theorem lineEntry_other {line tag : Text} (first : (words line).head? = some tag)
    (other : passedOver tag = true) : lineEntry line = none := by
  simp only [passedOver, Bool.and_eq_true, bne_iff_ne, ne_eq] at other
  rw [lineEntry, readEntry, first]
  dsimp only
  rw [if_neg other.1.1, if_neg other.1.2, if_neg other.2]

theorem lineEntry_hole (hole : FiemapHole) : lineEntry hole.printed = none := by
  obtain ⟨leading, pbas, pbae, size⟩ := hole
  cases leading with
  | false =>
    have named : (words "--- HOLE:    PBAS: ".toList).head? = some "---".toList := by decide
    exact lineEntry_other (Format.tag_print rfl rfl named (List.cons_ne_nil _ _)) (by decide)
  | true =>
    have named : (words "---- HOLE:    PBAS: ".toList).head? = some "----".toList := by decide
    exact lineEntry_other (Format.tag_print rfl rfl named (List.cons_ne_nil _ _)) (by decide)

theorem lineEntry_zoneInfo (fields : List Text) (some_field : fields ≠ []) :
    lineEntry (zoneInfoFormat.print fields) = none := by
  have named : (words "LBAS: ".toList).head? = some "LBAS:".toList := by decide
  exact lineEntry_other (Format.tag_print rfl rfl named some_field) (by decide)

theorem lineEntry_totals (fields : List Text) (some_field : fields ≠ []) :
    lineEntry (totalsFormat.print fields) = none := by
  have named : (words "NOE: ".toList).head? = some "NOE:".toList := by decide
  exact lineEntry_other (Format.tag_print rfl rfl named some_field) (by decide)

theorem lineEntry_holeTotals (fields : List Text) (some_field : fields ≠ []) :
    lineEntry (holeTotalsFormat.print fields) = none := by
  have named : (words "NOH: ".toList).head? = some "NOH:".toList := by decide
  exact lineEntry_other (Format.tag_print rfl rfl named some_field) (by decide)

theorem flagTexts_proper : NamedBits.Proper flagTexts where
  single := by decide
  distinct := by decide

theorem flagTexts_isWord : ∀ flag ∈ flagTexts, IsWord flag.2 := by
  have all : flagTexts.all (fun flag => !flag.2.isEmpty && flag.2.all fun c =>
      !PyText.isSpace c) = true := by
    decide
  intro flag inside
  have word := List.all_eq_true.mp all flag inside
  simp only [Bool.and_eq_true] at word
  exact .of_all (by simpa using word.1) word.2

theorem lineEntry_flags (flags : UInt32) :
    lineEntry (showExtentFlags flags).printed =
      some (.flags (NamedBits.shown flagTexts flags)) := by
  have names : (NamedBits.shown flagNames flags).map String.toList =
      NamedBits.shown flagTexts flags :=
    (NamedBits.shown_map String.toList flagNames flags).symm
  have solid : ∀ word ∈ NamedBits.shown flagTexts flags, IsWord word := by
    intro word inside
    obtain ⟨flag, listed, rfl⟩ := List.mem_map.mp inside
    exact flagTexts_isWord flag (List.mem_filter.mp listed).1
  have label : words "|--- FLAGS:  ".toList = ["|---".toList, "FLAGS:".toList] := by decide
  have line : words (showExtentFlags flags).printed =
      "|---".toList :: "FLAGS:".toList :: NamedBits.shown flagTexts flags := by
    have text : (showExtentFlags flags).printed = "|--- FLAGS:  ".toList ++
        ((NamedBits.shown flagNames flags).map String.toList).flatMap
          fun name => name ++ [' ', ' '] := rfl
    rw [text, names, words_append_of_last (by decide), words_flatMap solid, label]
    rfl
  rw [lineEntry, line, readEntry]
  rfl

end Lines

def entriesOf (lines : List Text) : List PrintedEntry :=
  lines.filterMap lineEntry

def shownExtent (opts : FiemapOptions) (e : Extent) : ReadExtent where
  zone := e.zone
  line := ⟨e.extNr + 1, e.phyBlk, e.pbae, e.len⟩
  flags := if opts.showFlags then e.flags &&& NamedBits.mask flagTexts else 0

section Zones

variable {opts : FiemapOptions}

def printedLines (lines : List FiemapLine) : List PrintedEntry :=
  entriesOf (lines.map FiemapLine.printed)

theorem printedLines_append (front back : List FiemapLine) :
    printedLines (front ++ back) = printedLines front ++ printedLines back := by
  rw [printedLines, List.map_append, entriesOf, List.filterMap_append]
  rfl

theorem printedLines_holeLines (hole : Option FiemapHole) : printedLines (holeLines hole) = [] := by
  have formatter : lineEntry (rule '-' 105) = none := by decide
  cases hole with
  | none => rfl
  | some hole =>
    have lines : printedLines (holeLines (some hole)) =
        [rule '-' 105, hole.printed, rule '-' 105].filterMap lineEntry := rfl
    rw [lines, List.filterMap_cons_none formatter, List.filterMap_cons_none (lineEntry_hole hole),
      List.filterMap_cons_none formatter, List.filterMap_nil]

theorem foldl_extentLines (e : Extent) {reader : Reader} (own : reader.zone = e.zone) :
    (printedLines (fiemapExtentLines opts e)).foldl Reader.enter reader =
      ⟨e.zone, shownExtent opts e :: reader.found⟩ := by
  have line : lineEntry (FiemapLine.extent ⟨e.extNr + 1, e.phyBlk, e.pbae, e.len⟩).printed = _ :=
    lineEntry_extent _
  rw [fiemapExtentLines, shownExtent, printedLines, entriesOf, List.map_cons,
    List.filterMap_cons_some line, List.foldl_cons, Reader.enter, own]
  split
  · next flagged =>
    simp only [Bool.and_eq_true] at flagged
    have flags := lineEntry_flags e.flags
    rw [List.map_singleton, List.filterMap_cons_some flags, List.filterMap_nil, List.foldl_cons,
      List.foldl_nil, Reader.enter, NamedBits.decode_shown flagTexts_proper, if_pos flagged.2]
  · next plain =>
    rw [List.map_nil, List.filterMap_nil, List.foldl_nil]
    split
    · next shown =>
      have none : e.flags = 0 := by simpa [shown] using plain
      rw [none, UInt32.zero_and]
    · rfl

theorem foldl_linesAfter (extents : List Extent) (prev : Extent) {reader : Reader}
    (own : ∀ e ∈ extents, e.zone = reader.zone) :
    (printedLines (linesAfter opts prev extents)).foldl Reader.enter reader =
      ⟨reader.zone, (extents.map (shownExtent opts)).reverse ++ reader.found⟩ := by
  induction extents generalizing prev reader with
  | nil =>
    rw [linesAfter, printedLines_holeLines]
    rfl
  | cons e rest ih =>
    have here := own e List.mem_cons_self
    rw [linesAfter, printedLines_append, printedLines_append, printedLines_holeLines,
      List.nil_append, List.foldl_append, foldl_extentLines e here.symm,
      ih e fun other inside => (own other (List.mem_cons_of_mem _ inside)).trans here.symm, here,
      List.map_cons, List.reverse_cons, List.append_assoc]
    rfl

theorem foldl_zoneLines (lower : Bool) (extents : List Extent) {reader : Reader}
    (own : ∀ e ∈ extents, e.zone = reader.zone) :
    (printedLines (zoneLines opts lower extents)).foldl Reader.enter reader =
      ⟨reader.zone, (extents.map (shownExtent opts)).reverse ++ reader.found⟩ := by
  cases extents with
  | nil => rfl
  | cons e rest =>
    have here := own e List.mem_cons_self
    rw [zoneLines, printedLines_append, printedLines_append, printedLines_holeLines,
      List.nil_append, List.foldl_append, foldl_extentLines e here.symm,
      foldl_linesAfter rest e fun other inside =>
        (own other (List.mem_cons_of_mem _ inside)).trans here.symm, here,
      List.map_cons, List.reverse_cons, List.append_assoc]
    rfl

end Zones

section Blocks

variable {cfg : Config} {dev : Device} {opts : FiemapOptions} {zonemap : ZoneMap}

theorem fiemapZones_headings (opens : ∀ sector, dev sector ≠ .openFailed) {number : Nat}
    {zones : List Zone} {state final : FiemapState} {blocks : List FiemapBlock}
    (result : fiemapZones cfg dev opts number zones state = .ok (final, blocks)) :
    ∀ block ∈ blocks, ∃ heading, block.heading = [.zone heading] ∧ heading.zone = block.zone := by
  induction zones generalizing number state blocks with
  | nil =>
    cases result
    exact fun block none => by cases none
  | cons zone rest ih =>
    rw [fiemapZones] at result
    split at result
    · exact ih result
    · obtain ⟨lines, printed, result⟩ := Runs.bind_ok result
      dsimp only at result
      obtain ⟨⟨last, others⟩, tail, result⟩ := Runs.bind_ok result
      cases result
      intro block member
      rcases List.mem_cons.mp member with rfl | later
      · rw [printZoneInfo] at printed
        cases answer : dev (cfg.zoneSectors * number.toUInt32.toUInt64) with
        | openFailed => exact absurd answer (opens _)
        | ioctlFailed => simp [answer] at printed
        | zone report =>
          rw [answer] at printed
          cases printed
          exact ⟨_, rfl, rfl⟩
      · exact ih tail block later

theorem entriesOf_append (front back : List Text) :
    entriesOf (front ++ back) = entriesOf front ++ entriesOf back :=
  List.filterMap_append

theorem entriesOf_heading (heading : ZoneHeading) :
    entriesOf (heading.printed ++ [[]]) = [.zone heading.zone] := by
  have empty : lineEntry [] = none := by decide
  rw [ZoneHeading.printed, entriesOf_append, entriesOf, List.filterMap_cons_none empty,
    List.filterMap_cons_some (lineEntry_zone heading.zone),
    List.filterMap_cons_none (lineEntry_zoneInfo _ (List.cons_ne_nil _ _)), List.filterMap_nil,
    entriesOf, List.filterMap_cons_none empty]
  rfl

theorem foldl_blocks {blocks : List FiemapBlock} {numbered : List (Zone × Nat)}
    (lines : blocks.map (fun block => (block.zone, block.lines)) =
      numbered.map fun numbered => (numbered.2.toUInt32, blockLines opts zonemap numbered))
    (headings : ∀ block ∈ blocks, ∃ heading, block.heading = [.zone heading] ∧
      heading.zone = block.zone)
    (own : ∀ pair ∈ numbered, ∀ e ∈ pair.1.extents, e.zone = pair.2.toUInt32) (reader : Reader) :
    ((entriesOf (blocks.flatMap FiemapBlock.printed)).foldl Reader.enter reader).found =
      ((numbered.flatMap fun pair => pair.1.extents).map (shownExtent opts)).reverse ++
        reader.found := by
  induction blocks generalizing numbered reader with
  | nil =>
    rw [List.map_nil] at lines
    rw [List.map_eq_nil_iff.mp lines.symm]
    rfl
  | cons block rest ih =>
    cases numbered with
    | nil => cases lines
    | cons pair others =>
      rw [List.map_cons, List.map_cons, List.cons.injEq, Prod.mk.injEq] at lines
      obtain ⟨⟨number, shown⟩, later⟩ := lines
      obtain ⟨heading, above, named⟩ := headings block List.mem_cons_self
      have text : block.printed = heading.printed ++ [[]] ++ block.lines.map FiemapLine.printed := by
        rw [FiemapBlock.printed, above]
        rfl
      have entries : entriesOf block.printed =
          .zone pair.2.toUInt32 :: printedLines (blockLines opts zonemap pair) := by
        rw [text, entriesOf_append, entriesOf_heading, named, number, ← shown]
        rfl
      have here : (entriesOf block.printed).foldl Reader.enter reader =
          ⟨pair.2.toUInt32, (pair.1.extents.map (shownExtent opts)).reverse ++ reader.found⟩ := by
        rw [entries, List.foldl_cons, Reader.enter]
        exact foldl_zoneLines _ pair.1.extents (own pair List.mem_cons_self)
      rw [List.flatMap_cons, entriesOf_append, List.foldl_append, here,
        ih later (fun other inside => headings other (List.mem_cons_of_mem _ inside))
          fun other inside => own other (List.mem_cons_of_mem _ inside),
        List.flatMap_cons, List.map_append, List.reverse_append, List.append_assoc]

end Blocks

section Whole

variable {opts : FiemapOptions} {zonemap : ZoneMap}

theorem fixed_isWord (value : ℚ) : IsWord (fixed value) := by
  have digits : ∀ n, ∀ c ∈ Nat.toDigits 10 n, PyText.isSpace c = false :=
    fun n => (toDigits_isWord n).solid
  rw [fixed]
  refine ⟨List.append_ne_nil_of_right_ne_nil _ (List.cons_ne_nil _ _), fun c inside => ?_⟩
  rcases List.mem_append.mp inside with whole | inside
  · exact digits _ c whole
  rcases List.mem_cons.mp inside with rfl | inside
  · decide
  rcases List.mem_append.mp inside with zero | fraction
  · rw [(List.mem_replicate.mp zero).2]
    decide
  · exact digits _ c fraction

theorem entriesOf_stats (stats : FiemapStats) : entriesOf stats.printed = [] := by
  have empty : lineEntry [] = none := by decide
  have holes : entriesOf stats.holes.printed = [] := by
    cases stats.holes with
    | off => rfl
    | empty => decide
    | summary noh ths ahs eahs =>
      exact List.filterMap_cons_none (lineEntry_holeTotals _ (List.cons_ne_nil _ _))
  rw [FiemapStats.printed, entriesOf_append, holes, entriesOf, List.filterMap_cons_none empty,
    List.filterMap_cons_none (lineEntry_totals _ (List.cons_ne_nil _ _))]
  rfl

theorem entriesOf_printed (report : FiemapReport) :
    entriesOf report.printed = entriesOf (report.blocks.flatMap FiemapBlock.printed) := by
  have above : entriesOf [rule '=' 68, "\t\t\tEXTENT MAPPINGS".toList, rule '=' 68] = [] := by
    decide
  have below : entriesOf [[], [], rule '=' 68, "\t\t\tSTATS SUMMARY".toList, rule '=' 68] = [] := by
    decide
  rw [FiemapReport.printed, entriesOf_append, entriesOf_append, entriesOf_append, above, below,
    entriesOf_stats, List.append_nil, List.append_nil, List.nil_append]

-- The lines of a zone are lines.

theorem newline_heading (heading : ZoneHeading) : ∀ line ∈ heading.printed, '\n' ∉ line := by
  have number : ∀ word ∈ [signed.print heading.zone], IsWord word := by
    simp [Conversion.isWord]
  have info : ∀ word ∈ [zeroHex64.print heading.lbas, zeroHex64.print heading.lbae,
      zeroHex64.print heading.cap, zeroHex64.print heading.wp, zeroHex64.print heading.size,
      hex32.print heading.state, zeroHex32.print heading.mask], IsWord word := by
    simp [Conversion.isWord]
  rw [ZoneHeading.printed, List.forall_mem_cons, List.forall_mem_cons, List.forall_mem_singleton]
  exact ⟨List.not_mem_nil, Format.newline_not_mem_print zoneFormat_proper number,
    Format.newline_not_mem_print zoneInfoFormat_proper info⟩

theorem newline_hole (hole : FiemapHole) : '\n' ∉ hole.printed := by
  have solid : ∀ word ∈ [hex64.print hole.pbas, hex64.print hole.pbae, hex64.print hole.size],
      IsWord word := by
    simp [Conversion.isWord]
  exact Format.newline_not_mem_print (holeFormat_proper hole.leading) solid

theorem newline_extent (line : FiemapExtentLine) : '\n' ∉ line.printed := by
  have solid : ∀ word ∈ [signed.print line.extId, hex64.print line.pbas, hex64.print line.pbae,
      hex64.print line.size], IsWord word := by
    simp [Conversion.isWord]
  exact Format.newline_not_mem_print extentFormat_proper solid

theorem newline_flags (flags : UInt32) : '\n' ∉ (showExtentFlags flags).printed := by
  have names : ∀ flag ∈ flagNames, '\n' ∉ flag.2.toList ++ [' ', ' '] := by decide
  intro inside
  rcases List.mem_append.mp inside with label | inside
  · exact absurd label (by decide)
  · obtain ⟨text, listed, here⟩ := List.mem_flatMap.mp inside
    obtain ⟨name, named, rfl⟩ := List.mem_map.mp listed
    obtain ⟨flag, set, rfl⟩ := List.mem_map.mp named
    exact names flag (List.mem_filter.mp set).1 here

theorem newline_holeLines (hole : Option FiemapHole) :
    ∀ line ∈ holeLines hole, '\n' ∉ line.printed := by
  have formatter : '\n' ∉ rule '-' 105 := by decide
  cases hole with
  | none => exact fun line none => by cases none
  | some hole =>
    rw [holeLines, List.forall_mem_cons, List.forall_mem_cons, List.forall_mem_singleton]
    exact ⟨formatter, newline_hole hole, formatter⟩

theorem newline_extentLines (opts : FiemapOptions) (e : Extent) :
    ∀ line ∈ fiemapExtentLines opts e, '\n' ∉ line.printed := by
  rw [fiemapExtentLines, List.forall_mem_cons]
  refine ⟨newline_extent _, ?_⟩
  split
  · rw [List.forall_mem_singleton]
    exact newline_flags e.flags
  · exact fun line none => by cases none

theorem newline_linesAfter (prev : Extent) (extents : List Extent) :
    ∀ line ∈ linesAfter opts prev extents, '\n' ∉ line.printed := by
  induction extents generalizing prev with
  | nil => exact newline_holeLines _
  | cons e rest ih =>
    rw [linesAfter, List.forall_mem_append, List.forall_mem_append]
    exact ⟨⟨newline_holeLines _, newline_extentLines opts e⟩, ih e⟩

theorem newline_zoneLines (lower : Bool) (extents : List Extent) :
    ∀ line ∈ zoneLines opts lower extents, '\n' ∉ line.printed := by
  cases extents with
  | nil => exact fun line none => by cases none
  | cons e rest =>
    rw [zoneLines, List.forall_mem_append, List.forall_mem_append]
    exact ⟨⟨newline_holeLines _, newline_extentLines opts e⟩, newline_linesAfter e rest⟩

theorem newline_stats (stats : FiemapStats) : ∀ line ∈ stats.printed, '\n' ∉ line := by
  have totals : ∀ word ∈ [unsigned64.print stats.noe, hex64.print stats.tes,
      hex64.print stats.aes, fixed stats.eaes, unsigned32.print stats.noz], IsWord word := by
    simp [Conversion.isWord, fixed_isWord]
  rw [FiemapStats.printed, List.forall_mem_append, List.forall_mem_cons, List.forall_mem_singleton]
  refine ⟨⟨List.not_mem_nil, Format.newline_not_mem_print (by decide) totals⟩, ?_⟩
  cases stats.holes with
  | off => exact fun line none => by cases none
  | empty => decide
  | summary noh ths ahs eahs =>
    have solid : ∀ word ∈ [unsigned32.print noh, hex64.print ths, hex64.print ahs, fixed eahs],
        IsWord word := by
      simp [Conversion.isWord, fixed_isWord]
    rw [HoleStats.printed, List.forall_mem_singleton]
    exact Format.newline_not_mem_print (by decide) solid

theorem readEntries_unlines {lines : List Text} (whole : ∀ line ∈ lines, '\n' ∉ line) :
    readEntries (unlines lines) = entriesOf lines := by
  have read : (fun line => lineEntry (line ++ ['\n'])) = lineEntry := by
    funext line
    rw [lineEntry, words_newline]
    rfl
  rw [readEntries, getlines_unlines whole, List.filterMap_map, entriesOf]
  exact congrArg (List.filterMap · lines) read

end Whole

theorem printFiemapReport_blocks {cfg : Config} {dev : Device} {opts : FiemapOptions}
    {zonemap : ZoneMap} {report : FiemapReport}
    (printed : printFiemapReport cfg dev opts zonemap = .ok report) : ∃ state,
      fiemapZones cfg dev opts 0 zonemap.zones FiemapState.start = .ok (state, report.blocks) ∧
      fiemapStats opts zonemap state = .ok report.stats := by
  obtain ⟨⟨state, blocks⟩, mappings, printed⟩ := Runs.bind_ok printed
  obtain ⟨stats, totals, printed⟩ := Runs.bind_ok printed
  cases printed
  exact ⟨state, mappings, totals⟩

section ReadBack

variable {cfg : Config} {events : List Event} {m : Machine} {dev : Device} {opts : FiemapOptions}
  {report : FiemapReport}

theorem newline_printed {zonemap : ZoneMap} {numbered : List (Zone × Nat)}
    (lines : report.blocks.map (fun block => (block.zone, block.lines)) =
      numbered.map fun numbered => (numbered.2.toUInt32, blockLines opts zonemap numbered)) :
    ∀ line ∈ report.printed, '\n' ∉ line := by
  have rules : ∀ line ∈ [rule '=' 68, "\t\t\tEXTENT MAPPINGS".toList, rule '=' 68],
      '\n' ∉ line := by decide
  have between : ∀ line ∈ [[], [], rule '=' 68, "\t\t\tSTATS SUMMARY".toList, rule '=' 68],
      '\n' ∉ line := by decide
  rw [FiemapReport.printed, List.forall_mem_append, List.forall_mem_append, List.forall_mem_append]
  refine ⟨⟨⟨rules, fun line inside => ?_⟩, between⟩, newline_stats _⟩
  obtain ⟨block, member, here⟩ := List.mem_flatMap.mp inside
  rw [FiemapBlock.printed, List.append_assoc] at here
  rcases List.mem_append.mp here with heading | here
  · obtain ⟨above, -, text⟩ := List.mem_flatMap.mp heading
    cases above with
    | zone heading => exact newline_heading heading line text
    | _ => cases text
  rcases List.mem_append.mp here with empty | below
  · rw [List.mem_singleton.mp empty]
    exact List.not_mem_nil
  · obtain ⟨shown, listed, rfl⟩ := List.mem_map.mp below
    have pair := List.mem_map_of_mem (f := fun block => (block.zone, block.lines)) member
    rw [lines] at pair
    obtain ⟨zone, -, same⟩ := List.mem_map.mp pair
    rw [← (Prod.mk.inj same).2] at listed
    exact newline_zoneLines _ _ shown listed

theorem numbered_own (run : collect cfg events = .ok m) :
    ∀ pair ∈ m.ctrl.zonemap.numbered, ∀ e ∈ pair.1.extents, e.zone = pair.2.toUInt32 := by
  obtain ⟨listed, length⟩ := collect_listed run
  intro pair member e inside
  have filed := listed.filed _ _ (ZoneMap.mem_numbered member).1 e inside
  have below := ZoneMap.numbered_lt member
  have small := UInt32.toNat_lt cfg.znsdev.nrZones
  have number : pair.2.toUInt32.toNat = pair.2 := Nat.mod_eq_of_lt (by omega)
  rw [← UInt32.toNat_inj, filed, number]

theorem numbered_flatMap {zonemap : ZoneMap}
    (counted : ∀ zone ∈ zonemap.zones, zone.extentCtr.toNat = zone.extents.length) :
    (zonemap.numbered.flatMap fun pair => pair.1.extents) = zonemap.extents := by
  have scanned := scannedOf_flatten counted
  rw [List.flatMap_def, ZoneMap.numbered_scanned]
  exact scanned

end ReadBack

/-- The text of the report is read back as the extents that were accepted, zone by zone in the
order of their blocks: each with its zone, its number, its range and, where they are shown, the
flags that have names. -/
theorem fiemap_text_read_back (cfg : Config) (dev : Device) (opts : FiemapOptions)
    (events : List Event) (m : Machine) (run : collect cfg events = .ok m)
    (few : m.accepted.length < 2 ^ 32) (opens : ∀ sector, dev sector ≠ .openFailed)
    (report : FiemapReport)
    (printed : printFiemapReport cfg dev opts m.ctrl.zonemap = .ok report) :
    readFiemap report.text = m.ctrl.zonemap.extents.map (shownExtent opts) ∧
      (readFiemap report.text).Perm (m.accepted.map (shownExtent opts)) := by
  obtain ⟨state, zones, -⟩ := printFiemapReport_blocks printed
  obtain ⟨listed, length⟩ := collect_listed run
  have consistent := collect_zonemap run few
  have small : m.ctrl.zonemap.zones.length < 2 ^ 32 := by
    rw [length]
    exact UInt32.toNat_lt _
  have lines : report.blocks.map (fun block => (block.zone, block.lines)) =
      m.ctrl.zonemap.numbered.map
        fun numbered => (numbered.2.toUInt32, blockLines opts m.ctrl.zonemap numbered) :=
    (fiemapZones_ok listed (List.nil_append _).symm small ⟨rfl, fun p found => by cases found⟩
      zones).1
  have entries : readEntries report.text =
      entriesOf (report.blocks.flatMap FiemapBlock.printed) := by
    rw [FiemapReport.text, readEntries_unlines (newline_printed lines), entriesOf_printed]
  have read : readFiemap report.text = m.ctrl.zonemap.extents.map (shownExtent opts) := by
    rw [readFiemap, entries, foldl_blocks lines (fiemapZones_headings opens zones)
      (numbered_own run), numbered_flatMap consistent.counted, List.append_nil,
      List.reverse_reverse]
  exact ⟨read, read ▸ consistent.complete.map _⟩

def eightSegments : Config :=
  segmapConfig 512 0 16384 2 (List.replicate 8 ⟨0, .cursegWarmData, 512⟩)

def oneInEachZone : List Event :=
  mapFile eightSegments [97] 16 [⟨0, 8392704, 4096, 0x1000⟩, ⟨4096, 8192, 4096, fiemapExtentLast⟩]

theorem oneInEachZone_printed : ∃ m report,
    collect eightSegments oneInEachZone = .ok m ∧
    printFiemapReport eightSegments (fullZones eightSegments) ⟨true, true⟩ m.ctrl.zonemap =
      .ok report ∧
    m.accepted.length = 2 ∧ m.accepted.map (shownExtent ⟨true, true⟩) =
      [⟨1, ⟨1, 16392, 16400, 8⟩, 0x1000⟩, ⟨0, ⟨2, 16, 24, 8⟩, 0⟩] := by
  have checked : (collect eightSegments oneInEachZone).map (fun m =>
      (m.accepted.length, m.accepted.map (shownExtent ⟨true, true⟩), (printFiemapReport
        eightSegments (fullZones eightSegments) ⟨true, true⟩ m.ctrl.zonemap).isOk)) =
      .ok (2, [⟨1, ⟨1, 16392, 16400, 8⟩, 0x1000⟩, ⟨0, ⟨2, 16, 24, 8⟩, 0⟩], true) := by
    decide +kernel
  obtain ⟨m, run, outcome⟩ := Runs.map_ok checked
  simp only [Prod.mk.injEq] at outcome
  obtain ⟨two, shown, printed⟩ := outcome
  cases result : printFiemapReport eightSegments (fullZones eightSegments) ⟨true, true⟩
      m.ctrl.zonemap with
  | error abort => simp [result, Except.isOk, Except.toBool] at printed
  | ok report => exact ⟨m, report, run, result, two, shown⟩

theorem two_extents_read_back : ∃ m report,
    collect eightSegments oneInEachZone = .ok m ∧
    printFiemapReport eightSegments (fullZones eightSegments) ⟨true, true⟩ m.ctrl.zonemap =
      .ok report ∧
    (readFiemap report.text).Perm
      [⟨1, ⟨1, 16392, 16400, 8⟩, 0x1000⟩, ⟨0, ⟨2, 16, 24, 8⟩, 0⟩] := by
  obtain ⟨m, report, run, printed, two, shown⟩ := oneInEachZone_printed
  have read := fiemap_text_read_back eightSegments (fullZones eightSegments) ⟨true, true⟩ _ m run
    (by omega) (fun sector => by rintro ⟨⟩) report printed
  exact ⟨m, report, run, printed, shown ▸ read.2⟩

end ZnsTools
