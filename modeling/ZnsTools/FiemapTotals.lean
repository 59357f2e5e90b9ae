import ZnsTools.FiemapText

set_option autoImplicit false

namespace ZnsTools

-- The summary below the report of zns.fiemap against the lines above it.

def FiemapLine.extent? : FiemapLine → Option FiemapExtentLine
  | .extent line => some line
  | _ => none

def extentsIn (lines : List FiemapLine) : List FiemapExtentLine :=
  lines.filterMap FiemapLine.extent?

def FiemapReport.extents (report : FiemapReport) : List FiemapExtentLine :=
  report.blocks.flatMap fun block => extentsIn block.lines

def FiemapReport.holes (report : FiemapReport) : List FiemapHole :=
  report.blocks.flatMap fun block => holesIn block.lines

def HoleStats.Sums (opts : FiemapOptions) (holes : List FiemapHole) : HoleStats → Prop
  | .off => opts.showHoles = false ∧ holes = []
  | .empty => opts.showHoles = true ∧ holes.length % 2 ^ 32 = 0
  | .summary noh ths ahs _ => opts.showHoles = true ∧ noh.toNat = holes.length % 2 ^ 32 ∧
      ths.toNat = totalSize holes % 2 ^ 64 ∧ ahs.toNat = ths.toNat / noh.toNat

/-- The summary is that of the extents and of the holes that are printed. -/
structure FiemapReport.AddsUp (opts : FiemapOptions) (report : FiemapReport) : Prop where
  noe : report.stats.noe.toNat = report.extents.length
  tes : report.stats.tes.toNat = (report.extents.map fun line => line.size.toNat).sum % 2 ^ 64
  aes : report.stats.aes.toNat = report.stats.tes.toNat / report.stats.noe.toNat
  holes : report.stats.holes.Sums opts report.holes

section Lines

variable {opts : FiemapOptions}

@[simp] theorem extentsIn_append (front back : List FiemapLine) :
    extentsIn (front ++ back) = extentsIn front ++ extentsIn back :=
  List.filterMap_append

@[simp] theorem extentsIn_holeLines (hole : Option FiemapHole) :
    extentsIn (holeLines hole) = [] := by
  cases hole <;> rfl

@[simp] theorem extentsIn_extentLines (e : Extent) :
    extentsIn (fiemapExtentLines opts e) = [⟨e.extNr + 1, e.phyBlk, e.pbae, e.len⟩] := by
  rw [fiemapExtentLines]
  split <;> rfl

def extentLineOf (e : Extent) : FiemapExtentLine :=
  ⟨e.extNr + 1, e.phyBlk, e.pbae, e.len⟩

theorem extentsIn_linesAfter (prev : Extent) (extents : List Extent) :
    extentsIn (linesAfter opts prev extents) = extents.map extentLineOf := by
  induction extents generalizing prev with
  | nil => simp [linesAfter]
  | cons e rest ih => simp [linesAfter, ih, extentLineOf]

theorem extentsIn_zoneLines (lower : Bool) (extents : List Extent) :
    extentsIn (zoneLines opts lower extents) = extents.map extentLineOf := by
  cases extents with
  | nil => rfl
  | cons e rest => simp [zoneLines, extentsIn_linesAfter, extentLineOf]

theorem holesIn_linesAfter_off (off : opts.showHoles = false) (prev : Extent)
    (extents : List Extent) : holesIn (linesAfter opts prev extents) = [] := by
  induction extents generalizing prev with
  | nil => simp [linesAfter, trailingHole, off]
  | cons e rest ih => simp [linesAfter, gapHole, off, ih]

theorem holesIn_zoneLines_off (off : opts.showHoles = false) (lower : Bool)
    (extents : List Extent) : holesIn (zoneLines opts lower extents) = [] := by
  cases extents with
  | nil => rfl
  | cons e rest => simp [zoneLines, headHole, off, holesIn_linesAfter_off off]

end Lines

section Totals

variable {cfg : Config} {dev : Device} {opts : FiemapOptions} {zonemap : ZoneMap}
  {report : FiemapReport}

def PrintsZones (opts : FiemapOptions) (zonemap : ZoneMap) (blocks : List FiemapBlock) : Prop :=
  blocks.map (fun block => (block.zone, block.lines)) =
    zonemap.numbered.map fun numbered => (numbered.2.toUInt32, blockLines opts zonemap numbered)

theorem PrintsZones.flatMap {β : Type} {blocks : List FiemapBlock} (prints : PrintsZones opts zonemap blocks)
    (f : List FiemapLine → List β) :
    (blocks.flatMap fun block => f block.lines) =
      zonemap.numbered.flatMap fun numbered => f (blockLines opts zonemap numbered) := by
  have lines := congrArg (List.flatMap fun pair => f pair.2) prints
  rwa [List.flatMap_map, List.flatMap_map] at lines

theorem PrintsZones.extents {blocks : List FiemapBlock} (prints : PrintsZones opts zonemap blocks)
    (counted : ∀ zone ∈ zonemap.zones, zone.extentCtr.toNat = zone.extents.length) :
    (blocks.flatMap fun block => extentsIn block.lines) = zonemap.extents.map extentLineOf := by
  rw [prints.flatMap extentsIn, ← numbered_flatMap counted, List.map_flatMap]
  exact List.flatMap_congr fun numbered _ => extentsIn_zoneLines _ _

theorem PrintsZones.holes_off {blocks : List FiemapBlock} (prints : PrintsZones opts zonemap blocks)
    (off : opts.showHoles = false) : (blocks.flatMap fun block => holesIn block.lines) = [] := by
  rw [prints.flatMap holesIn, List.flatMap_eq_nil_iff]
  exact fun numbered _ => holesIn_zoneLines_off off _ _

theorem holeStats_sums {state : FiemapState} {holes : List FiemapHole}
    (off : opts.showHoles = false → holes = []) (count : state.holeCtr = UInt32.ofNat holes.length)
    (size : state.holeCumSize = UInt64.ofNat (totalSize holes)) :
    (fiemapHoleStats opts state).Sums opts holes := by
  have number : state.holeCtr.toNat = holes.length % 2 ^ 32 := by
    rw [count, UInt32.toNat_ofNat']
  have total : state.holeCumSize.toNat = totalSize holes % 2 ^ 64 := by
    rw [size, UInt64.toNat_ofNat']
  rw [fiemapHoleStats]
  split
  · next hidden =>
    have none : opts.showHoles = false := by simpa using hidden
    exact ⟨none, off none⟩
  · next shown =>
    have on : opts.showHoles = true := by simpa using shown
    split
    · next empty =>
      refine ⟨on, ?_⟩
      rw [← number, empty]
      rfl
    · refine ⟨on, number, total, ?_⟩
      rw [UInt64.toNat_div, UInt32.toNat_toUInt64]

end Totals

/-- The totals below the report are those of the lines above it: as many extents as are printed,
of their sizes together, and of the holes that are printed, where they are. -/
theorem fiemap_totals_add_up (cfg : Config) (dev : Device) (opts : FiemapOptions)
    (events : List Event) (m : Machine) (run : collect cfg events = .ok m)
    (few : m.accepted.length < 2 ^ 32) (report : FiemapReport)
    (printed : printFiemapReport cfg dev opts m.ctrl.zonemap = .ok report) :
    report.AddsUp opts := by
  obtain ⟨state, zones, stats⟩ := printFiemapReport_blocks printed
  obtain ⟨listed, length⟩ := collect_listed run
  have consistent := collect_zonemap run few
  have small : m.ctrl.zonemap.zones.length < 2 ^ 32 := by
    rw [length]
    exact UInt32.toNat_lt _
  obtain ⟨lines, count, size⟩ := fiemapZones_ok listed (List.nil_append _).symm small
    ⟨rfl, fun p found => by cases found⟩ zones
  have prints : PrintsZones opts m.ctrl.zonemap report.blocks := lines
  have extents : report.extents = m.ctrl.zonemap.extents.map extentLineOf :=
    prints.extents consistent.counted
  rw [fiemapStats] at stats
  split at stats
  · cases stats
  · have same := (Except.ok.inj stats).symm
    constructor
    · rw [same, consistent.extentCtr_eq, extents, List.length_map, consistent.complete.length_eq]
    · rw [same, consistent.cumulated, extents, List.map_map,
        (consistent.complete.map fun e => e.len.toNat).symm.sum_eq]
      rfl
    · rw [same, UInt64.toNat_div]
    · rw [same]
      refine holeStats_sums prints.holes_off ?_ ?_
      · rw [count]
        exact UInt32.zero_add _
      · rw [size]
        exact UInt64.zero_add _

theorem two_extents_add_up : ∃ m report,
    collect eightSegments oneInEachZone = .ok m ∧
    printFiemapReport eightSegments (fullZones eightSegments) ⟨true, true⟩ m.ctrl.zonemap =
      .ok report ∧
    report.AddsUp ⟨true, true⟩ := by
  obtain ⟨m, report, run, printed, two, -⟩ := oneInEachZone_printed
  exact ⟨m, report, run, printed, fiemap_totals_add_up eightSegments (fullZones eightSegments)
    ⟨true, true⟩ _ m run (by omega) report printed⟩

end ZnsTools
