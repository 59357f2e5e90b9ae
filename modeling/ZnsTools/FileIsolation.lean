import ZnsTools.FileEntries

set_option autoImplicit false

namespace ZnsTools

structure Statistics where
  segmentCtr : UInt32
  zoneCtr : UInt32
  coldCtr : UInt32
  warmCtr : UInt32
  hotCtr : UInt32
  deriving DecidableEq, Repr

def FileCounter.statistics (entry : FileCounter) : Statistics :=
  ⟨entry.segmentCtr, entry.zoneCtr, entry.coldCtr, entry.warmCtr, entry.hotCtr⟩

def ReportState.entryOf (state : ReportState) (file : CString) : Option FileCounter := do
  let counters ← state.fileCounterMap
  let index ← counters.find? file
  counters.files[index]?

def ZoneMap.extentsOf (zonemap : ZoneMap) (file : CString) : List Extent :=
  zonemap.extents.filter fun e => e.file == file

def Extent.counted (e : Extent) : UInt64 × UInt64 × Option SegmentType × UInt64 :=
  (e.phyBlk, e.len, e.fsInfo.map (·.type), e.zoneCap)

def CountsAll (cfg : Config) (entry : FileCounter) : List Extent → FileCounter → Prop
  | [], now => now = entry
  | e :: rest, now => ∃ next, Counts cfg e entry next ∧ CountsAll cfg next rest now

def SameCounts (a b : FileCounter) : Prop :=
  b = { a with file := b.file, extCtr := b.extCtr }

section Counting

variable {cfg : Config} {a b next other : FileCounter}

theorem SameCounts.seen (same : SameCounts a b) :
    b.lastSegmentId = a.lastSegmentId ∧ b.lastZone = a.lastZone := by
  rw [SameCounts] at same
  rw [same]
  exact ⟨rfl, rfl⟩

theorem SameCounts.statistics (same : SameCounts a b) : a.statistics = b.statistics := by
  rw [SameCounts] at same
  rw [same]
  rfl

theorem addTyped_same (same : SameCounts a b) (numSegments : UInt32) (type : SegmentType) :
    SameCounts (a.addTyped numSegments type) (b.addTyped numSegments type) := by
  rw [SameCounts] at same
  rw [same]
  cases type <;> rfl

theorem addSegments_same (same : SameCounts a b) (numSegments curSegment : UInt32)
    (type : SegmentType) : SameCounts (a.addSegments numSegments curSegment type)
      (b.addSegments numSegments curSegment type) := by
  rw [FileCounter.addSegments, FileCounter.addSegments, same.seen.1]
  split
  · exact same
  · refine addTyped_same ?_ _ _
    rw [SameCounts] at same ⊢
    rw [same]

theorem addZones_same (same : SameCounts a b) {numSegments zone : UInt32} {zoneCap : UInt64}
    (first : a.addZones cfg numSegments zone zoneCap = .ok next)
    (second : b.addZones cfg numSegments zone zoneCap = .ok other) : SameCounts next other := by
  rw [FileCounter.addZones] at first second
  rw [same.seen.2] at second
  split at first
  · next known =>
    rw [if_pos known] at second
    cases first
    cases second
    exact same
  · next unknown =>
    rw [if_neg unknown] at second
    split at first
    · cases first
    · next writable =>
      rw [if_neg writable] at second
      cases first
      cases second
      rw [SameCounts] at same ⊢
      rw [same]

theorem Counts.same {e f : Extent} (alike : e.counted = f.counted) (same : SameCounts a b)
    (first : Counts cfg e a next) (second : Counts cfg f b other) : SameCounts next other := by
  obtain ⟨segI, zone, info, numbered, added⟩ := first
  obtain ⟨segJ, place, info', numbered', added'⟩ := second
  simp only [Extent.counted, info, info', Option.map_some, Prod.mk.injEq, Option.some.injEq] at alike
  obtain ⟨phyBlk, len, type, zoneCap⟩ := alike
  have finish : f.endSegment cfg.toGeometry = e.endSegment cfg.toGeometry := by
    rw [Extent.endSegment, Extent.endSegment, phyBlk, len]
  rw [← phyBlk, numbered] at numbered'
  cases numbered'
  rw [finish, ← phyBlk, ← type, ← zoneCap] at added'
  exact addZones_same (addSegments_same same _ _ _) added added'

theorem CountsAll.same {own others : List Extent}
    (alike : own.map Extent.counted = others.map Extent.counted) (same : SameCounts a b)
    (first : CountsAll cfg a own next) (second : CountsAll cfg b others other) :
    SameCounts next other := by
  induction own generalizing others a b with
  | nil =>
    cases others with
    | nil =>
      cases first
      cases second
      exact same
    | cons f rest => cases alike
  | cons e own ih =>
    cases others with
    | nil => cases alike
    | cons f others =>
      obtain ⟨now, counts, later⟩ := first
      obtain ⟨middle, counts', later'⟩ := second
      obtain ⟨head, tail⟩ := List.cons.inj alike
      exact ih tail (counts.same head same counts') later later'

theorem CountsAll.snoc {own : List Extent} {e : Extent} {now : FileCounter}
    (before : CountsAll cfg a own now) (counts : Counts cfg e now next) :
    CountsAll cfg a (own ++ [e]) next := by
  induction own generalizing a with
  | nil =>
    cases before
    exact ⟨next, counts, rfl⟩
  | cons first rest ih =>
    obtain ⟨middle, here, later⟩ := before
    exact ⟨middle, here, ih later⟩

theorem FileCounter.Fresh.same (first : a.Fresh) (second : b.Fresh) : SameCounts a b := by
  rw [FileCounter.Fresh] at first second
  rw [SameCounts, first, second]

end Counting

theorem showSegments_entry {cfg : Config} {dev : Device} {ctrl : Control}
    {counters : FileCounterMap}
    (supported : cfg.toGeometry.Supported) (full : FullRange cfg ctrl.zonemap)
    (counted : ∀ zone ∈ ctrl.zonemap.zones, zone.extentCtr.toNat = zone.extents.length)
    (tracked : ctrl.fileCounterMap = some counters) {file : CString} {index : Nat}
    {entry : FileCounter} (found : counters.find? file = some index)
    (present : counters.files[index]? = some entry) {fuel : List Extent → Nat}
    {final : ReportState} {passes : List ReportPass}
    (result : showSegments cfg dev fuel ctrl = some (.ok (final, passes))) :
    ∃ now, final.entryOf file = some now ∧
      CountsAll cfg entry (ctrl.zonemap.extentsOf file) now := by
  obtain ⟨last, -⟩ := showSegments_kept (CountsAll cfg) supported full counted tracked
    (fun _ => rfl) (fun _ _ _ _ _ _ before counts => CountsAll.snoc before counts) result
  obtain ⟨current, now, map, same, at_index, counts⟩ := last file index entry found present
  refine ⟨now, ?_, counts⟩
  rw [ReportState.entryOf, map, Option.bind_eq_bind, Option.bind_some, same.find?, found]
  exact at_index

/-- What a report over the full range counts of a file depends on the file's own extents alone, in
their order, whichever extents of other files lie between them. -/
theorem file_counters_isolated (cfg : Config) (dev device : Device) (ctrl control : Control)
    (counters others : FileCounterMap) (supported : cfg.toGeometry.Supported)
    (full : FullRange cfg ctrl.zonemap) (entire : FullRange cfg control.zonemap)
    (counted : ∀ zone ∈ ctrl.zonemap.zones, zone.extentCtr.toNat = zone.extents.length)
    (numbered : ∀ zone ∈ control.zonemap.zones, zone.extentCtr.toNat = zone.extents.length)
    (tracked : ctrl.fileCounterMap = some counters) (sound : counters.Sound)
    (mapped : control.fileCounterMap = some others) (healthy : others.Sound)
    (file : CString) (listed : file ∈ counters.names) (known : file ∈ others.names)
    (own : (ctrl.zonemap.extentsOf file).map Extent.counted =
      (control.zonemap.extentsOf file).map Extent.counted)
    (fuel turns : List Extent → Nat) (final ended : ReportState) (passes visits : List ReportPass)
    (result : showSegments cfg dev fuel ctrl = some (.ok (final, passes)))
    (outcome : showSegments cfg device turns control = some (.ok (ended, visits))) :
    ∃ now other, final.entryOf file = some now ∧ ended.entryOf file = some other ∧
      now.statistics = other.statistics := by
  obtain ⟨index, entry, found, present, fresh⟩ := sound.entry listed
  obtain ⟨place, first, at_place, there, unused⟩ := healthy.entry known
  obtain ⟨now, entered, counts⟩ := showSegments_entry supported full counted tracked found present
    result
  obtain ⟨other, stored, sums⟩ := showSegments_entry supported entire numbered mapped at_place there
    outcome
  exact ⟨now, other, entered, stored,
    (CountsAll.same own (fresh.same unused) counts sums).statistics⟩

theorem collected_sound (cfg : Config) (events : List Event) (opened : Nat)
    (counters : FileCounterMap)
    (checked : (collect cfg events).map (fun m => (m.failed, m.opened, m.ctrl.fileCounterMap)) =
      .ok (false, opened, some counters)) (few : opened < 2 ^ 32) :
    (collected cfg events).fileCounterMap = some counters ∧ counters.Sound := by
  obtain ⟨m, run, state⟩ := Runs.map_ok checked
  simp only [Prod.mk.injEq] at state
  obtain ⟨finished, rfl, tracked⟩ := state
  rw [collected, run]
  exact ⟨tracked, (collect_filed run finished few).sound counters tracked⟩

def ownPieces : List Event :=
  mapFile warmConfig [97] 16 [⟨0, 8 * 512, 4096, 0⟩, ⟨4096, 4104 * 512, 4096, fiemapExtentLast⟩]

def otherPieces : List Event :=
  mapFile warmConfig [98] 16 [⟨0, 16 * 512, 4096, 0⟩, ⟨4096, 4096 * 512, 4096, fiemapExtentLast⟩]

theorem other_file_between :
    ∃ final ended passes visits now other,
      showSegments warmConfig (fullZones warmConfig) List.length
        (collected warmConfig ownPieces) = some (.ok (final, passes)) ∧
      showSegments warmConfig (fullZones warmConfig) List.length
        (collected warmConfig (otherPieces ++ ownPieces)) = some (.ok (ended, visits)) ∧
      visits.map (fun pass => (pass.item.file, pass.item.phyBlk)) =
        [([97], 8), ([98], 16), ([98], 4096), ([97], 4104)] ∧
      final.entryOf [97] = some now ∧ ended.entryOf [97] = some other ∧
      now.statistics = other.statistics := by
  obtain ⟨tracked, sound⟩ := collected_sound warmConfig ownPieces 1
    ⟨1, [{ FileCounter.zero with file := [97], extCtr := 2 }]⟩ (by decide) (by decide)
  obtain ⟨mapped, healthy⟩ := collected_sound warmConfig (otherPieces ++ ownPieces) 2
    ⟨2, [{ FileCounter.zero with file := [98], extCtr := 2 },
      { FileCounter.zero with file := [97], extCtr := 2 }]⟩ (by decide) (by decide)
  have alone : (showSegments warmConfig (fullZones warmConfig) List.length
      (collected warmConfig ownPieces)).map (·.map fun run => run.2.length) = some (.ok 2) := by
    decide
  have between : (showSegments warmConfig (fullZones warmConfig) List.length
      (collected warmConfig (otherPieces ++ ownPieces))).map (·.map fun run =>
        run.2.map fun pass => (pass.item.file, pass.item.phyBlk)) =
      some (.ok [([97], 8), ([98], 16), ([98], 4096), ([97], 4104)]) := by
    decide
  obtain ⟨⟨final, passes⟩, result, -⟩ := Runs.some_map_ok alone
  obtain ⟨⟨ended, visits⟩, outcome, order⟩ := Runs.some_map_ok between
  obtain ⟨now, other, entered, stored, same⟩ := file_counters_isolated warmConfig
    (fullZones warmConfig) (fullZones warmConfig) _ _ _ _ (.inl rfl)
    ⟨rfl, rfl, by decide, by decide, by decide⟩ ⟨rfl, rfl, by decide, by decide, by decide⟩
    (by decide) (by decide) tracked sound mapped healthy [97] (by decide) (by decide) (by decide)
    _ _ final ended passes visits result outcome
  exact ⟨final, ended, passes, visits, now, other, result, outcome, order, entered, stored, same⟩

end ZnsTools
