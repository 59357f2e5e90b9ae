import ZnsTools.SegmentReport

set_option autoImplicit false

namespace ZnsTools

/-- What is in place when the report starts: a device that answers, and what mapping files leaves
behind, so that nothing is read where nothing was stored. -/
structure Reportable (cfg : Config) (dev : Device) (ctrl : Control) (counters : FileCounterMap) :
    Prop where
  supported : cfg.toGeometry.Supported
  zoned : cfg.zoneSectors ≠ 0
  reports : ∀ sector, dev sector ≠ .ioctlFailed
  tracked : ctrl.fileCounterMap = some counters
  listed : ∀ e ∈ ctrl.zonemap.extents, counters.find? e.file ≠ none
  informed : ∀ e ∈ ctrl.zonemap.extents, e.fsInfo ≠ none
  writable : ∀ e ∈ ctrl.zonemap.extents, e.zoneCap ≠ 0
  addressed : ∀ e ∈ ctrl.zonemap.extents, e.stop < 2 ^ 56
  counted : ∀ zone ∈ ctrl.zonemap.zones, zone.extentCtr.toNat = zone.extents.length
  sorted : ∀ zone ∈ ctrl.zonemap.zones, Sorted zone.extents

-- All zones are selected, as they are when none is asked for, and files lie on the device.
structure FullRange (cfg : Config) (zonemap : ZoneMap) : Prop where
  start : cfg.startZone = 1
  finish : cfg.endZone = cfg.znsdev.nrZones
  zones : cfg.znsdev.nrZones.toNat + 1 < 2 ^ 32
  size : cfg.znsdev.nrZones.toNat * cfg.znsdev.zoneSize.toNat < 2 ^ 64
  within : ∀ e ∈ zonemap.extents,
    e.phyBlk.toNat < cfg.znsdev.nrZones.toNat * cfg.znsdev.zoneSize.toNat

structure SameFiles (counters current : FileCounterMap) : Prop where
  count : current.fileCtr = counters.fileCtr
  names : current.files.map (·.file) = counters.files.map (·.file)

namespace SameFiles

theorem refl (counters : FileCounterMap) : SameFiles counters counters :=
  ⟨rfl, rfl⟩

theorem trans {a b c : FileCounterMap} (first : SameFiles a b) (second : SameFiles b c) :
    SameFiles a c :=
  ⟨second.count.trans first.count, second.names.trans first.names⟩

theorem find? {counters current : FileCounterMap} (same : SameFiles counters current)
    (file : CString) : current.find? file = counters.find? file := by
  have byName : ∀ map : FileCounterMap, map.find? file =
      ((map.files.map (·.file)).take map.fileCtr.toNat).findIdx? (sameName · file) := by
    intro map
    rw [← List.map_take, List.findIdx?_map]
    rfl
  rw [byName, byName, same.count, same.names]

theorem length {counters current : FileCounterMap} (same : SameFiles counters current) :
    current.files.length = counters.files.length := by
  rw [← List.length_map (·.file), same.names, List.length_map]

end SameFiles

def extentsOf (zones : List Zone) : List Extent :=
  zones.flatMap Zone.extents

def scannedOf (zones : List Zone) : List (List Extent) :=
  (zones.filter fun zone => zone.extentCtr != 0).map Zone.extents

theorem scannedOf_append (front back : List Zone) :
    scannedOf (front ++ back) = scannedOf front ++ scannedOf back := by
  rw [scannedOf, List.filter_append, List.map_append]
  rfl

theorem mem_scannedOf {zones : List Zone} {extents : List Extent}
    (listed : extents ∈ scannedOf zones) : ∃ zone ∈ zones, zone.extents = extents := by
  obtain ⟨zone, kept, same⟩ := List.mem_map.mp listed
  exact ⟨zone, (List.mem_filter.mp kept).1, same⟩

theorem scannedOf_flatten {zones : List Zone}
    (counted : ∀ zone ∈ zones, zone.extentCtr.toNat = zone.extents.length) :
    (scannedOf zones).flatten = extentsOf zones := by
  induction zones with
  | nil => rfl
  | cons zone rest ih =>
    have tail := ih fun zone inside => counted zone (List.mem_cons_of_mem _ inside)
    rw [scannedOf, extentsOf] at tail
    rw [scannedOf, extentsOf]
    by_cases empty : zone.extentCtr = 0
    · have none : zone.extents = [] := by
        rw [← List.length_eq_zero_iff, ← counted zone List.mem_cons_self, empty]
        rfl
      simp [empty, tail, none]
    · simp [empty, tail]

theorem deref_ok {α : Type} {pointer : Option α} {value : α} (found : deref pointer = .ok value) :
    pointer = some value := by
  cases pointer with
  | none => cases found
  | some other => exact congrArg some (Except.ok.inj found)

theorem find?_lt {counters : FileCounterMap} {file : CString} {index : Nat}
    (found : counters.find? file = some index) :
    index < counters.files.length ∧ index < counters.fileCtr.toNat := by
  have bound := (List.findIdx?_eq_some_iff_findIdx_eq.mp found).1
  rw [List.length_take] at bound
  omega

theorem addTyped_file (entry : FileCounter) (numSegments : UInt32) (type : SegmentType) :
    (entry.addTyped numSegments type).file = entry.file := by
  cases type <;> rfl

theorem addSegments_file (entry : FileCounter) (numSegments curSegment : UInt32)
    (type : SegmentType) : (entry.addSegments numSegments curSegment type).file = entry.file := by
  rw [FileCounter.addSegments]
  split
  · rfl
  · exact addTyped_file _ _ _

theorem addZones_ok {cfg : Config} {entry counted : FileCounter} {numSegments zone : UInt32}
    {zoneCap : UInt64} (result : entry.addZones cfg numSegments zone zoneCap = .ok counted) :
    ∃ zoneCtr lastZone, counted = { entry with zoneCtr := zoneCtr, lastZone := lastZone } := by
  rw [FileCounter.addZones] at result
  split at result
  · cases result
    exact ⟨_, _, rfl⟩
  · split at result <;> cases result
    exact ⟨_, _, rfl⟩

theorem increaseFileSegmentCounter_entry {cfg : Config} {counters counted : FileCounterMap}
    {file : CString} {numSegments curSegment : UInt32} {segI : SegmentInfo} {zoneCap : UInt64}
    (result : increaseFileSegmentCounter cfg counters file numSegments curSegment segI zoneCap =
      .ok counted) :
    ∃ index entry zone next,
      index = (counters.find? file).getD counters.fileCtr.toNat ∧
      counters.files[index]? = some entry ∧ segmentZone cfg curSegment = .ok zone ∧
      (entry.addSegments numSegments curSegment segI.type).addZones cfg numSegments zone zoneCap =
        .ok next ∧
      counted = ⟨counters.fileCtr, counters.files.set index next⟩ := by
  obtain ⟨entry, found, result⟩ := Runs.bind_ok result
  obtain ⟨zone, numbered, result⟩ := Runs.bind_ok result
  obtain ⟨next, added, done⟩ := Runs.bind_ok result
  cases done
  exact ⟨_, entry, zone, next, rfl, deref_ok found, numbered, added, rfl⟩

theorem increaseFileSegmentCounter_sameFiles {cfg : Config} {counters counted : FileCounterMap}
    {file : CString} {numSegments curSegment : UInt32} {segI : SegmentInfo} {zoneCap : UInt64}
    (result : increaseFileSegmentCounter cfg counters file numSegments curSegment segI zoneCap =
      .ok counted) : SameFiles counters counted := by
  obtain ⟨index, entry, zone, next, -, found, -, added, rfl⟩ :=
    increaseFileSegmentCounter_entry result
  obtain ⟨zoneCtr, lastZone, rfl⟩ := addZones_ok added
  refine ⟨rfl, ?_⟩
  obtain ⟨inside, rfl⟩ := List.getElem?_eq_some_iff.mp found
  refine List.ext_getElem? fun other => ?_
  rw [List.map_set, addSegments_file]
  by_cases same : index = other
  · subst same
    simp [inside]
  · simp [List.getElem?_set_ne same]

theorem increaseFileSegmentCounter_exists {cfg : Config} {counters : FileCounterMap}
    {file : CString} (zoned : cfg.zoneSectors ≠ 0) (listed : counters.find? file ≠ none)
    (numSegments curSegment : UInt32) (segI : SegmentInfo) {zoneCap : UInt64}
    (writable : zoneCap ≠ 0) :
    ∃ counted, increaseFileSegmentCounter cfg counters file numSegments curSegment segI zoneCap =
      .ok counted := by
  obtain ⟨index, found⟩ := Option.ne_none_iff_exists'.mp listed
  have inside := (find?_lt found).1
  rw [increaseFileSegmentCounter, found, Option.getD_some, List.getElem?_eq_getElem inside,
    segmentZone, getZoneNumber, if_neg zoned]
  simp only [deref, Runs.ok_bind, FileCounter.addZones, if_neg writable]
  split <;> exact ⟨_, rfl⟩

section Turn

variable {cfg : Config} {dev : Device} {nrFiles : UInt32} {extent : Extent} {state : ReportState}

theorem printZoneInfo_ok {heading : List Line} {zone : UInt32}
    (result : printZoneInfo cfg dev zone = .ok heading) :
    ∀ line ∈ heading, ∃ shown, line = .zone shown := by
  rw [printZoneInfo] at result
  split at result <;> cases result
  · simp
  · intro line inside
    exact ⟨_, List.mem_singleton.mp inside⟩

theorem printZoneInfo_zone {heading : List Line} {zone : UInt32}
    (printed : printZoneInfo cfg dev zone = .ok heading) {shown : ZoneHeading}
    (inside : .zone shown ∈ heading) :
    shown.zone = zone ∧ dev (cfg.zoneSectors * zone.toUInt64) ≠ .openFailed := by
  rw [printZoneInfo] at printed
  split at printed <;> cases printed
  · cases inside
  · next report answered =>
    cases List.mem_singleton.mp inside
    rw [answered]
    exact ⟨rfl, by rintro ⟨⟩⟩

theorem showZoneHeading_ok {next : ReportState} {heading : List Line}
    (result : showZoneHeading cfg dev extent state = .ok (next, heading)) :
    next = { state with currentZone := extent.zone } ∧
      ∀ line ∈ heading, line = .formatter ∨ ∃ zone, line = .zone zone := by
  rw [showZoneHeading] at result
  split at result
  · next same =>
    cases result
    exact ⟨by rw [← same], by simp⟩
  · obtain ⟨zoneLines, printed, result⟩ := Runs.bind_ok result
    cases result
    refine ⟨rfl, ?_⟩
    intro line inside
    rcases List.mem_append.mp inside with formatter | shown
    · left
      split at formatter
      · cases formatter
      · rw [rep] at formatter
        split at formatter <;> simp_all
    · right
      rw [repZoneInfo] at printed
      split at printed
      · cases printed
        cases shown
      · exact printZoneInfo_ok printed line shown

theorem printZoneInfo_exists (cfg : Config) (reports : ∀ sector, dev sector ≠ .ioctlFailed)
    (zone : UInt32) :
    ∃ heading, printZoneInfo cfg dev zone = .ok heading := by
  rw [printZoneInfo]
  split
  · exact ⟨_, rfl⟩
  · next failed => exact absurd failed (reports _)
  · exact ⟨_, rfl⟩

theorem showZoneHeading_exists (cfg : Config) (reports : ∀ sector, dev sector ≠ .ioctlFailed)
    (extent : Extent) (state : ReportState) :
    ∃ shown, showZoneHeading cfg dev extent state = .ok shown := by
  obtain ⟨heading, printed⟩ := printZoneInfo_exists cfg reports extent.zone
  rw [showZoneHeading, repZoneInfo, printed]
  split
  · exact ⟨_, rfl⟩
  · by_cases only : cfg.showOnlyStats = true
    · exact ⟨_, by rw [if_pos only]; rfl⟩
    · exact ⟨_, by rw [if_neg only]; rfl⟩

theorem showExtentTurn_advance {next : ReportState} {out : List Line}
    (result : showExtentTurn cfg dev nrFiles extent state = .ok (.advance next out)) :
    cfg.segmentLba (cfg.segmentId extent.phyBlk) < cfg.endLba ∧
      cfg.startLba ≤ cfg.segmentLba (cfg.segmentId extent.phyBlk) := by
  rw [showExtentTurn] at result
  dsimp only at result
  split at result
  · cases result
  · next before =>
    split at result
    · cases result
    · next after => exact ⟨UInt64.not_le.mp before, UInt64.not_lt.mp after⟩

theorem showExtentTurn_parts {flow : CursorLoop.Flow ReportState (List Line)}
    (before : cfg.segmentLba (cfg.segmentId extent.phyBlk) < cfg.endLba)
    (after : cfg.startLba ≤ cfg.segmentLba (cfg.segmentId extent.phyBlk))
    (result : showExtentTurn cfg dev nrFiles extent state = .ok flow) :
    ∃ heading segI counters counted shown,
      showZoneHeading cfg dev extent state =
        .ok ({ state with currentZone := extent.zone }, heading) ∧
      extent.fsInfo = some segI ∧ state.fileCounterMap = some counters ∧
      increaseFileSegmentCounter cfg counters extent.file
        (extent.endSegment cfg.toGeometry - cfg.segmentId extent.phyBlk + 1).toUInt32
        (cfg.segmentId extent.phyBlk).toUInt32 segI extent.zoneCap = .ok counted ∧
      showExtent cfg nrFiles counted segI extent { state with
        currentZone := extent.zone, fileCounterMap := some counted } = shown ∧
      flow = .advance shown.1 (heading ++ shown.2) := by
  rw [showExtentTurn, if_neg (UInt64.not_le.mpr before), if_neg (UInt64.not_lt.mpr after)] at result
  obtain ⟨⟨next, heading⟩, headed, result⟩ := Runs.bind_ok result
  obtain ⟨rfl, -⟩ := showZoneHeading_ok headed
  obtain ⟨segI, info, result⟩ := Runs.bind_ok result
  obtain ⟨counters, map, result⟩ := Runs.bind_ok result
  obtain ⟨counted, increased, result⟩ := Runs.bind_ok result
  cases result
  exact ⟨heading, segI, counters, counted, _, headed, deref_ok info, deref_ok map, increased, rfl,
    rfl⟩

theorem showExtentTurn_ok {flow : CursorLoop.Flow ReportState (List Line)}
    (before : cfg.segmentLba (cfg.segmentId extent.phyBlk) < cfg.endLba)
    (after : cfg.startLba ≤ cfg.segmentLba (cfg.segmentId extent.phyBlk))
    (result : showExtentTurn cfg dev nrFiles extent state = .ok flow) :
    ∃ heading segI counters counted shown,
      (∀ line ∈ heading, line = .formatter ∨ ∃ zone, line = .zone zone) ∧
      extent.fsInfo = some segI ∧ state.fileCounterMap = some counters ∧
      increaseFileSegmentCounter cfg counters extent.file
        (extent.endSegment cfg.toGeometry - cfg.segmentId extent.phyBlk + 1).toUInt32
        (cfg.segmentId extent.phyBlk).toUInt32 segI extent.zoneCap = .ok counted ∧
      showExtent cfg nrFiles counted segI extent { state with
        currentZone := extent.zone, fileCounterMap := some counted } = shown ∧
      flow = .advance shown.1 (heading ++ shown.2) := by
  obtain ⟨heading, segI, counters, counted, shown, headed, rest⟩ :=
    showExtentTurn_parts before after result
  exact ⟨heading, segI, counters, counted, shown, (showZoneHeading_ok headed).2, rest⟩

end Turn

section Parts

-- The parts of an extent, with their conditions as numbers.

variable {cfg : Config} {nrFiles : UInt32} {counters : FileCounterMap} {segI : SegmentInfo}
  {e : Extent} {state : ReportState}

theorem showBeginning_eq (supported : cfg.toGeometry.Supported) :
    showBeginning cfg nrFiles counters segI e state =
      if e.phyBlk.toNat = e.first cfg.toGeometry * cfg.segmentSize then (state, [])
      else ({ state with
          curSegment := cfg.segmentId e.phyBlk
          segmapMan := setSegmentCounters cfg nrFiles 1 e segI state.segmapMan },
        showSegmentInfo cfg segI (cfg.segmentId e.phyBlk) state.curSegment ++
          showBeginningSegment cfg counters e) :=
  if_congr (Extent.aligned_iff supported e) rfl rfl

theorem showMiddle_eq (supported : cfg.toGeometry.Supported) (addressed : e.stop < 2 ^ 56) :
    showMiddle cfg nrFiles counters segI e state =
      if e.last cfg.toGeometry ≤ e.first cfg.toGeometry + 1 then (state, [])
      else showConsecutiveSegments cfg nrFiles counters segI e (e.middleSegment cfg.toGeometry)
        state :=
  (if_congr (Extent.one_lt_span_iff supported addressed) rfl rfl).trans (ite_not _ _ _)

theorem showRemainder_eq (supported : cfg.toGeometry.Supported) (addressed : e.stop < 2 ^ 56) :
    showRemainder cfg nrFiles counters segI e state =
      if e.last cfg.toGeometry * cfg.segmentSize = e.stop then (state, [])
      else
        let shown := showRemainderSegment cfg counters segI e state
        ({ shown.1 with
          segmapMan := setSegmentCounters cfg nrFiles 1 e segI shown.1.segmapMan }, shown.2) :=
  if_congr (Extent.filled_iff supported addressed) rfl rfl

theorem showExtent_eq (supported : cfg.toGeometry.Supported) (addressed : e.stop < 2 ^ 56) :
    showExtent cfg nrFiles counters segI e state =
      if e.first cfg.toGeometry = e.last cfg.toGeometry ∨
          e.stop = (e.first cfg.toGeometry + 1) * cfg.segmentSize then
        showWholeExtent cfg nrFiles counters segI e state
      else
        let beginning := showBeginning cfg nrFiles counters segI e state
        let middle := showMiddle cfg nrFiles counters segI e beginning.1
        let remainder := showRemainder cfg nrFiles counters segI e middle.1
        (remainder.1, beginning.2 ++ middle.2 ++ remainder.2) :=
  if_congr (Extent.inOneSegment_iff supported addressed) rfl rfl

theorem showExtent_frame (nrFiles : UInt32) (counters : FileCounterMap) (segI : SegmentInfo)
    (e : Extent) (state : ReportState) :
    (showExtent cfg nrFiles counters segI e state).1.currentZone = state.currentZone ∧
      (showExtent cfg nrFiles counters segI e state).1.fileCounterMap = state.fileCounterMap := by
  simp only [showExtent, showWholeExtent, showBeginning, showMiddle, showConsecutiveSegments,
    showRemainder, showRemainderSegment]
  split
  · exact ⟨rfl, rfl⟩
  · split <;> split <;> split <;> exact ⟨rfl, rfl⟩

end Parts

section Run

variable {cfg : Config} {dev : Device} {ctrl : Control} {counters : FileCounterMap}

def Tracking (counters : FileCounterMap) (state : ReportState) : Prop :=
  ∃ current, state.fileCounterMap = some current ∧ SameFiles counters current

theorem showExtentTurn_tracking (ready : Reportable cfg dev ctrl counters)
    {extent : Extent} (inside : extent ∈ ctrl.zonemap.extents) {state : ReportState}
    (tracking : Tracking counters state)
    (after : cfg.startLba ≤ cfg.segmentLba (cfg.segmentId extent.phyBlk)) :
    (∃ next out, showExtentTurn cfg dev ctrl.nrFiles extent state = .ok (.advance next out) ∧
        Tracking counters next) ∨
      ∃ next, showExtentTurn cfg dev ctrl.nrFiles extent state = .ok (.leave next) ∧
        Tracking counters next := by
  by_cases before : cfg.endLba ≤ cfg.segmentLba (cfg.segmentId extent.phyBlk)
  · exact .inr ⟨state, by rw [showExtentTurn, if_pos before]; rfl, tracking⟩
  · left
    obtain ⟨current, map, same⟩ := tracking
    obtain ⟨⟨headed, heading⟩, shown⟩ := showZoneHeading_exists cfg ready.reports extent state
    obtain ⟨segI, info⟩ := Option.ne_none_iff_exists'.mp (ready.informed extent inside)
    have listed : current.find? extent.file ≠ none := by
      rw [same.find?]
      exact ready.listed extent inside
    obtain ⟨counted, increased⟩ := increaseFileSegmentCounter_exists ready.zoned listed
      (extent.endSegment cfg.toGeometry - cfg.segmentId extent.phyBlk + 1).toUInt32
      (cfg.segmentId extent.phyBlk).toUInt32 segI (ready.writable extent inside)
    have kept : headed.fileCounterMap = some current := by
      rw [(showZoneHeading_ok shown).1, map]
    let shownExtent := showExtent cfg ctrl.nrFiles counted segI extent
      { headed with fileCounterMap := some counted }
    refine ⟨shownExtent.1, heading ++ shownExtent.2, ?_, counted, ?_,
      same.trans (increaseFileSegmentCounter_sameFiles increased)⟩
    · rw [showExtentTurn, if_neg before, if_neg (UInt64.not_lt.mpr after), shown, Runs.ok_bind]
      simp only [info, kept, deref, Runs.ok_bind, increased]
      rfl
    · simp only [shownExtent, (showExtent_frame _ _ _ _ _).2]

theorem start_tracking (ready : Reportable cfg dev ctrl counters) :
    Tracking counters (ReportState.start ctrl) :=
  ⟨counters, ready.tracked, .refl counters⟩

theorem Reportable.scanned (ready : Reportable cfg dev ctrl counters) :
    ctrl.zonemap.scanned.flatten = ctrl.zonemap.extents :=
  scannedOf_flatten ready.counted

theorem mem_scanned {zonemap : ZoneMap} {extents : List Extent} {e : Extent}
    (listed : extents ∈ zonemap.scanned) (inside : e ∈ extents) : e ∈ zonemap.extents := by
  obtain ⟨zone, kept, rfl⟩ := List.mem_map.mp listed
  exact List.mem_flatMap.mpr ⟨zone, (List.mem_filter.mp kept).1, inside⟩

theorem FullRange.startLba {zonemap : ZoneMap} (full : FullRange cfg zonemap) :
    cfg.startLba = 0 := by
  simp [Config.startLba, full.start]

theorem Config.endLba_eq (few : cfg.endZone.toNat + 1 < 2 ^ 32) :
    cfg.endLba = cfg.endZone.toUInt64 * cfg.znsdev.zoneSize := by
  have next : (cfg.endZone + 1).toUInt64 = cfg.endZone.toUInt64 + 1 := by
    rw [← UInt64.toNat_inj, UInt64.toNat_add, UInt32.toNat_toUInt64, UInt32.toNat_toUInt64,
      UInt32.toNat_add, UInt32.toNat_one, UInt64.toNat_one, Nat.mod_eq_of_lt few, Nat.mod_eq_of_lt]
    omega
  rw [Config.endLba, next]
  grind

theorem FullRange.before {zonemap : ZoneMap} (full : FullRange cfg zonemap)
    (supported : cfg.toGeometry.Supported) {e : Extent} (inside : e ∈ zonemap.extents) :
    cfg.segmentLba (cfg.segmentId e.phyBlk) < cfg.endLba := by
  have few : cfg.endZone.toNat + 1 < 2 ^ 32 := full.finish ▸ full.zones
  have last : cfg.endLba.toNat = cfg.znsdev.nrZones.toNat * cfg.znsdev.zoneSize.toNat := by
    rw [Config.endLba_eq few, full.finish, UInt64.toNat_mul, UInt32.toNat_toUInt64,
      Nat.mod_eq_of_lt full.size]
  rw [UInt64.lt_iff_toNat_lt, last, Geometry.segmentLba_segmentId supported]
  exact Nat.lt_of_le_of_lt (Nat.div_mul_le_self _ _) (full.within e inside)

theorem showSegments_returns (ready : Reportable cfg dev ctrl counters)
    (moves : ∀ e ∈ ctrl.zonemap.extents,
      cfg.segmentLba (cfg.segmentId e.phyBlk) < cfg.endLba →
        cfg.startLba ≤ cfg.segmentLba (cfg.segmentId e.phyBlk)) :
    ∃ final passes, showSegments cfg dev List.length ctrl = some (.ok (final, passes)) ∧
      Tracking counters final := by
  refine CursorLoop.scans_returns (Tracking counters) _ ?_ (fun _ holds => holds)
    (fun state holds => ⟨state, rfl, holds⟩) (fun _ => Nat.le_refl _) (start_tracking ready)
  intro extents listed e inside state tracking
  have member := mem_scanned listed inside
  by_cases past : cfg.endLba ≤ cfg.segmentLba (cfg.segmentId e.phyBlk)
  · exact .inr ⟨state, by rw [showExtentTurn, if_pos past]; rfl, tracking⟩
  · exact showExtentTurn_tracking ready member tracking (moves e member (UInt64.not_le.mp past))

/-- If every pass that succeeds shows its extent, a report that ends has shown them all; `P` is what
the passes keep, given the extents shown before, and `Q` what holds of each of them. -/
theorem showSegments_exhausted
    (counted : ∀ zone ∈ ctrl.zonemap.zones, zone.extentCtr.toNat = zone.extents.length)
    (P : List Extent → ReportState → Prop) (Q : List Extent → ReportPass → Prop)
    (step : ∀ done e rest, ctrl.zonemap.extents = done ++ e :: rest → ∀ state flow, P done state →
      showExtentTurn cfg dev ctrl.nrFiles e state = .ok flow →
        ∃ next out, flow = .advance next out ∧ P (done ++ [e]) next ∧ Q done ⟨e, state, next, out⟩)
    (start : P [] (ReportState.start ctrl)) {fuel : List Extent → Nat} {final : ReportState}
    {passes : List ReportPass}
    (result : showSegments cfg dev fuel ctrl = some (.ok (final, passes))) :
    P ctrl.zonemap.extents final ∧ passes.map CursorLoop.Pass.item = ctrl.zonemap.extents ∧
      ∀ index pass, passes[index]? = some pass → Q (ctrl.zonemap.extents.take index) pass := by
  have flat : ctrl.zonemap.scanned.flatten = ctrl.zonemap.extents := scannedOf_flatten counted
  have exhausted := CursorLoop.scans_exhausts P P Q ctrl.zonemap.scanned
    (by rw [flat]; exact step) (fun _ _ holds => holds)
    (fun _ _ _ holds same => Except.ok.inj same ▸ holds) result start
  rwa [flat] at exhausted

theorem showSegments_exhausts (ready : Reportable cfg dev ctrl counters)
    (full : FullRange cfg ctrl.zonemap) (P : List Extent → ReportState → Prop)
    (Q : List Extent → ReportPass → Prop)
    (step : ∀ done e rest, ctrl.zonemap.extents = done ++ e :: rest → ∀ state flow, P done state →
      showExtentTurn cfg dev ctrl.nrFiles e state = .ok flow →
        ∃ next out, flow = .advance next out ∧ P (done ++ [e]) next ∧ Q done ⟨e, state, next, out⟩)
    (start : P [] (ReportState.start ctrl)) :
    ∃ final passes, showSegments cfg dev List.length ctrl = some (.ok (final, passes)) ∧
      P ctrl.zonemap.extents final ∧ passes.map CursorLoop.Pass.item = ctrl.zonemap.extents ∧
      ∀ index pass, passes[index]? = some pass → Q (ctrl.zonemap.extents.take index) pass := by
  obtain ⟨final, passes, result, -⟩ := showSegments_returns ready fun _ _ _ => by
    rw [full.startLba]
    exact UInt64.zero_le
  exact ⟨final, passes, result, showSegments_exhausted ready.counted P Q step start result⟩

end Run

end ZnsTools
