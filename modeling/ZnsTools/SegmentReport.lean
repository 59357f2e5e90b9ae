import ZnsTools.Collection
import ZnsTools.ExtentSpan
import ZnsTools.Shared.CursorLoop

set_option autoImplicit false

namespace ZnsTools

structure FileStats where
  filename : CString
  segmentCtr : UInt32
  zoneCtr : UInt32
  coldCtr : UInt32
  warmCtr : UInt32
  hotCtr : UInt32
  lastZone : UInt32
  deriving DecidableEq, Repr

-- `fs` has the entries in use, `ctr` of them.
structure SegmapManager where
  segmentCtr : UInt32
  coldCtr : UInt32
  warmCtr : UInt32
  hotCtr : UInt32
  fs : List FileStats
  deriving DecidableEq, Repr

structure ZoneHeading where
  zone : UInt32
  lbas : UInt64
  lbae : UInt64
  cap : UInt64
  wp : UInt64
  size : UInt64
  state : UInt32
  mask : UInt32
  deriving DecidableEq, Repr

-- The SEGMENT line together with the TYPE and VALID BLOCKS line below it.
structure SegmentHeading where
  segment : UInt64
  pbas : UInt64
  pbae : UInt64
  size : UInt64
  type : String
  validBlocks : UInt32
  deriving DecidableEq, Repr

structure ExtentLine where
  pbas : UInt64
  pbae : UInt64
  size : UInt64
  file : CString
  extId : UInt32
  extents : UInt32
  deriving DecidableEq, Repr

inductive Line where
  | equalFormatter
  | title
  | formatter
  | underscore
  | zone (heading : ZoneHeading)
  | segment (heading : SegmentHeading)
  | segmentRange (first last pbas pbae size : UInt64)
  | extent (line : ExtentLine)
  deriving DecidableEq, Repr

inductive StatsLine where
  | inlinedWarning
  | columns
  | inlined (extents : UInt64)
  | file (entry : FileCounter)
  deriving DecidableEq, Repr

-- `current_zone` of `show_segment_report` and the globals that it changes.
structure ReportState where
  currentZone : UInt32
  curSegment : UInt64
  segmapMan : SegmapManager
  fileCounterMap : Option FileCounterMap
  deriving DecidableEq, Repr

def deref {α : Type} : Option α → Except Abort α
  | none => .error .badAccess
  | some value => .ok value

def Config.startLba (cfg : Config) : UInt64 :=
  cfg.startZone.toUInt64 * cfg.znsdev.zoneSize - cfg.znsdev.zoneSize

def Config.endLba (cfg : Config) : UInt64 :=
  (cfg.endZone + 1).toUInt64 * cfg.znsdev.zoneSize - cfg.znsdev.zoneSize

def rep (cfg : Config) (lines : List Line) : List Line :=
  if cfg.showOnlyStats then [] else lines

def printZoneInfo (cfg : Config) (dev : Device) (zone : UInt32) : Except Abort (List Line) :=
  match dev (cfg.zoneSectors * zone.toUInt64) with
  | .openFailed => .ok []
  | .ioctlFailed => .error .exitFailure
  | .zone report =>
    let shift := cfg.znsSectorShift.toUInt64
    .ok [.zone {
      zone := zone
      lbas := report.start >>> shift
      lbae := (report.start >>> shift) + (report.capacity >>> shift)
      cap := report.capacity >>> shift
      wp := report.wp >>> shift
      size := report.len >>> shift
      state := report.cond.toUInt32 <<< 4
      mask := cfg.znsdev.zoneMask }]

def SegmentType.name : SegmentType → String
  | .cursegHotData => "CURSEG_HOT_DATA"
  | .cursegWarmData => "CURSEG_WARM_DATA"
  | .cursegColdData => "CURSEG_COLD_DATA"
  | .cursegHotNode => "CURSEG_HOT_NODE"
  | .cursegWarmNode => "CURSEG_WARM_NODE"
  | .cursegColdNode => "CURSEG_COLD_NODE"
  | .noCheckType => ""
  | .other _ => ""

def SegmentInfo.shownBlocks (segI : SegmentInfo) (sectorShift : UInt32) : UInt32 :=
  segI.validBlocks <<< f2fsBlksizeBits >>> sectorShift

-- `segI` is what `fs_info` of the extent points to.
def showSegmentInfo (cfg : Config) (segI : SegmentInfo) (segmentStart curSegment : UInt64) :
    List Line :=
  if curSegment = segmentStart then []
  else rep cfg [.underscore, .formatter,
    .segment {
      segment := segmentStart
      pbas := cfg.segmentLba segmentStart
      pbae := cfg.segmentLba segmentStart + cfg.f2fsSegmentSectors
      size := cfg.f2fsSegmentSectors
      type := segI.type.name
      validBlocks := segI.shownBlocks cfg.sectorShift },
    .formatter]

def extentLine (counters : FileCounterMap) (extent : Extent) (pbas pbae size : UInt64) : Line :=
  .extent {
    pbas := pbas
    pbae := pbae
    size := size
    file := extent.file
    extId := extent.extNr + 1
    extents := getFileExtentCount counters extent.file }

def showBeginningSegment (cfg : Config) (counters : FileCounterMap) (extent : Extent) :
    List Line :=
  let segmentEnd := cfg.segmentStart extent.phyBlk + cfg.f2fsSegmentSectors
  rep cfg [extentLine counters extent extent.phyBlk segmentEnd (segmentEnd - extent.phyBlk)]

def FileStats.addSegments (stats : FileStats) (numSegments zone : UInt32) : FileStats :=
  let stats := { stats with segmentCtr := stats.segmentCtr + numSegments }
  if stats.lastZone = zone then stats
  else { stats with lastZone := zone, zoneCtr := stats.zoneCtr + 1 }

def FileStats.addTyped (stats : FileStats) (numSegments : UInt32) : SegmentType → FileStats
  | .cursegColdData => { stats with coldCtr := stats.coldCtr + numSegments }
  | .cursegWarmData => { stats with warmCtr := stats.warmCtr + numSegments }
  | .cursegHotData => { stats with hotCtr := stats.hotCtr + numSegments }
  | _ => stats

def SegmapManager.addTyped (man : SegmapManager) (numSegments : UInt32) :
    SegmentType → SegmapManager
  | .cursegColdData => { man with coldCtr := man.coldCtr + numSegments }
  | .cursegWarmData => { man with warmCtr := man.warmCtr + numSegments }
  | .cursegHotData => { man with hotCtr := man.hotCtr + numSegments }
  | _ => man

-- Entries of `segmap_man.fs` are made on demand, at the end of those in use.
def getFileStatsIndex (fs : List FileStats) (filename : CString) : List FileStats × Nat :=
  match fs.findIdx? fun stats => sameName stats.filename filename with
  | some i => (fs, i)
  | none => (fs ++ [⟨filename, 0, 0, 0, 0, 0, 0⟩], fs.length)

def setSegmentCounters (cfg : Config) (nrFiles numSegments : UInt32) (extent : Extent)
    (segI : SegmentInfo) (man : SegmapManager) : SegmapManager :=
  if extent.flags &&& fiemapExtentDataInline != 0 &&
      cfg.excludeFlags &&& fiemapExtentDataInline == 0 then man
  else
    let man := { man with segmentCtr := man.segmentCtr + numSegments }
    let man := man.addTyped numSegments segI.type
    if cfg.showClassStats && 1 < nrFiles then
      let (fs, index) := getFileStatsIndex man.fs extent.file
      { man with fs := fs.modify index fun stats =>
          (stats.addSegments numSegments extent.zone).addTyped numSegments segI.type }
    else man

def showConsecutiveSegments (cfg : Config) (nrFiles : UInt32) (counters : FileCounterMap)
    (segI : SegmentInfo) (extent : Extent) (segmentStart : UInt64) (state : ReportState) :
    ReportState × List Line :=
  let segmentEnd := extent.endSegment cfg.toGeometry
  let numSegments := segmentEnd - segmentStart
  let man := if cfg.showClassStats && cfg.procfs then
      setSegmentCounters cfg nrFiles (numSegments + 1).toUInt32 extent segI state.segmapMan
    else state.segmapMan
  let heading := showSegmentInfo cfg segI segmentStart state.curSegment
  let lines := if numSegments = 1 then
      heading ++ rep cfg [extentLine counters extent segmentStart (cfg.segmentLba segmentEnd)
        cfg.f2fsSegmentSectors]
    else
      rep cfg [.underscore, .formatter,
        .segmentRange segmentStart (segmentEnd - 1) (cfg.segmentLba segmentStart)
          (cfg.segmentLba segmentEnd) (numSegments * cfg.f2fsSegmentSectors)] ++
      heading ++
      rep cfg [.formatter, extentLine counters extent (cfg.segmentLba segmentStart)
        (cfg.segmentLba segmentEnd) (numSegments * cfg.f2fsSegmentSectors)]
  ({ state with curSegment := segmentStart, segmapMan := man }, lines)

def showRemainderSegment (cfg : Config) (counters : FileCounterMap) (segI : SegmentInfo)
    (extent : Extent) (state : ReportState) : ReportState × List Line :=
  let segmentStart := extent.endSegment cfg.toGeometry
  let remainder := extent.phyBlk + extent.len - cfg.segmentLba segmentStart
  ({ state with curSegment := segmentStart },
    showSegmentInfo cfg segI segmentStart state.curSegment ++
      rep cfg [extentLine counters extent (cfg.segmentLba segmentStart)
        (cfg.segmentLba segmentStart + remainder) remainder])

def showWholeExtent (cfg : Config) (nrFiles : UInt32) (counters : FileCounterMap)
    (segI : SegmentInfo) (extent : Extent) (state : ReportState) : ReportState × List Line :=
  let segmentId := cfg.segmentId extent.phyBlk
  let man := if segmentId = state.curSegment then state.segmapMan
    else setSegmentCounters cfg nrFiles 1 extent segI state.segmapMan
  ({ state with curSegment := segmentId, segmapMan := man },
    showSegmentInfo cfg segI segmentId state.curSegment ++
      rep cfg [extentLine counters extent extent.phyBlk (extent.phyBlk + extent.len) extent.len])

-- Part 1: the beginning of the extent to the end of that single segment.
def showBeginning (cfg : Config) (nrFiles : UInt32) (counters : FileCounterMap)
    (segI : SegmentInfo) (extent : Extent) (state : ReportState) : ReportState × List Line :=
  let segmentId := cfg.segmentId extent.phyBlk
  if extent.phyBlk = cfg.segmentStart extent.phyBlk then (state, [])
  else
    ({ state with
        curSegment := segmentId
        segmapMan := setSegmentCounters cfg nrFiles 1 extent segI state.segmapMan },
      showSegmentInfo cfg segI segmentId state.curSegment ++
        showBeginningSegment cfg counters extent)

-- Part 2: all segments between the first and the last one.
def showMiddle (cfg : Config) (nrFiles : UInt32) (counters : FileCounterMap)
    (segI : SegmentInfo) (extent : Extent) (state : ReportState) : ReportState × List Line :=
  let segmentId := if extent.phyBlk = cfg.segmentStart extent.phyBlk
    then cfg.segmentId extent.phyBlk else cfg.segmentId extent.phyBlk + 1
  let span := cfg.segmentStart (extent.phyBlk + extent.len) - cfg.segmentStart extent.phyBlk
  if 1 < span >>> cfg.segmentShift.toUInt64 then
    showConsecutiveSegments cfg nrFiles counters segI extent segmentId state
  else (state, [])

-- Part 3: what does not fill the last segment.
def showRemainder (cfg : Config) (nrFiles : UInt32) (counters : FileCounterMap)
    (segI : SegmentInfo) (extent : Extent) (state : ReportState) : ReportState × List Line :=
  if cfg.segmentStart (extent.phyBlk + extent.len) = extent.phyBlk + extent.len then (state, [])
  else
    let (state, lines) := showRemainderSegment cfg counters segI extent state
    ({ state with
        segmapMan := setSegmentCounters cfg nrFiles 1 extent segI state.segmapMan }, lines)

def showExtent (cfg : Config) (nrFiles : UInt32) (counters : FileCounterMap)
    (segI : SegmentInfo) (extent : Extent) (state : ReportState) : ReportState × List Line :=
  if extent.inOneSegment cfg.toGeometry then
    showWholeExtent cfg nrFiles counters segI extent state
  else
    let (state, beginning) := showBeginning cfg nrFiles counters segI extent state
    let (state, middle) := showMiddle cfg nrFiles counters segI extent state
    let (state, remainder) := showRemainder cfg nrFiles counters segI extent state
    (state, beginning ++ middle ++ remainder)

def FileCounter.addTyped (entry : FileCounter) (numSegments : UInt32) : SegmentType → FileCounter
  | .cursegColdData => { entry with coldCtr := entry.coldCtr + numSegments }
  | .cursegWarmData => { entry with warmCtr := entry.warmCtr + numSegments }
  | .cursegHotData => { entry with hotCtr := entry.hotCtr + numSegments }
  | _ => entry

def FileCounter.addSegments (entry : FileCounter) (numSegments curSegment : UInt32)
    (type : SegmentType) : FileCounter :=
  if entry.lastSegmentId = curSegment.toUInt64 then entry
  else { entry with
    segmentCtr := entry.segmentCtr + numSegments
    lastSegmentId := curSegment.toUInt64 }.addTyped numSegments type

-- The zone of an extent as it is worked out, in 32-bit arithmetic, from the number of the extent's
-- first segment.
def segmentZone (cfg : Config) (curSegment : UInt32) : Except Abort UInt32 :=
  getZoneNumber cfg ((curSegment <<< cfg.segmentShift) >>> cfg.znsSectorShift).toUInt64

def FileCounter.addZones (cfg : Config) (entry : FileCounter) (numSegments zone : UInt32)
    (zoneCap : UInt64) : Except Abort FileCounter :=
  if entry.lastZone = zone then .ok entry
  else if zoneCap = 0 then .error .divideByZero
  else
    let sectors := (numSegments * f2fsSegmentBytes) >>> cfg.sectorShift
    .ok { entry with
      zoneCtr := entry.zoneCtr + (sectors.toUInt64 / zoneCap + 1).toUInt32
      lastZone := zone }

-- A file that is not in the map is counted in the entry after those in use.
def increaseFileSegmentCounter (cfg : Config) (counters : FileCounterMap) (file : CString)
    (numSegments curSegment : UInt32) (segI : SegmentInfo) (zoneCap : UInt64) :
    Except Abort FileCounterMap := do
  let index := (counters.find? file).getD counters.fileCtr.toNat
  let entry ← deref counters.files[index]?
  let zone ← segmentZone cfg curSegment
  let entry ← (entry.addSegments numSegments curSegment segI.type).addZones cfg numSegments zone
    zoneCap
  pure { counters with files := counters.files.set index entry }

def repZoneInfo (cfg : Config) (dev : Device) (zone : UInt32) : Except Abort (List Line) :=
  if cfg.showOnlyStats then .ok [] else printZoneInfo cfg dev zone

def showZoneHeading (cfg : Config) (dev : Device) (extent : Extent) (state : ReportState) :
    Except Abort (ReportState × List Line) :=
  if state.currentZone = extent.zone then pure (state, [])
  else do
    let formatter := if state.currentZone = 0 then [] else rep cfg [.formatter]
    let heading ← repZoneInfo cfg dev extent.zone
    pure ({ state with currentZone := extent.zone }, formatter ++ heading)

def showExtentTurn (cfg : Config) (dev : Device) (nrFiles : UInt32) (extent : Extent)
    (state : ReportState) : Except Abort (CursorLoop.Flow ReportState (List Line)) :=
  let segmentId := cfg.segmentId extent.phyBlk
  if cfg.endLba ≤ cfg.segmentLba segmentId then pure (.leave state)
  else if cfg.segmentLba segmentId < cfg.startLba then pure (.again state)
  else do
    let (state, heading) ← showZoneHeading cfg dev extent state
    let numSegments := extent.endSegment cfg.toGeometry - segmentId + 1
    let segI ← deref extent.fsInfo
    let counters ← deref state.fileCounterMap
    let counters ← increaseFileSegmentCounter cfg counters extent.file numSegments.toUInt32
      segmentId.toUInt32 segI extent.zoneCap
    let (state, lines) := showExtent cfg nrFiles counters segI extent
      { state with fileCounterMap := some counters }
    pure (.advance state (heading ++ lines))

def ZoneMap.scanned (zonemap : ZoneMap) : List (List Extent) :=
  (zonemap.zones.filter fun zone => zone.extentCtr != 0).map Zone.extents

def ReportState.start (ctrl : Control) : ReportState :=
  { currentZone := 0
    curSegment := ctrl.curSegment
    segmapMan := ⟨0, 0, 0, 0, []⟩
    fileCounterMap := ctrl.fileCounterMap }

abbrev ReportPass := CursorLoop.Pass Extent ReportState (List Line)

def showSegments (cfg : Config) (dev : Device) (fuel : List Extent → Nat) (ctrl : Control) :
    Option (Except Abort (ReportState × List ReportPass)) :=
  CursorLoop.scans (showExtentTurn cfg dev ctrl.nrFiles) id .ok fuel ctrl.zonemap.scanned
    (ReportState.start ctrl)

def fileStatsLines (cfg : Config) (ctrl : Control) (state : ReportState) :
    Except Abort (List StatsLine) :=
  if cfg.isdir && 1 < ctrl.nrFiles then do
    let counters ← deref state.fileCounterMap
    pure ((counters.files.take counters.fileCtr.toNat).map StatsLine.file)
  else pure []

def showSegmentStats (cfg : Config) (ctrl : Control) (state : ReportState) :
    Except Abort (List StatsLine) := do
  let inlined := cfg.excludeFlags &&& fiemapExtentDataInline == 0
  let files ← fileStatsLines cfg ctrl state
  pure ((if inlined then [.inlinedWarning] else []) ++ [.columns] ++
    (if 0 < ctrl.inlinedExtentCtr && inlined then [.inlined ctrl.inlinedExtentCtr] else []) ++ files)

def showSegmentReport (cfg : Config) (dev : Device) (fuel : List Extent → Nat) (ctrl : Control) :
    Option (Except Abort (List Line × List StatsLine)) :=
  (showSegments cfg dev fuel ctrl).map fun loops => do
    let (final, passes) ← loops
    let stats ← showSegmentStats cfg ctrl final
    pure (rep cfg [.equalFormatter, .title, .equalFormatter] ++ passes.flatMap (·.out), stats)

end ZnsTools
