import ZnsTools.SegmentReport
import ZnsTools.Shared.KeyedObject

set_option autoImplicit false

namespace ZnsTools

-- The texts of numbers, cut off where the buffer of `snprintf` ends.

def hexText (value : Nat) (length : Nat) : List Char :=
  ('0' :: 'x' :: Nat.toDigits 16 value).take length

def uint64ToHexStringCast (value : UInt64) : List Char :=
  hexText value.toNat 14

def uint32ToHexStringCast (value : UInt32) : List Char :=
  hexText value.toNat 10

def decimal (value : Int) : List Char :=
  if value < 0 then '-' :: Nat.toDigits 10 value.natAbs else Nat.toDigits 10 value.natAbs

def uint32ToStringCast (value : UInt32) : List Char :=
  (decimal value.toInt32.toInt).take 3

structure Hex64 where
  value : UInt64
  deriving DecidableEq, Repr

structure Hex32 where
  value : UInt32
  deriving DecidableEq, Repr

def Hex64.text (field : Hex64) : List Char :=
  uint64ToHexStringCast field.value

def Hex32.text (field : Hex32) : List Char :=
  uint32ToHexStringCast field.value

structure JsonZoneInfo where
  lbas : Hex64
  lbae : Hex64
  cap : Hex64
  wp : Hex64
  size : Hex64
  state : Hex32
  mask : Hex32
  deriving DecidableEq, Repr

-- `segment` is the id that the object was made for; it is not part of the document. There is no
-- "type" member for a type without a name.
structure JsonSegmentInfo where
  segment : UInt64
  pbas : Hex64
  pbae : Hex64
  size : Hex64
  type : Option String
  validBlocks : Int32
  deriving DecidableEq, Repr

structure JsonExtentInfo where
  file : CString
  pbas : Hex64
  pbae : Hex64
  size : Hex64
  extNr : Int32
  totalExts : Int32
  deriving DecidableEq, Repr

-- A member of an "extents" array: an object that holds `info` as "ext_info", or `info` itself.
-- `source` is the extent that it was made for; it is not part of the document.
structure JsonExtent where
  source : Extent
  wrapped : Bool
  info : JsonExtentInfo
  deriving DecidableEq, Repr

structure JsonSegment where
  segInfo : Option JsonSegmentInfo
  extents : List JsonExtent
  deriving DecidableEq, Repr

abbrev JsonSegments := List (List Char × JsonSegment)

-- `zoneInfo` is null if the device could not be opened.
structure JsonZone where
  zoneInfo : Option JsonZoneInfo
  segments : JsonSegments
  deriving DecidableEq, Repr

abbrev JsonZonemap := List (List Char × JsonZone)

-- A pass can also still be running, in its own loop, when the fuel for that is used up.
inductive Halt where
  | abort (reason : Abort)
  | running
  deriving DecidableEq, Repr

-- `curseg` is the pending object without its extents, which are `cursegExtents`; `zonemap` is the
-- document so far.
structure JsonState where
  currentZone : UInt32
  curSegment : UInt64
  curseg : Option JsonSegmentInfo
  cursegExtents : List JsonExtent
  cursegId : UInt32
  zoneSegments : JsonSegments
  zonemap : JsonZonemap
  deriving DecidableEq, Repr

def jsonGetZoneInfo (cfg : Config) (dev : Device) (zone : UInt32) :
    Except Abort (Option JsonZoneInfo) :=
  match dev (cfg.zoneSectors * zone.toUInt64) with
  | .openFailed => .ok none
  | .ioctlFailed => .error .exitFailure
  | .zone report =>
    let shift := cfg.znsSectorShift.toUInt64
    .ok (some {
      lbas := ⟨report.start >>> shift⟩
      lbae := ⟨(report.start >>> shift) + (report.capacity >>> shift)⟩
      cap := ⟨report.capacity >>> shift⟩
      wp := ⟨report.wp >>> shift⟩
      size := ⟨report.len >>> shift⟩
      state := ⟨report.cond.toUInt32 <<< 4⟩
      mask := ⟨cfg.znsdev.zoneMask⟩ })

def typeMember (name : String) : Option String :=
  if name = "" then none else some name

def segmentInfoOf (cfg : Config) (segI : SegmentInfo) (segmentStart : UInt64) :
    JsonSegmentInfo where
  segment := segmentStart
  pbas := ⟨cfg.segmentLba segmentStart⟩
  pbae := ⟨cfg.segmentLba segmentStart + cfg.f2fsSegmentSectors⟩
  size := ⟨cfg.f2fsSegmentSectors⟩
  type := typeMember segI.type.name
  validBlocks := (segI.shownBlocks cfg.sectorShift).toInt32

def jsonGetSegmentInfo (cfg : Config) (extent : Extent) (segmentStart : UInt64) :
    Except Abort JsonSegmentInfo := do
  let segI ← deref extent.fsInfo
  pure (segmentInfoOf cfg segI segmentStart)

-- The three kinds of extent objects differ in their addresses only.
def extentInfoOf (counters : FileCounterMap) (extent : Extent) (pbas pbae size : UInt64) :
    JsonExtentInfo where
  file := extent.file
  pbas := ⟨pbas⟩
  pbae := ⟨pbae⟩
  size := ⟨size⟩
  extNr := (extent.extNr + 1).toInt32
  totalExts := (getFileExtentCount counters extent.file).toInt32

def jsonExtentInfo (counters : Option FileCounterMap) (extent : Extent) (pbas pbae size : UInt64) :
    Except Abort JsonExtentInfo := do
  let counters ← deref counters
  pure (extentInfoOf counters extent pbas pbae size)

def jsonGetExtentInfo (counters : Option FileCounterMap) (extent : Extent) :
    Except Abort JsonExtentInfo :=
  jsonExtentInfo counters extent extent.phyBlk (extent.phyBlk + extent.len) extent.len

def jsonGetBeginningSegmentExtentInfo (cfg : Config) (counters : Option FileCounterMap)
    (extent : Extent) : Except Abort JsonExtentInfo :=
  let segmentEnd := cfg.segmentStart extent.phyBlk + cfg.f2fsSegmentSectors
  jsonExtentInfo counters extent extent.phyBlk segmentEnd (segmentEnd - extent.phyBlk)

def jsonAddSingleSegmentExtentInfo (cfg : Config) (counters : Option FileCounterMap)
    (extent : Extent) (segmentStart : UInt64) (root : JsonSegments) :
    Except Abort (JsonSegments × JsonSegmentInfo) := do
  let segInfo ← jsonGetSegmentInfo cfg extent segmentStart
  let info ← jsonGetExtentInfo counters extent
  let curseg : JsonSegment := ⟨some segInfo, [⟨extent, true, info⟩]⟩
  pure (KeyedObject.add root (uint32ToStringCast segmentStart.toUInt32) curseg, segInfo)

-- The `for` loop over `cur`; the segment infos that it makes are collected in `made`.
def jsonSegmentLoop (cfg : Config) (counters : Option FileCounterMap) (extent : Extent)
    (segmentStart limit : UInt64) :
    Nat → UInt32 → JsonSegments → List JsonSegmentInfo →
      Except Halt (JsonSegments × List JsonSegmentInfo)
  | 0, _, _, _ => .error .running
  | fuel + 1, cur, root, made =>
    if cur.toUInt64 < limit then do
      let (root, segInfo) ← (jsonAddSingleSegmentExtentInfo cfg counters extent segmentStart
        root).mapError .abort
      jsonSegmentLoop cfg counters extent segmentStart limit fuel
        (cur.toUInt64 + cfg.f2fsSegmentSectors).toUInt32 root (made ++ [segInfo])
    else .ok (root, made)

def jsonAddConsecutiveSegmentsExtentInfo (cfg : Config) (counters : Option FileCounterMap)
    (fuel : Nat) (extent : Extent) (segmentStart : UInt64) (root : JsonSegments) :
    Except Halt (JsonSegments × List JsonSegmentInfo) :=
  let segmentEnd := extent.endSegment cfg.toGeometry
  if segmentEnd - segmentStart = 1 then do
    let (root, segInfo) ← (jsonAddSingleSegmentExtentInfo cfg counters extent segmentStart
      root).mapError .abort
    pure (root, [segInfo])
  else
    jsonSegmentLoop cfg counters extent segmentStart (segmentEnd - 1) fuel segmentStart.toUInt32
      root []

def jsonAddRemainderSegmentExtentInfo (cfg : Config) (counters : Option FileCounterMap)
    (extent : Extent) (root : List JsonExtent) : Except Abort (List JsonExtent) := do
  let segmentStart := extent.endSegment cfg.toGeometry
  let remainder := extent.phyBlk + extent.len - cfg.segmentLba segmentStart
  let info ← jsonExtentInfo counters extent (cfg.segmentLba segmentStart)
    (cfg.segmentLba segmentStart + remainder) remainder
  pure (root ++ [⟨extent, false, info⟩])

def jsonChangeSegment (cfg : Config) (extent : Extent) (segmentId : UInt64) (state : JsonState) :
    Except Abort (JsonState × List JsonSegmentInfo) :=
  if state.cursegId.toUInt64 = segmentId then pure (state, [])
  else do
    let segInfo ← jsonGetSegmentInfo cfg extent segmentId
    let zoneSegments := if state.cursegExtents.isEmpty then state.zoneSegments
      else KeyedObject.add state.zoneSegments (uint32ToStringCast segmentId.toUInt32)
        ⟨state.curseg, state.cursegExtents⟩
    pure ({ state with
      curseg := some segInfo
      cursegExtents := []
      cursegId := segmentId.toUInt32
      zoneSegments := zoneSegments }, [segInfo])

def jsonWholeExtent (cfg : Config) (counters : Option FileCounterMap) (extent : Extent)
    (state : JsonState) : Except Abort JsonState := do
  let info ← jsonGetExtentInfo counters extent
  pure { state with
    cursegExtents := state.cursegExtents ++ [⟨extent, true, info⟩]
    curSegment := cfg.segmentId extent.phyBlk }

-- Part 1: the beginning of the extent to the end of that single segment.
def jsonBeginning (cfg : Config) (counters : Option FileCounterMap) (extent : Extent)
    (state : JsonState) : Except Abort JsonState :=
  if extent.phyBlk = cfg.segmentStart extent.phyBlk then pure state
  else do
    let info ← jsonGetBeginningSegmentExtentInfo cfg counters extent
    pure { state with cursegExtents := state.cursegExtents ++ [⟨extent, true, info⟩] }

-- Part 2: all segments between the first and the last one.
def jsonMiddle (cfg : Config) (counters : Option FileCounterMap) (fuel : Nat) (extent : Extent)
    (state : JsonState) : Except Halt (JsonState × List JsonSegmentInfo) :=
  let segmentId := if extent.phyBlk = cfg.segmentStart extent.phyBlk
    then cfg.segmentId extent.phyBlk else cfg.segmentId extent.phyBlk + 1
  let span := cfg.segmentStart (extent.phyBlk + extent.len) - cfg.segmentStart extent.phyBlk
  if 1 < span >>> cfg.segmentShift.toUInt64 then do
    let (root, made) ← jsonAddConsecutiveSegmentsExtentInfo cfg counters fuel extent segmentId
      state.zoneSegments
    pure ({ state with zoneSegments := root }, made)
  else pure (state, [])

-- Part 3: what does not fill the last segment.
def jsonRemainder (cfg : Config) (counters : Option FileCounterMap) (extent : Extent)
    (state : JsonState) : Except Abort JsonState :=
  if cfg.segmentStart (extent.phyBlk + extent.len) = extent.phyBlk + extent.len then pure state
  else do
    let extents ← jsonAddRemainderSegmentExtentInfo cfg counters extent state.cursegExtents
    pure { state with cursegExtents := extents }

-- One pass of the loop over the extents of a zone, with the segment infos it makes.
def jsonExtentTurn (cfg : Config) (counters : Option FileCounterMap) (fuel : Nat) (extent : Extent)
    (state : JsonState) : Except Halt (CursorLoop.Flow JsonState (List JsonSegmentInfo)) :=
  let segmentId := cfg.segmentId extent.phyBlk
  if cfg.endLba ≤ cfg.segmentLba segmentId then pure (.leave state)
  else if cfg.segmentLba segmentId < cfg.startLba then pure (.again state)
  else do
    let (state, first) ← (jsonChangeSegment cfg extent segmentId
      { state with currentZone := extent.zone }).mapError .abort
    if extent.inOneSegment cfg.toGeometry then do
      let state ← (jsonWholeExtent cfg counters extent state).mapError .abort
      pure (.advance state first)
    else do
      let state ← (jsonBeginning cfg counters extent state).mapError .abort
      let (state, middle) ← jsonMiddle cfg counters fuel extent state
      let state ← (jsonRemainder cfg counters extent state).mapError .abort
      pure (.advance state (first ++ middle))

abbrev JsonPass := CursorLoop.Pass Extent JsonState (List JsonSegmentInfo)

def jsonBeginZone (state : JsonState) : JsonState :=
  { state with zoneSegments := [] }

-- Each zone that was looked into gets its object, under the number of the zone seen last.
def jsonEndZone (cfg : Config) (dev : Device) (state : JsonState) : Except Halt JsonState := do
  let zoneInfo ← (jsonGetZoneInfo cfg dev state.currentZone).mapError .abort
  pure { state with
    zonemap := KeyedObject.add state.zonemap (uint32ToStringCast state.currentZone)
      ⟨zoneInfo, state.zoneSegments⟩ }

def JsonState.start (ctrl : Control) : JsonState :=
  { currentZone := 0
    curSegment := ctrl.curSegment
    curseg := none
    cursegExtents := []
    cursegId := 0
    zoneSegments := []
    zonemap := [] }

def jsonDumpF2fsZonemap (cfg : Config) (dev : Device) (fuel : List Extent → Nat) (inner : Nat)
    (ctrl : Control) : Option (Except Halt (JsonState × List JsonPass)) :=
  CursorLoop.scans (jsonExtentTurn cfg ctrl.fileCounterMap inner) jsonBeginZone
    (jsonEndZone cfg dev) fuel ctrl.zonemap.scanned (JsonState.start ctrl)

end ZnsTools
