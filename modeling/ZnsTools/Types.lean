set_option autoImplicit false

namespace ZnsTools

-- The bytes of a C string before its terminating NUL.
abbrev CString := List UInt8

def f2fsSegmentBytes : UInt32 := 2097152
def f2fsBlksizeBits : UInt32 := 12
def maxFileLength : Nat := 50

def fiemapExtentLast : UInt32 := 0x1
def fiemapExtentDataInline : UInt32 := 0x200

-- How a run of the tool can end before its regular end.
inductive Abort where
  | exitFailure
  | divideByZero
  | badAccess
  deriving DecidableEq, Repr

-- `enum type`; procfs contents are converted with `atoi`, so any other number can be stored too.
inductive SegmentType where
  | cursegHotData
  | cursegWarmData
  | cursegColdData
  | cursegHotNode
  | cursegWarmNode
  | cursegColdNode
  | noCheckType
  | other (value : Int32)
  deriving DecidableEq, Repr

structure SegmentInfo where
  id : UInt32
  type : SegmentType
  validBlocks : UInt32
  deriving DecidableEq, Repr

-- `segments` has the entries that were allocated, `nrSegments` counts those filled from procfs.
structure SegmentManager where
  nrSegments : UInt32
  segments : List SegmentInfo
  deriving DecidableEq, Repr

structure Bdev where
  nrZones : UInt32
  zoneSize : UInt64
  zoneMask : UInt32
  deriving DecidableEq, Repr

structure Geometry where
  sectorSize : UInt32
  sectorShift : UInt32
  znsSectorShift : UInt32
  f2fsSegmentSectors : UInt64
  f2fsSegmentMask : UInt64
  segmentShift : UInt32
  deriving DecidableEq, Repr

-- `get_sector_size` sets the shift of the ZNS device, `init_znsdev` everything else.
def initGeometry (sectorSize : UInt32) : Geometry :=
  let sectorShift : UInt32 := if sectorSize = 512 then 9 else 12
  let f2fsSegmentSectors := (f2fsSegmentBytes >>> sectorShift).toUInt64
  { sectorSize := sectorSize
    sectorShift := sectorShift
    znsSectorShift := if sectorSize = 4096 then 3 else 0
    f2fsSegmentSectors := f2fsSegmentSectors
    f2fsSegmentMask := ~~~(f2fsSegmentSectors - 1)
    segmentShift := if sectorSize = 512 then 12 else 9 }

structure Extent where
  zone : UInt32
  flags : UInt32
  extNr : UInt32
  fileID : UInt32
  logicalBlk : UInt64
  phyBlk : UInt64
  zoneLbas : UInt64
  zoneCap : UInt64
  len : UInt64
  zoneSize : UInt64
  zoneWp : UInt64
  zoneLbae : UInt64
  fsInfo : Option SegmentInfo
  file : CString
  deriving DecidableEq, Repr

-- The list is the chain of nodes from `extents_head`.
structure Zone where
  extentCtr : UInt32
  extents : List Extent
  deriving DecidableEq, Repr

-- `nr_zones` is the length of `zones`.
structure ZoneMap where
  extentCtr : UInt64
  cumExtentSize : UInt64
  zoneCtr : UInt32
  zones : List Zone
  deriving DecidableEq, Repr

structure FileCounter where
  file : CString
  extCtr : UInt32
  segmentCtr : UInt32
  zoneCtr : UInt32
  coldCtr : UInt32
  warmCtr : UInt32
  hotCtr : UInt32
  lastSegmentId : UInt64
  lastZone : UInt32
  deriving DecidableEq, Repr

def FileCounter.zero : FileCounter :=
  ⟨[], 0, 0, 0, 0, 0, 0, 0, 0⟩

-- `files` has the entries that were allocated, the first `fileCtr` of them are in use.
structure FileCounterMap where
  fileCtr : UInt32
  files : List FileCounter
  deriving DecidableEq, Repr

-- `struct control` in two parts: what option parsing and set-up fix before the first file is
-- mapped, and what mapping and reporting change.
structure Config extends Geometry where
  znsdev : Bdev
  offset : UInt64
  excludeFlags : UInt32
  startZone : UInt32
  endZone : UInt32
  showClassStats : Bool
  showOnlyStats : Bool
  procfs : Bool
  isdir : Bool
  fsInfoBytes : UInt32
  fsManager : Option SegmentManager
  deriving DecidableEq, Repr

structure Control where
  nrFiles : UInt32
  inlinedExtentCtr : UInt64
  curSegment : UInt64
  zonemap : ZoneMap
  fileCounterMap : Option FileCounterMap
  deriving DecidableEq, Repr

structure BlkZone where
  start : UInt64
  len : UInt64
  wp : UInt64
  cond : UInt8
  capacity : UInt64
  deriving DecidableEq, Repr

-- What opening the ZNS device and asking for the zone at a sector with `BLKREPORTZONE` gives.
inductive ZoneReport where
  | openFailed
  | ioctlFailed
  | zone (report : BlkZone)
  deriving DecidableEq, Repr

abbrev Device := UInt64 → ZoneReport

def initZoneMap (nrZones : UInt32) : ZoneMap :=
  { extentCtr := 0, cumExtentSize := 0, zoneCtr := 0
    zones := List.replicate nrZones.toNat ⟨0, []⟩ }

def initControl (cfg : Config) : Control :=
  { nrFiles := 0, inlinedExtentCtr := 0, curSegment := 0
    zonemap := initZoneMap cfg.znsdev.nrZones, fileCounterMap := none }

def ZoneMap.extents (zonemap : ZoneMap) : List Extent :=
  zonemap.zones.flatMap Zone.extents

end ZnsTools
