import ZnsTools.FiemapReport
import ZnsTools.InodeSearch
import ZnsTools.ProcfsFallback

set_option autoImplicit false

namespace ZnsTools

-- The tools from set-up to report, against what each call that asks a device comes to.

inductive Asked (α : Type) where
  | openFailed
  | ioctlFailed
  | answered (value : α)
  deriving DecidableEq, Repr

def Asked.getD {α : Type} (failed : α) : Asked α → α
  | .answered value => value
  | _ => failed

namespace SetUp

open PyText (Text)

structure ZnsdevCalls where
  opened : Bool
  zoned : Asked Unit
  sectorSize : Asked UInt64
  nrZones : Asked UInt32
  zoneReport : Asked Unit

-- What `set_super_block_info` reads of the first device.
structure SuperBlock where
  devName : Text
  segmentCountMain : UInt32

structure F2fsCalls where
  device : Bool
  superBlock : Option SuperBlock
  bdevZoned : Asked Unit
  bdevSectorSize : Asked UInt64
  znsdev : ZnsdevCalls
  devSize : Asked UInt64
  zoneSize : Asked UInt64
  nrZones : Asked UInt32
  procfs : Procfs

structure BtrfsCalls where
  znsdev : ZnsdevCalls
  zoneSize : Asked UInt64
  nrZones : Asked UInt32

inductive FileSystem where
  | f2fs (calls : F2fsCalls)
  | btrfs (calls : BtrfsCalls)
  | other

def isZoned : Asked Unit → Except Abort Bool
  | .openFailed => .error .exitFailure
  | .ioctlFailed => .ok false
  | .answered _ => .ok true

def getSectorSize : Asked UInt64 → Except Abort UInt64
  | .answered sectorSize => .ok sectorSize
  | _ => .error .exitFailure

-- `zns_sector_shift` after `get_sector_size`, which never resets it.
def znsSectorShiftAfter (znsSectorShift : UInt32) (sectorSize : UInt64) : UInt32 :=
  if sectorSize = 4096 then 3 else znsSectorShift

def getDevSize (devSize : Asked UInt64) : UInt64 :=
  devSize.getD 0xFFFFFFFFFFFFFFFF

def getZoneSize (znsSectorShift : UInt32) : Asked UInt64 → UInt64
  | .answered zoneSize => ZnsTools.getZoneSize znsSectorShift zoneSize
  | _ => 0

def getNrZones (nrZones : Asked UInt32) : UInt32 :=
  nrZones.getD 0

-- `zonemap` stays NULL if the device does not open.
def initZoneMap (nrZones : UInt32) : Asked Unit → Except Abort (Option ZoneMap)
  | .openFailed => .ok none
  | .ioctlFailed => .error .exitFailure
  | .answered _ => .ok (some (ZnsTools.initZoneMap nrZones))

structure Znsdev where
  isZoned : Bool
  geometry : Geometry
  zonemap : Option ZoneMap

def initZnsdev (znsSectorShift : UInt32) (calls : ZnsdevCalls) : Except Abort Znsdev :=
  if calls.opened then do
    let zoned ← isZoned calls.zoned
    let sectorSize ← getSectorSize calls.sectorSize
    let zonemap ← initZoneMap (getNrZones calls.nrZones) calls.zoneReport
    pure {
      isZoned := zoned
      geometry := { initGeometry sectorSize.toUInt32 with
        znsSectorShift := znsSectorShiftAfter znsSectorShift sectorSize }
      zonemap := zonemap }
  else .error .exitFailure

def setSuperBlockInfo (calls : F2fsCalls) : Except Abort Znsdev := do
  let _ ← isZoned calls.bdevZoned
  let sectorSize ← getSectorSize calls.bdevSectorSize
  let znsdev ← initZnsdev (znsSectorShiftAfter 0 sectorSize) calls.znsdev
  if znsdev.isZoned then pure znsdev else .error .exitFailure

-- The end of either branch: nothing looks at the two results.
def setZones (cfg : Config) (znsdev : Znsdev) (offset : UInt64) (zoneSize : Asked UInt64)
    (nrZones : Asked UInt32) : Config :=
  let size := getZoneSize znsdev.geometry.znsSectorShift zoneSize
  { cfg with
    toGeometry := znsdev.geometry
    offset := offset
    znsdev := ⟨getNrZones nrZones, size, (~~~(size - 1)).toUInt32⟩ }

structure Ready where
  cfg : Config
  zonemap : Option ZoneMap

def initF2fs (cfg : Config) (calls : F2fsCalls) : Except Abort Ready :=
  if calls.device && calls.superBlock.isSome then do
    let znsdev ← setSuperBlockInfo calls
    pure ⟨setZones cfg znsdev (getDevSize calls.devSize) calls.zoneSize calls.nrZones,
      znsdev.zonemap⟩
  else .error .exitFailure

def initBtrfs (cfg : Config) (calls : BtrfsCalls) : Except Abort Ready := do
  let znsdev ← initZnsdev 0 calls.znsdev
  pure ⟨setZones cfg znsdev 0 calls.zoneSize calls.nrZones, znsdev.zonemap⟩

-- `none` is a file system whose magic value cannot be read.
def initCtrl (cfg : Config) : Option FileSystem → Except Abort Ready
  | none => .error .exitFailure
  | some (.f2fs calls) => initF2fs cfg calls
  | some (.btrfs calls) => initBtrfs cfg calls
  | some .other => .ok ⟨cfg, none⟩

def initFsManager (calls : F2fsCalls) (ready : Ready) : Except Abort Ready :=
  match calls.superBlock with
  | none => .error .exitFailure
  | some superBlock => do
    let cfg ← ZnsTools.checkDirInitCtrl ready.cfg calls.procfs superBlock.devName
      superBlock.segmentCountMain
    pure { ready with cfg := cfg }

def checkDirInitCtrl (cfg : Config) : Option FileSystem → Except Abort Ready
  | some (.f2fs calls) => initF2fs cfg calls >>= initFsManager calls
  | fs => initCtrl cfg fs

end SetUp

def Config.cleared : Config :=
  { sectorSize := 0, sectorShift := 0, znsSectorShift := 0, f2fsSegmentSectors := 0
    f2fsSegmentMask := 0, segmentShift := 0, znsdev := ⟨0, 0, 0⟩, offset := 0, excludeFlags := 0
    startZone := 0, endZone := 0, showClassStats := false, showOnlyStats := false
    procfs := false, isdir := false, fsInfoBytes := 0, fsManager := none }

def Machine.over (zonemap : ZoneMap) : Machine :=
  { ctrl := { nrFiles := 0, inlinedExtentCtr := 0, curSegment := 0, zonemap := zonemap
              fileCounterMap := none }
    call := none, accepted := [], opened := 0, failed := false }

-- Without a zone map the first extent that is not passed over is one access too many: its length
-- is added there before anything else is worked out. So is the count of extents after the call.
def unmappedCall (cfg : Config) : List (Device × FiemapReply) → Abort
  | [] => .badAccess
  | (_, .ioctlFailed) :: _ => .exitFailure
  | (_, .mapped n fm) :: rest =>
    if n = 0 then .exitFailure
    else if disregarded cfg fm then unmappedCall cfg rest
    else .badAccess

def unmappedVisits (cfg : Config) : List Visit → Abort
  | [] => .badAccess
  | .closedDir :: _ => .exitFailure
  | .file _ file :: rest =>
    match file.access with
    | .deleted => unmappedVisits cfg rest
    | .denied => .exitFailure
    | .opened => unmappedCall cfg file.answers.all

inductive Source where
  | dir (path : CString) (opened : Bool) (entries : Listing)
  | file (filename : CString) (entry : FileEntry)

def Source.isdir : Source → Bool
  | .dir .. => true
  | .file .. => false

def Source.visits : Source → List Visit
  | .dir path opened entries => if opened then entries.visits path else [.closedDir]
  | .file filename entry => if entry.access = .opened then [.file filename entry] else [.closedDir]

def mapSource (heap : Nat → FileCounter) (source : Source) (ready : SetUp.Ready) :
    Except Abort Machine :=
  match ready.zonemap with
  | none => .error (unmappedVisits ready.cfg source.visits)
  | some zonemap =>
    match source with
    | .dir path opened entries =>
      if opened then collectExtents ready.cfg heap path entries (Machine.over zonemap)
      else .error .exitFailure
    | .file filename entry =>
      if entry.access = .opened then collectFile ready.cfg heap filename entry (Machine.over zonemap)
      else .error .exitFailure

def znsFiemap (opts : FiemapOptions) (fs : Option SetUp.FileSystem) (heap : Nat → FileCounter)
    (filename : CString) (file : FileEntry) (dev : Device) : Except Abort FiemapReport :=
  if file.access = .opened then do
    let ready ← SetUp.initCtrl Config.cleared fs
    let m ← mapSource heap (.file filename file) ready
    printFiemapReport ready.cfg dev opts m.ctrl.zonemap
  else .error .exitFailure

-- zns.imap on a file; `sb` is the superblock as it was read.
def imapMain {ι : Type} (fs : Option SetUp.FileSystem) (access : FileAccess) (zones : Device)
    (sb : SuperBlock) (bdev : Option BlockDevice) (znsdev : Option (NodeDevice ι)) (stIno : UInt64)
    (turns : Nat) : Option (Except Abort (InodeReport ι)) :=
  if access = .opened then
    match SetUp.initCtrl Config.cleared fs with
    | .error abort => some (.error abort)
    | .ok ready => znsImap ready.cfg zones sb bdev znsdev stIno turns
  else some (.error .exitFailure)

structure SegmapOptions where
  excludeFlags : UInt32
  holes : FiemapOptions
  jsonDump : Bool
  startZone : UInt32
  endZone : UInt32
  setZone : Bool
  setBound : Bool
  showClassStats : Bool
  showOnlyStats : Bool
  procfs : Bool

-- -z excludes -s and -e, and statistics need -p.
def SegmapOptions.control (opts : SegmapOptions) (isdir : Bool) : Except Abort Config :=
  if opts.setZone && opts.setBound then .error .exitFailure
  else if opts.showClassStats && !opts.procfs && opts.showOnlyStats then .error .exitFailure
  else .ok { Config.cleared with
    excludeFlags := opts.excludeFlags
    startZone := opts.startZone
    endZone := opts.endZone
    showClassStats := opts.showClassStats && opts.procfs
    showOnlyStats := opts.showOnlyStats
    procfs := opts.procfs
    isdir := isdir }

def SegmapOptions.selectZones (opts : SegmapOptions) (cfg : Config) : Config :=
  { cfg with
    startZone := if cfg.startZone = 0 && !opts.setZone then 1 else cfg.startZone
    endZone := if cfg.endZone = 0 && !opts.setZone then cfg.znsdev.nrZones else cfg.endZone }

def segmapReady (opts : SegmapOptions) (fs : Option SetUp.FileSystem) (isdir : Bool) :
    Except Abort SetUp.Ready := do
  let cfg ← opts.control isdir
  let ready ← SetUp.checkDirInitCtrl cfg fs
  pure { ready with cfg := opts.selectZones ready.cfg }

-- The JSON document has no part in what follows; a run is looked at up to it.
inductive SegmapOutput where
  | nothing
  | segments (lines : List Line) (stats : List StatsLine)
  | extents (report : FiemapReport)
  | document
  deriving DecidableEq

def znsSegmapReport (opts : SegmapOptions) (fs : Option SetUp.FileSystem) (source : Source)
    (dev : Device) (fuel : List Extent → Nat) (cfg : Config) (m : Machine) :
    Option (Except Abort SegmapOutput) :=
  if source.isdir && m.ctrl.zonemap.extentCtr == 0 then some (.ok .nothing)
  else
    match fs with
    | some (.f2fs _) =>
      if opts.jsonDump then some (.ok .document)
      else (showSegmentReport cfg dev fuel m.ctrl).map fun report =>
        report.map fun report => .segments report.1 report.2
    | some (.btrfs _) =>
      some ((printFiemapReport cfg dev opts.holes m.ctrl.zonemap).map .extents)
    | _ => some (.ok .nothing)

def znsSegmap (opts : SegmapOptions) (fs : Option SetUp.FileSystem) (heap : Nat → FileCounter)
    (source : Source) (dev : Device) (fuel : List Extent → Nat) :
    Option (Except Abort SegmapOutput) :=
  let mapped := do
    let ready ← segmapReady opts fs source.isdir
    let m ← mapSource heap source ready
    pure (ready.cfg, m)
  match mapped with
  | .error abort => some (.error abort)
  | .ok (cfg, m) => znsSegmapReport opts fs source dev fuel cfg m

end ZnsTools
