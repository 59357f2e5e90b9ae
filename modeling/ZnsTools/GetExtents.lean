import ZnsTools.Segments
import ZnsTools.ZoneList
import ZnsTools.ZoneNumber

set_option autoImplicit false

namespace ZnsTools

structure Fiemap where
  fmStart : UInt64
  fmLength : UInt64
  deriving DecidableEq, Repr

structure FiemapExtent where
  feLogical : UInt64
  fePhysical : UInt64
  feLength : UInt64
  feFlags : UInt32
  deriving DecidableEq, Repr

-- What `FS_IOC_FIEMAP` leaves behind; only the first of the returned extents is ever read.
inductive FiemapReply where
  | ioctlFailed
  | mapped (fmMappedExtents : UInt32) (fmExtent : FiemapExtent)
  deriving DecidableEq, Repr

structure Call where
  filename : CString
  fiemap : Fiemap
  extCtr : UInt64
  deriving DecidableEq, Repr

inductive Progress where
  | more (call : Call)
  | done (success : Bool)
  deriving DecidableEq, Repr

-- `strlen` of both names, then `strncmp` over that length.
def sameName (stored file : CString) : Bool :=
  stored.length == file.length && stored.take stored.length == file.take stored.length

def FileCounterMap.find? (counters : FileCounterMap) (file : CString) : Option Nat :=
  (counters.files.take counters.fileCtr.toNat).findIdx? fun entry => sameName entry.file file

def increaseFileExtentCounter (file : CString) (counters : FileCounterMap) : FileCounterMap :=
  match (counters.files.take counters.fileCtr.toNat).findIdx? fun entry => entry.file == file with
  | some i =>
    { counters with files := counters.files.modify i fun entry =>
        { entry with extCtr := entry.extCtr + 1 } }
  | none =>
    { fileCtr := counters.fileCtr + 1
      files := counters.files.modify counters.fileCtr.toNat fun entry =>
        { entry with file := file.take maxFileLength, extCtr := 1 } }

def getFileExtentCount (counters : FileCounterMap) (file : CString) : UInt32 :=
  match counters.find? file with
  | some i => (counters.files[i]?.map FileCounter.extCtr).getD 0
  | none => 0

-- `realloc` leaves what the heap held (`heap`) in the entries it adds.
def allocFileCounter (ctrl : Control) (heap : FileCounter) : FileCounterMap :=
  match ctrl.fileCounterMap with
  | none => { fileCtr := 0, files := [FileCounter.zero] }
  | some counters =>
    let entries := (ctrl.nrFiles + 1).toNat
    let files := counters.files.take entries ++
      List.replicate (entries - counters.files.length) heap
    { counters with files := files.set counters.fileCtr.toNat FileCounter.zero }

def openCall (filename : CString) (stBlocks : UInt64) : Call :=
  { filename := filename
    fiemap := { fmStart := 0, fmLength := stBlocks <<< 3 }
    extCtr := 0 }

def getZoneInfo (cfg : Config) (dev : Device) (extent : Extent) : Except Abort Extent :=
  match dev (cfg.zoneSectors * extent.zone.toUInt64) with
  | .openFailed => .ok extent
  | .ioctlFailed => .error .exitFailure
  | .zone report =>
    let shift := cfg.znsSectorShift.toUInt64
    .ok { extent with
      zoneWp := report.wp >>> shift
      zoneLbae := (report.start >>> shift) + (report.capacity >>> shift)
      zoneCap := report.capacity >>> shift
      zoneLbas := report.start >>> shift }

def fsInfoInitialize (fsManager : Option SegmentManager) (segment : UInt32) :
    Except Abort SegmentInfo :=
  match fsManager with
  | none => .error .badAccess
  | some segman =>
    match segman.segments[segment.toNat]? with
    | none => .error .badAccess
    | some segI => .ok segI

def setFsInfo (cfg : Config) (extent : Extent) : Except Abort Extent :=
  if 0 < cfg.fsInfoBytes then do
    let segI ← fsInfoInitialize cfg.fsManager (cfg.segmentId extent.phyBlk).toUInt32
    pure { extent with fsInfo := some segI }
  else pure extent

def physicalBlk (cfg : Config) (fm : FiemapExtent) : UInt64 :=
  (fm.fePhysical - cfg.offset) >>> cfg.sectorShift.toUInt64

def mappedExtent (cfg : Config) (nrFiles : UInt32) (call : Call) (fm : FiemapExtent)
    (zone : UInt32) : Extent :=
  { zone := zone
    flags := fm.feFlags
    extNr := call.extCtr.toUInt32
    fileID := nrFiles
    logicalBlk := fm.feLogical >>> cfg.sectorShift.toUInt64
    phyBlk := physicalBlk cfg fm
    zoneLbas := 0
    zoneCap := 0
    len := fm.feLength >>> cfg.sectorShift.toUInt64
    zoneSize := cfg.znsdev.zoneSize
    zoneWp := 0
    zoneLbae := 0
    fsInfo := none
    file := call.filename.take (maxFileLength - 1) }

def newExtent (cfg : Config) (dev : Device) (nrFiles : UInt32) (call : Call)
    (fm : FiemapExtent) : Except Abort Extent := do
  let zone ← getZoneNumber cfg (physicalBlk cfg fm <<< cfg.znsSectorShift.toUInt64)
  let extent ← getZoneInfo cfg dev (mappedExtent cfg nrFiles call fm zone)
  setFsInfo cfg extent

def storeExtent (ctrl : Control) (extent : Extent) : Except Abort Control := do
  let zonemap ← addExtentToZoneList ctrl.zonemap extent
  pure { ctrl with
    zonemap := { zonemap with
      extentCtr := zonemap.extentCtr + 1
      cumExtentSize := zonemap.cumExtentSize + extent.len
      zoneCtr := zonemap.zoneCtr + 1 }
    fileCounterMap := ctrl.fileCounterMap.map (increaseFileExtentCounter extent.file) }

def disregarded (cfg : Config) (fm : FiemapExtent) : Bool :=
  fm.fePhysical < cfg.offset || fm.feFlags &&& cfg.excludeFlags != 0

def acceptExtent (cfg : Config) (dev : Device) (call : Call) (fm : FiemapExtent)
    (ctrl : Control) : Except Abort (Control × Option Extent) :=
  if disregarded cfg fm then pure (ctrl, none)
  else do
    let extent ← newExtent cfg dev ctrl.nrFiles call fm
    let ctrl ← storeExtent ctrl extent
    pure (ctrl, some extent)

-- One turn of the `do` loop; the second component is the extent it filed, if any.
def getExtentsTurn (cfg : Config) (dev : Device) (call : Call) (reply : FiemapReply)
    (ctrl : Control) : Except Abort (Control × Option Extent × Progress) :=
  match reply with
  | .ioctlFailed => pure (ctrl, none, .done false)
  | .mapped fmMappedExtents fm =>
    if fmMappedExtents = 0 then .error .exitFailure
    else do
      let (ctrl, accepted) ← acceptExtent cfg dev call fm ctrl
      let extCtr := if accepted.isSome then call.extCtr + 1 else call.extCtr
      let ctrl := if fm.feFlags &&& fiemapExtentDataInline != 0 then
        { ctrl with inlinedExtentCtr := ctrl.inlinedExtentCtr + 1 } else ctrl
      if fm.feFlags &&& fiemapExtentLast != 0 then
        pure ({ ctrl with nrFiles := ctrl.nrFiles + 1 }, accepted, .done true)
      else
        pure (ctrl, accepted, .more { call with
          fiemap := { call.fiemap with fmStart := fm.feLogical + fm.feLength }
          extCtr := extCtr })

end ZnsTools
