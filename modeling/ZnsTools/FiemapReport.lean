import ZnsTools.SegmentReport
import ZnsTools.Shared.Binary64

set_option autoImplicit false

namespace ZnsTools

structure FiemapOptions where
  showHoles : Bool
  showFlags : Bool
  deriving DecidableEq, Repr

-- `leading` is the hole in front of the first extent of a zone, which is marked with a longer line.
structure FiemapHole where
  leading : Bool
  pbas : UInt64
  pbae : UInt64
  size : UInt64
  deriving DecidableEq, Repr

structure FiemapExtentLine where
  extId : UInt32
  pbas : UInt64
  pbae : UInt64
  size : UInt64
  deriving DecidableEq, Repr

inductive FiemapLine where
  | holeFormatter
  | hole (hole : FiemapHole)
  | extent (line : FiemapExtentLine)
  | flags (names : List String)
  deriving DecidableEq, Repr

structure FiemapBlock where
  zone : UInt32
  heading : List Line
  lines : List FiemapLine
  deriving DecidableEq, Repr

-- `off` if holes are not shown, and `empty` is the line that says so if there are none.
inductive HoleStats where
  | off
  | empty
  | summary (noh : UInt32) (ths ahs : UInt64) (eahs : ℚ)
  deriving DecidableEq

structure FiemapStats where
  noe : UInt64
  tes : UInt64
  aes : UInt64
  eaes : ℚ
  noz : UInt32
  holes : HoleStats
  deriving DecidableEq

structure FiemapReport where
  blocks : List FiemapBlock
  stats : FiemapStats
  deriving DecidableEq

structure FiemapState where
  prev : Option Extent
  holeCtr : UInt32
  holeCumSize : UInt64
  deriving DecidableEq, Repr

def flagNames : List (UInt32 × String) :=
  [(0x2, "FIEMAP_EXTENT_UNKNOWN"), (0x4, "FIEMAP_EXTENT_DELALLOC"),
    (0x8, "FIEMAP_EXTENT_ENCODED"), (0x80, "FIEMAP_EXTENT_DATA_ENCRYPTED"),
    (0x100, "FIEMAP_EXTENT_NOT_ALIGNED"), (0x200, "FIEMAP_EXTENT_DATA_INLINE"),
    (0x400, "FIEMAP_EXTENT_DATA_TAIL"), (0x800, "FIEMAP_EXTENT_UNWRITTEN"),
    (0x1000, "FIEMAP_EXTENT_MERGED")]

def showExtentFlags (flags : UInt32) : FiemapLine :=
  .flags ((flagNames.filter fun flag => flags &&& flag.1 != 0).map Prod.snd)

def Extent.pbae (extent : Extent) : UInt64 :=
  extent.phyBlk + extent.len

def betweenHole (opts : FiemapOptions) (prev : Option Extent) (current : Extent) :
    Option FiemapHole :=
  match prev with
  | none => none
  | some prev =>
    if opts.showHoles && prev.pbae != current.phyBlk && prev.zone == current.zone then
      some ⟨false, prev.pbae, current.phyBlk, current.phyBlk - prev.pbae⟩
    else none

def leadingHole (opts : FiemapOptions) (prev : Option Extent) (current : Extent)
    (next : List Extent) : Option FiemapHole :=
  match prev with
  | none => none
  | some prev =>
    if opts.showHoles && !next.isEmpty && current.zoneLbas != current.phyBlk &&
        prev.zone != current.zone then
      some ⟨true, current.zoneLbas, current.phyBlk, current.phyBlk - current.zoneLbas⟩
    else none

def trailingHole (opts : FiemapOptions) (current : Extent) (next : List Extent) :
    Option FiemapHole :=
  if opts.showHoles && next.isEmpty && current.pbae != current.zoneLbae &&
      current.pbae < current.zoneWp then
    let holeEnd := if current.zoneWp < current.zoneLbae then current.zoneWp else current.zoneLbae
    some ⟨false, current.pbae, holeEnd, holeEnd - current.pbae⟩
  else none

def FiemapState.addHole (state : FiemapState) (hole : FiemapHole) : FiemapState :=
  { state with
    holeCtr := state.holeCtr + 1
    holeCumSize := state.holeCumSize + hole.size }

def holeLines : Option FiemapHole → List FiemapLine
  | none => []
  | some hole => [.holeFormatter, .hole hole, .holeFormatter]

def fiemapExtentLines (opts : FiemapOptions) (current : Extent) : List FiemapLine :=
  .extent ⟨current.extNr + 1, current.phyBlk, current.pbae, current.len⟩ ::
    if current.flags != 0 && opts.showFlags then [showExtentFlags current.flags] else []

-- One pass of the loop over the extents of a zone; `next` is the rest of the list.
def fiemapExtent (opts : FiemapOptions) (current : Extent) (next : List Extent)
    (state : FiemapState) : FiemapState × List FiemapLine :=
  let between := betweenHole opts state.prev current
  let leading := leadingHole opts state.prev current next
  let trailing := trailingHole opts current next
  let holes := between.toList ++ leading.toList ++ trailing.toList
  ({ holes.foldl FiemapState.addHole state with prev := some current },
    holeLines between ++ holeLines leading ++ fiemapExtentLines opts current ++
      holeLines trailing)

def fiemapExtents (opts : FiemapOptions) : List Extent → FiemapState →
    FiemapState × List FiemapLine
  | [], state => (state, [])
  | current :: next, state =>
    let (state, lines) := fiemapExtent opts current next state
    let (state, more) := fiemapExtents opts next state
    (state, lines ++ more)

def fiemapZones (cfg : Config) (dev : Device) (opts : FiemapOptions) :
    Nat → List Zone → FiemapState → Except Abort (FiemapState × List FiemapBlock)
  | _, [], state => .ok (state, [])
  | i, zone :: rest, state =>
    if zone.extentCtr = 0 then fiemapZones cfg dev opts (i + 1) rest state
    else do
      let heading ← printZoneInfo cfg dev i.toUInt32
      let (state, lines) := fiemapExtents opts zone.extents state
      let (state, blocks) ← fiemapZones cfg dev opts (i + 1) rest state
      pure (state, ⟨i.toUInt32, heading, lines⟩ :: blocks)

def FiemapState.start : FiemapState :=
  ⟨none, 0, 0⟩

def fiemapMappings (cfg : Config) (dev : Device) (opts : FiemapOptions) (zonemap : ZoneMap) :
    Except Abort (FiemapState × List FiemapBlock) :=
  fiemapZones cfg dev opts 0 zonemap.zones FiemapState.start

def doubleQuotient (a b : Nat) : ℚ :=
  Binary64.toDouble (Binary64.toDouble a / Binary64.toDouble b)

def fiemapHoleStats (opts : FiemapOptions) (state : FiemapState) : HoleStats :=
  if !opts.showHoles then .off
  else if state.holeCtr = 0 then .empty
  else .summary state.holeCtr state.holeCumSize (state.holeCumSize / state.holeCtr.toUInt64)
    (doubleQuotient state.holeCumSize.toNat state.holeCtr.toNat)

def fiemapStats (opts : FiemapOptions) (zonemap : ZoneMap) (state : FiemapState) :
    Except Abort FiemapStats :=
  if zonemap.extentCtr = 0 then .error .divideByZero
  else .ok {
    noe := zonemap.extentCtr
    tes := zonemap.cumExtentSize
    aes := zonemap.cumExtentSize / zonemap.extentCtr
    eaes := doubleQuotient zonemap.cumExtentSize.toNat zonemap.extentCtr.toNat
    noz := zonemap.zoneCtr
    holes := fiemapHoleStats opts state }

def printFiemapReport (cfg : Config) (dev : Device) (opts : FiemapOptions) (zonemap : ZoneMap) :
    Except Abort FiemapReport := do
  let (state, blocks) ← fiemapMappings cfg dev opts zonemap
  let stats ← fiemapStats opts zonemap state
  pure ⟨blocks, stats⟩

end ZnsTools
