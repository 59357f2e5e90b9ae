import ZnsTools.Shared.AlignDown
import ZnsTools.Shared.BpfMap

set_option autoImplicit false

namespace ZnsTools.Trace

open BpfMap

-- include/linux/blk_types.h and include/linux/nvme.h, v5.19
def reqOpRead : UInt32 := 0
def reqOpWrite : UInt32 := 1
def reqOpZoneAppend : UInt32 := 13
def reqOpZoneReset : UInt32 := 15
def reqOpZoneResetAll : UInt32 := 17
def reqOpDrvOut : UInt32 := 35

def nvmeCmdWrite : UInt8 := 0x01
def nvmeCmdRead : UInt8 := 0x02
def nvmeCmdZoneMgmtSend : UInt8 := 0x79
def nvmeZoneReset : UInt8 := 0x4

inductive Op where
  | read
  | write
  deriving DecidableEq, Repr

-- Appends are counted as writes.
def Op.code : Op → UInt8
  | .read => nvmeCmdRead
  | .write => nvmeCmdWrite

def sectorShift : UInt32 := 9

-- 1 << REQ_OP_BITS, less one
def reqOpMask : UInt32 := 0xff

-- What the probes read of a request and of the NVMe command that the word behind it points to.
structure Request where
  diskName : List UInt8
  cmdFlags : UInt32
  sector : UInt64
  dataLen : UInt32
  tag : Int32
  opcode : UInt8
  slba : UInt64
  zsa : UInt8
  deriving DecidableEq, Repr

-- `$1` and `$2`
structure Args where
  diskName : List UInt8
  zoneSize : UInt64

def Args.zoneMask (args : Args) : UInt64 :=
  ~~~(args.zoneSize - 1)

-- The maps hold as many keys as the run needs, and 64-bit values.
structure Maps where
  zRwCtrMap : List ((UInt64 × UInt8) × UInt64)
  zDataMap : List ((UInt64 × UInt8) × UInt64)
  zResetCtrMap : List (UInt64 × UInt64)
  resetZTrackMap : List (Int32 × UInt64)
  resetLatTrackMap : List (Int32 × UInt64)
  zResetLatMap : List ((UInt64 × UInt64) × UInt64)
  resetAllCtr : UInt64
  deriving DecidableEq

def Maps.begin : Maps := ⟨[], [], [], [], [], [], 0⟩

def Request.cmd (request : Request) : UInt32 :=
  request.cmdFlags &&& reqOpMask

-- In passthrough mode a zone reset is a driver command.
def Request.isZoneReset (request : Request) : Bool :=
  request.cmd == reqOpZoneReset ||
    ((request.cmd == reqOpDrvOut && request.opcode == nvmeCmdZoneMgmtSend) &&
      request.zsa == nvmeZoneReset)

-- The writes and the reads do the same to the maps, each under its own opcode.
def countIo (op : Op) (zlbas : UInt64) (request : Request) (maps : Maps) : Maps :=
  let dataLen := request.dataLen >>> sectorShift
  { maps with
    zRwCtrMap := increase maps.zRwCtrMap (zlbas, op.code) 1
    zDataMap := increase maps.zDataMap (zlbas, op.code) dataLen.toUInt64 }

def traceIo (request : Request) (zlbas : UInt64) (maps : Maps) : Maps :=
  let maps :=
    if request.cmd = reqOpWrite ∨ request.cmd = reqOpZoneAppend then
      countIo .write zlbas request maps
    else maps
  if request.cmd = reqOpRead then countIo .read zlbas request maps else maps

def traceReset (request : Request) (zlbas nsecs : UInt64) (maps : Maps) : Maps :=
  if request.isZoneReset then
    { maps with
      zResetCtrMap := increase maps.zResetCtrMap zlbas 1
      resetZTrackMap := KeyedObject.add maps.resetZTrackMap request.tag zlbas
      resetLatTrackMap := KeyedObject.add maps.resetLatTrackMap request.tag nsecs }
  else maps

def traceResetAll (request : Request) (maps : Maps) : Maps :=
  if request.cmd = reqOpZoneResetAll then { maps with resetAllCtr := maps.resetAllCtr + 1 }
  else maps

def nvmeSetupCmd (args : Args) (request : Request) (nsecs : UInt64) (maps : Maps) : Maps :=
  if request.diskName = args.diskName then
    let secnum := if request.sector = 0 then request.slba else request.sector
    let maps := traceIo request (secnum &&& args.zoneMask) maps
    -- A reset is always placed by the LBA of the NVMe command.
    let maps := traceReset request (request.slba &&& args.zoneMask) nsecs maps
    traceResetAll request maps
  else maps

def nvmeCompleteRq (args : Args) (request : Request) (nsecs : UInt64) (maps : Maps) : Maps :=
  if request.diskName = args.diskName then
    if request.isZoneReset then
      let zlbas := value maps.resetZTrackMap request.tag
      { maps with
        zResetLatMap := KeyedObject.add maps.zResetLatMap (zlbas, value maps.zResetCtrMap zlbas)
          (nsecs - value maps.resetLatTrackMap request.tag) }
    else maps
  else maps

inductive Event where
  | setup (request : Request) (nsecs : UInt64)
  | complete (request : Request) (nsecs : UInt64)
  deriving DecidableEq, Repr

def probe (args : Args) (maps : Maps) : Event → Maps
  | .setup request nsecs => nvmeSetupCmd args request nsecs maps
  | .complete request nsecs => nvmeCompleteRq args request nsecs maps

def trace (args : Args) (events : List Event) : Maps :=
  events.foldl (probe args) Maps.begin

theorem trace_snoc (args : Args) (events : List Event) (event : Event) :
    trace args (events ++ [event]) = probe args (trace args events) event := by
  simp [trace]

def zoneStart (args : Args) (sector : UInt64) : UInt64 :=
  sector / args.zoneSize * args.zoneSize

theorem and_zoneMask (args : Args) (bits : Nat) (power : args.zoneSize.toNat = 2 ^ bits)
    (sector : UInt64) : sector &&& args.zoneMask = zoneStart args sector := by
  apply UInt64.toNat_inj.mp
  have below : sector.toNat / 2 ^ bits * 2 ^ bits < 2 ^ 64 :=
    Nat.lt_of_le_of_lt (Nat.div_mul_le_self _ _) sector.toNat_lt
  rw [Args.zoneMask, AlignDown.and_complement_toNat _ _ bits power, zoneStart, UInt64.toNat_mul,
    UInt64.toNat_div, power, Nat.mod_eq_of_lt below]

def Request.resets (args : Args) (request : Request) : Option UInt64 :=
  if request.diskName = args.diskName ∧ request.isZoneReset then
    some (zoneStart args request.slba)
  else none

theorem resets_cases {args : Args} {request : Request} {zone : UInt64}
    (reset : request.resets args = some zone) :
    request.diskName = args.diskName ∧ request.isZoneReset = true ∧
      zone = zoneStart args request.slba := by
  rw [Request.resets] at reset
  split at reset
  · next own => exact ⟨own.1, own.2, (Option.some.inj reset).symm⟩
  · cases reset

section Reset

variable {args : Args} {request : Request} {nsecs : UInt64} {maps : Maps}

structure SameResets (a b : Maps) : Prop where
  ctr : a.zResetCtrMap = b.zResetCtrMap
  zones : a.resetZTrackMap = b.resetZTrackMap
  times : a.resetLatTrackMap = b.resetLatTrackMap
  lat : a.zResetLatMap = b.zResetLatMap

theorem traceIo_resets (request : Request) (zlbas : UInt64) (maps : Maps) :
    SameResets (traceIo request zlbas maps) maps := by
  rw [traceIo]
  by_cases writes : request.cmd = reqOpWrite ∨ request.cmd = reqOpZoneAppend <;>
    by_cases reads : request.cmd = reqOpRead <;>
    simp only [writes, reads, if_true, if_false] <;> exact ⟨rfl, rfl, rfl, rfl⟩

theorem traceResetAll_resets (request : Request) (maps : Maps) :
    SameResets (traceResetAll request maps) maps := by
  rw [traceResetAll]
  split <;> exact ⟨rfl, rfl, rfl, rfl⟩

theorem SameResets.trans {a b c : Maps} (first : SameResets a b) (second : SameResets b c) :
    SameResets a c :=
  ⟨first.ctr.trans second.ctr, first.zones.trans second.zones, first.times.trans second.times,
    first.lat.trans second.lat⟩

theorem SameResets.traceReset {a b : Maps} (same : SameResets a b) (zlbas : UInt64) :
    SameResets (traceReset request zlbas nsecs a) (traceReset request zlbas nsecs b) := by
  rw [Trace.traceReset, Trace.traceReset]
  split
  · exact ⟨by rw [same.ctr], by rw [same.zones], by rw [same.times], same.lat⟩
  · exact same

theorem setup_resets (nsecs : UInt64) (maps : Maps) (own : request.diskName = args.diskName) :
    SameResets (nvmeSetupCmd args request nsecs maps)
      (traceReset request (request.slba &&& args.zoneMask) nsecs maps) := by
  rw [nvmeSetupCmd, if_pos own]
  exact (traceResetAll_resets request _).trans ((traceIo_resets request _ maps).traceReset _)

theorem setup_of_reset {bits : Nat} (power : args.zoneSize.toNat = 2 ^ bits) {zone : UInt64}
    (reset : request.resets args = some zone) :
    SameResets (nvmeSetupCmd args request nsecs maps)
      { maps with
        zResetCtrMap := increase maps.zResetCtrMap zone 1
        resetZTrackMap := KeyedObject.add maps.resetZTrackMap request.tag zone
        resetLatTrackMap := KeyedObject.add maps.resetLatTrackMap request.tag nsecs } := by
  have ⟨own, kind, same⟩ := resets_cases reset
  have traced := setup_resets nsecs maps own
  rw [traceReset, if_pos kind, and_zoneMask args bits power, ← same] at traced
  exact traced

theorem setup_of_other (other : request.resets args = none) :
    SameResets (nvmeSetupCmd args request nsecs maps) maps := by
  by_cases own : request.diskName = args.diskName
  · have kind : ¬ request.isZoneReset = true := by simpa [Request.resets, own] using other
    have traced := setup_resets nsecs maps own
    rw [traceReset, if_neg kind] at traced
    exact traced
  · rw [nvmeSetupCmd, if_neg own]
    exact ⟨rfl, rfl, rfl, rfl⟩

theorem complete_of_reset {zone : UInt64} (reset : request.resets args = some zone)
    (tracked : value maps.resetZTrackMap request.tag = zone) :
    (nvmeCompleteRq args request nsecs maps).zResetLatMap =
      KeyedObject.add maps.zResetLatMap (zone, value maps.zResetCtrMap zone)
        (nsecs - value maps.resetLatTrackMap request.tag) := by
  have ⟨own, kind, _⟩ := resets_cases reset
  rw [nvmeCompleteRq, if_pos own, if_pos kind, tracked]

theorem complete_keeps (args : Args) (request : Request) (nsecs : UInt64) (maps : Maps) :
    (nvmeCompleteRq args request nsecs maps).zResetCtrMap = maps.zResetCtrMap ∧
    (nvmeCompleteRq args request nsecs maps).resetZTrackMap = maps.resetZTrackMap ∧
    (nvmeCompleteRq args request nsecs maps).resetLatTrackMap = maps.resetLatTrackMap := by
  rw [nvmeCompleteRq]
  split
  · split <;> exact ⟨rfl, rfl, rfl⟩
  · exact ⟨rfl, rfl, rfl⟩

theorem complete_of_other (other : request.resets args = none) :
    nvmeCompleteRq args request nsecs maps = maps := by
  rw [nvmeCompleteRq]
  split
  · next own =>
    have kind : ¬ request.isZoneReset = true := by simpa [Request.resets, own] using other
    rw [if_neg kind]
  · rfl

end Reset

end ZnsTools.Trace
