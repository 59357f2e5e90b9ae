import Mathlib.Algebra.GroupWithZero.Nat
import Mathlib.Data.List.Induction
import ZnsTools.Trace

set_option autoImplicit false

namespace ZnsTools.Trace

open BpfMap

def Op.cmds : Op → List UInt32
  | .read => [reqOpRead]
  | .write => [reqOpWrite, reqOpZoneAppend]

structure IoRequest (args : Args) where
  request : Request
  op : Op
  start : UInt64
  sectors : Nat
  own : request.diskName = args.diskName
  kind : request.cmd ∈ op.cmds
  sector : request.sector ≠ 0 → request.sector = start
  slba : request.sector = 0 → request.slba = start
  sized : request.dataLen.toNat = sectors * 512

inductive IoEvent (args : Args) where
  | setup (io : IoRequest args) (nsecs : UInt64)
  | complete (io : IoRequest args) (nsecs : UInt64)

def IoEvent.event {args : Args} : IoEvent args → Event
  | .setup io nsecs => .setup io.request nsecs
  | .complete io nsecs => .complete io.request nsecs

def IoEvent.submitted {args : Args} : IoEvent args → Option (IoRequest args)
  | .setup io _ => some io
  | .complete _ _ => none

def IoRequest.zone {args : Args} (io : IoRequest args) : Nat :=
  io.start.toNat / args.zoneSize.toNat

def IoRequest.key {args : Args} (io : IoRequest args) : UInt64 × UInt8 :=
  (zoneStart args io.start, io.op.code)

section Counts

variable {args : Args}

def requestsOf (ios : List (IoRequest args)) (zone : Nat) (op : Op) : List (IoRequest args) :=
  ios.filter fun io => io.zone == zone && io.op == op

def commands (ios : List (IoRequest args)) (zone : Nat) (op : Op) : Nat :=
  (requestsOf ios zone op).length

def totalSectors (ios : List (IoRequest args)) (zone : Nat) (op : Op) : Nat :=
  ((requestsOf ios zone op).map (·.sectors)).sum

end Counts

section Io

variable {args : Args} {bits : Nat}

theorem IoRequest.kind_cases (io : IoRequest args) :
    io.op = .read ∧ io.request.cmd = reqOpRead ∨
      io.op = .write ∧ (io.request.cmd = reqOpWrite ∨ io.request.cmd = reqOpZoneAppend) := by
  have kind := io.kind
  cases op : io.op with
  | read =>
    rw [op] at kind
    exact .inl ⟨rfl, List.mem_singleton.mp kind⟩
  | write =>
    rw [op] at kind
    exact .inr ⟨rfl, by simpa [Op.cmds] using kind⟩

theorem IoRequest.not_reset (io : IoRequest args) :
    io.request.isZoneReset = false ∧ io.request.cmd ≠ reqOpZoneResetAll := by
  rcases io.kind_cases with ⟨_, read⟩ | ⟨_, write | append⟩
  · rw [Request.isZoneReset, read]
    exact ⟨rfl, by decide⟩
  · rw [Request.isZoneReset, write]
    exact ⟨rfl, by decide⟩
  · rw [Request.isZoneReset, append]
    exact ⟨rfl, by decide⟩

theorem IoRequest.secnum (io : IoRequest args) :
    (if io.request.sector = 0 then io.request.slba else io.request.sector) = io.start := by
  split
  · next zero => exact io.slba zero
  · next given => exact io.sector given

theorem IoRequest.dataLen (io : IoRequest args) :
    (io.request.dataLen >>> sectorShift).toUInt64 = UInt64.ofNat io.sectors := by
  have small := io.request.dataLen.toNat_lt
  have shifted : (io.request.dataLen >>> sectorShift).toNat = io.sectors := by
    rw [UInt32.toNat_shiftRight, io.sized, Nat.shiftRight_eq_div_pow]
    exact Nat.mul_div_cancel io.sectors (by decide)
  apply UInt64.toNat_inj.mp
  rw [UInt32.toNat_toUInt64, shifted, UInt64.toNat_ofNat', Nat.mod_eq_of_lt]
  have := io.sized
  omega

theorem setup_io (power : args.zoneSize.toNat = 2 ^ bits) (io : IoRequest args) (nsecs : UInt64)
    (maps : Maps) : nvmeSetupCmd args io.request nsecs maps =
      { maps with
        zRwCtrMap := increase maps.zRwCtrMap io.key 1
        zDataMap := increase maps.zDataMap io.key (UInt64.ofNat io.sectors) } := by
  have ⟨reset, all⟩ := io.not_reset
  have counted : traceIo io.request (zoneStart args io.start) maps =
      countIo io.op (zoneStart args io.start) io.request maps := by
    rcases io.kind_cases with ⟨op, read⟩ | ⟨op, write | append⟩
    · rw [traceIo, read, op]
      rfl
    · rw [traceIo, write, op]
      rfl
    · rw [traceIo, append, op]
      rfl
  simp only [nvmeSetupCmd, if_pos io.own, io.secnum, and_zoneMask args bits power, counted]
  rw [traceReset, if_neg (by simp [reset]), traceResetAll, if_neg all, countIo, io.dataLen]
  rfl

theorem complete_io (io : IoRequest args) (nsecs : UInt64) (maps : Maps) :
    nvmeCompleteRq args io.request nsecs maps = maps := by
  apply complete_of_other
  simp [Request.resets, io.not_reset.1]

theorem trace_io (power : args.zoneSize.toNat = 2 ^ bits) (events : List (IoEvent args)) :
    trace args (events.map IoEvent.event) =
      { Maps.begin with
        zRwCtrMap := tally ((events.filterMap IoEvent.submitted).map fun io => (io.key, 1))
        zDataMap := tally ((events.filterMap IoEvent.submitted).map fun io =>
          (io.key, UInt64.ofNat io.sectors)) } := by
  induction events using List.reverseRecOn with
  | nil => rfl
  | append_singleton past event ih =>
    rw [List.map_append, List.map_singleton, trace_snoc, ih, List.filterMap_append]
    cases event with
    | setup io nsecs =>
      rw [IoEvent.event, probe, setup_io power]
      simp [IoEvent.submitted, tally_snoc]
    | complete io nsecs =>
      rw [IoEvent.event, probe, complete_io]
      simp [IoEvent.submitted, List.filterMap_cons]

theorem IoRequest.key_toNat (io : IoRequest args) :
    io.key.1.toNat = io.zone * args.zoneSize.toNat := by
  have below : io.zone * args.zoneSize.toNat < 2 ^ 64 :=
    Nat.lt_of_le_of_lt (Nat.div_mul_le_self _ _) io.start.toNat_lt
  rw [IoRequest.key, zoneStart, UInt64.toNat_mul, UInt64.toNat_div]
  exact Nat.mod_eq_of_lt below

theorem IoRequest.key_eq_iff (power : args.zoneSize.toNat = 2 ^ bits) (io other : IoRequest args) :
    io.key = other.key ↔ io.zone = other.zone ∧ io.op = other.op := by
  have positive : 0 < args.zoneSize.toNat := by
    rw [power]
    exact Nat.two_pow_pos bits
  have distinct : ∀ a b : Op, a.code = b.code ↔ a = b := by
    intro a b
    cases a <;> cases b <;> decide
  have codes : io.key.2 = other.key.2 ↔ io.op = other.op := distinct io.op other.op
  rw [Prod.ext_iff, codes, ← UInt64.toNat_inj, io.key_toNat, other.key_toNat,
    Nat.mul_left_inj positive.ne']

theorem amounts_of (power : args.zoneSize.toNat = 2 ^ bits) (ios : List (IoRequest args))
    (io : IoRequest args) (amount : IoRequest args → UInt64) :
    (((ios.map fun other => (other.key, amount other)).filter (·.1 = io.key)).map
      (·.2.toNat)).sum =
        ((requestsOf ios io.zone io.op).map fun other => (amount other).toNat).sum := by
  have same : (ios.filter fun other => other.key = io.key) = requestsOf ios io.zone io.op := by
    apply List.filter_congr
    intro other _
    rw [Bool.eq_iff_iff]
    simp [IoRequest.key_eq_iff power]
  rw [← same, List.filter_map, List.map_map]
  rfl

theorem mem_tally_io (power : args.zoneSize.toNat = 2 ^ bits) (ios : List (IoRequest args))
    (amount : IoRequest args → UInt64) (entry : (UInt64 × UInt8) × UInt64) :
    entry ∈ tally (ios.map fun io => (io.key, amount io)) ↔
      ∃ io ∈ ios, entry = (io.key, UInt64.ofNat
        ((requestsOf ios io.zone io.op).map fun other => (amount other).toNat).sum) := by
  rw [mem_tally]
  constructor
  · intro ⟨⟨added, inside, here⟩, value⟩
    have ⟨io, listed, pair⟩ := List.mem_map.mp inside
    subst pair
    have same : io.key = entry.1 := here
    rw [← same, amounts_of power] at value
    exact ⟨io, listed, Prod.ext same.symm value⟩
  · rintro ⟨io, listed, rfl⟩
    exact ⟨⟨_, List.mem_map_of_mem listed, rfl⟩,
      congrArg UInt64.ofNat (amounts_of power ios io amount).symm⟩

theorem sectors_lt (io : IoRequest args) : (UInt64.ofNat io.sectors).toNat = io.sectors := by
  have small := io.request.dataLen.toNat_lt
  have size := io.sized
  rw [UInt64.toNat_ofNat', Nat.mod_eq_of_lt (by omega)]

theorem mem_zRwCtrMap (power : args.zoneSize.toNat = 2 ^ bits) (ios : List (IoRequest args))
    (entry : (UInt64 × UInt8) × UInt64) :
    entry ∈ tally (ios.map fun io => (io.key, 1)) ↔
      ∃ io ∈ ios, entry = (io.key, UInt64.ofNat (commands ios io.zone io.op)) := by
  rw [mem_tally_io power ios (fun _ => 1)]
  simp [commands]

theorem mem_zDataMap (power : args.zoneSize.toNat = 2 ^ bits) (ios : List (IoRequest args))
    (entry : (UInt64 × UInt8) × UInt64) :
    entry ∈ tally (ios.map fun io => (io.key, UInt64.ofNat io.sectors)) ↔
      ∃ io ∈ ios, entry = (io.key, UInt64.ofNat (totalSectors ios io.zone io.op)) := by
  rw [mem_tally_io power ios fun io => UInt64.ofNat io.sectors]
  simp only [sectors_lt, totalSectors]

end Io

end ZnsTools.Trace
