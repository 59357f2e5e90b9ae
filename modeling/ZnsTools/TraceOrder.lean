import ZnsTools.ResetCounts

set_option autoImplicit false

namespace ZnsTools.Trace

open BpfMap

section Amounts

variable {args : Args}

def Request.zlbas (args : Args) (request : Request) : UInt64 :=
  (if request.sector = 0 then request.slba else request.sector) &&& args.zoneMask

def Request.ops (request : Request) : List Op :=
  (if request.cmd = reqOpWrite ∨ request.cmd = reqOpZoneAppend then [.write] else []) ++
    if request.cmd = reqOpRead then [.read] else []

def Event.amounts (args : Args) (amount : Request → UInt64) : Event →
    List ((UInt64 × UInt8) × UInt64)
  | .setup request _ =>
    if request.diskName = args.diskName then
      request.ops.map fun op => ((request.zlbas args, op.code), amount request)
    else []
  | .complete _ _ => []

def Request.blocks (request : Request) : UInt64 :=
  (request.dataLen >>> sectorShift).toUInt64

def Event.resetAmounts (args : Args) : Event → List (UInt64 × UInt64)
  | .setup request _ =>
    if request.diskName = args.diskName ∧ request.isZoneReset then
      [(request.slba &&& args.zoneMask, 1)]
    else []
  | .complete _ _ => []

structure Summed (args : Args) (events : List Event) : Prop where
  commands : (trace args events).zRwCtrMap = tally (events.flatMap (Event.amounts args fun _ => 1))
  sectors : (trace args events).zDataMap =
    tally (events.flatMap (Event.amounts args Request.blocks))
  resets : (trace args events).zResetCtrMap = tally (events.flatMap (Event.resetAmounts args))
  all : (trace args events).resetAllCtr = UInt64.ofNat (resetAlls args events)

theorem tally_append {κ : Type} [DecidableEq κ] (first second : List (κ × UInt64)) :
    tally (first ++ second) =
      second.foldl (fun map amount => increase map amount.1 amount.2) (tally first) := by
  rw [tally, List.foldl_append, ← tally]

theorem traceIo_maps (request : Request) (zlbas : UInt64) (maps : Maps) :
    traceIo request zlbas maps = { maps with
      zRwCtrMap := (request.ops.map fun op => ((zlbas, op.code), (1 : UInt64))).foldl
        (fun map amount => increase map amount.1 amount.2) maps.zRwCtrMap
      zDataMap := (request.ops.map fun op => ((zlbas, op.code), request.blocks)).foldl
        (fun map amount => increase map amount.1 amount.2) maps.zDataMap } := by
  rw [traceIo, Request.ops]
  by_cases writes : request.cmd = reqOpWrite ∨ request.cmd = reqOpZoneAppend <;>
    by_cases reads : request.cmd = reqOpRead <;>
    simp only [writes, reads, if_true, if_false] <;> rfl

theorem setup_counters {request : Request} (own : request.diskName = args.diskName)
    (nsecs : UInt64) (maps : Maps) :
    let next := nvmeSetupCmd args request nsecs maps
    next.zRwCtrMap = (traceIo request (request.zlbas args) maps).zRwCtrMap ∧
    next.zDataMap = (traceIo request (request.zlbas args) maps).zDataMap ∧
    next.zResetCtrMap = (if request.isZoneReset then
      increase maps.zResetCtrMap (request.slba &&& args.zoneMask) 1 else maps.zResetCtrMap) ∧
    next.resetAllCtr = (if request.cmd = reqOpZoneResetAll then maps.resetAllCtr + 1
      else maps.resetAllCtr) := by
  rw [nvmeSetupCmd, if_pos own]
  dsimp only
  rw [← Request.zlbas, traceIo_maps, traceReset, traceResetAll]
  by_cases reset : request.isZoneReset = true <;>
    by_cases all : request.cmd = reqOpZoneResetAll <;>
    simp only [reset, all, if_true, if_false, Bool.false_eq_true, and_self]

theorem resetAlls_append (past more : List Event) :
    resetAlls args (past ++ more) = resetAlls args past + resetAlls args more :=
  List.countP_append

theorem setup_summed {past : List Event} (summed : Summed args past) (request : Request)
    (nsecs : UInt64) : Summed args (past ++ [.setup request nsecs]) := by
  have moved : trace args (past ++ [.setup request nsecs]) =
      nvmeSetupCmd args request nsecs (trace args past) := trace_snoc args past _
  by_cases own : request.diskName = args.diskName
  · obtain ⟨commands, sectors, resets, all⟩ := setup_counters own nsecs (trace args past)
    constructor
    · rw [moved, commands, traceIo_maps, summed.commands, List.flatMap_append, tally_append]
      simp [Event.amounts, own]
    · rw [moved, sectors, traceIo_maps, summed.sectors, List.flatMap_append, tally_append]
      simp [Event.amounts, own]
    · rw [moved, resets, summed.resets, List.flatMap_append, tally_append]
      by_cases reset : request.isZoneReset = true <;> simp [Event.resetAmounts, own, reset]
    · rw [moved, all, summed.all, resetAlls_append]
      by_cases whole : request.cmd = reqOpZoneResetAll <;>
        simp [Event.isResetAll, own, whole, resetAlls, UInt64.ofNat_add]
  · have same : nvmeSetupCmd args request nsecs (trace args past) = trace args past := if_neg own
    constructor
    · rw [moved, same, summed.commands, List.flatMap_append]
      simp [Event.amounts, own]
    · rw [moved, same, summed.sectors, List.flatMap_append]
      simp [Event.amounts, own]
    · rw [moved, same, summed.resets, List.flatMap_append]
      simp [Event.resetAmounts, own]
    · rw [moved, same, summed.all, resetAlls_append]
      simp [Event.isResetAll, own, resetAlls]

theorem complete_summed {past : List Event} (summed : Summed args past) (request : Request)
    (nsecs : UInt64) : Summed args (past ++ [.complete request nsecs]) := by
  have moved : trace args (past ++ [.complete request nsecs]) =
      nvmeCompleteRq args request nsecs (trace args past) := trace_snoc args past _
  have kept : (nvmeCompleteRq args request nsecs (trace args past)).zRwCtrMap =
        (trace args past).zRwCtrMap ∧
      (nvmeCompleteRq args request nsecs (trace args past)).zDataMap =
        (trace args past).zDataMap ∧
      (nvmeCompleteRq args request nsecs (trace args past)).resetAllCtr =
        (trace args past).resetAllCtr := by
    rw [nvmeCompleteRq]
    split
    · split <;> exact ⟨rfl, rfl, rfl⟩
    · exact ⟨rfl, rfl, rfl⟩
  constructor
  · rw [moved, kept.1, summed.commands, List.flatMap_append]
    simp [Event.amounts]
  · rw [moved, kept.2.1, summed.sectors, List.flatMap_append]
    simp [Event.amounts]
  · rw [moved, (complete_keeps args request nsecs _).1, summed.resets, List.flatMap_append]
    simp [Event.resetAmounts]
  · rw [moved, kept.2.2, summed.all, resetAlls_append]
    simp [Event.isResetAll, resetAlls]

theorem trace_summed (args : Args) (events : List Event) : Summed args events := by
  induction events using List.reverseRecOn with
  | nil => exact ⟨rfl, rfl, rfl, rfl⟩
  | append_singleton past event ih =>
    cases event with
    | setup request nsecs => exact setup_summed ih request nsecs
    | complete request nsecs => exact complete_summed ih request nsecs

end Amounts

section Order

theorem tally_perm {κ : Type} [DecidableEq κ] {first second : List (κ × UInt64)}
    (perm : first.Perm second) : (tally first).Perm (tally second) := by
  have sums (key : κ) : ((first.filter (·.1 = key)).map (·.2.toNat)).sum =
      ((second.filter (·.1 = key)).map (·.2.toNat)).sum :=
    ((perm.filter _).map _).sum_eq
  refine (List.perm_ext_iff_of_nodup ?_ ?_).mpr fun entry => ?_
  · exact .of_map _ (nodup_tally first)
  · exact .of_map _ (nodup_tally second)
  · rw [mem_tally, mem_tally, sums]
    simp only [perm.mem_iff]

/-- In whatever order the same submissions and completions come, the counters of the commands, of
the sectors and of the resets hold the same entries. -/
theorem counters_of_any_order (args : Args) (first second : List Event)
    (perm : first.Perm second) :
    (trace args first).zRwCtrMap.Perm (trace args second).zRwCtrMap ∧
      (trace args first).zDataMap.Perm (trace args second).zDataMap ∧
      (trace args first).zResetCtrMap.Perm (trace args second).zResetCtrMap ∧
      (trace args first).resetAllCtr = (trace args second).resetAllCtr := by
  have one := trace_summed args first
  have other := trace_summed args second
  refine ⟨?_, ?_, ?_, ?_⟩
  · rw [one.commands, other.commands]
    exact tally_perm (perm.flatMap_right _)
  · rw [one.sectors, other.sectors]
    exact tally_perm (perm.flatMap_right _)
  · rw [one.resets, other.resets]
    exact tally_perm (perm.flatMap_right _)
  · rw [one.all, other.all, resetAlls, resetAlls, perm.countP_eq]

def ioAndResets : List Event :=
  Plot.writeAndRead.map IoEvent.event ++ Plot.secondZoneTwice

theorem backwards_counters :
    (trace (Plot.smallDisk 8) ioAndResets).zRwCtrMap.Perm
        (trace (Plot.smallDisk 8) ioAndResets.reverse).zRwCtrMap ∧
      (trace (Plot.smallDisk 8) ioAndResets).zDataMap.Perm
        (trace (Plot.smallDisk 8) ioAndResets.reverse).zDataMap ∧
      (trace (Plot.smallDisk 8) ioAndResets).zResetCtrMap.Perm
        (trace (Plot.smallDisk 8) ioAndResets.reverse).zResetCtrMap ∧
      (trace (Plot.smallDisk 8) ioAndResets).resetAllCtr =
        (trace (Plot.smallDisk 8) ioAndResets.reverse).resetAllCtr :=
  counters_of_any_order (Plot.smallDisk 8) ioAndResets ioAndResets.reverse
    (List.reverse_perm ioAndResets).symm

end Order

end ZnsTools.Trace
