import ZnsTools.Collection

set_option autoImplicit false

namespace ZnsTools

def Zone.holds (zone : Zone) : Bool :=
  0 < zone.extentCtr

def ZoneMap.occupied (zonemap : ZoneMap) : Nat :=
  zonemap.zones.countP Zone.holds

/-- The counter of zones is what it is documented to be. -/
def ZoneMap.CountsZones (zonemap : ZoneMap) : Prop :=
  zonemap.zoneCtr.toNat = zonemap.occupied

-- No two of the extents lie in one zone.
def Apart (extents : List Extent) : Prop :=
  (extents.map Extent.zone).Nodup

instance (extents : List Extent) : Decidable (Apart extents) :=
  inferInstanceAs (Decidable (List.Nodup _))

-- What holds of a run as long as no zone was used twice.
structure OneEach (cfg : Config) (m : Machine) : Prop where
  zones : m.ctrl.zonemap.zones.length = cfg.znsdev.nrZones.toNat
  consistent : m.ctrl.zonemap.Consistent m.accepted
  apart : Apart m.accepted
  occupied : m.ctrl.zonemap.occupied = m.accepted.length
  counted : m.ctrl.zonemap.CountsZones

section Step

variable {cfg : Config} {m next : Machine} {event : Event}

theorem start_oneEach (cfg : Config) : OneEach cfg (Machine.start cfg) where
  zones := by simp [Machine.start, initControl, initZoneMap]
  consistent := initZoneMap_consistent cfg.znsdev.nrZones
  apart := List.nodup_nil
  occupied := by
    simp [Machine.start, initControl, initZoneMap, ZoneMap.occupied, Zone.holds,
      List.countP_replicate]
  counted := by
    simp [ZoneMap.CountsZones, Machine.start, initControl, initZoneMap, ZoneMap.occupied,
      Zone.holds, List.countP_replicate]

theorem occupied_set {zonemap : ZoneMap} {index : Nat} {old new : Zone}
    (found : zonemap.zones[index]? = some old) (filled : new.holds = true) :
    { zonemap with zones := zonemap.zones.set index new }.occupied =
      zonemap.occupied + if old.holds then 0 else 1 := by
  have ⟨front, back, split, _, updated⟩ := Buckets.set_split found new
  rw [ZoneMap.occupied, ZoneMap.occupied, updated, split]
  simp only [List.countP_append, List.countP_cons, filled, if_true]
  split <;> omega

theorem OneEach.short (one : OneEach cfg m) {index : Nat} {zone : Zone}
    (found : m.ctrl.zonemap.zones[index]? = some zone) : zone.extents.length ≤ 1 := by
  have inside : zone.extents.Sublist m.ctrl.zonemap.extents :=
    List.sublist_flatten_of_mem
      (List.mem_map.mpr ⟨zone, List.mem_of_getElem? found, rfl⟩)
  have apart : (zone.extents.map Extent.zone).Nodup :=
    ((one.consistent.complete.map Extent.zone).nodup_iff.mpr one.apart).sublist
      (inside.map Extent.zone)
  have filed := one.consistent.filed index zone found
  match same : zone.extents with
  | [] => exact Nat.zero_le 1
  | [_] => exact Nat.le_refl 1
  | a :: b :: rest =>
    rw [same] at apart filed
    have equal : a.zone = b.zone := by
      rw [← UInt32.toNat_inj, filed a (by simp), filed b (by simp)]
    simp [equal] at apart

theorem OneEach.apart_store (one : OneEach cfg m) {extent : Extent} {zone : Zone}
    (found : m.ctrl.zonemap.zones[extent.zone.toNat]? = some zone) :
    Apart (m.accepted ++ [extent]) ↔ zone.holds = false := by
  have counter := one.consistent.counted zone (List.mem_of_getElem? found)
  have filed : zone.extents = [] ↔ extent.zone ∉ m.accepted.map Extent.zone := by
    have listed := Buckets.filter_bucket Zone.extents (fun e => e.zone.toNat) found
      one.consistent.filed
    rw [← listed, List.filter_eq_nil_iff, List.mem_map]
    constructor
    · intro none ⟨e, inside, same⟩
      exact none e (one.consistent.complete.mem_iff.mpr inside) (by simp [same])
    · intro absent e inside same
      refine absent ⟨e, one.consistent.complete.mem_iff.mp inside, ?_⟩
      rw [← UInt32.toNat_inj]
      simpa using same
  have empty : zone.holds = false ↔ zone.extents = [] := by
    rw [← List.length_eq_zero_iff, ← counter, Zone.holds, decide_eq_false_iff_not, UInt32.not_lt,
      UInt32.le_iff_toNat_le]
    simp
  rw [empty, filed, Apart, List.map_append, List.map_singleton, List.nodup_append]
  constructor
  · intro distinct inside
    exact distinct.2.2 _ inside _ (by simp) rfl
  · intro absent
    refine ⟨one.apart, List.nodup_singleton _, ?_⟩
    intro zone inside last alone same
    rw [same, List.mem_singleton.mp alone] at inside
    exact absent inside

theorem OneEach.store (one : OneEach cfg m) {extent : Extent} {ctrl : Control}
    (filed : storeExtent m.ctrl extent = .ok ctrl) :
    ∃ zone, m.ctrl.zonemap.zones[extent.zone.toNat]? = some zone ∧
      ctrl.zonemap.zones.length = m.ctrl.zonemap.zones.length ∧
      ctrl.zonemap.zoneCtr = m.ctrl.zonemap.zoneCtr + 1 ∧
      ctrl.zonemap.occupied = m.ctrl.zonemap.occupied + if zone.holds then 0 else 1 := by
  obtain ⟨zonemap, added, rfl⟩ := storeExtent_ok filed
  obtain ⟨zone, found, rfl⟩ := addExtentToZoneList_ok added
  refine ⟨zone, found, List.length_set, rfl, ?_⟩
  have counter := one.consistent.counted zone (List.mem_of_getElem? found)
  have short := one.short found
  apply occupied_set found
  have grown : (zone.extentCtr + 1).toNat = zone.extentCtr.toNat + 1 := by
    rw [UInt32.toNat_add, UInt32.toNat_one, Nat.mod_eq_of_lt (by omega)]
  rw [Zone.holds, decide_eq_true_eq, UInt32.lt_iff_toNat_lt, grown]
  exact Nat.succ_pos _

theorem OneEach.step_apart (one : OneEach cfg m) (moved : step cfg m event = .ok next)
    (apart : Apart next.accepted) : OneEach cfg next := by
  rcases step_zonemap moved with ⟨same, history⟩ | ⟨extent, ctrl, -, filed, same, history⟩
  · constructor
    · rw [same, one.zones]
    · rw [same, history]
      exact one.consistent
    · exact apart
    · rw [same, history, one.occupied]
    · rw [same]
      exact one.counted
  · have ⟨zone, found, zones, zoneCtr, occupied⟩ := one.store filed
    rw [history, one.apart_store found] at apart
    rw [apart] at occupied
    have room : ctrl.zonemap.occupied ≤ cfg.znsdev.nrZones.toNat := by
      rw [← one.zones, ← zones]
      exact List.countP_le_length
    have small := cfg.znsdev.nrZones.toNat_lt
    have before := one.occupied
    have counter := one.counted
    rw [ZoneMap.CountsZones] at counter
    simp only [Bool.false_eq_true, if_false] at occupied
    constructor
    · rw [same, zones, one.zones]
    · exact step_consistent moved (fun _ => one.consistent)
        (by rw [history, List.length_append, List.length_singleton]; omega)
    · rw [history, one.apart_store found]
      exact apart
    · rw [same, history, occupied, before, List.length_append, List.length_singleton]
    · rw [same, ZoneMap.CountsZones, zoneCtr, occupied, UInt32.toNat_add, counter, UInt32.toNat_one,
        Nat.mod_eq_of_lt (by omega)]

theorem OneEach.step_counts (one : OneEach cfg m) (moved : step cfg m event = .ok next)
    (counted : next.ctrl.zonemap.CountsZones) : Apart next.accepted := by
  rcases step_zonemap moved with ⟨-, history⟩ | ⟨extent, ctrl, -, filed, same, history⟩
  · rw [history]
    exact one.apart
  · have ⟨zone, found, _, zoneCtr, occupied⟩ := one.store filed
    rw [history, one.apart_store found]
    by_contra holding
    rw [Bool.not_eq_false] at holding
    have counter := one.counted
    have small := m.ctrl.zonemap.zoneCtr.toNat_lt
    rw [holding, if_pos rfl] at occupied
    rw [ZoneMap.CountsZones] at counter
    rw [same, ZoneMap.CountsZones, zoneCtr, occupied, UInt32.toNat_add, counter,
      UInt32.toNat_one] at counted
    omega

end Step

theorem events_accepted {cfg : Config} {events : List Event} {m last : Machine}
    (run : events.foldlM (step cfg) m = .ok last) : m.accepted <+: last.accepted := by
  refine Runs.foldlM_invariant (fun state => m.accepted <+: state.accepted) ?_ run
    (List.prefix_refl _)
  intro state event _ next before moved
  rcases step_zonemap moved with ⟨-, history⟩ | ⟨extent, _, -, -, -, history⟩
  · rwa [history]
  · rw [history]
    exact before.trans (List.prefix_append _ _)

-- A state from which the zones were counted right is left right by the next event as well, or that
-- event is the one that uses a zone twice.
theorem events_oneEach {cfg : Config} {events : List Event} {m last : Machine}
    (run : events.foldlM (step cfg) m = .ok last) (one : OneEach cfg m) :
    (∀ n reached, (events.take n).foldlM (step cfg) m = .ok reached →
      reached.ctrl.zonemap.CountsZones) ↔ Apart last.accepted := by
  induction events generalizing m with
  | nil =>
    obtain rfl : m = last := Except.ok.inj run
    refine ⟨fun _ => one.apart, fun _ n reached stopped => ?_⟩
    rw [List.take_nil] at stopped
    exact Except.ok.inj stopped ▸ one.counted
  | cons event rest ih =>
    rw [List.foldlM_cons] at run
    obtain ⟨next, moved, tail⟩ := Runs.bind_ok run
    constructor
    · intro counts
      have first := counts 1 next (by
        rw [List.take_succ_cons, List.take_zero, List.foldlM_cons, moved, Runs.ok_bind]
        rfl)
      have after := one.step_apart moved (one.step_counts moved first)
      apply (ih tail after).mp
      intro n reached stopped
      apply counts (n + 1) reached
      rw [List.take_succ_cons, List.foldlM_cons, moved, Runs.ok_bind, stopped]
    · intro apart
      have grown := (events_accepted tail).sublist.map Extent.zone
      have after := one.step_apart moved (List.Nodup.sublist grown apart)
      intro n reached stopped
      cases n with
      | zero => exact Except.ok.inj stopped ▸ one.counted
      | succ n =>
        rw [List.take_succ_cons, List.foldlM_cons, moved, Runs.ok_bind] at stopped
        exact (ih tail after).mpr apart n reached stopped

/-- In every state of a run the counter is the number of zones with extents exactly if no two of the
extents that the run accepts lie in one zone. -/
theorem zone_ctr_exact_iff (cfg : Config) (events : List Event) (m : Machine)
    (run : collect cfg events = .ok m) :
    (∀ n reached, collect cfg (events.take n) = .ok reached →
      reached.ctrl.zonemap.CountsZones) ↔ Apart m.accepted :=
  events_oneEach run (start_oneEach cfg)

-- A file in two pieces, in a device with two zones of two segments.
def twoZones : Config :=
  segmapConfig 512 0 8192 2 (List.replicate 4 ⟨0, .cursegWarmData, 512⟩)

def inTwoPieces (first second : UInt64) : List Event :=
  mapFile twoZones [97] 16
    [⟨0, first * 512, 4096, 0⟩, ⟨4096, second * 512, 4096, fiemapExtentLast⟩]

-- Both pieces lie in zone 1, which is counted as two zones.
theorem zone_counted_twice :
    ∃ m, collect twoZones (inTwoPieces 8192 12288) = .ok m ∧ m.ctrl.zonemap.zoneCtr = 2 ∧
      m.ctrl.zonemap.occupied = 1 ∧ ¬ m.ctrl.zonemap.CountsZones := by
  have computed : (collect twoZones (inTwoPieces 8192 12288)).map (fun m =>
      (m.ctrl.zonemap.zoneCtr, m.ctrl.zonemap.occupied)) = .ok (2, 1) := by
    decide
  obtain ⟨m, run, counters⟩ := Runs.map_ok computed
  obtain ⟨zoneCtr, occupied⟩ := Prod.mk.inj counters
  refine ⟨m, run, zoneCtr, occupied, ?_⟩
  rw [ZoneMap.CountsZones, zoneCtr, occupied]
  decide

theorem zones_counted_once :
    ∃ m, collect twoZones (inTwoPieces 4096 8192) = .ok m ∧
      ∀ n reached, collect twoZones ((inTwoPieces 4096 8192).take n) = .ok reached →
        reached.ctrl.zonemap.CountsZones := by
  have computed : (collect twoZones (inTwoPieces 4096 8192)).map (fun m =>
      m.accepted.map Extent.zone) = .ok [0, 1] := by
    decide
  obtain ⟨m, run, zones⟩ := Runs.map_ok computed
  refine ⟨m, run, (zone_ctr_exact_iff twoZones _ m run).mpr ?_⟩
  rw [Apart, zones]
  decide

end ZnsTools
