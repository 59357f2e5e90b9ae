import ZnsTools.ReportEnd
import ZnsTools.SelectedRange

set_option autoImplicit false

namespace ZnsTools

-- The control for -z.
def Config.only (cfg : Config) (zone : UInt32) : Config :=
  { cfg with startZone := zone, endZone := zone }

-- The extents of the zone that is printed as 'ZONE n'.
def ZoneMap.headedBy (zonemap : ZoneMap) (zone : UInt32) : List Extent :=
  zonemap.extents.filter fun e => e.zone == zone

/-- The report for one zone ends, and lists the extents of the zone with that heading. -/
def ListsZone (cfg : Config) (dev : Device) (ctrl : Control) (zone : UInt32) : Prop :=
  ∃ fuel final passes, showSegments (cfg.only zone) dev fuel ctrl = some (.ok (final, passes)) ∧
    passes.map CursorLoop.Pass.item = ctrl.zonemap.headedBy zone

section Selected

variable {cfg : Config} {zonemap : ZoneMap} {accepted : List Extent}

theorem ZoneMap.Consistent.index (consistent : zonemap.Consistent accepted) {e : Extent}
    (inside : e ∈ zonemap.extents) :
    ∃ zone, zonemap.zones[e.zone.toNat]? = some zone ∧ e ∈ zone.extents := by
  obtain ⟨zone, member, listed⟩ := List.mem_flatMap.mp inside
  obtain ⟨index, found⟩ := List.getElem?_of_mem member
  rw [consistent.filed index zone found e listed]
  exact ⟨zone, found, listed⟩

theorem Contained.only_before_iff (contained : Contained cfg zonemap)
    (supported : cfg.toGeometry.Supported) (consistent : zonemap.Consistent accepted)
    {n : UInt32} (most : n < cfg.znsdev.nrZones) {e : Extent} (inside : e ∈ zonemap.extents) :
    cfg.segmentLba (cfg.segmentId e.phyBlk) < (cfg.only n).endLba ↔ e.zone < n := by
  obtain ⟨zone, found, listed⟩ := consistent.index inside
  rw [UInt32.lt_iff_toNat_lt]
  exact contained.below_iff supported (UInt32.le_of_lt most) found listed

end Selected

section Listed

variable {cfg : Config} {dev : Device} {ctrl : Control} {accepted : List Extent} {n : UInt32}

theorem ListsZone.later (supported : cfg.toGeometry.Supported)
    (consistent : ctrl.zonemap.Consistent accepted) (contained : Contained cfg ctrl.zonemap)
    (most : n < cfg.znsdev.nrZones) (lists : ListsZone cfg dev ctrl n) {e : Extent}
    (inside : e ∈ ctrl.zonemap.extents) : n < e.zone := by
  obtain ⟨fuel, final, passes, result, items⟩ := lists
  have before_iff : _ ↔ e.zone < n := contained.only_before_iff supported consistent most inside
  have listed : e ∈ passes.map CursorLoop.Pass.item ↔ e.zone = n := by
    rw [items, ZoneMap.headedBy, List.mem_filter, beq_iff_eq]
    exact and_iff_right inside
  by_contra early
  by_cases same : e.zone = n
  · -- A pass over the extent would find that it lies in front of the end.
    obtain ⟨pass, taken, rfl⟩ := List.mem_map.mp (listed.mpr same)
    obtain ⟨-, each⟩ := CursorLoop.scans_keeps (fun _ => True) (fun _ => True) _
      (fun _ _ _ _ _ _ _ _ => trivial) (fun _ _ => trivial) (fun _ _ _ _ => trivial) result trivial
    have less := before_iff.mp (showExtentTurn_advance (each pass taken).2).1
    rw [same] at less
    exact UInt32.lt_irrefl n less
  · -- The loop ends only if it moves past the extent.
    have less : e.zone < n := UInt32.lt_of_le_of_ne (UInt32.not_lt.mp early) same
    have flat : ctrl.zonemap.scanned.flatten = ctrl.zonemap.extents :=
      scannedOf_flatten consistent.counted
    have geometry : (cfg.only n).toGeometry.Supported := supported
    rw [← flat] at inside
    obtain ⟨extents, member, held⟩ := List.mem_flatten.mp inside
    obtain ⟨pass, taken, rfl, turn⟩ := passed_range geometry
      (fun _ _ _ => showExtentTurn_leave) consistent.sorted result member held
      (before_iff.mpr less)
    exact same (listed.mp (List.mem_map_of_mem taken))

end Listed

/-- The report for zone n lists the extents of the zone printed as 'ZONE n' exactly when there is
none in it and none in the zones before it: the report is about zone n - 1, and does not get past an
extent before that. -/
theorem selected_zone_listed_iff (cfg : Config) (dev : Device) (ctrl : Control)
    (accepted : List Extent) (supported : cfg.toGeometry.Supported)
    (consistent : ctrl.zonemap.Consistent accepted) (contained : Contained cfg ctrl.zonemap)
    (n : UInt32) (most : n < cfg.znsdev.nrZones) :
    ListsZone cfg dev ctrl n ↔ ∀ e ∈ ctrl.zonemap.extents, n < e.zone := by
  constructor
  · intro lists e inside
    exact lists.later supported consistent contained most inside
  · intro later
    have behind : ∀ e ∈ ctrl.zonemap.extents,
        (cfg.only n).endLba ≤ cfg.segmentLba (cfg.segmentId e.phyBlk) := by
      intro e inside
      refine UInt64.not_lt.mp fun below => ?_
      have early := (contained.only_before_iff supported consistent most inside).mp below
      exact UInt32.lt_asymm early (later e inside)
    have run : showSegments (cfg.only n) dev List.length ctrl =
        some (.ok (ReportState.start ctrl, [])) := scans_behind behind _
    refine ⟨List.length, _, [], run, ?_⟩
    symm
    rw [ZoneMap.headedBy, List.map_nil, List.filter_eq_nil_iff]
    intro e inside same
    exact UInt32.lt_irrefl n (beq_iff_eq.mp same ▸ later e inside)

-- Three zones of four segments, and a file in pieces.
def threeZones : Config :=
  segmapConfig 512 0 16384 3 (List.replicate 12 ⟨0, .cursegWarmData, 512⟩)

def threeZonesFile (extents : List FiemapExtent) : Control :=
  collected threeZones (mapFile threeZones [97] 16 extents)

theorem threeZonesFile_contained (extents : List FiemapExtent)
    (places : ∀ numbered ∈ (threeZonesFile extents).zonemap.zones.zipIdx,
      ∀ e ∈ numbered.1.extents, numbered.2 * 16384 ≤ e.phyBlk.toNat ∧
        e.phyBlk.toNat < (numbered.2 + 1) * 16384)
    (count : (threeZonesFile extents).zonemap.zones.length = 3) :
    Contained threeZones (threeZonesFile extents).zonemap :=
  ⟨⟨by decide, fun index zone found =>
    places (zone, index) (List.mk_mem_zipIdx_iff_getElem?.mpr found)⟩, count, by decide⟩

theorem threeZonesFile_consistent (extents : List FiemapExtent) (accepted : Nat)
    (mapped : (collect threeZones (mapFile threeZones [97] 16 extents)).map
      (·.accepted.length) = .ok accepted) (few : accepted < 2 ^ 32) :
    ∃ filed, (threeZonesFile extents).zonemap.Consistent filed := by
  obtain ⟨m, run, rfl⟩ := Runs.map_ok mapped
  have consistent := collect_zonemap run few
  rw [threeZonesFile, collected, run]
  exact ⟨_, consistent⟩

-- An extent in zone 0 and one in zone 1: `-z 1` lists the first one.
def bothPieces : List FiemapExtent :=
  [⟨0, 8 * 512, 4096, 0⟩, ⟨4096, 20480 * 512, 4096, fiemapExtentLast⟩]

theorem other_zone_listed :
    (threeZonesFile bothPieces).zonemap.extents.map (fun e => (e.zone, e.phyBlk)) =
        [(0, 8), (1, 20480)] ∧
      (showSegments (threeZones.only 1) (fullZones threeZones) List.length
        (threeZonesFile bothPieces)).map (·.map fun run => run.2.map (·.item.phyBlk)) =
          some (.ok [8]) ∧
      ¬ ListsZone threeZones (fullZones threeZones) (threeZonesFile bothPieces) 1 := by
  refine ⟨by decide, by decide, fun lists => ?_⟩
  obtain ⟨filed, consistent⟩ := threeZonesFile_consistent bothPieces 2 (by decide)
    (by decide)
  have contained := threeZonesFile_contained bothPieces (by decide) (by decide)
  have early : ∃ e ∈ (threeZonesFile bothPieces).zonemap.extents, ¬ 1 < e.zone := by decide
  obtain ⟨e, inside, before⟩ := early
  exact before (lists.later (.inl rfl) consistent contained (by decide) inside)

theorem empty_zones_listed :
    ListsZone threeZones (fullZones threeZones)
      (threeZonesFile [⟨0, 36864 * 512, 4096, fiemapExtentLast⟩]) 1 := by
  obtain ⟨filed, consistent⟩ := threeZonesFile_consistent
    [⟨0, 36864 * 512, 4096, fiemapExtentLast⟩] 1 (by decide) (by decide)
  exact (selected_zone_listed_iff threeZones _ _ filed (.inl rfl) consistent
    (threeZonesFile_contained _ (by decide) (by decide)) 1 (by decide)).mpr (by decide)

end ZnsTools
