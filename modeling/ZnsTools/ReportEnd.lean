import ZnsTools.FileCounters

set_option autoImplicit false

namespace ZnsTools

def Config.upTo (cfg : Config) (endZone : UInt32) : Config :=
  { cfg with endZone := endZone }

/-- Extents are filed under the zone that they start in, and zones consist of whole segments. -/
structure InZones (cfg : Config) (zonemap : ZoneMap) : Prop where
  whole : cfg.segmentSize ∣ cfg.znsdev.zoneSize.toNat
  inside : ∀ (index : Nat) (zone : Zone), zonemap.zones[index]? = some zone → ∀ e ∈ zone.extents,
    index * cfg.znsdev.zoneSize.toNat ≤ e.phyBlk.toNat ∧
      e.phyBlk.toNat < (index + 1) * cfg.znsdev.zoneSize.toNat

structure Contained (cfg : Config) (zonemap : ZoneMap) : Prop extends InZones cfg zonemap where
  count : zonemap.zones.length = cfg.znsdev.nrZones.toNat
  fits : cfg.znsdev.nrZones.toNat * cfg.znsdev.zoneSize.toNat < 2 ^ 64

section Range

variable {cfg : Config} {zonemap : ZoneMap}

theorem InZones.segment_start (contained : InZones cfg zonemap)
    (supported : cfg.toGeometry.Supported) {index : Nat} {zone : Zone}
    (found : zonemap.zones[index]? = some zone) {e : Extent} (inside : e ∈ zone.extents) :
    index * cfg.znsdev.zoneSize.toNat ≤ (cfg.segmentLba (cfg.segmentId e.phyBlk)).toNat ∧
      (cfg.segmentLba (cfg.segmentId e.phyBlk)).toNat < (index + 1) * cfg.znsdev.zoneSize.toNat := by
  have ⟨low, high⟩ := contained.inside index zone found e inside
  have start : cfg.segmentSize ∣ index * cfg.znsdev.zoneSize.toNat :=
    Dvd.dvd.mul_left contained.whole index
  rw [Geometry.segmentLba_segmentId supported]
  constructor
  · calc index * cfg.znsdev.zoneSize.toNat
        = index * cfg.znsdev.zoneSize.toNat / cfg.segmentSize * cfg.segmentSize :=
          (Nat.div_mul_cancel start).symm
      _ ≤ e.phyBlk.toNat / cfg.segmentSize * cfg.segmentSize :=
          Nat.mul_le_mul_right _ (Nat.div_le_div_right low)
  · exact Nat.lt_of_le_of_lt (Nat.div_mul_le_self _ _) high

-- With 2^32 - 1 zones the sum in `end_lba` wraps, to an address behind all zones.
theorem Contained.endLba (contained : Contained cfg zonemap)
    (supported : cfg.toGeometry.Supported) {endZone : UInt32} (known : endZone ≤ cfg.znsdev.nrZones) :
    (cfg.upTo endZone).endLba.toNat = endZone.toNat * cfg.znsdev.zoneSize.toNat ∨
      endZone = cfg.znsdev.nrZones ∧
        cfg.znsdev.nrZones.toNat * cfg.znsdev.zoneSize.toNat ≤ (cfg.upTo endZone).endLba.toNat := by
  have few := UInt32.le_iff_toNat_le.mp known
  have within : endZone.toNat * cfg.znsdev.zoneSize.toNat < 2 ^ 64 :=
    Nat.lt_of_le_of_lt (Nat.mul_le_mul_right _ few) contained.fits
  by_cases most : endZone.toNat + 1 < 2 ^ 32
  · left
    have value := @Config.endLba_eq (cfg.upTo endZone) most
    rw [value, UInt64.toNat_mul]
    exact Nat.mod_eq_of_lt within
  · right
    have top : endZone.toNat = 2 ^ 32 - 1 := by
      have bound := endZone.toNat_lt
      omega
    have all : cfg.znsdev.nrZones.toNat = 2 ^ 32 - 1 := by
      have bound := cfg.znsdev.nrZones.toNat_lt
      omega
    have even : ∃ half, cfg.znsdev.zoneSize.toNat = 2 * half := by
      obtain ⟨segments, same⟩ := contained.whole
      rcases supported.size with size | size <;> rw [size] at same
      · exact ⟨2048 * segments, by omega⟩
      · exact ⟨256 * segments, by omega⟩
    have next : (endZone + 1).toUInt64 = 0 := by
      rw [← UInt64.toNat_inj, UInt32.toNat_toUInt64, UInt32.toNat_add, top]
      rfl
    have value : (cfg.upTo endZone).endLba = 0 - cfg.znsdev.zoneSize := by
      change (endZone + 1).toUInt64 * cfg.znsdev.zoneSize - cfg.znsdev.zoneSize = _
      rw [next, UInt64.zero_mul]
    have fits := contained.fits
    refine ⟨UInt32.toNat_inj.mp (top.trans all.symm), ?_⟩
    rw [value, UInt64.toNat_sub, UInt64.toNat_zero, Nat.add_zero]
    rw [all] at fits ⊢
    obtain ⟨half, same⟩ := even
    omega

theorem InZones.segment_below_iff (inZones : InZones cfg zonemap)
    (supported : cfg.toGeometry.Supported) {index : Nat} {zone : Zone}
    (found : zonemap.zones[index]? = some zone) {e : Extent} (inside : e ∈ zone.extents) (n : Nat) :
    (cfg.segmentLba (cfg.segmentId e.phyBlk)).toNat < n * cfg.znsdev.zoneSize.toNat ↔
      index < n := by
  obtain ⟨low, high⟩ := inZones.segment_start supported found inside
  constructor
  · intro below
    exact Nat.lt_of_mul_lt_mul_right (Nat.lt_of_le_of_lt low below)
  · intro before
    exact Nat.lt_of_lt_of_le high (Nat.mul_le_mul_right _ before)

theorem Contained.below_iff (contained : Contained cfg zonemap)
    (supported : cfg.toGeometry.Supported) {endZone : UInt32} (known : endZone ≤ cfg.znsdev.nrZones)
    {index : Nat} {zone : Zone} (found : zonemap.zones[index]? = some zone) {e : Extent}
    (inside : e ∈ zone.extents) :
    cfg.segmentLba (cfg.segmentId e.phyBlk) < (cfg.upTo endZone).endLba ↔ index < endZone.toNat := by
  have below_iff := contained.segment_below_iff supported found inside
  have zones := (List.getElem?_eq_some_iff.mp found).1
  rw [contained.count] at zones
  rw [UInt64.lt_iff_toNat_lt]
  rcases contained.endLba supported known with exact | ⟨rfl, wide⟩
  · rw [exact]
    exact below_iff _
  · exact iff_of_true (((below_iff _).mpr zones).trans_le wide) zones

end Range

section Runs

variable {cfg : Config} {dev : Device} {ctrl : Control} {counters : FileCounterMap}

theorem Reportable.upTo (ready : Reportable cfg dev ctrl counters) (endZone : UInt32) :
    Reportable (cfg.upTo endZone) dev ctrl counters where
  supported := ready.supported
  zoned := ready.zoned
  reports := ready.reports
  tracked := ready.tracked
  listed := ready.listed
  informed := ready.informed
  writable := ready.writable
  addressed := ready.addressed
  counted := ready.counted
  sorted := ready.sorted

theorem mem_extentsOf {zones : List Zone} {e : Extent} (inside : e ∈ extentsOf zones)
    (own : ∀ zone ∈ zones, zone ∈ ctrl.zonemap.zones) : e ∈ ctrl.zonemap.extents := by
  obtain ⟨zone, member, listed⟩ := List.mem_flatMap.mp inside
  exact List.mem_flatMap.mpr ⟨zone, own zone member, listed⟩

theorem showExtentTurn_upTo {first second : UInt32} {nrFiles : UInt32} {e : Extent}
    (below : cfg.segmentLba (cfg.segmentId e.phyBlk) < (cfg.upTo first).endLba)
    (under : cfg.segmentLba (cfg.segmentId e.phyBlk) < (cfg.upTo second).endLba)
    (state : ReportState) :
    showExtentTurn (cfg.upTo first) dev nrFiles e state =
      showExtentTurn (cfg.upTo second) dev nrFiles e state := by
  have one : ¬ (cfg.upTo first).endLba ≤ (cfg.upTo first).segmentLba ((cfg.upTo first).segmentId
    e.phyBlk) := UInt64.not_le.mpr below
  have two : ¬ (cfg.upTo second).endLba ≤ (cfg.upTo second).segmentLba ((cfg.upTo second).segmentId
    e.phyBlk) := UInt64.not_le.mpr under
  rw [showExtentTurn, showExtentTurn, if_neg one, if_neg two]
  rfl

theorem scans_below (ready : Reportable cfg dev ctrl counters) (start : cfg.startLba = 0)
    {zones : List Zone} (own : ∀ zone ∈ zones, zone ∈ ctrl.zonemap.zones)
    (below : ∀ e ∈ extentsOf zones, cfg.segmentLba (cfg.segmentId e.phyBlk) < cfg.endLba)
    {state : ReportState} (tracking : Tracking counters state) :
    ∃ final passes, CursorLoop.scans (showExtentTurn cfg dev ctrl.nrFiles) id .ok List.length
        (scannedOf zones) state = some (.ok (final, passes)) ∧ Tracking counters final ∧
      passes.map CursorLoop.Pass.item = extentsOf zones := by
  have flat := scannedOf_flatten fun zone member => ready.counted zone (own zone member)
  have after : ∀ e : Extent, cfg.startLba ≤ cfg.segmentLba (cfg.segmentId e.phyBlk) := fun e => by
    rw [start]
    exact UInt64.zero_le
  have turn : ∀ e ∈ extentsOf zones, ∀ state, Tracking counters state →
      ∃ next out, showExtentTurn cfg dev ctrl.nrFiles e state = .ok (.advance next out) ∧
        Tracking counters next := by
    intro e inside state tracking
    rcases showExtentTurn_tracking ready (mem_extentsOf inside own) tracking (after e) with
      moved | ⟨next, left, -⟩
    · exact moved
    · obtain ⟨_, _, _, _, _, -, -, -, -, -, flow⟩ := showExtentTurn_ok (below e inside) (after e) left
      cases flow
  obtain ⟨final, passes, result, last⟩ := CursorLoop.scans_returns (Tracking counters)
    (scannedOf zones) (by
      intro extents listed e inside state tracking
      obtain ⟨zone, member, rfl⟩ := mem_scannedOf listed
      exact .inl (turn e (List.mem_flatMap.mpr ⟨zone, member, inside⟩) state tracking))
    (fun _ holds => holds) (fun state holds => ⟨state, rfl, holds⟩) (fun _ => Nat.le_refl _) tracking
  have visited := (CursorLoop.scans_exhausts (fun _ => Tracking counters)
    (fun _ => Tracking counters) (fun _ _ => True) (scannedOf zones) (by
      intro done e rest split state flow tracking outcome
      rw [flat] at split
      obtain ⟨next, out, moved, kept⟩ := turn e (by simp [split]) state tracking
      rw [moved] at outcome
      exact ⟨next, out, (Except.ok.inj outcome).symm, kept, trivial⟩)
    (fun _ _ holds => holds) (fun _ _ _ holds same => Except.ok.inj same ▸ holds) result
    tracking).2.1
  exact ⟨final, passes, result, last, visited.trans flat⟩

theorem scans_upTo {first second : UInt32} {zones : List Zone}
    (below : ∀ e ∈ extentsOf zones,
      cfg.segmentLba (cfg.segmentId e.phyBlk) < (cfg.upTo first).endLba)
    (under : ∀ e ∈ extentsOf zones,
      cfg.segmentLba (cfg.segmentId e.phyBlk) < (cfg.upTo second).endLba) (state : ReportState) :
    CursorLoop.scans (showExtentTurn (cfg.upTo first) dev ctrl.nrFiles) id .ok List.length
        (scannedOf zones) state =
      CursorLoop.scans (showExtentTurn (cfg.upTo second) dev ctrl.nrFiles) id .ok List.length
        (scannedOf zones) state := by
  apply CursorLoop.scans_congr
  intro extents listed e inside state
  obtain ⟨zone, member, rfl⟩ := mem_scannedOf listed
  have held := List.mem_flatMap.mpr ⟨zone, member, inside⟩
  exact showExtentTurn_upTo (below e held) (under e held) state

theorem scans_behind {zones : List Zone}
    (behind : ∀ e ∈ extentsOf zones, cfg.endLba ≤ cfg.segmentLba (cfg.segmentId e.phyBlk))
    (state : ReportState) :
    CursorLoop.scans (showExtentTurn cfg dev ctrl.nrFiles) id .ok List.length (scannedOf zones) state =
      some (.ok (state, [])) := by
  apply CursorLoop.scans_leaves ?_ (fun _ => rfl) (fun _ => Nat.le_refl _)
  intro extents listed e inside state
  obtain ⟨zone, member, rfl⟩ := mem_scannedOf listed
  rw [showExtentTurn, if_pos (behind e (List.mem_flatMap.mpr ⟨zone, member, inside⟩))]
  rfl

theorem Contained.before_end {zonemap : ZoneMap} (contained : Contained cfg zonemap)
    (supported : cfg.toGeometry.Supported) {endZone : UInt32} (known : endZone ≤ cfg.znsdev.nrZones)
    {e : Extent} (inside : e ∈ extentsOf (zonemap.zones.take endZone.toNat)) :
    cfg.segmentLba (cfg.segmentId e.phyBlk) < (cfg.upTo endZone).endLba := by
  obtain ⟨zone, member, listed⟩ := List.mem_flatMap.mp inside
  obtain ⟨place, found⟩ := List.getElem?_of_mem member
  rw [List.getElem?_take] at found
  split at found
  · next short => exact (contained.below_iff supported known found listed).mpr short
  · cases found

theorem Contained.behind_end {zonemap : ZoneMap} (contained : Contained cfg zonemap)
    (supported : cfg.toGeometry.Supported) {endZone : UInt32} (known : endZone ≤ cfg.znsdev.nrZones)
    {e : Extent} (inside : e ∈ extentsOf (zonemap.zones.drop endZone.toNat)) :
    (cfg.upTo endZone).endLba ≤ cfg.segmentLba (cfg.segmentId e.phyBlk) := by
  obtain ⟨zone, member, listed⟩ := List.mem_flatMap.mp inside
  obtain ⟨place, found⟩ := List.getElem?_of_mem member
  rw [List.getElem?_drop] at found
  have range := contained.below_iff supported known found listed
  exact UInt64.not_lt.mp fun below => absurd (range.mp below) (by omega)

-- The loops over the zones from the end on do nothing, so that those before it are the whole run.
theorem Contained.showSegments_take (contained : Contained cfg ctrl.zonemap)
    (supported : cfg.toGeometry.Supported) {endZone : UInt32} (known : endZone ≤ cfg.znsdev.nrZones)
    {final : ReportState} {passes : List ReportPass}
    (run : CursorLoop.scans (showExtentTurn (cfg.upTo endZone) dev ctrl.nrFiles) id .ok List.length
      (scannedOf (ctrl.zonemap.zones.take endZone.toNat)) (ReportState.start ctrl) =
        some (.ok (final, passes))) :
    showSegments (cfg.upTo endZone) dev List.length ctrl = some (.ok (final, passes)) := by
  have whole := CursorLoop.scans_append run (scans_behind
    (fun _ inside => contained.behind_end supported known inside) final)
  rwa [← scannedOf_append, List.take_append_drop, List.append_nil] at whole

theorem showSegmentStats_exists {state : ReportState}
    (tracking : Tracking counters state) : ∃ stats, showSegmentStats cfg ctrl state = .ok stats := by
  obtain ⟨current, map, -⟩ := tracking
  rw [showSegmentStats, fileStatsLines, map]
  split <;> exact ⟨_, rfl⟩

theorem showSegmentReport_ok {final : ReportState}
    {passes : List ReportPass} (tracking : Tracking counters final)
    (run : showSegments cfg dev List.length ctrl = some (.ok (final, passes))) :
    ∃ stats, showSegmentReport cfg dev List.length ctrl = some (.ok
      (rep cfg [.equalFormatter, .title, .equalFormatter] ++ passes.flatMap (·.out), stats)) := by
  obtain ⟨stats, counted⟩ := showSegmentStats_exists tracking
  refine ⟨stats, ?_⟩
  rw [showSegmentReport, run, Option.map_some, Runs.ok_bind]
  dsimp only
  rw [counted, Runs.ok_bind]
  rfl

end Runs

/-- Raising the end zone from one zone to another leaves the mapping lines as they are, and appends
those for the extents in the zones between the two. -/
theorem report_extends (cfg : Config) (dev : Device) (ctrl : Control) (counters : FileCounterMap)
    (ready : Reportable cfg dev ctrl counters) (contained : Contained cfg ctrl.zonemap)
    (start : cfg.startZone = 1) (first second : UInt32) (ordered : first ≤ second)
    (known : second ≤ cfg.znsdev.nrZones) :
    ∃ fewer more shown omitted,
      showSegments (cfg.upTo first) dev List.length ctrl = some (.ok (fewer, shown)) ∧
      showSegments (cfg.upTo second) dev List.length ctrl = some (.ok (more, shown ++ omitted)) ∧
      shown.map CursorLoop.Pass.item = extentsOf (ctrl.zonemap.zones.take first.toNat) ∧
      omitted.map CursorLoop.Pass.item =
        extentsOf ((ctrl.zonemap.zones.take second.toNat).drop first.toNat) ∧
      ∃ lines stats others,
        showSegmentReport (cfg.upTo first) dev List.length ctrl = some (.ok (lines, stats)) ∧
        showSegmentReport (cfg.upTo second) dev List.length ctrl =
          some (.ok (lines ++ omitted.flatMap (·.out), others)) := by
  have lower : first ≤ cfg.znsdev.nrZones := UInt32.le_trans ordered known
  have origin : cfg.startLba = 0 := by simp [Config.startLba, start]
  let front := ctrl.zonemap.zones.take first.toNat
  let between := (ctrl.zonemap.zones.take second.toNat).drop first.toNat
  have upTo : ctrl.zonemap.zones.take second.toNat = front ++ between := by
    have shorter : (ctrl.zonemap.zones.take second.toNat).take first.toNat = front := by
      rw [List.take_take, Nat.min_eq_left (UInt32.le_iff_toNat_le.mp ordered)]
    rw [← shorter, List.take_append_drop]
  have below : ∀ e ∈ extentsOf front ++ extentsOf between,
      cfg.segmentLba (cfg.segmentId e.phyBlk) < (cfg.upTo second).endLba := by
    intro e inside
    rw [extentsOf, extentsOf, ← List.flatMap_append, ← upTo] at inside
    exact contained.before_end ready.supported known inside
  obtain ⟨near, far⟩ := List.forall_mem_append.mp below
  have under : ∀ e ∈ extentsOf front,
      cfg.segmentLba (cfg.segmentId e.phyBlk) < (cfg.upTo first).endLba :=
    fun e inside => contained.before_end ready.supported lower inside
  obtain ⟨fewer, shown, run, tracking, items⟩ := scans_below (ready.upTo first) origin
    (fun zone member => List.mem_of_mem_take member) under (start_tracking ready)
  obtain ⟨more, omitted, rest, tracked, others⟩ := scans_below (ready.upTo second) origin
    (fun zone member => List.mem_of_mem_take (List.mem_of_mem_drop member)) far tracking
  have again := (scans_upTo near under (ReportState.start ctrl)).trans run
  have small := contained.showSegments_take ready.supported lower run
  have large : showSegments (cfg.upTo second) dev List.length ctrl =
      some (.ok (more, shown ++ omitted)) := by
    refine contained.showSegments_take ready.supported known ?_
    rw [upTo, scannedOf_append]
    exact CursorLoop.scans_append again rest
  obtain ⟨stats, report⟩ := showSegmentReport_ok tracking small
  obtain ⟨otherStats, longer⟩ := showSegmentReport_ok tracked large
  rw [List.flatMap_append, ← List.append_assoc] at longer
  exact ⟨fewer, more, shown, omitted, small, large, items, others, _, stats, otherStats, report,
    longer⟩

-- A piece of a file in either zone.
theorem second_zone_appended :
    ∃ fewer more shown omitted,
      showSegments (warmConfig.upTo 1) (fullZones warmConfig) List.length
        (splitFile (8, 8) (20480, 8)) = some (.ok (fewer, shown)) ∧
      showSegments (warmConfig.upTo 2) (fullZones warmConfig) List.length
        (splitFile (8, 8) (20480, 8)) = some (.ok (more, shown ++ omitted)) ∧
      shown.map (·.item.phyBlk) = [8] ∧ omitted.map (·.item.phyBlk) = [20480] := by
  have ready := splitFile_reportable (8, 8) (20480, 8) (by decide)
  have places : ∀ numbered ∈ (splitFile (8, 8) (20480, 8)).zonemap.zones.zipIdx,
      ∀ e ∈ numbered.1.extents, numbered.2 * 16384 ≤ e.phyBlk.toNat ∧
        e.phyBlk.toNat < (numbered.2 + 1) * 16384 := by
    decide
  have contained : Contained warmConfig (splitFile (8, 8) (20480, 8)).zonemap :=
    ⟨⟨by decide, fun index zone found =>
      places (zone, index) (List.mk_mem_zipIdx_iff_getElem?.mpr found)⟩, rfl, by decide⟩
  obtain ⟨fewer, more, shown, omitted, small, large, items, others, -⟩ := report_extends warmConfig
    (fullZones warmConfig) _ splitFileCounters ready contained rfl 1 2 (by decide) (by decide)
  have near : shown.map (·.item.phyBlk) = [8] := by
    have same := congrArg (List.map Extent.phyBlk) items
    rw [List.map_map] at same
    exact same
  have far : omitted.map (·.item.phyBlk) = [20480] := by
    have same := congrArg (List.map Extent.phyBlk) others
    rw [List.map_map] at same
    exact same
  exact ⟨fewer, more, shown, omitted, small, large, near, far⟩

end ZnsTools
