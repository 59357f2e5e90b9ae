import ZnsTools.FileCounters
import ZnsTools.JsonRuns

set_option autoImplicit false

namespace ZnsTools

-- The extents for which a pass of either loop is begun again with the same extent: they lie in front
-- of the selected range, and not behind its end.
def LeftBehind (cfg : Config) (e : Extent) : Prop :=
  cfg.segmentLba (cfg.segmentId e.phyBlk) < cfg.endLba ∧
    cfg.segmentLba (cfg.segmentId e.phyBlk) < cfg.startLba

instance (cfg : Config) (e : Extent) : Decidable (LeftBehind cfg e) :=
  inferInstanceAs (Decidable (_ ∧ _))

def Ended (outcome : Option (Except Halt (JsonState × List JsonPass))) : Prop :=
  outcome ≠ none ∧ outcome ≠ some (.error .running)

section Range

variable {cfg : Config} {dev : Device} {ctrl : Control} {counters : FileCounterMap}

theorem segmentLba_mono (supported : cfg.toGeometry.Supported) {first second : Extent}
    (ordered : first.phyBlk ≤ second.phyBlk) :
    cfg.segmentLba (cfg.segmentId first.phyBlk) ≤ cfg.segmentLba (cfg.segmentId second.phyBlk) := by
  rw [UInt64.le_iff_toNat_le, Geometry.segmentLba_segmentId supported,
    Geometry.segmentLba_segmentId supported]
  exact Nat.mul_le_mul_right _ (Nat.div_le_div_right (UInt64.le_iff_toNat_le.mp ordered))

-- A list is left at its end, or at an extent behind the range; either way an extent that the loop
-- got past does not lie in front of the range.
theorem passed_range {ω σ ε : Type} {body : Extent → σ → Except ε (CursorLoop.Flow σ ω)}
    (supported : cfg.toGeometry.Supported)
    (leaves : ∀ e state next, body e state = .ok (.leave next) →
      cfg.endLba ≤ cfg.segmentLba (cfg.segmentId e.phyBlk))
    {enter : σ → σ} {close : σ → Except ε σ} {fuel : List Extent → Nat} {state final : σ}
    {passes : List (CursorLoop.Pass Extent σ ω)}
    (sorted : ∀ zone ∈ ctrl.zonemap.zones, Sorted zone.extents)
    (result : CursorLoop.scans body enter close fuel ctrl.zonemap.scanned state =
      some (.ok (final, passes)))
    {e : Extent} {extents : List Extent} (listed : extents ∈ ctrl.zonemap.scanned)
    (inside : e ∈ extents) (before : cfg.segmentLba (cfg.segmentId e.phyBlk) < cfg.endLba) :
    ∃ pass ∈ passes, pass.item = e ∧ body e pass.before = .ok (.advance pass.after pass.out) := by
  obtain ⟨front, back, split⟩ := List.append_of_mem inside
  rcases CursorLoop.scans_passed result listed front e back split with
    moved | ⟨other, earlier, state, next, left⟩
  · exact moved
  · obtain ⟨zone, kept, rfl⟩ := List.mem_map.mp listed
    have ordered : other.phyBlk ≤ e.phyBlk := by
      rcases List.mem_append.mp earlier with member | same
      · have pairs := sorted zone (List.mem_filter.mp kept).1
        rw [split] at pairs
        exact (List.pairwise_append.mp pairs).2.2 other member e (by simp)
      · rw [List.mem_singleton.mp same]
        exact UInt64.le_refl _
    have behind := UInt64.le_trans (leaves other state next left) (segmentLba_mono supported ordered)
    exact absurd before (UInt64.not_lt.mpr behind)

theorem Reportable.listed_in (ready : Reportable cfg dev ctrl counters) {e : Extent}
    (inside : e ∈ ctrl.zonemap.extents) : ∃ extents ∈ ctrl.zonemap.scanned, e ∈ extents := by
  rw [← ready.scanned] at inside
  exact List.mem_flatten.mp inside

section Text

theorem showExtentTurn_leave {e : Extent} {nrFiles : UInt32} {state next : ReportState}
    (turn : showExtentTurn cfg dev nrFiles e state = .ok (.leave next)) :
    cfg.endLba ≤ cfg.segmentLba (cfg.segmentId e.phyBlk) := by
  by_contra before
  by_cases below : cfg.segmentLba (cfg.segmentId e.phyBlk) < cfg.startLba
  · rw [showExtentTurn, if_neg before, if_pos below] at turn
    cases turn
  · obtain ⟨_, _, _, _, _, -, -, -, -, -, flow⟩ := showExtentTurn_ok (UInt64.not_le.mp before)
      (UInt64.not_lt.mp below) turn
    cases flow

theorem showExtentTurn_succeeds (ready : Reportable cfg dev ctrl counters) {e : Extent}
    (inside : e ∈ ctrl.zonemap.extents) {state : ReportState} (tracking : Tracking counters state) :
    ∃ flow, showExtentTurn cfg dev ctrl.nrFiles e state = .ok flow ∧
      Tracking counters flow.state := by
  by_cases past : cfg.endLba ≤ cfg.segmentLba (cfg.segmentId e.phyBlk)
  · exact ⟨.leave state, by rw [showExtentTurn, if_pos past]; rfl, tracking⟩
  by_cases below : cfg.segmentLba (cfg.segmentId e.phyBlk) < cfg.startLba
  · exact ⟨.again state, by rw [showExtentTurn, if_neg past, if_pos below]; rfl, tracking⟩
  · rcases showExtentTurn_tracking ready inside tracking (UInt64.not_lt.mp below) with
      ⟨next, out, turn, kept⟩ | ⟨next, turn, kept⟩
    · exact ⟨_, turn, kept⟩
    · exact ⟨_, turn, kept⟩

theorem showSegments_ended (ready : Reportable cfg dev ctrl counters) {fuel : List Extent → Nat}
    (ended : showSegments cfg dev fuel ctrl ≠ none) :
    ∃ final passes, showSegments cfg dev fuel ctrl = some (.ok (final, passes)) := by
  obtain ⟨outcome, result⟩ := Option.ne_none_iff_exists'.mp ended
  cases outcome with
  | ok run => exact ⟨run.1, run.2, result⟩
  | error reason =>
    obtain ⟨extents, listed, e, inside, state, tracking, failed⟩ := CursorLoop.scans_fails
      (Tracking counters) _ (by
        intro extents listed e inside state flow tracking turn
        obtain ⟨other, same, kept⟩ := showExtentTurn_succeeds ready (mem_scanned listed inside)
          tracking
        rw [turn] at same
        exact Except.ok.inj same ▸ kept)
      (fun _ holds => holds) (fun state holds => ⟨state, rfl, holds⟩) result (start_tracking ready)
    obtain ⟨flow, turn, -⟩ := showExtentTurn_succeeds ready (mem_scanned listed inside) tracking
    rw [failed] at turn
    cases turn

theorem showSegments_not_left_behind (ready : Reportable cfg dev ctrl counters)
    {fuel : List Extent → Nat} (ended : showSegments cfg dev fuel ctrl ≠ none) {e : Extent}
    (inside : e ∈ ctrl.zonemap.extents) : ¬ LeftBehind cfg e := by
  rintro ⟨before, below⟩
  obtain ⟨final, passes, result⟩ := showSegments_ended ready ended
  obtain ⟨extents, listed, member⟩ := ready.listed_in inside
  obtain ⟨pass, -, -, turn⟩ := passed_range ready.supported
    (fun _ _ _ => showExtentTurn_leave) ready.sorted result listed member before
  exact absurd below (UInt64.not_lt.mpr (showExtentTurn_advance turn).2)

end Text

section Json

theorem jsonExtentTurn_leave {e : Extent} {map : Option FileCounterMap} {fuel : Nat}
    {state next : JsonState} (turn : jsonExtentTurn cfg map fuel e state = .ok (.leave next)) :
    cfg.endLba ≤ cfg.segmentLba (cfg.segmentId e.phyBlk) := by
  rcases jsonExtentTurn_ok turn with ⟨past, -⟩ | ⟨-, flow⟩ | ⟨_, _, _, _, -, -, flow⟩
  · exact past
  · cases flow
  · cases flow

theorem jsonDumpF2fsZonemap_ended (ready : Reportable cfg dev ctrl counters)
    {fuel : List Extent → Nat} {inner : Nat}
    (ended : Ended (jsonDumpF2fsZonemap cfg dev fuel inner ctrl)) :
    ∃ final passes, jsonDumpF2fsZonemap cfg dev fuel inner ctrl = some (.ok (final, passes)) := by
  obtain ⟨stopped, idle⟩ := ended
  obtain ⟨outcome, result⟩ := Option.ne_none_iff_exists'.mp stopped
  cases outcome with
  | ok run => exact ⟨run.1, run.2, result⟩
  | error halt =>
    obtain ⟨extents, listed, e, inside, state, -, failed⟩ := CursorLoop.scans_fails
      (fun _ => True) _ (fun _ _ _ _ _ _ _ _ => trivial) (fun _ _ => trivial)
      (fun state _ => (jsonEndZone_exists cfg ready.reports state).imp fun _ done =>
        ⟨done, trivial⟩) result trivial
    have member := mem_scanned listed inside
    obtain ⟨segI, found⟩ := Option.ne_none_iff_exists'.mp (ready.informed e member)
    rcases jsonExtentTurn_outcome state ready.supported (ready.addressed e member) found
      ready.tracked inner with ⟨flow, turn⟩ | ⟨-, running⟩
    · rw [failed] at turn
      cases turn
    · rw [failed] at running
      cases running
      exact absurd result idle

theorem jsonDumpF2fsZonemap_not_left_behind (ready : Reportable cfg dev ctrl counters)
    {fuel : List Extent → Nat} {inner : Nat}
    (ended : Ended (jsonDumpF2fsZonemap cfg dev fuel inner ctrl)) {e : Extent}
    (inside : e ∈ ctrl.zonemap.extents)
    (before : cfg.segmentLba (cfg.segmentId e.phyBlk) < cfg.endLba) :
    cfg.startLba ≤ cfg.segmentLba (cfg.segmentId e.phyBlk) ∧ FillLoopEnds cfg e := by
  obtain ⟨final, passes, result⟩ := jsonDumpF2fsZonemap_ended ready ended
  obtain ⟨extents, listed, member⟩ := ready.listed_in inside
  obtain ⟨pass, -, -, turn⟩ := passed_range ready.supported
    (fun _ _ _ => jsonExtentTurn_leave) ready.sorted result listed member before
  obtain ⟨segI, found⟩ := Option.ne_none_iff_exists'.mp (ready.informed e inside)
  exact ⟨jsonExtentTurn_after turn, jsonExtentTurn_fill ready.supported (ready.addressed e inside)
    found ready.tracked turn⟩

end Json

end Range

/-- Both loops need no more passes than there are extents exactly if no extent is left behind; the
JSON loop moreover has its own loop over the segments of an extent, which has to end. With an extent
left behind, no number of passes is enough. -/
theorem extent_loops_end_iff (cfg : Config) (dev : Device) (ctrl : Control)
    (counters : FileCounterMap) (ready : Reportable cfg dev ctrl counters) :
    (showSegments cfg dev List.length ctrl ≠ none ↔
      ∀ e ∈ ctrl.zonemap.extents, ¬ LeftBehind cfg e) ∧
    ((∃ inner, Ended (jsonDumpF2fsZonemap cfg dev List.length inner ctrl)) ↔
      ∀ e ∈ ctrl.zonemap.extents, ¬ LeftBehind cfg e ∧
        (cfg.segmentLba (cfg.segmentId e.phyBlk) < cfg.endLba → FillLoopEnds cfg e)) ∧
    ((∃ e ∈ ctrl.zonemap.extents, LeftBehind cfg e) → ∀ fuel,
      showSegments cfg dev fuel ctrl = none ∧
        ∀ inner, ¬ Ended (jsonDumpF2fsZonemap cfg dev fuel inner ctrl)) := by
  refine ⟨⟨?_, ?_⟩, ⟨?_, ?_⟩, ?_⟩
  · exact fun ended e inside => showSegments_not_left_behind ready ended inside
  · intro moves
    obtain ⟨final, passes, result, -⟩ := showSegments_returns ready fun e inside before =>
      UInt64.not_lt.mp fun below => moves e inside ⟨before, below⟩
    rw [result]
    exact Option.some_ne_none _
  · rintro ⟨inner, ended⟩ e inside
    have moves := jsonDumpF2fsZonemap_not_left_behind ready ended inside
    exact ⟨fun ⟨before, below⟩ => absurd below (UInt64.not_lt.mpr (moves before).1),
      fun before => (moves before).2⟩
  · intro moves
    obtain ⟨final, passes, result⟩ := jsonDumpF2fsZonemap_returns ready fun e inside before =>
      ⟨UInt64.not_lt.mp fun below => (moves e inside).1 ⟨before, below⟩, (moves e inside).2 before⟩
    exact ⟨2 ^ 32, by rw [result]; simp [Ended]⟩
  · rintro ⟨e, inside, left⟩ fuel
    constructor
    · by_contra ended
      exact showSegments_not_left_behind ready ended inside left
    · intro inner ended
      exact absurd left.2 (UInt64.not_lt.mpr
        (jsonDumpF2fsZonemap_not_left_behind ready ended inside left.1).1)

def lastZoneConfig : Config :=
  { warmConfig with startZone := 2 }

def lastZoneFile (phyBlk len : UInt64) : Control :=
  collected lastZoneConfig
    (mapFile lastZoneConfig [97] 16 [⟨0, phyBlk * 512, len * 512, fiemapExtentLast⟩])

theorem lastZoneFile_reportable (phyBlk len : UInt64)
    (checked : (collect lastZoneConfig
      (mapFile lastZoneConfig [97] 16 [⟨0, phyBlk * 512, len * 512, fiemapExtentLast⟩])).map
        (fun m => (m.failed, m.opened, m.accepted.length, m.ctrl.fileCounterMap)) =
          .ok (false, 1, 1, some oneFileCounters)) :
    Reportable lastZoneConfig (fullZones lastZoneConfig) (lastZoneFile phyBlk len)
      oneFileCounters :=
  collected_reportable lastZoneConfig _ _ checked (by decide) (by decide) (.inl rfl) (by decide)
    (by decide) mapFile_full

-- The file lies in the first zone, and neither report comes to an end.
theorem first_zone_left_behind :
    (lastZoneFile 4096 4096).zonemap.extents.map (fun e => (e.phyBlk, e.len)) = [(4096, 4096)] ∧
    ∀ fuel, showSegments lastZoneConfig (fullZones lastZoneConfig) fuel
        (lastZoneFile 4096 4096) = none ∧
      ∀ inner, ¬ Ended (jsonDumpF2fsZonemap lastZoneConfig (fullZones lastZoneConfig) fuel inner
        (lastZoneFile 4096 4096)) := by
  have ready := lastZoneFile_reportable 4096 4096 (by decide)
  have left : ∃ e ∈ (lastZoneFile 4096 4096).zonemap.extents, LeftBehind lastZoneConfig e := by
    decide
  obtain ⟨e, inside, behind⟩ := left
  refine ⟨by decide, fun fuel => ⟨?_, fun inner ended => ?_⟩⟩
  · by_contra ended
    exact showSegments_not_left_behind ready ended inside behind
  · exact absurd behind.2 (UInt64.not_lt.mpr
      (jsonDumpF2fsZonemap_not_left_behind ready ended inside behind.1).1)

theorem last_zone_reported :
    showSegments lastZoneConfig (fullZones lastZoneConfig) List.length
        (lastZoneFile 16384 4096) ≠ none ∧
      ∃ inner, Ended (jsonDumpF2fsZonemap lastZoneConfig (fullZones lastZoneConfig) List.length
        inner (lastZoneFile 16384 4096)) := by
  obtain ⟨text, json, -⟩ := extent_loops_end_iff lastZoneConfig (fullZones lastZoneConfig)
    (lastZoneFile 16384 4096) oneFileCounters (lastZoneFile_reportable 16384 4096 (by decide))
  exact ⟨text.mpr (by decide), json.mpr (by decide)⟩

end ZnsTools
