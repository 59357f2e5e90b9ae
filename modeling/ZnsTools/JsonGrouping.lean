import Mathlib.Algebra.BigOperators.Group.List.Lemmas
import ZnsTools.FileCounters
import ZnsTools.JsonRuns

set_option autoImplicit false

namespace ZnsTools

def groupOf (g : Geometry) (zone : Zone) (segment : Nat) : List Extent :=
  zone.extents.filter fun e => e.first g = segment

def wholeInfo (counters : FileCounterMap) (e : Extent) : JsonExtentInfo :=
  extentInfoOf counters e e.phyBlk (e.phyBlk + e.len) e.len

-- One object for each segment with extents, under its own id, and no other object.
structure GroupedZone (g : Geometry) (counters : FileCounterMap) (zone : Zone)
    (segments : JsonSegments) : Prop where
  complete : ∀ segment, groupOf g zone segment ≠ [] → ∃ object,
    (idText segment, object) ∈ segments ∧
      object.extents.map (·.info) = (groupOf g zone segment).map (wholeInfo counters)
  exact : ∀ key object, (key, object) ∈ segments → ∃ segment, key = idText segment ∧
    groupOf g zone segment ≠ [] ∧
      object.extents.map (·.info) = (groupOf g zone segment).map (wholeInfo counters)

-- One object for each zone with extents, under its own number, and no other object.
structure ExactGrouping (g : Geometry) (counters : FileCounterMap) (zonemap : ZoneMap)
    (document : JsonZonemap) : Prop where
  complete : ∀ number zone, zonemap.zones[number]? = some zone → zone.extents ≠ [] → ∃ object,
    (idText number, object) ∈ document ∧ GroupedZone g counters zone object.segments
  exact : ∀ key object, (key, object) ∈ document → ∃ (number : Nat) (zone : Zone),
    key = idText number ∧ zonemap.zones[number]? = some zone ∧ zone.extents ≠ [] ∧
      GroupedZone g counters zone object.segments

def segmentEntries (segments : JsonSegments) : Nat :=
  (segments.map fun member => member.2.extents.length).sum

def documentEntries (document : JsonZonemap) : Nat :=
  (document.map fun member => segmentEntries member.2.segments).sum

section Grouped

variable {g : Geometry} {counters : FileCounterMap}

theorem sum_groups (g : Geometry) (zone : Zone) :
    ((zone.extents.map (·.first g)).dedup.map fun segment =>
      (groupOf g zone segment).length).sum = zone.extents.length := by
  have counted : ∀ segment, (groupOf g zone segment).length =
      (zone.extents.map (·.first g)).count segment := by
    intro segment
    rw [groupOf, ← List.countP_eq_length_filter, List.count, List.countP_map]
    exact List.countP_congr fun e _ => by simp
  simp only [counted]
  rw [List.sum_map_count_dedup_eq_length, List.length_map]

theorem GroupedZone.entries_ge {zone : Zone} {segments : JsonSegments}
    (grouped : GroupedZone g counters zone segments) :
    zone.extents.length ≤ segmentEntries segments := by
  let expected := (zone.extents.map (·.first g)).dedup.map fun segment =>
    (idText segment, (groupOf g zone segment).length)
  have distinct : (expected.map Prod.fst).Nodup := by
    rw [List.map_map]
    exact (List.nodup_dedup _).map fun _ _ => idText_inj
  have members : ∀ part ∈ expected, ∃ object : JsonSegment, (part.1, object) ∈ segments ∧
      part.2 ≤ object.extents.length := by
    intro part listed
    obtain ⟨segment, begun, rfl⟩ := List.mem_map.mp listed
    obtain ⟨e, inside, same⟩ := List.mem_map.mp (List.mem_dedup.mp begun)
    have some_extent : groupOf g zone segment ≠ [] :=
      List.ne_nil_of_mem (List.mem_filter.mpr ⟨inside, by simpa using same⟩)
    obtain ⟨object, stored, infos⟩ := grouped.complete segment some_extent
    refine ⟨object, stored, Nat.le_of_eq ?_⟩
    simpa using (congrArg List.length infos).symm
  have parts := KeyedObject.sum_le_of_members (fun object : JsonSegment => object.extents.length)
    distinct members
  rw [List.map_map] at parts
  rw [← sum_groups g zone]
  exact parts

theorem sum_zones (zones : List Zone) (start : Nat) :
    (((zones.zipIdx start).filter fun numbered => !numbered.1.extents.isEmpty).map fun numbered =>
      numbered.1.extents.length).sum = (zones.flatMap Zone.extents).length := by
  induction zones generalizing start with
  | nil => rfl
  | cons zone rest ih =>
    have tail := ih (start + 1)
    cases holding : zone.extents with
    | nil => simp_all [List.zipIdx_cons]
    | cons e others =>
      simp_all [List.zipIdx_cons]
      omega

theorem ExactGrouping.entries_ge {zonemap : ZoneMap} {document : JsonZonemap}
    (grouping : ExactGrouping g counters zonemap document) :
    zonemap.extents.length ≤ documentEntries document := by
  let expected := (zonemap.zones.zipIdx.filter fun numbered => !numbered.1.extents.isEmpty).map
    fun numbered => (idText numbered.2, numbered.1.extents.length)
  have distinct : (expected.map Prod.fst).Nodup := by
    have numbers : (zonemap.zones.zipIdx.map Prod.snd).Nodup := by
      rw [List.zipIdx_map_snd]
      exact List.nodup_range'
    have kept := numbers.sublist (List.filter_sublist.map Prod.snd :
      ((zonemap.zones.zipIdx.filter fun numbered => !numbered.1.extents.isEmpty).map Prod.snd).Sublist _)
    rw [List.map_map]
    simpa [Function.comp_def] using kept.map fun _ _ => idText_inj
  have members : ∀ part ∈ expected, ∃ object : JsonZone, (part.1, object) ∈ document ∧
      part.2 ≤ segmentEntries object.segments := by
    intro part listed
    obtain ⟨⟨zone, number⟩, kept, rfl⟩ := List.mem_map.mp listed
    obtain ⟨numbered, holding⟩ := List.mem_filter.mp kept
    obtain ⟨object, stored, grouped⟩ := grouping.complete number zone
      (List.mk_mem_zipIdx_iff_getElem?.mp numbered) (by simpa using holding)
    exact ⟨object, stored, grouped.entries_ge⟩
  have parts := KeyedObject.sum_le_of_members (fun object : JsonZone =>
    segmentEntries object.segments) distinct members
  rw [List.map_map] at parts
  rw [ZoneMap.extents, ← sum_zones _ 0]
  exact parts

end Grouped

def JsonState.stored (state : JsonState) : Nat :=
  documentEntries state.zonemap + segmentEntries state.zoneSegments + state.cursegExtents.length

-- At most one entry for each extent so far, and the latest one is pending.
structure Lagging (entries : Nat) (done : List Extent) (state : JsonState) : Prop where
  entries : entries ≤ done.length
  pending : done ≠ [] → state.cursegExtents ≠ []

section Run

variable {cfg : Config} {dev : Device} {ctrl : Control} {counters : FileCounterMap} {e : Extent}

theorem jsonChangeSegment_stored {segmentId : UInt64} {state changed : JsonState}
    {made : List JsonSegmentInfo}
    (result : jsonChangeSegment cfg e segmentId state = .ok (changed, made)) :
    changed.stored ≤ state.stored := by
  rcases jsonChangeSegment_ok result with ⟨-, rfl, -⟩ | ⟨-, segI, -, -, rfl⟩
  · exact Nat.le_refl _
  · have grown := KeyedObject.sum_add_le (fun object : JsonSegment => object.extents.length)
      state.zoneSegments (uint32ToStringCast segmentId.toUInt32) ⟨state.curseg, state.cursegExtents⟩
    by_cases none : state.cursegExtents.isEmpty = true
    · simp [JsonState.stored, none]
    · simp only [JsonState.stored, none, if_false, List.length_nil, Bool.false_eq_true,
        segmentEntries] at grown ⊢
      omega

theorem inOneSegment_of_le {g : Geometry} (supported : g.Supported) (addressed : e.stop < 2 ^ 56)
    (single : e.stop ≤ (e.first g + 1) * g.segmentSize) : e.inOneSegment g = true := by
  rw [Extent.inOneSegment_iff supported addressed]
  have ordered := Extent.first_le_last g e
  rcases Nat.lt_or_eq_of_le single with inside | full
  · have below : e.last g < e.first g + 1 := Nat.div_lt_of_lt_mul (by rwa [Nat.mul_comm])
    exact .inl (by omega)
  · exact .inr full

theorem Reportable.scanned_nil (ready : Reportable cfg dev ctrl counters)
    (none : ctrl.zonemap.extents = []) : ctrl.zonemap.scanned = [] := by
  refine List.map_eq_nil_iff.mpr (List.filter_eq_nil_iff.mpr fun zone inside => ?_)
  have empty : zone.extentCtr = 0 := by
    rw [← UInt32.toNat_inj, ready.counted zone inside, List.flatMap_eq_nil_iff.mp none zone inside]
    rfl
  simp [empty]

/-- The document lacks at least one entry: what is pending at the end is not filed. -/
theorem jsonDumpF2fsZonemap_loses (ready : Reportable cfg dev ctrl counters)
    (full : FullRange cfg ctrl.zonemap)
    (single : ∀ e ∈ ctrl.zonemap.extents,
      e.stop ≤ (e.first cfg.toGeometry + 1) * cfg.segmentSize)
    {inner : Nat} {final : JsonState} {passes : List JsonPass}
    (result : jsonDumpF2fsZonemap cfg dev List.length inner ctrl = some (.ok (final, passes)))
    (some_extent : ctrl.zonemap.extents ≠ []) :
    documentEntries final.zonemap < ctrl.zonemap.extents.length := by
  have last := jsonDumpF2fsZonemap_exhausts ready full
    (fun done state => Lagging (documentEntries state.zonemap + state.cursegExtents.length) done
      state)
    (fun done state => Lagging state.stored done state) (by
      intro done e rest split state changed next first made lagging change files
      have inside : e ∈ ctrl.zonemap.extents := by simp [split]
      have moved := Nat.le_trans (jsonChangeSegment_stored change) lagging.entries
      cases files with
      | whole one added =>
        obtain ⟨map, -, rfl⟩ := jsonWholeExtent_ok added
        simp only [JsonState.stored] at moved
        exact ⟨by simp only [JsonState.stored, List.length_append, List.length_singleton]; omega,
          by simp⟩
      | split several =>
        exact absurd (inOneSegment_of_le ready.supported (ready.addressed e inside)
          (single e inside)) several)
    (fun done state lagging => ⟨by simpa [JsonState.stored, jsonBeginZone, segmentEntries] using
      lagging.entries, lagging.pending⟩)
    (by
      intro done state zoneInfo lagging
      have grown := KeyedObject.sum_add_le (fun object : JsonZone =>
        segmentEntries object.segments) state.zonemap (uint32ToStringCast state.currentZone)
          ⟨zoneInfo, state.zoneSegments⟩
      have stored := lagging.entries
      simp only [JsonState.stored, documentEntries] at stored
      exact ⟨by simp only [documentEntries] at grown ⊢; omega, lagging.pending⟩)
    result ⟨Nat.le_refl 0, fun none => absurd rfl none⟩
  have pending := List.length_pos_iff.mpr (last.pending some_extent)
  have entries := last.entries
  omega

end Run

/-- Of extents that lie in single segments the document is written, and it groups them exactly if
there are none. -/
theorem json_grouping_exact_iff (cfg : Config) (dev : Device) (ctrl : Control)
    (counters : FileCounterMap) (ready : Reportable cfg dev ctrl counters)
    (full : FullRange cfg ctrl.zonemap)
    (single : ∀ e ∈ ctrl.zonemap.extents,
      e.stop ≤ (e.first cfg.toGeometry + 1) * cfg.segmentSize) :
    ∃ final passes,
      jsonDumpF2fsZonemap cfg dev List.length (2 ^ 32) ctrl = some (.ok (final, passes)) ∧
      (ExactGrouping cfg.toGeometry counters ctrl.zonemap final.zonemap ↔
        ctrl.zonemap.extents = []) := by
  obtain ⟨final, passes, result⟩ := jsonDumpF2fsZonemap_returns ready fun e inside before =>
    ⟨by rw [full.startLba]; exact UInt64.zero_le,
      .inl (Extent.last_le_of_inOneSegment ready.supported (ready.addressed e inside)
        (inOneSegment_of_le ready.supported (ready.addressed e inside) (single e inside)))⟩
  refine ⟨final, passes, result, ⟨?_, ?_⟩⟩
  · intro grouping
    by_contra some_extent
    have lost := jsonDumpF2fsZonemap_loses ready full single result some_extent
    exact absurd grouping.entries_ge (Nat.not_le.mpr lost)
  · intro none
    rw [jsonDumpF2fsZonemap, ready.scanned_nil none] at result
    obtain ⟨rfl, -⟩ := Prod.mk.inj (Except.ok.inj (Option.some.inj result))
    constructor
    · intro number zone numbered holding
      have inside := List.mem_of_getElem? numbered
      exact absurd (List.flatMap_eq_nil_iff.mp none zone inside) holding
    · intro key object inside
      exact absurd inside List.not_mem_nil

def twoSegments : Control :=
  collected warmConfig (mapFile warmConfig [97] 16
    [⟨0, 4096 * 512, 4096, 0⟩, ⟨4096, 8192 * 512, 4096, fiemapExtentLast⟩])

def twoSegmentsCounters : FileCounterMap :=
  ⟨1, [{ FileCounter.zero with file := [97], extCtr := 2 }]⟩

def filedAddresses (document : JsonZonemap) : List (List Char × List Char × UInt64) :=
  document.flatMap fun zone => zone.2.segments.flatMap fun segment =>
    segment.2.extents.map fun entry => (zone.1, segment.1, entry.info.pbas.value)

-- The extent of segment 1 is filed under segment 2, and that of segment 2 is not filed.
theorem last_group_lost :
    twoSegments.zonemap.extents.map (fun e => (e.phyBlk, e.len)) = [(4096, 8), (8192, 8)] ∧
    ∃ final passes, jsonDumpF2fsZonemap warmConfig (fullZones warmConfig) List.length 1
        twoSegments = some (.ok (final, passes)) ∧
      filedAddresses final.zonemap = [(['0'], ['2'], 4096)] ∧
      ∀ counters, ¬ ExactGrouping warmConfig.toGeometry counters twoSegments.zonemap
        final.zonemap := by
  have computed : (jsonDumpF2fsZonemap warmConfig (fullZones warmConfig) List.length 1
      twoSegments).map (·.map fun run =>
        decide (filedAddresses run.1.zonemap = [(['0'], ['2'], 4096)] ∧
          documentEntries run.1.zonemap = 1)) = some (.ok true) := by
    decide
  obtain ⟨⟨final, passes⟩, result, shown⟩ := Runs.some_map_ok computed
  obtain ⟨filed, entries⟩ := of_decide_eq_true shown
  refine ⟨by decide, final, passes, result, filed, fun counters grouping => ?_⟩
  have all := grouping.entries_ge
  rw [entries] at all
  exact absurd all (by decide)

theorem twoSegments_checked :
    (collect warmConfig (mapFile warmConfig [97] 16
      [⟨0, 4096 * 512, 4096, 0⟩, ⟨4096, 8192 * 512, 4096, fiemapExtentLast⟩])).map (fun m =>
        (m.failed, m.opened, m.accepted.length, m.ctrl.fileCounterMap)) =
          .ok (false, 1, 2, some twoSegmentsCounters) := by
  decide

theorem two_segments_not_grouped :
    ∃ final passes, jsonDumpF2fsZonemap warmConfig (fullZones warmConfig) List.length (2 ^ 32)
        twoSegments = some (.ok (final, passes)) ∧
      ¬ ExactGrouping warmConfig.toGeometry twoSegmentsCounters twoSegments.zonemap
        final.zonemap := by
  obtain ⟨final, passes, result, grouped⟩ := json_grouping_exact_iff warmConfig
    (fullZones warmConfig) twoSegments twoSegmentsCounters
    (collected_reportable warmConfig _ _ twoSegments_checked (by decide)
      (by decide) (.inl rfl) (by decide) (by decide) mapFile_full)
    ⟨rfl, rfl, by decide, by decide, by decide⟩ (by decide)
  exact ⟨final, passes, result, fun exact => absurd (grouped.mp exact) (by decide)⟩

end ZnsTools
