import ZnsTools.FileCounters
import ZnsTools.JsonRuns

set_option autoImplicit false

namespace ZnsTools

structure HoldsPart (g : Geometry) (e : Extent) (segment : Nat) (info : JsonExtentInfo) :
    Prop where
  pbas : info.pbas.value.toNat = max e.phyBlk.toNat (segment * g.segmentSize)
  pbae : info.pbae.value.toNat = min e.stop ((segment + 1) * g.segmentSize)
  size : info.size.value.toNat = info.pbae.value.toNat - info.pbas.value.toNat

/-- What the entries for an extent have to satisfy at least to tile it: for each segment that the
extent touches there is one with its part, and they are all filed under the segment of their part. -/
structure TilesDocument (g : Geometry) (e : Extent) (document : JsonZonemap) : Prop where
  complete : ∀ segment, e.first g ≤ segment → segment * g.segmentSize < e.stop →
    ∃ zone ∈ document, ∃ object ∈ zone.2.segments, object.1 = idText segment ∧
      ∃ entry ∈ object.2.extents, entry.source = e ∧ HoldsPart g e segment entry.info
  filed : ∀ zone ∈ document, ∀ object ∈ zone.2.segments, ∀ entry ∈ object.2.extents,
    entry.source = e → ∃ segment, object.1 = idText segment ∧ HoldsPart g e segment entry.info

-- An entry in an array of entries. Those for an extent that begins with its segment all reach to the
-- end of the extent; those for another one are never without one for its beginning in the array.
structure Written (g : Geometry) (e : Extent) (extents : List JsonExtent) (entry : JsonExtent) :
    Prop where
  aligned : e.phyBlk.toNat = e.first g * g.segmentSize → entry.info.pbae.value.toNat = e.stop
  together : e.phyBlk.toNat ≠ e.first g * g.segmentSize →
    ∃ other ∈ extents, other.source = e ∧ other.info.pbas.value.toNat = e.phyBlk.toNat

def AllWritten (g : Geometry) (e : Extent) (extents : List JsonExtent) : Prop :=
  ∀ entry ∈ extents, entry.source = e → Written g e extents entry

def DocumentWritten (g : Geometry) (e : Extent) (document : JsonZonemap) : Prop :=
  ∀ zone ∈ document, ∀ object ∈ zone.2.segments, AllWritten g e object.2.extents

structure StateWritten (g : Geometry) (e : Extent) (state : JsonState) : Prop where
  pending : AllWritten g e state.cursegExtents
  zone : ∀ object ∈ state.zoneSegments, AllWritten g e object.2.extents
  document : DocumentWritten g e state.zonemap

section Untiled

variable {g : Geometry} {e : Extent}

theorem DocumentWritten.not_tiled {document : JsonZonemap} (written : DocumentWritten g e document)
    (several : (e.first g + 1) * g.segmentSize < e.stop) : ¬ TilesDocument g e document := by
  intro tiles
  have start := Extent.first_mul_le g e
  have inside := Extent.lt_first_succ_mul g e
  by_cases aligned : e.phyBlk.toNat = e.first g * g.segmentSize
  · -- The part in the first segment has no entry.
    obtain ⟨zone, listed, object, stored, -, entry, member, own, part⟩ :=
      tiles.complete (e.first g) (Nat.le_refl _) (by rw [Nat.add_mul] at several; omega)
    have whole := (written zone listed object stored entry member own).aligned aligned
    have := part.pbae
    omega
  · -- Where the part in the second segment is filed, the beginning of the extent is filed, too.
    obtain ⟨zone, listed, object, stored, key, entry, member, own, part⟩ :=
      tiles.complete (e.first g + 1) (Nat.le_succ _) several
    obtain ⟨other, beside, same, begun⟩ :=
      (written zone listed object stored entry member own).together aligned
    obtain ⟨segment, filed, misfiled⟩ := tiles.filed zone listed object stored other beside same
    obtain rfl : e.first g + 1 = segment := idText_inj (key.symm.trans filed)
    have := misfiled.pbas
    omega

end Untiled

section Step

variable {cfg : Config} {counters : Option FileCounterMap} {t e : Extent}

theorem AllWritten.nil (g : Geometry) (t : Extent) : AllWritten g t [] := by
  simp [AllWritten]

theorem AllWritten.append {g : Geometry} {extents : List JsonExtent}
    (written : AllWritten g t extents) {entry : JsonExtent}
    (added : entry.source = t → Written g t (extents ++ [entry]) entry) :
    AllWritten g t (extents ++ [entry]) := by
  intro member inside own
  rcases List.mem_append.mp inside with old | new
  · have before := written member old own
    refine ⟨before.aligned, fun unaligned => ?_⟩
    obtain ⟨other, beside, begun⟩ := before.together unaligned
    exact ⟨other, List.mem_append_left _ beside, begun⟩
  · obtain rfl := List.mem_singleton.mp new
    exact added own

theorem written_whole {g : Geometry} (addressed : e.stop < 2 ^ 56) (map : FileCounterMap)
    (extents : List JsonExtent) :
    Written g e
      (extents ++ [⟨e, true, extentInfoOf map e e.phyBlk (e.phyBlk + e.len) e.len⟩])
      ⟨e, true, extentInfoOf map e e.phyBlk (e.phyBlk + e.len) e.len⟩ where
  aligned _ := Extent.stop_toNat addressed
  together _ := ⟨_, List.mem_append_right _ (List.mem_singleton_self _), rfl, rfl⟩

theorem StateWritten.change {state changed : JsonState} {segmentId : UInt64}
    {made : List JsonSegmentInfo} (written : StateWritten cfg.toGeometry t state)
    (result : jsonChangeSegment cfg e segmentId state = .ok (changed, made)) :
    StateWritten cfg.toGeometry t changed := by
  rcases jsonChangeSegment_ok result with ⟨-, rfl, -⟩ | ⟨-, segI, -, -, rfl⟩
  · exact written
  · refine ⟨AllWritten.nil _ _, fun object stored => ?_, written.document⟩
    dsimp only at stored
    split at stored
    · exact written.zone object stored
    · rcases KeyedObject.mem_add stored with rfl | old
      · exact written.pending
      · exact written.zone object old

theorem StateWritten.files {changed next : JsonState} {fuel : Nat} {made : List JsonSegmentInfo}
    (supported : cfg.toGeometry.Supported) (addressed : e.stop < 2 ^ 56)
    (written : StateWritten cfg.toGeometry t changed)
    (files : Files cfg counters fuel e changed next made) :
    StateWritten cfg.toGeometry t next := by
  cases files with
  | whole one added =>
    obtain ⟨map, -, rfl⟩ := jsonWholeExtent_ok added
    refine ⟨written.pending.append ?_, written.zone, written.document⟩
    rintro rfl
    exact written_whole addressed map _
  | @split begun filled _ several beginning middle remainder =>
    -- The beginning is pending when the remainder is added.
    have first : StateWritten cfg.toGeometry t begun ∧
        (e.phyBlk.toNat ≠ e.first cfg.toGeometry * cfg.segmentSize →
          ∃ other ∈ begun.cursegExtents, other.source = e ∧
            other.info.pbas.value.toNat = e.phyBlk.toNat) := by
      rcases jsonBeginning_ok beginning with ⟨aligned, rfl⟩ | ⟨unaligned, map, -, rfl⟩
      · exact ⟨written, fun inside => absurd ((Extent.aligned_iff supported e).mp aligned) inside⟩
      · refine ⟨⟨written.pending.append ?_, written.zone, written.document⟩, fun _ =>
          ⟨_, List.mem_append_right _ (List.mem_singleton_self _), rfl, rfl⟩⟩
        rintro rfl
        exact ⟨fun aligned => absurd ((Extent.aligned_iff supported e).mpr aligned) unaligned,
          fun _ => ⟨_, List.mem_append_right _ (List.mem_singleton_self _), rfl, rfl⟩⟩
    obtain ⟨held, beginning⟩ := first
    have second : StateWritten cfg.toGeometry t filled ∧
        filled.cursegExtents = begun.cursegExtents := by
      rcases jsonMiddle_ok supported addressed middle with ⟨-, rfl, -⟩ |
        ⟨-, segI, map, -, -, -, -, rfl⟩
      · exact ⟨held, rfl⟩
      · refine ⟨⟨held.pending, fun object stored => ?_, held.document⟩, rfl⟩
        rcases KeyedObject.mem_add stored with rfl | old
        · refine (AllWritten.nil _ _).append ?_
          rintro rfl
          exact written_whole addressed map []
        · exact held.zone object old
    obtain ⟨kept, same⟩ := second
    rcases jsonRemainder_ok remainder with ⟨-, rfl⟩ | ⟨-, map, -, rfl⟩
    · exact kept
    · refine ⟨kept.pending.append ?_, kept.zone, kept.document⟩
      rintro rfl
      refine ⟨fun _ => ?_, fun unaligned => ?_⟩
      · have start := Extent.endLba_toNat supported addressed
        have below := Extent.last_mul_le cfg.toGeometry e
        change (_ + (_ - _) : UInt64).toNat = _
        rw [UInt64.toNat_add, UInt64.toNat_sub_of_le _ _ (by
          rw [UInt64.le_iff_toNat_le, start, Extent.stop_toNat addressed]; exact below),
          Extent.stop_toNat addressed, start, Nat.add_sub_cancel' below, Nat.mod_eq_of_lt (by omega)]
      · obtain ⟨other, beside, begun⟩ := beginning unaligned
        exact ⟨other, List.mem_append_left _ (same ▸ beside), begun⟩

end Step

/-- The document never tiles an extent that lies in several segments. -/
theorem json_never_tiles (cfg : Config) (dev : Device) (ctrl : Control)
    (counters : FileCounterMap) (ready : Reportable cfg dev ctrl counters)
    (full : FullRange cfg ctrl.zonemap) (inner : Nat) (final : JsonState) (passes : List JsonPass)
    (result : jsonDumpF2fsZonemap cfg dev List.length inner ctrl = some (.ok (final, passes)))
    (e : Extent) (several : (e.first cfg.toGeometry + 1) * cfg.segmentSize < e.stop) :
    ¬ TilesDocument cfg.toGeometry e final.zonemap := by
  have written := jsonDumpF2fsZonemap_exhausts ready full
    (fun _ state => AllWritten cfg.toGeometry e state.cursegExtents ∧
      DocumentWritten cfg.toGeometry e state.zonemap)
    (fun _ state => StateWritten cfg.toGeometry e state) (by
      intro done other rest split state changed next first made written change files
      have inside : other ∈ ctrl.zonemap.extents := by simp [split]
      have zoned : StateWritten cfg.toGeometry e { state with currentZone := other.zone } :=
        ⟨written.pending, written.zone, written.document⟩
      exact (zoned.change change).files ready.supported (ready.addressed other inside) files)
    (fun _ state written => ⟨written.1, fun _ none => absurd none List.not_mem_nil, written.2⟩)
    (by
      intro _ state zoneInfo written
      refine ⟨written.pending, fun zone listed => ?_⟩
      rcases KeyedObject.mem_add listed with rfl | old
      · exact written.zone
      · exact written.document zone old)
    result ⟨AllWritten.nil _ _, fun _ none => absurd none List.not_mem_nil⟩
  exact written.2.not_tiled several

def segmentKeys (document : JsonZonemap) : List (List Char) :=
  document.flatMap fun zone => zone.2.segments.map Prod.fst

-- From inside segment 1 to inside segment 3: only segment 2 has an object.
theorem first_part_not_filed :
    (oneFile 4104 8192).zonemap.extents.map (fun e => (e.phyBlk, e.len)) = [(4104, 8192)] ∧
    ∃ final passes, jsonDumpF2fsZonemap warmConfig (fullZones warmConfig) List.length 1
        (oneFile 4104 8192) = some (.ok (final, passes)) ∧
      segmentKeys final.zonemap = [['2']] ∧
      ∀ e ∈ (oneFile 4104 8192).zonemap.extents,
        ¬ TilesDocument warmConfig.toGeometry e final.zonemap := by
  have computed : (jsonDumpF2fsZonemap warmConfig (fullZones warmConfig) List.length 1
      (oneFile 4104 8192)).map (·.map fun run => segmentKeys run.1.zonemap) =
      some (.ok [['2']]) := by
    decide
  obtain ⟨⟨final, passes⟩, result, keys⟩ := Runs.some_map_ok computed
  refine ⟨by decide, final, passes, result, keys, fun e inside tiles => ?_⟩
  have begins : ∀ e ∈ (oneFile 4104 8192).zonemap.extents,
      e.first warmConfig.toGeometry ≤ 1 ∧ 1 * warmConfig.segmentSize < e.stop := by decide
  obtain ⟨zone, listed, object, stored, key, -⟩ :=
    tiles.complete 1 (begins e inside).1 (begins e inside).2
  have member : object.1 ∈ segmentKeys final.zonemap :=
    List.mem_flatMap.mpr ⟨zone, listed, List.mem_map_of_mem stored⟩
  rw [keys, key] at member
  exact absurd member (by decide)

theorem one_file_not_tiled :
    ∃ final passes, jsonDumpF2fsZonemap warmConfig (fullZones warmConfig) List.length 1
        (oneFile 4104 8192) = some (.ok (final, passes)) ∧
      ∀ e ∈ (oneFile 4104 8192).zonemap.extents,
        ¬ TilesDocument warmConfig.toGeometry e final.zonemap := by
  have computed : (jsonDumpF2fsZonemap warmConfig (fullZones warmConfig) List.length 1
      (oneFile 4104 8192)).map (·.map fun _ => ()) = some (.ok ()) := by
    decide
  obtain ⟨⟨final, passes⟩, result, -⟩ := Runs.some_map_ok computed
  have several : ∀ e ∈ (oneFile 4104 8192).zonemap.extents,
      (e.first warmConfig.toGeometry + 1) * warmConfig.segmentSize < e.stop := by decide
  exact ⟨final, passes, result, fun e inside => json_never_tiles warmConfig (fullZones warmConfig)
    (oneFile 4104 8192) oneFileCounters (oneFile_reportable 4104 8192 (by decide))
    (oneFile_fullRange 4104 8192 (by decide)) 1 final passes result e (several e inside)⟩

end ZnsTools
