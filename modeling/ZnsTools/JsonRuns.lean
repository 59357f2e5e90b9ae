import ZnsTools.JsonDump
import ZnsTools.ReportRuns

set_option autoImplicit false

namespace ZnsTools

def idText (id : Nat) : List Char :=
  Nat.toDigits 10 id

theorem idText_inj {a b : Nat} (same : idText a = idText b) : a = b := by
  have value := congrArg (Nat.ofDigitChars 10 · 0) same
  simpa [idText] using value

section Parts

variable {cfg : Config} {counters : Option FileCounterMap} {e : Extent} {state next : JsonState}

theorem jsonGetSegmentInfo_ok {segment : UInt64} {info : JsonSegmentInfo}
    (result : jsonGetSegmentInfo cfg e segment = .ok info) :
    ∃ segI, e.fsInfo = some segI ∧ info = segmentInfoOf cfg segI segment := by
  obtain ⟨segI, found, result⟩ := Runs.bind_ok result
  cases result
  exact ⟨segI, deref_ok found, rfl⟩

theorem jsonExtentInfo_ok {pbas pbae size : UInt64} {info : JsonExtentInfo}
    (result : jsonExtentInfo counters e pbas pbae size = .ok info) :
    ∃ map, counters = some map ∧ info = extentInfoOf map e pbas pbae size := by
  obtain ⟨map, found, result⟩ := Runs.bind_ok result
  cases result
  exact ⟨map, deref_ok found, rfl⟩

theorem jsonChangeSegment_ok {segmentId : UInt64} {made : List JsonSegmentInfo}
    (result : jsonChangeSegment cfg e segmentId state = .ok (next, made)) :
    state.cursegId.toUInt64 = segmentId ∧ next = state ∧ made = [] ∨
      state.cursegId.toUInt64 ≠ segmentId ∧ ∃ segI, e.fsInfo = some segI ∧
        made = [segmentInfoOf cfg segI segmentId] ∧
        next = { state with
          curseg := some (segmentInfoOf cfg segI segmentId)
          cursegExtents := []
          cursegId := segmentId.toUInt32
          zoneSegments := if state.cursegExtents.isEmpty then state.zoneSegments
            else KeyedObject.add state.zoneSegments (uint32ToStringCast segmentId.toUInt32)
              ⟨state.curseg, state.cursegExtents⟩ } := by
  rw [jsonChangeSegment] at result
  split at result
  · next same =>
    cases result
    exact .inl ⟨same, rfl, rfl⟩
  · next other =>
    obtain ⟨info, made, result⟩ := Runs.bind_ok result
    obtain ⟨segI, found, rfl⟩ := jsonGetSegmentInfo_ok made
    cases result
    exact .inr ⟨other, segI, found, rfl, rfl⟩

theorem jsonWholeExtent_ok (result : jsonWholeExtent cfg counters e state = .ok next) :
    ∃ map, counters = some map ∧ next = { state with
      cursegExtents := state.cursegExtents ++
        [⟨e, true, extentInfoOf map e e.phyBlk (e.phyBlk + e.len) e.len⟩]
      curSegment := cfg.segmentId e.phyBlk } := by
  obtain ⟨info, made, result⟩ := Runs.bind_ok result
  obtain ⟨map, tracked, rfl⟩ := jsonExtentInfo_ok made
  cases result
  exact ⟨map, tracked, rfl⟩

theorem jsonBeginning_ok (result : jsonBeginning cfg counters e state = .ok next) :
    e.phyBlk = cfg.segmentStart e.phyBlk ∧ next = state ∨
      e.phyBlk ≠ cfg.segmentStart e.phyBlk ∧ ∃ map, counters = some map ∧ next = { state with
        cursegExtents := state.cursegExtents ++ [⟨e, true, extentInfoOf map e e.phyBlk
          (cfg.segmentStart e.phyBlk + cfg.f2fsSegmentSectors)
          (cfg.segmentStart e.phyBlk + cfg.f2fsSegmentSectors - e.phyBlk)⟩] } := by
  rw [jsonBeginning] at result
  split at result
  · next aligned =>
    cases result
    exact .inl ⟨aligned, rfl⟩
  · next inside =>
    obtain ⟨info, made, result⟩ := Runs.bind_ok result
    obtain ⟨map, tracked, rfl⟩ := jsonExtentInfo_ok made
    cases result
    exact .inr ⟨inside, map, tracked, rfl⟩

theorem jsonRemainder_ok (result : jsonRemainder cfg counters e state = .ok next) :
    cfg.segmentStart (e.phyBlk + e.len) = e.phyBlk + e.len ∧ next = state ∨
      cfg.segmentStart (e.phyBlk + e.len) ≠ e.phyBlk + e.len ∧ ∃ map, counters = some map ∧
        next = { state with
          cursegExtents := state.cursegExtents ++ [⟨e, false, extentInfoOf map e
            (cfg.segmentLba (e.endSegment cfg.toGeometry))
            (cfg.segmentLba (e.endSegment cfg.toGeometry) +
              (e.phyBlk + e.len - cfg.segmentLba (e.endSegment cfg.toGeometry)))
            (e.phyBlk + e.len - cfg.segmentLba (e.endSegment cfg.toGeometry))⟩] } := by
  rw [jsonRemainder] at result
  split at result
  · next filled =>
    cases result
    exact .inl ⟨filled, rfl⟩
  · next rest =>
    obtain ⟨extents, added, result⟩ := Runs.bind_ok result
    obtain ⟨info, made, added⟩ := Runs.bind_ok added
    obtain ⟨map, tracked, rfl⟩ := jsonExtentInfo_ok made
    cases added
    cases result
    exact .inr ⟨rest, map, tracked, rfl⟩

def withSegment (cfg : Config) (segI : SegmentInfo) (map : FileCounterMap) (e : Extent)
    (segment : UInt64) (root : JsonSegments) : JsonSegments :=
  KeyedObject.add root (uint32ToStringCast segment.toUInt32)
    ⟨some (segmentInfoOf cfg segI segment),
      [⟨e, true, extentInfoOf map e e.phyBlk (e.phyBlk + e.len) e.len⟩]⟩

theorem jsonAddSingleSegmentExtentInfo_ok {segmentStart : UInt64} {root grown : JsonSegments}
    {info : JsonSegmentInfo}
    (result : jsonAddSingleSegmentExtentInfo cfg counters e segmentStart root =
      .ok (grown, info)) :
    ∃ segI map, e.fsInfo = some segI ∧ counters = some map ∧
      info = segmentInfoOf cfg segI segmentStart ∧
      grown = withSegment cfg segI map e segmentStart root := by
  obtain ⟨segInfo, made, result⟩ := Runs.bind_ok result
  obtain ⟨whole, shown, result⟩ := Runs.bind_ok result
  obtain ⟨segI, found, rfl⟩ := jsonGetSegmentInfo_ok made
  obtain ⟨map, tracked, rfl⟩ := jsonExtentInfo_ok shown
  cases result
  exact ⟨segI, map, found, tracked, rfl, rfl⟩

theorem jsonSegmentLoop_ok {segmentStart limit : UInt64} {fuel : Nat} {cur : UInt32}
    {root grown : JsonSegments} {made all : List JsonSegmentInfo}
    (result : jsonSegmentLoop cfg counters e segmentStart limit fuel cur root made =
      .ok (grown, all)) :
    ¬ cur.toUInt64 < limit ∧ grown = root ∧ all = made ∨
      cur.toUInt64 < limit ∧ ∃ segI map n, e.fsInfo = some segI ∧ counters = some map ∧
        all = made ++ List.replicate (n + 1) (segmentInfoOf cfg segI segmentStart) ∧
        grown = withSegment cfg segI map e segmentStart root := by
  induction fuel generalizing cur root made with
  | zero => cases result
  | succ fuel ih =>
    rw [jsonSegmentLoop] at result
    split at result
    · next before =>
      obtain ⟨⟨one, info⟩, added, result⟩ := Runs.bind_ok result
      obtain ⟨segI, map, found, tracked, rfl, rfl⟩ :=
        jsonAddSingleSegmentExtentInfo_ok (Runs.mapError_ok added)
      refine .inr ⟨before, segI, map, ?_⟩
      rcases ih result with ⟨-, rfl, rfl⟩ | ⟨-, other, counted, n, same, alike, rfl, rfl⟩
      · exact ⟨0, found, tracked, rfl, rfl⟩
      · obtain rfl : segI = other := Option.some.inj (found.symm.trans same)
        obtain rfl : map = counted := Option.some.inj (tracked.symm.trans alike)
        refine ⟨n + 1, found, tracked, ?_, ?_⟩
        · rw [List.append_assoc, List.singleton_append, ← List.replicate_succ]
        · simp only [withSegment, KeyedObject.add_add]
    · next past =>
      cases result
      exact .inl ⟨past, rfl, rfl⟩

theorem jsonMiddle_eq {fuel : Nat} (supported : cfg.toGeometry.Supported)
    (addressed : e.stop < 2 ^ 56) :
    jsonMiddle cfg counters fuel e state =
      if e.last cfg.toGeometry ≤ e.first cfg.toGeometry + 1 then .ok (state, [])
      else if e.last cfg.toGeometry = (e.middleSegment cfg.toGeometry).toNat + 1 then
        ((jsonAddSingleSegmentExtentInfo cfg counters e (e.middleSegment cfg.toGeometry)
          state.zoneSegments).mapError Halt.abort).map fun added =>
            ({ state with zoneSegments := added.1 }, [added.2])
      else
        (jsonSegmentLoop cfg counters e (e.middleSegment cfg.toGeometry)
          (e.endSegment cfg.toGeometry - 1) fuel (e.middleSegment cfg.toGeometry).toUInt32
          state.zoneSegments []).map fun added =>
            ({ state with zoneSegments := added.1 }, added.2) := by
  have several := Extent.one_lt_span_iff supported addressed
  have finish := Extent.endSegment_toNat supported addressed
  have low := Extent.middleSegment_le supported addressed
  by_cases near : e.last cfg.toGeometry ≤ e.first cfg.toGeometry + 1
  · rw [jsonMiddle, if_neg (fun far => several.mp far near), if_pos near]
    rfl
  · have one : e.endSegment cfg.toGeometry - e.middleSegment cfg.toGeometry = 1 ↔
        e.last cfg.toGeometry = (e.middleSegment cfg.toGeometry).toNat + 1 := by
      rw [← UInt64.toNat_inj, UInt64.toNat_sub_of_le _ _ (by
        rw [UInt64.le_iff_toNat_le, finish]; omega), finish, UInt64.toNat_one]
      omega
    rw [jsonMiddle, if_pos (several.mpr near), if_neg near]
    change (jsonAddConsecutiveSegmentsExtentInfo cfg counters fuel e
      (e.middleSegment cfg.toGeometry) state.zoneSegments).bind _ = _
    rw [jsonAddConsecutiveSegmentsExtentInfo]
    by_cases single : e.last cfg.toGeometry = (e.middleSegment cfg.toGeometry).toNat + 1
    · rw [if_pos (one.mpr single), if_pos single]
      cases jsonAddSingleSegmentExtentInfo cfg counters e (e.middleSegment cfg.toGeometry)
        state.zoneSegments <;> rfl
    · rw [if_neg (fun h => single (one.mp h)), if_neg single]
      cases jsonSegmentLoop cfg counters e (e.middleSegment cfg.toGeometry)
        (e.endSegment cfg.toGeometry - 1) fuel (e.middleSegment cfg.toGeometry).toUInt32
        state.zoneSegments [] <;> rfl

theorem middleSegment_lt (supported : cfg.toGeometry.Supported) (addressed : e.stop < 2 ^ 56)
    (far : ¬ e.last cfg.toGeometry ≤ e.first cfg.toGeometry + 1)
    (several : e.last cfg.toGeometry ≠ (e.middleSegment cfg.toGeometry).toNat + 1) :
    (e.middleSegment cfg.toGeometry).toUInt32.toUInt64 < e.endSegment cfg.toGeometry - 1 := by
  have finish := Extent.endSegment_toNat supported addressed
  have low := Extent.middleSegment_le supported addressed
  have cut := Nat.mod_le (e.middleSegment cfg.toGeometry).toNat (2 ^ 32)
  rw [UInt64.lt_iff_toNat_lt, UInt64.toNat_sub_of_le _ _ (by
    rw [UInt64.le_iff_toNat_le, finish, UInt64.toNat_one]; omega), finish, UInt64.toNat_one,
    UInt32.toNat_toUInt64, UInt64.toNat_toUInt32]
  omega

theorem jsonMiddle_ok {fuel : Nat} {made : List JsonSegmentInfo}
    (supported : cfg.toGeometry.Supported) (addressed : e.stop < 2 ^ 56)
    (result : jsonMiddle cfg counters fuel e state = .ok (next, made)) :
    e.last cfg.toGeometry ≤ e.first cfg.toGeometry + 1 ∧ next = state ∧ made = [] ∨
      e.first cfg.toGeometry + 2 ≤ e.last cfg.toGeometry ∧ ∃ segI map n,
        e.fsInfo = some segI ∧ counters = some map ∧
        made = List.replicate (n + 1) (segmentInfoOf cfg segI (e.middleSegment cfg.toGeometry)) ∧
        next = { state with
          zoneSegments := withSegment cfg segI map e (e.middleSegment cfg.toGeometry)
            state.zoneSegments } := by
  rw [jsonMiddle_eq supported addressed] at result
  split at result
  · next near =>
    cases result
    exact .inl ⟨near, rfl, rfl⟩
  · next far =>
    refine .inr ⟨by omega, ?_⟩
    split at result
    · obtain ⟨⟨grown, info⟩, single, same⟩ := Runs.map_ok result
      obtain ⟨segI, map, found, tracked, rfl, rfl⟩ :=
        jsonAddSingleSegmentExtentInfo_ok (Runs.mapError_ok single)
      cases same
      exact ⟨segI, map, 0, found, tracked, rfl, rfl⟩
    · next several =>
      obtain ⟨⟨grown, all⟩, looped, same⟩ := Runs.map_ok result
      cases same
      rcases jsonSegmentLoop_ok looped with ⟨past, -⟩ | ⟨-, segI, map, n, found, tracked, rfl, rfl⟩
      · exact absurd (middleSegment_lt supported addressed far several) past
      · exact ⟨segI, map, n, found, tracked, rfl, rfl⟩

inductive Files (cfg : Config) (counters : Option FileCounterMap) (fuel : Nat) (e : Extent)
    (changed next : JsonState) : List JsonSegmentInfo → Prop
  | whole (one : e.inOneSegment cfg.toGeometry = true)
      (added : jsonWholeExtent cfg counters e changed = .ok next) :
      Files cfg counters fuel e changed next []
  | split {begun filled : JsonState} {made : List JsonSegmentInfo}
      (several : ¬ e.inOneSegment cfg.toGeometry = true)
      (beginning : jsonBeginning cfg counters e changed = .ok begun)
      (middle : jsonMiddle cfg counters fuel e begun = .ok (filled, made))
      (remainder : jsonRemainder cfg counters e filled = .ok next) :
      Files cfg counters fuel e changed next made

theorem jsonExtentTurn_ok {fuel : Nat} {flow : CursorLoop.Flow JsonState (List JsonSegmentInfo)}
    (result : jsonExtentTurn cfg counters fuel e state = .ok flow) :
    cfg.endLba ≤ cfg.segmentLba (cfg.segmentId e.phyBlk) ∧ flow = .leave state ∨
      cfg.segmentLba (cfg.segmentId e.phyBlk) < cfg.startLba ∧ flow = .again state ∨
      ∃ changed next first made,
        jsonChangeSegment cfg e (cfg.segmentId e.phyBlk) { state with currentZone := e.zone } =
          .ok (changed, first) ∧
        Files cfg counters fuel e changed next made ∧ flow = .advance next (first ++ made) := by
  rw [jsonExtentTurn] at result
  dsimp only at result
  split at result
  · next past =>
    cases result
    exact .inl ⟨past, rfl⟩
  · split at result
    · next below =>
      cases result
      exact .inr (.inl ⟨below, rfl⟩)
    · obtain ⟨⟨changed, first⟩, moved, result⟩ := Runs.bind_ok result
      refine .inr (.inr ⟨changed, ?_⟩)
      have change := Runs.mapError_ok moved
      dsimp only at result
      split at result
      · next one =>
        obtain ⟨next, added, result⟩ := Runs.bind_ok result
        cases result
        exact ⟨next, first, [], change, .whole one (Runs.mapError_ok added), by simp⟩
      · next several =>
        obtain ⟨begun, beginning, result⟩ := Runs.bind_ok result
        obtain ⟨⟨filled, made⟩, middle, result⟩ := Runs.bind_ok result
        obtain ⟨next, remainder, result⟩ := Runs.bind_ok result
        cases result
        exact ⟨next, first, made, change, .split several (Runs.mapError_ok beginning) middle
          (Runs.mapError_ok remainder), rfl⟩

theorem jsonExtentTurn_before {fuel : Nat} {made : List JsonSegmentInfo}
    (turn : jsonExtentTurn cfg counters fuel e state = .ok (.advance next made)) :
    cfg.segmentLba (cfg.segmentId e.phyBlk) < cfg.endLba := by
  by_contra behind
  rw [jsonExtentTurn, if_pos (UInt64.not_lt.mp behind)] at turn
  cases turn

theorem jsonExtentTurn_after {fuel : Nat} {made : List JsonSegmentInfo}
    (turn : jsonExtentTurn cfg counters fuel e state = .ok (.advance next made)) :
    cfg.startLba ≤ cfg.segmentLba (cfg.segmentId e.phyBlk) := by
  by_contra below
  rw [jsonExtentTurn] at turn
  dsimp only at turn
  split at turn
  · cases turn
  · rw [if_pos (UInt64.not_le.mp below)] at turn
    cases turn

end Parts

-- The loop over the segments of an extent counts sectors, from a segment's number, in 32 bits: it
-- has to reach the last segment before it wraps around.
def FillLoopEnds (cfg : Config) (e : Extent) : Prop :=
  e.last cfg.toGeometry ≤ e.first cfg.toGeometry + 1 ∨
    e.last cfg.toGeometry = (e.middleSegment cfg.toGeometry).toNat + 1 ∨
    e.last cfg.toGeometry - 1 + cfg.segmentSize ≤
      2 ^ 32 + (e.middleSegment cfg.toGeometry).toNat % cfg.segmentSize

instance (cfg : Config) (e : Extent) : Decidable (FillLoopEnds cfg e) :=
  inferInstanceAs (Decidable (_ ∨ _ ∨ _))

section Outcomes

variable {cfg : Config} {counters : Option FileCounterMap} {map : FileCounterMap}
  {segI : SegmentInfo} {e : Extent}

theorem cursor_next (supported : cfg.toGeometry.Supported) (cur : UInt32) :
    (cur.toUInt64 + cfg.f2fsSegmentSectors).toUInt32.toNat =
      (cur.toNat + cfg.segmentSize) % 2 ^ 32 := by
  have small := cur.toNat_lt
  rw [UInt64.toNat_toUInt32, UInt64.toNat_add, UInt32.toNat_toUInt64, supported.sectors]
  rcases supported.size with size | size <;> rw [size] <;> omega

-- The cursor keeps its remainder, so the largest number it reaches is that many sectors into the
-- last segment's worth below 2^32.
theorem jsonSegmentLoop_outcome (supported : cfg.toGeometry.Supported)
    (found : e.fsInfo = some segI) (tracked : counters = some map) (segmentStart limit : UInt64)
    (fuel : Nat) (cur : UInt32) (root : JsonSegments) (made : List JsonSegmentInfo) :
    (limit.toNat + cfg.segmentSize ≤ 2 ^ 32 + cur.toNat % cfg.segmentSize ∧
      ∃ grown, jsonSegmentLoop cfg counters e segmentStart limit fuel cur root made = .ok grown) ∨
    (limit.toNat + cfg.segmentSize ≤ 2 ^ 32 + cur.toNat % cfg.segmentSize →
        cur.toNat + fuel * cfg.segmentSize < 2 ^ 32) ∧
      jsonSegmentLoop cfg counters e segmentStart limit fuel cur root made = .error .running := by
  subst tracked
  induction fuel generalizing cur root made with
  | zero =>
    refine .inr ⟨fun _ => ?_, rfl⟩
    have := cur.toNat_lt
    omega
  | succ fuel ih =>
    have next := cursor_next supported cur
    have small := cur.toNat_lt
    by_cases before : cur.toUInt64 < limit
    · have below : cur.toNat < limit.toNat := by
        rw [UInt64.lt_iff_toNat_lt, UInt32.toNat_toUInt64] at before
        exact before
      rw [jsonSegmentLoop, if_pos before, jsonAddSingleSegmentExtentInfo, jsonGetSegmentInfo,
        jsonGetExtentInfo, jsonExtentInfo, found]
      have again := ih (cur.toUInt64 + cfg.f2fsSegmentSectors).toUInt32
        (withSegment cfg segI map e segmentStart root)
        (made ++ [segmentInfoOf cfg segI segmentStart])
      have same : (cur.toUInt64 + cfg.f2fsSegmentSectors).toUInt32.toNat % cfg.segmentSize =
          cur.toNat % cfg.segmentSize := by
        rw [next]
        rcases supported.size with size | size <;> rw [size] <;> omega
      rw [same] at again
      rw [Nat.succ_mul]
      rcases again with ended | ⟨short, running⟩
      · exact .inl ended
      · refine .inr ⟨fun bound => ?_, running⟩
        have := short bound
        rw [next] at this
        rcases supported.size with size | size <;> rw [size] at this bound ⊢ <;> omega
    · refine .inl ⟨?_, _, by rw [jsonSegmentLoop, if_neg before]⟩
      rw [UInt64.lt_iff_toNat_lt, UInt32.toNat_toUInt64] at before
      rcases supported.size with size | size <;> rw [size] <;> omega

theorem jsonMiddle_outcome (state : JsonState) (supported : cfg.toGeometry.Supported)
    (addressed : e.stop < 2 ^ 56)
    (found : e.fsInfo = some segI) (tracked : counters = some map) (fuel : Nat) :
    (FillLoopEnds cfg e ∧ ∃ reached, jsonMiddle cfg counters fuel e state = .ok reached) ∨
    (FillLoopEnds cfg e → fuel < 2 ^ 32) ∧
      jsonMiddle cfg counters fuel e state = .error .running := by
  rw [jsonMiddle_eq supported addressed]
  by_cases near : e.last cfg.toGeometry ≤ e.first cfg.toGeometry + 1
  · exact .inl ⟨.inl near, _, by rw [if_pos near]⟩
  by_cases single : e.last cfg.toGeometry = (e.middleSegment cfg.toGeometry).toNat + 1
  · refine .inl ⟨.inr (.inl single), ?_⟩
    rw [if_neg near, if_pos single, jsonAddSingleSegmentExtentInfo, jsonGetSegmentInfo,
      jsonGetExtentInfo, jsonExtentInfo, found, tracked]
    exact ⟨_, rfl⟩
  · rw [if_neg near, if_neg single]
    have limit : (e.endSegment cfg.toGeometry - 1).toNat = e.last cfg.toGeometry - 1 := by
      have finish := Extent.endSegment_toNat supported addressed
      rw [UInt64.toNat_sub_of_le _ _ (by
        rw [UInt64.le_iff_toNat_le, finish, UInt64.toNat_one]; omega), finish, UInt64.toNat_one]
    have rest : (e.middleSegment cfg.toGeometry).toUInt32.toNat % cfg.segmentSize =
        (e.middleSegment cfg.toGeometry).toNat % cfg.segmentSize := by
      rw [UInt64.toNat_toUInt32]
      rcases supported.size with size | size <;> rw [size] <;> omega
    rcases jsonSegmentLoop_outcome supported found tracked (e.middleSegment cfg.toGeometry)
      (e.endSegment cfg.toGeometry - 1) fuel (e.middleSegment cfg.toGeometry).toUInt32
      state.zoneSegments [] with ⟨reach, grown, looped⟩ | ⟨short, running⟩
    · rw [limit, rest] at reach
      exact .inl ⟨.inr (.inr reach), _, by rw [looped]; rfl⟩
    · refine .inr ⟨fun ends => ?_, by rw [running]; rfl⟩
      rw [limit, rest] at short
      rcases ends with close | next | reach
      · exact absurd close near
      · exact absurd next single
      · have := short reach
        have := Nat.le_mul_of_pos_right fuel (show 0 < cfg.segmentSize from Nat.two_pow_pos _)
        omega

theorem jsonExtentTurn_outcome (state : JsonState) (supported : cfg.toGeometry.Supported)
    (addressed : e.stop < 2 ^ 56)
    (found : e.fsInfo = some segI) (tracked : counters = some map) (fuel : Nat) :
    (∃ flow, jsonExtentTurn cfg counters fuel e state = .ok flow) ∨
    (FillLoopEnds cfg e → fuel < 2 ^ 32) ∧
      jsonExtentTurn cfg counters fuel e state = .error .running := by
  rw [jsonExtentTurn]
  by_cases past : cfg.endLba ≤ cfg.segmentLba (cfg.segmentId e.phyBlk)
  · exact .inl ⟨_, by rw [if_pos past]; rfl⟩
  by_cases below : cfg.segmentLba (cfg.segmentId e.phyBlk) < cfg.startLba
  · exact .inl ⟨_, by rw [if_neg past, if_pos below]; rfl⟩
  have change : ∃ changed first, jsonChangeSegment cfg e (cfg.segmentId e.phyBlk)
      { state with currentZone := e.zone } = .ok (changed, first) := by
    rw [jsonChangeSegment, jsonGetSegmentInfo, found]
    split <;> exact ⟨_, _, rfl⟩
  obtain ⟨changed, first, change⟩ := change
  simp only [if_neg past, if_neg below, change, Except.mapError, Runs.ok_bind]
  by_cases one : e.inOneSegment cfg.toGeometry = true
  · rw [if_pos one, jsonWholeExtent, jsonGetExtentInfo, jsonExtentInfo, tracked]
    exact .inl ⟨_, rfl⟩
  · have beginning : ∃ begun, jsonBeginning cfg counters e changed = .ok begun := by
      rw [jsonBeginning, jsonGetBeginningSegmentExtentInfo, jsonExtentInfo, tracked]
      split <;> exact ⟨_, rfl⟩
    obtain ⟨begun, beginning⟩ := beginning
    simp only [if_neg one, beginning, Runs.ok_bind]
    rcases jsonMiddle_outcome begun supported addressed found tracked fuel with
      ⟨-, ⟨filled, made⟩, middle⟩ | ⟨short, running⟩
    · have remainder : ∃ next, jsonRemainder cfg counters e filled = .ok next := by
        rw [jsonRemainder, jsonAddRemainderSegmentExtentInfo, jsonExtentInfo, tracked]
        split <;> exact ⟨_, rfl⟩
      obtain ⟨next, remainder⟩ := remainder
      simp only [middle, remainder, Runs.ok_bind]
      exact .inl ⟨_, rfl⟩
    · exact .inr ⟨short, by rw [running]; rfl⟩

theorem jsonExtentTurn_fill {fuel : Nat} {state next : JsonState} {made : List JsonSegmentInfo}
    (supported : cfg.toGeometry.Supported) (addressed : e.stop < 2 ^ 56)
    (found : e.fsInfo = some segI) (tracked : counters = some map)
    (turn : jsonExtentTurn cfg counters fuel e state = .ok (.advance next made)) :
    FillLoopEnds cfg e := by
  rcases jsonExtentTurn_ok turn with ⟨-, flow⟩ | ⟨-, flow⟩ | ⟨changed, next, first, made, -, files, -⟩
  · cases flow
  · cases flow
  cases files with
  | whole one => exact .inl (Extent.last_le_of_inOneSegment supported addressed one)
  | @split begun _ _ several beginning middle remainder =>
    rcases jsonMiddle_outcome begun supported addressed found tracked fuel with
      ⟨ends, -⟩ | ⟨-, running⟩
    · exact ends
    · rw [running] at middle
      cases middle

end Outcomes

section Run

variable {cfg : Config} {dev : Device} {ctrl : Control} {counters : FileCounterMap}

theorem jsonEndZone_exists (cfg : Config) (reports : ∀ sector, dev sector ≠ .ioctlFailed)
    (state : JsonState) : ∃ next, jsonEndZone cfg dev state = .ok next := by
  rw [jsonEndZone, jsonGetZoneInfo]
  split
  · exact ⟨_, rfl⟩
  · next failed => exact absurd failed (reports _)
  · exact ⟨_, rfl⟩

theorem jsonDumpF2fsZonemap_returns (ready : Reportable cfg dev ctrl counters)
    (moves : ∀ e ∈ ctrl.zonemap.extents,
      cfg.segmentLba (cfg.segmentId e.phyBlk) < cfg.endLba →
        cfg.startLba ≤ cfg.segmentLba (cfg.segmentId e.phyBlk) ∧ FillLoopEnds cfg e) :
    ∃ final passes, jsonDumpF2fsZonemap cfg dev List.length (2 ^ 32) ctrl =
      some (.ok (final, passes)) := by
  have ended : ∃ final passes, jsonDumpF2fsZonemap cfg dev List.length (2 ^ 32) ctrl =
      some (.ok (final, passes)) ∧ True := by
    refine CursorLoop.scans_returns (fun _ => True) _ ?_ (fun _ _ => trivial) ?_
      (fun _ => Nat.le_refl _) trivial
    · intro extents listed e inside state _
      have member := mem_scanned listed inside
      obtain ⟨segI, found⟩ := Option.ne_none_iff_exists'.mp (ready.informed e member)
      by_cases past : cfg.endLba ≤ cfg.segmentLba (cfg.segmentId e.phyBlk)
      · exact .inr ⟨state, by rw [jsonExtentTurn, if_pos past]; rfl, trivial⟩
      · obtain ⟨after, ends⟩ := moves e member (UInt64.not_le.mp past)
        rcases jsonExtentTurn_outcome state ready.supported (ready.addressed e member) found
          ready.tracked (2 ^ 32) with ⟨flow, turn⟩ | ⟨short, -⟩
        · rcases jsonExtentTurn_ok turn with ⟨behind, -⟩ | ⟨below, -⟩ |
            ⟨-, next, first, made, -, -, rfl⟩
          · exact absurd behind past
          · exact absurd after (UInt64.not_le.mpr below)
          · exact .inl ⟨next, _, turn, trivial⟩
        · exact absurd (short ends) (Nat.lt_irrefl _)
    · intro state _
      obtain ⟨next, done⟩ := jsonEndZone_exists cfg ready.reports state
      exact ⟨next, done, trivial⟩
  obtain ⟨final, passes, result, -⟩ := ended
  exact ⟨final, passes, result⟩

theorem jsonEndZone_ok {state next : JsonState} (result : jsonEndZone cfg dev state = .ok next) :
    ∃ zoneInfo, next = { state with
      zonemap := KeyedObject.add state.zonemap (uint32ToStringCast state.currentZone)
        ⟨zoneInfo, state.zoneSegments⟩ } := by
  obtain ⟨zoneInfo, -, result⟩ := Runs.bind_ok result
  cases result
  exact ⟨zoneInfo, rfl⟩

/-- Over the full range every pass files its extent. `Inside` is what the passes keep, given the
extents filed before, and `Outside` what holds of the document between two zones. -/
theorem jsonDumpF2fsZonemap_exhausts (ready : Reportable cfg dev ctrl counters)
    (full : FullRange cfg ctrl.zonemap) {inner : Nat}
    (Outside Inside : List Extent → JsonState → Prop)
    (step : ∀ done e rest, ctrl.zonemap.extents = done ++ e :: rest →
      ∀ state changed next first made, Inside done state →
        jsonChangeSegment cfg e (cfg.segmentId e.phyBlk) { state with currentZone := e.zone } =
          .ok (changed, first) →
        Files cfg ctrl.fileCounterMap inner e changed next made → Inside (done ++ [e]) next)
    (entered : ∀ done state, Outside done state → Inside done (jsonBeginZone state))
    (closed : ∀ done state zoneInfo, Inside done state → Outside done { state with
      zonemap := KeyedObject.add state.zonemap (uint32ToStringCast state.currentZone)
        ⟨zoneInfo, state.zoneSegments⟩ })
    {final : JsonState} {passes : List JsonPass}
    (result : jsonDumpF2fsZonemap cfg dev List.length inner ctrl = some (.ok (final, passes)))
    (start : Outside [] (JsonState.start ctrl)) : Outside ctrl.zonemap.extents final := by
  have exhausted := CursorLoop.scans_exhausts Outside Inside (fun _ _ => True)
    ctrl.zonemap.scanned (by
      rw [ready.scanned]
      intro done e rest split state flow holds turn
      have inside : e ∈ ctrl.zonemap.extents := by simp [split]
      rcases jsonExtentTurn_ok turn with ⟨past, -⟩ | ⟨below, -⟩ |
        ⟨changed, next, first, made, change, files, rfl⟩
      · exact absurd (full.before ready.supported inside) (UInt64.not_lt.mpr past)
      · rw [full.startLba] at below
        exact absurd below (UInt64.not_lt.mpr UInt64.zero_le)
      · exact ⟨next, _, rfl, step done e rest split state changed next first made holds change
          files, trivial⟩)
    entered (by
      intro done state next holds closing
      obtain ⟨zoneInfo, rfl⟩ := jsonEndZone_ok closing
      exact closed done state zoneInfo holds) result start
  rw [ready.scanned] at exhausted
  exact exhausted.1

end Run

end ZnsTools
