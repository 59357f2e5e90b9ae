import ZnsTools.JsonRuns

set_option autoImplicit false

namespace ZnsTools

-- An object as it is stored in the document, with the number that its key is made of.
structure StoredZone where
  number : UInt32
  zoneInfo : Option JsonZoneInfo
  segments : List (UInt32 × JsonSegment)
  deriving DecidableEq, Repr

def storeSegments (key : UInt32 → List Char) (segments : List (UInt32 × JsonSegment)) :
    JsonSegments :=
  KeyedObject.addAll [] (segments.map fun stored => (key stored.1, stored.2))

def storeZones (key : UInt32 → List Char) (zones : List StoredZone) : JsonZonemap :=
  KeyedObject.addAll [] (zones.map fun stored =>
    (key stored.number, ⟨stored.zoneInfo, storeSegments key stored.segments⟩))

def fillsSegment (g : Geometry) (e : Extent) : Bool :=
  let middle := e.middleSegment g
  let span := g.segmentStart (e.phyBlk + e.len) - g.segmentStart e.phyBlk
  !e.inOneSegment g && 1 < span >>> g.segmentShift.toUInt64 &&
    (e.endSegment g - middle == 1 || middle.toUInt32.toUInt64 < e.endSegment g - 1)

theorem fillsSegment_iff {g : Geometry} {e : Extent} : fillsSegment g e = true ↔
    ¬ e.inOneSegment g = true ∧
    1 < (g.segmentStart (e.phyBlk + e.len) - g.segmentStart e.phyBlk) >>> g.segmentShift.toUInt64 ∧
    (e.endSegment g - e.middleSegment g = 1 ∨
      (e.middleSegment g).toUInt32.toUInt64 < e.endSegment g - 1) := by
  simp only [fillsSegment, Bool.and_eq_true, Bool.or_eq_true, decide_eq_true_eq, beq_iff_eq,
    Bool.not_eq_true', Bool.not_eq_true, and_assoc]

/-- The numbers that a pass stores segments under: a change of the segment stores what is pending,
under the number of the new segment, and the middle of an extent is stored as one segment. -/
def segmentNumbers (cfg : Config) (pass : JsonPass) : List UInt32 :=
  let segmentId := cfg.segmentId pass.item.phyBlk
  (if pass.before.cursegId.toUInt64 = segmentId || pass.before.cursegExtents.isEmpty then []
    else [segmentId.toUInt32]) ++
  (if fillsSegment cfg.toGeometry pass.item then [(pass.item.middleSegment cfg.toGeometry).toUInt32]
    else [])

-- The number of the zone seen last.
def zoneNumber (passes : List JsonPass) : UInt32 :=
  (passes.getLast?.map fun pass => pass.item.zone).getD 0

-- A list of extents is closed under the number of the zone seen last, which need not be its own.
def zoneNumbers (before : List JsonPass) : List (List JsonPass) → List UInt32
  | [] => []
  | group :: rest => zoneNumber (before ++ group) :: zoneNumbers (before ++ group) rest

theorem zoneNumbers_snoc (before : List JsonPass) (groups : List (List JsonPass))
    (group : List JsonPass) :
    zoneNumbers before (groups ++ [group]) =
      zoneNumbers before groups ++ [zoneNumber (before ++ (groups ++ [group]).flatten)] := by
  induction groups generalizing before with
  | nil => simp [zoneNumbers]
  | cons first rest ih => simp [zoneNumbers, ih]

theorem zoneNumber_snoc (passes : List JsonPass) (pass : JsonPass) :
    zoneNumber (passes ++ [pass]) = pass.item.zone := by
  simp [zoneNumber]

/-- `zones` are the objects that a run stores, one for each group of its passes. -/
structure DumpHistory (cfg : Config) (groups : List (List JsonPass)) (zones : List StoredZone) :
    Prop where
  numbered : zones.map StoredZone.number = zoneNumbers [] groups
  segments : (zones.map fun stored => stored.segments.map Prod.fst) =
    groups.map fun group => group.flatMap (segmentNumbers cfg)

section Turn

variable {cfg : Config} {counters : Option FileCounterMap} {e : Extent}
  {state next : JsonState}

theorem storeSegments_snoc (key : UInt32 → List Char) (segments : List (UInt32 × JsonSegment))
    (stored : UInt32 × JsonSegment) :
    storeSegments key (segments ++ [stored]) =
      KeyedObject.add (storeSegments key segments) (key stored.1) stored.2 := by
  rw [storeSegments, List.map_append, List.map_singleton, KeyedObject.addAll_snoc, storeSegments]

def Stores (numbers : List UInt32) (state next : JsonState) : Prop :=
  ∀ segments, state.zoneSegments = storeSegments uint32ToStringCast segments →
    ∃ more, more.map Prod.fst = numbers ∧
      next.zoneSegments = storeSegments uint32ToStringCast (segments ++ more)

theorem stores_none (same : next.zoneSegments = state.zoneSegments) : Stores [] state next := by
  intro segments stored
  exact ⟨[], rfl, by rw [same, stored, List.append_nil]⟩

theorem stores_one {number : UInt32} {object : JsonSegment}
    (added : next.zoneSegments =
      KeyedObject.add state.zoneSegments (uint32ToStringCast number) object) :
    Stores [number] state next := by
  intro segments stored
  exact ⟨[(number, object)], rfl, by rw [added, stored, storeSegments_snoc]⟩

theorem Stores.trans {middle : JsonState} {first second : List UInt32}
    (front : Stores first state middle) (back : Stores second middle next) :
    Stores (first ++ second) state next := by
  intro segments stored
  have ⟨few, numbers, reached⟩ := front segments stored
  have ⟨more, others, last⟩ := back (segments ++ few) reached
  exact ⟨few ++ more, by rw [List.map_append, numbers, others], by rw [last, List.append_assoc]⟩

theorem jsonChangeSegment_stores {segmentId : UInt64} {made : List JsonSegmentInfo}
    (result : jsonChangeSegment cfg e segmentId state = .ok (next, made)) :
    Stores (if state.cursegId.toUInt64 = segmentId || state.cursegExtents.isEmpty then []
      else [segmentId.toUInt32]) state next ∧ next.currentZone = state.currentZone ∧
        next.zonemap = state.zonemap := by
  rcases jsonChangeSegment_ok result with ⟨same, rfl, -⟩ | ⟨other, segI, -, -, rfl⟩
  · rw [if_pos (by simp [same])]
    exact ⟨stores_none rfl, rfl, rfl⟩
  · refine ⟨?_, rfl, rfl⟩
    by_cases none : state.cursegExtents.isEmpty = true
    · rw [if_pos (by simp [none])]
      exact stores_none (if_pos none)
    · rw [if_neg (by simp [other, none])]
      exact stores_one (if_neg none)

theorem jsonMiddle_stores {fuel : Nat} {made : List JsonSegmentInfo}
    (several : ¬ e.inOneSegment cfg.toGeometry = true)
    (result : jsonMiddle cfg counters fuel e state = .ok (next, made)) :
    Stores (if fillsSegment cfg.toGeometry e then [(e.middleSegment cfg.toGeometry).toUInt32]
      else []) state next ∧ next.currentZone = state.currentZone ∧ next.zonemap = state.zonemap := by
  rw [jsonMiddle] at result
  dsimp only at result
  split at result
  · next far =>
    obtain ⟨⟨root, all⟩, added, result⟩ := Runs.bind_ok result
    cases result
    refine ⟨?_, rfl, rfl⟩
    change jsonAddConsecutiveSegmentsExtentInfo cfg counters fuel e
      (e.middleSegment cfg.toGeometry) state.zoneSegments = _ at added
    rw [jsonAddConsecutiveSegmentsExtentInfo] at added
    dsimp only at added
    split at added
    · next single =>
      obtain ⟨⟨grown, info⟩, one, added⟩ := Runs.bind_ok added
      cases added
      obtain ⟨segI, map, -, -, -, rfl⟩ := jsonAddSingleSegmentExtentInfo_ok (Runs.mapError_ok one)
      rw [if_pos (fillsSegment_iff.mpr ⟨several, far, .inl single⟩)]
      exact stores_one rfl
    · next long =>
      rcases jsonSegmentLoop_ok added with ⟨past, rfl, -⟩ | ⟨before, segI, map, n, -, -, -, rfl⟩
      · rw [if_neg (fun fills => (fillsSegment_iff.mp fills).2.2.elim long past)]
        exact stores_none rfl
      · rw [if_pos (fillsSegment_iff.mpr ⟨several, far, .inr before⟩)]
        exact stores_one rfl
  · next near =>
    cases result
    rw [if_neg (fun fills => near (fillsSegment_iff.mp fills).2.1)]
    exact ⟨stores_none rfl, rfl, rfl⟩

theorem jsonExtentTurn_stores {fuel : Nat} {out : List JsonSegmentInfo}
    (result : jsonExtentTurn cfg counters fuel e state = .ok (.advance next out)) :
    Stores (segmentNumbers cfg ⟨e, state, next, out⟩) state next ∧ next.currentZone = e.zone ∧
      next.zonemap = state.zonemap := by
  rcases jsonExtentTurn_ok result with ⟨-, flow⟩ | ⟨-, flow⟩ |
    ⟨changed, last, first, made, change, files, flow⟩
  · cases flow
  · cases flow
  · cases flow
    have ⟨begins, zone, zonemap⟩ := jsonChangeSegment_stores change
    rw [segmentNumbers]
    cases files with
    | whole one added =>
      obtain ⟨map, -, rfl⟩ := jsonWholeExtent_ok added
      refine ⟨begins.trans ?_, zone, zonemap⟩
      rw [if_neg (fun fills => (fillsSegment_iff.mp fills).1 one)]
      exact stores_none rfl
    | @split begun filled _ several beginning middle remainder =>
      have same : begun.zoneSegments = changed.zoneSegments ∧
          begun.currentZone = changed.currentZone ∧ begun.zonemap = changed.zonemap := by
        rcases jsonBeginning_ok beginning with ⟨-, rfl⟩ | ⟨-, map, -, rfl⟩ <;> exact ⟨rfl, rfl, rfl⟩
      have rest : next.zoneSegments = filled.zoneSegments ∧
          next.currentZone = filled.currentZone ∧ next.zonemap = filled.zonemap := by
        rcases jsonRemainder_ok remainder with ⟨-, rfl⟩ | ⟨-, map, -, rfl⟩ <;> exact ⟨rfl, rfl, rfl⟩
      have ⟨fills, kept, document⟩ := jsonMiddle_stores several middle
      refine ⟨begins.trans ?_, ?_, ?_⟩
      · have moved := ((stores_none same.1).trans fills).trans (stores_none rest.1)
        simpa using moved
      · rw [rest.2.1, kept, same.2.1, zone]
      · rw [rest.2.2, document, same.2.2, zonemap]

theorem jsonExtentTurn_again {fuel : Nat}
    (result : jsonExtentTurn cfg counters fuel e state = .ok (.again next)) : state = next := by
  rcases jsonExtentTurn_ok result with ⟨-, flow⟩ | ⟨-, flow⟩ | ⟨_, _, _, _, -, -, flow⟩ <;>
    cases flow
  rfl

theorem jsonExtentTurn_leaves {fuel : Nat}
    (result : jsonExtentTurn cfg counters fuel e state = .ok (.leave next)) : state = next := by
  rcases jsonExtentTurn_ok result with ⟨-, flow⟩ | ⟨-, flow⟩ | ⟨_, _, _, _, -, -, flow⟩ <;>
    cases flow
  rfl

end Turn

section Run

variable {cfg : Config} {dev : Device} {ctrl : Control}

def Recorded (cfg : Config) (groups : List (List JsonPass)) (state : JsonState) : Prop :=
  state.currentZone = zoneNumber groups.flatten ∧ ∃ zones, DumpHistory cfg groups zones ∧
    state.zonemap = storeZones uint32ToStringCast zones

def Recording (cfg : Config) (groups : List (List JsonPass)) (passes : List JsonPass)
    (state : JsonState) : Prop :=
  state.currentZone = zoneNumber (groups.flatten ++ passes) ∧
    (∃ zones, DumpHistory cfg groups zones ∧
      state.zonemap = storeZones uint32ToStringCast zones) ∧
    ∃ segments, segments.map Prod.fst = passes.flatMap (segmentNumbers cfg) ∧
      state.zoneSegments = storeSegments uint32ToStringCast segments

theorem Recording.advance {counters : Option FileCounterMap} {fuel : Nat}
    {groups : List (List JsonPass)} {passes : List JsonPass} {e : Extent} {state next : JsonState}
    {out : List JsonSegmentInfo} (recording : Recording cfg groups passes state)
    (turn : jsonExtentTurn cfg counters fuel e state = .ok (.advance next out)) :
    Recording cfg groups (passes ++ [⟨e, state, next, out⟩]) next := by
  obtain ⟨-, ⟨zones, history, document⟩, segments, numbers, stored⟩ := recording
  have ⟨stores, zone, zonemap⟩ := jsonExtentTurn_stores turn
  obtain ⟨more, others, grown⟩ := stores segments stored
  refine ⟨?_, ⟨zones, history, zonemap.trans document⟩, segments ++ more, ?_, grown⟩
  · rw [zone, ← List.append_assoc, zoneNumber_snoc]
  · simp [numbers, others]

theorem Recording.close {groups : List (List JsonPass)} {passes : List JsonPass}
    {state next : JsonState} (recording : Recording cfg groups passes state)
    (closing : jsonEndZone cfg dev state = .ok next) : Recorded cfg (groups ++ [passes]) next := by
  obtain ⟨current, ⟨zones, history, document⟩, segments, numbers, stored⟩ := recording
  obtain ⟨zoneInfo, rfl⟩ := jsonEndZone_ok closing
  refine ⟨by simpa using current, zones ++ [⟨state.currentZone, zoneInfo, segments⟩], ?_, ?_⟩
  · constructor
    · rw [List.map_append, history.numbered, zoneNumbers_snoc, current]
      simp
    · rw [List.map_append, history.segments, List.map_append]
      simp [numbers]
  · rw [storeZones, List.map_append, List.map_singleton, KeyedObject.addAll_snoc, document, stored]
    rfl

theorem jsonDumpF2fsZonemap_history {fuel : List Extent → Nat} {inner : Nat} {final : JsonState}
    {passes : List JsonPass}
    (result : jsonDumpF2fsZonemap cfg dev fuel inner ctrl = some (.ok (final, passes))) :
    ∃ groups zones, groups.flatten = passes ∧
      List.Forall₂ (CursorLoop.Scanned (jsonExtentTurn cfg ctrl.fileCounterMap inner) fuel)
        ctrl.zonemap.scanned groups ∧
      DumpHistory cfg groups zones ∧ final.zonemap = storeZones uint32ToStringCast zones := by
  have traced : ∃ groups, groups.flatten = passes ∧
      List.Forall₂ (CursorLoop.Scanned (jsonExtentTurn cfg ctrl.fileCounterMap inner) fuel)
        ctrl.zonemap.scanned groups ∧ Recorded cfg groups final := by
    refine CursorLoop.scans_traces (Recorded cfg) (Recording cfg) _ ?_ ?_ ?_ ?_ ?_ result
      ⟨rfl, [], ⟨rfl, rfl⟩, rfl⟩
    · intro groups passes _ _ e _ state next out recording turn
      exact recording.advance turn
    · intro groups passes _ _ e _ state next recording turn
      exact jsonExtentTurn_again turn ▸ recording
    · intro groups passes _ _ e _ state next recording turn
      exact jsonExtentTurn_leaves turn ▸ recording
    · intro groups state recorded
      exact ⟨by rw [List.append_nil]; exact recorded.1, recorded.2, [], rfl, rfl⟩
    · intro groups passes state next recording closing
      exact recording.close closing
  obtain ⟨groups, whole, scanned, -, zones, history, document⟩ := traced
  exact ⟨groups, zones, whole, scanned, history, document⟩

end Run

end ZnsTools
