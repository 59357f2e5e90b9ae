import ZnsTools.FiemapReport
import ZnsTools.JsonDump
import ZnsTools.ReportOrder

set_option autoImplicit false

namespace ZnsTools

open Lockstep

section Fiemap

variable {cfg : Config} {dev : Device} {opts : FiemapOptions}

def FiemapState.content (state : FiemapState) : FiemapState :=
  { state with prev := state.prev.map Extent.content }

def Zone.content (zone : Zone) : Zone :=
  { zone with extents := zone.extents.map Extent.content }

def ZoneMap.content (zonemap : ZoneMap) : ZoneMap :=
  { zonemap with zones := zonemap.zones.map Zone.content }

theorem addHole_content (holes : List FiemapHole) (state : FiemapState) :
    holes.foldl FiemapState.addHole state.content =
      (holes.foldl FiemapState.addHole state).content := by
  induction holes generalizing state with
  | nil => rfl
  | cons hole rest ih => exact ih (state.addHole hole)

theorem fiemapExtent_content (e : Extent) (next : List Extent) (state : FiemapState) :
    fiemapExtent opts e.content (next.map Extent.content) state.content =
      ((fiemapExtent opts e next state).1.content, (fiemapExtent opts e next state).2) := by
  have between : betweenHole opts state.content.prev e.content =
      betweenHole opts state.prev e := by
    obtain ⟨prev, holeCtr, holeCumSize⟩ := state
    cases prev <;> rfl
  have leading : leadingHole opts state.content.prev e.content (next.map Extent.content) =
      leadingHole opts state.prev e next := by
    obtain ⟨prev, holeCtr, holeCumSize⟩ := state
    cases prev <;> cases next <;> rfl
  have trailing : trailingHole opts e.content (next.map Extent.content) =
      trailingHole opts e next := by
    cases next <;> rfl
  rw [fiemapExtent, fiemapExtent, between, leading, trailing]
  dsimp only
  rw [addHole_content]
  rfl

theorem fiemapExtents_content (extents : List Extent) (state : FiemapState) :
    fiemapExtents opts (extents.map Extent.content) state.content =
      ((fiemapExtents opts extents state).1.content, (fiemapExtents opts extents state).2) := by
  induction extents generalizing state with
  | nil => rfl
  | cons e next ih =>
    rw [List.map_cons, fiemapExtents, fiemapExtents, fiemapExtent_content]
    dsimp only
    rw [ih]

theorem fiemapZones_content (zones : List Zone) (i : Nat) (state : FiemapState) :
    fiemapZones cfg dev opts i (zones.map Zone.content) state.content =
      (fiemapZones cfg dev opts i zones state).map fun result =>
        (result.1.content, result.2) := by
  induction zones generalizing i state with
  | nil => rfl
  | cons zone rest ih =>
    rw [List.map_cons, fiemapZones, fiemapZones]
    have counter : zone.content.extentCtr = zone.extentCtr := rfl
    have extents : zone.content.extents = zone.extents.map Extent.content := rfl
    rw [counter, extents, fiemapExtents_content, ih]
    split
    · rfl
    · cases printZoneInfo cfg dev i.toUInt32 with
      | error abort => rfl
      | ok heading =>
        dsimp only
        rw [Runs.ok_bind, Runs.ok_bind, ih]
        cases fiemapZones cfg dev opts (i + 1) rest (fiemapExtents opts zone.extents state).1 with
        | error abort => rfl
        | ok shown => rfl

theorem printFiemapReport_content (zonemap : ZoneMap) :
    printFiemapReport cfg dev opts zonemap.content = printFiemapReport cfg dev opts zonemap := by
  have mappings : fiemapMappings cfg dev opts zonemap.content =
      (fiemapMappings cfg dev opts zonemap).map fun result => (result.1.content, result.2) :=
    fiemapZones_content zonemap.zones 0 FiemapState.start
  rw [printFiemapReport, printFiemapReport, mappings]
  cases fiemapMappings cfg dev opts zonemap <;> rfl

theorem Rearranged.zonemap {m n : Machine} (rearranged : Rearranged m n)
    (apart : (m.accepted.map Extent.phyBlk).Nodup) :
    m.ctrl.zonemap.content = n.ctrl.zonemap.content := by
  have zones := zones_contents rearranged.first rearranged.second rearranged.zones rearranged.perm
    apart
  have contents : m.ctrl.zonemap.zones.map Zone.content =
      n.ctrl.zonemap.zones.map Zone.content := by
    have rebuilt := congrArg (List.map fun zone => Zone.mk zone.1 zone.2) zones
    rwa [List.map_map, List.map_map] at rebuilt
  have count : m.ctrl.zonemap.extentCtr = n.ctrl.zonemap.extentCtr := by
    rw [← UInt64.toNat_inj, rearranged.first.consistent.extentCtr_eq,
      rearranged.second.consistent.extentCtr_eq]
    simpa using rearranged.perm.length_eq
  have size : m.ctrl.zonemap.cumExtentSize = n.ctrl.zonemap.cumExtentSize := by
    have lengths : ∀ extents : List Extent, extents.map (·.len.toNat) =
        (extents.map Extent.content).map (·.len.toNat) := by
      intro extents
      rw [List.map_map]
      rfl
    rw [← UInt64.toNat_inj, rearranged.first.consistent.cumulated,
      rearranged.second.consistent.cumulated, lengths, lengths n.accepted,
      (rearranged.perm.map _).sum_eq]
  rw [ZoneMap.content, ZoneMap.content, contents, count, size, rearranged.zoneCtr]

theorem printFiemapReport_same {m n : Machine} (rearranged : Rearranged m n)
    (apart : (m.accepted.map Extent.phyBlk).Nodup) :
    printFiemapReport cfg dev opts m.ctrl.zonemap =
      printFiemapReport cfg dev opts n.ctrl.zonemap := by
  rw [← printFiemapReport_content, rearranged.zonemap apart, printFiemapReport_content]

end Fiemap

-- The document without the extents that its entries were made for.

def JsonExtent.content (entry : JsonExtent) : JsonExtent :=
  { entry with source := entry.source.content }

def JsonSegment.content (segment : JsonSegment) : JsonSegment :=
  { segment with extents := segment.extents.map JsonExtent.content }

def segmentsContent (segments : JsonSegments) : JsonSegments :=
  segments.map (Prod.map id JsonSegment.content)

def JsonZone.content (zone : JsonZone) : JsonZone :=
  { zone with segments := segmentsContent zone.segments }

def zonemapContent (zonemap : JsonZonemap) : JsonZonemap :=
  zonemap.map (Prod.map id JsonZone.content)

structure SameDump (a b : JsonState) : Prop where
  currentZone : a.currentZone = b.currentZone
  curSegment : a.curSegment = b.curSegment
  curseg : a.curseg = b.curseg
  cursegExtents : a.cursegExtents.map JsonExtent.content = b.cursegExtents.map JsonExtent.content
  cursegId : a.cursegId = b.cursegId
  zoneSegments : segmentsContent a.zoneSegments = segmentsContent b.zoneSegments
  zonemap : zonemapContent a.zonemap = zonemapContent b.zonemap

section Json

variable {cfg : Config} {ca cb : Option FileCounterMap} {e : Extent} {fileID : UInt32}
  {a b : JsonState}

theorem jsonExtentInfo_same (tables : Option.Rel SameTables ca cb) (pbas pbae size : UInt64) :
    jsonExtentInfo ca e pbas pbae size =
      jsonExtentInfo cb { e with fileID := fileID } pbas pbae size := by
  cases tables with
  | none => rfl
  | some same =>
    simp only [jsonExtentInfo, deref, Runs.ok_bind, extentInfoOf, same.count]

theorem jsonChangeSegment_same (same : SameDump a b) (segmentId : UInt64) :
    Agree (fun first second => SameDump first.1 second.1 ∧ first.2 = second.2)
      (jsonChangeSegment cfg e segmentId a)
      (jsonChangeSegment cfg { e with fileID := fileID } segmentId b) := by
  rw [jsonChangeSegment, jsonChangeSegment, same.cursegId]
  split
  · exact .ok ⟨same, rfl⟩
  · have empty : a.cursegExtents.isEmpty = b.cursegExtents.isEmpty := by
      rw [← List.isEmpty_map (f := JsonExtent.content), same.cursegExtents, List.isEmpty_map]
    rw [jsonGetSegmentInfo, jsonGetSegmentInfo, empty]
    dsimp only
    cases deref e.fsInfo with
    | error abort => exact .error abort
    | ok segI =>
      refine .ok ⟨⟨same.currentZone, same.curSegment, rfl, rfl, rfl, ?_, same.zonemap⟩, rfl⟩
      dsimp only
      split
      · exact same.zoneSegments
      · have own : JsonSegment.content ⟨a.curseg, a.cursegExtents⟩ =
            JsonSegment.content ⟨b.curseg, b.cursegExtents⟩ := by
          rw [JsonSegment.content, JsonSegment.content, same.curseg, same.cursegExtents]
        rw [segmentsContent, segmentsContent, KeyedObject.add_map, KeyedObject.add_map, own]
        exact congrArg (KeyedObject.add · _ _) same.zoneSegments

def AlikeSegments {α : Type} (first second : JsonSegments × α) : Prop :=
  segmentsContent first.1 = segmentsContent second.1 ∧ first.2 = second.2

theorem jsonAddSingleSegmentExtentInfo_same (tables : Option.Rel SameTables ca cb)
    {root twin : JsonSegments} (roots : segmentsContent root = segmentsContent twin)
    (segmentStart : UInt64) :
    Agree AlikeSegments (jsonAddSingleSegmentExtentInfo cfg ca e segmentStart root)
      (jsonAddSingleSegmentExtentInfo cfg cb { e with fileID := fileID } segmentStart twin) := by
  have same : jsonGetExtentInfo ca e = jsonGetExtentInfo cb { e with fileID := fileID } :=
    jsonExtentInfo_same tables _ _ _
  rw [jsonAddSingleSegmentExtentInfo, jsonAddSingleSegmentExtentInfo, ← same, jsonGetSegmentInfo,
    jsonGetSegmentInfo]
  dsimp only
  cases deref e.fsInfo with
  | error abort => exact .error abort
  | ok segI =>
    cases jsonGetExtentInfo ca e with
    | error abort => exact .error abort
    | ok info =>
      refine .ok ⟨?_, rfl⟩
      rw [segmentsContent, segmentsContent, KeyedObject.add_map, KeyedObject.add_map]
      exact congrArg (KeyedObject.add · _ _) roots

theorem jsonSegmentLoop_same (tables : Option.Rel SameTables ca cb) (segmentStart limit : UInt64)
    (fuel : Nat) (cur : UInt32) {root twin : JsonSegments}
    (roots : segmentsContent root = segmentsContent twin) (made : List JsonSegmentInfo) :
    Agree AlikeSegments (jsonSegmentLoop cfg ca e segmentStart limit fuel cur root made)
      (jsonSegmentLoop cfg cb { e with fileID := fileID } segmentStart limit fuel cur twin
        made) := by
  induction fuel generalizing cur root twin made with
  | zero => exact .error _
  | succ fuel ih =>
    rw [jsonSegmentLoop, jsonSegmentLoop]
    split
    · refine ((jsonAddSingleSegmentExtentInfo_same tables roots segmentStart).mapError _).bind
        fun first second ⟨added, info⟩ => ?_
      dsimp only
      rw [info]
      exact ih _ added _
    · exact .ok ⟨roots, rfl⟩

theorem jsonAddConsecutiveSegmentsExtentInfo_same (tables : Option.Rel SameTables ca cb)
    (fuel : Nat) {root twin : JsonSegments} (roots : segmentsContent root = segmentsContent twin)
    (segmentStart : UInt64) :
    Agree AlikeSegments (jsonAddConsecutiveSegmentsExtentInfo cfg ca fuel e segmentStart root)
      (jsonAddConsecutiveSegmentsExtentInfo cfg cb fuel { e with fileID := fileID } segmentStart
        twin) := by
  have finish : ({ e with fileID := fileID } : Extent).endSegment cfg.toGeometry =
      e.endSegment cfg.toGeometry := rfl
  rw [jsonAddConsecutiveSegmentsExtentInfo, jsonAddConsecutiveSegmentsExtentInfo, finish]
  dsimp only
  split
  · refine ((jsonAddSingleSegmentExtentInfo_same tables roots segmentStart).mapError _).bind
      fun first second ⟨added, info⟩ => ?_
    rw [info]
    exact .ok ⟨added, rfl⟩
  · exact jsonSegmentLoop_same tables _ _ fuel _ roots []

theorem cursegExtents_snoc (same : SameDump a b) (wrapped : Bool) (info : JsonExtentInfo) :
    (a.cursegExtents ++ [JsonExtent.mk e wrapped info]).map JsonExtent.content =
      (b.cursegExtents ++ [JsonExtent.mk { e with fileID := fileID } wrapped info]).map
        JsonExtent.content := by
  rw [List.map_append, List.map_append, same.cursegExtents]
  rfl

theorem jsonWholeExtent_same (tables : Option.Rel SameTables ca cb) (same : SameDump a b) :
    Agree SameDump (jsonWholeExtent cfg ca e a)
      (jsonWholeExtent cfg cb { e with fileID := fileID } b) := by
  have info : jsonGetExtentInfo ca e = jsonGetExtentInfo cb { e with fileID := fileID } :=
    jsonExtentInfo_same tables _ _ _
  rw [jsonWholeExtent, jsonWholeExtent, ← info]
  cases jsonGetExtentInfo ca e with
  | error abort => exact .error abort
  | ok info =>
    exact .ok ⟨same.currentZone, rfl, same.curseg, cursegExtents_snoc same true info,
      same.cursegId, same.zoneSegments, same.zonemap⟩

theorem jsonBeginning_same (tables : Option.Rel SameTables ca cb) (same : SameDump a b) :
    Agree SameDump (jsonBeginning cfg ca e a)
      (jsonBeginning cfg cb { e with fileID := fileID } b) := by
  have info : jsonGetBeginningSegmentExtentInfo cfg ca e =
      jsonGetBeginningSegmentExtentInfo cfg cb { e with fileID := fileID } :=
    jsonExtentInfo_same tables _ _ _
  rw [jsonBeginning, jsonBeginning, ← info]
  dsimp only
  split
  · exact .ok same
  · cases jsonGetBeginningSegmentExtentInfo cfg ca e with
    | error abort => exact .error abort
    | ok info =>
      exact .ok ⟨same.currentZone, same.curSegment, same.curseg,
        cursegExtents_snoc same true info, same.cursegId, same.zoneSegments, same.zonemap⟩

theorem jsonMiddle_same (tables : Option.Rel SameTables ca cb) (fuel : Nat)
    (same : SameDump a b) :
    Agree (fun first second => SameDump first.1 second.1 ∧ first.2 = second.2)
      (jsonMiddle cfg ca fuel e a) (jsonMiddle cfg cb fuel { e with fileID := fileID } b) := by
  rw [jsonMiddle, jsonMiddle]
  dsimp only
  split
  · refine (jsonAddConsecutiveSegmentsExtentInfo_same tables fuel same.zoneSegments _).bind
      fun first second ⟨roots, made⟩ => ?_
    exact .ok ⟨⟨same.currentZone, same.curSegment, same.curseg, same.cursegExtents, same.cursegId,
      roots, same.zonemap⟩, made⟩
  · exact .ok ⟨same, rfl⟩

theorem jsonRemainder_same (tables : Option.Rel SameTables ca cb) (same : SameDump a b) :
    Agree SameDump (jsonRemainder cfg ca e a)
      (jsonRemainder cfg cb { e with fileID := fileID } b) := by
  have finish : ({ e with fileID := fileID } : Extent).endSegment cfg.toGeometry =
      e.endSegment cfg.toGeometry := rfl
  rw [jsonRemainder, jsonRemainder, jsonAddRemainderSegmentExtentInfo,
    jsonAddRemainderSegmentExtentInfo, finish, ← jsonExtentInfo_same tables]
  dsimp only
  split
  · exact .ok same
  · cases jsonExtentInfo ca e (cfg.segmentLba (e.endSegment cfg.toGeometry))
        (cfg.segmentLba (e.endSegment cfg.toGeometry) +
          (e.phyBlk + e.len - cfg.segmentLba (e.endSegment cfg.toGeometry)))
        (e.phyBlk + e.len - cfg.segmentLba (e.endSegment cfg.toGeometry)) with
    | error abort => exact .error abort
    | ok info =>
      exact .ok ⟨same.currentZone, same.curSegment, same.curseg,
        cursegExtents_snoc same false info, same.cursegId, same.zoneSegments, same.zonemap⟩

theorem jsonExtentTurn_same (tables : Option.Rel SameTables ca cb) (inner : Nat) {f : Extent}
    (alike : e.content = f.content) (same : SameDump a b) :
    Agree (Alike SameDump) (jsonExtentTurn cfg ca inner e a) (jsonExtentTurn cfg cb inner f b) := by
  rw [content_eq alike, jsonExtentTurn, jsonExtentTurn]
  have place : ({ e with fileID := f.fileID } : Extent).inOneSegment cfg.toGeometry =
      e.inOneSegment cfg.toGeometry := rfl
  rw [place]
  dsimp only
  split
  · exact .ok (.leave same)
  split
  · exact .ok (.again same)
  have entered : SameDump { a with currentZone := e.zone } { b with currentZone := e.zone } :=
    ⟨rfl, same.curSegment, same.curseg, same.cursegExtents, same.cursegId, same.zoneSegments,
      same.zonemap⟩
  refine ((jsonChangeSegment_same entered _).mapError _).bind fun first second ⟨changed, made⟩ => ?_
  split
  · refine ((jsonWholeExtent_same tables changed).mapError _).bind fun last final ends => ?_
    rw [made]
    exact .ok (.advance _ ends)
  · refine ((jsonBeginning_same tables changed).mapError _).bind fun third fourth begun => ?_
    refine (jsonMiddle_same tables inner begun).bind fun fifth sixth ⟨middle, more⟩ => ?_
    refine ((jsonRemainder_same tables middle).mapError _).bind fun last final ends => ?_
    rw [made, more]
    exact .ok (.advance _ ends)

theorem jsonEndZone_same (dev : Device) (same : SameDump a b) :
    Agree SameDump (jsonEndZone cfg dev a) (jsonEndZone cfg dev b) := by
  rw [jsonEndZone, jsonEndZone, same.currentZone]
  cases jsonGetZoneInfo cfg dev b.currentZone with
  | error abort => exact .error _
  | ok zoneInfo =>
    refine .ok ⟨rfl, same.curSegment, same.curseg, same.cursegExtents, same.cursegId,
      same.zoneSegments, ?_⟩
    have own : JsonZone.content ⟨zoneInfo, a.zoneSegments⟩ =
        JsonZone.content ⟨zoneInfo, b.zoneSegments⟩ := by
      rw [JsonZone.content, JsonZone.content, same.zoneSegments]
    rw [zonemapContent, zonemapContent, KeyedObject.add_map, KeyedObject.add_map, own]
    exact congrArg (KeyedObject.add · _ _) same.zonemap

theorem jsonDumpF2fsZonemap_same {m n : Machine} (dev : Device) (fuel : Nat → Nat) (inner : Nat)
    (rearranged : Rearranged m n) (apart : (m.accepted.map Extent.phyBlk).Nodup) :
    Together (SameOutput SameDump)
      (jsonDumpF2fsZonemap cfg dev (fun extents => fuel extents.length) inner m.ctrl)
      (jsonDumpF2fsZonemap cfg dev (fun extents => fuel extents.length) inner n.ctrl) := by
  have lists := (Perms.forall₂_of_map_eq (rearranged.scanned apart)
    (fun _ _ => trivial : ∀ extents ∈ m.ctrl.zonemap.scanned, True)).imp
      fun _ _ both => Perms.forall₂_of_map_eq both.1 (fun _ _ => trivial : ∀ e ∈ _, True)
  have start : SameDump (JsonState.start m.ctrl) (JsonState.start n.ctrl) :=
    ⟨rfl, rearranged.curSegment, rfl, rfl, rfl, rfl, rfl⟩
  refine scans_together ?_ (fun _ _ same => jsonEndZone_same dev same)
    (fun e f both _ _ same => jsonExtentTurn_same rearranged.tables inner both.1 same)
    (fun items twins both => congrArg fuel both.length_eq) lists start
  intro state mirror same
  exact ⟨same.currentZone, same.curSegment, same.curseg, same.cursegExtents, same.cursegId, rfl,
    same.zonemap⟩

end Json

end ZnsTools
