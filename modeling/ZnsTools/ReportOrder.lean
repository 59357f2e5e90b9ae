import ZnsTools.FileNames
import ZnsTools.Shared.Lockstep

set_option autoImplicit false

namespace ZnsTools

open Lockstep

structure SameTables (a b : FileCounterMap) : Prop where
  entries : a.used.Perm b.used
  distinct : a.names.Nodup
  inside : a.fileCtr.toNat ≤ a.files.length
  within : b.fileCtr.toNat ≤ b.files.length

section Tables

variable {a b : FileCounterMap}

theorem SameTables.count (same : SameTables a b) (file : CString) :
    getFileExtentCount a file = getFileExtentCount b file := by
  rw [getFileExtentCount_eq, getFileExtentCount_eq, Perms.find?_perm same.entries same.distinct]

theorem getElem?_used {counters : FileCounterMap} {file : CString} {index : Nat}
    (found : counters.find? file = some index) :
    counters.files[index]? = counters.used.find? fun entry => entry.file == file := by
  have below := (find?_lt found).2
  rw [find?_eq] at found
  rw [List.find?_eq_bind_findIdx?_getElem?, found, Option.bind_some, FileCounterMap.used,
    List.getElem?_take, if_pos below]

theorem SameTables.entry (same : SameTables a b) {file : CString} (listed : file ∈ a.names) :
    ∃ i j entry, a.find? file = some i ∧ b.find? file = some j ∧ a.files[i]? = some entry ∧
      b.files[j]? = some entry := by
  have known : file ∈ b.names := (same.entries.map _).mem_iff.mp listed
  obtain ⟨i, here⟩ := Option.ne_none_iff_exists'.mp ((find?_isSome_iff a file).mpr listed)
  obtain ⟨j, there⟩ := Option.ne_none_iff_exists'.mp ((find?_isSome_iff b file).mpr known)
  have first := List.getElem?_eq_getElem (find?_lt here).1
  have second := getElem?_used there
  rw [← Perms.find?_perm same.entries same.distinct, ← getElem?_used here, first] at second
  exact ⟨i, j, _, here, there, first, second⟩

theorem used_set (counters : FileCounterMap) (index : Nat) (entry : FileCounter) :
    FileCounterMap.used { counters with files := counters.files.set index entry } =
      counters.used.set index entry :=
  List.take_set

theorem SameTables.set (same : SameTables a b) {file : CString} {i j : Nat}
    {entry next : FileCounter} (here : a.find? file = some i) (there : b.find? file = some j)
    (first : a.files[i]? = some entry) (second : b.files[j]? = some entry)
    (kept : next.file = entry.file) :
    SameTables { a with files := a.files.set i next } { b with files := b.files.set j next } ∧
      FileCounterMap.names { a with files := a.files.set i next } = a.names := by
  have own : a.used[i]? = some entry := by
    rw [FileCounterMap.used, List.getElem?_take, if_pos (find?_lt here).2, first]
  have its : b.used[j]? = some entry := by
    rw [FileCounterMap.used, List.getElem?_take, if_pos (find?_lt there).2, second]
  have names : FileCounterMap.names { a with files := a.files.set i next } = a.names := by
    have named : a.names[i]? = some next.file := by
      rw [FileCounterMap.names, List.getElem?_map, own, Option.map_some, kept]
    obtain ⟨below, at_index⟩ := List.getElem?_eq_some_iff.mp named
    rw [FileCounterMap.names, used_set, List.map_set, ← at_index]
    exact List.set_getElem_self below
  refine ⟨⟨?_, ?_, ?_, ?_⟩, names⟩
  · rw [used_set, used_set]
    exact Perms.set_perm same.entries own its next
  · rw [names]
    exact same.distinct
  · rw [List.length_set]
    exact same.inside
  · rw [List.length_set]
    exact same.within

theorem increaseFileSegmentCounter_same {cfg : Config} (same : SameTables a b) {file : CString}
    (listed : file ∈ a.names) (numSegments curSegment : UInt32) (segI : SegmentInfo)
    (zoneCap : UInt64) :
    Agree (fun x y => SameTables x y ∧ x.names = a.names)
      (increaseFileSegmentCounter cfg a file numSegments curSegment segI zoneCap)
      (increaseFileSegmentCounter cfg b file numSegments curSegment segI zoneCap) := by
  obtain ⟨i, j, entry, here, there, first, second⟩ := same.entry listed
  simp only [increaseFileSegmentCounter, here, there, Option.getD_some, first, second, deref,
    Runs.ok_bind]
  cases segmentZone cfg curSegment with
  | error e => exact .error e
  | ok zone =>
    rw [Runs.ok_bind, Runs.ok_bind]
    cases added : (entry.addSegments numSegments curSegment segI.type).addZones cfg numSegments zone
        zoneCap with
    | error e => exact .error e
    | ok next =>
      have kept : next.file = entry.file := by
        obtain ⟨zoneCtr, lastZone, rfl⟩ := addZones_ok added
        exact addSegments_file _ _ _ _
      exact .ok (same.set here there first second kept)

end Tables

section Pass

variable {cfg : Config}

theorem content_eq {e f : Extent} (alike : e.content = f.content) :
    f = { e with fileID := f.fileID } := by
  cases e
  cases f
  simp only [Extent.content, Extent.mk.injEq] at alike
  simp [alike]

def SameShown (first second : ReportState × List Line) : Prop :=
  first.2 = second.2 ∧ first.1.curSegment = second.1.curSegment

section Parts

variable {ca cb : FileCounterMap} {nrFiles others : UInt32} {segI : SegmentInfo} {e : Extent}
  {fileID : UInt32} {a b : ReportState}

theorem extentLine_same (labels : ∀ file, getFileExtentCount ca file = getFileExtentCount cb file)
    (pbas pbae size : UInt64) :
    extentLine ca e pbas pbae size = extentLine cb { e with fileID := fileID } pbas pbae size := by
  simp only [extentLine, labels]

theorem showWholeExtent_same
    (labels : ∀ file, getFileExtentCount ca file = getFileExtentCount cb file)
    (segment : a.curSegment = b.curSegment) :
    SameShown (showWholeExtent cfg nrFiles ca segI e a)
      (showWholeExtent cfg others cb segI { e with fileID := fileID } b) := by
  have label := @extentLine_same ca cb e fileID labels
  simp only [SameShown, showWholeExtent, label, segment, and_self]

theorem showBeginning_same
    (labels : ∀ file, getFileExtentCount ca file = getFileExtentCount cb file)
    (segment : a.curSegment = b.curSegment) :
    SameShown (showBeginning cfg nrFiles ca segI e a)
      (showBeginning cfg others cb segI { e with fileID := fileID } b) := by
  have label := @extentLine_same ca cb e fileID labels
  simp only [SameShown, showBeginning, showBeginningSegment, label, segment]
  split
  · exact ⟨rfl, segment⟩
  · exact ⟨rfl, rfl⟩

theorem showConsecutiveSegments_same
    (labels : ∀ file, getFileExtentCount ca file = getFileExtentCount cb file)
    (segment : a.curSegment = b.curSegment) (segmentStart : UInt64) :
    SameShown (showConsecutiveSegments cfg nrFiles ca segI e segmentStart a)
      (showConsecutiveSegments cfg others cb segI { e with fileID := fileID } segmentStart b) := by
  have label := @extentLine_same ca cb e fileID labels
  simp only [SameShown, showConsecutiveSegments, label, segment, and_true]
  rfl

theorem showMiddle_same
    (labels : ∀ file, getFileExtentCount ca file = getFileExtentCount cb file)
    (segment : a.curSegment = b.curSegment) :
    SameShown (showMiddle cfg nrFiles ca segI e a)
      (showMiddle cfg others cb segI { e with fileID := fileID } b) := by
  rw [showMiddle, showMiddle]
  dsimp only
  split
  · exact showConsecutiveSegments_same labels segment _
  · exact ⟨rfl, segment⟩

theorem showRemainder_same
    (labels : ∀ file, getFileExtentCount ca file = getFileExtentCount cb file)
    (segment : a.curSegment = b.curSegment) :
    SameShown (showRemainder cfg nrFiles ca segI e a)
      (showRemainder cfg others cb segI { e with fileID := fileID } b) := by
  have label := @extentLine_same ca cb e fileID labels
  rw [showRemainder, showRemainder]
  dsimp only
  split
  · exact ⟨rfl, segment⟩
  · simp only [SameShown, showRemainderSegment, Extent.endSegment, label, segment, and_self]

theorem showExtent_same
    (labels : ∀ file, getFileExtentCount ca file = getFileExtentCount cb file)
    (segment : a.curSegment = b.curSegment) :
    SameShown (showExtent cfg nrFiles ca segI e a)
      (showExtent cfg others cb segI { e with fileID := fileID } b) := by
  rw [showExtent, showExtent]
  have place : ({ e with fileID := fileID } : Extent).inOneSegment cfg.toGeometry =
      e.inOneSegment cfg.toGeometry := rfl
  rw [place]
  split
  · exact showWholeExtent_same labels segment
  · obtain ⟨beginning, first⟩ := @showBeginning_same cfg ca cb nrFiles others segI e fileID _ _
      labels segment
    obtain ⟨middle, second⟩ := @showMiddle_same cfg ca cb nrFiles others segI e fileID _ _
      labels first
    obtain ⟨remainder, third⟩ := @showRemainder_same cfg ca cb nrFiles others segI e fileID _ _
      labels second
    exact ⟨congrArg₂ _ (congrArg₂ _ beginning middle) remainder, third⟩

end Parts

structure Mirrored (names : List CString) (a b : ReportState) : Prop where
  currentZone : a.currentZone = b.currentZone
  curSegment : a.curSegment = b.curSegment
  tables : Option.Rel (fun x y => SameTables x y ∧ x.names = names) a.fileCounterMap
    b.fileCounterMap

theorem showZoneHeading_same {dev : Device} {names : List CString} {a b : ReportState}
    (mirrored : Mirrored names a b) (e : Extent) (fileID : UInt32) :
    Agree (fun first second => Mirrored names first.1 second.1 ∧ first.2 = second.2)
      (showZoneHeading cfg dev e a) (showZoneHeading cfg dev { e with fileID := fileID } b) := by
  rw [showZoneHeading, showZoneHeading, mirrored.currentZone]
  dsimp only
  split
  · exact .ok ⟨mirrored, rfl⟩
  · cases repZoneInfo cfg dev e.zone with
    | error abort => exact .error abort
    | ok heading => exact .ok ⟨⟨rfl, mirrored.curSegment, mirrored.tables⟩, rfl⟩

theorem deref_same {α β : Type} {P : α → β → Prop} {a : Option α} {b : Option β}
    (related : Option.Rel P a b) : Agree P (deref a) (deref b) := by
  cases related with
  | none => exact .error _
  | some both => exact .ok both

theorem showExtentTurn_same {dev : Device} {names : List CString} {e f : Extent}
    (alike : e.content = f.content) (listed : e.file ∈ names) (nrFiles others : UInt32)
    {a b : ReportState} (mirrored : Mirrored names a b) :
    Agree (Alike (Mirrored names)) (showExtentTurn cfg dev nrFiles e a)
      (showExtentTurn cfg dev others f b) := by
  rw [content_eq alike, showExtentTurn, showExtentTurn]
  dsimp only
  split
  · exact .ok (.leave mirrored)
  split
  · exact .ok (.again mirrored)
  refine (showZoneHeading_same mirrored e f.fileID).bind ?_
  rintro first second ⟨stays, heading⟩
  refine (Agree.refl (fun _ => rfl) (deref e.fsInfo)).bind fun segI segJ same => ?_
  cases same
  refine (deref_same stays.tables).bind ?_
  rintro ca cb ⟨tables, named⟩
  refine (increaseFileSegmentCounter_same tables (named ▸ listed) _ _ segI e.zoneCap).bind ?_
  rintro counted others' ⟨after, kept⟩
  obtain ⟨lines, segment⟩ := @showExtent_same cfg counted others' nrFiles others segI e f.fileID
    { first.1 with fileCounterMap := some counted } { second.1 with fileCounterMap := some others' }
    after.count stays.curSegment
  obtain ⟨zone, table⟩ := showExtent_frame nrFiles counted segI e
    { first.1 with fileCounterMap := some counted }
  obtain ⟨zone', table'⟩ := showExtent_frame others others' segI { e with fileID := f.fileID }
    { second.1 with fileCounterMap := some others' }
  rw [heading, lines]
  refine .ok (.advance _ ⟨?_, segment, ?_⟩)
  · rw [zone, zone']
    exact stays.currentZone
  · rw [table, table']
    exact .some ⟨after, kept.trans named⟩

end Pass

def mappedEntry (accepted : List Extent) (file : CString) : FileCounter :=
  { FileCounter.zero with
    file := file
    extCtr := UInt32.ofNat (accepted.countP fun e => e.file == file) }

section Collected

variable {cfg : Config} {m n : Machine}

theorem used_eq (filed : m.Filed) (counted : m.Counted) {counters : FileCounterMap}
    (tracked : m.ctrl.fileCounterMap = some counters) :
    counters.used = counters.names.map (mappedEntry m.accepted) := by
  have sound := filed.sound counters tracked
  rw [FileCounterMap.names, List.map_map]
  refine (List.map_id _).symm.trans (List.map_congr_left fun entry inside => ?_)
  have fresh := sound.fresh entry inside
  have found : counters.used.find? (fun other => other.file == entry.file) = some entry :=
    Perms.find?_of_mem sound.distinct inside
  have count := counted.2 counters tracked entry.file
  rw [getFileExtentCount_eq, found] at count
  rw [FileCounter.Fresh] at fresh
  rw [id, fresh]
  simpa [mappedEntry] using count

theorem mem_names_iff (filed : m.Filed) (named : m.Named)
    (consistent : m.ctrl.zonemap.Consistent m.accepted) {counters : FileCounterMap}
    (tracked : m.ctrl.fileCounterMap = some counters) (file : CString) :
    file ∈ counters.names ↔ file ∈ (m.accepted.map Extent.content).map (·.file) := by
  rw [List.map_map, List.mem_map]
  constructor
  · intro listed
    exact named counters tracked file listed
  · rintro ⟨e, inside, rfl⟩
    exact filed.listed counters tracked e (consistent.complete.mem_iff.mpr inside)

theorem mappedEntry_congr (perm : (m.accepted.map Extent.content).Perm
    (n.accepted.map Extent.content)) : mappedEntry m.accepted = mappedEntry n.accepted := by
  funext file
  have counts : ∀ extents : List Extent, (extents.countP fun e => e.file == file) =
      (extents.map Extent.content).countP fun e => e.file == file := by
    intro extents
    rw [List.countP_map]
    rfl
  rw [mappedEntry, mappedEntry, counts, counts n.accepted, perm.countP_eq]

structure Walked (m : Machine) : Prop where
  consistent : m.ctrl.zonemap.Consistent m.accepted
  filed : m.Filed
  counted : m.Counted
  named : m.Named

theorem collected_tables (first : Walked m) (second : Walked n)
    (perm : (m.accepted.map Extent.content).Perm (n.accepted.map Extent.content))
    {a b : FileCounterMap} (here : m.ctrl.fileCounterMap = some a)
    (there : n.ctrl.fileCounterMap = some b) : SameTables a b := by
  have sound := first.filed.sound a here
  have healthy := second.filed.sound b there
  have names : a.names.Perm b.names := by
    rw [List.perm_ext_iff_of_nodup sound.distinct healthy.distinct]
    intro file
    rw [mem_names_iff first.filed first.named first.consistent here,
      mem_names_iff second.filed second.named second.consistent there, (perm.map _).mem_iff]
  refine ⟨?_, sound.distinct, sound.inside, healthy.inside⟩
  rw [used_eq first.filed first.counted here, used_eq second.filed second.counted there,
    mappedEntry_congr perm]
  exact names.map _

theorem zone_contents (first : Walked m) (second : Walked n)
    (perm : (m.accepted.map Extent.content).Perm (n.accepted.map Extent.content))
    (apart : (m.accepted.map Extent.phyBlk).Nodup) {index : Nat} {zone other : Zone}
    (here : m.ctrl.zonemap.zones[index]? = some zone)
    (there : n.ctrl.zonemap.zones[index]? = some other) :
    zone.extents.map Extent.content = other.extents.map Extent.content := by
  have own := (zone_extents_perm first.consistent here).map Extent.content
  have its := (zone_extents_perm second.consistent there).map Extent.content
  have select : ∀ extents : List Extent,
      (extents.filter fun e => e.zone.toNat == index).map Extent.content =
        (extents.map Extent.content).filter fun e => e.zone.toNat == index := by
    intro extents
    rw [List.filter_map]
    rfl
  rw [select] at own its
  have sorted : ∀ {extents : List Extent}, Sorted extents →
      (extents.map Extent.content).Pairwise StartsBefore := fun ordered => by
    rw [List.pairwise_map]
    exact ordered
  refine List.Perm.eq_of_pairwise ?_
    (sorted (first.consistent.sorted _ (List.mem_of_getElem? here)))
    (sorted (second.consistent.sorted _ (List.mem_of_getElem? there)))
    (own.trans ((perm.filter _).trans its.symm))
  intro e f inside member before after
  have starts : ((m.accepted.map Extent.content).map Extent.phyBlk).Nodup := by
    rw [List.map_map]
    exact apart
  have mine := (List.mem_filter.mp (own.mem_iff.mp inside)).1
  have theirs := perm.mem_iff.mpr (List.mem_filter.mp (its.mem_iff.mp member)).1
  exact List.inj_on_of_nodup_map starts mine theirs (UInt64.le_antisymm before after)

theorem zones_contents (first : Walked m) (second : Walked n)
    (length : m.ctrl.zonemap.zones.length = n.ctrl.zonemap.zones.length)
    (perm : (m.accepted.map Extent.content).Perm (n.accepted.map Extent.content))
    (apart : (m.accepted.map Extent.phyBlk).Nodup) :
    m.ctrl.zonemap.zones.map (fun zone => (zone.extentCtr, zone.extents.map Extent.content)) =
      n.ctrl.zonemap.zones.map fun zone => (zone.extentCtr, zone.extents.map Extent.content) := by
  refine List.ext_getElem? fun index => ?_
  rw [List.getElem?_map, List.getElem?_map]
  cases here : m.ctrl.zonemap.zones[index]? with
  | none =>
    rw [List.getElem?_eq_none_iff, length, ← List.getElem?_eq_none_iff] at here
    rw [here]
  | some zone =>
    obtain ⟨below, -⟩ := List.getElem?_eq_some_iff.mp here
    obtain ⟨other, there⟩ : ∃ other, n.ctrl.zonemap.zones[index]? = some other :=
      ⟨_, List.getElem?_eq_getElem (length ▸ below)⟩
    have contents := zone_contents first second perm apart here there
    rw [there, Option.map_some, Option.map_some, contents]
    have counters : zone.extentCtr = other.extentCtr := by
      rw [← UInt32.toNat_inj, first.consistent.counted _ (List.mem_of_getElem? here),
        second.consistent.counted _ (List.mem_of_getElem? there)]
      simpa using congrArg List.length contents
    rw [counters]

theorem scanned_contents (zonemap : ZoneMap) :
    zonemap.scanned.map (List.map Extent.content) =
      ((zonemap.zones.map fun zone => (zone.extentCtr, zone.extents.map Extent.content)).filter
        fun zone => zone.1 != 0).map Prod.snd := by
  rw [ZoneMap.scanned, List.map_map, List.filter_map, List.map_map]
  rfl

end Collected

/-- Two runs that mapped the same files in different orders. -/
structure Rearranged (m n : Machine) : Prop where
  first : Walked m
  second : Walked n
  zones : m.ctrl.zonemap.zones.length = n.ctrl.zonemap.zones.length
  perm : (m.accepted.map Extent.content).Perm (n.accepted.map Extent.content)
  tracked : m.ctrl.fileCounterMap.isSome = n.ctrl.fileCounterMap.isSome
  nrFiles : m.ctrl.nrFiles = n.ctrl.nrFiles
  inlined : m.ctrl.inlinedExtentCtr = n.ctrl.inlinedExtentCtr
  zoneCtr : m.ctrl.zonemap.zoneCtr = n.ctrl.zonemap.zoneCtr
  curSegment : m.ctrl.curSegment = n.ctrl.curSegment

section Report

variable {m n : Machine}

theorem Rearranged.scanned (rearranged : Rearranged m n)
    (apart : (m.accepted.map Extent.phyBlk).Nodup) :
    m.ctrl.zonemap.scanned.map (List.map Extent.content) =
      n.ctrl.zonemap.scanned.map (List.map Extent.content) := by
  rw [scanned_contents, scanned_contents, zones_contents rearranged.first rearranged.second
    rearranged.zones rearranged.perm apart]

theorem Rearranged.tables (rearranged : Rearranged m n) :
    Option.Rel SameTables m.ctrl.fileCounterMap n.ctrl.fileCounterMap := by
  have both := rearranged.tracked
  cases here : m.ctrl.fileCounterMap with
  | none =>
    cases there : n.ctrl.fileCounterMap with
    | none => exact .none
    | some b => simp [here, there] at both
  | some a =>
    cases there : n.ctrl.fileCounterMap with
    | none => simp [here, there] at both
    | some b =>
      exact .some (collected_tables rearranged.first rearranged.second rearranged.perm here there)

theorem Rearranged.mirrored (rearranged : Rearranged m n) : ∃ names,
    Mirrored names (ReportState.start m.ctrl) (ReportState.start n.ctrl) ∧
      ∀ extents ∈ m.ctrl.zonemap.scanned, ∀ e ∈ extents, e.file ∈ names := by
  have tables := rearranged.tables
  cases here : m.ctrl.fileCounterMap with
  | none =>
    rw [here] at tables
    refine ⟨[], ⟨rfl, rearranged.curSegment, ?_⟩, fun extents listed e inside => ?_⟩
    · rw [ReportState.start, ReportState.start, here]
      cases there : n.ctrl.fileCounterMap with
      | none => exact .none
      | some b =>
        rw [there] at tables
        cases tables
    · have empty := (rearranged.first.filed.started here).2.2
      have member := mem_scanned listed inside
      rw [empty] at member
      cases member
  | some a =>
    rw [here] at tables
    refine ⟨a.names, ⟨rfl, rearranged.curSegment, ?_⟩, fun extents listed e inside => ?_⟩
    · rw [ReportState.start, ReportState.start, here]
      cases there : n.ctrl.fileCounterMap with
      | none =>
        rw [there] at tables
        cases tables
      | some b =>
        rw [there] at tables
        cases tables with
        | some same => exact .some ⟨same, rfl⟩
    · exact rearranged.first.filed.listed a here e (mem_scanned listed inside)

-- The lines of the mappings are the same, and the statistics are, up to the order of the files.
def SameReport (first second : List Line × List StatsLine) : Prop :=
  first.1 = second.1 ∧ first.2.Perm second.2

theorem showSegmentStats_same {cfg : Config} (rearranged : Rearranged m n) {names : List CString}
    {a b : ReportState} (mirrored : Mirrored names a b) :
    Agree List.Perm (showSegmentStats cfg m.ctrl a) (showSegmentStats cfg n.ctrl b) := by
  have files : Agree List.Perm (fileStatsLines cfg m.ctrl a) (fileStatsLines cfg n.ctrl b) := by
    rw [fileStatsLines, fileStatsLines, rearranged.nrFiles]
    split
    · refine (deref_same mirrored.tables).bind fun ca cb both => ?_
      exact .ok (both.1.entries.map StatsLine.file)
    · exact .ok (.refl _)
  rw [showSegmentStats, showSegmentStats, rearranged.inlined]
  refine files.bind fun first second perm => .ok ?_
  exact perm.append_left _

theorem showSegmentReport_same (cfg : Config) (dev : Device) (fuel : Nat → Nat)
    (rearranged : Rearranged m n) (apart : (m.accepted.map Extent.phyBlk).Nodup) :
    Together SameReport (showSegmentReport cfg dev (fun extents => fuel extents.length) m.ctrl)
      (showSegmentReport cfg dev (fun extents => fuel extents.length) n.ctrl) := by
  obtain ⟨names, start, listed⟩ := rearranged.mirrored
  have lists := (Perms.forall₂_of_map_eq (rearranged.scanned apart) listed).imp
    fun _ _ both => Perms.forall₂_of_map_eq both.1 both.2
  have loops : Together (SameOutput (Mirrored names))
      (showSegments cfg dev (fun extents => fuel extents.length) m.ctrl)
      (showSegments cfg dev (fun extents => fuel extents.length) n.ctrl) :=
    scans_together (fun _ _ related => related) (fun _ _ related => .ok related)
      (fun e f both _ _ mirrored => showExtentTurn_same both.1 both.2 _ _ mirrored)
      (fun items twins both => congrArg fuel both.length_eq) lists start
  refine Together.map loops fun run twin both => ?_
  refine both.bind fun first second ⟨mirrored, outs⟩ => ?_
  refine (showSegmentStats_same rearranged mirrored).bind fun stats others perm => .ok ⟨?_, perm⟩
  rw [List.flatMap_def, List.flatMap_def, outs]

end Report

end ZnsTools
