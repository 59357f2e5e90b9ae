import ZnsTools.DirectoryOrder
import ZnsTools.TableBounds

set_option autoImplicit false

namespace ZnsTools

open PyText (Text)

-- `sizeof(struct segment_info)`
def getFsInfoBytes : UInt32 := 12

-- The end of `check_dir_init_ctrl` on F2FS; `cfg` is what was set up before.
def checkDirInitCtrl (cfg : Config) (procfs : Procfs) (devName : Text)
    (segmentCountMain : UInt32) : Except Abort Config := do
  let fsManager ← f2fsFsManagerInit procfs devName segmentCountMain
  pure { cfg with fsManager := fsManager, fsInfoBytes := getFsInfoBytes }

-- zns.segmap on a directory, up to the report.
def segmapCollect (cfg : Config) (procfs : Procfs) (devName : Text) (segmentCountMain : UInt32)
    (heap : Nat → FileCounter) (dir : CString) (listing : Listing) : Except Abort Machine := do
  let cfg ← checkDirInitCtrl cfg procfs devName segmentCountMain
  collectExtents cfg heap dir listing (Machine.start cfg)

section Erasure

-- Everything but the segment information of the extents.

def Extent.withoutInfo (e : Extent) : Extent :=
  { e with fsInfo := none }

def Zone.withoutInfo (zone : Zone) : Zone :=
  { zone with extents := zone.extents.map Extent.withoutInfo }

def ZoneMap.withoutInfo (zonemap : ZoneMap) : ZoneMap :=
  { zonemap with zones := zonemap.zones.map Zone.withoutInfo }

def Control.withoutInfo (ctrl : Control) : Control :=
  { ctrl with zonemap := ctrl.zonemap.withoutInfo }

def Machine.withoutInfo (m : Machine) : Machine :=
  { m with ctrl := m.ctrl.withoutInfo, accepted := m.accepted.map Extent.withoutInfo }

def Config.withoutInfo (cfg : Config) : Config :=
  { cfg with fsManager := none, fsInfoBytes := 0 }

variable {cfg : Config}

theorem sortedZoneListInsert_withoutInfo (extents : List Extent) (node : Extent) :
    (sortedZoneListInsert extents node).map Extent.withoutInfo =
      sortedZoneListInsert (extents.map Extent.withoutInfo) node.withoutInfo := by
  induction extents with
  | nil => rfl
  | cons current next ih =>
    rw [List.map_cons, sortedZoneListInsert, sortedZoneListInsert]
    change _ = if current.phyBlk < node.phyBlk then _ else _
    split
    · rw [List.map_cons, ih]
    · rfl

theorem addExtentToZoneList_withoutInfo {zonemap filed : ZoneMap} {extent : Extent}
    (added : addExtentToZoneList zonemap extent = .ok filed) :
    addExtentToZoneList zonemap.withoutInfo extent.withoutInfo = .ok filed.withoutInfo := by
  obtain ⟨zone, found, rfl⟩ := addExtentToZoneList_ok added
  have erased : zonemap.withoutInfo.zones[extent.withoutInfo.zone.toNat]? =
      some zone.withoutInfo := by
    rw [ZoneMap.withoutInfo, List.getElem?_map]
    exact congrArg (Option.map Zone.withoutInfo) found
  have inserted : (if zone.extentCtr = 0 then insertZoneListHead extent.withoutInfo
        else sortedZoneListInsert (zone.extents.map Extent.withoutInfo) extent.withoutInfo) =
      (if zone.extentCtr = 0 then insertZoneListHead extent
        else sortedZoneListInsert zone.extents extent).map Extent.withoutInfo := by
    split
    · rfl
    · exact (sortedZoneListInsert_withoutInfo _ _).symm
  rw [addExtentToZoneList, erased]
  simp only [ZoneMap.withoutInfo, Zone.withoutInfo, List.map_set]
  rw [← inserted]
  rfl

theorem getZoneInfo_withoutInfo {dev : Device} {extent found : Extent}
    (reported : getZoneInfo cfg dev extent = .ok found) :
    getZoneInfo cfg.withoutInfo dev extent.withoutInfo = .ok found.withoutInfo := by
  have same : dev (cfg.withoutInfo.zoneSectors * extent.withoutInfo.zone.toUInt64) =
      dev (cfg.zoneSectors * extent.zone.toUInt64) := rfl
  rw [getZoneInfo] at reported ⊢
  rw [same]
  cases answer : dev (cfg.zoneSectors * extent.zone.toUInt64) with
  | openFailed =>
    rw [answer] at reported
    cases reported
    rfl
  | ioctlFailed =>
    rw [answer] at reported
    cases reported
  | zone report =>
    rw [answer] at reported
    cases reported
    rfl

theorem newExtent_withoutInfo {dev : Device} {nrFiles : UInt32} {call : Call} {fm : FiemapExtent}
    {extent : Extent} (made : newExtent cfg dev nrFiles call fm = .ok extent) :
    newExtent cfg.withoutInfo dev nrFiles call fm = .ok extent.withoutInfo := by
  obtain ⟨zone, numbered, made⟩ := Runs.bind_ok made
  obtain ⟨located, reported, made⟩ := Runs.bind_ok made
  obtain ⟨⟨fsInfo, rfl⟩, -⟩ := setFsInfo_ok made
  have number : getZoneNumber cfg.withoutInfo
      (physicalBlk cfg.withoutInfo fm <<< cfg.withoutInfo.znsSectorShift.toUInt64) = .ok zone :=
    numbered
  have answer : getZoneInfo cfg.withoutInfo dev
      (mappedExtent cfg.withoutInfo nrFiles call fm zone) = .ok located.withoutInfo :=
    getZoneInfo_withoutInfo reported
  rw [newExtent, number, Runs.ok_bind, answer, Runs.ok_bind]
  rfl

theorem acceptExtent_withoutInfo {dev : Device} {call : Call} {fm : FiemapExtent}
    {ctrl stored : Control} {accepted : Option Extent}
    (taken : acceptExtent cfg dev call fm ctrl = .ok (stored, accepted)) :
    acceptExtent cfg.withoutInfo dev call fm ctrl.withoutInfo =
      .ok (stored.withoutInfo, accepted.map Extent.withoutInfo) := by
  have skips : disregarded cfg.withoutInfo fm = disregarded cfg fm := rfl
  rw [acceptExtent, skips]
  rcases acceptExtent_ok taken with ⟨skip, rfl, rfl⟩ | ⟨keep, extent, rfl, made, filed⟩
  · rw [if_pos skip]
    rfl
  · obtain ⟨zonemap, added, rfl⟩ := storeExtent_ok filed
    rw [if_neg (by simp [keep])]
    change (newExtent cfg.withoutInfo dev ctrl.nrFiles call fm >>= _) = _
    rw [newExtent_withoutInfo made, Runs.ok_bind, storeExtent]
    change (addExtentToZoneList ctrl.zonemap.withoutInfo _ >>= _ : Except Abort Control) >>= _ = _
    rw [addExtentToZoneList_withoutInfo added]
    rfl

theorem getExtentsTurn_withoutInfo {dev : Device} {call : Call} {reply : FiemapReply}
    {ctrl next : Control} {accepted : Option Extent} {progress : Progress}
    (turn : getExtentsTurn cfg dev call reply ctrl = .ok (next, accepted, progress)) :
    getExtentsTurn cfg.withoutInfo dev call reply ctrl.withoutInfo =
      .ok (next.withoutInfo, accepted.map Extent.withoutInfo, progress) := by
  rw [getExtentsTurn.eq_def] at turn ⊢
  split at turn
  · cases turn
    rfl
  · next n fm =>
    dsimp only at turn ⊢
    split at turn
    · cases turn
    · next some_mapped =>
      obtain ⟨⟨stored, filed⟩, taken, rest⟩ := Runs.bind_ok turn
      rw [if_neg some_mapped, acceptExtent_withoutInfo taken, Runs.ok_bind]
      dsimp only at rest ⊢
      rw [Option.isSome_map]
      by_cases inlined : (fm.feFlags &&& fiemapExtentDataInline != 0) = true <;>
        by_cases last : (fm.feFlags &&& fiemapExtentLast != 0) = true <;>
        simp only [inlined, last, if_true, if_false, Bool.false_eq_true] at rest ⊢ <;>
        cases rest <;> rfl

theorem step_withoutInfo {m next : Machine} {event : Event}
    (moved : step cfg m event = .ok next) :
    step cfg.withoutInfo m.withoutInfo event = .ok next.withoutInfo := by
  have same : m.withoutInfo.call = m.call := rfl
  rw [step.eq_def] at moved ⊢
  rw [same]
  cases event with
  | call filename stBlocks heap =>
    cases pending : m.call with
    | some call =>
      rw [pending] at moved
      cases moved
      rfl
    | none =>
      rw [pending] at moved
      cases moved
      rfl
  | reply dev reply =>
    cases pending : m.call with
    | none =>
      rw [pending] at moved
      cases moved
      rfl
    | some call =>
      rw [pending] at moved
      obtain ⟨⟨ctrl, accepted, progress⟩, turn, done⟩ := Runs.bind_ok moved
      cases done
      have erased : getExtentsTurn cfg.withoutInfo dev call reply m.withoutInfo.ctrl = _ :=
        getExtentsTurn_withoutInfo turn
      dsimp only
      rw [erased]
      cases accepted <;> simp [Runs.ok_bind, Machine.withoutInfo, pure, Except.pure]

theorem events_withoutInfo {events : List Event} {m next : Machine}
    (run : events.foldlM (step cfg) m = .ok next) :
    events.foldlM (step cfg.withoutInfo) m.withoutInfo = .ok next.withoutInfo := by
  induction events generalizing m with
  | nil =>
    cases run
    rfl
  | cons event rest ih =>
    rw [List.foldlM_cons] at run ⊢
    obtain ⟨middle, moved, later⟩ := Runs.bind_ok run
    rw [step_withoutInfo moved]
    exact ih later

theorem collectFile_withoutInfo {heap : Nat → FileCounter} {filename : CString} {file : FileEntry}
    {m next : Machine} (done : collectFile cfg heap filename file m = .ok next) :
    collectFile cfg.withoutInfo heap filename file m.withoutInfo = .ok next.withoutInfo := by
  rw [collectFile.eq_def] at done ⊢
  split at done
  · cases done
    rfl
  · cases done
  · obtain ⟨mapped, run, checked⟩ := Runs.bind_ok done
    have erased : (file.call filename (heap m.withoutInfo.opened)).events.foldlM
        (step cfg.withoutInfo) m.withoutInfo = .ok mapped.withoutInfo := events_withoutInfo run
    rw [erased, Runs.ok_bind]
    change (if mapped.failed = true then _ else if mapped.ctrl.zonemap.extentCtr = 0 then _ else _) = _
    split at checked
    · cases checked
    · next success =>
      split at checked
      · cases checked
      · next some_extent =>
        cases checked
        rw [if_neg success, if_neg some_extent]

theorem collectExtents_withoutInfo {heap : Nat → FileCounter} {path : CString} {listing : Listing}
    {m next : Machine} (done : collectExtents cfg heap path listing m = .ok next) :
    collectExtents cfg.withoutInfo heap path listing m.withoutInfo = .ok next.withoutInfo := by
  rw [collectExtents_eq] at done ⊢
  generalize listing.visits path = visits at done ⊢
  induction visits generalizing m with
  | nil =>
    cases done
    rfl
  | cons v rest ih =>
    rw [List.foldlM_cons] at done ⊢
    obtain ⟨middle, visited, later⟩ := Runs.bind_ok done
    have erased : visit cfg.withoutInfo heap m.withoutInfo v = .ok middle.withoutInfo := by
      cases v with
      | closedDir => cases visited
      | file filename file => exact collectFile_withoutInfo visited
    rw [erased]
    exact ih later

theorem start_withoutInfo (cfg : Config) : (Machine.start cfg).withoutInfo = Machine.start cfg := by
  simp [Machine.start, Machine.withoutInfo, Control.withoutInfo, initControl, ZoneMap.withoutInfo,
    initZoneMap, Zone.withoutInfo]

end Erasure

section Missing

variable {cfg : Config} {heap : Nat → FileCounter}

theorem events_nothing (absent : cfg.fsManager = none) (informed : 0 < cfg.fsInfoBytes)
    {events : List Event} {m next : Machine} (run : events.foldlM (step cfg) m = .ok next) :
    next.ctrl.zonemap = m.ctrl.zonemap := by
  refine Runs.foldlM_invariant (fun state => state.ctrl.zonemap = m.ctrl.zonemap) ?_ run rfl
  intro state event _ next holds moved
  rcases step_zonemap moved with ⟨same, -⟩ | ⟨extent, ctrl, collected, -⟩
  · exact same.trans holds
  · obtain ⟨segI, -, looked⟩ := collected.fsInfo informed
    rw [absent] at looked
    cases looked

theorem visits_nothing (absent : cfg.fsManager = none) (informed : 0 < cfg.fsInfoBytes)
    (visits : List Visit) {m last : Machine} (empty : m.ctrl.zonemap.extentCtr = 0)
    (done : visits.foldlM (visit cfg heap) m = .ok last) :
    ∀ filename file, Visit.file filename file ∈ visits → file.access ≠ .opened := by
  induction visits generalizing m with
  | nil =>
    intro filename file inside
    cases inside
  | cons v rest ih =>
    rw [List.foldlM_cons] at done
    obtain ⟨middle, visited, later⟩ := Runs.bind_ok done
    cases v with
    | closedDir => cases visited
    | file filename file =>
      cases access : file.access with
      | denied =>
        rw [visit, collectFile, access] at visited
        cases visited
      | deleted =>
        rw [visit, collectFile, access] at visited
        cases visited
        intro other listed inside
        rcases List.mem_cons.mp inside with same | inside
        · cases same
          simp [access]
        · exact ih empty later other listed inside
      | opened =>
        rw [visit, collectFile, access] at visited
        obtain ⟨mapped, run, checked⟩ := Runs.bind_ok visited
        have none_filed := events_nothing absent informed run
        split at checked
        · cases checked
        · rw [none_filed, if_pos empty] at checked
          cases checked

theorem visits_skipped (visits : List Visit) {other : Config} {m last : Machine}
    (gone : ∀ filename file, Visit.file filename file ∈ visits → file.access ≠ .opened)
    (done : visits.foldlM (visit other heap) m = .ok last) :
    visits.foldlM (visit cfg heap) m = .ok m ∧ last = m := by
  induction visits with
  | nil =>
    cases done
    exact ⟨rfl, rfl⟩
  | cons v rest ih =>
    rw [List.foldlM_cons] at done ⊢
    obtain ⟨middle, visited, later⟩ := Runs.bind_ok done
    cases v with
    | closedDir => cases visited
    | file filename file =>
      cases access : file.access with
      | denied =>
        rw [visit, collectFile, access] at visited
        cases visited
      | deleted =>
        rw [visit, collectFile, access] at visited
        cases visited
        have skipped : visit cfg heap m (.file filename file) = .ok m := by
          rw [visit, collectFile, access]
        rw [skipped]
        exact ih
          (fun filename file inside => gone filename file (List.mem_cons_of_mem _ inside)) later
      | opened => exact absurd access (gone filename file List.mem_cons_self)

end Missing

theorem checkDirInitCtrl_missing (cfg : Config) {procfs : Procfs} {devName : Text}
    (segmentCountMain : UInt32) (short : devName.length < maxDevName)
    (missing : procfs (segmentInfoPath devName) = none) :
    checkDirInitCtrl cfg procfs devName segmentCountMain =
      .ok { cfg with fsManager := none, fsInfoBytes := getFsInfoBytes } := by
  rw [checkDirInitCtrl, f2fsFsManagerInit, initProcfsSegmentBits,
    if_neg (Nat.not_le.mpr (segmentInfoPath_short short)), missing]
  rfl

/-- A directory that can be mapped with the segment table is mapped without it, too, exactly when
no file in it is there to be mapped: the first extent is looked up in the table all the same. Had
`fs_info_bytes` been left at 0, it would always be mapped. -/
theorem missing_procfs_degrades_iff (cfg : Config) (procfs missing : Procfs) (devName : Text)
    (segmentCountMain : UInt32) (heap : Nat → FileCounter) (dir : CString) (listing : Listing)
    (m : Machine) (short : devName.length < maxDevName)
    (unopened : missing (segmentInfoPath devName) = none)
    (complete : segmapCollect cfg procfs devName segmentCountMain heap dir listing = .ok m) :
    ((∃ n, segmapCollect cfg missing devName segmentCountMain heap dir listing = .ok n ∧
        n.ctrl.zonemap.withoutInfo = m.ctrl.zonemap.withoutInfo) ↔
      ∀ filename file, Visit.file filename file ∈ listing.visits dir → file.access ≠ .opened) ∧
    collectExtents cfg.withoutInfo heap dir listing (Machine.start cfg) = .ok m.withoutInfo := by
  obtain ⟨informed, ready, collected⟩ := Runs.bind_ok complete
  obtain ⟨manager, -, made⟩ := Runs.bind_ok ready
  cases made
  have erased := collectExtents_withoutInfo collected
  rw [start_withoutInfo] at erased
  refine ⟨?_, erased⟩
  have set_up := checkDirInitCtrl_missing cfg segmentCountMain short unopened
  rw [collectExtents_eq] at collected
  rw [segmapCollect, set_up, Runs.ok_bind, collectExtents_eq]
  constructor
  · rintro ⟨n, done, -⟩
    have informed : 0 < getFsInfoBytes := by decide
    exact visits_nothing rfl informed _ rfl done
  · intro gone
    obtain ⟨same, rfl⟩ := visits_skipped _ gone collected
    exact ⟨_, same, rfl⟩

def oneFileDirectory : Listing :=
  .cons dataFile .nil

theorem missing_procfs_crashes :
    let mapped := fun procfs : Procfs => segmapCollect warmConfig procfs ['s', 'd', 'a'] 8
      (fun _ => FileCounter.zero) [47] oneFileDirectory
    (∃ m, mapped (onlyFile (rowsOfOne 8)) = .ok m ∧ m.accepted.length = 1) ∧
      mapped (fun _ => none) = .error .badAccess := by
  intro mapped
  have complete : (mapped (onlyFile (rowsOfOne 8))).map (·.accepted.length) = .ok 1 := by
    decide +kernel
  exact ⟨Runs.map_ok complete, by decide +kernel⟩

theorem lastExtent_ends : fiemapExtentLast &&& 1 ≠ 0 := by
  decide

def deletedFile : DirEntry :=
  .file { oneExtentFile [97] ⟨0, 8192, 4096, fiemapExtentLast⟩ lastExtent_ends with
    access := .deleted }

theorem missing_procfs_nothing_to_map :
    ∃ n, segmapCollect warmConfig (fun _ => none) ['s', 'd', 'a'] 8 (fun _ => FileCounter.zero) [47]
        (.cons deletedFile .nil) = .ok n ∧
      n.ctrl.zonemap.withoutInfo = (initZoneMap 2).withoutInfo := by
  have complete : (segmapCollect warmConfig (onlyFile (rowsOfOne 8)) ['s', 'd', 'a'] 8
      (fun _ => FileCounter.zero) [47] (.cons deletedFile .nil)).map (·.ctrl.zonemap) =
        .ok (initZoneMap 2) := by
    decide +kernel
  obtain ⟨m, mapped, empty⟩ := Runs.map_ok complete
  have gone : ∀ filename file, Visit.file filename file ∈
      (Listing.cons deletedFile .nil).visits [47] → file.access ≠ .opened := by
    intro filename file inside
    obtain ⟨-, rfl⟩ := Visit.file.inj (List.mem_singleton.mp inside)
    simp
  obtain ⟨n, done, same⟩ := (missing_procfs_degrades_iff warmConfig (onlyFile (rowsOfOne 8))
    (fun _ => none) ['s', 'd', 'a'] 8 _ [47] _ m (by decide) rfl mapped).1.mpr gone
  exact ⟨n, done, by rw [same, empty]⟩

end ZnsTools
