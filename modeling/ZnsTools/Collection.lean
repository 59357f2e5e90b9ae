import ZnsTools.GetExtents
import ZnsTools.Shared.Runs

set_option autoImplicit false

namespace ZnsTools

-- What can happen while files are mapped: a call of `get_extents` (`heap` is what `realloc`
-- finds in a new table entry), and an answer of the kernel to the call's pending ioctl.
inductive Event where
  | call (filename : CString) (stBlocks : UInt64) (heap : FileCounter)
  | reply (dev : Device) (reply : FiemapReply)

-- `accepted`, `opened` and `failed` only record history: the extents filed so far, the number of
-- calls, and whether one of them returned EXIT_FAILURE, on which every tool exits.
structure Machine where
  ctrl : Control
  call : Option Call
  accepted : List Extent
  opened : Nat
  failed : Bool
  deriving DecidableEq, Repr

def Machine.start (cfg : Config) : Machine :=
  { ctrl := initControl cfg, call := none, accepted := [], opened := 0, failed := false }

def Progress.call : Progress → Option Call
  | .more call => some call
  | .done _ => none

def Progress.failed : Progress → Bool
  | .more _ => false
  | .done success => !success

-- Events that do not fit the state cannot occur and are passed over.
def step (cfg : Config) (m : Machine) : Event → Except Abort Machine
  | .call filename stBlocks heap =>
    match m.call with
    | some _ => .ok m
    | none => .ok { m with
        ctrl := { m.ctrl with fileCounterMap := some (allocFileCounter m.ctrl heap) }
        call := some (openCall filename stBlocks)
        opened := m.opened + 1 }
  | .reply dev reply =>
    match m.call with
    | none => .ok m
    | some call => do
      let (ctrl, accepted, progress) ← getExtentsTurn cfg dev call reply m.ctrl
      pure { ctrl := ctrl
             call := progress.call
             accepted := m.accepted ++ accepted.toList
             opened := m.opened
             failed := m.failed || progress.failed }

def collect (cfg : Config) (events : List Event) : Except Abort Machine :=
  events.foldlM (step cfg) (Machine.start cfg)

-- The control that zns.segmap sets up for an F2FS directory when no option is given but -d.
def segmapConfig (sectorSize : UInt32) (offset zoneSize : UInt64) (nrZones : UInt32)
    (segments : List SegmentInfo) : Config :=
  { toGeometry := initGeometry sectorSize
    znsdev := ⟨nrZones, zoneSize, (~~~(zoneSize - 1)).toUInt32⟩
    offset := offset
    excludeFlags := fiemapExtentDataInline
    startZone := 1
    endZone := nrZones
    showClassStats := false
    showOnlyStats := false
    procfs := false
    isdir := true
    fsInfoBytes := 12
    fsManager := some ⟨segments.length.toUInt32, segments⟩ }

def fullZones (cfg : Config) : Device := fun sector =>
  .zone ⟨sector, cfg.zoneSectors, sector + cfg.zoneSectors, 14, cfg.zoneSectors⟩

def mapFile (cfg : Config) (filename : CString) (stBlocks : UInt64)
    (extents : List FiemapExtent) : List Event :=
  .call filename stBlocks FileCounter.zero ::
    extents.map fun fm => .reply (fullZones cfg) (.mapped 1 fm)

def collected (cfg : Config) (events : List Event) : Control :=
  match collect cfg events with
  | .ok m => m.ctrl
  | .error _ => initControl cfg

section Turn

variable {cfg : Config} {dev : Device} {call : Call} {reply : FiemapReply} {ctrl ctrl' : Control}
  {accepted : Option Extent} {progress : Progress}

theorem acceptExtent_ok {fm : FiemapExtent}
    (result : acceptExtent cfg dev call fm ctrl = .ok (ctrl', accepted)) :
    disregarded cfg fm = true ∧ ctrl' = ctrl ∧ accepted = none ∨
      disregarded cfg fm = false ∧ ∃ extent, accepted = some extent ∧
        newExtent cfg dev ctrl.nrFiles call fm = .ok extent ∧
        storeExtent ctrl extent = .ok ctrl' := by
  rw [acceptExtent] at result
  split at result
  · next skip =>
    cases result
    exact .inl ⟨skip, rfl, rfl⟩
  · next taken =>
    obtain ⟨extent, made, result⟩ := Runs.bind_ok result
    obtain ⟨stored, filed, result⟩ := Runs.bind_ok result
    cases result
    exact .inr ⟨by simpa using taken, extent, rfl, made, filed⟩

theorem getExtentsTurn_ok
    (result : getExtentsTurn cfg dev call reply ctrl = .ok (ctrl', accepted, progress)) :
    reply = .ioctlFailed ∧ ctrl' = ctrl ∧ accepted = none ∧ progress = .done false ∨
      ∃ n fm, reply = .mapped n fm ∧ n ≠ 0 ∧ ∃ stored,
        acceptExtent cfg dev call fm ctrl = .ok (stored, accepted) ∧
        ctrl'.zonemap = stored.zonemap ∧ ctrl'.fileCounterMap = stored.fileCounterMap ∧
        (fm.feFlags &&& fiemapExtentLast ≠ 0 ∧ progress = .done true ∧
            ctrl'.nrFiles = ctrl.nrFiles + 1 ∨
          fm.feFlags &&& fiemapExtentLast = 0 ∧ ctrl'.nrFiles = ctrl.nrFiles ∧
            progress = .more { call with
              fiemap := { call.fiemap with fmStart := fm.feLogical + fm.feLength }
              extCtr := if accepted.isSome then call.extCtr + 1 else call.extCtr }) := by
  rw [getExtentsTurn.eq_def] at result
  split at result
  · cases result
    exact .inl ⟨rfl, rfl, rfl, rfl⟩
  · next n fm =>
    split at result
    · cases result
    · next some_mapped =>
      obtain ⟨⟨stored, extent⟩, taken, result⟩ := Runs.bind_ok result
      have files : stored.nrFiles = ctrl.nrFiles := by
        rcases acceptExtent_ok taken with ⟨-, rfl, -⟩ | ⟨-, e, -, -, filed⟩
        · rfl
        · obtain ⟨zonemap, -, done⟩ := Runs.bind_ok filed
          cases done
          rfl
      refine .inr ⟨n, fm, rfl, some_mapped, ?_⟩
      by_cases inlined : fm.feFlags &&& fiemapExtentDataInline = 0 <;>
        by_cases last : fm.feFlags &&& fiemapExtentLast = 0 <;>
        simp only [inlined, last, bne_self_eq_false, bne_iff_ne, ne_eq, not_false_eq_true,
          Bool.false_eq_true, if_true, if_false, pure, Except.pure, Except.ok.injEq,
          Prod.mk.injEq] at result <;>
        obtain ⟨rfl, rfl, rfl⟩ := result <;>
        exact ⟨stored, taken, by simp [last, files]⟩

end Turn

structure Collected (cfg : Config) (e : Extent) : Prop where
  zone : getZoneNumber cfg (e.phyBlk <<< cfg.znsSectorShift.toUInt64) = .ok e.zone
  phyBlk : ∃ bytes : UInt64, e.phyBlk = bytes >>> cfg.sectorShift.toUInt64
  len : ∃ bytes : UInt64, e.len = bytes >>> cfg.sectorShift.toUInt64
  fsInfo : 0 < cfg.fsInfoBytes → ∃ segI, e.fsInfo = some segI ∧
    fsInfoInitialize cfg.fsManager (cfg.segmentId e.phyBlk).toUInt32 = .ok segI
  file : e.file.length < maxFileLength

theorem sectors_small {g : Geometry} (supported : g.Supported) (bytes : UInt64) :
    (bytes >>> g.sectorShift.toUInt64).toNat < 2 ^ 55 := by
  obtain ⟨least, most⟩ := supported.sectorShift
  have bound := bytes.toNat_lt
  rw [AlignDown.shiftRight_toNat _ _ g.sectorShift.toNat (by omega) (by simp)]
  have wide : 2 ^ 9 ≤ 2 ^ g.sectorShift.toNat := Nat.pow_le_pow_right (by decide) least
  exact Nat.div_lt_of_lt_mul (by omega)

namespace Collected

variable {cfg : Config} {e : Extent}

theorem phyBlk_small (collected : Collected cfg e) (supported : cfg.toGeometry.Supported) :
    e.phyBlk.toNat < 2 ^ 55 := by
  obtain ⟨bytes, exact⟩ := collected.phyBlk
  exact exact ▸ sectors_small supported bytes

theorem len_small (collected : Collected cfg e) (supported : cfg.toGeometry.Supported) :
    e.len.toNat < 2 ^ 55 := by
  obtain ⟨bytes, exact⟩ := collected.len
  exact exact ▸ sectors_small supported bytes

end Collected

theorem getZoneInfo_ok {cfg : Config} {dev : Device} {extent found : Extent}
    (result : getZoneInfo cfg dev extent = .ok found) :
    ∃ zoneWp zoneLbae zoneCap zoneLbas, found = { extent with
      zoneWp := zoneWp, zoneLbae := zoneLbae, zoneCap := zoneCap, zoneLbas := zoneLbas } := by
  rw [getZoneInfo] at result
  split at result
  · cases result
    exact ⟨_, _, _, _, rfl⟩
  · cases result
  · cases result
    exact ⟨_, _, _, _, rfl⟩

theorem setFsInfo_ok {cfg : Config} {extent found : Extent}
    (result : setFsInfo cfg extent = .ok found) :
    (∃ fsInfo, found = { extent with fsInfo := fsInfo }) ∧
      (0 < cfg.fsInfoBytes → ∃ segI, found.fsInfo = some segI ∧
        fsInfoInitialize cfg.fsManager (cfg.segmentId extent.phyBlk).toUInt32 = .ok segI) := by
  rw [setFsInfo] at result
  split at result
  · obtain ⟨segI, looked, result⟩ := Runs.bind_ok result
    cases result
    exact ⟨⟨_, rfl⟩, fun _ => ⟨segI, rfl, looked⟩⟩
  · next none =>
    cases result
    exact ⟨⟨_, rfl⟩, fun some => absurd some none⟩

theorem newExtent_collected {cfg : Config} {dev : Device} {nrFiles : UInt32} {call : Call}
    {fm : FiemapExtent} {extent : Extent}
    (result : newExtent cfg dev nrFiles call fm = .ok extent) : Collected cfg extent := by
  obtain ⟨zone, numbered, result⟩ := Runs.bind_ok result
  obtain ⟨located, reported, result⟩ := Runs.bind_ok result
  obtain ⟨wp, lbae, cap, lbas, rfl⟩ := getZoneInfo_ok reported
  obtain ⟨⟨fsInfo, rfl⟩, looked⟩ := setFsInfo_ok result
  exact ⟨numbered, ⟨_, rfl⟩, ⟨_, rfl⟩, looked, by simp [mappedExtent, maxFileLength]⟩

theorem storeExtent_ok {ctrl ctrl' : Control} {extent : Extent}
    (result : storeExtent ctrl extent = .ok ctrl') :
    ∃ zonemap, addExtentToZoneList ctrl.zonemap extent = .ok zonemap ∧
      ctrl' = { ctrl with
        zonemap := { zonemap with
          extentCtr := zonemap.extentCtr + 1
          cumExtentSize := zonemap.cumExtentSize + extent.len
          zoneCtr := zonemap.zoneCtr + 1 }
        fileCounterMap := ctrl.fileCounterMap.map (increaseFileExtentCounter extent.file) } := by
  obtain ⟨zonemap, filed, done⟩ := Runs.bind_ok result
  cases done
  exact ⟨zonemap, filed, rfl⟩

theorem step_cases {cfg : Config} {m next : Machine} {event : Event}
    (moved : step cfg m event = .ok next) :
    next = m ∨
      (∃ filename stBlocks heap, m.call = none ∧ next = { m with
        ctrl := { m.ctrl with fileCounterMap := some (allocFileCounter m.ctrl heap) }
        call := some (openCall filename stBlocks)
        opened := m.opened + 1 }) ∨
      ∃ dev reply call ctrl accepted progress, event = .reply dev reply ∧ m.call = some call ∧
        getExtentsTurn cfg dev call reply m.ctrl = .ok (ctrl, accepted, progress) ∧
        next = ⟨ctrl, progress.call, m.accepted ++ accepted.toList, m.opened,
          m.failed || progress.failed⟩ := by
  rw [step.eq_def] at moved
  split at moved
  · next filename stBlocks heap =>
    split at moved
    · cases moved
      exact .inl rfl
    · next idle =>
      cases moved
      exact .inr (.inl ⟨filename, stBlocks, heap, idle, rfl⟩)
  · next dev reply =>
    split at moved
    · cases moved
      exact .inl rfl
    · next call pending =>
      obtain ⟨⟨ctrl, accepted, progress⟩, turn, done⟩ := Runs.bind_ok moved
      cases done
      exact .inr (.inr ⟨dev, reply, call, ctrl, accepted, progress, rfl, pending, turn, rfl⟩)

theorem step_zonemap {cfg : Config} {m next : Machine} {event : Event}
    (moved : step cfg m event = .ok next) :
    next.ctrl.zonemap = m.ctrl.zonemap ∧ next.accepted = m.accepted ∨
      ∃ extent ctrl, Collected cfg extent ∧ storeExtent m.ctrl extent = .ok ctrl ∧
        next.ctrl.zonemap = ctrl.zonemap ∧ next.accepted = m.accepted ++ [extent] := by
  rcases step_cases moved with
    rfl | ⟨_, _, _, -, rfl⟩ | ⟨_, _, _, ctrl, accepted, _, -, -, turn, rfl⟩
  · exact .inl ⟨rfl, rfl⟩
  · exact .inl ⟨rfl, rfl⟩
  · rcases getExtentsTurn_ok turn with ⟨-, rfl, rfl, -⟩ | ⟨n, fm, -, -, stored, taken, same, -, -⟩
    · exact .inl ⟨rfl, by simp⟩
    · rcases acceptExtent_ok taken with ⟨-, rfl, rfl⟩ | ⟨-, extent, rfl, made, filed⟩
      · exact .inl ⟨same, by simp⟩
      · exact .inr ⟨extent, stored, newExtent_collected made, filed, same, by simp⟩

theorem mem_zonemap_store {ctrl ctrl' : Control} {extent e : Extent}
    (result : storeExtent ctrl extent = .ok ctrl') (inside : e ∈ ctrl'.zonemap.extents) :
    e = extent ∨ e ∈ ctrl.zonemap.extents := by
  obtain ⟨zonemap, filed, rfl⟩ := storeExtent_ok result
  obtain ⟨zone, found, rfl⟩ := addExtentToZoneList_ok filed
  obtain ⟨other, member, listed⟩ := List.mem_flatMap.mp inside
  rcases List.mem_or_eq_of_mem_set member with old | rfl
  · exact .inr (List.mem_flatMap.mpr ⟨other, old, listed⟩)
  · have here : ∀ e ∈ zone.extents, e ∈ ctrl.zonemap.extents := fun e member =>
      List.mem_flatMap.mpr ⟨zone, List.mem_of_getElem? found, member⟩
    dsimp only at listed
    split at listed
    · exact .inl (by simpa [insertZoneListHead] using listed)
    · rcases List.mem_cons.mp ((sortedZoneListInsert_perm _ _).mem_iff.mp listed) with same | old
      · exact .inl same
      · exact .inr (here e old)

theorem collect_collected {cfg : Config} {events : List Event} {m : Machine}
    (run : collect cfg events = .ok m) : ∀ e ∈ m.ctrl.zonemap.extents, Collected cfg e := by
  refine Runs.foldlM_invariant (fun m => ∀ e ∈ m.ctrl.zonemap.extents, Collected cfg e) ?_ run ?_
  · intro state event _ next holds moved e inside
    rcases step_zonemap moved with ⟨same, -⟩ | ⟨extent, ctrl, collected, filed, same, -⟩
    · exact holds e (same ▸ inside)
    · rcases mem_zonemap_store filed (same ▸ inside) with rfl | old
      · exact collected
      · exact holds e old
  · intro e inside
    simp [Machine.start, initControl, initZoneMap, ZoneMap.extents] at inside

theorem step_consistent {cfg : Config} {m next : Machine} {event : Event}
    (moved : step cfg m event = .ok next)
    (holds : m.accepted.length < 2 ^ 32 → m.ctrl.zonemap.Consistent m.accepted)
    (few : next.accepted.length < 2 ^ 32) : next.ctrl.zonemap.Consistent next.accepted := by
  rcases step_zonemap moved with ⟨same, history⟩ | ⟨extent, ctrl, -, filed, same, history⟩
  · rw [same, history]
    exact holds (history ▸ few)
  · obtain ⟨zonemap, added, rfl⟩ := storeExtent_ok filed
    rw [history, List.length_append, List.length_singleton] at few
    have kept := addExtentToZoneList_consistent (holds (by omega)) few added
    rw [same, history]
    exact ⟨kept.sorted, kept.counted, kept.filed, kept.complete, kept.total, kept.cumulated⟩

theorem events_consistent {cfg : Config} {events : List Event} {m next : Machine}
    (run : events.foldlM (step cfg) m = .ok next)
    (holds : m.accepted.length < 2 ^ 32 → m.ctrl.zonemap.Consistent m.accepted) :
    next.accepted.length < 2 ^ 32 → next.ctrl.zonemap.Consistent next.accepted := by
  refine Runs.foldlM_invariant
    (fun m => m.accepted.length < 2 ^ 32 → m.ctrl.zonemap.Consistent m.accepted) ?_ run holds
  intro state event _ next holds moved few
  exact step_consistent moved holds few

theorem collect_zonemap {cfg : Config} {events : List Event} {m : Machine}
    (run : collect cfg events = .ok m) (few : m.accepted.length < 2 ^ 32) :
    m.ctrl.zonemap.Consistent m.accepted :=
  events_consistent run (fun _ => initZoneMap_consistent cfg.znsdev.nrZones) few

/-- After every step of every sequence of calls the zone map holds exactly the extents accepted so
far, each in the sorted list of its own zone, and its counters agree with its lists. -/
theorem collect_consistent (cfg : Config) (events : List Event) (m : Machine)
    (run : collect cfg events = .ok m) (few : m.accepted.length < 2 ^ 32) :
    m.ctrl.zonemap.Consistent m.accepted :=
  collect_zonemap run few

theorem collect_consistent_two_extents :
    let cfg := segmapConfig 512 0 8192 2 (List.replicate 4 ⟨0, .cursegWarmData, 512⟩)
    ∃ m, collect cfg (mapFile cfg [97] 16 [⟨0, 12288, 4096, 0⟩, ⟨4096, 4096, 4096, 1⟩]) = .ok m ∧
      m.accepted.length = 2 ∧ m.ctrl.zonemap.Consistent m.accepted := by
  intro cfg
  have counted : (collect cfg (mapFile cfg [97] 16
      [⟨0, 12288, 4096, 0⟩, ⟨4096, 4096, 4096, 1⟩])).map (·.accepted.length) = .ok 2 := by
    decide
  obtain ⟨m, run, two⟩ := Runs.map_ok counted
  exact ⟨m, run, two, collect_consistent cfg _ m run (by omega)⟩

end ZnsTools
