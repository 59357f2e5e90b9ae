import ZnsTools.FileZones
import ZnsTools.SetUp

set_option autoImplicit false

namespace ZnsTools

-- The zone capacities that the report of segments divides by, from what `get_zone_info` was told
-- when the extents were mapped.

def CapacityFound (cfg : Config) (dev : Device) (zone : UInt32) : Prop :=
  ∃ report, dev (cfg.zoneSectors * zone.toUInt64) = .zone report ∧
    report.capacity >>> cfg.znsSectorShift.toUInt64 ≠ 0

-- The devices as `get_zone_info` finds them, one for each extent that is not passed over.
def zoneInfoDevices (cfg : Config) (answers : List (Device × FiemapReply)) : List Device :=
  (answers.filter fun answer => answer.2.accepted cfg).map Prod.fst

def Visit.zoneInfoDevices (cfg : Config) : Visit → List Device
  | .closedDir => []
  | .file _ entry =>
    if entry.access = .opened then ZnsTools.zoneInfoDevices cfg entry.answers.all else []

def Source.zoneInfoDevices (cfg : Config) (source : Source) : List Device :=
  source.visits.flatMap (Visit.zoneInfoDevices cfg)

-- The capacity of an extent tells what `get_zone_info` found.
def Informed (cfg : Config) (e : Extent) (dev : Device) : Prop :=
  e.zoneCap = 0 ↔ ¬ CapacityFound cfg dev e.zone

section Mapping

variable {cfg : Config} {dev : Device}

theorem getZoneInfo_informed {extent found : Extent} (unset : extent.zoneCap = 0)
    (reported : getZoneInfo cfg dev extent = .ok found) : Informed cfg found dev := by
  rw [getZoneInfo] at reported
  split at reported
  · next closed =>
    cases reported
    simp [Informed, CapacityFound, closed, unset]
  · cases reported
  · next report answered =>
    cases reported
    simp [Informed, CapacityFound, answered]

theorem newExtent_informed {nrFiles : UInt32} {call : Call} {fm : FiemapExtent} {extent : Extent}
    (made : newExtent cfg dev nrFiles call fm = .ok extent) : Informed cfg extent dev := by
  obtain ⟨zone, -, made⟩ := Runs.bind_ok made
  obtain ⟨located, reported, made⟩ := Runs.bind_ok made
  have informed := getZoneInfo_informed rfl reported
  obtain ⟨⟨fsInfo, rfl⟩, -⟩ := setFsInfo_ok made
  exact informed

structure CapacitiesTold (cfg : Config) (m : Machine) (devices : List Device) : Prop where
  informed : List.Forall₂ (Informed cfg) m.accepted devices
  listed : m.ctrl.zonemap.Listed
  filed : ∀ e ∈ m.ctrl.zonemap.extents, e ∈ m.accepted

theorem start_told (nrZones : UInt32) :
    CapacitiesTold cfg (Machine.over (initZoneMap nrZones)) [] where
  informed := .nil
  listed := initZoneMap_listed nrZones
  filed e inside := by simp [Machine.over, initZoneMap, ZoneMap.extents] at inside

section Step

variable {m next : Machine} {devices : List Device}

theorem reply_told {call : Call} {answer : Device × FiemapReply} (pending : m.call = some call)
    (moved : step cfg m (.reply answer.1 answer.2) = .ok next)
    (recorded : CapacitiesTold cfg m devices) :
    CapacitiesTold cfg next (devices ++ zoneInfoDevices cfg [answer]) := by
  obtain ⟨dev, reply⟩ := answer
  simp only [step, pending] at moved
  obtain ⟨⟨ctrl, accepted, progress⟩, turn, done⟩ := Runs.bind_ok moved
  cases done
  rcases getExtentsTurn_ok turn with ⟨rfl, rfl, rfl, -⟩ | ⟨n, fm, rfl, -, stored, taken, same, -, -⟩
  · have none : zoneInfoDevices cfg [(dev, .ioctlFailed)] = [] := by
      simp [zoneInfoDevices, FiemapReply.accepted]
    rw [none]
    exact ⟨by simpa using recorded.informed, recorded.listed, by simpa using recorded.filed⟩
  · rcases acceptExtent_ok taken with ⟨skip, rfl, rfl⟩ | ⟨keep, extent, rfl, made, filed⟩
    · have none : zoneInfoDevices cfg [(dev, .mapped n fm)] = [] := by
        simp [zoneInfoDevices, FiemapReply.accepted, skip]
      rw [none]
      refine ⟨by simpa using recorded.informed, recorded.listed.congr (by simp [same]), ?_⟩
      simpa [same] using recorded.filed
    · have one : zoneInfoDevices cfg [(dev, .mapped n fm)] = [dev] := by
        simp [zoneInfoDevices, FiemapReply.accepted, keep]
      obtain ⟨zonemap, added, storing⟩ := storeExtent_ok filed
      have zones : ctrl.zonemap.zones = zonemap.zones := by rw [same, storing]
      rw [one]
      refine ⟨?_, (recorded.listed.add added).congr zones, ?_⟩
      · exact List.rel_append recorded.informed (.cons (newExtent_informed made) .nil)
      · intro e inside
        rw [same] at inside
        rcases mem_zonemap_store filed inside with rfl | old
        · simp
        · simp [recorded.filed e old]

theorem zoneInfoDevices_append (cfg : Config) (front back : List (Device × FiemapReply)) :
    zoneInfoDevices cfg (front ++ back) =
      zoneInfoDevices cfg front ++ zoneInfoDevices cfg back := by
  simp [zoneInfoDevices]

theorem replies_told (front : List (Device × FiemapReply)) (final : Device × FiemapReply)
    (goesOn : ∀ answer ∈ front, answer.2.ends = false) {call : Call} (pending : m.call = some call)
    (run : (replyEvents (front ++ [final])).foldlM (step cfg) m = .ok next)
    (recorded : CapacitiesTold cfg m devices) :
    CapacitiesTold cfg next (devices ++ zoneInfoDevices cfg (front ++ [final])) := by
  induction front generalizing m call devices with
  | nil =>
    have moved : step cfg m (.reply final.1 final.2) = .ok next := by
      simpa [replyEvents] using run
    exact reply_told pending moved recorded
  | cons answer rest ih =>
    simp only [replyEvents, List.cons_append, List.map_cons, List.foldlM_cons] at run
    obtain ⟨middle, moved, later⟩ := Runs.bind_ok run
    obtain ⟨-, -, after, still, -⟩ :=
      (reply_answered pending moved).goesOn (goesOn answer (by simp))
    have split : answer :: rest ++ [final] = [answer] ++ (rest ++ [final]) := rfl
    rw [split, zoneInfoDevices_append, ← List.append_assoc]
    exact ih (fun other inside => goesOn other (by simp [inside])) still later
      (reply_told pending moved recorded)

theorem file_told {file : FileCall} (idle : m.call = none)
    (run : file.events.foldlM (step cfg) m = .ok next) (recorded : CapacitiesTold cfg m devices) :
    CapacitiesTold cfg next (devices ++ zoneInfoDevices cfg file.answers.all) := by
  rw [events_opened idle] at run
  apply replies_told file.answers.front file.answers.final file.answers.goesOn rfl run
  exact ⟨recorded.informed, recorded.listed, recorded.filed⟩

theorem visits_told {heap : Nat → FileCounter} {visits : List Visit} (idle : m.call = none)
    (run : visits.foldlM (visit cfg heap) m = .ok next) (recorded : CapacitiesTold cfg m devices) :
    CapacitiesTold cfg next (devices ++ visits.flatMap (Visit.zoneInfoDevices cfg)) := by
  induction visits generalizing m devices with
  | nil =>
    cases run
    simpa using recorded
  | cons first rest ih =>
    rw [List.foldlM_cons] at run
    obtain ⟨middle, moved, later⟩ := Runs.bind_ok run
    rw [List.flatMap_cons, ← List.append_assoc]
    cases first with
    | closedDir => cases moved
    | file filename file =>
      cases access : file.access with
      | denied =>
        rw [visit, collectFile, access] at moved
        cases moved
      | deleted =>
        rw [visit, collectFile, access] at moved
        cases moved
        simpa [Visit.zoneInfoDevices, access] using ih idle later recorded
      | opened =>
        obtain ⟨events, -, -⟩ := (collectFile_ok_iff access).mp moved
        have kept := ih (file_mapped idle events).idle later (file_told idle events recorded)
        simpa [Visit.zoneInfoDevices, access, FileEntry.call] using kept

end Step

end Mapping

section Report

def headingFails (cfg : Config) (dev : Device) (zone : UInt32) : Bool :=
  !cfg.showOnlyStats && zone != 0 && dev (cfg.zoneSectors * zone.toUInt64) == .ioctlFailed

-- The entry that a file is counted in: its own, or the one after those in use.
def FileCounterMap.place (counters : FileCounterMap) (file : CString) : Nat :=
  (counters.find? file).getD counters.fileCtr.toNat

def entryOf (map : Option FileCounterMap) (file : CString) : Option FileCounter :=
  map.bind fun counters => counters.files[counters.place file]?

-- Behind the selected zones the loop is left for the next zone. In front of them it never moves on,
-- and it does not get beyond a heading that fails, or beyond what is not there.
def reportKind (cfg : Config) (dev : Device) (map : Option FileCounterMap) (e : Extent) :
    CursorLoop.Kind :=
  if cfg.endLba ≤ cfg.segmentLba (cfg.segmentId e.phyBlk) then .leaves
  else if cfg.segmentLba (cfg.segmentId e.phyBlk) < cfg.startLba then .stays
  else if headingFails cfg dev e.zone || e.fsInfo.isNone || (entryOf map e.file).isNone then .stays
  else .advances

def countedExtents (cfg : Config) (dev : Device) (ctrl : Control) : List Extent :=
  CursorLoop.takenIn (reportKind cfg dev ctrl.fileCounterMap) ctrl.zonemap.scanned

-- The extents counted in one entry with which the report counts a new zone.
def zoneChanges (cfg : Config) (dev : Device) (ctrl : Control) (counters : FileCounterMap)
    (index : Nat) (lastZone : UInt32) : List Extent :=
  Changes.heads (countedZone cfg) lastZone
    ((countedExtents cfg dev ctrl).filter fun e => counters.place e.file = index)

/-- Wherever the report counts a new zone for a file, mapping was told the capacity of its zone. -/
def CapacityKnown (cfg : Config) (dev : Device) (m : Machine) (devices : List Device) : Prop :=
  ∀ counters, m.ctrl.fileCounterMap = some counters →
    ∀ index entry, counters.files[index]? = some entry →
      ∀ e ∈ zoneChanges cfg dev m.ctrl counters index entry.lastZone,
        ∃ asked, (e, asked) ∈ m.accepted.zip devices ∧ CapacityFound cfg asked e.zone

def placeIn (map : Option FileCounterMap) (e : Extent) : Nat :=
  map.elim 0 fun counters => counters.place e.file

structure Underway (cfg : Config) (dev : Device) (map : Option FileCounterMap)
    (remaining : List Extent) (state : ReportState) : Prop where
  tracked : ∀ counters, map = some counters →
    ∃ current, state.fileCounterMap = some current ∧ SameFiles counters current
  untracked : map = none → state.fileCounterMap = none
  ordered : remaining.Pairwise fun a b => a.zone ≤ b.zone
  reached : ∀ e ∈ remaining, state.currentZone ≤ e.zone
  headed : headingFails cfg dev state.currentZone = false

def ReportState.lastZones (state : ReportState) (index : Nat) : UInt32 :=
  ((state.fileCounterMap.bind fun counters => counters.files[index]?).map
    FileCounter.lastZone).getD 0

section Turn

variable {cfg : Config} {dev : Device} {map : Option FileCounterMap} {nrFiles : UInt32}
  {e : Extent} {rest : List Extent} {state : ReportState}

theorem Underway.drop (underway : Underway cfg dev map (e :: rest) state) :
    Underway cfg dev map rest state where
  tracked := underway.tracked
  untracked := underway.untracked
  ordered := (List.pairwise_cons.mp underway.ordered).2
  reached other inside := underway.reached other (List.mem_cons_of_mem _ inside)
  headed := underway.headed

-- Zones come in ascending order, so that zone 0 is the current one whenever an extent lies in it.
theorem showZoneHeading_outcome (underway : Underway cfg dev map (e :: rest) state) :
    (headingFails cfg dev e.zone = true ∧
      showZoneHeading cfg dev e state = .error .exitFailure) ∨
    (headingFails cfg dev e.zone = false ∧
      ∃ heading, showZoneHeading cfg dev e state =
        .ok ({ state with currentZone := e.zone }, heading)) := by
  have headed := underway.headed
  by_cases same : state.currentZone = e.zone
  · right
    rw [same] at headed
    refine ⟨headed, [], ?_⟩
    rw [showZoneHeading, if_pos same, ← same]
    rfl
  · have later : e.zone ≠ 0 := by
      intro zero
      have first := underway.reached e List.mem_cons_self
      rw [zero] at first same
      exact same (UInt32.toNat_inj.mp (Nat.le_zero.mp (UInt32.le_iff_toNat_le.mp first)))
    rw [showZoneHeading, if_neg same, repZoneInfo, headingFails]
    cases only : cfg.showOnlyStats with
    | true => simp [Runs.ok_bind, pure, Except.pure]
    | false =>
      cases report : dev (cfg.zoneSectors * e.zone.toUInt64) <;>
        simp [printZoneInfo, report, later, bind, Except.bind, pure, Except.pure]

theorem addZones_lastZone {entry next : FileCounter} {numSegments zone : UInt32}
    {zoneCap : UInt64} (added : entry.addZones cfg numSegments zone zoneCap = .ok next) :
    next.lastZone = zone := by
  rw [FileCounter.addZones] at added
  split at added
  · next same =>
    cases added
    exact same
  · split at added <;> cases added
    rfl

theorem countedZone_numbered (zoned : cfg.zoneSectors ≠ 0) (e : Extent) :
    segmentZone cfg (cfg.segmentId e.phyBlk).toUInt32 = .ok (countedZone cfg e) := by
  cases numbered : segmentZone cfg (cfg.segmentId e.phyBlk).toUInt32 with
  | error abort => simp [segmentZone, getZoneNumber, zoned] at numbered
  | ok zone => simp [countedZone, numbered, Except.toOption]

theorem addSegments_lastZone (entry : FileCounter) (numSegments curSegment : UInt32)
    (type : SegmentType) :
    (entry.addSegments numSegments curSegment type).lastZone = entry.lastZone := by
  rw [FileCounter.addSegments]
  split
  · rfl
  · cases type <;> rfl

theorem increaseFileSegmentCounter_outcome (zoned : cfg.zoneSectors ≠ 0) {counters : FileCounterMap}
    {now : FileCounter} (present : counters.files[counters.place e.file]? = some now)
    (numSegments : UInt32) (segI : SegmentInfo) :
    (now.lastZone ≠ countedZone cfg e ∧ e.zoneCap = 0 →
      increaseFileSegmentCounter cfg counters e.file numSegments (cfg.segmentId e.phyBlk).toUInt32
        segI e.zoneCap = .error .divideByZero) ∧
    (¬ (now.lastZone ≠ countedZone cfg e ∧ e.zoneCap = 0) →
      ∃ next, increaseFileSegmentCounter cfg counters e.file numSegments
          (cfg.segmentId e.phyBlk).toUInt32 segI e.zoneCap =
        .ok { counters with files := counters.files.set (counters.place e.file) next } ∧
        next.lastZone = countedZone cfg e) := by
  have found : counters.files[(counters.find? e.file).getD counters.fileCtr.toNat]? = some now :=
    present
  have same := addSegments_lastZone now numSegments (cfg.segmentId e.phyBlk).toUInt32 segI.type
  simp only [increaseFileSegmentCounter, found, deref, Runs.ok_bind, countedZone_numbered zoned]
  constructor
  · rintro ⟨other, zero⟩
    rw [FileCounter.addZones, same, if_neg other, if_pos zero]
    rfl
  · intro known
    cases added : (now.addSegments numSegments (cfg.segmentId e.phyBlk).toUInt32 segI.type).addZones
        cfg numSegments (countedZone cfg e) e.zoneCap with
    | ok next => exact ⟨next, rfl, addZones_lastZone added⟩
    | error abort =>
      rw [FileCounter.addZones, same] at added
      split at added
      · cases added
      · next other =>
        split at added
        · next zero => exact absurd ⟨other, zero⟩ known
        · cases added

theorem lastZones_set {counters : FileCounterMap} {index : Nat} {now next : FileCounter}
    (present : counters.files[index]? = some now) (before after : ReportState)
    (old : before.fileCounterMap = some counters)
    (new : after.fileCounterMap = some { counters with files := counters.files.set index next }) :
    after.lastZones = Function.update before.lastZones index next.lastZone := by
  obtain ⟨inside, -⟩ := List.getElem?_eq_some_iff.mp present
  funext other
  by_cases same : other = index
  · subst same
    simp [ReportState.lastZones, new, inside]
  · rw [Function.update_of_ne same]
    simp [ReportState.lastZones, old, new, List.getElem?_set_ne (Ne.symm same)]

theorem reportKind_advances (own : reportKind cfg dev map e = .advances) :
    cfg.segmentLba (cfg.segmentId e.phyBlk) < cfg.endLba ∧
      cfg.startLba ≤ cfg.segmentLba (cfg.segmentId e.phyBlk) ∧
      headingFails cfg dev e.zone = false ∧ ∃ segI counters now, e.fsInfo = some segI ∧
        map = some counters ∧ counters.files[counters.place e.file]? = some now := by
  unfold reportKind at own
  split at own
  · cases own
  · next below =>
    split at own
    · cases own
    · next above =>
      split at own
      · cases own
      · next there =>
        simp only [Bool.or_eq_true, not_or, Bool.not_eq_true, Option.isNone_eq_false_iff,
          Option.isSome_iff_exists] at there
        obtain ⟨⟨headed, segI, info⟩, now, entry⟩ := there
        obtain ⟨counters, tracked, present⟩ := Option.bind_eq_some_iff.mp entry
        exact ⟨UInt64.not_le.mp below, UInt64.not_lt.mp above, headed, segI, counters, now, info,
          tracked, present⟩

theorem SameFiles.place {counters current : FileCounterMap} (same : SameFiles counters current)
    (file : CString) : current.place file = counters.place file := by
  rw [FileCounterMap.place, FileCounterMap.place, same.find?, same.count]

theorem SameFiles.entry {counters current : FileCounterMap} (same : SameFiles counters current)
    {index : Nat} {now : FileCounter} (present : counters.files[index]? = some now) :
    ∃ own, current.files[index]? = some own := by
  obtain ⟨inside, -⟩ := List.getElem?_eq_some_iff.mp present
  rw [← same.length] at inside
  exact ⟨_, List.getElem?_eq_getElem inside⟩

theorem Underway.no_entry (underway : Underway cfg dev map (e :: rest) state)
    {current : FileCounterMap} (there : state.fileCounterMap = some current)
    (missing : entryOf map e.file = none) : current.files[current.place e.file]? = none := by
  cases tracked : map with
  | none => simp [underway.untracked tracked] at there
  | some counters =>
    obtain ⟨own, kept, same⟩ := underway.tracked counters tracked
    obtain rfl := Option.some.inj (there.symm.trans kept)
    have outside : counters.files[counters.place e.file]? = none := by
      simpa [entryOf, tracked] using missing
    rw [same.place, List.getElem?_eq_none_iff, same.length]
    exact List.getElem?_eq_none_iff.mp outside

theorem Underway.next (underway : Underway cfg dev map (e :: rest) state)
    {current counted : FileCounterMap} {after : ReportState}
    (there : state.fileCounterMap = some current)
    (same : ∀ counters, map = some counters → SameFiles counters counted)
    (passes : headingFails cfg dev e.zone = false) (zone : after.currentZone = e.zone)
    (files : after.fileCounterMap = some counted) : Underway cfg dev map rest after := by
  have ordered := List.pairwise_cons.mp underway.ordered
  refine ⟨?_, ?_, ordered.2, ?_, ?_⟩
  · intro counters tracked
    exact ⟨counted, files, same counters tracked⟩
  · intro none
    rw [underway.untracked none] at there
    cases there
  · rw [zone]
    exact ordered.1
  · rw [zone]
    exact passes

theorem showExtentTurn_stuck (underway : Underway cfg dev map (e :: rest) state)
    (below : ¬ cfg.segmentLba (cfg.segmentId e.phyBlk) ≥ cfg.endLba)
    (above : ¬ cfg.segmentLba (cfg.segmentId e.phyBlk) < cfg.startLba)
    (stuck : headingFails cfg dev e.zone = true ∨ e.fsInfo = none ∨ entryOf map e.file = none) :
    ∃ other, other ≠ .divideByZero ∧ showExtentTurn cfg dev nrFiles e state = .error other := by
  rw [showExtentTurn, if_neg below, if_neg above]
  rcases showZoneHeading_outcome underway with ⟨-, failed⟩ | ⟨passes, heading, headed⟩
  · exact ⟨.exitFailure, by simp, by rw [failed]; rfl⟩
  · rw [headed, Runs.ok_bind]
    dsimp only
    cases info : e.fsInfo with
    | none => exact ⟨.badAccess, by simp, rfl⟩
    | some segI =>
      rw [deref, Runs.ok_bind]
      cases tracked : state.fileCounterMap with
      | none => exact ⟨.badAccess, by simp, rfl⟩
      | some current =>
        have unknown : entryOf map e.file = none := by
          simpa [passes, info] using stuck
        have missing := underway.no_entry tracked unknown
        refine ⟨.badAccess, by simp, ?_⟩
        rw [FileCounterMap.place] at missing
        simp [deref, increaseFileSegmentCounter, missing, bind, Except.bind]

theorem showExtentTurn_counts (nrFiles : UInt32)
    (underway : Underway cfg dev map (e :: rest) state)
    (own : reportKind cfg dev map e = .advances) :
    ∃ heading segI current now, state.fileCounterMap = some current ∧
      (∀ counters, map = some counters → SameFiles counters current) ∧
      current.place e.file = placeIn map e ∧ current.files[current.place e.file]? = some now ∧
      state.lastZones (placeIn map e) = now.lastZone ∧
      showExtentTurn cfg dev nrFiles e state = (do
        let counted ← increaseFileSegmentCounter cfg current e.file
          (e.endSegment cfg.toGeometry - cfg.segmentId e.phyBlk + 1).toUInt32
          (cfg.segmentId e.phyBlk).toUInt32 segI e.zoneCap
        let (next, lines) := showExtent cfg nrFiles counted segI e
          { state with currentZone := e.zone, fileCounterMap := some counted }
        pure (.advance next (heading ++ lines))) := by
  obtain ⟨below, above, passes, segI, counters, now, info, tracked, present⟩ :=
    reportKind_advances own
  obtain ⟨current, there, same⟩ := underway.tracked counters tracked
  obtain ⟨entry, kept⟩ := same.entry present
  have placed : current.place e.file = counters.place e.file := same.place e.file
  obtain ⟨fails, -⟩ | ⟨-, heading, headed⟩ := showZoneHeading_outcome underway
  · simp [passes] at fails
  · have located : placeIn map e = counters.place e.file := by
      rw [placeIn, tracked]
      rfl
    refine ⟨heading, segI, current, entry, there, ?_, by rw [placed, located],
      by rw [placed, kept], ?_, ?_⟩
    · intro other known
      rw [tracked] at known
      exact Option.some.inj known ▸ same
    · simp [ReportState.lastZones, there, located, kept]
    · rw [showExtentTurn, if_neg (UInt64.not_le.mpr below), if_neg (UInt64.not_lt.mpr above),
        headed, Runs.ok_bind]
      simp only [info, there, deref, Runs.ok_bind]

theorem showExtentTurn_kinded (zoned : cfg.zoneSectors ≠ 0) (nrFiles : UInt32) :
    CursorLoop.Kinded (showExtentTurn cfg dev nrFiles) .divideByZero (reportKind cfg dev map)
      (Underway cfg dev map) ReportState.lastZones
      (fun last e => last (placeIn map e) ≠ countedZone cfg e ∧ e.zoneCap = 0)
      (fun last e => Function.update last (placeIn map e) (countedZone cfg e)) where
  drop := Underway.drop
  leaves := by
    intro e rest state underway own
    unfold reportKind at own
    split at own
    · next behind => rw [showExtentTurn, if_pos behind]; rfl
    · split at own
      · cases own
      · split at own <;> cases own
  stays := by
    intro e rest state underway own
    unfold reportKind at own
    split at own
    · cases own
    · next below =>
      split at own
      · next before =>
        left
        rw [showExtentTurn, if_neg below, if_pos before]
        rfl
      · next above =>
        split at own
        · next stuck =>
          right
          exact showExtentTurn_stuck underway below above
            (by simpa [entryOf, or_assoc] using stuck)
        · cases own
  ends := by
    intro e rest state underway own failing
    obtain ⟨heading, segI, current, now, there, same, placed, present, last, pass⟩ :=
      showExtentTurn_counts nrFiles underway own
    rw [last] at failing
    rw [pass, (increaseFileSegmentCounter_outcome zoned present _ segI).1 failing]
    rfl
  advances := by
    intro e rest state underway own known
    obtain ⟨heading, segI, current, now, there, same, placed, present, last, pass⟩ :=
      showExtentTurn_counts nrFiles underway own
    rw [last] at known
    obtain ⟨next, counted, zone⟩ := (increaseFileSegmentCounter_outcome zoned present
      (e.endSegment cfg.toGeometry - cfg.segmentId e.phyBlk + 1).toUInt32 segI).2 known
    rw [counted, Runs.ok_bind] at pass
    have frame := @showExtent_frame cfg nrFiles
      { current with files := current.files.set (current.place e.file) next } segI e
      { state with
        currentZone := e.zone
        fileCounterMap := some
          { current with files := current.files.set (current.place e.file) next } }
    generalize showExtent cfg nrFiles _ segI e _ = shown at pass frame
    refine ⟨shown.1, heading ++ shown.2, pass, ?_, ?_⟩
    · rw [lastZones_set present state _ there frame.2, zone, placed]
    · refine underway.next there ?_ (reportKind_advances own).2.2.1 frame.1 frame.2
      intro counters tracked
      exact (same counters tracked).trans (increaseFileSegmentCounter_sameFiles counted)

end Turn

section Loops

variable {cfg : Config} {dev : Device} {m : Machine} {devices : List Device}

theorem scanned_ordered {zonemap : ZoneMap} (listed : zonemap.Listed) :
    zonemap.scanned.flatten.Pairwise fun a b => a.zone ≤ b.zone := by
  have every : zonemap.extents.Pairwise fun a b => a.zone ≤ b.zone := by
    rw [ZoneMap.extents, List.pairwise_flatMap]
    constructor
    · intro zone inside
      obtain ⟨index, found⟩ := List.getElem?_of_mem inside
      apply List.pairwise_of_forall_mem_list
      intro a first b second
      rw [UInt32.le_iff_toNat_le, listed.filed index zone found a first,
        listed.filed index zone found b second]
    · rw [List.pairwise_iff_getElem]
      intro i j here there before a first b second
      rw [UInt32.le_iff_toNat_le, listed.filed i _ (List.getElem?_eq_getElem here) a first,
        listed.filed j _ (List.getElem?_eq_getElem there) b second]
      exact Nat.le_of_lt before
  have part : zonemap.scanned.flatten.Sublist zonemap.extents := by
    rw [ZoneMap.scanned, ZoneMap.extents, List.flatMap_def]
    exact (List.filter_sublist.map Zone.extents).flatten
  exact every.sublist part

theorem start_underway (listed : m.ctrl.zonemap.Listed) :
    Underway cfg dev m.ctrl.fileCounterMap m.ctrl.zonemap.scanned.flatten
      (ReportState.start m.ctrl) where
  tracked counters known := ⟨counters, known, .refl counters⟩
  untracked := id
  ordered := scanned_ordered listed
  reached e _ := by simp [ReportState.start]
  headed := by simp [ReportState.start, headingFails]

theorem mem_countedExtents {e : Extent} (inside : e ∈ countedExtents cfg dev m.ctrl) :
    e ∈ m.ctrl.zonemap.extents ∧ reportKind cfg dev m.ctrl.fileCounterMap e = .advances := by
  have ⟨listed, own⟩ := CursorLoop.mem_takenIn inside
  refine ⟨?_, own⟩
  obtain ⟨items, scanned, here⟩ := List.mem_flatten.mp listed
  exact mem_scanned scanned here

theorem zoneCap_known (recorded : CapacitiesTold cfg m devices) {e : Extent}
    (inside : e ∈ m.ctrl.zonemap.extents) :
    e.zoneCap ≠ 0 ↔
      ∃ asked, (e, asked) ∈ m.accepted.zip devices ∧ CapacityFound cfg asked e.zone := by
  constructor
  · intro known
    obtain ⟨index, found⟩ := List.getElem?_of_mem (recorded.filed e inside)
    obtain ⟨below, rfl⟩ := List.getElem?_eq_some_iff.mp found
    have same := recorded.informed.length_eq
    have informed := recorded.informed.get below (same ▸ below)
    refine ⟨devices[index], ?_, ?_⟩
    · apply List.mem_of_getElem? (i := index)
      rw [List.getElem?_zip_eq_some]
      exact ⟨found, List.getElem?_eq_getElem _⟩
    · exact not_not.mp (mt informed.mpr known)
  · rintro ⟨asked, paired, capacity⟩ zero
    exact (List.forall₂_zip recorded.informed paired).mp zero capacity

/-- The loops of the report divide by no capacity of 0 exactly where mapping was told the
capacity. -/
theorem capacityKnown_iff (zoned : cfg.zoneSectors ≠ 0) (recorded : CapacitiesTold cfg m devices) :
    CapacityKnown cfg dev m devices ↔
      ¬ ∃ fuel, showSegments cfg dev fuel m.ctrl = some (.error .divideByZero) := by
  have loops : (∃ fuel, showSegments cfg dev fuel m.ctrl = some (.error .divideByZero)) ↔ _ :=
    CursorLoop.scans_error_iff fun state => ⟨state, rfl⟩
  rw [loops, (showExtentTurn_kinded zoned m.ctrl.nrFiles).reachesIn_iff _
    (start_underway recorded.listed), Changes.failsAt_iff]
  constructor
  · rintro known ⟨index, e, inside, zero⟩
    have own := List.mem_filter.mp (Changes.mem_heads inside)
    obtain ⟨listed, passed⟩ := mem_countedExtents own.1
    obtain ⟨-, -, -, segI, counters, now, -, tracked, present⟩ := reportKind_advances passed
    have placed : counters.place e.file = index := by simpa [placeIn, tracked] using own.2
    have last : (ReportState.start m.ctrl).lastZones index = now.lastZone := by
      simp [ReportState.lastZones, ReportState.start, tracked, ← placed, present]
    refine (zoneCap_known recorded listed).mpr (known counters tracked index now
      (placed ▸ present) e ?_) zero
    rw [last] at inside
    simpa [zoneChanges, countedExtents, placeIn, tracked] using inside
  · intro divides counters tracked index now present e inside
    have own := List.mem_filter.mp (Changes.mem_heads inside)
    obtain ⟨listed, -⟩ := mem_countedExtents own.1
    refine (zoneCap_known recorded listed).mp fun zero => divides ⟨index, e, ?_, zero⟩
    have last : (ReportState.start m.ctrl).lastZones index = now.lastZone := by
      simp [ReportState.lastZones, ReportState.start, tracked, present]
    rw [last]
    simpa [zoneChanges, countedExtents, placeIn, tracked] using inside

end Loops

end Report

end ZnsTools
