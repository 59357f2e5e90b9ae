import ZnsTools.ReportedCapacity

set_option autoImplicit false

namespace ZnsTools

section Mapping

variable {cfg : Config} {dev : Device} {call : Call} {ctrl : Control}

theorem getZoneNumber_divides_iff (lba : UInt64) :
    getZoneNumber cfg lba = .error .divideByZero ↔ cfg.zoneSectors = 0 := by
  rw [getZoneNumber]
  by_cases zero : cfg.zoneSectors = 0 <;> simp [zero]

theorem getZoneInfo_avoids (extent : Extent) :
    getZoneInfo cfg dev extent ≠ .error .divideByZero := by
  rw [getZoneInfo]
  split <;> rintro ⟨⟩

theorem setFsInfo_avoids (extent : Extent) : setFsInfo cfg extent ≠ .error .divideByZero := by
  rw [setFsInfo]
  split
  · refine Runs.bind_avoids ?_ fun _ _ => Runs.ok_avoids
    rw [fsInfoInitialize.eq_def]
    split
    · rintro ⟨⟩
    · split <;> rintro ⟨⟩
  · rintro ⟨⟩

theorem storeExtent_avoids (extent : Extent) :
    storeExtent ctrl extent ≠ .error .divideByZero := by
  refine Runs.bind_avoids ?_ fun _ _ => Runs.ok_avoids
  rw [addExtentToZoneList]
  split <;> rintro ⟨⟩

theorem acceptExtent_divides_iff (fm : FiemapExtent) :
    acceptExtent cfg dev call fm ctrl = .error .divideByZero ↔
      disregarded cfg fm = false ∧ cfg.zoneSectors = 0 := by
  rw [acceptExtent]
  cases skip : disregarded cfg fm with
  | true => simp [pure, Except.pure]
  | false =>
    simp only [Bool.false_eq_true, if_false, true_and]
    constructor
    · intro failed
      rcases Runs.bind_error_iff.mp failed with failed | ⟨extent, -, failed⟩
      · rcases Runs.bind_error_iff.mp failed with failed | ⟨zone, -, failed⟩
        · exact (getZoneNumber_divides_iff _).mp failed
        · exact absurd failed (Runs.bind_avoids (getZoneInfo_avoids _) fun _ _ =>
            setFsInfo_avoids _)
      · exact absurd failed (Runs.bind_avoids (storeExtent_avoids _) fun _ _ => Runs.ok_avoids)
    · intro zero
      rw [newExtent, (getZoneNumber_divides_iff _).mpr zero]
      rfl

theorem getExtentsTurn_divides_iff (n : UInt32) (fm : FiemapExtent) :
    getExtentsTurn cfg dev call (.mapped n fm) ctrl = .error .divideByZero ↔
      n ≠ 0 ∧ disregarded cfg fm = false ∧ cfg.zoneSectors = 0 := by
  rw [getExtentsTurn.eq_def, ← @acceptExtent_divides_iff cfg dev call ctrl]
  dsimp only
  by_cases shown : n = 0
  · simp [shown]
  · rw [if_neg shown, Runs.bind_error_iff]
    simp only [ne_eq, shown, not_false_eq_true, true_and, or_iff_left_iff_imp]
    rintro ⟨⟨stored, accepted⟩, -, failed⟩
    dsimp only at failed
    split at failed <;> cases failed

end Mapping

-- Whether a call comes to an extent that it does not pass over.
def comesToExtent (cfg : Config) : List (Device × FiemapReply) → Bool
  | [] => false
  | (_, .ioctlFailed) :: _ => false
  | (_, .mapped n fm) :: rest => n != 0 && (!disregarded cfg fm || comesToExtent cfg rest)

-- The tool does not go beyond the first file that opens if it finds no extent in it.
def visitsComeToExtent (cfg : Config) : List Visit → Bool
  | [] => false
  | .closedDir :: _ => false
  | .file _ file :: rest =>
    match file.access with
    | .deleted => visitsComeToExtent cfg rest
    | .denied => false
    | .opened => comesToExtent cfg file.answers.all

section Runs

variable {cfg : Config} {heap : Nat → FileCounter} {m next : Machine}

theorem step_avoids (zoned : cfg.zoneSectors ≠ 0) (m : Machine) (event : Event) :
    step cfg m event ≠ .error .divideByZero := by
  rw [step.eq_def]
  split
  · split <;> rintro ⟨⟩
  · split
    · rintro ⟨⟩
    · refine Runs.bind_avoids ?_ fun _ _ => Runs.ok_avoids
      intro failed
      next dev reply _ call _ =>
        cases reply with
        | ioctlFailed => cases failed
        | mapped n fm => exact zoned ((getExtentsTurn_divides_iff n fm).mp failed).2.2

theorem collectFile_avoids (zoned : cfg.zoneSectors ≠ 0) (m : Machine) (filename : CString)
    (file : FileEntry) : collectFile cfg heap filename file m ≠ .error .divideByZero := by
  rw [collectFile]
  split
  · rintro ⟨⟩
  · rintro ⟨⟩
  · refine Runs.bind_avoids
      (Runs.foldlM_avoids (fun state event _ => step_avoids zoned state event) m)
      fun mapped _ => ?_
    split
    · rintro ⟨⟩
    · split <;> rintro ⟨⟩

theorem visit_avoids (zoned : cfg.zoneSectors ≠ 0) (m : Machine) (v : Visit) :
    visit cfg heap m v ≠ .error .divideByZero := by
  cases v with
  | closedDir => rintro ⟨⟩
  | file filename file => exact collectFile_avoids zoned m filename file

theorem step_same_zonemap (zero : cfg.zoneSectors = 0) {event : Event}
    (moved : step cfg m event = .ok next) : next.ctrl.zonemap = m.ctrl.zonemap := by
  rcases step_zonemap moved with ⟨same, -⟩ | ⟨extent, ctrl, collected, -⟩
  · exact same
  · have numbered := collected.zone
    rw [(getZoneNumber_divides_iff _).mpr zero] at numbered
    cases numbered

theorem events_same_zonemap (zero : cfg.zoneSectors = 0) {events : List Event}
    (run : events.foldlM (step cfg) m = .ok next) : next.ctrl.zonemap = m.ctrl.zonemap :=
  Runs.foldlM_invariant (fun state => state.ctrl.zonemap = m.ctrl.zonemap)
    (fun _ _ _ _ holds moved => (step_same_zonemap zero moved).trans holds) run rfl

theorem step_mapped_cases (zero : cfg.zoneSectors = 0) {call : Call} (pending : m.call = some call)
    (dev : Device) (n : UInt32) (fm : FiemapExtent) :
    n = 0 ∧ step cfg m (.reply dev (.mapped n fm)) = .error .exitFailure ∨
      n ≠ 0 ∧ disregarded cfg fm = false ∧
        step cfg m (.reply dev (.mapped n fm)) = .error .divideByZero ∨
      n ≠ 0 ∧ disregarded cfg fm = true ∧
        ∃ next, step cfg m (.reply dev (.mapped n fm)) = .ok next ∧
        ((FiemapReply.mapped n fm).ends = false → ∃ later, next.call = some later) := by
  by_cases shown : n = 0
  · left
    simp [step, pending, getExtentsTurn, shown, bind, Except.bind]
  · right
    cases skip : disregarded cfg fm with
    | false =>
      have divides : getExtentsTurn cfg dev call (.mapped n fm) m.ctrl = .error .divideByZero :=
        (getExtentsTurn_divides_iff n fm).mpr ⟨shown, skip, zero⟩
      exact .inl ⟨shown, rfl, by simp only [step, pending, divides]; rfl⟩
    | true =>
      have taken : ∃ next, step cfg m (.reply dev (.mapped n fm)) = .ok next :=
        (@reply_exists_iff cfg m call (dev, .mapped n fm) pending).mpr
          (.inr ⟨n, fm, rfl, shown, .inl skip⟩)
      obtain ⟨next, moved⟩ := taken
      refine .inr ⟨shown, rfl, next, moved, fun goesOn => ?_⟩
      obtain ⟨-, -, later, called, -⟩ :=
        (@reply_answered cfg call (dev, .mapped n fm) m next pending moved).goesOn
        goesOn
      exact ⟨later, called⟩

theorem replies_divide_iff (zero : cfg.zoneSectors = 0) {call : Call} (pending : m.call = some call)
    (front : List (Device × FiemapReply)) (final : Device × FiemapReply)
    (goesOn : ∀ answer ∈ front, answer.2.ends = false) :
    (replyEvents (front ++ [final])).foldlM (step cfg) m = .error .divideByZero ↔
      comesToExtent cfg (front ++ [final]) = true := by
  induction front generalizing m call with
  | nil =>
    obtain ⟨dev, reply⟩ := final
    rw [List.nil_append, replyEvents, List.map_singleton, List.foldlM_cons]
    cases reply with
    | ioctlFailed =>
      simp [step, pending, getExtentsTurn, comesToExtent, Runs.ok_bind, pure, Except.pure]
    | mapped n fm =>
      rcases step_mapped_cases zero pending dev n fm with
        ⟨rfl, moved⟩ | ⟨shown, skip, moved⟩ | ⟨shown, skip, next, moved, -⟩
      · simp [moved, comesToExtent, bind, Except.bind]
      · simp [moved, comesToExtent, shown, skip, bind, Except.bind]
      · simp [moved, comesToExtent, skip, Runs.ok_bind, pure, Except.pure]
  | cons answer rest ih =>
    obtain ⟨dev, reply⟩ := answer
    obtain ⟨own, others⟩ := List.forall_mem_cons.mp goesOn
    rw [List.cons_append, replyEvents, List.map_cons, List.foldlM_cons]
    cases reply with
    | ioctlFailed => cases own
    | mapped n fm =>
      rcases step_mapped_cases zero pending dev n fm with
        ⟨rfl, moved⟩ | ⟨shown, skip, moved⟩ | ⟨shown, skip, next, moved, called⟩
      · simp [moved, comesToExtent, bind, Except.bind]
      · simp [moved, comesToExtent, shown, skip, bind, Except.bind]
      · obtain ⟨later, pending⟩ := called own
        have rest_divides := ih pending others
        rw [replyEvents] at rest_divides
        simp only [moved, Runs.ok_bind, rest_divides, comesToExtent, skip]
        simp [shown]

theorem collectFile_divides_iff (zero : cfg.zoneSectors = 0) (idle : m.call = none)
    (filename : CString) {file : FileEntry} (opened : file.access = .opened) :
    collectFile cfg heap filename file m = .error .divideByZero ↔
      comesToExtent cfg file.answers.all = true := by
  let opening : Machine := { m with
    ctrl := { m.ctrl with fileCounterMap := some (allocFileCounter m.ctrl (heap m.opened)) }
    call := some (openCall filename file.stBlocks)
    opened := m.opened + 1 }
  have called : (file.call filename (heap m.opened)).events.foldlM (step cfg) m =
      (replyEvents file.answers.all).foldlM (step cfg) opening := by
    rw [FileCall.events, List.foldlM_cons, step.eq_def]
    simp only [FileEntry.call, idle]
    rfl
  have divides := @replies_divide_iff cfg opening zero _ rfl file.answers.front file.answers.final
    file.answers.goesOn
  rw [← FileAnswers.all] at divides
  rw [← divides, collectFile, opened]
  dsimp only
  rw [called, Runs.bind_error_iff, or_iff_left_iff_imp]
  rintro ⟨mapped, -, failed⟩
  split at failed
  · cases failed
  · split at failed <;> cases failed

theorem collectFile_ends (zero : cfg.zoneSectors = 0) (empty : m.ctrl.zonemap.extentCtr = 0)
    {filename : CString} {file : FileEntry} (opened : file.access = .opened) :
    collectFile cfg heap filename file m ≠ .ok next := by
  intro done
  obtain ⟨run, -, nonempty⟩ := (collectFile_ok_iff opened).mp done
  exact nonempty (by rw [events_same_zonemap zero run, empty])

theorem visits_divide_iff (zero : cfg.zoneSectors = 0) (idle : m.call = none)
    (empty : m.ctrl.zonemap.extentCtr = 0) (visits : List Visit) :
    visits.foldlM (visit cfg heap) m = .error .divideByZero ↔
      visitsComeToExtent cfg visits = true := by
  induction visits with
  | nil => simp [visitsComeToExtent, pure, Except.pure]
  | cons v rest ih =>
    rw [List.foldlM_cons]
    cases v with
    | closedDir => simp [visit, visitsComeToExtent, bind, Except.bind]
    | file filename file =>
      cases access : file.access with
      | denied => simp [visit, collectFile, visitsComeToExtent, access, bind, Except.bind]
      | deleted => simp [visit, collectFile, visitsComeToExtent, access, Runs.ok_bind, ih]
      | opened =>
        simp only [visitsComeToExtent, access]
        rw [Runs.bind_error_iff, visit, collectFile_divides_iff zero idle filename access,
          or_iff_left_iff_imp]
        rintro ⟨next, done, -⟩
        exact absurd done (collectFile_ends zero empty access)

theorem unmappedCall_avoids (cfg : Config) (answers : List (Device × FiemapReply)) :
    unmappedCall cfg answers ≠ .divideByZero := by
  induction answers with
  | nil => rintro ⟨⟩
  | cons answer rest ih =>
    obtain ⟨dev, reply⟩ := answer
    cases reply with
    | ioctlFailed => rintro ⟨⟩
    | mapped n fm =>
      rw [unmappedCall]
      split
      · rintro ⟨⟩
      · split
        · exact ih
        · rintro ⟨⟩

theorem unmappedVisits_avoids (cfg : Config) (visits : List Visit) :
    unmappedVisits cfg visits ≠ .divideByZero := by
  induction visits with
  | nil => rintro ⟨⟩
  | cons v rest ih =>
    cases v with
    | closedDir => rintro ⟨⟩
    | file filename file =>
      rw [unmappedVisits]
      split
      · exact ih
      · rintro ⟨⟩
      · exact unmappedCall_avoids cfg _

theorem mapSource_mapped (heap : Nat → FileCounter) (source : Source) {ready : SetUp.Ready}
    {zonemap : ZoneMap} (found : ready.zonemap = some zonemap) :
    mapSource heap source ready =
      source.visits.foldlM (visit ready.cfg heap) (Machine.over zonemap) := by
  rw [mapSource, found]
  cases source with
  | dir path opened entries =>
    cases opened with
    | true => exact collectExtents_eq ready.cfg heap path entries _
    | false => rfl
  | file filename entry =>
    by_cases opened : entry.access = .opened
    · simp [Source.visits, opened, visit]
    · simp [Source.visits, opened, visit, bind, Except.bind]

theorem mapSource_divides_iff (heap : Nat → FileCounter) (source : Source) (ready : SetUp.Ready)
    (fresh : ∀ zonemap, ready.zonemap = some zonemap → ∃ nrZones, zonemap = initZoneMap nrZones) :
    mapSource heap source ready = .error .divideByZero ↔
      ready.zonemap ≠ none ∧ ready.cfg.zoneSectors = 0 ∧
        visitsComeToExtent ready.cfg source.visits = true := by
  cases found : ready.zonemap with
  | none =>
    rw [mapSource, found]
    simp [unmappedVisits_avoids]
  | some zonemap =>
    rw [mapSource_mapped heap source found]
    by_cases zero : ready.cfg.zoneSectors = 0
    · obtain ⟨nrZones, rfl⟩ := fresh zonemap found
      have divides :=
        @visits_divide_iff ready.cfg heap (Machine.over (initZoneMap nrZones)) zero rfl
        rfl source.visits
      simp [zero, divides]
    · simp [zero, Runs.foldlM_avoids (fun state v _ => visit_avoids zero state v)]

end Runs

namespace SetUp

theorem getZoneSize_shifted {shift : UInt32} (either : shift = 0 ∨ shift = 3)
    (asked : Asked UInt64) :
    getZoneSize shift asked <<< shift.toUInt64 = 0 ↔ getZoneSize shift asked = 0 := by
  rcases either with rfl | rfl
  · simp
  · cases asked with
    | openFailed => simp [getZoneSize]
    | ioctlFailed => simp [getZoneSize]
    | answered sectors =>
      have bound := sectors.toNat_lt
      have size : (getZoneSize 3 (.answered sectors)).toNat = sectors.toNat / 2 ^ 3 :=
        AlignDown.shiftRight_toNat _ _ 3 (by decide) rfl
      rw [← UInt64.toNat_inj, ← UInt64.toNat_inj, AlignDown.shiftLeft_toNat _ _ 3 (by decide) rfl
        (by rw [size]; omega)]
      simp

-- What set-up leaves.
structure Ready.Fresh (ready : Ready) : Prop where
  zonemap : ∀ zonemap, ready.zonemap = some zonemap →
    ∃ nrZones, zonemap = ZnsTools.initZoneMap nrZones
  size : ready.cfg.zoneSectors = 0 ↔ ready.cfg.znsdev.zoneSize = 0

structure Znsdev.Fresh (znsdev : Znsdev) : Prop where
  zonemap : ∀ zonemap, znsdev.zonemap = some zonemap →
    ∃ nrZones, zonemap = ZnsTools.initZoneMap nrZones
  shift : znsdev.geometry.znsSectorShift = 0 ∨ znsdev.geometry.znsSectorShift = 3

theorem znsSectorShiftAfter_cases {shift : UInt32} (either : shift = 0 ∨ shift = 3)
    (sectorSize : UInt64) :
    znsSectorShiftAfter shift sectorSize = 0 ∨ znsSectorShiftAfter shift sectorSize = 3 := by
  rw [znsSectorShiftAfter]
  split
  · exact .inr rfl
  · exact either

theorem initZnsdev_fresh {shift : UInt32} (either : shift = 0 ∨ shift = 3) {calls : ZnsdevCalls}
    {znsdev : Znsdev} (done : initZnsdev shift calls = .ok znsdev) : znsdev.Fresh := by
  rw [initZnsdev] at done
  split at done
  · obtain ⟨zoned, -, done⟩ := Runs.bind_ok done
    obtain ⟨sectorSize, -, done⟩ := Runs.bind_ok done
    obtain ⟨zonemap, mapped, done⟩ := Runs.bind_ok done
    cases done
    refine ⟨?_, znsSectorShiftAfter_cases either sectorSize⟩
    rintro _ rfl
    cases reported : calls.zoneReport with
    | openFailed => rw [reported] at mapped; cases mapped
    | ioctlFailed => rw [reported] at mapped; cases mapped
    | answered _ => rw [reported] at mapped; cases mapped; exact ⟨_, rfl⟩
  · cases done

theorem setZones_fresh (cfg : Config) {znsdev : Znsdev} (fresh : znsdev.Fresh) (offset : UInt64)
    (zoneSize : Asked UInt64) (nrZones : Asked UInt32) :
    Ready.Fresh ⟨setZones cfg znsdev offset zoneSize nrZones, znsdev.zonemap⟩ where
  zonemap := fresh.zonemap
  size := getZoneSize_shifted fresh.shift zoneSize

theorem initF2fs_fresh {cfg : Config} {calls : F2fsCalls} {ready : Ready}
    (done : initF2fs cfg calls = .ok ready) : ready.Fresh := by
  rw [initF2fs] at done
  split at done
  · obtain ⟨znsdev, set_up, done⟩ := Runs.bind_ok done
    cases done
    obtain ⟨_, -, set_up⟩ := Runs.bind_ok set_up
    obtain ⟨sectorSize, -, set_up⟩ := Runs.bind_ok set_up
    obtain ⟨zns, started, set_up⟩ := Runs.bind_ok set_up
    split at set_up <;> cases set_up
    exact setZones_fresh cfg
      (initZnsdev_fresh (znsSectorShiftAfter_cases (.inl rfl) sectorSize) started) _ _ _
  · cases done

theorem initCtrl_fresh {cfg : Config} (unset : cfg.zoneSectors = 0 ↔ cfg.znsdev.zoneSize = 0)
    {fs : Option FileSystem} {ready : Ready} (done : initCtrl cfg fs = .ok ready) :
    ready.Fresh := by
  match fs, done with
  | some (.f2fs calls), done => exact initF2fs_fresh done
  | some (.btrfs calls), done =>
    obtain ⟨znsdev, started, done⟩ := Runs.bind_ok done
    cases done
    exact setZones_fresh cfg (initZnsdev_fresh (.inl rfl) started) _ _ _
  | some .other, done =>
    cases done
    exact ⟨by rintro _ ⟨⟩, unset⟩

theorem initCtrl_cleared {fs : Option FileSystem} {ready : Ready}
    (done : initCtrl Config.cleared fs = .ok ready) : ready.Fresh :=
  initCtrl_fresh (by decide) done

theorem isZoned_avoids (asked : Asked Unit) : isZoned asked ≠ .error .divideByZero := by
  cases asked <;> rintro ⟨⟩

theorem getSectorSize_avoids (asked : Asked UInt64) :
    getSectorSize asked ≠ .error .divideByZero := by
  cases asked <;> rintro ⟨⟩

theorem initZnsdev_avoids (shift : UInt32) (calls : ZnsdevCalls) :
    initZnsdev shift calls ≠ .error .divideByZero := by
  rw [initZnsdev]
  split
  · refine Runs.bind_avoids (isZoned_avoids _) fun _ _ => ?_
    refine Runs.bind_avoids (getSectorSize_avoids _) fun _ _ => ?_
    refine Runs.bind_avoids ?_ fun _ _ => Runs.ok_avoids
    cases calls.zoneReport <;> rintro ⟨⟩
  · rintro ⟨⟩

theorem initF2fs_avoids (cfg : Config) (calls : F2fsCalls) :
    initF2fs cfg calls ≠ .error .divideByZero := by
  rw [initF2fs]
  split
  · refine Runs.bind_avoids ?_ fun _ _ => Runs.ok_avoids
    refine Runs.bind_avoids (isZoned_avoids _) fun _ _ => ?_
    refine Runs.bind_avoids (getSectorSize_avoids _) fun _ _ => ?_
    refine Runs.bind_avoids (initZnsdev_avoids _ _) fun _ _ => ?_
    split <;> rintro ⟨⟩
  · rintro ⟨⟩

theorem initCtrl_avoids (cfg : Config) (fs : Option FileSystem) :
    initCtrl cfg fs ≠ .error .divideByZero := by
  match fs with
  | none => rintro ⟨⟩
  | some (.f2fs calls) => exact initF2fs_avoids cfg calls
  | some (.btrfs calls) => exact Runs.bind_avoids (initZnsdev_avoids _ _) fun _ _ => Runs.ok_avoids
  | some .other => rintro ⟨⟩

end SetUp

section Table

-- Nothing is divided where the segment table is read.

theorem update_avoids (segman : SegmentManager) (write : SegmentInfo → SegmentInfo) :
    segman.update write ≠ .error .divideByZero := by
  rw [SegmentManager.update]
  split <;> rintro ⟨⟩

theorem readPieces_avoids (setFirst : Bool) (pieces : List PyText.Text) (segman : SegmentManager) :
    readPieces setFirst pieces segman ≠ .error .divideByZero := by
  induction pieces generalizing setFirst segman with
  | nil => rintro ⟨⟩
  | cons splitString rest ih =>
    rw [readPieces]
    split
    · exact ih _ _
    · split <;> exact Runs.bind_avoids (update_avoids _ _) fun _ _ => ih _ _

theorem readContents_avoids (segman : SegmentManager) (contents : PyText.Text) :
    readContents segman contents ≠ .error .divideByZero := by
  rw [readContents]
  split
  · refine Runs.bind_avoids (readPieces_avoids _ _ _) fun _ _ => ?_
    exact Runs.bind_avoids (update_avoids _ _) fun _ _ => Runs.ok_avoids
  · rintro ⟨⟩

theorem readLines_avoids (highestSegment : UInt32) (lineCtr : Nat) (lines : List PyText.Text)
    (segman : SegmentManager) :
    readLines highestSegment lineCtr lines segman ≠ .error .divideByZero := by
  induction lines generalizing lineCtr segman with
  | nil => rintro ⟨⟩
  | cons line rest ih =>
    rw [readLines]
    split
    · exact ih _ _
    · refine Runs.bind_avoids (Runs.foldlM_avoids (fun _ _ _ => readContents_avoids _ _) _)
        fun _ _ => ?_
      split
      · rintro ⟨⟩
      · exact ih _ _

theorem f2fsFsManagerInit_avoids (procfs : Procfs) (devName : PyText.Text)
    (segmentCountMain : UInt32) :
    f2fsFsManagerInit procfs devName segmentCountMain ≠ .error .divideByZero := by
  refine Runs.bind_avoids ?_ fun _ _ => Runs.ok_avoids
  rw [initProcfsSegmentBits]
  split
  · rintro ⟨⟩
  · split
    · rintro ⟨⟩
    · exact Runs.bind_avoids (readLines_avoids _ _ _ _) fun _ _ => Runs.ok_avoids

end Table

namespace SetUp

theorem initFsManager_avoids (calls : F2fsCalls) (ready : Ready) :
    initFsManager calls ready ≠ .error .divideByZero := by
  rw [initFsManager]
  split
  · rintro ⟨⟩
  · refine Runs.bind_avoids ?_ fun _ _ => Runs.ok_avoids
    exact Runs.bind_avoids (f2fsFsManagerInit_avoids _ _ _) fun _ _ => Runs.ok_avoids

theorem checkDirInitCtrl_avoids (cfg : Config) (fs : Option FileSystem) :
    checkDirInitCtrl cfg fs ≠ .error .divideByZero := by
  match fs with
  | none => rintro ⟨⟩
  | some (.f2fs calls) =>
    exact Runs.bind_avoids (initF2fs_avoids cfg calls) fun _ _ => initFsManager_avoids _ _
  | some (.btrfs calls) => exact initCtrl_avoids cfg (some (.btrfs calls))
  | some .other => rintro ⟨⟩

theorem checkDirInitCtrl_fresh {cfg : Config}
    (unset : cfg.zoneSectors = 0 ↔ cfg.znsdev.zoneSize = 0) {fs : Option FileSystem} {ready : Ready}
    (done : checkDirInitCtrl cfg fs = .ok ready) : ready.Fresh := by
  match fs, done with
  | none, done => cases done
  | some (.f2fs calls), done =>
    obtain ⟨set_up, started, done⟩ := Runs.bind_ok done
    have fresh := initF2fs_fresh started
    rw [initFsManager] at done
    split at done
    · cases done
    · obtain ⟨informed, made, done⟩ := Runs.bind_ok done
      cases done
      obtain ⟨manager, -, made⟩ := Runs.bind_ok made
      cases made
      exact ⟨fresh.zonemap, fresh.size⟩
  | some (.btrfs calls), done => exact @initCtrl_fresh cfg unset (some (.btrfs calls)) ready done
  | some .other, done => exact @initCtrl_fresh cfg unset (some .other) ready done

end SetUp

section Report

variable {cfg : Config} {dev : Device}

theorem printZoneInfo_avoids (zone : UInt32) :
    printZoneInfo cfg dev zone ≠ .error .divideByZero := by
  rw [printZoneInfo]
  split <;> rintro ⟨⟩

theorem fiemapZones_avoids (opts : FiemapOptions) (i : Nat) (zones : List Zone)
    (state : FiemapState) : fiemapZones cfg dev opts i zones state ≠ .error .divideByZero := by
  induction zones generalizing i state with
  | nil => rintro ⟨⟩
  | cons zone rest ih =>
    rw [fiemapZones]
    split
    · exact ih _ _
    · refine Runs.bind_avoids (printZoneInfo_avoids _) fun _ _ => ?_
      exact Runs.bind_avoids (ih _ _) fun _ _ => Runs.ok_avoids

theorem printFiemapReport_avoids (opts : FiemapOptions) {zonemap : ZoneMap}
    (some_extent : zonemap.extentCtr ≠ 0) :
    printFiemapReport cfg dev opts zonemap ≠ .error .divideByZero := by
  refine Runs.bind_avoids (fiemapZones_avoids _ _ _ _) fun _ _ => ?_
  refine Runs.bind_avoids ?_ fun _ _ => Runs.ok_avoids
  rw [fiemapStats, if_neg some_extent]
  rintro ⟨⟩

theorem deref_avoids {α : Type} (pointer : Option α) : deref pointer ≠ .error .divideByZero := by
  cases pointer <;> rintro ⟨⟩

theorem showSegmentReport_divides_iff (zoned : cfg.zoneSectors ≠ 0) {m : Machine}
    {devices : List Device} (recorded : CapacitiesTold cfg m devices) :
    (∃ fuel, showSegmentReport cfg dev fuel m.ctrl = some (.error .divideByZero)) ↔
      ¬ CapacityKnown cfg dev m devices := by
  rw [capacityKnown_iff zoned recorded, not_not]
  refine exists_congr fun fuel => ?_
  rw [showSegmentReport]
  constructor
  · intro failed
    obtain ⟨result, ran, failed⟩ := Option.map_eq_some_iff.mp failed
    rcases Runs.bind_error_iff.mp failed with failed | ⟨⟨final, passes⟩, -, failed⟩
    · rw [ran, failed]
    · rcases Runs.bind_error_iff.mp failed with failed | ⟨stats, -, failed⟩
      · refine absurd failed (Runs.bind_avoids ?_ fun _ _ => Runs.ok_avoids)
        rw [fileStatsLines]
        split
        · exact Runs.bind_avoids (deref_avoids _) fun _ _ => Runs.ok_avoids
        · rintro ⟨⟩
      · cases failed
  · intro failed
    rw [failed]
    rfl

end Report

/-- Set-up got to know the zone size, or nothing is worked out with it. -/
def SetUp.Ready.SizeKnown (ready : SetUp.Ready) (source : Source) : Prop :=
  ready.zonemap = none ∨ ready.cfg.znsdev.zoneSize ≠ 0 ∨
    visitsComeToExtent ready.cfg source.visits = false

section Tools

variable {heap : Nat → FileCounter} {source : Source} {ready : SetUp.Ready} {m : Machine}

theorem sizeKnown_iff (fresh : ready.Fresh) :
    mapSource heap source ready ≠ .error .divideByZero ↔ ready.SizeKnown source := by
  rw [Ne, mapSource_divides_iff heap source ready fresh.zonemap, SetUp.Ready.SizeKnown]
  rw [fresh.size]
  by_cases none : ready.zonemap = none
  · simp [none]
  · simp [none]
    tauto

theorem visits_same_zonemap {cfg : Config} (zero : cfg.zoneSectors = 0) {visits : List Visit}
    {first : Machine} (run : visits.foldlM (visit cfg heap) first = .ok m) :
    m.ctrl.zonemap = first.ctrl.zonemap := by
  refine Runs.foldlM_invariant (fun state => state.ctrl.zonemap = first.ctrl.zonemap) ?_ run rfl
  intro state v _ next holds visited
  cases v with
  | closedDir => cases visited
  | file filename file =>
    cases access : file.access with
    | denied =>
      rw [visit, collectFile, access] at visited
      cases visited
    | deleted =>
      rw [visit, collectFile, access] at visited
      cases visited
      exact holds
    | opened =>
      obtain ⟨run, -, -⟩ := (collectFile_ok_iff access).mp visited
      exact (events_same_zonemap zero run).trans holds

theorem mapSource_zoned (fresh : ready.Fresh) (mapped : mapSource heap source ready = .ok m)
    (some_extent : m.ctrl.zonemap.extentCtr ≠ 0) : ready.cfg.zoneSectors ≠ 0 := by
  intro zero
  cases found : ready.zonemap with
  | none =>
    rw [mapSource, found] at mapped
    cases mapped
  | some zonemap =>
    obtain ⟨nrZones, rfl⟩ := fresh.zonemap zonemap found
    rw [mapSource_mapped heap source found] at mapped
    exact some_extent (by rw [visits_same_zonemap zero mapped]; rfl)

theorem mapSource_told (fresh : ready.Fresh) (mapped : mapSource heap source ready = .ok m) :
    CapacitiesTold ready.cfg m (source.zoneInfoDevices ready.cfg) := by
  cases found : ready.zonemap with
  | none =>
    rw [mapSource, found] at mapped
    cases mapped
  | some zonemap =>
    obtain ⟨nrZones, rfl⟩ := fresh.zonemap zonemap found
    rw [mapSource_mapped heap source found] at mapped
    exact visits_told rfl mapped (start_told nrZones)

theorem mapSource_file (single : source.isdir = false)
    (mapped : mapSource heap source ready = .ok m) : m.ctrl.zonemap.extentCtr ≠ 0 := by
  cases source with
  | dir path opened entries => cases single
  | file filename entry =>
    rw [mapSource] at mapped
    split at mapped
    · cases mapped
    · dsimp only at mapped
      split at mapped
      · next opened => exact ((collectFile_ok_iff opened).mp mapped).2.2
      · cases mapped

theorem control_avoids (opts : SegmapOptions) (isdir : Bool) :
    opts.control isdir ≠ .error .divideByZero := by
  rw [SegmapOptions.control]
  split
  · rintro ⟨⟩
  · split <;> rintro ⟨⟩

theorem control_unset {opts : SegmapOptions} {isdir : Bool} {cfg : Config}
    (allowed : opts.control isdir = .ok cfg) :
    cfg.zoneSectors = 0 ↔ cfg.znsdev.zoneSize = 0 := by
  rw [SegmapOptions.control] at allowed
  split at allowed
  · cases allowed
  · split at allowed <;> cases allowed
    exact iff_of_true rfl rfl

theorem segmapReady_avoids (opts : SegmapOptions) (fs : Option SetUp.FileSystem) (isdir : Bool) :
    segmapReady opts fs isdir ≠ .error .divideByZero := by
  refine Runs.bind_avoids (control_avoids opts isdir) fun _ _ => ?_
  exact Runs.bind_avoids (SetUp.checkDirInitCtrl_avoids _ fs) fun _ _ => Runs.ok_avoids

theorem segmapReady_fresh {opts : SegmapOptions} {fs : Option SetUp.FileSystem} {isdir : Bool}
    (done : segmapReady opts fs isdir = .ok ready) : ready.Fresh := by
  obtain ⟨cfg, allowed, done⟩ := Runs.bind_ok done
  obtain ⟨set_up, started, done⟩ := Runs.bind_ok done
  cases done
  have fresh := SetUp.checkDirInitCtrl_fresh (control_unset allowed) started
  exact ⟨fresh.zonemap, fresh.size⟩

-- The file system and the options for which the report of segments is shown.
def ShowsSegments (opts : SegmapOptions) (fs : Option SetUp.FileSystem) : Prop :=
  (∃ calls, fs = some (.f2fs calls)) ∧ opts.jsonDump = false

theorem znsSegmapReport_divides_iff (opts : SegmapOptions) (fs : Option SetUp.FileSystem)
    (source : Source) (dev : Device) {cfg : Config} (m : Machine)
    (single : source.isdir = false → m.ctrl.zonemap.extentCtr ≠ 0)
    (zoned : m.ctrl.zonemap.extentCtr ≠ 0 → cfg.zoneSectors ≠ 0) {devices : List Device}
    (recorded : CapacitiesTold cfg m devices) :
    (∃ fuel, znsSegmapReport opts fs source dev fuel cfg m = some (.error .divideByZero)) ↔
      ShowsSegments opts fs ∧ m.ctrl.zonemap.extentCtr ≠ 0 ∧ ¬ CapacityKnown cfg dev m devices := by
  by_cases empty : m.ctrl.zonemap.extentCtr = 0
  · have isdir : source.isdir = true := by
      by_contra other
      exact single (by simpa using other) empty
    simp [znsSegmapReport, isdir, empty]
  · have goesOn : (source.isdir && m.ctrl.zonemap.extentCtr == 0) = false := by simp [empty]
    simp only [znsSegmapReport, goesOn, Bool.false_eq_true, if_false]
    match fs with
    | none => simp [ShowsSegments]
    | some .other => simp [ShowsSegments]
    | some (.btrfs calls) =>
      have avoids := @printFiemapReport_avoids cfg dev opts.holes _ empty
      simp only [ShowsSegments, Option.some.injEq, reduceCtorEq, exists_false, false_and, iff_false]
      rintro ⟨-, failed⟩
      cases report : printFiemapReport cfg dev opts.holes m.ctrl.zonemap with
      | ok _ => rw [report] at failed; cases failed
      | error abort =>
        rw [report] at failed
        cases failed
        exact avoids report
    | some (.f2fs calls) =>
      cases json : opts.jsonDump with
      | true => simp [ShowsSegments, json]
      | false =>
        have shows : ShowsSegments opts (some (.f2fs calls)) := ⟨⟨calls, rfl⟩, json⟩
        rw [← showSegmentReport_divides_iff (zoned empty) recorded]
        simp only [shows, ne_eq, empty, not_false_eq_true, true_and, Bool.false_eq_true, if_false]
        refine exists_congr fun fuel => ?_
        cases showSegmentReport cfg dev fuel m.ctrl with
        | none => simp
        | some result => cases result <;> simp [Except.map]

theorem znsFiemap_avoids_iff (opts : FiemapOptions) (fs : Option SetUp.FileSystem)
    (heap : Nat → FileCounter) (filename : CString) (file : FileEntry) (dev : Device) :
    znsFiemap opts fs heap filename file dev ≠ .error .divideByZero ↔
      ∀ ready, SetUp.initCtrl Config.cleared fs = .ok ready →
        ready.SizeKnown (.file filename file) := by
  rw [znsFiemap]
  by_cases opened : file.access = .opened
  · rw [if_pos opened]
    constructor
    · intro avoids ready set_up
      rw [← sizeKnown_iff (SetUp.initCtrl_cleared set_up)]
      intro failed
      exact avoids (by rw [set_up, Runs.ok_bind, failed]; rfl)
    · intro known
      refine Runs.bind_avoids (SetUp.initCtrl_avoids _ fs) fun ready set_up => ?_
      have fresh := SetUp.initCtrl_cleared set_up
      refine Runs.bind_avoids ((sizeKnown_iff fresh).mpr (known ready set_up)) fun m mapped => ?_
      exact printFiemapReport_avoids opts (mapSource_file rfl mapped)
  · rw [if_neg opened]
    refine iff_of_true (by rintro ⟨⟩) fun ready _ => .inr (.inr ?_)
    simp [Source.visits, opened, visitsComeToExtent]

theorem znsSegmap_avoids_iff (opts : SegmapOptions) (fs : Option SetUp.FileSystem)
    (heap : Nat → FileCounter) (source : Source) (dev : Device) :
    (∀ fuel, znsSegmap opts fs heap source dev fuel ≠ some (.error .divideByZero)) ↔
      ∀ ready, segmapReady opts fs source.isdir = .ok ready →
        ready.SizeKnown source ∧
          (ShowsSegments opts fs → ∀ m, mapSource heap source ready = .ok m →
            m.ctrl.zonemap.extentCtr ≠ 0 →
              CapacityKnown ready.cfg dev m (source.zoneInfoDevices ready.cfg)) := by
  have reports : ∀ ready m, segmapReady opts fs source.isdir = .ok ready →
      mapSource heap source ready = .ok m →
        ((∃ fuel, znsSegmapReport opts fs source dev fuel ready.cfg m =
            some (.error .divideByZero)) ↔
          ShowsSegments opts fs ∧ m.ctrl.zonemap.extentCtr ≠ 0 ∧
            ¬ CapacityKnown ready.cfg dev m (source.zoneInfoDevices ready.cfg)) :=
    fun ready m set_up mapped =>
      znsSegmapReport_divides_iff opts fs source dev m (fun single => mapSource_file single mapped)
        (mapSource_zoned (segmapReady_fresh set_up) mapped)
        (mapSource_told (segmapReady_fresh set_up) mapped)
  constructor
  · intro avoids ready set_up
    constructor
    · rw [← sizeKnown_iff (segmapReady_fresh set_up)]
      intro failed
      exact avoids List.length (by rw [znsSegmap, set_up, Runs.ok_bind, failed]; rfl)
    · intro shows m mapped some_extent
      by_contra unknown
      obtain ⟨fuel, failed⟩ := (reports ready m set_up mapped).mpr ⟨shows, some_extent, unknown⟩
      apply avoids fuel
      rw [znsSegmap, set_up, Runs.ok_bind, mapped, Runs.ok_bind]
      exact failed
  · intro known fuel failed
    rw [znsSegmap] at failed
    split at failed
    · next abort ended =>
      cases failed
      refine absurd ended ?_
      refine Runs.bind_avoids (segmapReady_avoids opts fs _) fun ready set_up => ?_
      refine Runs.bind_avoids ?_ fun _ _ => Runs.ok_avoids
      exact (sizeKnown_iff (segmapReady_fresh set_up)).mpr (known ready set_up).1
    · next cfg m done =>
      obtain ⟨ready, set_up, done⟩ := Runs.bind_ok done
      obtain ⟨own, mapped, done⟩ := Runs.bind_ok done
      cases done
      obtain ⟨shows, some_extent, unknown⟩ := (reports ready _ set_up mapped).mp ⟨fuel, failed⟩
      exact unknown ((known ready set_up).2 shows _ mapped some_extent)

theorem natLoop_avoids (sb : SuperBlock) (dev : BlockDevice) (inodeNumber : UInt32) (turns : Nat)
    (natBlock : NatBlock) (cursor : NatCursor) :
    (natLoop sb dev inodeNumber turns natBlock cursor).result ≠ .error .divideByZero := by
  induction turns generalizing natBlock cursor with
  | zero => simp [natLoop]
  | succ turns ih =>
    simp only [natLoop]
    split
    · simp
    · split
      · simp
      · exact ih _ _

theorem findInode_avoids {ι : Type} (sb : SuperBlock) (bdev : Option BlockDevice)
    (znsdev : Option (NodeDevice ι)) (stIno : UInt64) (turns : Nat) (cursor : NatCursor) :
    findInode sb bdev znsdev stIno turns cursor ≠ some (.error .divideByZero) := by
  induction turns generalizing cursor with
  | zero => simp [findInode]
  | succ turns ih =>
    have lookup : (f2fsGetInodeNatEntry sb bdev stIno.toUInt32 cursor).result ≠
        .error .divideByZero := by
      cases bdev with
      | none => simp [f2fsGetInodeNatEntry]
      | some dev => exact natLoop_avoids sb dev _ _ _ _
    simp only [findInode]
    split
    · next abort failed =>
      intro ended
      obtain rfl := Except.error.inj (Option.some.inj ended)
      exact lookup failed
    · simp
    · next natEntry found =>
      cases read : f2fsGetNodeBlock znsdev natEntry.blockAddr with
      | error abort =>
        have exits : abort = .exitFailure := by
          unfold f2fsGetNodeBlock at read
          split at read
          · simpa using read.symm
          · split at read <;> simp_all
        simp [exits]
      | ok nodeBlock =>
        dsimp only
        split
        · simp
        · exact ih _

theorem znsImap_divides_iff {ι : Type} (cfg : Config) (zones : Device) (sb : SuperBlock)
    (bdev : Option BlockDevice) (znsdev : Option (NodeDevice ι)) (stIno : UInt64) (turns : Nat) :
    znsImap cfg zones sb bdev znsdev stIno turns = some (.error .divideByZero) ↔
      cfg.zoneSectors = 0 ∧
        ∃ found, findInode sb bdev znsdev stIno turns .start = some (.ok found) := by
  have searches := findInode_avoids sb bdev znsdev stIno turns .start
  rw [znsImap]
  cases search : findInode sb bdev znsdev stIno turns .start with
  | none => simp
  | some result =>
    cases result with
    | error abort =>
      rw [search] at searches
      simpa [bind, Except.bind] using searches
    | ok found =>
      simp only [Option.map_some, Option.some.injEq, Except.ok.injEq, exists_eq', and_true]
      rw [Runs.ok_bind, reportInode, Runs.bind_error_iff, imapZoneNumber, getZoneNumber_divides_iff,
        or_iff_left_iff_imp]
      rintro ⟨zone, -, failed⟩
      exact absurd failed (Runs.bind_avoids (printZoneInfo_avoids zone) fun _ _ => Runs.ok_avoids)

theorem imapMain_avoids_iff {ι : Type} (fs : Option SetUp.FileSystem) (access : FileAccess)
    (zones : Device) (sb : SuperBlock) (bdev : Option BlockDevice)
    (znsdev : Option (NodeDevice ι)) (stIno : UInt64) :
    (∀ turns, imapMain fs access zones sb bdev znsdev stIno turns ≠ some (.error .divideByZero)) ↔
      (access = .opened → ∀ ready, SetUp.initCtrl Config.cleared fs = .ok ready →
        ready.cfg.znsdev.zoneSize ≠ 0 ∨
          ∀ turns found, findInode sb bdev znsdev stIno turns .start ≠ some (.ok found)) := by
  by_cases opened : access = .opened
  · simp only [imapMain, opened, if_true, true_implies]
    cases set_up : SetUp.initCtrl Config.cleared fs with
    | error abort =>
      have other : abort ≠ .divideByZero := by
        rintro rfl
        exact SetUp.initCtrl_avoids _ fs set_up
      simp [other]
    | ok ready =>
      simp only [ne_eq, znsImap_divides_iff, (SetUp.initCtrl_cleared set_up).size, not_and,
        not_exists, Except.ok.injEq, forall_eq']
      tauto
  · simp [imapMain, opened]

/-- The tools divide by nothing that is zero exactly when the zone size is known wherever an extent
or an inode is looked up, and mapping was told the capacity of its zone for every extent with which
the report of segments counts a new zone for a file. -/
theorem divisors_known_iff (opts : FiemapOptions) (segmapOpts : SegmapOptions)
    (fs : Option SetUp.FileSystem) (heap : Nat → FileCounter) (filename : CString)
    (file : FileEntry) (source : Source) (dev : Device) {ι : Type} (sb : SuperBlock)
    (bdev : Option BlockDevice) (znsdev : Option (NodeDevice ι)) (stIno : UInt64) :
    (znsFiemap opts fs heap filename file dev ≠ .error .divideByZero ↔
      ∀ ready, SetUp.initCtrl Config.cleared fs = .ok ready →
        ready.SizeKnown (.file filename file)) ∧
    ((∀ fuel, znsSegmap segmapOpts fs heap source dev fuel ≠ some (.error .divideByZero)) ↔
      ∀ ready, segmapReady segmapOpts fs source.isdir = .ok ready →
        ready.SizeKnown source ∧
          (ShowsSegments segmapOpts fs → ∀ m, mapSource heap source ready = .ok m →
            m.ctrl.zonemap.extentCtr ≠ 0 →
              CapacityKnown ready.cfg dev m (source.zoneInfoDevices ready.cfg))) ∧
    ((∀ turns, imapMain fs file.access dev sb bdev znsdev stIno turns ≠
        some (.error .divideByZero)) ↔
      (file.access = .opened → ∀ ready, SetUp.initCtrl Config.cleared fs = .ok ready →
        ready.cfg.znsdev.zoneSize ≠ 0 ∨
          ∀ turns found, findInode sb bdev znsdev stIno turns .start ≠ some (.ok found))) :=
  ⟨znsFiemap_avoids_iff opts fs heap filename file dev,
    znsSegmap_avoids_iff segmapOpts fs heap source dev,
    imapMain_avoids_iff fs file.access dev sb bdev znsdev stIno⟩

end Tools

-- 1 MiB of conventional space in front of two zones of 8 MiB; `zoneSize` is all that can fail.
def setUpCalls (zoneSize : Asked UInt64) : SetUp.FileSystem :=
  .f2fs {
    device := true
    superBlock := some ⟨['s', 'd', 'a'], 8⟩
    bdevZoned := .ioctlFailed
    bdevSectorSize := .answered 512
    znsdev := ⟨true, .answered (), .answered 512, .answered 2, .answered ()⟩
    devSize := .answered 1048576
    zoneSize := zoneSize
    nrZones := .answered 2
    procfs := onlyFile (rowsOfOne 8) }

-- A block in the second zone, whose device opens for `get_zone_info` or not.
def secondZoneFile (dev : Device) : FileEntry where
  name := [97]
  access := .opened
  stBlocks := 8
  answers :=
    { front := []
      final := (dev, .mapped 1 ⟨0, 1048576 + 8388608, 4096, fiemapExtentLast⟩)
      goesOn := none_before
      ends := rfl }

def plainOptions : SegmapOptions where
  excludeFlags := fiemapExtentDataInline
  holes := ⟨true, false⟩
  jsonDump := false
  startZone := 0
  endZone := 0
  setZone := false
  setBound := false
  showClassStats := false
  showOnlyStats := false
  procfs := false

-- BLKGETZONESZ fails, or the device does not open for the one extent.
theorem failures_not_noticed :
    znsFiemap ⟨false, false⟩ (some (setUpCalls .ioctlFailed)) (fun _ => FileCounter.zero) [97]
        (secondZoneFile (fullZones warmConfig)) (fullZones warmConfig) = .error .divideByZero ∧
      znsSegmap plainOptions (some (setUpCalls (.answered 16384))) (fun _ => FileCounter.zero)
          (.file [97] (secondZoneFile fun _ => .openFailed)) (fullZones warmConfig) List.length =
        some (.error .divideByZero) ∧
      imapMain (some (setUpCalls .ioctlFailed)) .opened (fullZones warmConfig)
          ⟨0, 2, 0, 512, 1024, 4096⟩ (some (imageOf ⟨0, 2, 0, 512, 1024, 4096⟩ twoEntryNat))
          (some twoNodes) 7 2 =
        some (.error .divideByZero) := by
  refine ⟨?_, ?_, ?_⟩ <;> decide +kernel

example : (znsSegmap plainOptions (some (setUpCalls (.answered 16384))) (fun _ => FileCounter.zero)
    (.file [97] (secondZoneFile (fullZones warmConfig))) (fullZones warmConfig) List.length).map
      (·.isOk) = some true := by
  decide +kernel

end ZnsTools
