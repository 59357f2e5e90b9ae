import ZnsTools.FiemapWalk

set_option autoImplicit false

namespace ZnsTools

def FiemapReply.ends : FiemapReply → Bool
  | .ioctlFailed => true
  | .mapped _ fm => fm.feFlags &&& fiemapExtentLast != 0

-- What one `get_extents` call gets to see: the state of the device and the reply for each ioctl it
-- makes. Only the last reply ends the call.
structure FileAnswers where
  front : List (Device × FiemapReply)
  final : Device × FiemapReply
  goesOn : ∀ answer ∈ front, answer.2.ends = false
  ends : final.2.ends = true

theorem none_before : ∀ answer ∈ ([] : List (Device × FiemapReply)), answer.2.ends = false :=
  List.forall_mem_nil _

def FileAnswers.all (answers : FileAnswers) : List (Device × FiemapReply) :=
  answers.front ++ [answers.final]

structure FileCall where
  filename : CString
  stBlocks : UInt64
  heap : FileCounter
  answers : FileAnswers

def replyEvents (answers : List (Device × FiemapReply)) : List Event :=
  answers.map fun answer => .reply answer.1 answer.2

def FileCall.events (file : FileCall) : List Event :=
  .call file.filename file.stBlocks file.heap :: replyEvents file.answers.all

def FiemapReply.accepted (cfg : Config) : FiemapReply → Bool
  | .ioctlFailed => false
  | .mapped _ fm => !disregarded cfg fm

def acceptedCount (cfg : Config) (answers : List (Device × FiemapReply)) : Nat :=
  answers.countP fun answer => answer.2.accepted cfg

-- What the zone map keeps of an extent, apart from which call filed it and the state of its zone.
structure Filing where
  zone : UInt32
  file : CString
  extNr : UInt32
  phyBlk : UInt64
  len : UInt64
  deriving DecidableEq, Repr

def Extent.filing (e : Extent) : Filing :=
  ⟨e.zone, e.file, e.extNr, e.phyBlk, e.len⟩

def filingOf (cfg : Config) (filename : CString) (extCtr : UInt64) (fm : FiemapExtent) : Filing :=
  { zone := (getZoneNumber cfg (physicalBlk cfg fm <<< cfg.znsSectorShift.toUInt64)).toOption.getD 0
    file := filename.take (maxFileLength - 1)
    extNr := extCtr.toUInt32
    phyBlk := physicalBlk cfg fm
    len := fm.feLength >>> cfg.sectorShift.toUInt64 }

def filings (cfg : Config) (filename : CString) :
    UInt64 → List (Device × FiemapReply) → List Filing
  | _, [] => []
  | extCtr, (_, .ioctlFailed) :: rest => filings cfg filename extCtr rest
  | extCtr, (_, .mapped _ fm) :: rest =>
    if disregarded cfg fm then filings cfg filename extCtr rest
    else filingOf cfg filename extCtr fm :: filings cfg filename (extCtr + 1) rest

def Answerable (cfg : Config) (nrZones : Nat) (answer : Device × FiemapReply) : Prop :=
  ∃ n fm, answer.2 = .mapped n fm ∧ n ≠ 0 ∧ Fileable cfg answer.1 nrZones fm

section Turn

variable {cfg : Config} {m next : Machine} {call : Call}

theorem newExtent_filing {dev : Device} {nrFiles : UInt32} {fm : FiemapExtent} {extent : Extent}
    (result : newExtent cfg dev nrFiles call fm = .ok extent) :
    extent.filing = filingOf cfg call.filename call.extCtr fm ∧ extent.fileID = nrFiles := by
  have ⟨zone, numbered, result⟩ := Runs.bind_ok result
  have ⟨located, reported, result⟩ := Runs.bind_ok result
  have ⟨wp, lbae, cap, lbas, same⟩ := getZoneInfo_ok reported
  have ⟨⟨fsInfo, made⟩, _⟩ := setFsInfo_ok result
  subst made same
  simp [Extent.filing, filingOf, mappedExtent, numbered, Except.toOption]

theorem getExtentsTurn_exists_iff {dev : Device} {n : UInt32} {fm : FiemapExtent} {ctrl : Control} :
    (∃ result, getExtentsTurn cfg dev call (.mapped n fm) ctrl = .ok result) ↔
      n ≠ 0 ∧ Fileable cfg dev ctrl.zonemap.zones.length fm := by
  constructor
  · intro ⟨result, turn⟩
    exact getExtentsTurn_fileable turn
  · intro ⟨shown, fileable⟩
    have shows : ∃ ctrl' accepted progress,
        getExtentsTurn cfg dev call (.mapped n fm) ctrl = .ok (ctrl', accepted, progress) ∧ _ :=
      getExtentsTurn_shown shown fileable
    have ⟨_, _, _, turn, _⟩ := shows
    exact ⟨_, turn⟩

theorem reply_exists_iff {answer : Device × FiemapReply} (pending : m.call = some call) :
    (∃ next, step cfg m (.reply answer.1 answer.2) = .ok next) ↔
      answer.2 = .ioctlFailed ∨ Answerable cfg m.ctrl.zonemap.zones.length answer := by
  have ⟨dev, reply⟩ := answer
  cases reply with
  | ioctlFailed => simp [step, pending, getExtentsTurn, Runs.ok_bind, pure, Except.pure]
  | mapped n fm =>
    have turns : (∃ next, step cfg m (.reply dev (.mapped n fm)) = .ok next) ↔
        ∃ result, getExtentsTurn cfg dev call (.mapped n fm) m.ctrl = .ok result := by
      simp only [step, pending]
      cases getExtentsTurn cfg dev call (.mapped n fm) m.ctrl with
      | error abort => simp [bind, Except.bind]
      | ok result => simp [Runs.ok_bind, pure, Except.pure]
    rw [turns, getExtentsTurn_exists_iff]
    simp [Answerable]

end Turn

section Filings

variable (cfg : Config) (filename : CString) (extCtr : UInt64)

theorem filings_cons (answer : Device × FiemapReply) (rest : List (Device × FiemapReply)) :
    filings cfg filename extCtr (answer :: rest) =
      filings cfg filename extCtr [answer] ++
        filings cfg filename (extCtr + UInt64.ofNat (acceptedCount cfg [answer])) rest := by
  have ⟨dev, reply⟩ := answer
  cases reply with
  | ioctlFailed => simp [filings, acceptedCount, FiemapReply.accepted]
  | mapped n fm =>
    cases skip : disregarded cfg fm <;>
      simp [filings, acceptedCount, FiemapReply.accepted, skip]

theorem length_filings (answers : List (Device × FiemapReply)) :
    (filings cfg filename extCtr answers).length = acceptedCount cfg answers := by
  induction answers generalizing extCtr with
  | nil => rfl
  | cons answer rest ih =>
    rw [filings_cons, List.length_append, ih, acceptedCount, acceptedCount, List.countP_cons]
    have ⟨dev, reply⟩ := answer
    cases reply with
    | ioctlFailed => simp [filings, FiemapReply.accepted]
    | mapped n fm =>
      cases skip : disregarded cfg fm <;> simp [filings, FiemapReply.accepted, skip]
      omega

theorem filings_file (answers : List (Device × FiemapReply)) :
    ∀ filing ∈ filings cfg filename extCtr answers,
      filing.file = filename.take (maxFileLength - 1) := by
  induction answers generalizing extCtr with
  | nil => simp [filings]
  | cons answer rest ih =>
    intro filing inside
    rw [filings_cons] at inside
    rcases List.mem_append.mp inside with first | later
    · have ⟨dev, reply⟩ := answer
      cases reply with
      | ioctlFailed => simp [filings] at first
      | mapped n fm =>
        cases skip : disregarded cfg fm <;> simp [filings, skip] at first
        rw [first]
        rfl
    · exact ih _ filing later

theorem filings_extNr (answers : List (Device × FiemapReply))
    (few : extCtr.toNat + acceptedCount cfg answers < 2 ^ 32) :
    (filings cfg filename extCtr answers).map (·.extNr.toNat) =
      List.range' extCtr.toNat (acceptedCount cfg answers) := by
  induction answers generalizing extCtr with
  | nil => rfl
  | cons answer rest ih =>
    have ⟨dev, reply⟩ := answer
    cases reply with
    | ioctlFailed =>
      have same : acceptedCount cfg ((dev, .ioctlFailed) :: rest) = acceptedCount cfg rest := by
        simp [acceptedCount, FiemapReply.accepted]
      rw [same] at few ⊢
      exact ih extCtr few
    | mapped n fm =>
      cases skip : disregarded cfg fm with
      | true =>
        have same : acceptedCount cfg ((dev, .mapped n fm) :: rest) = acceptedCount cfg rest := by
          simp [acceptedCount, FiemapReply.accepted, skip]
        rw [same] at few ⊢
        simp only [filings, skip, if_true]
        exact ih extCtr few
      | false =>
        have more : acceptedCount cfg ((dev, .mapped n fm) :: rest) =
            acceptedCount cfg rest + 1 := by
          simp [acceptedCount, FiemapReply.accepted, skip]
        rw [more] at few ⊢
        have next : (extCtr + 1).toNat = extCtr.toNat + 1 := by
          rw [UInt64.toNat_add, UInt64.toNat_one, Nat.mod_eq_of_lt (by omega)]
        have own : extCtr.toUInt32.toNat = extCtr.toNat := by
          rw [UInt64.toNat_toUInt32, Nat.mod_eq_of_lt (by omega)]
        simp only [filings, skip, Bool.false_eq_true, if_false, List.map_cons, filingOf, own,
          List.range'_succ]
        rw [ih (extCtr + 1) (by omega), next]

end Filings

structure Answered (cfg : Config) (call : Call) (answer : Device × FiemapReply)
    (m next : Machine) : Prop where
  filed : ∃ new, next.accepted = m.accepted ++ new ∧
    new.map Extent.filing = filings cfg call.filename call.extCtr [answer] ∧
      ∀ e ∈ new, e.fileID = m.ctrl.nrFiles
  zones : next.ctrl.zonemap.zones.length = m.ctrl.zonemap.zones.length
  opened : next.opened = m.opened
  goesOn : answer.2.ends = false → next.failed = m.failed ∧ next.ctrl.nrFiles = m.ctrl.nrFiles ∧
    ∃ later, next.call = some later ∧ later.filename = call.filename ∧
      later.extCtr = call.extCtr + UInt64.ofNat (acceptedCount cfg [answer])
  ends : answer.2.ends = true → next.call = none ∧
    (answer.2 = .ioctlFailed ∧ next.failed = true ∨
      answer.2 ≠ .ioctlFailed ∧ next.failed = m.failed ∧ next.ctrl.nrFiles = m.ctrl.nrFiles + 1)

theorem reply_answered {cfg : Config} {call : Call} {answer : Device × FiemapReply}
    {m next : Machine} (pending : m.call = some call)
    (moved : step cfg m (.reply answer.1 answer.2) = .ok next) : Answered cfg call answer m next := by
  have ⟨dev, reply⟩ := answer
  simp only [step, pending] at moved
  have ⟨⟨ctrl, accepted, progress⟩, turn, rest⟩ := Runs.bind_ok moved
  cases rest
  rcases getExtentsTurn_ok turn with ⟨rfl, rfl, rfl, rfl⟩ |
    ⟨n, fm, rfl, shown, stored, taken, zonemap, map, moves⟩
  · constructor
    · exact ⟨[], by simp, rfl, by simp⟩
    · rfl
    · rfl
    · intro on
      cases on
    · intro _
      exact ⟨rfl, .inl ⟨rfl, by simp [Progress.failed]⟩⟩
  · have count : acceptedCount cfg [(dev, .mapped n fm)] = accepted.toList.length := by
      rcases acceptExtent_ok taken with ⟨skip, -, rfl⟩ | ⟨keep, extent, rfl, -, -⟩
      · simp [acceptedCount, FiemapReply.accepted, skip]
      · simp [acceptedCount, FiemapReply.accepted, keep]
    constructor
    · refine ⟨accepted.toList, rfl, ?_⟩
      rcases acceptExtent_ok taken with ⟨skip, -, rfl⟩ | ⟨keep, extent, rfl, made, -⟩
      · simp [filings, skip]
      · have ⟨own, id⟩ := newExtent_filing made
        simp [filings, keep, own, id]
    · dsimp only
      rw [zonemap]
      exact acceptExtent_zones taken
    · rfl
    · intro on
      have unset : fm.feFlags &&& fiemapExtentLast = 0 := by simpa [FiemapReply.ends] using on
      rcases moves with ⟨last, -⟩ | ⟨-, files, rfl⟩
      · exact absurd unset last
      · refine ⟨by simp [Progress.failed], files, _, rfl, rfl, ?_⟩
        rw [count]
        cases accepted <;> simp
    · intro stop
      have set : fm.feFlags &&& fiemapExtentLast ≠ 0 := by simpa [FiemapReply.ends] using stop
      rcases moves with ⟨-, rfl, files⟩ | ⟨unset, -⟩
      · exact ⟨rfl, .inr ⟨by simp, by simp [Progress.failed], files⟩⟩
      · exact absurd unset set

structure Finished (cfg : Config) (call : Call) (answers : List (Device × FiemapReply))
    (final : Device × FiemapReply) (m next : Machine) : Prop where
  filed : ∃ new, next.accepted = m.accepted ++ new ∧
    new.map Extent.filing = filings cfg call.filename call.extCtr (answers ++ [final]) ∧
      ∀ e ∈ new, e.fileID = m.ctrl.nrFiles
  zones : next.ctrl.zonemap.zones.length = m.ctrl.zonemap.zones.length
  opened : next.opened = m.opened
  idle : next.call = none
  ended : final.2 = .ioctlFailed ∧ next.failed = true ∨
    final.2 ≠ .ioctlFailed ∧ next.failed = m.failed ∧ next.ctrl.nrFiles = m.ctrl.nrFiles + 1

theorem replies_finished {cfg : Config} {final : Device × FiemapReply}
    (ends : final.2.ends = true) (front : List (Device × FiemapReply))
    (goesOn : ∀ answer ∈ front, answer.2.ends = false) {call : Call} {m next : Machine}
    (pending : m.call = some call)
    (run : (replyEvents (front ++ [final])).foldlM (step cfg) m = .ok next) :
    Finished cfg call front final m next := by
  induction front generalizing call m with
  | nil =>
    have moved : step cfg m (.reply final.1 final.2) = .ok next := by
      simpa [replyEvents] using run
    have answered := reply_answered pending moved
    have ⟨idle, ended⟩ := answered.ends ends
    exact ⟨answered.filed, answered.zones, answered.opened, idle, ended⟩
  | cons answer rest ih =>
    simp only [replyEvents, List.cons_append, List.map_cons, List.foldlM_cons] at run
    have ⟨middle, moved, later⟩ := Runs.bind_ok run
    have answered := reply_answered pending moved
    have ⟨failed, files, call', still, name, counter⟩ := answered.goesOn (goesOn answer (by simp))
    have finished := ih (fun other inside => goesOn other (by simp [inside])) still later
    have ⟨first, grown, own, ids⟩ := answered.filed
    have ⟨new, more, others, others_ids⟩ := finished.filed
    constructor
    · refine ⟨first ++ new, by rw [more, grown, List.append_assoc], ?_, ?_⟩
      · rw [List.map_append, own, others, name, counter, ← filings_cons]
        rfl
      · intro e inside
        rcases List.mem_append.mp inside with before | after
        · exact ids e before
        · rw [others_ids e after, files]
    · rw [finished.zones, answered.zones]
    · rw [finished.opened, answered.opened]
    · exact finished.idle
    · rw [← failed, ← files]
      exact finished.ended

theorem replies_exists_iff {cfg : Config} {final : Device × FiemapReply}
    (front : List (Device × FiemapReply)) (goesOn : ∀ answer ∈ front, answer.2.ends = false)
    {call : Call} {m : Machine} (pending : m.call = some call) :
    (∃ next, (replyEvents (front ++ [final])).foldlM (step cfg) m = .ok next) ↔
      (∀ answer ∈ front, Answerable cfg m.ctrl.zonemap.zones.length answer) ∧
        (final.2 = .ioctlFailed ∨ Answerable cfg m.ctrl.zonemap.zones.length final) := by
  induction front generalizing call m with
  | nil =>
    have single : (replyEvents ([] ++ [final])).foldlM (step cfg) m =
        step cfg m (.reply final.1 final.2) := by
      simp [replyEvents]
    rw [single, reply_exists_iff pending]
    simp
  | cons answer rest ih =>
    have on := goesOn answer (by simp)
    have others : ∀ other ∈ rest, other.2.ends = false :=
      fun other inside => goesOn other (by simp [inside])
    have failing : answer.2 ≠ .ioctlFailed := by
      intro failed
      rw [failed] at on
      cases on
    have split : (∃ next, (replyEvents (answer :: rest ++ [final])).foldlM (step cfg) m = .ok next) ↔
        ∃ middle, step cfg m (.reply answer.1 answer.2) = .ok middle ∧
          ∃ next, (replyEvents (rest ++ [final])).foldlM (step cfg) middle = .ok next :=
      Runs.foldlM_cons_exists
    have first : (∃ middle, step cfg m (.reply answer.1 answer.2) = .ok middle) ↔ _ :=
      reply_exists_iff pending
    simp only [failing, false_or] at first
    rw [split, List.forall_mem_cons, and_assoc, ← first]
    constructor
    · intro ⟨middle, moved, later⟩
      have answered := reply_answered pending moved
      have ⟨_, _, call', still, _⟩ := answered.goesOn on
      rw [← answered.zones]
      exact ⟨⟨middle, moved⟩, (ih others still).mp later⟩
    · intro ⟨⟨middle, moved⟩, later⟩
      have answered := reply_answered pending moved
      have ⟨_, _, call', still, _⟩ := answered.goesOn on
      rw [← answered.zones] at later
      exact ⟨middle, moved, (ih others still).mpr later⟩

structure Mapped (cfg : Config) (file : FileCall) (m next : Machine) : Prop where
  filed : ∃ new, next.accepted = m.accepted ++ new ∧
    new.map Extent.filing = filings cfg file.filename 0 file.answers.all ∧
      ∀ e ∈ new, e.fileID = m.ctrl.nrFiles
  zones : next.ctrl.zonemap.zones.length = m.ctrl.zonemap.zones.length
  opened : next.opened = m.opened + 1
  idle : next.call = none
  ended : file.answers.final.2 = .ioctlFailed ∧ next.failed = true ∨
    file.answers.final.2 ≠ .ioctlFailed ∧ next.failed = m.failed ∧
      next.ctrl.nrFiles = m.ctrl.nrFiles + 1

section Call

variable {cfg : Config} {file : FileCall} {m next : Machine}

theorem events_opened (idle : m.call = none) :
    file.events.foldlM (step cfg) m =
      (replyEvents (file.answers.front ++ [file.answers.final])).foldlM (step cfg) { m with
        ctrl := { m.ctrl with fileCounterMap := some (allocFileCounter m.ctrl file.heap) }
        call := some (openCall file.filename file.stBlocks)
        opened := m.opened + 1 } := by
  rw [FileCall.events, List.foldlM_cons, step, idle, FileAnswers.all]
  rfl

theorem file_mapped (idle : m.call = none) (run : file.events.foldlM (step cfg) m = .ok next) :
    Mapped cfg file m next := by
  rw [events_opened idle] at run
  have finished := replies_finished file.answers.ends file.answers.front file.answers.goesOn
    (by rfl) run
  exact ⟨finished.filed, finished.zones, finished.opened, finished.idle, finished.ended⟩

theorem file_exists_iff (idle : m.call = none) :
    (∃ next, file.events.foldlM (step cfg) m = .ok next) ↔
      (∀ answer ∈ file.answers.front,
        Answerable cfg m.ctrl.zonemap.zones.length answer) ∧
      (file.answers.final.2 = .ioctlFailed ∨
        Answerable cfg m.ctrl.zonemap.zones.length file.answers.final) := by
  rw [events_opened idle]
  exact replies_exists_iff file.answers.front file.answers.goesOn (by rfl)

end Call

end ZnsTools
