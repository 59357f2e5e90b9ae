import ZnsTools.DirectoryOrder

set_option autoImplicit false

namespace ZnsTools

-- Everything that a walk leaves behind, as far as the order of the visits does not matter to it.

-- An extent apart from the number of the call that filed it.
def Extent.content (e : Extent) : Extent :=
  { e with fileID := 0 }

def FiemapReply.inlined : FiemapReply → Bool
  | .ioctlFailed => false
  | .mapped _ fm => fm.feFlags &&& fiemapExtentDataInline != 0

def inlinedCount (answers : List (Device × FiemapReply)) : Nat :=
  answers.countP fun answer => answer.2.inlined

def contents (cfg : Config) (filename : CString) :
    UInt64 → List (Device × FiemapReply) → List Extent
  | _, [] => []
  | extCtr, (_, .ioctlFailed) :: rest => contents cfg filename extCtr rest
  | extCtr, (dev, .mapped _ fm) :: rest =>
    if disregarded cfg fm then contents cfg filename extCtr rest
    else (newExtent cfg dev 0 ⟨filename, ⟨0, 0⟩, extCtr⟩ fm).toOption.toList ++
      contents cfg filename (extCtr + 1) rest

theorem contents_cons (cfg : Config) (filename : CString) (extCtr : UInt64)
    (answer : Device × FiemapReply) (rest : List (Device × FiemapReply)) :
    contents cfg filename extCtr (answer :: rest) =
      contents cfg filename extCtr [answer] ++
        contents cfg filename (extCtr + UInt64.ofNat (acceptedCount cfg [answer])) rest := by
  obtain ⟨dev, reply⟩ := answer
  cases reply with
  | ioctlFailed => simp [contents, acceptedCount, FiemapReply.accepted]
  | mapped n fm =>
    cases skip : disregarded cfg fm <;>
      simp [contents, acceptedCount, FiemapReply.accepted, skip]

section Extents

variable {cfg : Config} {dev : Device}

theorem getZoneInfo_content (e : Extent) :
    getZoneInfo cfg dev e.content = (getZoneInfo cfg dev e).map Extent.content := by
  simp only [getZoneInfo, Extent.content]
  cases dev (cfg.zoneSectors * e.zone.toUInt64) <;> rfl

theorem setFsInfo_content (e : Extent) :
    setFsInfo cfg e.content = (setFsInfo cfg e).map Extent.content := by
  simp only [setFsInfo, Extent.content]
  split
  · cases fsInfoInitialize cfg.fsManager (cfg.segmentId e.phyBlk).toUInt32 <;> rfl
  · rfl

theorem newExtent_content {nrFiles : UInt32} {call : Call} {fm : FiemapExtent} {extent : Extent}
    (result : newExtent cfg dev nrFiles call fm = .ok extent) :
    newExtent cfg dev 0 ⟨call.filename, ⟨0, 0⟩, call.extCtr⟩ fm = .ok extent.content := by
  obtain ⟨zone, numbered, result⟩ := Runs.bind_ok result
  obtain ⟨located, reported, result⟩ := Runs.bind_ok result
  have place : getZoneInfo cfg dev (mappedExtent cfg nrFiles call fm zone).content =
      .ok located.content := by
    rw [getZoneInfo_content, reported]
    rfl
  have info : setFsInfo cfg located.content = .ok extent.content := by
    rw [setFsInfo_content, result]
    rfl
  rw [newExtent, numbered, Runs.ok_bind]
  change (getZoneInfo cfg dev (mappedExtent cfg nrFiles call fm zone).content >>= _) = _
  rw [place, Runs.ok_bind, info]

theorem getExtentsTurn_rest {call : Call} {reply : FiemapReply} {ctrl next : Control}
    {accepted : Option Extent} {progress : Progress}
    (turn : getExtentsTurn cfg dev call reply ctrl = .ok (next, accepted, progress)) :
    next.curSegment = ctrl.curSegment ∧
      next.inlinedExtentCtr =
        ctrl.inlinedExtentCtr + UInt64.ofNat (inlinedCount [(dev, reply)]) := by
  rw [getExtentsTurn.eq_def] at turn
  split at turn
  · cases turn
    simp [inlinedCount, FiemapReply.inlined]
  · next n fm =>
    split at turn
    · cases turn
    · obtain ⟨⟨stored, extent⟩, taken, turn⟩ := Runs.bind_ok turn
      have same : stored.curSegment = ctrl.curSegment ∧
          stored.inlinedExtentCtr = ctrl.inlinedExtentCtr := by
        rcases acceptExtent_ok taken with ⟨-, rfl, -⟩ | ⟨-, e, -, -, filed⟩
        · exact ⟨rfl, rfl⟩
        · obtain ⟨zonemap, -, rfl⟩ := storeExtent_ok filed
          exact ⟨rfl, rfl⟩
      by_cases inlined : fm.feFlags &&& fiemapExtentDataInline = 0 <;>
        by_cases last : fm.feFlags &&& fiemapExtentLast = 0 <;>
        simp only [inlined, last, bne_self_eq_false, bne_iff_ne, ne_eq, not_false_eq_true,
          Bool.false_eq_true, if_true, if_false, pure, Except.pure, Except.ok.injEq,
          Prod.mk.injEq] at turn <;>
        obtain ⟨rfl, -, -⟩ := turn <;>
        simp [same, inlinedCount, FiemapReply.inlined, inlined]

end Extents

structure Gathered (found : List Extent) (inlined : Nat) (m next : Machine) : Prop where
  accepted : next.accepted.map Extent.content = m.accepted.map Extent.content ++ found
  inlined : next.ctrl.inlinedExtentCtr = m.ctrl.inlinedExtentCtr + UInt64.ofNat inlined
  curSegment : next.ctrl.curSegment = m.ctrl.curSegment
  zoneCtr : next.ctrl.zonemap.zoneCtr = m.ctrl.zonemap.zoneCtr + UInt32.ofNat found.length
  tracked : m.ctrl.fileCounterMap.isSome → next.ctrl.fileCounterMap.isSome

theorem Gathered.refl (m : Machine) : Gathered [] 0 m m where
  accepted := (List.append_nil _).symm
  inlined := (UInt64.add_zero _).symm
  curSegment := rfl
  zoneCtr := (UInt32.add_zero _).symm
  tracked := id

theorem Gathered.trans {found more : List Extent} {inlined others : Nat} {m middle next : Machine}
    (first : Gathered found inlined m middle) (later : Gathered more others middle next) :
    Gathered (found ++ more) (inlined + others) m next where
  accepted := by rw [later.accepted, first.accepted, List.append_assoc]
  inlined := by rw [later.inlined, first.inlined, UInt64.ofNat_add, UInt64.add_assoc]
  curSegment := later.curSegment.trans first.curSegment
  zoneCtr := by
    rw [later.zoneCtr, first.zoneCtr, List.length_append, UInt32.ofNat_add, UInt32.add_assoc]
  tracked some := later.tracked (first.tracked some)

section Replies

variable {cfg : Config} {m next : Machine}

theorem reply_gathered {call : Call} {answer : Device × FiemapReply} (pending : m.call = some call)
    (moved : step cfg m (.reply answer.1 answer.2) = .ok next) :
    Gathered (contents cfg call.filename call.extCtr [answer]) (inlinedCount [answer]) m next := by
  obtain ⟨dev, reply⟩ := answer
  simp only [step, pending] at moved
  obtain ⟨⟨ctrl, accepted, progress⟩, turn, rest⟩ := Runs.bind_ok moved
  cases rest
  obtain ⟨curSegment, inlined⟩ := getExtentsTurn_rest turn
  rcases getExtentsTurn_ok turn with ⟨rfl, rfl, rfl, rfl⟩ |
    ⟨n, fm, rfl, shown, stored, taken, zonemap, map, moves⟩
  · exact ⟨by simp [contents], inlined, curSegment, by simp [contents], id⟩
  · rcases acceptExtent_ok taken with ⟨skip, rfl, rfl⟩ | ⟨keep, extent, rfl, made, filed⟩
    · exact ⟨by simp [contents, skip], inlined, curSegment, by simp [contents, skip, zonemap],
        fun some => by rwa [map]⟩
    · have found : contents cfg call.filename call.extCtr [(dev, .mapped n fm)] =
          [extent.content] := by
        simp [contents, keep, newExtent_content made, Except.toOption]
      obtain ⟨grown, added, rfl⟩ := storeExtent_ok filed
      obtain ⟨zone, -, rfl⟩ := addExtentToZoneList_ok added
      refine ⟨by simp [found], inlined, curSegment, ?_, fun some => ?_⟩
      · rw [found, zonemap]
        rfl
      · rw [map]
        simpa using some

theorem replies_gathered {final : Device × FiemapReply} (front : List (Device × FiemapReply))
    (goesOn : ∀ answer ∈ front, answer.2.ends = false) {call : Call} {m : Machine}
    (pending : m.call = some call)
    (run : (replyEvents (front ++ [final])).foldlM (step cfg) m = .ok next) :
    Gathered (contents cfg call.filename call.extCtr (front ++ [final]))
      (inlinedCount (front ++ [final])) m next := by
  induction front generalizing call m with
  | nil =>
    have moved : step cfg m (.reply final.1 final.2) = .ok next := by
      simpa [replyEvents] using run
    exact reply_gathered pending moved
  | cons answer rest ih =>
    simp only [replyEvents, List.cons_append, List.map_cons, List.foldlM_cons] at run
    obtain ⟨middle, moved, later⟩ := Runs.bind_ok run
    obtain ⟨-, -, call', still, name, counter⟩ :=
      (reply_answered pending moved).goesOn (goesOn answer List.mem_cons_self)
    have first := reply_gathered pending moved
    have others := ih (fun other inside => goesOn other (List.mem_cons_of_mem _ inside)) still later
    rw [name, counter] at others
    have both := first.trans others
    rw [← contents_cons] at both
    have count : inlinedCount (answer :: rest ++ [final]) =
        inlinedCount [answer] + inlinedCount (rest ++ [final]) := by
      rw [inlinedCount, inlinedCount, inlinedCount, ← List.countP_append]
      rfl
    rw [count]
    exact both

theorem file_gathered {file : FileCall} (idle : m.call = none)
    (run : file.events.foldlM (step cfg) m = .ok next) :
    Gathered (contents cfg file.filename 0 file.answers.all) (inlinedCount file.answers.all) m
        next ∧
      next.ctrl.fileCounterMap.isSome := by
  rw [events_opened idle] at run
  have gathered := replies_gathered file.answers.front file.answers.goesOn (by rfl) run
  have tracked := gathered.tracked rfl
  exact ⟨⟨gathered.accepted, gathered.inlined, gathered.curSegment, gathered.zoneCtr,
    fun _ => tracked⟩, tracked⟩

end Replies

def Visit.contents (cfg : Config) : Visit → List Extent
  | .closedDir => []
  | .file filename entry =>
    if entry.access = .opened then ZnsTools.contents cfg filename 0 entry.answers.all else []

def Visit.inlined : Visit → Nat
  | .closedDir => 0
  | .file _ entry => if entry.access = .opened then inlinedCount entry.answers.all else 0

def Visit.mapped : Visit → Bool
  | .closedDir => false
  | .file _ entry => entry.access = .opened

section Walk

variable {cfg : Config} {heap : Nat → FileCounter}

theorem walk_gathered (visits : List Visit) {m last : Machine} (between : Between cfg m)
    (done : visits.foldlM (visit cfg heap) m = .ok last) :
    Gathered (visits.flatMap (Visit.contents cfg)) (visits.map Visit.inlined).sum m last ∧
      last.ctrl.nrFiles = m.ctrl.nrFiles + UInt32.ofNat (visits.countP Visit.mapped) ∧
      (last.ctrl.fileCounterMap.isSome ↔
        m.ctrl.fileCounterMap.isSome ∨ 0 < visits.countP Visit.mapped) := by
  induction visits generalizing m with
  | nil =>
    cases done
    exact ⟨.refl _, by simp, by simp⟩
  | cons v rest ih =>
    rw [List.foldlM_cons] at done
    obtain ⟨middle, first, later⟩ := Runs.bind_ok done
    cases v with
    | closedDir => cases first
    | file filename file =>
      cases access : file.access with
      | denied => simp [visit, collectFile, access] at first
      | deleted =>
        have same : m = middle := by simpa [visit, collectFile, access] using first
        subst same
        simpa [Visit.contents, Visit.inlined, Visit.mapped, access] using ih between later
      | opened =>
        obtain ⟨after, -⟩ := collectFile_ok between access first
        obtain ⟨run, unfailed, -⟩ := (collectFile_ok_iff access).mp first
        obtain ⟨own, tracked⟩ := file_gathered between.idle run
        obtain ⟨others, files, table⟩ := ih after later
        have counted : middle.ctrl.nrFiles = m.ctrl.nrFiles + 1 := by
          rcases (file_mapped between.idle run).ended with ⟨-, failed⟩ | ⟨-, -, grown⟩
          · rw [unfailed] at failed
            cases failed
          · exact grown
        have both := own.trans others
        refine ⟨?_, ?_, ?_⟩
        · simpa [Visit.contents, Visit.inlined, access, FileEntry.call] using both
        · have own : (Visit.file filename file).mapped = true := by simp [Visit.mapped, access]
          rw [files, counted, List.countP_cons_of_pos own, Nat.add_comm, UInt32.ofNat_add,
            UInt32.add_assoc]
          rfl
        · simp [table, tracked, Visit.mapped, access]

end Walk

end ZnsTools
