import ZnsTools.Shared.Perms
import ZnsTools.WalkContents

set_option autoImplicit false

namespace ZnsTools

def Machine.Named (m : Machine) : Prop :=
  ∀ counters, m.ctrl.fileCounterMap = some counters →
    ∀ file ∈ counters.names, ∃ e ∈ m.accepted, e.file = file

theorem start_named (cfg : Config) : (Machine.start cfg).Named := by
  intro counters tracked
  cases tracked

section Step

variable {cfg : Config} {m next : Machine}

theorem call_named (filed : m.Filed) (named : m.Named) (idle : m.call = none) (filename : CString)
    (stBlocks : UInt64) (heap : FileCounter) (few : m.opened + 1 < 2 ^ 32) :
    Machine.Named { m with
      ctrl := { m.ctrl with fileCounterMap := some (allocFileCounter m.ctrl heap) }
      call := some (openCall filename stBlocks)
      opened := m.opened + 1 } := by
  have opened := filed.counted
  intro counters tracked file listed
  cases tracked
  cases before : m.ctrl.fileCounterMap with
  | none => simp [allocFileCounter, before, FileCounterMap.names, FileCounterMap.used] at listed
  | some old =>
    obtain ⟨-, -, -, used⟩ := allocFileCounter_filed heap
      (fun counters map => ⟨filed.sound counters map, filed.idle counters map idle⟩)
      (fun none => (filed.started none).2.1) (by omega)
    rw [FileCounterMap.names, used old before] at listed
    exact named old before file listed

theorem turn_named {dev : Device} {call : Call} {reply : FiemapReply} {ctrl : Control}
    {accepted : Option Extent} {progress : Progress} (filed : m.Filed) (named : m.Named)
    (pending : m.call = some call)
    (turn : getExtentsTurn cfg dev call reply m.ctrl = .ok (ctrl, accepted, progress))
    (few : m.opened < 2 ^ 32) :
    Machine.Named ⟨ctrl, progress.call, m.accepted ++ accepted.toList, m.opened,
      m.failed || progress.failed⟩ := by
  rcases getExtentsTurn_ok turn with ⟨-, rfl, rfl, -⟩ | ⟨n, fm, -, -, stored, taken, -, map, -⟩
  · simpa [Machine.Named] using named
  · rcases acceptExtent_ok taken with ⟨-, rfl, rfl⟩ | ⟨-, extent, rfl, made, kept⟩
    · simpa [Machine.Named, map] using named
    · obtain ⟨zonemap, -, same⟩ := storeExtent_ok kept
      intro counters tracked file listed
      dsimp only at tracked
      rw [map, same] at tracked
      cases before : m.ctrl.fileCounterMap with
      | none => simp [(filed.started before).1] at pending
      | some old =>
        obtain ⟨length, slot⟩ := filed.pending old call before pending
        have opened := filed.counted
        rw [pending, Option.isSome_some, if_pos rfl] at opened
        have name := newExtent_file made
        have sound := filed.sound old before
        rw [before, Option.map_some] at tracked
        cases tracked
        have known : file ∈ old.names ∨ file = extent.file := by
          by_cases present : extent.file ∈ old.names
          · rw [(increaseFileExtentCounter_old sound present).2.1] at listed
            exact .inl listed
          · have short : extent.file.length ≤ maxFileLength := by
              rw [name, List.length_take]
              exact Nat.le_trans (Nat.min_le_left _ _) (Nat.sub_le _ _)
            have free := slot.resolve_left (by rwa [← name])
            rw [(increaseFileExtentCounter_new sound short present free (by omega)).2.1] at listed
            simpa using listed
        rcases known with old_name | rfl
        · obtain ⟨e, inside, own⟩ := named old before file old_name
          exact ⟨e, List.mem_append_left _ inside, own⟩
        · exact ⟨extent, by simp, rfl⟩

theorem step_named {event : Event} (moved : step cfg m event = .ok next) (filed : m.Filed)
    (few : next.opened < 2 ^ 32) (named : m.Named) : next.Named := by
  rcases step_cases moved with
    rfl | ⟨filename, stBlocks, heap, idle, rfl⟩ | ⟨_, _, _, _, _, _, -, pending, turn, rfl⟩
  · exact named
  · exact call_named filed named idle filename stBlocks heap few
  · exact turn_named filed named pending turn few

end Step

theorem events_named {cfg : Config} {events : List Event} {m next : Machine}
    (run : events.foldlM (step cfg) m = .ok next) (finished : next.failed = false)
    (holds : m.opened < 2 ^ 32 → m.Filed ∧ m.Named) : next.opened < 2 ^ 32 → next.Named := by
  have kept : next.failed = false → next.opened < 2 ^ 32 → next.Filed ∧ next.Named := by
    refine Runs.foldlM_invariant
      (fun m => m.failed = false → m.opened < 2 ^ 32 → m.Filed ∧ m.Named) ?_ run fun _ => holds
    intro state event _ next holds moved finished few
    obtain ⟨failed, opened⟩ := step_history moved
    obtain ⟨filed, named⟩ := holds (failed finished) (by omega)
    exact ⟨step_filed moved (fun _ _ => filed) finished (by omega),
      step_named moved filed few named⟩
  exact fun few => (kept finished few).2

section Walk

variable {cfg : Config} {heap : Nat → FileCounter}

theorem walk_named (visits : List Visit) {m last : Machine} (between : Between cfg m)
    (named : m.opened < 2 ^ 32 → m.Named) (done : visits.foldlM (visit cfg heap) m = .ok last) :
    last.opened < 2 ^ 32 → last.Named := by
  induction visits generalizing m with
  | nil =>
    cases done
    exact named
  | cons v rest ih =>
    rw [List.foldlM_cons] at done
    obtain ⟨middle, first, later⟩ := Runs.bind_ok done
    cases v with
    | closedDir => cases first
    | file filename file =>
      cases access : file.access with
      | denied => simp [visit, collectFile, access] at first
      | deleted =>
        have same : m = middle := by simpa [visit, collectFile, access] using first
        subst same
        exact ih between named later
      | opened =>
        obtain ⟨after, -⟩ := collectFile_ok between access first
        obtain ⟨run, unfailed, -⟩ := (collectFile_ok_iff access).mp first
        have kept := events_named run unfailed fun small => ⟨(between.filed small).1, named small⟩
        exact ih after kept later

end Walk

end ZnsTools
