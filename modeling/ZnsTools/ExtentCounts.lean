import ZnsTools.FileCounters
import ZnsTools.FileMapping

set_option autoImplicit false

namespace ZnsTools

section Table

variable {counters : FileCounterMap} {file : CString}

theorem getFileExtentCount_eq (counters : FileCounterMap) (file : CString) :
    getFileExtentCount counters file =
      ((counters.used.find? fun entry => entry.file == file).map (·.extCtr)).getD 0 := by
  rw [getFileExtentCount, find?_eq, List.find?_eq_bind_findIdx?_getElem?]
  cases found : counters.used.findIdx? fun entry => entry.file == file with
  | none => rfl
  | some index =>
    have inside := (List.findIdx?_eq_some_iff_findIdx_eq.mp found).1
    have below : index < counters.fileCtr.toNat := by
      rw [FileCounterMap.used, List.length_take] at inside
      omega
    simp [FileCounterMap.used, below]

theorem find?_modify {used : List FileCounter} {index : Nat} {f : FileCounter → FileCounter}
    (same : ∀ entry, (f entry).file = entry.file)
    (here : used.findIdx? (fun entry => entry.file == file) = some index) (other : CString) :
    (used.modify index f).find? (fun entry => entry.file == other) =
      if other = file then (used.find? fun entry => entry.file == other).map f
      else used.find? fun entry => entry.file == other := by
  have names := map_modify same used index
  have search : (used.modify index f).findIdx? (fun entry => entry.file == other) =
      used.findIdx? fun entry => entry.file == other := by
    have mapped := congrArg (fun names => names.findIdx? (· == other)) names
    simpa [List.findIdx?_map, Function.comp_def] using mapped
  rw [List.find?_eq_bind_findIdx?_getElem?, List.find?_eq_bind_findIdx?_getElem?, search]
  cases found : used.findIdx? fun entry => entry.file == other with
  | none => simp
  | some place =>
    have at_index := List.findIdx?_eq_some_iff_getElem.mp here
    have at_place := List.findIdx?_eq_some_iff_getElem.mp found
    have ⟨inside, own, _⟩ := at_index
    have ⟨below, name, _⟩ := at_place
    rw [beq_iff_eq] at own name
    by_cases equal : other = file
    · subst equal
      rw [here] at found
      cases found
      simp
    · have apart : index ≠ place := by
        rintro rfl
        exact equal (name.symm.trans own)
      simp [equal, apart]

theorem getFileExtentCount_increase (short : file.length ≤ maxFileLength)
    (slot : file ∈ counters.names ∨
      counters.files[counters.fileCtr.toNat]? = some FileCounter.zero)
    (small : counters.files.length < 2 ^ 32) (other : CString) :
    getFileExtentCount (increaseFileExtentCounter file counters) other =
      getFileExtentCount counters other + if other = file then 1 else 0 := by
  rw [getFileExtentCount_eq, getFileExtentCount_eq]
  cases found : counters.find? file with
  | some index =>
    have here := found
    rw [find?_eq] at here
    rw [used_known found, find?_modify ?_ here]
    · by_cases equal : other = file
      · subst equal
        rw [List.find?_eq_bind_findIdx?_getElem?, here]
        have inside := (List.findIdx?_eq_some_iff_findIdx_eq.mp here).1
        simp [List.getElem?_eq_getElem inside]
      · simp [equal]
    · intro entry
      rfl
  | none =>
    have unlisted : file ∉ counters.names := by
      intro listed
      exact (find?_isSome_iff counters file).mpr listed found
    have missed := found
    rw [find?_eq, List.findIdx?_eq_none_iff] at missed
    rw [used_unknown found short (slot.resolve_left unlisted) small, List.find?_append]
    by_cases equal : other = file
    · subst equal
      have none : counters.used.find? (fun entry => entry.file == other) = none := by
        rw [List.find?_eq_none]
        intro entry inside
        simpa using missed entry inside
      simp [none]
    · have apart : file ≠ other := Ne.symm equal
      simp [equal, apart]

end Table

/-- Every count in the table is the number of extents accepted under that name. -/
def Machine.Counted (m : Machine) : Prop :=
  (m.ctrl.fileCounterMap = none → m.accepted = []) ∧
    ∀ counters, m.ctrl.fileCounterMap = some counters → ∀ file,
      getFileExtentCount counters file = UInt32.ofNat (m.accepted.countP fun e => e.file == file)

theorem step_history {cfg : Config} {m next : Machine} {event : Event}
    (moved : step cfg m event = .ok next) :
    (next.failed = false → m.failed = false) ∧ m.opened ≤ next.opened := by
  rcases step_cases moved with rfl | ⟨_, _, _, -, rfl⟩ | ⟨_, _, _, _, _, _, -, -, -, rfl⟩
  · exact ⟨id, Nat.le_refl _⟩
  · exact ⟨id, Nat.le_succ _⟩
  · simp +contextual

theorem run_unfailed {cfg : Config} {events : List Event} {m last : Machine}
    (run : events.foldlM (step cfg) m = .ok last) (finished : last.failed = false) :
    m.failed = false := by
  by_contra failed
  have still : last.failed ≠ false := by
    refine Runs.foldlM_invariant (fun m => m.failed ≠ false) ?_ run failed
    intro state event _ next holds moved finished
    exact holds ((step_history moved).1 finished)
  exact still finished

theorem call_counted {m : Machine} (filed : m.Filed) (counted : m.Counted) (idle : m.call = none)
    (filename : CString) (stBlocks : UInt64) (heap : FileCounter) (few : m.opened + 1 < 2 ^ 32) :
    Machine.Counted { m with
      ctrl := { m.ctrl with fileCounterMap := some (allocFileCounter m.ctrl heap) }
      call := some (openCall filename stBlocks)
      opened := m.opened + 1 } := by
  have opened := filed.counted
  refine ⟨by simp, fun counters map file => ?_⟩
  cases map
  cases before : m.ctrl.fileCounterMap with
  | none =>
    have empty := counted.1 before
    simp [allocFileCounter, before, empty, getFileExtentCount_eq, FileCounterMap.used]
  | some old =>
    obtain ⟨_, _, _, used⟩ := allocFileCounter_filed heap
      (fun counters map => ⟨filed.sound counters map, filed.idle counters map idle⟩)
      (fun none => (filed.started none).2.1) (by omega)
    rw [getFileExtentCount_eq, used old before, ← getFileExtentCount_eq]
    exact counted.2 old before file

theorem turn_counted {cfg : Config} {dev : Device} {call : Call} {reply : FiemapReply}
    {m : Machine} {ctrl : Control} {accepted : Option Extent} {progress : Progress}
    (filed : m.Filed) (counted : m.Counted) (pending : m.call = some call)
    (turn : getExtentsTurn cfg dev call reply m.ctrl = .ok (ctrl, accepted, progress))
    (few : m.opened < 2 ^ 32) :
    Machine.Counted ⟨ctrl, progress.call, m.accepted ++ accepted.toList, m.opened,
      m.failed || progress.failed⟩ := by
  rcases getExtentsTurn_ok turn with ⟨-, rfl, rfl, -⟩ | ⟨n, fm, -, -, stored, taken, -, map, -⟩
  · simpa [Machine.Counted] using counted
  · rcases acceptExtent_ok taken with ⟨-, rfl, rfl⟩ | ⟨-, extent, rfl, made, kept⟩
    · simpa [Machine.Counted, map] using counted
    · have ⟨zonemap, _, same⟩ := storeExtent_ok kept
      have table : ctrl.fileCounterMap =
          m.ctrl.fileCounterMap.map (increaseFileExtentCounter extent.file) := by
        rw [map, same]
      cases before : m.ctrl.fileCounterMap with
      | none => simp [(filed.started before).1] at pending
      | some old =>
        have opened := filed.counted
        have ⟨length, slot⟩ := filed.pending old call before pending
        rw [pending, Option.isSome_some, if_pos rfl] at opened
        have name := newExtent_file made
        have short : extent.file.length ≤ maxFileLength := by
          rw [name, List.length_take]
          exact Nat.le_trans (Nat.min_le_left _ _) (Nat.sub_le _ _)
        rw [← name] at slot
        rw [before, Option.map_some] at table
        refine ⟨by simp [table], fun counters map' file => ?_⟩
        rw [table] at map'
        cases map'
        rw [getFileExtentCount_increase short slot (by omega), counted.2 old before,
          List.countP_append]
        by_cases own : extent.file = file
        · simp [own, UInt32.ofNat_add]
        · simp [own, Ne.symm own]

theorem step_counted {cfg : Config} {m next : Machine} {event : Event}
    (moved : step cfg m event = .ok next) (filed : m.Filed) (few : next.opened < 2 ^ 32)
    (counted : m.Counted) : next.Counted := by
  rcases step_cases moved with
    rfl | ⟨filename, stBlocks, heap, idle, rfl⟩ | ⟨_, _, _, _, _, _, -, pending, turn, rfl⟩
  · exact counted
  · exact call_counted filed counted idle filename stBlocks heap few
  · exact turn_counted filed counted pending turn few

theorem events_filed {cfg : Config} {events : List Event} {m next : Machine}
    (run : events.foldlM (step cfg) m = .ok next) (finished : next.failed = false)
    (holds : m.opened < 2 ^ 32 → m.Filed ∧ m.Counted) :
    next.opened < 2 ^ 32 → next.Filed ∧ next.Counted := by
  have kept : next.failed = false → next.opened < 2 ^ 32 → next.Filed ∧ next.Counted := by
    refine Runs.foldlM_invariant
      (fun m => m.failed = false → m.opened < 2 ^ 32 → m.Filed ∧ m.Counted) ?_ run fun _ => holds
    intro state event _ next holds moved finished few
    have ⟨failed, opened⟩ := step_history moved
    have ⟨filed, counted⟩ := holds (failed finished) (by omega)
    exact ⟨step_filed moved (fun _ _ => filed) finished (by omega),
      step_counted moved filed few counted⟩
  exact kept finished

theorem start_counted (cfg : Config) : (Machine.start cfg).Counted := by
  simp [Machine.Counted, Machine.start, initControl]

theorem collect_counted {cfg : Config} {events : List Event} {m : Machine}
    (run : collect cfg events = .ok m) (finished : m.failed = false)
    (few : m.opened < 2 ^ 32) : m.Counted :=
  (events_filed run finished (fun _ => ⟨start_filed cfg, start_counted cfg⟩) few).2

end ZnsTools
