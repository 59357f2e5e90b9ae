import ZnsTools.FileCounters

set_option autoImplicit false

namespace ZnsTools

-- The entry that `increase_file_extent_counter` writes to.
def extentSlot (file : CString) (counters : FileCounterMap) : Nat :=
  ((counters.files.take counters.fileCtr.toNat).findIdx? fun entry => entry.file == file).getD
    counters.fileCtr.toNat

-- The entries that an event writes to: a call clears one in a table that is there already, and an
-- accepted extent is counted in one.
def tableWrites (cfg : Config) (m : Machine) : Event → List Nat
  | .call _ _ _ =>
    if m.call.isSome then [] else (m.ctrl.fileCounterMap.map (·.fileCtr.toNat)).toList
  | .reply dev reply =>
    match m.call with
    | none => []
    | some call =>
      match getExtentsTurn cfg dev call reply m.ctrl with
      | .ok (_, some extent, _) => (m.ctrl.fileCounterMap.map (extentSlot extent.file)).toList
      | _ => []

/-- The states between the calls that a report makes: it heads a zone, counts an extent for its file
and shows the parts of the extent, whichever extents of the zone map come when. Each part makes one
call of `set_segment_counters` at most, with the manager it finds. -/
inductive Reporting (cfg : Config) (dev : Device) (ctrl : Control) : ReportState → Prop
  | start : Reporting cfg dev ctrl (ReportState.start ctrl)
  | headed {state next : ReportState} {e : Extent} {lines : List Line}
      (before : Reporting cfg dev ctrl state) (inside : e ∈ ctrl.zonemap.extents)
      (shown : showZoneHeading cfg dev e state = .ok (next, lines)) : Reporting cfg dev ctrl next
  | counted {state : ReportState} {counters counted : FileCounterMap} {e : Extent}
      {numSegments curSegment : UInt32} {segI : SegmentInfo} {zoneCap : UInt64}
      (before : Reporting cfg dev ctrl state) (inside : e ∈ ctrl.zonemap.extents)
      (map : state.fileCounterMap = some counters)
      (increased : increaseFileSegmentCounter cfg counters e.file numSegments curSegment segI
        zoneCap = .ok counted) :
      Reporting cfg dev ctrl { state with fileCounterMap := some counted }
  | whole {state : ReportState} {e : Extent} (counters : FileCounterMap) (segI : SegmentInfo)
      (before : Reporting cfg dev ctrl state) (inside : e ∈ ctrl.zonemap.extents) :
      Reporting cfg dev ctrl (showWholeExtent cfg ctrl.nrFiles counters segI e state).1
  | beginning {state : ReportState} {e : Extent} (counters : FileCounterMap) (segI : SegmentInfo)
      (before : Reporting cfg dev ctrl state) (inside : e ∈ ctrl.zonemap.extents) :
      Reporting cfg dev ctrl (showBeginning cfg ctrl.nrFiles counters segI e state).1
  | middle {state : ReportState} {e : Extent} (counters : FileCounterMap) (segI : SegmentInfo)
      (before : Reporting cfg dev ctrl state) (inside : e ∈ ctrl.zonemap.extents) :
      Reporting cfg dev ctrl (showMiddle cfg ctrl.nrFiles counters segI e state).1
  | remainder {state : ReportState} {e : Extent} (counters : FileCounterMap) (segI : SegmentInfo)
      (before : Reporting cfg dev ctrl state) (inside : e ∈ ctrl.zonemap.extents) :
      Reporting cfg dev ctrl (showRemainder cfg ctrl.nrFiles counters segI e state).1

structure Indexed (counters : FileCounterMap) (fs : List FileStats) : Prop where
  distinct : (fs.map (·.filename)).Nodup
  listed : ∀ stats ∈ fs, stats.filename ∈ counters.names

namespace Indexed

variable {counters : FileCounterMap} {fs : List FileStats}

theorem length_le (indexed : Indexed counters fs) :
    fs.length ≤ counters.files.length := by
  have subset : fs.map (·.filename) ⊆ counters.names := by
    intro name inside
    obtain ⟨stats, member, rfl⟩ := List.mem_map.mp inside
    exact indexed.listed stats member
  calc fs.length = (fs.map (·.filename)).length := (List.length_map _).symm
    _ ≤ counters.names.length := indexed.distinct.length_le_of_subset subset
    _ = min counters.fileCtr.toNat counters.files.length := by
      rw [FileCounterMap.names, FileCounterMap.used, List.length_map, List.length_take]
    _ ≤ counters.files.length := Nat.min_le_right _ _

theorem getFileStatsIndex (indexed : Indexed counters fs) {file : CString}
    (listed : file ∈ counters.names) :
    Indexed counters (getFileStatsIndex fs file).1 ∧
      (getFileStatsIndex fs file).2 < (getFileStatsIndex fs file).1.length := by
  rw [ZnsTools.getFileStatsIndex]
  cases found : fs.findIdx? fun stats => sameName stats.filename file with
  | some index => exact ⟨indexed, (List.findIdx?_eq_some_iff_findIdx_eq.mp found).1⟩
  | none =>
    rw [List.findIdx?_eq_none_iff] at found
    have apart : ∀ name ∈ fs.map (·.filename), ∀ other ∈ [file], name ≠ other := by
      intro name inside other same matched
      obtain ⟨stats, member, rfl⟩ := List.mem_map.mp inside
      rw [List.mem_singleton.mp same] at matched
      have different := found stats member
      rw [(sameName_iff _ _).mpr matched] at different
      cases different
    refine ⟨⟨?_, ?_⟩, by simp⟩
    · rw [List.map_append]
      exact List.nodup_append.mpr ⟨indexed.distinct, by simp, apart⟩
    · intro stats inside
      rcases List.mem_append.mp inside with old | new
      · exact indexed.listed stats old
      · rw [List.mem_singleton.mp new]
        exact listed

end Indexed

section Report

variable {cfg : Config} {dev : Device} {ctrl : Control} {counters : FileCounterMap}

theorem FileStats.addTyped_filename (stats : FileStats) (numSegments : UInt32)
    (type : SegmentType) : (stats.addTyped numSegments type).filename = stats.filename := by
  cases type <;> rfl

theorem FileStats.addSegments_filename (stats : FileStats) (numSegments zone : UInt32) :
    (stats.addSegments numSegments zone).filename = stats.filename := by
  rw [FileStats.addSegments]
  split <;> rfl

theorem SegmapManager.addTyped_fs (man : SegmapManager) (numSegments : UInt32)
    (type : SegmentType) : (man.addTyped numSegments type).fs = man.fs := by
  cases type <;> rfl

theorem setSegmentCounters_indexed {nrFiles numSegments : UInt32} {e : Extent} {segI : SegmentInfo}
    {man : SegmapManager} (indexed : Indexed counters man.fs) (listed : e.file ∈ counters.names) :
    Indexed counters (setSegmentCounters cfg nrFiles numSegments e segI man).fs := by
  rw [setSegmentCounters]
  split
  · exact indexed
  · dsimp only
    split
    · obtain ⟨found, -⟩ := indexed.getFileStatsIndex listed
      rw [SegmapManager.addTyped_fs]
      have names : ∀ stats : FileStats,
          ((stats.addSegments numSegments e.zone).addTyped numSegments segI.type).filename =
            stats.filename := by
        intro stats
        rw [FileStats.addTyped_filename, FileStats.addSegments_filename]
      refine ⟨?_, ?_⟩
      · rw [map_modify names]
        exact found.distinct
      · intro stats inside
        rcases mem_modify inside with old | ⟨other, old, rfl⟩
        · exact found.listed stats old
        · rw [names]
          exact found.listed other old
    · rw [SegmapManager.addTyped_fs]
      exact indexed

structure InTables (counters : FileCounterMap) (state : ReportState) : Prop where
  tracking : Tracking counters state
  indexed : Indexed counters state.segmapMan.fs

theorem Reporting.inTables {state : ReportState} (tracked : ctrl.fileCounterMap = some counters)
    (listed : ∀ e ∈ ctrl.zonemap.extents, e.file ∈ counters.names)
    (reporting : Reporting cfg dev ctrl state) : InTables counters state := by
  induction reporting with
  | start => exact ⟨⟨counters, tracked, .refl counters⟩, by simp [ReportState.start], by
      simp [ReportState.start]⟩
  | headed before inside shown ih =>
    rw [(showZoneHeading_ok shown).1]
    exact ⟨ih.tracking, ih.indexed⟩
  | counted before inside map increased ih =>
    obtain ⟨current, same, kept⟩ := ih.tracking
    rw [same] at map
    cases map
    exact ⟨⟨_, rfl, kept.trans (increaseFileSegmentCounter_sameFiles increased)⟩, ih.indexed⟩
  | @whole state e _ segI before inside ih =>
    rw [showWholeExtent]
    dsimp only
    split
    · exact ⟨ih.tracking, ih.indexed⟩
    · exact ⟨ih.tracking, setSegmentCounters_indexed ih.indexed (listed e inside)⟩
  | @beginning state e _ segI before inside ih =>
    rw [showBeginning]
    split
    · exact ih
    · exact ⟨ih.tracking, setSegmentCounters_indexed ih.indexed (listed e inside)⟩
  | @middle state e _ segI before inside ih =>
    rw [showMiddle]
    split
    · refine ⟨ih.tracking, ?_⟩
      simp only [showConsecutiveSegments]
      by_cases both : (cfg.showClassStats && cfg.procfs) = true
      · rw [if_pos both]
        exact setSegmentCounters_indexed ih.indexed (listed e inside)
      · rw [if_neg both]
        exact ih.indexed
    · exact ih
  | @remainder state e _ segI before inside ih =>
    rw [showRemainder]
    split
    · exact ih
    · exact ⟨ih.tracking, setSegmentCounters_indexed ih.indexed (listed e inside)⟩

theorem Reporting.turn {state : ReportState} (before : Reporting cfg dev ctrl state) {e : Extent}
    (inside : e ∈ ctrl.zonemap.extents) {flow : CursorLoop.Flow ReportState (List Line)}
    (result : showExtentTurn cfg dev ctrl.nrFiles e state = .ok flow) :
    Reporting cfg dev ctrl flow.state := by
  rw [showExtentTurn] at result
  dsimp only at result
  split at result
  · cases result
    exact before
  · split at result
    · cases result
      exact before
    · obtain ⟨⟨next, heading⟩, headed, result⟩ := Runs.bind_ok result
      obtain ⟨segI, info, result⟩ := Runs.bind_ok result
      obtain ⟨counters, map, result⟩ := Runs.bind_ok result
      obtain ⟨counted, increased, result⟩ := Runs.bind_ok result
      cases result
      have ready := Reporting.counted (before.headed inside headed) inside (deref_ok map) increased
      simp only [CursorLoop.Flow.state, showExtent]
      split
      · exact ready.whole counted segI inside
      · exact ((ready.beginning counted segI inside).middle counted segI inside).remainder counted
          segI inside

theorem showSegments_reporting {fuel : List Extent → Nat} {final : ReportState}
    {passes : List ReportPass}
    (result : showSegments cfg dev fuel ctrl = some (.ok (final, passes))) :
    Reporting cfg dev ctrl final := by
  refine (CursorLoop.scans_keeps (Reporting cfg dev ctrl) (Reporting cfg dev ctrl) _ ?_
    (fun _ holds => holds) ?_ result .start).1
  · intro extents listed e inside state flow before turn
    exact before.turn (mem_scanned listed inside) turn
  · intro state next before same
    cases same
    exact before

end Report

section Mapping

variable {cfg : Config} {m next : Machine}

/-- What keeps the accesses of a state, of the next event and of a report inside the tables. -/
structure Machine.InBounds (cfg : Config) (m : Machine) : Prop where
  idle : ∀ counters, m.ctrl.fileCounterMap = some counters → m.call = none →
    counters.fileCtr ≤ m.ctrl.nrFiles
  writes : ∀ event next, step cfg m event = .ok next → next.opened < 2 ^ 32 →
    ∀ index ∈ tableWrites cfg m event, ∃ table, next.ctrl.fileCounterMap = some table ∧
      index < table.files.length
  fresh : ∀ event next counters table, step cfg m event = .ok next →
    m.ctrl.fileCounterMap = some counters → next.ctrl.fileCounterMap = some table →
    table.fileCtr ≠ counters.fileCtr →
      counters.files[counters.fileCtr.toNat]? = some FileCounter.zero
  report : m.call = none → ∀ dev state, Reporting cfg dev m.ctrl state →
    ∀ e ∈ m.ctrl.zonemap.extents,
      (∃ table index, state.fileCounterMap = some table ∧ table.find? e.file = some index ∧
        index < table.files.length) ∧
      (getFileStatsIndex state.segmapMan.fs e.file).2 < m.ctrl.nrFiles.toNat

theorem extentSlot_unlisted {counters : FileCounterMap} {file : CString}
    (unlisted : file ∉ counters.names) : extentSlot file counters = counters.fileCtr.toNat := by
  have missed := not_not.mp (mt (find?_isSome_iff counters file).mp unlisted)
  rw [find?_eq, FileCounterMap.used] at missed
  rw [extentSlot, missed, Option.getD_none]

theorem extentSlot_lt {counters : FileCounterMap} {file : CString}
    (slot : file ∈ counters.names ∨
      counters.files[counters.fileCtr.toNat]? = some FileCounter.zero) :
    extentSlot file counters < counters.files.length := by
  by_cases listed : file ∈ counters.names
  · obtain ⟨index, found⟩ :=
      Option.ne_none_iff_exists'.mp ((find?_isSome_iff counters file).mpr listed)
    have inside := (find?_lt found).1
    rw [find?_eq, FileCounterMap.used] at found
    rwa [extentSlot, found, Option.getD_some]
  · rw [extentSlot_unlisted listed]
    exact (List.getElem?_eq_some_iff.mp (slot.resolve_left listed)).1

theorem increaseFileExtentCounter_length (file : CString) (counters : FileCounterMap) :
    (increaseFileExtentCounter file counters).files.length = counters.files.length := by
  rw [increaseFileExtentCounter]
  split <;> simp

theorem Machine.Filed.counts (filed : m.Filed) {dev : Device} {call : Call} {reply : FiemapReply}
    {ctrl : Control} {extent : Extent} {progress : Progress} (pending : m.call = some call)
    (turn : getExtentsTurn cfg dev call reply m.ctrl = .ok (ctrl, some extent, progress)) :
    ∃ counters, m.ctrl.fileCounterMap = some counters ∧
      ctrl.fileCounterMap = some (increaseFileExtentCounter extent.file counters) ∧
      (extent.file ∈ counters.names ∨
        counters.files[counters.fileCtr.toNat]? = some FileCounter.zero) := by
  rcases getExtentsTurn_ok turn with
    ⟨-, -, none, -⟩ | ⟨n, fm, -, -, stored, taken, -, map, -⟩
  · cases none
  · rcases acceptExtent_ok taken with ⟨-, -, none⟩ | ⟨-, other, same, made, kept⟩
    · cases none
    · cases same
      cases before : m.ctrl.fileCounterMap with
      | none => simp [(filed.started before).1] at pending
      | some counters =>
        obtain ⟨-, slot⟩ := filed.pending counters call before pending
        obtain ⟨zonemap, -, rfl⟩ := storeExtent_ok kept
        rw [before, Option.map_some] at map
        exact ⟨counters, rfl, map, newExtent_file made ▸ slot⟩

theorem Machine.Filed.writes (filed : m.Filed) {event : Event} (moved : step cfg m event = .ok next)
    (few : next.opened < 2 ^ 32) {index : Nat} (written : index ∈ tableWrites cfg m event) :
    ∃ table, next.ctrl.fileCounterMap = some table ∧ index < table.files.length := by
  cases event with
  | call filename stBlocks heap =>
    rw [tableWrites] at written
    rw [step] at moved
    cases call : m.call with
    | some pending => simp [call] at written
    | none =>
      simp only [call, Option.isSome_none, Bool.false_eq_true, if_false, Option.mem_toList] at written
      simp only [call, Except.ok.injEq] at moved
      subst moved
      obtain ⟨counters, map, rfl⟩ := Option.map_eq_some_iff.mp written
      have counted := filed.counted
      simp only [call, Option.isSome_none, Bool.false_eq_true, if_false] at counted
      dsimp only at few
      obtain ⟨-, -, slot, -⟩ := allocFileCounter_filed heap
        (fun counters map => ⟨filed.sound counters map, filed.idle counters map call⟩)
        (fun none => (filed.started none).2.1) (by omega)
      have position : (allocFileCounter m.ctrl heap).fileCtr = counters.fileCtr := by
        rw [allocFileCounter, map]
      rw [position] at slot
      exact ⟨_, rfl, (List.getElem?_eq_some_iff.mp slot).1⟩
  | reply dev reply =>
    rw [tableWrites] at written
    split at written
    · cases written
    · next call pending =>
      split at written
      · next ctrl extent progress turn =>
        obtain ⟨counters, before, after, slot⟩ := filed.counts pending turn
        simp only [before, Option.map_some, Option.toList_some, List.mem_singleton] at written
        subst written
        simp only [step, pending, turn, Runs.ok_bind] at moved
        cases moved
        refine ⟨_, after, ?_⟩
        rw [increaseFileExtentCounter_length]
        exact extentSlot_lt slot
      · cases written

theorem Machine.Filed.fresh (filed : m.Filed) {event : Event} {counters table : FileCounterMap}
    (moved : step cfg m event = .ok next) (before : m.ctrl.fileCounterMap = some counters)
    (after : next.ctrl.fileCounterMap = some table) (grown : table.fileCtr ≠ counters.fileCtr) :
    counters.files[counters.fileCtr.toNat]? = some FileCounter.zero := by
  rcases step_cases moved with
    rfl | ⟨_, _, heap, -, rfl⟩ | ⟨dev, reply, call, ctrl, accepted, progress, -, pending, turn, rfl⟩
  · rw [before] at after
    cases after
    exact absurd rfl grown
  · dsimp only at after
    rw [allocFileCounter, before] at after
    cases after
    exact absurd rfl grown
  · dsimp only at after
    cases accepted with
    | some extent =>
      obtain ⟨current, same, counted, slot⟩ := filed.counts pending turn
      rw [before] at same
      cases same
      rw [after] at counted
      cases counted
      rcases slot with listed | free
      · exact absurd (increaseFileExtentCounter_old (filed.sound _ before) listed).2.2.2 grown
      · exact free
    | none =>
      have unchanged : ctrl.fileCounterMap = m.ctrl.fileCounterMap := by
        rcases getExtentsTurn_ok turn with ⟨-, rfl, -⟩ | ⟨n, fm, -, -, stored, taken, -, map, -⟩
        · rfl
        · rcases acceptExtent_ok taken with ⟨-, rfl, -⟩ | ⟨-, extent, some, -⟩
          · exact map
          · cases some
      rw [unchanged, before] at after
      cases after
      exact absurd rfl grown

theorem Machine.Filed.report (filed : m.Filed) (idle : m.call = none) {dev : Device}
    {state : ReportState} (reporting : Reporting cfg dev m.ctrl state) {e : Extent}
    (inside : e ∈ m.ctrl.zonemap.extents) :
    (∃ table index, state.fileCounterMap = some table ∧ table.find? e.file = some index ∧
      index < table.files.length) ∧
      (getFileStatsIndex state.segmapMan.fs e.file).2 < m.ctrl.nrFiles.toNat := by
  cases map : m.ctrl.fileCounterMap with
  | none => simp [(filed.started map).2.2] at inside
  | some counters =>
    have listed := filed.listed counters map
    obtain ⟨⟨table, same, kept⟩, indexed⟩ := reporting.inTables map listed
    obtain ⟨index, found⟩ :=
      Option.ne_none_iff_exists'.mp ((find?_isSome_iff counters e.file).mpr (listed e inside))
    rw [← kept.find?] at found
    refine ⟨⟨table, index, same, found, (find?_lt found).1⟩, ?_⟩
    have ⟨grown, below⟩ := indexed.getFileStatsIndex (listed e inside)
    rw [← filed.idle counters map idle]
    exact Nat.lt_of_lt_of_le below grown.length_le

/-- However files are mapped, the tables are indexed inside their bounds, a new entry starts out
empty, and the report finds every file it looks up. -/
theorem file_tables_in_bounds (cfg : Config) (events : List Event) (m : Machine)
    (run : collect cfg events = .ok m) (finished : m.failed = false) (few : m.opened < 2 ^ 32) :
    m.InBounds cfg ∧ ∀ dev fuel final passes,
      showSegments cfg dev fuel m.ctrl = some (.ok (final, passes)) →
        Reporting cfg dev m.ctrl final := by
  have filed := collect_filed run finished few
  refine ⟨⟨?_, ?_, ?_, ?_⟩, fun dev fuel final passes => showSegments_reporting⟩
  · intro counters map idle
    rw [UInt32.le_iff_toNat_le, ← filed.idle counters map idle]
    exact (filed.sound counters map).inside
  · intro event next moved small index written
    exact filed.writes moved small written
  · intro event next counters table moved before after grown
    exact filed.fresh moved before after grown
  · intro idle dev state reporting e inside
    exact filed.report idle reporting inside

def mixedEvents : List Event :=
  mapFile { warmConfig with offset := 4096 } [97] 16 [⟨0, 4096, 4096, fiemapExtentLast⟩] ++
    mapFile { warmConfig with offset := 4096 } [98] 16 [⟨0, 0, 4096, fiemapExtentLast⟩] ++
    mapFile { warmConfig with offset := 4096 } [99] 16 [⟨0, 12288, 4096, fiemapExtentLast⟩]

theorem mixed_tables_in_bounds :
    (collect { warmConfig with offset := 4096 } mixedEvents).map (fun m =>
      (m.ctrl.nrFiles, m.ctrl.fileCounterMap.map fun counters =>
        (counters.fileCtr, counters.files.length))) = .ok (3, some (2, 3)) ∧
      ∃ m, collect { warmConfig with offset := 4096 } mixedEvents = .ok m ∧
        m.InBounds { warmConfig with offset := 4096 } ∧ ∀ dev fuel final passes,
          showSegments { warmConfig with offset := 4096 } dev fuel m.ctrl =
              some (.ok (final, passes)) →
            Reporting { warmConfig with offset := 4096 } dev m.ctrl final := by
  have checked : (collect { warmConfig with offset := 4096 } mixedEvents).map
      (fun m => (m.failed, m.opened)) = .ok (false, 3) := by decide +kernel
  obtain ⟨m, run, state⟩ := Runs.map_ok checked
  simp only [Prod.mk.injEq] at state
  obtain ⟨finished, opened⟩ := state
  exact ⟨by decide +kernel, m, run,
    file_tables_in_bounds _ _ m run finished (by rw [opened]; decide)⟩

end Mapping

end ZnsTools
