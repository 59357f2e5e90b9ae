import ZnsTools.FileCounters

set_option autoImplicit false

namespace ZnsTools

def Counts (cfg : Config) (e : Extent) (now next : FileCounter) : Prop :=
  ∃ segI zone, e.fsInfo = some segI ∧
    segmentZone cfg (cfg.segmentId e.phyBlk).toUInt32 = .ok zone ∧
    (now.addSegments (e.endSegment cfg.toGeometry - cfg.segmentId e.phyBlk + 1).toUInt32
        (cfg.segmentId e.phyBlk).toUInt32 segI.type).addZones cfg
      (e.endSegment cfg.toGeometry - cfg.segmentId e.phyBlk + 1).toUInt32 zone e.zoneCap = .ok next

-- `P` holds of the entry that a file had at first, the file's extents so far and its entry now.
def EntryKeeps (P : FileCounter → List Extent → FileCounter → Prop) (counters : FileCounterMap)
    (file : CString) (index : Nat) (entry : FileCounter) (shown : List Extent)
    (state : ReportState) : Prop :=
  ∃ current now, state.fileCounterMap = some current ∧ SameFiles counters current ∧
    current.files[index]? = some now ∧ P entry (shown.filter fun e => e.file == file) now

def AllKeep (P : FileCounter → List Extent → FileCounter → Prop) (counters : FileCounterMap)
    (shown : List Extent) (state : ReportState) : Prop :=
  ∀ file index entry, counters.find? file = some index → counters.files[index]? = some entry →
    EntryKeeps P counters file index entry shown state

section Run

variable {cfg : Config} {counters : FileCounterMap} {file : CString} {index : Nat}
  {entry : FileCounter} {P : FileCounter → List Extent → FileCounter → Prop}

theorem find?_file {place : Nat} {at_place : FileCounter} (found : counters.find? file = some place)
    (present : counters.files[place]? = some at_place) : at_place.file = file := by
  have inside := (find?_lt found).2
  rw [find?_eq] at found
  obtain ⟨below, same⟩ := List.findIdx?_eq_some_iff_getElem.mp found
  have taken : counters.used[place]? = some at_place := by
    rw [FileCounterMap.used, List.getElem?_take, if_pos inside, present]
  obtain ⟨_, rfl⟩ := List.getElem?_eq_some_iff.mp taken
  simpa using same.1

theorem entry_iff {state : ReportState} {current : FileCounterMap} {now : FileCounter}
    (map : state.fileCounterMap = some current) (found : current.find? file = some index)
    (present : current.files[index]? = some now) (Q : FileCounter → Prop) :
    (∃ counters index entry, state.fileCounterMap = some counters ∧
      counters.find? file = some index ∧ counters.files[index]? = some entry ∧ Q entry) ↔ Q now := by
  constructor
  · rintro ⟨counters, place, entry, map', found', present', holds⟩
    obtain rfl := Option.some.inj (map.symm.trans map')
    obtain rfl := Option.some.inj (found.symm.trans found')
    obtain rfl := Option.some.inj (present.symm.trans present')
    exact holds
  · intro holds
    exact ⟨current, index, now, map, found, present, holds⟩

theorem showExtentTurn_keeps {dev : Device} {nrFiles : UInt32} {e : Extent}
    {state : ReportState} {flow : CursorLoop.Flow ReportState (List Line)} {shown : List Extent}
    (found : counters.find? file = some index)
    (before : cfg.segmentLba (cfg.segmentId e.phyBlk) < cfg.endLba)
    (after : cfg.startLba ≤ cfg.segmentLba (cfg.segmentId e.phyBlk))
    (result : showExtentTurn cfg dev nrFiles e state = .ok flow)
    (step : ∀ own now next, P entry own now → Counts cfg e now next → P entry (own ++ [e]) next)
    (keeps : EntryKeeps P counters file index entry shown state) :
    ∃ next out, flow = .advance next out ∧
      EntryKeeps P counters file index entry (shown ++ [e]) next := by
  obtain ⟨current, now, map, same, present, holds⟩ := keeps
  obtain ⟨heading, segI, current', counted, _, -, info, map', increased, rfl, rfl⟩ :=
    showExtentTurn_ok before after result
  obtain rfl := Option.some.inj (map.symm.trans map')
  have kept := increaseFileSegmentCounter_sameFiles increased
  obtain ⟨place, old, zone, next, at_place, old_entry, numbered, added, updated⟩ :=
    increaseFileSegmentCounter_entry increased
  by_cases mine : e.file = file
  · have here : place = index := by
      rw [at_place, mine, same.find?, found, Option.getD_some]
    subst here
    obtain rfl := Option.some.inj (present.symm.trans old_entry)
    refine ⟨_, _, rfl, counted, next, (showExtent_frame _ _ _ _ _).2, same.trans kept,
      by rw [updated]; exact List.getElem?_set_self (List.getElem?_eq_some_iff.mp present).1, ?_⟩
    have latest : (shown ++ [e]).filter (fun e => e.file == file) =
        shown.filter (fun e => e.file == file) ++ [e] := by
      simp [mine]
    rw [latest]
    exact step _ now next holds ⟨segI, zone, info, numbered, added⟩
  · have apart : place ≠ index := by
      intro here
      rw [here] at at_place
      rw [← same.find?] at found
      cases owner : current.find? e.file with
      | none =>
        -- The entry behind those in use is no file's.
        rw [owner, Option.getD_none] at at_place
        have used := (find?_lt found).2
        omega
      | some own =>
        rw [owner, Option.getD_some] at at_place
        rw [← at_place] at owner
        exact mine ((find?_file owner present).symm.trans (find?_file found present))
    refine ⟨_, _, rfl, counted, now, (showExtent_frame _ _ _ _ _).2, same.trans kept,
      by rw [updated]; simpa [List.getElem?_set_ne apart] using present, ?_⟩
    have latest : (shown ++ [e]).filter (fun e => e.file == file) =
        shown.filter (fun e => e.file == file) := by
      simp [mine]
    rw [latest]
    exact holds

end Run

section Report

variable {cfg : Config} {dev : Device} {ctrl : Control} {counters : FileCounterMap}

theorem showSegments_kept (P : FileCounter → List Extent → FileCounter → Prop)
    (supported : cfg.toGeometry.Supported) (full : FullRange cfg ctrl.zonemap)
    (counted : ∀ zone ∈ ctrl.zonemap.zones, zone.extentCtr.toNat = zone.extents.length)
    (tracked : ctrl.fileCounterMap = some counters) (start : ∀ entry, P entry [] entry)
    (step : ∀ e ∈ ctrl.zonemap.extents, ∀ entry own now next, P entry own now →
      Counts cfg e now next → P entry (own ++ [e]) next)
    {fuel : List Extent → Nat} {final : ReportState} {passes : List ReportPass}
    (result : showSegments cfg dev fuel ctrl = some (.ok (final, passes))) :
    AllKeep P counters ctrl.zonemap.extents final ∧
      passes.map CursorLoop.Pass.item = ctrl.zonemap.extents ∧
      ∀ index pass, passes[index]? = some pass →
        AllKeep P counters (ctrl.zonemap.extents.take (index + 1)) pass.after := by
  obtain ⟨last, visited, each⟩ := showSegments_exhausted counted
    (AllKeep P counters) (fun done pass => AllKeep P counters (done ++ [pass.item]) pass.after)
    (by
      intro done e rest split state flow keep turn
      have inside : e ∈ ctrl.zonemap.extents := by simp [split]
      have before := full.before supported inside
      have after : cfg.startLba ≤ cfg.segmentLba (cfg.segmentId e.phyBlk) := by
        rw [full.startLba]
        exact UInt64.zero_le
      obtain ⟨heading, segI, current, counted, shown, -, -, -, -, -, rfl⟩ :=
        showExtentTurn_ok before after turn
      have next : AllKeep P counters (done ++ [e]) shown.1 := by
        intro file index entry found present
        obtain ⟨next, out, same, keeps⟩ := showExtentTurn_keeps found before after turn
          (step e inside entry) (keep file index entry found present)
        cases same
        exact keeps
      exact ⟨_, _, rfl, next, next⟩)
    (by
      intro file index entry found present
      exact ⟨counters, entry, tracked, .refl counters, present, start entry⟩) result
  refine ⟨last, visited, fun index pass found => ?_⟩
  have here : ctrl.zonemap.extents[index]? = some pass.item := by
    rw [← visited, List.getElem?_map, found]
    rfl
  rw [List.take_add_one, here]
  exact each index pass found

theorem showSegments_keeps (P : FileCounter → List Extent → FileCounter → Prop)
    (ready : Reportable cfg dev ctrl counters) (full : FullRange cfg ctrl.zonemap)
    (start : ∀ entry, P entry [] entry)
    (step : ∀ e ∈ ctrl.zonemap.extents, ∀ entry own now next, P entry own now →
      Counts cfg e now next → P entry (own ++ [e]) next) :
    ∃ final passes, showSegments cfg dev List.length ctrl = some (.ok (final, passes)) ∧
      AllKeep P counters ctrl.zonemap.extents final ∧
      passes.map CursorLoop.Pass.item = ctrl.zonemap.extents ∧
      ∀ index pass, passes[index]? = some pass →
        AllKeep P counters (ctrl.zonemap.extents.take (index + 1)) pass.after := by
  obtain ⟨final, passes, result, -⟩ := showSegments_returns ready fun _ _ _ => by
    rw [full.startLba]
    exact UInt64.zero_le
  exact ⟨final, passes, result,
    showSegments_kept P ready.supported full ready.counted ready.tracked start step result⟩

end Report

end ZnsTools
