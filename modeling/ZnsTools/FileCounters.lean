import ZnsTools.ReportRuns

set_option autoImplicit false

namespace ZnsTools

theorem sameName_iff (stored file : CString) : sameName stored file = true ↔ stored = file := by
  simp only [sameName, Bool.and_eq_true, beq_iff_eq]
  constructor
  · intro ⟨length, same⟩
    rwa [List.take_length, length, List.take_length] at same
  · intro same
    simp [same]

def FileCounterMap.used (counters : FileCounterMap) : List FileCounter :=
  counters.files.take counters.fileCtr.toNat

def FileCounterMap.names (counters : FileCounterMap) : List CString :=
  counters.used.map (·.file)

-- Only mapping has counted in the entry so far.
def FileCounter.Fresh (entry : FileCounter) : Prop :=
  entry = { FileCounter.zero with file := entry.file, extCtr := entry.extCtr }

instance (entry : FileCounter) : Decidable entry.Fresh :=
  inferInstanceAs (Decidable (_ = _))

structure FileCounterMap.Sound (counters : FileCounterMap) : Prop where
  inside : counters.fileCtr.toNat ≤ counters.files.length
  distinct : counters.names.Nodup
  fresh : ∀ entry ∈ counters.used, entry.Fresh

theorem find?_eq (counters : FileCounterMap) (file : CString) :
    counters.find? file = counters.used.findIdx? fun entry => entry.file == file := by
  rw [FileCounterMap.find?, FileCounterMap.used]
  congr 1
  funext entry
  rw [Bool.eq_iff_iff, sameName_iff, beq_iff_eq]

theorem find?_isSome_iff (counters : FileCounterMap) (file : CString) :
    counters.find? file ≠ none ↔ file ∈ counters.names := by
  rw [find?_eq, Ne, List.findIdx?_eq_none_iff, FileCounterMap.names]
  simp

theorem FileCounterMap.Sound.entry {counters : FileCounterMap} (sound : counters.Sound)
    {file : CString} (listed : file ∈ counters.names) :
    ∃ index entry, counters.find? file = some index ∧ counters.files[index]? = some entry ∧
      entry.Fresh := by
  obtain ⟨index, found⟩ :=
    Option.ne_none_iff_exists'.mp ((find?_isSome_iff counters file).mpr listed)
  have ⟨inside, used⟩ := find?_lt found
  have present := List.getElem?_eq_getElem inside
  refine ⟨index, counters.files[index], found, present, sound.fresh _ ?_⟩
  apply List.mem_of_getElem? (i := index)
  rw [FileCounterMap.used, List.getElem?_take, if_pos used, present]

theorem mem_modify {α : Type} {f : α → α} {list : List α} {index : Nat} {a : α}
    (inside : a ∈ list.modify index f) : a ∈ list ∨ ∃ b ∈ list, a = f b := by
  obtain ⟨other, found⟩ := List.getElem?_of_mem inside
  rw [List.getElem?_modify] at found
  obtain ⟨b, present, rfl⟩ := Option.map_eq_some_iff.mp found
  have member := List.mem_of_getElem? present
  split
  · exact .inr ⟨b, member, rfl⟩
  · exact .inl member

theorem map_modify {α β : Type} {f : α → α} {g : α → β} (same : ∀ a, g (f a) = g a) (list : List α)
    (index : Nat) : (list.modify index f).map g = list.map g := by
  refine List.ext_getElem? fun other => ?_
  rw [List.getElem?_map, List.getElem?_map, List.getElem?_modify]
  cases list[other]? with
  | none => rfl
  | some a => by_cases here : index = other <;> simp [here, same]

section Increase

variable {counters : FileCounterMap} {file : CString}

theorem increaseFileExtentCounter_known {index : Nat} (found : counters.find? file = some index) :
    increaseFileExtentCounter file counters =
      { counters with files := counters.files.modify index fun entry =>
          { entry with extCtr := entry.extCtr + 1 } } := by
  rw [find?_eq, FileCounterMap.used] at found
  rw [increaseFileExtentCounter, found]

theorem increaseFileExtentCounter_unknown (missed : counters.find? file = none) :
    increaseFileExtentCounter file counters =
      { fileCtr := counters.fileCtr + 1
        files := counters.files.modify counters.fileCtr.toNat fun entry =>
          { entry with file := file.take maxFileLength, extCtr := 1 } } := by
  rw [find?_eq, FileCounterMap.used] at missed
  rw [increaseFileExtentCounter, missed]

theorem used_known {index : Nat} (found : counters.find? file = some index) :
    (increaseFileExtentCounter file counters).used =
      counters.used.modify index fun entry => { entry with extCtr := entry.extCtr + 1 } := by
  rw [increaseFileExtentCounter_known found, FileCounterMap.used, List.take_modify]
  rfl

theorem used_unknown (missed : counters.find? file = none) (short : file.length ≤ maxFileLength)
    (slot : counters.files[counters.fileCtr.toNat]? = some FileCounter.zero)
    (small : counters.files.length < 2 ^ 32) :
    (increaseFileExtentCounter file counters).used =
      counters.used ++ [{ FileCounter.zero with file := file, extCtr := 1 }] := by
  have below := (List.getElem?_eq_some_iff.mp slot).1
  have next : (counters.fileCtr + 1).toNat = counters.fileCtr.toNat + 1 := by
    rw [UInt32.toNat_add, UInt32.toNat_one, Nat.mod_eq_of_lt (by omega)]
  rw [increaseFileExtentCounter_unknown missed, FileCounterMap.used, next, List.take_add_one,
    List.getElem?_modify_eq, slot, List.take_modify,
    List.modify_eq_self (List.length_take_le _ _), List.take_of_length_le short]
  rfl

theorem increaseFileExtentCounter_old (sound : counters.Sound) (old : file ∈ counters.names) :
    (increaseFileExtentCounter file counters).Sound ∧
      (increaseFileExtentCounter file counters).names = counters.names ∧
      (increaseFileExtentCounter file counters).files.length = counters.files.length ∧
      (increaseFileExtentCounter file counters).fileCtr = counters.fileCtr := by
  have ⟨index, found⟩ := Option.ne_none_iff_exists'.mp ((find?_isSome_iff counters file).mpr old)
  have counted := increaseFileExtentCounter_known found
  have used := used_known found
  have names : (increaseFileExtentCounter file counters).names = counters.names := by
    rw [FileCounterMap.names, used]
    refine map_modify ?_ _ _
    intro entry
    rfl
  refine ⟨⟨?_, names ▸ sound.distinct, ?_⟩, names, by simp [counted], by rw [counted]⟩
  · rw [counted, List.length_modify]
    exact sound.inside
  · intro entry inside
    rw [used] at inside
    rcases mem_modify inside with before | ⟨other, before, rfl⟩
    · exact sound.fresh entry before
    · have fresh := sound.fresh other before
      rw [FileCounter.Fresh] at fresh ⊢
      rw [fresh]

theorem increaseFileExtentCounter_new (sound : counters.Sound) (short : file.length ≤ maxFileLength)
    (unlisted : file ∉ counters.names)
    (slot : counters.files[counters.fileCtr.toNat]? = some FileCounter.zero)
    (small : counters.files.length < 2 ^ 32) :
    (increaseFileExtentCounter file counters).Sound ∧
      (increaseFileExtentCounter file counters).names = counters.names ++ [file] ∧
      (increaseFileExtentCounter file counters).files.length = counters.files.length := by
  have missed := not_not.mp (mt (find?_isSome_iff counters file).mp unlisted)
  have below := (List.getElem?_eq_some_iff.mp slot).1
  have next : (counters.fileCtr + 1).toNat = counters.fileCtr.toNat + 1 := by
    rw [UInt32.toNat_add, UInt32.toNat_one, Nat.mod_eq_of_lt (by omega)]
  have counted := increaseFileExtentCounter_unknown missed
  have used := used_unknown missed short slot small
  have names : (increaseFileExtentCounter file counters).names = counters.names ++ [file] := by
    simp [FileCounterMap.names, used]
  refine ⟨⟨?_, ?_, ?_⟩, names, by rw [counted, List.length_modify]⟩
  · rw [counted, List.length_modify, next]
    exact below
  · rw [names]
    have apart : ∀ name ∈ counters.names, ∀ other ∈ [file], name ≠ other := by
      intro name inside other listed same
      rw [same, List.mem_singleton.mp listed] at inside
      exact unlisted inside
    exact List.nodup_append.mpr ⟨sound.distinct, by simp, apart⟩
  · intro entry inside
    rw [used] at inside
    rcases List.mem_append.mp inside with before | same
    · exact sound.fresh entry before
    · rw [List.mem_singleton.mp same]
      rfl

end Increase

/-- Between calls there are at least as many entries as are in use; during a call there is a fresh
one besides, until the file of the call has its own. -/
structure Machine.Filed (m : Machine) : Prop where
  started : m.ctrl.fileCounterMap = none →
    m.call = none ∧ m.ctrl.nrFiles = 0 ∧ m.ctrl.zonemap.extents = []
  sound : ∀ counters, m.ctrl.fileCounterMap = some counters → counters.Sound
  listed : ∀ counters, m.ctrl.fileCounterMap = some counters →
    ∀ e ∈ m.ctrl.zonemap.extents, e.file ∈ counters.names
  idle : ∀ counters, m.ctrl.fileCounterMap = some counters → m.call = none →
    counters.files.length = m.ctrl.nrFiles.toNat
  pending : ∀ counters call, m.ctrl.fileCounterMap = some counters → m.call = some call →
    counters.files.length = m.ctrl.nrFiles.toNat + 1 ∧
      (call.filename.take (maxFileLength - 1) ∈ counters.names ∨
        counters.files[counters.fileCtr.toNat]? = some FileCounter.zero)
  counted : m.ctrl.nrFiles.toNat + (if m.call.isSome then 1 else 0) ≤ m.opened

theorem start_filed (cfg : Config) : (Machine.start cfg).Filed where
  started _ := by simp [Machine.start, initControl, initZoneMap, ZoneMap.extents]
  sound counters some := by cases some
  listed counters some := by cases some
  idle counters some := by cases some
  pending counters call some := by cases some
  counted := by simp [Machine.start, initControl]

theorem allocFileCounter_filed {ctrl : Control} (heap : FileCounter)
    (idle : ∀ counters, ctrl.fileCounterMap = some counters →
      counters.Sound ∧ counters.files.length = ctrl.nrFiles.toNat)
    (first : ctrl.fileCounterMap = none → ctrl.nrFiles = 0)
    (few : ctrl.nrFiles.toNat + 1 < 2 ^ 32) :
    (allocFileCounter ctrl heap).Sound ∧
      (allocFileCounter ctrl heap).files.length = ctrl.nrFiles.toNat + 1 ∧
      (allocFileCounter ctrl heap).files[(allocFileCounter ctrl heap).fileCtr.toNat]? =
        some FileCounter.zero ∧
      ∀ counters, ctrl.fileCounterMap = some counters →
        (allocFileCounter ctrl heap).used = counters.used := by
  rw [allocFileCounter]
  cases map : ctrl.fileCounterMap with
  | none =>
    refine ⟨⟨by simp, by simp [FileCounterMap.names, FileCounterMap.used],
      by simp [FileCounterMap.used]⟩, by simp [first map], by simp, by simp⟩
  | some counters =>
    obtain ⟨sound, length⟩ := idle counters map
    have entries : (ctrl.nrFiles + 1).toNat = ctrl.nrFiles.toNat + 1 := by
      rw [UInt32.toNat_add, UInt32.toNat_one, Nat.mod_eq_of_lt few]
    have grown : counters.files.take (ctrl.nrFiles + 1).toNat ++
        List.replicate ((ctrl.nrFiles + 1).toNat - counters.files.length) heap =
          counters.files ++ [heap] := by
      rw [entries, length, Nat.add_sub_cancel_left, List.take_of_length_le (by omega)]
      rfl
    have inside := sound.inside
    simp only [grown]
    have used : ((counters.files ++ [heap]).set counters.fileCtr.toNat FileCounter.zero).take
        counters.fileCtr.toNat = counters.used := by
      rw [List.take_set_of_le (Nat.le_refl _), List.take_append_of_le_length inside]
      rfl
    refine ⟨⟨?_, ?_, ?_⟩, by simp [length], ?_, ?_⟩
    · simp only [List.length_set, List.length_append]
      omega
    · rw [FileCounterMap.names, FileCounterMap.used, used]
      exact sound.distinct
    · intro entry member
      rw [FileCounterMap.used, used] at member
      exact sound.fresh entry member
    · rw [List.getElem?_set_self]
      simp only [List.length_append, List.length_singleton]
      omega
    · intro other same
      rw [FileCounterMap.used, used, ← Option.some.inj same]

theorem newExtent_file {cfg : Config} {dev : Device} {nrFiles : UInt32} {call : Call}
    {fm : FiemapExtent} {extent : Extent} (result : newExtent cfg dev nrFiles call fm = .ok extent) :
    extent.file = call.filename.take (maxFileLength - 1) := by
  obtain ⟨zone, -, result⟩ := Runs.bind_ok result
  obtain ⟨located, reported, result⟩ := Runs.bind_ok result
  obtain ⟨wp, lbae, cap, lbas, rfl⟩ := getZoneInfo_ok reported
  obtain ⟨⟨fsInfo, rfl⟩, -⟩ := setFsInfo_ok result
  rfl

theorem acceptExtent_filed {cfg : Config} {dev : Device} {call : Call} {fm : FiemapExtent}
    {ctrl stored : Control} {accepted : Option Extent} {counters : FileCounterMap}
    (taken : acceptExtent cfg dev call fm ctrl = .ok (stored, accepted))
    (map : ctrl.fileCounterMap = some counters) (sound : counters.Sound)
    (listed : ∀ e ∈ ctrl.zonemap.extents, e.file ∈ counters.names)
    (slot : call.filename.take (maxFileLength - 1) ∈ counters.names ∨
      counters.files[counters.fileCtr.toNat]? = some FileCounter.zero)
    (small : counters.files.length < 2 ^ 32) :
    ∃ current, stored.fileCounterMap = some current ∧ current.Sound ∧
      (∀ e ∈ stored.zonemap.extents, e.file ∈ current.names) ∧
      current.files.length = counters.files.length ∧
      (call.filename.take (maxFileLength - 1) ∈ current.names ∨
        current.files[current.fileCtr.toNat]? = some FileCounter.zero) := by
  rcases acceptExtent_ok taken with ⟨-, rfl, -⟩ | ⟨-, extent, -, made, filed⟩
  · exact ⟨counters, map, sound, listed, rfl, slot⟩
  · have name := newExtent_file made
    have stays : ∀ current : FileCounterMap, (∀ file ∈ counters.names, file ∈ current.names) →
        extent.file ∈ current.names → ∀ e ∈ stored.zonemap.extents, e.file ∈ current.names := by
      intro current kept own e inside
      rcases mem_zonemap_store filed inside with rfl | old
      · exact own
      · exact kept _ (listed e old)
    obtain ⟨zonemap, -, rfl⟩ := storeExtent_ok filed
    rw [map, Option.map_some]
    by_cases old : extent.file ∈ counters.names
    · obtain ⟨kept, names, length, -⟩ := increaseFileExtentCounter_old sound old
      refine ⟨_, rfl, kept, stays _ (by simp [names]) (by rwa [names]), length, .inl ?_⟩
      rwa [names, ← name]
    · have short : extent.file.length ≤ maxFileLength := by
        rw [name, List.length_take]
        exact Nat.le_trans (Nat.min_le_left _ _) (Nat.sub_le _ _)
      have free := slot.resolve_left (by rwa [← name])
      obtain ⟨kept, names, length⟩ := increaseFileExtentCounter_new sound short old free small
      refine ⟨_, rfl, kept, stays _ (by simp +contextual [names]) (by simp [names]), length, .inl ?_⟩
      simp [names, ← name]

theorem call_filed {m : Machine} (filed : m.Filed) (idle : m.call = none) (filename : CString)
    (stBlocks : UInt64) (heap : FileCounter) (few : m.opened + 1 < 2 ^ 32) :
    Machine.Filed { m with
      ctrl := { m.ctrl with fileCounterMap := some (allocFileCounter m.ctrl heap) }
      call := some (openCall filename stBlocks)
      opened := m.opened + 1 } := by
  have counted := filed.counted
  simp only [idle] at counted
  obtain ⟨sound, length, slot, used⟩ := allocFileCounter_filed heap
    (fun counters map => ⟨filed.sound counters map, filed.idle counters map idle⟩)
    (fun none => (filed.started none).2.1) (by simp at counted; omega)
  refine ⟨by simp, ?_, ?_, by simp, ?_, by simp at counted ⊢; omega⟩
  · intro counters map
    cases map
    exact sound
  · intro counters map e inside
    cases map
    cases before : m.ctrl.fileCounterMap with
    | none => simp [(filed.started before).2.2] at inside
    | some old =>
      rw [FileCounterMap.names, used old before]
      exact filed.listed old before e inside
  · intro counters call map opened
    cases map
    exact ⟨length, .inr slot⟩

theorem turn_filed {cfg : Config} {dev : Device} {call : Call} {reply : FiemapReply}
    {m : Machine} {ctrl : Control} {accepted : Option Extent} {progress : Progress}
    (filed : m.Filed) (pending : m.call = some call)
    (turn : getExtentsTurn cfg dev call reply m.ctrl = .ok (ctrl, accepted, progress))
    (finished : progress.failed = false) (few : m.opened < 2 ^ 32) :
    Machine.Filed ⟨ctrl, progress.call, m.accepted ++ accepted.toList, m.opened,
      m.failed || progress.failed⟩ := by
  rcases getExtentsTurn_ok turn with
    ⟨-, -, -, rfl⟩ | ⟨n, fm, -, -, stored, taken, zonemap, map, ended⟩
  · simp [Progress.failed] at finished
  · cases before : m.ctrl.fileCounterMap with
    | none => simp [(filed.started before).1] at pending
    | some counters =>
      obtain ⟨length, slot⟩ := filed.pending counters call before pending
      have counted := filed.counted
      simp only [pending, Option.isSome_some, if_true] at counted
      obtain ⟨current, same, sound, listed, kept, free⟩ := acceptExtent_filed taken before
        (filed.sound counters before) (filed.listed counters before) slot (by omega)
      have now : ctrl.fileCounterMap = some current := map.trans same
      have only : ∀ other, ctrl.fileCounterMap = some other → other = current := by
        intro other found
        exact Option.some.inj (found.symm.trans now)
      have files : ∀ other, ctrl.fileCounterMap = some other → other.Sound ∧
          ∀ e ∈ ctrl.zonemap.extents, e.file ∈ other.names := by
        intro other found
        rw [only other found, zonemap]
        exact ⟨sound, listed⟩
      rcases ended with ⟨-, rfl, grown⟩ | ⟨-, grown, rfl⟩
      · have next : ctrl.nrFiles.toNat = m.ctrl.nrFiles.toNat + 1 := by
          rw [grown, UInt32.toNat_add, UInt32.toNat_one, Nat.mod_eq_of_lt (by omega)]
        refine ⟨by simp [now], fun other found => (files other found).1,
          fun other found => (files other found).2, ?_, by simp [Progress.call], ?_⟩
        · intro other found _
          rw [only other found, next, kept, length]
        · simp only [Progress.call, next]
          simpa using counted
      · refine ⟨by simp [now], fun other found => (files other found).1,
          fun other found => (files other found).2, by simp [Progress.call], ?_, ?_⟩
        · intro other call' found opened
          cases opened
          rw [only other found, grown, kept]
          exact ⟨length, free⟩
        · simp only [Progress.call, grown]
          simpa using counted

theorem step_filed {cfg : Config} {m next : Machine} {event : Event}
    (moved : step cfg m event = .ok next) (holds : m.failed = false → m.opened < 2 ^ 32 → m.Filed)
    (finished : next.failed = false) (few : next.opened < 2 ^ 32) : next.Filed := by
  rcases step_cases moved with
    rfl | ⟨filename, stBlocks, heap, idle, rfl⟩ | ⟨_, _, _, _, _, _, -, pending, turn, rfl⟩
  · exact holds finished few
  · dsimp only at finished few
    exact call_filed (holds finished (by omega)) idle filename stBlocks heap few
  · dsimp only at finished few
    rw [Bool.or_eq_false_iff] at finished
    exact turn_filed (holds finished.1 few) pending turn finished.2 few

theorem collect_filed {cfg : Config} {events : List Event} {m : Machine}
    (run : collect cfg events = .ok m) (finished : m.failed = false)
    (few : m.opened < 2 ^ 32) : m.Filed := by
  refine Runs.foldlM_invariant
    (fun m => m.failed = false → m.opened < 2 ^ 32 → m.Filed) ?_ run ?_ finished few
  · intro state event _ next holds moved
    exact step_filed moved holds
  · intro _ _
    exact start_filed cfg

def Writable (cfg : Config) (dev : Device) : Prop :=
  ∀ sector, ∃ report, dev sector = .zone report ∧
    report.capacity >>> cfg.znsSectorShift.toUInt64 ≠ 0

theorem newExtent_writable {cfg : Config} {dev : Device} (writable : Writable cfg dev)
    {nrFiles : UInt32} {call : Call} {fm : FiemapExtent} {extent : Extent}
    (result : newExtent cfg dev nrFiles call fm = .ok extent) : extent.zoneCap ≠ 0 := by
  obtain ⟨zone, -, result⟩ := Runs.bind_ok result
  obtain ⟨located, reported, result⟩ := Runs.bind_ok result
  obtain ⟨⟨fsInfo, rfl⟩, -⟩ := setFsInfo_ok result
  obtain ⟨report, answer, capacity⟩ := writable
    (cfg.zoneSectors * (mappedExtent cfg nrFiles call fm zone).zone.toUInt64)
  rw [getZoneInfo, answer] at reported
  cases reported
  exact capacity

theorem collect_writable {cfg : Config} {events : List Event} {m : Machine}
    (run : collect cfg events = .ok m)
    (answers : ∀ dev reply, Event.reply dev reply ∈ events → Writable cfg dev) :
    ∀ e ∈ m.ctrl.zonemap.extents, e.zoneCap ≠ 0 := by
  refine Runs.foldlM_invariant (fun m => ∀ e ∈ m.ctrl.zonemap.extents, e.zoneCap ≠ 0) ?_ run ?_
  · intro state event listed next holds moved e inside
    rcases step_cases moved with
      rfl | ⟨_, _, _, -, rfl⟩ | ⟨dev, reply, call, ctrl, accepted, progress, rfl, -, turn, rfl⟩
    · exact holds e inside
    · exact holds e inside
    · rcases getExtentsTurn_ok turn with ⟨-, rfl, -⟩ | ⟨n, fm, -, -, stored, taken, same, -⟩
      · exact holds e inside
      · dsimp only at inside
        rw [same] at inside
        rcases acceptExtent_ok taken with ⟨-, rfl, -⟩ | ⟨-, extent, -, made, filed⟩
        · exact holds e inside
        · rcases mem_zonemap_store filed inside with rfl | old
          · exact newExtent_writable (answers dev reply listed) made
          · exact holds e old
  · intro e inside
    simp [Machine.start, initControl, initZoneMap, ZoneMap.extents] at inside

theorem collect_reportable {cfg : Config} {events : List Event} {m : Machine} {dev : Device}
    {counters : FileCounterMap} (run : collect cfg events = .ok m) (finished : m.failed = false)
    (few : m.opened < 2 ^ 32) (short : m.accepted.length < 2 ^ 32)
    (supported : cfg.toGeometry.Supported) (zoned : cfg.zoneSectors ≠ 0)
    (informed : 0 < cfg.fsInfoBytes)
    (answers : ∀ dev reply, Event.reply dev reply ∈ events → Writable cfg dev)
    (reports : ∀ sector, dev sector ≠ .ioctlFailed)
    (tracked : m.ctrl.fileCounterMap = some counters) :
    Reportable cfg dev m.ctrl counters ∧ counters.Sound where
  left := by
    have filed := collect_filed run finished few
    have consistent := collect_zonemap run short
    have known := collect_collected run
    refine ⟨supported, zoned, reports, tracked, ?_, ?_, collect_writable run answers, ?_,
      consistent.counted, consistent.sorted⟩
    · intro e inside
      exact (find?_isSome_iff counters e.file).mpr (filed.listed counters tracked e inside)
    · intro e inside none
      obtain ⟨segI, found, -⟩ := (known e inside).fsInfo informed
      rw [none] at found
      cases found
    · intro e inside
      have := (known e inside).phyBlk_small supported
      have := (known e inside).len_small supported
      rw [Extent.stop]
      omega
  right := (collect_filed run finished few).sound counters tracked

theorem collected_reportable (cfg : Config) (events : List Event) {opened accepted : Nat}
    (counters : FileCounterMap)
    (checked : (collect cfg events).map (fun m =>
      (m.failed, m.opened, m.accepted.length, m.ctrl.fileCounterMap)) =
        .ok (false, opened, accepted, some counters))
    (few : opened < 2 ^ 32) (short : accepted < 2 ^ 32) (supported : cfg.toGeometry.Supported)
    (informed : 0 < cfg.fsInfoBytes)
    (capacity : cfg.zoneSectors >>> cfg.znsSectorShift.toUInt64 ≠ 0)
    (full : ∀ dev reply, Event.reply dev reply ∈ events → dev = fullZones cfg) :
    Reportable cfg (fullZones cfg) (collected cfg events) counters := by
  obtain ⟨m, run, state⟩ := Runs.map_ok checked
  simp only [Prod.mk.injEq] at state
  obtain ⟨finished, rfl, rfl, tracked⟩ := state
  have zoned : cfg.zoneSectors ≠ 0 := by
    intro none
    simp [none] at capacity
  rw [collected, run]
  refine (collect_reportable run finished few short supported zoned informed ?_ ?_ tracked).1
  · intro dev reply inside sector
    exact ⟨_, by rw [full dev reply inside, fullZones], capacity⟩
  · simp [fullZones]

theorem mapFile_full {cfg : Config} {filename : CString} {stBlocks : UInt64}
    {extents : List FiemapExtent} :
    ∀ dev reply, Event.reply dev reply ∈ mapFile cfg filename stBlocks extents →
      dev = fullZones cfg := by
  intro dev reply inside
  simp only [mapFile, List.mem_cons, reduceCtorEq, List.mem_map, Event.reply.injEq, false_or] at inside
  obtain ⟨fm, -, same, -⟩ := inside
  exact same.symm

-- One file on a device with 512 B sectors, in a segment table of eight warm segments.
def warmConfig : Config :=
  segmapConfig 512 0 16384 2 (List.replicate 8 ⟨0, .cursegWarmData, 512⟩)

def oneFileEvents (phyBlk len : UInt64) : List Event :=
  mapFile warmConfig [97] 16 [⟨0, phyBlk * 512, len * 512, fiemapExtentLast⟩]

def oneFile (phyBlk len : UInt64) : Control :=
  collected warmConfig (oneFileEvents phyBlk len)

def oneFileCounters : FileCounterMap :=
  ⟨1, [{ FileCounter.zero with file := [97], extCtr := 1 }]⟩

theorem oneFile_reportable (phyBlk len : UInt64)
    (checked : (collect warmConfig (oneFileEvents phyBlk len)).map (fun m =>
      (m.failed, m.opened, m.accepted.length, m.ctrl.fileCounterMap)) =
        .ok (false, 1, 1, some oneFileCounters)) :
    Reportable warmConfig (fullZones warmConfig) (oneFile phyBlk len) oneFileCounters :=
  collected_reportable warmConfig _ _ checked (by decide) (by decide) (.inl rfl) (by decide)
    (by decide) mapFile_full

theorem oneFile_fullRange (phyBlk len : UInt64)
    (within : ∀ e ∈ (oneFile phyBlk len).zonemap.extents, e.phyBlk.toNat < 2 * 16384) :
    FullRange warmConfig (oneFile phyBlk len).zonemap :=
  ⟨rfl, rfl, by decide, by decide, within⟩

def splitFileEvents (first second : UInt64 × UInt64) : List Event :=
  mapFile warmConfig [97] 32 [⟨0, first.1 * 512, first.2 * 512, 0⟩,
    ⟨first.2 * 512, second.1 * 512, second.2 * 512, fiemapExtentLast⟩]

def splitFile (first second : UInt64 × UInt64) : Control :=
  collected warmConfig (splitFileEvents first second)

def splitFileCounters : FileCounterMap :=
  ⟨1, [{ FileCounter.zero with file := [97], extCtr := 2 }]⟩

theorem splitFile_reportable (first second : UInt64 × UInt64)
    (checked : (collect warmConfig (splitFileEvents first second)).map (fun m =>
      (m.failed, m.opened, m.accepted.length, m.ctrl.fileCounterMap)) =
        .ok (false, 1, 2, some splitFileCounters)) :
    Reportable warmConfig (fullZones warmConfig) (splitFile first second) splitFileCounters :=
  collected_reportable warmConfig _ _ checked (by decide) (by decide) (.inl rfl) (by decide)
    (by decide) mapFile_full

end ZnsTools
