import ZnsTools.InodeTimeline
import ZnsTools.NvmeTimeline
import ZnsTools.TracegenTracks

set_option autoImplicit false

namespace ZnsTools.AppTimeline

open PyText Tracegen

section Embed

def mapData : MapData → Data
  | .number n => .number n
  | .items entries => .items (entries.map fun entry => (entry.1, .number entry.2))

def rocksdbLines (file : List (List (Text × MapData))) : Lines :=
  file.map fun data => data.map fun map => (map.1, mapData map.2)

-- Where a request is recorded with numbers alone, it is printed as a tuple.
def numbers (vals : List Value) : List Int :=
  vals.filterMap fun
    | .number n => some n
    | .text _ => none

def nvmeData : NvmeData → Data
  | .number n => .number n
  | .items entries => .items (entries.map fun entry => (entry.1, .tuple (numbers entry.2)))

def nvmeLines (file : List (List (Text × NvmeData))) : Lines :=
  file.map fun data => data.map fun map => (map.1, nvmeData map.2)

def Numeric (vals : List Value) : Prop :=
  ∀ value ∈ vals, ∃ n, value = .number n

theorem numbers_map {vals : List Value} (numeric : Numeric vals) :
    (numbers vals).map Value.number = vals := by
  induction vals with
  | nil => rfl
  | cons value rest ih =>
    rw [Numeric, List.forall_mem_cons] at numeric
    obtain ⟨n, rfl⟩ := numeric.1
    exact congrArg (Value.number n :: ·) (ih numeric.2)

def extended (timeline : List Entry) (events : List Tracegen.Event) : List Entry :=
  timeline ++ events.map Entry.event

theorem parseItem_appends (mapName : Text) : Appending.Appends (parseItem mapName) := by
  intro timeline item
  simp only [parseItem, Runs.bind_map]
  rfl

theorem parseNvmeItem_appends (mapName : Text) : Appending.Appends (parseNvmeItem mapName) := by
  intro timeline item
  simp only [parseNvmeItem, Runs.bind_map]
  rfl

theorem rocksdbItem_number (mapName : Text) (item : Text × Int) :
    rocksdbItem mapName (item.1, .number item.2) =
      ((parseItem mapName [] item).mapError .raised).map (·.map Entry.event) := by
  cases first : index (item.1.splitOn ',') 0 with
  | error e => simp only [rocksdbItem, parseItem, first]; rfl
  | ok timestamp =>
    cases second : index (item.1.splitOn ',') 1 with
    | error e => simp only [rocksdbItem, parseItem, first, second]; rfl
    | ok pid =>
      cases third : index (item.1.splitOn ',') 2 with
      | error e => simp only [rocksdbItem, parseItem, first, second, third]; rfl
      | ok tid =>
        cases fourth : pyInt timestamp with
        | error e =>
          simp only [rocksdbItem, parseItem, first, second, third, Except.mapError, Runs.ok_bind,
            fourth]
          rfl
        | ok starttime =>
          simp only [rocksdbItem, first, second, third, Except.mapError, Runs.ok_bind, fourth,
            Datum.int]
          cases parseItem mapName [] item with
          | error e => rfl
          | ok events => rfl

theorem nvmeItem_tuple (mapName key : Text) {vals : List Value} (numeric : Numeric vals) :
    nvmeItem mapName (key, .tuple (numbers vals)) =
      ((parseNvmeItem mapName [] (key, vals)).mapError .raised).map (·.map Entry.event) := by
  cases first : index (key.splitOn ',') 0 with
  | error e => simp only [nvmeItem, parseNvmeItem, first]; rfl
  | ok timestamp =>
    cases second : index (key.splitOn ',') 1 with
    | error e => simp only [nvmeItem, parseNvmeItem, first, second]; rfl
    | ok pid =>
      cases third : index (key.splitOn ',') 2 with
      | error e => simp only [nvmeItem, parseNvmeItem, first, second, third]; rfl
      | ok tid =>
        simp only [nvmeItem, first, second, third, Except.mapError, Runs.ok_bind, Datum.list,
          numbers_map numeric]
        cases parseNvmeItem mapName [] (key, vals) with
        | error e => rfl
        | ok events => rfl

variable {timeline : List Entry}

theorem addItem_simulates {ι : Type} {parse : List Tracegen.Event → ι →
    Except PyError (List Tracegen.Event)} (appends : Appending.Appends parse)
    {parseItem : Text × Datum → Except ReadError (List Entry)} {item : ι} {datum : Text × Datum}
    (same : parseItem datum = ((parse [] item).mapError .raised).map (·.map Entry.event))
    (events : List Tracegen.Event) : addItem parseItem (extended timeline events) datum =
      ((parse events item).mapError .raised).map (extended timeline) := by
  rw [addItem, same, appends events item]
  cases parse [] item with
  | error e => rfl
  | ok more =>
    refine congrArg Except.ok ?_
    simp [extended]

theorem addMap_rocksdb (events : List Tracegen.Event) (map : Text × MapData) :
    addMap false rocksdbItem (extended timeline events) (map.1, mapData map.2) =
      ((parseMap events map).mapError .raised).map (extended timeline) := by
  obtain ⟨name, data⟩ := map
  unfold addMap parseMap
  by_cases probes : "probes".toList <:+: name
  · simp only [probes, if_true]
    rfl
  · simp only [probes, if_false, Bool.false_eq_true, false_and]
    cases data with
    | number n => rfl
    | items entries =>
      exact Runs.foldlM_simulates (fun events item _ => addItem_simulates
        (parseItem_appends name) (rocksdbItem_number name item) events) events

theorem parseRocksdbLines_simulates (file : List (List (Text × MapData)))
    (events : List Tracegen.Event) :
    parseRocksdbLines (rocksdbLines file) (extended timeline events) =
      ((parseRocksdbProbeData file events).mapError .raised).map (extended timeline) :=
  Runs.foldlM_simulates (fun events _ _ =>
    Runs.foldlM_simulates (fun events map _ => addMap_rocksdb events map) events) events

theorem addMap_nvme (events : List Tracegen.Event) {map : Text × NvmeData}
    (numeric : ∀ entries, map.2 = .items entries → ∀ item ∈ entries, Numeric item.2) :
    addMap true nvmeItem (extended timeline events) (map.1, nvmeData map.2) =
      ((parseNvmeMap events map).mapError .raised).map (extended timeline) := by
  obtain ⟨name, data⟩ := map
  unfold addMap parseNvmeMap
  by_cases probes : "probes".toList <:+: name
  · simp only [probes, if_true]
    rfl
  by_cases lost : "events".toList <:+: name
  · simp only [probes, lost, if_true, if_false, and_self]
    rfl
  · simp only [probes, lost, if_false, and_false]
    cases data with
    | number n => rfl
    | items entries =>
      exact Runs.foldlM_simulates (fun events item inside => addItem_simulates
        (parseNvmeItem_appends name)
        (nvmeItem_tuple name item.1 (numeric entries rfl item inside)) events) events

theorem parseNvmeLines_simulates {file : List (List (Text × NvmeData))}
    (numeric : ∀ data ∈ file, ∀ map ∈ data, ∀ entries, map.2 = .items entries →
      ∀ item ∈ entries, Numeric item.2) (events : List Tracegen.Event) :
    parseNvmeLines (nvmeLines file) (extended timeline events) =
      ((parseNvmeProbeData file events).mapError .raised).map (extended timeline) :=
  Runs.foldlM_simulates (fun events _ listed =>
    Runs.foldlM_simulates (fun events map inside =>
      addMap_nvme events (numeric _ listed map inside)) events) events

end Embed

structure AppRun where
  session : InodeProbes.Session
  jobs : List Rocksdb.Event
  commands : List Nvme.Line

def Unread (name : Text) : Prop :=
  ∀ word ∈ ["f2fs", "vfs", "mm", "nvme", "rocksdb"], ¬ word.toList <:+: name

structure AppRun.Data where
  session : InodeProbes.Session.Files
  jobs : List (List (Text × MapData))
  others : List DataFile

variable (run : AppRun)

-- The files that zns-tools.app has the probes write to, and others.
def AppRun.files (data : AppRun.Data) : List DataFile :=
  [⟨"inodes.json".toList, data.session.inodes⟩, ⟨"vfs_data.json".toList, data.session.vfs⟩,
    ⟨"mm_data.json".toList, data.session.mm⟩, ⟨"f2fs_data.json".toList, data.session.f2fs⟩,
    ⟨"nvme_data.json".toList, nvmeLines (run.commands.map Nvme.Line.print)⟩,
    ⟨"rocksdb.json".toList, rocksdbLines data.jobs⟩] ++ data.others

structure AppRun.Directory (files : List DataFile) : Prop where
  names : (files.map DataFile.name).Nodup
  written : ∃ data : AppRun.Data, run.session.Printed data.session ∧
    Rocksdb.PrintedAs (Rocksdb.trace run.jobs) data.jobs ∧
    (∀ file ∈ data.others, Unread file.name) ∧ files.Perm (run.files data)

/-- No call on an inode with a name is overwritten, the finished jobs of RocksDB have their own
starts and keys, and all commands have a thread in the timeline and are recorded as numbers. -/
structure AppRun.Recordable : Prop where
  kept : run.session.Kept
  interleaving : Rocksdb.Interleaving run.jobs
  isolated : Rocksdb.Isolated run.jobs
  flushes : Rocksdb.DistinctKeys (Rocksdb.finishedFlushes run.jobs)
  compactions : Rocksdb.DistinctKeys (Rocksdb.finishedCompactions run.jobs)
  known : ∀ record ∈ Nvme.recordsOf run.commands, record.2.cmd.str ∈ Nvme.commands
  numeric : ∀ record ∈ Nvme.recordsOf run.commands,
    Numeric [record.2.cmd, record.2.zone, record.2.lba]

def AppRun.shown : List Entry :=
  ((Rocksdb.finishedJobs run.jobs).flatMap Rocksdb.beginAndEnd).map Entry.event ++
    (Brackets.ends (Nvme.spans run.commands)).map Entry.event ++
    run.session.calls.map Entry.instant

section Directory

variable {run}

theorem parseFile_inodes (watchInodes : List (Text × Datum)) (timeline : List Entry)
    (lines : Lines) :
    parseFile watchInodes timeline ⟨"inodes.json".toList, lines⟩ = .ok timeline := by
  have noTimeline : ¬ "timeline".toList <:+: "inodes.json".toList := by decide
  have inodes : "inodes".toList <:+: "inodes.json".toList := by decide
  exact (if_neg noTimeline).trans (if_pos inodes)

theorem parseFile_calls {watchInodes : List (Text × Datum)} {timeline : List Entry} {name : Text}
    (named : name ∈ ["vfs_data.json".toList, "mm_data.json".toList, "f2fs_data.json".toList])
    (lines : Lines) : parseFile watchInodes timeline ⟨name, lines⟩ =
      parseF2fsAndVfsProbeData watchInodes lines timeline := by
  have words : ∀ name ∈ ["vfs_data.json".toList, "mm_data.json".toList, "f2fs_data.json".toList],
      ¬ "timeline".toList <:+: name ∧ ¬ "inodes".toList <:+: name ∧
        ("f2fs".toList <:+: name ∨ "vfs".toList <:+: name ∨ "mm".toList <:+: name) := by
    decide
  obtain ⟨noTimeline, noInodes, calls⟩ := words name named
  exact (if_neg noTimeline).trans ((if_neg noInodes).trans (if_pos calls))

theorem parseFiles_calls {watchInodes : List (Text × Datum)} {files : List DataFile}
    (named : ∀ name ∈ files.map DataFile.name,
      name ∈ ["vfs_data.json".toList, "mm_data.json".toList, "f2fs_data.json".toList])
    (timeline : List Entry) : files.foldlM (parseFile watchInodes) timeline =
      (files.map DataFile.lines).foldlM
        (fun timeline file => parseF2fsAndVfsProbeData watchInodes file timeline) timeline := by
  induction files generalizing timeline with
  | nil => rfl
  | cons file rest ih =>
    rw [List.map_cons, List.forall_mem_cons] at named
    rw [List.foldlM_cons, List.map_cons, List.foldlM_cons, parseFile_calls named.1 file.lines]
    exact congrArg _ (funext (ih named.2))

theorem parseFile_later {watchInodes : List (Text × Datum)} {timeline : List Entry} {name : Text}
    (named : name ∈ ["nvme_data.json".toList, "rocksdb.json".toList]) (lines : Lines) :
    parseFile watchInodes timeline ⟨name, lines⟩ =
      if "nvme".toList <:+: name then parseNvmeLines lines timeline
      else if "rocksdb".toList <:+: name then parseRocksdbLines lines timeline
      else .ok timeline := by
  have words : ∀ name ∈ ["nvme_data.json".toList, "rocksdb.json".toList],
      ¬ "timeline".toList <:+: name ∧ ¬ "inodes".toList <:+: name ∧
        ¬ ("f2fs".toList <:+: name ∨ "vfs".toList <:+: name ∨ "mm".toList <:+: name) := by
    decide
  obtain ⟨noTimeline, noInodes, noCalls⟩ := words name named
  exact (if_neg noTimeline).trans ((if_neg noInodes).trans (if_neg noCalls))

theorem parseFile_nvme (watchInodes : List (Text × Datum)) (timeline : List Entry)
    (lines : Lines) : parseFile watchInodes timeline ⟨"nvme_data.json".toList, lines⟩ =
      parseNvmeLines lines timeline := by
  have nvme : "nvme".toList <:+: "nvme_data.json".toList := by decide
  exact (parseFile_later (by decide) lines).trans (if_pos nvme)

theorem parseFile_rocksdb (watchInodes : List (Text × Datum)) (timeline : List Entry)
    (lines : Lines) : parseFile watchInodes timeline ⟨"rocksdb.json".toList, lines⟩ =
      parseRocksdbLines lines timeline := by
  have noNvme : ¬ "nvme".toList <:+: "rocksdb.json".toList := by decide
  have rocksdb : "rocksdb".toList <:+: "rocksdb.json".toList := by decide
  exact (parseFile_later (by decide) lines).trans ((if_neg noNvme).trans (if_pos rocksdb))

theorem parseFile_unread {watchInodes : List (Text × Datum)} {timeline : List Entry}
    {file : DataFile} (unread : Unread file.name) :
    parseFile watchInodes timeline file = .ok timeline := by
  have f2fs := unread "f2fs" (by simp)
  have vfs := unread "vfs" (by simp)
  have mm := unread "mm" (by simp)
  have nvme := unread "nvme" (by simp)
  have rocksdb := unread "rocksdb" (by simp)
  unfold parseFile
  simp only [f2fs, vfs, mm, nvme, rocksdb, or_self, if_false, ite_self]

theorem parseFiles_unread {watchInodes : List (Text × Datum)} {others : List DataFile}
    (unread : ∀ file ∈ others, Unread file.name) (timeline : List Entry) :
    others.foldlM (parseFile watchInodes) timeline = .ok timeline := by
  induction others with
  | nil => rfl
  | cons file rest ih =>
    rw [List.forall_mem_cons] at unread
    rw [List.foldlM_cons, parseFile_unread unread.1]
    exact ih unread.2

theorem numeric_lines (recordable : run.Recordable) :
    ∀ data ∈ run.commands.map Nvme.Line.print, ∀ map ∈ data, ∀ entries,
      map.2 = NvmeData.items entries → ∀ item ∈ entries, Numeric item.2 := by
  intro data listed map inside entries same item member
  obtain ⟨line, own, rfl⟩ := List.mem_map.mp listed
  cases line with
  | probes n =>
    rw [Nvme.Line.print, List.mem_singleton] at inside
    rw [inside] at same
    cases same
  | records recordMap records =>
    rw [Nvme.Line.print, List.mem_singleton] at inside
    rw [inside] at same
    cases same
    obtain ⟨record, there, rfl⟩ := List.mem_map.mp member
    have recorded : (recordMap.sized, record) ∈ Nvme.recordsOf run.commands :=
      List.mem_flatMap.mpr ⟨_, own, List.mem_map_of_mem there⟩
    have numeric := recordable.numeric _ recorded
    intro value given
    rw [Nvme.Record.print, Nvme.Record.values, List.mem_append, List.mem_append] at given
    rcases given with (first | sectors) | completed
    · exact numeric value first
    · split at sectors
      · exact ⟨_, List.mem_singleton.mp sectors⟩
      · cases sectors
    · exact ⟨_, List.mem_singleton.mp completed⟩

theorem commands_added (recordable : run.Recordable) (timeline : List Entry) :
    parseNvmeLines (nvmeLines (run.commands.map Nvme.Line.print)) timeline =
      .ok (timeline ++ (Brackets.ends (Nvme.spans run.commands)).map Entry.event) := by
  have known : ∀ record ∈ Nvme.recordsOf run.commands,
      KeyedObject.find tidMap (getCmd record.2.cmd) ≠ none :=
    fun record inside => (Nvme.find_iff record.2.cmd).mpr (recordable.known record inside)
  have simulated := @parseNvmeLines_simulates timeline _ (numeric_lines recordable) []
  rw [Nvme.parseNvmeProbeData_known known, extended, List.map_nil, List.append_nil] at simulated
  rw [simulated]
  rfl

theorem jobs_added (recordable : run.Recordable) {file : List (List (Text × MapData))}
    (printed : Rocksdb.PrintedAs (Rocksdb.trace run.jobs) file) :
    ∃ events : List Tracegen.Event,
      events.Perm ((Rocksdb.finishedJobs run.jobs).flatMap Rocksdb.beginAndEnd) ∧
      ∀ timeline, parseRocksdbLines (rocksdbLines file) timeline =
        .ok (timeline ++ events.map Entry.event) := by
  have recorded : Rocksdb.Recorded run.jobs := (Rocksdb.recorded_iff recordable.interleaving).mpr
    ⟨recordable.isolated, recordable.flushes, recordable.compactions⟩
  obtain ⟨jobs, perm, parsed⟩ :=
    Rocksdb.timeline_of_recorded recordable.interleaving recorded printed
  refine ⟨jobs.flatMap Rocksdb.beginAndEnd, perm.flatMap_right _, fun timeline => ?_⟩
  have simulated := @parseRocksdbLines_simulates timeline file []
  rw [parsed, extended, List.map_nil, List.append_nil] at simulated
  rw [simulated]
  rfl

theorem files_generated {data : AppRun.Data} {watchInodes : List (Text × Datum)}
    {calls commands jobs : List Entry}
    (read : parseInodes data.session.inodes [] = .ok watchInodes)
    (callsAdded : [data.session.vfs, data.session.mm, data.session.f2fs].foldlM
      (fun timeline file => parseF2fsAndVfsProbeData watchInodes file timeline)
      (setMetadataEvents []) = .ok calls)
    (commandsAdded : parseNvmeLines (nvmeLines (run.commands.map Nvme.Line.print)) calls =
      .ok commands)
    (jobsAdded : parseRocksdbLines (rocksdbLines data.jobs) commands = .ok jobs)
    (unread : ∀ file ∈ data.others, Unread file.name) :
    tracegen (run.files data) = .ok jobs := by
  have found : ((run.files data).find? fun file => file.name = "inodes.json".toList) =
      some ⟨"inodes.json".toList, data.session.inodes⟩ := rfl
  have split : run.files data = [⟨"inodes.json".toList, data.session.inodes⟩] ++
      [⟨"vfs_data.json".toList, data.session.vfs⟩, ⟨"mm_data.json".toList, data.session.mm⟩,
        ⟨"f2fs_data.json".toList, data.session.f2fs⟩] ++
      [⟨"nvme_data.json".toList, nvmeLines (run.commands.map Nvme.Line.print)⟩] ++
      [⟨"rocksdb.json".toList, rocksdbLines data.jobs⟩] ++ data.others := rfl
  have one {name : Text} {lines : Lines} {timeline next : List Entry}
      (own : parseFile watchInodes timeline ⟨name, lines⟩ = .ok next) :
      [DataFile.mk name lines].foldlM (parseFile watchInodes) timeline = .ok next := by
    rw [List.foldlM_cons, own]
    rfl
  have three : [DataFile.mk "vfs_data.json".toList data.session.vfs,
      ⟨"mm_data.json".toList, data.session.mm⟩,
      ⟨"f2fs_data.json".toList, data.session.f2fs⟩].foldlM (parseFile watchInodes)
        (setMetadataEvents []) = .ok calls := by
    rw [parseFiles_calls]
    · exact callsAdded
    · exact fun name inside => inside
  rw [tracegen, found]
  dsimp only
  rw [read, Runs.ok_bind, split, List.foldlM_append, List.foldlM_append, List.foldlM_append,
    List.foldlM_append, one (parseFile_inodes _ _ _), Runs.ok_bind, three, Runs.ok_bind,
    one ((parseFile_nvme _ _ _).trans commandsAdded), Runs.ok_bind,
    one ((parseFile_rocksdb _ _ _).trans jobsAdded), Runs.ok_bind]
  exact parseFiles_unread unread jobs

theorem listed_generated (recordable : run.Recordable) {data : AppRun.Data}
    (printed : run.session.Printed data.session)
    (jobsPrinted : Rocksdb.PrintedAs (Rocksdb.trace run.jobs) data.jobs)
    (unread : ∀ file ∈ data.others, Unread file.name) :
    ∃ timeline, tracegen (run.files data) = .ok timeline ∧
      timeline.Perm (setMetadataEvents [] ++ run.shown) := by
  obtain ⟨watchInodes, calls, read, callsPerm, callsAdded⟩ := InodeProbes.files_added printed
  obtain ⟨jobs, jobsPerm, jobsAdded⟩ := jobs_added recordable jobsPrinted
  rw [InodeProbes.lasting_of_kept recordable.kept] at callsPerm
  refine ⟨_, files_generated read (callsAdded _) (commands_added recordable _) (jobsAdded _)
    unread, ?_⟩
  rw [AppRun.shown, List.append_assoc, List.append_assoc]
  apply List.Perm.append_left
  refine List.perm_append_comm.trans (List.Perm.append ?_ (callsPerm.map _))
  exact List.perm_append_comm.trans ((jobsPerm.map _).append_right _)

/-- The timeline of a directory, in whatever order it is listed, holds the metadata and, in some
order, every job, command and call once. -/
theorem application_timeline (run : AppRun) (recordable : run.Recordable) (files : List DataFile)
    (directory : run.Directory files) :
    ∃ timeline, tracegen files = .ok timeline ∧
      timeline.Perm (setMetadataEvents [] ++ run.shown) := by
  obtain ⟨names, data, printed, jobsPrinted, unread, perm⟩ := directory
  obtain ⟨listed, generated, all⟩ := listed_generated recordable printed jobsPrinted unread
  have distinct := (perm.map DataFile.name).nodup_iff.mp names
  obtain ⟨timeline, same, reordered⟩ := tracegen_perm perm.symm distinct generated
  exact ⟨timeline, same, reordered.symm.trans all⟩

end Directory

section Sample

def sampleRun : AppRun :=
  { session :=
      { zoneSize := 65536
        named := [⟨3136, "000108.sst".toList⟩]
        vfs := [.vfsOpen ⟨1000, 7, 8⟩ 3136, .interval, .vfsFsync ⟨9000, 7, 8⟩ 3136]
        mm := [.doWritepages ⟨2000, 7, 8⟩ 3136]
        f2fs := [.f2fsSubmitPageWrite ⟨3000, 7, 8⟩ ⟨3136, 561532, 1, 0⟩, .interval] }
    jobs := [.flushEntry 7 8 100, .flushReturn 7 8 300]
    commands := [.probes 2, .records Nvme.requests [Nvme.command 0 1000 3000]] }

theorem sample_run_recordable : sampleRun.Recordable := by
  have interleaving : Rocksdb.Interleaving sampleRun.jobs := ⟨by decide, by decide⟩
  have recorded : Rocksdb.Recorded sampleRun.jobs := ⟨by decide, by decide⟩
  obtain ⟨isolated, flushes, compactions⟩ := (Rocksdb.recorded_iff interleaving).mp recorded
  have recordedCommands : ∀ record ∈ Nvme.recordsOf sampleRun.commands,
      record = (true, Nvme.command 0 1000 3000) := by
    intro record inside
    exact List.mem_singleton.mp inside
  refine ⟨⟨by decide, by decide, by decide⟩, interleaving, isolated, flushes, compactions,
    ?_, ?_⟩
  · intro record inside
    rw [recordedCommands record inside]
    decide
  · intro record inside
    rw [recordedCommands record inside]
    intro value given
    simp only [Nvme.command, List.mem_cons, List.not_mem_nil, or_false] at given
    rcases given with rfl | rfl | rfl <;> exact ⟨_, rfl⟩

theorem sample_directory : ∃ files timeline, sampleRun.Directory files ∧
    tracegen files = .ok timeline := by
  obtain ⟨vfs, vfsPrinted⟩ := InodeProbes.printed_exists
    (Flushed.printouts InodeProbes.vfsPrints sampleRun.session.vfsSteps)
  obtain ⟨mm, mmPrinted⟩ := InodeProbes.printed_exists
    (Flushed.printouts InodeProbes.mmPrints sampleRun.session.mmSteps)
  obtain ⟨f2fs, f2fsPrinted⟩ := InodeProbes.printed_exists
    (Flushed.printouts InodeProbes.f2fsPrints sampleRun.session.f2fsSteps)
  let data : AppRun.Data :=
    ⟨⟨[InodeProbes.printProbes 2,
        InodeProbes.printInodes (InodeProbes.inodes sampleRun.session.named)], vfs, mm, f2fs⟩,
      [Rocksdb.printProbes 6, Rocksdb.printMap .flush (Rocksdb.trace sampleRun.jobs).flush,
        Rocksdb.printMap .compaction (Rocksdb.trace sampleRun.jobs).compaction],
      [⟨"README.md".toList, []⟩]⟩
  have printed : sampleRun.session.Printed data.session :=
    ⟨⟨2, _, .refl _, rfl⟩, vfsPrinted, mmPrinted, f2fsPrinted⟩
  have jobsPrinted : Rocksdb.PrintedAs (Rocksdb.trace sampleRun.jobs) data.jobs :=
    ⟨6, _, _, .refl _, .refl _, .refl _⟩
  have unread : ∀ file ∈ data.others, Unread file.name := by
    have readme : Unread "README.md".toList := by
      unfold Unread
      decide
    exact List.forall_mem_singleton.mpr readme
  have names : ["inodes.json".toList, "vfs_data.json".toList, "mm_data.json".toList,
      "f2fs_data.json".toList, "nvme_data.json".toList, "rocksdb.json".toList,
      "README.md".toList].Nodup := by
    decide
  obtain ⟨timeline, generated, _⟩ :=
    listed_generated sample_run_recordable printed jobsPrinted unread
  exact ⟨sampleRun.files data, timeline, ⟨names, data, printed, jobsPrinted, unread, .refl _⟩,
    generated⟩

theorem sample_run_timeline : ∃ files timeline, sampleRun.Directory files ∧
    tracegen files = .ok timeline ∧ timeline.Perm (setMetadataEvents [] ++ sampleRun.shown) := by
  obtain ⟨files, _, directory, _⟩ := sample_directory
  obtain ⟨timeline, generated, perm⟩ :=
    application_timeline sampleRun sample_run_recordable files directory
  exact ⟨files, timeline, directory, generated, perm⟩

end Sample

section Any

/-- The order in which the directory is listed decides no more than the order of the events: it
makes no difference to whether a timeline is generated, or to what is in it. -/
theorem any_listing_order (first second : List DataFile) (perm : first.Perm second)
    (names : (first.map DataFile.name).Nodup) :
    (∀ timeline, tracegen first = .ok timeline →
        ∃ other, tracegen second = .ok other ∧ timeline.Perm other) ∧
      ∀ other, tracegen second = .ok other →
        ∃ timeline, tracegen first = .ok timeline ∧ timeline.Perm other := by
  have others : (second.map DataFile.name).Nodup := (perm.map _).nodup_iff.mp names
  constructor
  · exact fun timeline generated => tracegen_perm perm names generated
  · intro other generated
    obtain ⟨timeline, same, reordered⟩ := tracegen_perm perm.symm others generated
    exact ⟨timeline, same, reordered.symm⟩

theorem sample_any_listing_order : ∃ files timeline other, tracegen files = .ok timeline ∧
    tracegen files.reverse = .ok other ∧ timeline.Perm other := by
  obtain ⟨files, timeline, directory, generated⟩ := sample_directory
  obtain ⟨other, same, reordered⟩ :=
    (any_listing_order files files.reverse files.reverse_perm.symm directory.names).1 timeline
      generated
  exact ⟨files, timeline, other, generated, same, reordered⟩

/-- Whatever is in the files, every event is on a thread that is labelled with its name, in the
process that is labelled with its category. -/
theorem every_event_labelled (files : List DataFile) (timeline : List Entry)
    (generated : tracegen files = .ok timeline) :
    ∀ entry ∈ timeline, ∀ track, entry.track = some track → Tracegen.Labelled timeline track := by
  obtain ⟨shown, rfl, each⟩ := tracegen_split generated
  intro entry inside track own
  have known : track.Known := by
    rcases List.mem_append.mp inside with metadata | new
    · have silent : ∀ entry ∈ setMetadataEvents [], entry.track = none := by
        intro entry inside
        obtain ⟨m, _, rfl⟩ := List.mem_map.mp inside
        rfl
      rw [silent entry metadata] at own
      cases own
    · obtain ⟨other, same, known⟩ := each entry new
      rw [own] at same
      exact Option.some.inj same ▸ known
  constructor
  · rw [filter_shown each namesThread_only, known.pid]
    exact metadata_thread _ known.listed
  · obtain ⟨layer, _, cat, pid, process⟩ := metadata_process _ known.listed
    refine ⟨layer.1, layer.2, known.cat.trans cat, known.pid.trans pid, ?_⟩
    rw [filter_shown each namesProcess_only, known.pid]
    exact process

theorem sample_events_labelled : ∃ files timeline, sampleRun.Directory files ∧
    tracegen files = .ok timeline ∧
      ∀ entry ∈ timeline, ∀ track, entry.track = some track → Tracegen.Labelled timeline track := by
  obtain ⟨files, timeline, directory, generated⟩ := sample_directory
  exact ⟨files, timeline, directory, generated, every_event_labelled files timeline generated⟩

end Any

end ZnsTools.AppTimeline
