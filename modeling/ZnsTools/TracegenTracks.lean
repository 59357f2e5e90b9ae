import Mathlib.Data.List.Nodup
import ZnsTools.TracegenMain

set_option autoImplicit false

namespace ZnsTools.Tracegen

open Appending KeyedObject PyText

structure Track where
  name : Text
  cat : Option Text
  pid : Option Nat
  tid : Nat

def Entry.track : Entry → Option Track
  | .event e => some ⟨e.name, e.cat, e.pid, e.tid⟩
  | .instant i => some ⟨i.name, i.cat, i.pid, i.tid⟩
  | .metadata _ => none

def Entry.namesThread (pid : Option Nat) (tid : Nat) : Entry → Bool
  | .metadata m => m.name = "thread_name".toList ∧ m.pid = pid ∧ m.tid = tid
  | _ => false

def Entry.namesProcess (pid : Option Nat) : Entry → Bool
  | .metadata m => m.name = "process_name".toList ∧ m.pid = pid
  | _ => false

/-- One metadata event names the thread after the event, and one the process after its layer. -/
structure Labelled (timeline : List Entry) (track : Track) : Prop where
  thread : timeline.filter (Entry.namesThread track.pid track.tid) =
    [.metadata (threadName (track.name, track.tid))]
  process : ∃ layer pid, track.cat = some layer ∧ track.pid = some pid ∧
    timeline.filter (Entry.namesProcess track.pid) = [.metadata (processName layer pid)]

structure Track.Known (track : Track) : Prop where
  listed : (track.name, track.tid) ∈ tidMap
  cat : track.cat = getCat track.name
  pid : track.pid = getPid track.name

def Entry.Shown (entry : Entry) : Prop :=
  ∃ track, entry.track = some track ∧ track.Known

section Known

theorem newEvent_known {name : Text} {timestamp : Int} {phase : Char} {event : Event}
    (created : newEvent name timestamp phase = .ok event) :
    Track.Known ⟨event.name, event.cat, event.pid, event.tid⟩ := by
  obtain ⟨ts, _, later⟩ := Runs.bind_ok created
  cases found : find tidMap name with
  | none =>
    rw [found] at later
    cases later
  | some tid =>
    rw [found] at later
    cases later
    exact ⟨mem_of_find found, rfl, rfl⟩

theorem parseItem_known {mapName : Text} {item : Text × Int} {events : List Event}
    (parsed : parseItem mapName [] item = .ok events) :
    ∀ event ∈ events, (Entry.event event).Shown := by
  obtain ⟨_, _, parsed⟩ := Runs.bind_ok parsed
  obtain ⟨_, _, parsed⟩ := Runs.bind_ok parsed
  obtain ⟨_, _, parsed⟩ := Runs.bind_ok parsed
  obtain ⟨_, _, parsed⟩ := Runs.bind_ok parsed
  obtain ⟨first, began, parsed⟩ := Runs.bind_ok parsed
  obtain ⟨second, ended, parsed⟩ := Runs.bind_ok parsed
  cases parsed
  have begins := newEvent_known began
  have ends := newEvent_known ended
  rw [List.nil_append, List.forall_mem_cons, List.forall_mem_singleton]
  exact ⟨⟨_, rfl, begins⟩, ⟨_, rfl, ends⟩⟩

theorem parseNvmeItem_known {mapName : Text} {item : Text × List Value} {events : List Event}
    (parsed : parseNvmeItem mapName [] item = .ok events) :
    ∀ event ∈ events, (Entry.event event).Shown := by
  obtain ⟨_, _, parsed⟩ := Runs.bind_ok parsed
  obtain ⟨_, _, parsed⟩ := Runs.bind_ok parsed
  obtain ⟨_, _, parsed⟩ := Runs.bind_ok parsed
  obtain ⟨_, _, parsed⟩ := Runs.bind_ok parsed
  obtain ⟨⟨args, time⟩, _, parsed⟩ := Runs.bind_ok parsed
  obtain ⟨_, _, parsed⟩ := Runs.bind_ok parsed
  obtain ⟨first, began, parsed⟩ := Runs.bind_ok parsed
  obtain ⟨_, _, parsed⟩ := Runs.bind_ok parsed
  obtain ⟨second, ended, parsed⟩ := Runs.bind_ok parsed
  cases parsed
  have begins := newEvent_known began
  have ends := newEvent_known ended
  rw [List.nil_append, List.forall_mem_cons, List.forall_mem_singleton]
  exact ⟨⟨_, rfl, begins⟩, ⟨_, rfl, ends⟩⟩

theorem newInstant_known {name timestamp : Text} {args : List (Text × Option Datum)}
    {instant : Instant} (created : newInstant name timestamp args = .ok instant) :
    (Entry.instant instant).Shown := by
  obtain ⟨_, _, created⟩ := Runs.bind_ok created
  obtain ⟨event, new, created⟩ := Runs.bind_ok created
  cases created
  exact ⟨_, rfl, newEvent_known (Runs.mapError_ok new)⟩

end Known

section Items

theorem f2fsAndVfsItem_shown {watchInodes : List (Text × Datum)} {mapName : Text}
    {item : Text × Datum} {entries : List Entry}
    (parsed : f2fsAndVfsItem watchInodes mapName item = .ok entries) :
    ∀ entry ∈ entries, entry.Shown := by
  obtain ⟨_, _, parsed⟩ := Runs.bind_ok parsed
  obtain ⟨_, _, parsed⟩ := Runs.bind_ok parsed
  obtain ⟨_, _, parsed⟩ := Runs.bind_ok parsed
  obtain ⟨⟨inode, args⟩, _, parsed⟩ := Runs.bind_ok parsed
  dsimp only at parsed
  split at parsed
  · cases parsed
    simp
  · obtain ⟨instant, created, parsed⟩ := Runs.bind_ok parsed
    cases parsed
    rw [List.forall_mem_singleton]
    exact newInstant_known created

theorem shown_events {events : List Event}
    (each : ∀ event ∈ events, (Entry.event event).Shown) :
    ∀ entry ∈ events.map Entry.event, entry.Shown := by
  rw [List.forall_mem_map]
  exact each

theorem nvmeItem_shown {mapName : Text} {item : Text × Datum} {entries : List Entry}
    (parsed : nvmeItem mapName item = .ok entries) : ∀ entry ∈ entries, entry.Shown := by
  obtain ⟨_, _, parsed⟩ := Runs.bind_ok parsed
  obtain ⟨_, _, parsed⟩ := Runs.bind_ok parsed
  obtain ⟨_, _, parsed⟩ := Runs.bind_ok parsed
  obtain ⟨_, _, parsed⟩ := Runs.bind_ok parsed
  obtain ⟨events, own, parsed⟩ := Runs.bind_ok parsed
  cases parsed
  exact shown_events (parseNvmeItem_known (Runs.mapError_ok own))

theorem rocksdbItem_shown {mapName : Text} {item : Text × Datum} {entries : List Entry}
    (parsed : rocksdbItem mapName item = .ok entries) : ∀ entry ∈ entries, entry.Shown := by
  obtain ⟨_, _, parsed⟩ := Runs.bind_ok parsed
  obtain ⟨_, _, parsed⟩ := Runs.bind_ok parsed
  obtain ⟨_, _, parsed⟩ := Runs.bind_ok parsed
  obtain ⟨_, _, parsed⟩ := Runs.bind_ok parsed
  obtain ⟨_, _, parsed⟩ := Runs.bind_ok parsed
  obtain ⟨events, own, parsed⟩ := Runs.bind_ok parsed
  cases parsed
  exact shown_events (parseItem_known (Runs.mapError_ok own))

end Items

section Files

variable {parseItem : Text → Text × Datum → Except ReadError (List Entry)}

theorem lines_shown {lost : Bool}
    (each : ∀ mapName item entries, parseItem mapName item = .ok entries →
      ∀ entry ∈ entries, entry.Shown)
    {file : Lines} {timeline : List Entry}
    (parsed : file.foldlM (addLine lost parseItem) [] = .ok timeline) :
    ∀ entry ∈ timeline, entry.Shown := by
  refine (addLine_appends lost).run_forall ?_ parsed (by simp)
  intro data _ line lineParsed
  refine (addMap_appends lost).run_forall ?_ lineParsed (by simp)
  intro map _ part mapParsed
  unfold addMap at mapParsed
  split at mapParsed
  · cases mapParsed
    simp
  · split at mapParsed
    · cases mapParsed
    · split at mapParsed
      · cases mapParsed
      · refine (addItem_appends _).run_forall ?_ mapParsed (by simp)
        intro item _ added itemParsed
        obtain ⟨entries, own, rfl⟩ := Runs.map_ok itemParsed
        exact each map.1 item entries own

theorem parseFile_shown {watchInodes : List (Text × Datum)} {file : DataFile}
    {timeline : List Entry} (parsed : parseFile watchInodes [] file = .ok timeline) :
    ∀ entry ∈ timeline, entry.Shown := by
  unfold parseFile at parsed
  split at parsed
  · cases parsed
    simp
  split at parsed
  · cases parsed
    simp
  split at parsed
  · exact lines_shown (fun _ _ _ => f2fsAndVfsItem_shown) parsed
  split at parsed
  · exact lines_shown (fun _ _ _ => nvmeItem_shown) parsed
  split at parsed
  · exact lines_shown (fun _ _ _ => rocksdbItem_shown) parsed
  · cases parsed
    simp

theorem tracegen_split {files : List DataFile} {timeline : List Entry}
    (generated : tracegen files = .ok timeline) :
    ∃ shown, timeline = setMetadataEvents [] ++ shown ∧ ∀ entry ∈ shown, entry.Shown := by
  rw [tracegen] at generated
  split at generated
  · cases generated
  · obtain ⟨watchInodes, _, parsed⟩ := Runs.bind_ok generated
    have own := (parseFile_appends watchInodes).run (setMetadataEvents []) files
    dsimp only at own
    rw [own] at parsed
    obtain ⟨shown, parts, rfl⟩ := Runs.map_ok parsed
    refine ⟨shown, rfl, ?_⟩
    refine (parseFile_appends watchInodes).run_forall ?_ parts (by simp)
    exact fun file _ part => parseFile_shown

end Files

section Labels

theorem metadata_thread : ∀ entry ∈ tidMap,
    (setMetadataEvents []).filter (Entry.namesThread (getPid entry.1) entry.2) =
      [.metadata (threadName entry)] := by
  decide +kernel

theorem metadata_process : ∀ entry ∈ tidMap, ∃ layer ∈ layers,
    getCat entry.1 = some layer.1 ∧ getPid entry.1 = some layer.2 ∧
      (setMetadataEvents []).filter (Entry.namesProcess (getPid entry.1)) =
        [.metadata (processName layer.1 layer.2)] := by
  decide +kernel

theorem not_metadata {entry : Entry} (shown : entry.Shown) (m : MetaEvent) :
    entry ≠ .metadata m := by
  rintro rfl
  obtain ⟨track, here, _⟩ := shown
  cases here

theorem filter_shown {shown : List Entry} (each : ∀ entry ∈ shown, entry.Shown)
    {names : Entry → Bool} (only : ∀ entry, names entry → ∃ m, entry = .metadata m) :
    (setMetadataEvents [] ++ shown).filter names = (setMetadataEvents []).filter names := by
  have none : shown.filter names = [] := by
    rw [List.filter_eq_nil_iff]
    intro entry inside named
    obtain ⟨m, same⟩ := only entry named
    exact not_metadata (each entry inside) m same
  rw [List.filter_append, none, List.append_nil]

theorem namesThread_only {pid : Option Nat} {tid : Nat} (entry : Entry)
    (named : entry.namesThread pid tid) : ∃ m, entry = .metadata m := by
  cases entry with
  | event e => cases named
  | instant i => cases named
  | metadata m => exact ⟨m, rfl⟩

theorem namesProcess_only {pid : Option Nat} (entry : Entry) (named : entry.namesProcess pid) :
    ∃ m, entry = .metadata m := by
  cases entry with
  | event e => cases named
  | instant i => cases named
  | metadata m => exact ⟨m, rfl⟩

end Labels

section Order

theorem find_file_perm {first second : List DataFile} (perm : first.Perm second)
    (names : (first.map DataFile.name).Nodup) (name : Text) :
    (first.find? fun file => file.name = name) = second.find? fun file => file.name = name := by
  have unique : ∀ file ∈ first, ∀ other ∈ first, file.name = other.name → file = other :=
    fun file here other there => List.inj_on_of_nodup_map names here there
  cases found : first.find? fun file => file.name = name with
  | none =>
    rw [List.find?_eq_none] at found
    rw [eq_comm, List.find?_eq_none]
    exact fun file inside => found file (perm.mem_iff.mpr inside)
  | some file =>
    have here := List.mem_of_find?_eq_some found
    have named := List.find?_some found
    cases again : second.find? fun file => file.name = name with
    | none => exact absurd named (List.find?_eq_none.mp again file (perm.mem_iff.mp here))
    | some other =>
      have there := perm.mem_iff.mpr (List.mem_of_find?_eq_some again)
      have same := List.find?_some again
      simp only [decide_eq_true_eq] at named same
      rw [unique file here other there (named.trans same.symm)]

theorem tracegen_perm {first second : List DataFile} (perm : first.Perm second)
    (names : (first.map DataFile.name).Nodup) {timeline : List Entry}
    (generated : tracegen first = .ok timeline) :
    ∃ other, tracegen second = .ok other ∧ timeline.Perm other := by
  rw [tracegen] at generated ⊢
  rw [← find_file_perm perm names]
  cases found : first.find? fun file => file.name = "inodes.json".toList with
  | none =>
    rw [found] at generated
    cases generated
  | some inodes =>
    rw [found] at generated
    dsimp only at generated ⊢
    obtain ⟨watchInodes, read, parsed⟩ := Runs.bind_ok generated
    obtain ⟨other, ran, same⟩ := (parseFile_appends watchInodes).run_perm perm parsed
    exact ⟨other, by rw [read, Runs.ok_bind, ran], same⟩

end Order

end ZnsTools.Tracegen
