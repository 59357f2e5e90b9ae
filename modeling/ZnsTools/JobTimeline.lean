import ZnsTools.RocksdbProbes
import ZnsTools.Tracegen

set_option autoImplicit false

namespace ZnsTools.Rocksdb

open BpfMap Emitted KeyedObject PyText
open Tracegen (newEvent parseItem parseMap parseRocksdbProbeData)

inductive Kind where
  | flush
  | compaction
  deriving DecidableEq, Repr

def Kind.name : Kind → Text
  | .flush => "flush".toList
  | .compaction => "compaction".toList

def Kind.tid : Kind → Nat
  | .flush => 4
  | .compaction => 3

def printKey (key : JobKey) : Text :=
  printInt key.1.toNat ++ ',' :: (printInt key.2.1.toNat ++ ',' :: printInt key.2.2.toNat)

-- {"type": "map", "data": {"@name": {"start,pid,tid": value, ...}}}
def printMap (kind : Kind) (entries : List (JobKey × UInt64)) : List (Text × Tracegen.MapData) :=
  [('@' :: kind.name, .items (entries.map fun entry => (printKey entry.1, (entry.2.toNat : Int))))]

def printProbes (n : Int) : List (Text × Tracegen.MapData) :=
  [("probes".toList, .number n)]

/-- The lines that are printed, and the entries of each map, come in any order. -/
def PrintedAs (maps : Maps) (file : List (List (Text × Tracegen.MapData))) : Prop :=
  ∃ probes flushes compactions, flushes.Perm maps.flush ∧ compactions.Perm maps.compaction ∧
    file.Perm [printProbes probes, printMap .flush flushes, printMap .compaction compactions]

def microseconds (nsecs : UInt64) : ℚ :=
  Binary64.toDouble (nsecs.toNat / 1000)

def beginAndEnd (job : Kind × Job) : List Tracegen.Event :=
  [⟨job.1.name, some "RocksDB".toList, 'B', microseconds job.2.start, some 1, job.1.tid, []⟩,
    ⟨job.1.name, some "RocksDB".toList, 'E', microseconds job.2.finish, some 1, job.1.tid, []⟩]

def finishedJobs (events : List Event) : List (Kind × Job) :=
  (finishedFlushes events).map (Kind.flush, ·) ++
    (finishedCompactions events).map (Kind.compaction, ·)

/-- Every finished job is recorded under its own start, and is one B/E pair of the timeline. -/
structure Traced (events : List Event) : Prop where
  recorded : Recorded events
  timeline : ∀ file, PrintedAs (trace events) file → ∃ jobs : List (Kind × Job),
    jobs.Perm (finishedJobs events) ∧
      parseRocksdbProbeData file [] = .ok (jobs.flatMap beginAndEnd)

section Parse

theorem newEvent_kind (kind : Kind) (nsecs : UInt64) (phase : Char) :
    newEvent kind.name nsecs.toNat phase =
      .ok ⟨kind.name, some "RocksDB".toList, phase, microseconds nsecs, some 1, kind.tid, []⟩ := by
  have bound : |((nsecs.toNat : Nat) : Int)| ≤ 2 ^ 64 := by
    rw [Nat.abs_cast]
    exact_mod_cast nsecs.toNat_lt.le
  rw [newEvent, trueDiv_ok bound (by decide), Runs.ok_bind]
  cases kind with
  | flush => rfl
  | compaction => rfl

theorem split_key (key : JobKey) : (printKey key).splitOn ',' =
    [printInt key.1.toNat, printInt key.2.1.toNat, printInt key.2.2.toNat] := by
  have plain : ∀ n : Nat, ',' ∉ printInt n := fun n => not_mem_printInt (by decide) (by decide) n
  rw [printKey, List.splitOn_append_cons_self_of_not_mem (plain _),
    List.splitOn_append_cons_self_of_not_mem (plain _), List.splitOn_eq_singleton (plain _)]

theorem parseItem_entry (kind : Kind) {job : Job} (later : job.start ≤ job.finish)
    (timeline : List Tracegen.Event) :
    parseItem ('@' :: kind.name) timeline (printKey job.key, (job.finish - job.start).toNat) =
      .ok (timeline ++ beginAndEnd (kind, job)) := by
  have name : Tracegen.dropAt ('@' :: kind.name) = kind.name := by
    cases kind <;> decide
  have finish : (job.start.toNat : Int) + (job.finish - job.start).toNat = job.finish.toNat := by
    have order := UInt64.le_iff_toNat_le.mp later
    rw [UInt64.toNat_sub_of_le _ _ later]
    omega
  rw [parseItem, split_key]
  simp only [index, List.getElem?_cons_zero, List.getElem?_cons_succ, Runs.ok_bind, Job.key,
    pyInt_printInt, name, finish, newEvent_kind]
  rfl

theorem parseItems_jobs (kind : Kind) {jobs : List Job}
    (later : ∀ job ∈ jobs, job.start ≤ job.finish) (timeline : List Tracegen.Event) :
    (jobs.map fun job => (printKey job.entry.1, (job.entry.2.toNat : Int))).foldlM
        (parseItem ('@' :: kind.name)) timeline =
      .ok (timeline ++ (jobs.map (kind, ·)).flatMap beginAndEnd) := by
  induction jobs generalizing timeline with
  | nil => simp [pure, Except.pure]
  | cons job rest ih =>
    rw [List.forall_mem_cons] at later
    rw [List.map_cons, List.foldlM_cons]
    have first : parseItem ('@' :: kind.name) timeline (printKey job.entry.1, job.entry.2.toNat) =
        .ok (timeline ++ beginAndEnd (kind, job)) := parseItem_entry kind later.1 timeline
    rw [first, Runs.ok_bind, ih later.2, List.map_cons, List.flatMap_cons, List.append_assoc]

inductive Line where
  | probes (n : Int)
  | jobs (kind : Kind) (finished : List Job)

def Line.print : Line → List (Text × Tracegen.MapData)
  | .probes n => printProbes n
  | .jobs kind finished => printMap kind (finished.map Job.entry)

def Line.jobsOf : Line → List (Kind × Job)
  | .probes _ => []
  | .jobs kind finished => finished.map (kind, ·)

theorem parseLine_print {line : Line} (later : ∀ job ∈ line.jobsOf, job.2.start ≤ job.2.finish)
    (timeline : List Tracegen.Event) :
    line.print.foldlM parseMap timeline = .ok (timeline ++ line.jobsOf.flatMap beginAndEnd) := by
  cases line with
  | probes n =>
    have named : parseMap timeline ("probes".toList, .number n) = .ok timeline :=
      if_pos (List.infix_refl _)
    rw [Line.print, printProbes, List.foldlM_cons, named]
    simp [Line.jobsOf, Runs.ok_bind, pure, Except.pure]
  | jobs kind finished =>
    have other : ¬ "probes".toList <:+: '@' :: kind.name := by
      cases kind <;> decide
    have starts : ∀ job ∈ finished, job.start ≤ job.finish :=
      fun job inside => later (kind, job) (List.mem_map_of_mem inside)
    have read : parseMap timeline ('@' :: kind.name, .items ((finished.map Job.entry).map
        fun entry => (printKey entry.1, (entry.2.toNat : Int)))) =
          .ok (timeline ++ (finished.map (kind, ·)).flatMap beginAndEnd) := by
      rw [List.map_map]
      exact (if_neg other).trans (parseItems_jobs kind starts timeline)
    rw [Line.print, printMap, List.foldlM_cons, read]
    rfl

theorem parse_lines {lines : List Line}
    (later : ∀ line ∈ lines, ∀ job ∈ line.jobsOf, job.2.start ≤ job.2.finish)
    (timeline : List Tracegen.Event) :
    parseRocksdbProbeData (lines.map Line.print) timeline =
      .ok (timeline ++ (lines.flatMap Line.jobsOf).flatMap beginAndEnd) := by
  induction lines generalizing timeline with
  | nil => simp [parseRocksdbProbeData, pure, Except.pure]
  | cons line rest ih =>
    rw [List.forall_mem_cons] at later
    have step : parseRocksdbProbeData ((line :: rest).map Line.print) timeline =
        (line.print.foldlM parseMap timeline >>= parseRocksdbProbeData (rest.map Line.print)) := rfl
    rw [step, parseLine_print later.1, Runs.ok_bind, ih later.2, List.flatMap_cons,
      List.flatMap_append, List.append_assoc]

end Parse

section Timeline

variable {events : List Event}

theorem latest_le (interleaving : Interleaving events) {before after : List Event} {event : Event}
    (split : events = before ++ event :: after) {f : Event → Option UInt64} {start : UInt64}
    (timed : ∀ earlier, f earlier = some start → earlier.nsecs = start)
    (found : latest f before = some start) : start ≤ event.nsecs := by
  have ⟨front, earlier, back, parts, given, _⟩ := latest_eq_some.mp found
  have clock := (List.pairwise_append.mp (split ▸ interleaving.clock)).2.2
  rw [← timed earlier given]
  exact clock earlier (by rw [parts]; simp) event List.mem_cons_self

theorem begun_nsecs {jobid start : UInt64} {event : Event}
    (given : event.begun jobid = some start) : event.nsecs = start := by
  cases event with
  | flushEntry pid tid nsecs => cases given
  | flushReturn pid tid nsecs => cases given
  | compactionBegin id nsecs =>
    rw [Event.begun] at given
    split at given
    · exact Option.some.inj given
    · cases given
  | compactionCompleted id pid tid nsecs => cases given

theorem finished_later (interleaving : Interleaving events) :
    ∀ job ∈ finishedJobs events, job.2.start ≤ job.2.finish := by
  intro job inside
  rw [finishedJobs, List.mem_append, List.mem_map, List.mem_map] at inside
  rcases inside with ⟨flush, listed, rfl⟩ | ⟨compaction, listed, rfl⟩
  · have ⟨before, event, after, split, done⟩ := mem_emitted.mp listed
    cases event with
    | flushReturn pid tid nsecs =>
      have ⟨start, own, same⟩ := Option.map_eq_some_iff.mp done
      rw [← same]
      refine latest_le interleaving split ?_ own
      intro earlier given
      rw [entered_some.mp given]
      rfl
    | flushEntry pid tid nsecs => cases done
    | compactionBegin jobid nsecs => cases done
    | compactionCompleted jobid pid tid nsecs => cases done
  · have ⟨before, event, after, split, done⟩ := mem_emitted.mp listed
    cases event with
    | compactionCompleted jobid pid tid nsecs =>
      have ⟨start, own, same⟩ := Option.map_eq_some_iff.mp done
      rw [← same]
      exact latest_le interleaving split (fun _ given => begun_nsecs given) own
    | flushEntry pid tid nsecs => cases done
    | flushReturn pid tid nsecs => cases done
    | compactionBegin jobid nsecs => cases done

theorem timeline_of_recorded (interleaving : Interleaving events) (recorded : Recorded events)
    {file : List (List (Text × Tracegen.MapData))} (printed : PrintedAs (trace events) file) :
    ∃ jobs : List (Kind × Job), jobs.Perm (finishedJobs events) ∧
      parseRocksdbProbeData file [] = .ok (jobs.flatMap beginAndEnd) := by
  have ⟨probes, flushes, compactions, flushOrder, compactionOrder, lines⟩ := printed
  have ⟨flushJobs, flushPerm, flushEntries⟩ :=
    Perms.exists_map_of_perm (flushOrder.trans recorded.flushes)
  have ⟨compactionJobs, compactionPerm, compactionEntries⟩ :=
    Perms.exists_map_of_perm (compactionOrder.trans recorded.compactions)
  subst flushEntries compactionEntries
  have ⟨ordered, linePerm, same⟩ : ∃ ordered : List Line, ordered.Perm
      [.probes probes, .jobs .flush flushJobs, .jobs .compaction compactionJobs] ∧
        file = ordered.map Line.print := Perms.exists_map_of_perm lines
  subst same
  have perm : (ordered.flatMap Line.jobsOf).Perm (finishedJobs events) := by
    refine (linePerm.flatMap_right _).trans ?_
    simp only [List.flatMap_cons, List.flatMap_nil, Line.jobsOf, List.nil_append, List.append_nil]
    exact (flushPerm.map _).append (compactionPerm.map _)
  refine ⟨ordered.flatMap Line.jobsOf, perm, ?_⟩
  have later : ∀ line ∈ ordered, ∀ job ∈ line.jobsOf, job.2.start ≤ job.2.finish :=
    fun line listed job inside => finished_later interleaving job
      (perm.mem_iff.mp (List.mem_flatMap.mpr ⟨line, listed, inside⟩))
  exact parse_lines later []

/-- Every finished job is traced exactly when no two flushes overlap and no two jobs of a kind
have the same start on the same thread. -/
theorem jobs_traced_iff (events : List Event) (interleaving : Interleaving events) :
    Traced events ↔ Isolated events ∧ DistinctKeys (finishedFlushes events) ∧
      DistinctKeys (finishedCompactions events) := by
  rw [← recorded_iff interleaving]
  exact ⟨fun traced => traced.recorded,
    fun recorded => ⟨recorded, fun _ => timeline_of_recorded interleaving recorded⟩⟩

end Timeline

instance decidableAdmissible (past : List Event) :
    (event : Event) → Decidable (Admissible past event)
  | .flushEntry pid tid _ =>
    inferInstanceAs (Decidable (latest (Event.flushing pid tid) past ≠ some true))
  | .flushReturn pid tid _ =>
    inferInstanceAs (Decidable (latest (Event.flushing pid tid) past = some true))
  | .compactionBegin jobid _ =>
    inferInstanceAs (Decidable (latest (Event.compacting jobid) past ≠ some true))
  | .compactionCompleted jobid _ _ _ =>
    inferInstanceAs (Decidable (latest (Event.compacting jobid) past = some true))

def overlappingFlushes : List Event :=
  [.flushEntry 7 8 100, .flushEntry 7 9 200, .flushReturn 7 8 300, .flushReturn 7 9 400]

theorem overlapping_flushes_share_a_start :
    Interleaving overlappingFlushes ∧ ¬ Traced overlappingFlushes := by
  refine ⟨⟨by decide, by decide⟩, fun traced => ?_⟩
  have own : Job.entry ⟨100, 300, 7, 8⟩ ∈ (trace overlappingFlushes).flush :=
    traced.recorded.flushes.mem_iff.mpr (by decide)
  exact absurd own (by decide)

def successiveJobs : List Event :=
  [.flushEntry 7 8 100, .compactionBegin 3 150, .flushReturn 7 8 300, .flushEntry 7 9 400,
    .compactionCompleted 3 7 5 450, .flushReturn 7 9 500]

theorem successive_jobs_traced_iff : Interleaving successiveJobs ∧
    (Traced successiveJobs ↔ Isolated successiveJobs ∧
      DistinctKeys (finishedFlushes successiveJobs) ∧
        DistinctKeys (finishedCompactions successiveJobs)) :=
  have interleaving : Interleaving successiveJobs := ⟨by decide, by decide⟩
  ⟨interleaving, jobs_traced_iff successiveJobs interleaving⟩

end ZnsTools.Rocksdb
