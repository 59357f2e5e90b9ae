import ZnsTools.Shared.BpfMap
import ZnsTools.Shared.Emitted
import ZnsTools.Shared.Perms

set_option autoImplicit false

namespace ZnsTools.Rocksdb

open BpfMap Emitted KeyedObject

def flushKey : UInt64 := 0
def compactionKey : UInt64 := 1

-- Start time, pid and tid.
abbrev JobKey := UInt64 × UInt64 × UInt64

structure Maps where
  flushTrackMap : List (UInt64 × UInt64)
  flush : List (JobKey × UInt64)
  compactionTrackMap : List ((UInt64 × UInt64) × UInt64)
  compaction : List (JobKey × UInt64)

def Maps.begin : Maps := ⟨[], [], [], []⟩

-- FlushJob::Run is entered and returns; a compaction is notified as begun and as completed.
inductive Event where
  | flushEntry (pid tid nsecs : UInt64)
  | flushReturn (pid tid nsecs : UInt64)
  | compactionBegin (jobid nsecs : UInt64)
  | compactionCompleted (jobid pid tid nsecs : UInt64)
  deriving DecidableEq, Repr

def Event.nsecs : Event → UInt64
  | .flushEntry _ _ nsecs => nsecs
  | .flushReturn _ _ nsecs => nsecs
  | .compactionBegin _ nsecs => nsecs
  | .compactionCompleted _ _ _ nsecs => nsecs

def probe (maps : Maps) : Event → Maps
  | .flushEntry _ _ nsecs => { maps with flushTrackMap := add maps.flushTrackMap flushKey nsecs }
  | .flushReturn pid tid time =>
    let starttime := value maps.flushTrackMap flushKey
    { maps with flush := add maps.flush (starttime, pid, tid) (time - starttime) }
  | .compactionBegin jobid nsecs =>
    { maps with
      compactionTrackMap := add maps.compactionTrackMap (compactionKey, jobid) nsecs }
  | .compactionCompleted jobid pid tid time =>
    let starttime := value maps.compactionTrackMap (compactionKey, jobid)
    { maps with compaction := add maps.compaction (starttime, pid, tid) (time - starttime) }

def trace (events : List Event) : Maps :=
  events.foldl probe Maps.begin

def Event.flushing (pid tid : UInt64) : Event → Option Bool
  | .flushEntry p t _ => if p = pid ∧ t = tid then some true else none
  | .flushReturn p t _ => if p = pid ∧ t = tid then some false else none
  | _ => none

def Event.compacting (jobid : UInt64) : Event → Option Bool
  | .compactionBegin id _ => if id = jobid then some true else none
  | .compactionCompleted id _ _ _ => if id = jobid then some false else none
  | _ => none

def Admissible (past : List Event) : Event → Prop
  | .flushEntry pid tid _ => latest (Event.flushing pid tid) past ≠ some true
  | .flushReturn pid tid _ => latest (Event.flushing pid tid) past = some true
  | .compactionBegin jobid _ => latest (Event.compacting jobid) past ≠ some true
  | .compactionCompleted jobid _ _ _ => latest (Event.compacting jobid) past = some true

/-- Flushes of any threads and compactions with distinct running ids, under a monotone clock. -/
structure Interleaving (events : List Event) : Prop where
  clock : events.Pairwise fun first second => first.nsecs ≤ second.nsecs
  admissible : Throughout Admissible [] events

structure Job where
  start : UInt64
  finish : UInt64
  pid : UInt64
  tid : UInt64
  deriving DecidableEq, Repr

def Job.key (job : Job) : JobKey := (job.start, job.pid, job.tid)

def Job.entry (job : Job) : JobKey × UInt64 := (job.key, job.finish - job.start)

def Event.entered (pid tid : UInt64) : Event → Option UInt64
  | .flushEntry p t nsecs => if p = pid ∧ t = tid then some nsecs else none
  | _ => none

def Event.flushStart : Event → Option UInt64
  | .flushEntry _ _ nsecs => some nsecs
  | _ => none

def Event.begun (jobid : UInt64) : Event → Option UInt64
  | .compactionBegin id nsecs => if id = jobid then some nsecs else none
  | _ => none

-- The flush that an event finishes, with the time at which its own thread entered it.
def finishFlush (past : List Event) : Event → Option Job
  | .flushReturn pid tid nsecs =>
    (latest (Event.entered pid tid) past).map fun start => ⟨start, nsecs, pid, tid⟩
  | _ => none

def finishCompaction (past : List Event) : Event → Option Job
  | .compactionCompleted jobid pid tid nsecs =>
    (latest (Event.begun jobid) past).map fun start => ⟨start, nsecs, pid, tid⟩
  | _ => none

def finishedFlushes (events : List Event) : List Job :=
  emitted finishFlush [] events

def finishedCompactions (events : List Event) : List Job :=
  emitted finishCompaction [] events

structure Recorded (events : List Event) : Prop where
  flushes : (trace events).flush.Perm ((finishedFlushes events).map Job.entry)
  compactions : (trace events).compaction.Perm ((finishedCompactions events).map Job.entry)

-- While a flush runs no thread enters another one, unless in the same nanosecond.
def Isolated (events : List Event) : Prop :=
  ∀ before pid tid start between finish after,
    events = before ++ .flushEntry pid tid start ::
      (between ++ .flushReturn pid tid finish :: after) →
    (∀ t, .flushEntry pid tid t ∉ between) →
    ∀ otherPid otherTid t, .flushEntry otherPid otherTid t ∈ between → t = start

def DistinctKeys (jobs : List Job) : Prop :=
  (jobs.map Job.key).Nodup

section Trace

def recordFlush (past : List Event) : Event → Option (JobKey × UInt64)
  | .flushReturn pid tid time =>
    let starttime := (latest Event.flushStart past).getD 0
    some ((starttime, pid, tid), time - starttime)
  | _ => none

def recordCompaction (past : List Event) : Event → Option (JobKey × UInt64)
  | .compactionCompleted jobid pid tid time =>
    let starttime := (latest (Event.begun jobid) past).getD 0
    some ((starttime, pid, tid), time - starttime)
  | _ => none

structure Tracked (past : List Event) (maps : Maps) : Prop where
  flushTrack : value maps.flushTrackMap flushKey = (latest Event.flushStart past).getD 0
  compactionTrack : ∀ jobid, value maps.compactionTrackMap (compactionKey, jobid) =
    (latest (Event.begun jobid) past).getD 0
  flush : maps.flush = addAll [] (emitted recordFlush [] past)
  compaction : maps.compaction = addAll [] (emitted recordCompaction [] past)

theorem probe_tracked {past : List Event} {maps : Maps} (tracked : Tracked past maps)
    (event : Event) : Tracked (past ++ [event]) (probe maps event) := by
  cases event with
  | flushEntry pid tid nsecs =>
    constructor
    · rw [latest_snoc]
      exact value_add _ _ _ _ |>.trans (if_pos rfl)
    · intro jobid
      rw [latest_snoc]
      exact tracked.compactionTrack jobid
    · rw [emitted_silent rfl]
      exact tracked.flush
    · rw [emitted_silent rfl]
      exact tracked.compaction
  | flushReturn pid tid time =>
    constructor
    · rw [latest_snoc]
      exact tracked.flushTrack
    · intro jobid
      rw [latest_snoc]
      exact tracked.compactionTrack jobid
    · rw [emitted_snoc, List.nil_append, recordFlush, Option.toList_some, addAll_snoc,
        ← tracked.flush, ← tracked.flushTrack]
      rfl
    · rw [emitted_silent rfl]
      exact tracked.compaction
  | compactionBegin jobid nsecs =>
    constructor
    · rw [latest_snoc]
      exact tracked.flushTrack
    · intro other
      rw [latest_snoc, Event.begun]
      refine (value_add _ _ _ _).trans ?_
      by_cases same : jobid = other
      · simp [same]
      · simp [same, tracked.compactionTrack]
    · rw [emitted_silent rfl]
      exact tracked.flush
    · rw [emitted_silent rfl]
      exact tracked.compaction
  | compactionCompleted jobid pid tid time =>
    constructor
    · rw [latest_snoc]
      exact tracked.flushTrack
    · intro other
      rw [latest_snoc]
      exact tracked.compactionTrack other
    · rw [emitted_silent rfl]
      exact tracked.flush
    · rw [emitted_snoc, List.nil_append, recordCompaction, Option.toList_some, addAll_snoc,
        ← tracked.compaction, ← tracked.compactionTrack]
      rfl

theorem trace_tracked (events : List Event) : Tracked events (trace events) := by
  induction events using List.reverseRecOn with
  | nil =>
    constructor
    · rfl
    · intro jobid
      rfl
    · rfl
    · rfl
  | append_singleton past event ih =>
    have moved : trace (past ++ [event]) = probe (trace past) event := by simp [trace]
    rw [moved]
    exact probe_tracked ih event

end Trace

section Starts

variable {past : List Event} {pid tid : UInt64}

theorem flushing_true {event : Event} (inside : event.flushing pid tid = some true) :
    ∃ start, event = .flushEntry pid tid start := by
  cases event with
  | flushEntry p t start =>
    by_cases same : p = pid ∧ t = tid
    · exact ⟨start, by rw [same.1, same.2]⟩
    · simp [Event.flushing, same] at inside
  | flushReturn p t finish => simp [Event.flushing] at inside
  | compactionBegin jobid start => cases inside
  | compactionCompleted jobid p t finish => cases inside

theorem compacting_true {jobid : UInt64} {event : Event}
    (inside : event.compacting jobid = some true) :
    ∃ start, event = .compactionBegin jobid start := by
  cases event with
  | flushEntry p t start => cases inside
  | flushReturn p t finish => cases inside
  | compactionBegin id start =>
    by_cases same : id = jobid
    · exact ⟨start, by rw [same]⟩
    · simp [Event.compacting, same] at inside
  | compactionCompleted id p t finish => simp [Event.compacting] at inside

theorem entered_some {event : Event} {start : UInt64} :
    event.entered pid tid = some start ↔ event = .flushEntry pid tid start := by
  cases event with
  | flushEntry p t nsecs => simp [Event.entered, and_assoc]
  | flushReturn p t finish => simp [Event.entered]
  | compactionBegin jobid start => simp [Event.entered]
  | compactionCompleted jobid p t finish => simp [Event.entered]

theorem flushStart_some {event : Event} {start : UInt64} :
    event.flushStart = some start ↔ ∃ p t, event = .flushEntry p t start := by
  cases event <;> simp [Event.flushStart]

theorem entered_while_flushing (running : latest (Event.flushing pid tid) past = some true) :
    ∃ start, latest (Event.entered pid tid) past = some start := by
  have ⟨before, event, after, split, inside, quiet⟩ := latest_eq_some.mp running
  have ⟨start, entry⟩ := flushing_true inside
  refine ⟨start, latest_eq_some.mpr ⟨before, event, after, split, entered_some.mpr entry, ?_⟩⟩
  intro later follows
  have nothing := quiet later follows
  cases later with
  | flushEntry p t nsecs =>
    rw [Event.flushing] at nothing
    rw [Event.entered]
    split at nothing
    · cases nothing
    · next other => exact if_neg other
  | flushReturn p t finish => rfl
  | compactionBegin jobid start => rfl
  | compactionCompleted jobid p t finish => rfl

theorem begun_while_compacting {jobid : UInt64}
    (running : latest (Event.compacting jobid) past = some true) :
    ∃ start, latest (Event.begun jobid) past = some start := by
  have ⟨before, event, after, split, inside, quiet⟩ := latest_eq_some.mp running
  have ⟨start, entry⟩ := compacting_true inside
  have begins : event.begun jobid = some start := by
    rw [entry]
    exact if_pos rfl
  refine ⟨start, latest_eq_some.mpr ⟨before, event, after, split, begins, ?_⟩⟩
  intro later follows
  have nothing := quiet later follows
  cases later with
  | flushEntry p t nsecs => rfl
  | flushReturn p t finish => rfl
  | compactionBegin id nsecs =>
    rw [Event.compacting] at nothing
    rw [Event.begun]
    split at nothing
    · cases nothing
    · next other => exact if_neg other
  | compactionCompleted id p t finish => rfl

theorem latest_flushStart_ge (clock : past.Pairwise fun first second => first.nsecs ≤ second.nsecs)
    (event : Event) {start : UInt64} (inside : event ∈ past)
    (entry : event.flushStart = some start) :
    ∃ last, latest Event.flushStart past = some last ∧ start ≤ last := by
  have ⟨before, after, split⟩ := List.append_of_mem inside
  rw [split, List.pairwise_append, List.pairwise_cons] at clock
  have own : latest Event.flushStart (before ++ [event]) = some start := by
    rw [latest_snoc, entry]
    rfl
  rw [split, List.append_cons, latest_append, own]
  cases later : latest Event.flushStart after with
  | none => exact ⟨start, rfl, UInt64.le_refl start⟩
  | some last =>
    refine ⟨last, rfl, ?_⟩
    have ⟨front, other, back, parts, out, _⟩ := latest_eq_some.mp later
    have order := clock.2.1.1 other (by rw [parts]; simp)
    have ⟨p, t, first⟩ := flushStart_some.mp entry
    have ⟨q, u, second⟩ := flushStart_some.mp out
    rw [first, second] at order
    exact order

end Starts

section Records

variable {events : List Event}

theorem eq_map_of_forall₂ {records : List (JobKey × UInt64)} {jobs : List Job}
    (same : List.Forall₂ (fun entry job => entry = Job.entry job) records jobs) :
    records = jobs.map Job.entry := by
  rwa [← List.forall₂_map_right_iff, List.forall₂_eq_eq_eq] at same

theorem compaction_records (interleaving : Interleaving events) :
    emitted recordCompaction [] events = (finishedCompactions events).map Job.entry := by
  apply eq_map_of_forall₂
  apply forall₂_emitted
  intro before event after split
  have admissible := (split ▸ interleaving.admissible).here
  rw [List.nil_append] at admissible ⊢
  cases event with
  | flushEntry pid tid nsecs => exact .none
  | flushReturn pid tid nsecs => exact .none
  | compactionBegin jobid nsecs => exact .none
  | compactionCompleted jobid pid tid nsecs =>
    have ⟨start, begun⟩ := begun_while_compacting admissible
    rw [recordCompaction, finishCompaction, begun]
    exact .some rfl

theorem compactions_iff (interleaving : Interleaving events) :
    (trace events).compaction.Perm ((finishedCompactions events).map Job.entry) ↔
      DistinctKeys (finishedCompactions events) := by
  rw [(trace_tracked events).compaction, compaction_records interleaving,
    addAll_perm_iff rfl, List.map_map]
  exact and_iff_left (.refl _)

def FindsOwnStart (events : List Event) : Prop :=
  ∀ before pid tid finish after start, events = before ++ .flushReturn pid tid finish :: after →
    latest (Event.entered pid tid) before = some start →
    latest Event.flushStart before = some start

theorem started_before (interleaving : Interleaving events) {before after : List Event}
    {event : Event} (split : events = before ++ event :: after) {pid tid start : UInt64}
    (own : latest (Event.entered pid tid) before = some start) :
    ∃ last, latest Event.flushStart before = some last ∧ start ≤ last := by
  have ⟨front, first, back, parts, entry, _⟩ := latest_eq_some.mp own
  have clock := split ▸ interleaving.clock
  refine latest_flushStart_ge (List.pairwise_append.mp clock).1 first (by rw [parts]; simp) ?_
  rw [entered_some.mp entry]
  rfl

theorem findsOwnStart_iff (interleaving : Interleaving events) :
    FindsOwnStart events ↔ Isolated events := by
  constructor
  · intro finds before pid tid start between finish after split alone otherPid otherTid t inside
    have own : latest (Event.entered pid tid) (before ++ .flushEntry pid tid start :: between) =
        some start := by
      refine latest_eq_some.mpr ⟨before, _, between, rfl, entered_some.mpr rfl, ?_⟩
      intro later follows
      cases given : later.entered pid tid with
      | none => rfl
      | some other =>
        rw [entered_some.mp given] at follows
        exact absurd follows (alone other)
    have whole : events = (before ++ .flushEntry pid tid start :: between) ++
        .flushReturn pid tid finish :: after := by
      rw [split, List.append_assoc, List.cons_append]
    have last := finds _ pid tid finish after start whole own
    have clock := (List.pairwise_append.mp (whole ▸ interleaving.clock)).1
    have ⟨found, same, late⟩ := latest_flushStart_ge clock (.flushEntry otherPid otherTid t)
      (by simp [inside]) rfl
    rw [last] at same
    rw [← Option.some.inj same] at late
    have early := (List.pairwise_cons.mp (List.pairwise_append.mp clock).2.1).1 _ inside
    exact UInt64.le_antisymm late early
  · intro isolated before pid tid finish after start split own
    have ⟨front, entry, between, parts, entered, quiet⟩ := latest_eq_some.mp own
    rw [entered_some.mp entered] at parts
    have alone : ∀ t, .flushEntry pid tid t ∉ between := by
      intro t inside
      have silent := quiet _ inside
      rw [entered_some.mpr rfl] at silent
      cases silent
    have whole : events = front ++ .flushEntry pid tid start ::
        (between ++ .flushReturn pid tid finish :: after) := by
      rw [split, parts, List.append_assoc, List.cons_append]
    rw [parts, List.append_cons, latest_append, latest_snoc]
    cases later : latest Event.flushStart between with
    | none => rfl
    | some t =>
      have ⟨earlier, other, rest, between_parts, given, _⟩ := latest_eq_some.mp later
      have ⟨otherPid, otherTid, same⟩ := flushStart_some.mp given
      have inside : .flushEntry otherPid otherTid t ∈ between := by
        rw [between_parts, same]
        simp
      rw [isolated front pid tid start between finish after whole alone otherPid otherTid t inside]
      rfl

def RecordOf (entry : JobKey × UInt64) (job : Job) : Prop :=
  job.start ≤ entry.1.1 ∧ entry.1.2 = (job.pid, job.tid) ∧ entry.2 = job.finish - entry.1.1

theorem flush_related (interleaving : Interleaving events) {before after : List Event}
    {event : Event} (split : events = before ++ event :: after) :
    Option.Rel RecordOf (recordFlush before event) (finishFlush before event) := by
  have admissible := (split ▸ interleaving.admissible).here
  rw [List.nil_append] at admissible
  cases event with
  | flushEntry pid tid nsecs => exact .none
  | flushReturn pid tid nsecs =>
    have ⟨start, own⟩ := entered_while_flushing admissible
    have ⟨last, found, later⟩ := started_before interleaving split own
    rw [recordFlush, finishFlush, own, found]
    exact .some ⟨later, rfl, rfl⟩
  | compactionBegin jobid nsecs => exact .none
  | compactionCompleted jobid pid tid nsecs => exact .none

theorem isSome_of_rel {α β : Type} {R : α → β → Prop} {a : Option α} {b : Option β}
    (related : Option.Rel R a b) : a.isSome = b.isSome := by
  cases related <;> rfl

theorem flush_records_of (interleaving : Interleaving events) (finds : FindsOwnStart events) :
    emitted recordFlush [] events = (finishedFlushes events).map Job.entry := by
  apply eq_map_of_forall₂
  apply forall₂_emitted
  intro before event after split
  have admissible := (split ▸ interleaving.admissible).here
  rw [List.nil_append] at admissible ⊢
  cases event with
  | flushEntry pid tid nsecs => exact .none
  | flushReturn pid tid nsecs =>
    have ⟨start, own⟩ := entered_while_flushing admissible
    rw [recordFlush, finishFlush, own, finds before pid tid nsecs after start split own]
    exact .some rfl
  | compactionBegin jobid nsecs => exact .none
  | compactionCompleted jobid pid tid nsecs => exact .none

/-- The recorded flushes are the finished ones only if each return finds its own start: a start
that is too late is made up for by no other. -/
theorem flush_records_perm (interleaving : Interleaving events)
    (perm : (emitted recordFlush [] events).Perm ((finishedFlushes events).map Job.entry)) :
    FindsOwnStart events := by
  have related : List.Forall₂ RecordOf (emitted recordFlush [] events) (finishedFlushes events) :=
    forall₂_emitted fun before event after split => flush_related interleaving split
  have above : List.Forall₂ (fun x y => y.1.1.toNat ≤ x.1.1.toNat) (emitted recordFlush [] events)
      ((finishedFlushes events).map Job.entry) := by
    rw [List.forall₂_map_right_iff]
    exact related.imp fun _ _ record => UInt64.le_iff_toNat_le.mp record.1
  have same := Perms.eq_of_perm_of_le (fun entry => entry.1.1.toNat) above perm
  rw [List.forall₂_map_right_iff] at same
  intro before pid tid finish after start split own
  have ⟨last, found, _⟩ := started_before interleaving split own
  have recorded : recordFlush before (.flushReturn pid tid finish) =
      some ((last, pid, tid), finish - last) := by
    rw [recordFlush, found]
    rfl
  have finished : finishFlush before (.flushReturn pid tid finish) =
      some ⟨start, finish, pid, tid⟩ := by
    rw [finishFlush, own]
    rfl
  have starts := related_of_forall₂
    (fun front event back parts => isSome_of_rel (flush_related interleaving parts)) same split
    recorded finished
  rw [found]
  exact congrArg some (UInt64.toNat_inj.mp starts)

theorem flushes_iff (interleaving : Interleaving events) :
    (trace events).flush.Perm ((finishedFlushes events).map Job.entry) ↔
      Isolated events ∧ DistinctKeys (finishedFlushes events) := by
  have related : List.Forall₂ RecordOf (emitted recordFlush [] events) (finishedFlushes events) :=
    forall₂_emitted fun before event after split => flush_related interleaving split
  rw [(trace_tracked events).flush, addAll_perm_iff (by rw [related.length_eq, List.length_map]),
    ← findsOwnStart_iff interleaving]
  constructor
  · intro ⟨distinct, perm⟩
    have finds := flush_records_perm interleaving perm
    rw [flush_records_of interleaving finds, List.map_map] at distinct
    exact ⟨finds, distinct⟩
  · intro ⟨finds, distinct⟩
    rw [flush_records_of interleaving finds, List.map_map]
    exact ⟨distinct, .refl _⟩

theorem recorded_iff (interleaving : Interleaving events) :
    Recorded events ↔ Isolated events ∧ DistinctKeys (finishedFlushes events) ∧
      DistinctKeys (finishedCompactions events) := by
  rw [← and_assoc, ← flushes_iff interleaving, ← compactions_iff interleaving]
  exact ⟨fun recorded => ⟨recorded.flushes, recorded.compactions⟩, fun both => ⟨both.1, both.2⟩⟩

end Records

end ZnsTools.Rocksdb
