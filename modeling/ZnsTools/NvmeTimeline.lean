import Mathlib.Data.Prod.Lex
import ZnsTools.JobTimeline
import ZnsTools.Shared.Brackets

set_option autoImplicit false

namespace ZnsTools.Nvme

open PyText Tracegen
open Rocksdb (microseconds printKey printProbes)

-- A command as it is recorded: the map's key has its submission, the value the rest.
structure Record where
  submitted : UInt64
  pid : UInt64
  tid : UInt64
  cmd : Value
  zone : Value
  lba : Value
  sectors : UInt64
  completed : UInt64

structure RecordMap where
  name : Text
  noProbes : ¬ "probes".toList <:+: name
  noEvents : ¬ "events".toList <:+: name

def RecordMap.sized (map : RecordMap) : Bool :=
  "nvme_rq".toList <:+: dropAt map.name

def Record.values (record : Record) (sized : Bool) : List Value :=
  [record.cmd, record.zone, record.lba] ++
    (if sized then [.number record.sectors.toNat] else []) ++ [.number record.completed.toNat]

def Record.print (sized : Bool) (record : Record) : Text × List Value :=
  (printKey (record.submitted, record.pid, record.tid), record.values sized)

inductive Line where
  | probes (n : Int)
  | records (map : RecordMap) (listed : List Record)

def Line.print : Line → List (Text × NvmeData)
  | .probes n => [("probes".toList, .number n)]
  | .records map listed => [(map.name, .items (listed.map (Record.print map.sized)))]

def Line.recordsOf : Line → List (Bool × Record)
  | .probes _ => []
  | .records map listed => listed.map (map.sized, ·)

def recordsOf (lines : List Line) : List (Bool × Record) :=
  lines.flatMap Line.recordsOf

def Record.args (record : Record) (sized : Bool) : List (Text × Arg) :=
  [("zone".toList, .value record.zone), ("LBA".toList, .value record.lba)] ++
    if sized then
      [("size".toList, .kib (Binary64.toDouble (record.sectors.toNat * 512 / 1024)))]
    else []

def span (record : Bool × Record) : Event × Event :=
  let name := getCmd record.2.cmd
  let tid := (KeyedObject.find tidMap name).getD 0
  let args := record.2.args record.1
  (⟨name, getCat name, 'B', microseconds record.2.submitted, getPid name, tid, args⟩,
    ⟨name, getCat name, 'E', microseconds record.2.completed, getPid name, tid, args⟩)

def spans (lines : List Line) : List (Event × Event) :=
  (recordsOf lines).map span

-- The B and E events of one thread, each with its place in the timeline.
def track (timeline : List Event) (pid : Option Nat) (tid : Nat) : List (Event × Nat) :=
  timeline.zipIdx.filter fun placed =>
    placed.1.pid = pid ∧ placed.1.tid = tid ∧ (placed.1.ph = 'B' ∨ placed.1.ph = 'E')

-- Events of one time stay in the order of the timeline.
def moment (placed : Event × Nat) : ℚ ×ₗ ℕ :=
  toLex (placed.1.ts, placed.2)

/-- The rule of the trace format: what each E event of a thread closes. -/
def closings (timeline : List Event) (pid : Option Nat) (tid : Nat) :
    List (Option (Event × Nat) × (Event × Nat)) :=
  Brackets.closed (fun placed => placed.1.ph == 'B') []
    ((track timeline pid tid).mergeSort fun a b => moment a ≤ moment b)

/-- Every record adds its two events, and its E event closes its own B event. -/
structure Shown (lines : List Line) : Prop where
  added : ∀ timeline, parseNvmeProbeData (lines.map Line.print) timeline =
    .ok (timeline ++ Brackets.ends (spans lines))
  closed : ∀ i span, (spans lines)[i]? = some span →
    (some (span.1, 2 * i), (span.2, 2 * i + 1)) ∈
      closings (Brackets.ends (spans lines)) span.1.pid span.1.tid

def commands : List Text :=
  ["0".toList, "1".toList, "15".toList]

def Record.begins (record : Record) (i : Nat) : ℚ ×ₗ ℕ :=
  toLex (microseconds record.submitted, 2 * i)

def Record.ends (record : Record) (i : Nat) : ℚ ×ₗ ℕ :=
  toLex (microseconds record.completed, 2 * i + 1)

/-- All commands are reads, writes or resets, and of two commands of one kind the one that is
submitted later does not outlast the other, unless it is submitted after its completion. -/
structure Drawable (records : List Record) : Prop where
  known : ∀ record ∈ records, record.cmd.str ∈ commands
  ordered : ∀ record ∈ records,
    microseconds record.submitted ≤ microseconds record.completed
  uncrossed : ∀ (i j : Nat) (r s : Record), records[i]? = some r → records[j]? = some s →
      r.cmd.str = s.cmd.str →
      ¬ (r.begins i < s.begins j ∧ s.begins j < r.ends i ∧ r.ends i < s.ends j)

section Parse

theorem getCmd_cases (cmd : Value) :
    (cmd.str = "0".toList ∧ getCmd cmd = "nvme_cmd_read".toList) ∨
      (cmd.str = "1".toList ∧ getCmd cmd = "nvme_cmd_write".toList) ∨
      (cmd.str = "15".toList ∧ getCmd cmd = "nvme_zone_reset".toList) ∨
      (cmd.str ∉ commands ∧ KeyedObject.find tidMap (getCmd cmd) = none) := by
  rw [getCmd]
  split
  · next read => exact .inl ⟨read, rfl⟩
  · next noRead =>
    split
    · next write => exact .inr (.inl ⟨write, rfl⟩)
    · next noWrite =>
      split
      · next flush => exact .inr (.inr (.inr ⟨by rw [flush]; decide, rfl⟩))
      · split
        · next reset => exact .inr (.inr (.inl ⟨reset, rfl⟩))
        · next noReset =>
          have other : cmd.str ∉ commands := by
            simp only [commands, List.mem_cons, List.not_mem_nil, or_false, not_or]
            exact ⟨noRead, noWrite, noReset⟩
          split <;> exact .inr (.inr (.inr ⟨other, rfl⟩))

theorem newEvent_known {name : Text} {tid : Nat} (found : KeyedObject.find tidMap name = some tid)
    (nsecs : UInt64) (phase : Char) :
    newEvent name nsecs.toNat phase =
      .ok ⟨name, getCat name, phase, microseconds nsecs, getPid name, tid, []⟩ := by
  have bound : |((nsecs.toNat : Nat) : Int)| ≤ 2 ^ 64 := by
    rw [Nat.abs_cast]
    exact_mod_cast nsecs.toNat_lt.le
  rw [newEvent, trueDiv_ok bound (by decide), Runs.ok_bind, found]
  rfl

theorem newEvent_find {name : Text} {timestamp : Int} {phase : Char} {event : Event}
    (made : newEvent name timestamp phase = .ok event) : KeyedObject.find tidMap name ≠ none := by
  obtain ⟨ts, -, made⟩ := Runs.bind_ok made
  intro missing
  rw [missing] at made
  cases made

theorem nvmeArgs_print (map : RecordMap) (record : Record) :
    nvmeArgs map.name (record.values map.sized) =
      .ok (record.args map.sized, .number record.completed.toNat) := by
  have zone : valueAt (record.values map.sized) 1 = .ok record.zone := rfl
  have lba : valueAt (record.values map.sized) 2 = .ok record.lba := rfl
  rw [nvmeArgs, zone, Runs.ok_bind, lba, Runs.ok_bind]
  by_cases sized : "nvme_rq".toList <:+: dropAt map.name
  · have kind : map.sized = true := decide_eq_true sized
    have size : valueAt (record.values true) 3 = .ok (.number record.sectors.toNat) := rfl
    have time : valueAt (record.values true) 4 = .ok (.number record.completed.toNat) := rfl
    have bound : |((record.sectors.toNat : Int) * 512)| ≤ 2 ^ 128 := by
      have small : (record.sectors.toNat : Int) ≤ 2 ^ 64 := by
        exact_mod_cast record.sectors.toNat_lt.le
      rw [abs_of_nonneg (by positivity)]
      calc (record.sectors.toNat : Int) * 512 ≤ 2 ^ 64 * 512 := by omega
        _ ≤ 2 ^ 128 := by norm_num
    have kib : trueDiv ((record.sectors.toNat : Int) * 512) 1024 =
        .ok (Binary64.toDouble (record.sectors.toNat * 512 / 1024)) := by
      rw [trueDiv_ok_of_le bound (by decide)]
      push_cast
      rfl
    dsimp only
    rw [if_pos sized, kind, size, Runs.ok_bind]
    simp only [Value.times, Value.int, Runs.ok_bind, Nat.cast_ofNat, kib, time]
    rfl
  · have kind : map.sized = false := decide_eq_false sized
    have time : valueAt (record.values false) 3 = .ok (.number record.completed.toNat) := rfl
    dsimp only
    rw [if_neg sized, kind, time, Runs.ok_bind]
    rfl

theorem parseNvmeItem_known (map : RecordMap) {record : Record} {tid : Nat}
    (found : KeyedObject.find tidMap (getCmd record.cmd) = some tid) (timeline : List Event) :
    parseNvmeItem map.name timeline (record.print map.sized) =
      .ok (timeline ++ Brackets.ends [span (map.sized, record)]) := by
  have cmd : valueAt (record.values map.sized) 0 = .ok record.cmd := rfl
  rw [parseNvmeItem, Record.print, Rocksdb.split_key]
  simp only [index, List.getElem?_cons_zero, List.getElem?_cons_succ, Runs.ok_bind, cmd,
    nvmeArgs_print, pyInt_printInt, Value.int, newEvent_known found]
  rw [Brackets.ends, span, found]
  rfl

theorem parseNvmeItem_find {mapName : Text} {timeline next : List Event} {record : Record}
    {sized : Bool} (result : parseNvmeItem mapName timeline (record.print sized) = .ok next) :
    KeyedObject.find tidMap (getCmd record.cmd) ≠ none := by
  obtain ⟨timestamp, -, result⟩ := Runs.bind_ok result
  obtain ⟨_, -, result⟩ := Runs.bind_ok result
  obtain ⟨_, -, result⟩ := Runs.bind_ok result
  obtain ⟨cmd, given, result⟩ := Runs.bind_ok result
  obtain ⟨⟨args, time⟩, -, result⟩ := Runs.bind_ok result
  obtain ⟨submitted, -, result⟩ := Runs.bind_ok result
  obtain ⟨event, made, -⟩ := Runs.bind_ok result
  have own : cmd = record.cmd := (Except.ok.inj given).symm
  exact own ▸ newEvent_find made

theorem parseNvmeItems_known (map : RecordMap) {listed : List Record}
    (known : ∀ record ∈ listed, KeyedObject.find tidMap (getCmd record.cmd) ≠ none)
    (timeline : List Event) :
    (listed.map (Record.print map.sized)).foldlM (parseNvmeItem map.name) timeline =
      .ok (timeline ++ Brackets.ends ((listed.map (map.sized, ·)).map span)) := by
  induction listed generalizing timeline with
  | nil => simp [Brackets.ends, pure, Except.pure]
  | cons record rest ih =>
    rw [List.forall_mem_cons] at known
    obtain ⟨tid, found⟩ := Option.ne_none_iff_exists'.mp known.1
    rw [List.map_cons, List.foldlM_cons, parseNvmeItem_known map found, Runs.ok_bind, ih known.2]
    simp [Brackets.ends]

theorem parseNvmeItems_find {map : RecordMap} {listed : List Record} {timeline next : List Event}
    (result : (listed.map (Record.print map.sized)).foldlM (parseNvmeItem map.name) timeline =
      .ok next) : ∀ record ∈ listed, KeyedObject.find tidMap (getCmd record.cmd) ≠ none := by
  induction listed generalizing timeline with
  | nil => simp
  | cons record rest ih =>
    rw [List.map_cons, List.foldlM_cons] at result
    obtain ⟨between, first, later⟩ := Runs.bind_ok result
    exact List.forall_mem_cons.mpr ⟨parseNvmeItem_find first, ih later⟩

theorem parseNvmeMap_items (map : RecordMap) (entries : List (Text × List Value))
    (timeline : List Event) : parseNvmeMap timeline (map.name, .items entries) =
      entries.foldlM (parseNvmeItem map.name) timeline :=
  (if_neg map.noProbes).trans (if_neg map.noEvents)

theorem parseNvmeMap_number {name : Text} (probes : "probes".toList <:+: name) (n : Int)
    (timeline : List Event) : parseNvmeMap timeline (name, .number n) = .ok timeline :=
  if_pos probes

theorem parseNvmeMap_records (map : RecordMap) (listed : List Record) (timeline : List Event) :
    (Line.records map listed).print.foldlM parseNvmeMap timeline =
      (listed.map (Record.print map.sized)).foldlM (parseNvmeItem map.name) timeline := by
  rw [Line.print, List.foldlM_cons, parseNvmeMap_items]
  exact bind_pure _

theorem parseNvmeMap_probes (n : Int) (timeline : List Event) :
    (Line.probes n).print.foldlM parseNvmeMap timeline = .ok timeline := by
  rw [Line.print, List.foldlM_cons, parseNvmeMap_number (List.infix_refl _)]
  rfl

theorem parseNvmeProbeData_known {lines : List Line}
    (known : ∀ record ∈ recordsOf lines, KeyedObject.find tidMap (getCmd record.2.cmd) ≠ none)
    (timeline : List Event) : parseNvmeProbeData (lines.map Line.print) timeline =
      .ok (timeline ++ Brackets.ends (spans lines)) := by
  rw [parseNvmeProbeData]
  induction lines generalizing timeline with
  | nil => simp [spans, recordsOf, Brackets.ends, pure, Except.pure]
  | cons line rest ih =>
    rw [recordsOf, List.flatMap_cons, List.forall_mem_append] at known
    have first : line.print.foldlM parseNvmeMap timeline =
        .ok (timeline ++ Brackets.ends (line.recordsOf.map span)) := by
      cases line with
      | probes n => rw [parseNvmeMap_probes, Line.recordsOf]; simp [Brackets.ends]
      | records map listed =>
        rw [parseNvmeMap_records]
        exact parseNvmeItems_known map
          (fun record inside => known.1 (map.sized, record) (List.mem_map_of_mem inside)) timeline
    rw [List.map_cons, List.foldlM_cons, first, Runs.ok_bind, ih known.2]
    simp [spans, recordsOf, Brackets.ends]

theorem parseNvmeProbeData_find {lines : List Line} {timeline next : List Event}
    (result : parseNvmeProbeData (lines.map Line.print) timeline = .ok next) :
    ∀ record ∈ recordsOf lines, KeyedObject.find tidMap (getCmd record.2.cmd) ≠ none := by
  rw [parseNvmeProbeData] at result
  induction lines generalizing timeline with
  | nil => simp [recordsOf]
  | cons line rest ih =>
    rw [List.map_cons, List.foldlM_cons] at result
    obtain ⟨between, first, later⟩ := Runs.bind_ok result
    rw [recordsOf, List.flatMap_cons, List.forall_mem_append]
    refine ⟨?_, ih later⟩
    cases line with
    | probes n => simp [Line.recordsOf]
    | records map listed =>
      rw [parseNvmeMap_records] at first
      intro record inside
      obtain ⟨own, member, rfl⟩ := List.mem_map.mp inside
      exact parseNvmeItems_find first own member

end Parse

section Tracks

def placed (k : Nat) (spans : List (Event × Event)) : List ((Event × Nat) × (Event × Nat)) :=
  (spans.zipIdx k).map fun span => ((span.1.1, 2 * span.2), (span.1.2, 2 * span.2 + 1))

theorem zipIdx_ends (spans : List (Event × Event)) (k : Nat) :
    (Brackets.ends spans).zipIdx (2 * k) = Brackets.ends (placed k spans) := by
  induction spans generalizing k with
  | nil => rfl
  | cons span rest ih =>
    have next := ih (k + 1)
    rw [Nat.mul_add] at next
    rw [Brackets.ends_cons, List.zipIdx_cons, List.zipIdx_cons, placed, List.zipIdx_cons,
      List.map_cons, Brackets.ends_cons]
    rw [placed] at next
    rw [← next]

theorem mem_placed {spans : List (Event × Event)} {p : (Event × Nat) × (Event × Nat)} :
    p ∈ placed 0 spans ↔ ∃ i span, spans[i]? = some span ∧
      p = ((span.1, 2 * i), (span.2, 2 * i + 1)) := by
  rw [placed, List.mem_map]
  constructor
  · rintro ⟨⟨span, i⟩, inside, rfl⟩
    exact ⟨i, span, List.mk_mem_zipIdx_iff_getElem?.mp inside, rfl⟩
  · rintro ⟨i, span, found, rfl⟩
    exact ⟨(span, i), List.mk_mem_zipIdx_iff_getElem?.mpr found, rfl⟩

def Paired (spans : List (Event × Event)) : Prop :=
  ∀ span ∈ spans, span.1.pid = span.2.pid ∧ span.1.tid = span.2.tid ∧ span.1.ph = 'B' ∧
    span.2.ph = 'E'

theorem spans_paired (lines : List Line) : Paired (spans lines) := by
  intro pair inside
  obtain ⟨record, -, rfl⟩ := List.mem_map.mp inside
  exact ⟨rfl, rfl, rfl, rfl⟩

def threadSpans (pid : Option Nat) (tid : Nat) (spans : List (Event × Event)) :
    List ((Event × Nat) × (Event × Nat)) :=
  (placed 0 spans).filter fun p => p.1.1.pid = pid ∧ p.1.1.tid = tid

theorem track_ends {spans : List (Event × Event)} (paired : Paired spans) (pid : Option Nat)
    (tid : Nat) :
    track (Brackets.ends spans) pid tid = Brackets.ends (threadSpans pid tid spans) := by
  have whole : (Brackets.ends spans).zipIdx = Brackets.ends (placed 0 spans) := zipIdx_ends spans 0
  have same : ∀ p ∈ placed 0 spans, p.1.1.pid = p.2.1.pid ∧ p.1.1.tid = p.2.1.tid ∧
      p.1.1.ph = 'B' ∧ p.2.1.ph = 'E' := by
    intro p inside
    obtain ⟨i, span, found, rfl⟩ := mem_placed.mp inside
    exact paired span (List.mem_of_getElem? found)
  rw [track, whole, threadSpans, Brackets.filter_ends]
  · congr 1
    refine List.filter_congr fun p inside => ?_
    simp [(same p inside).2.2.1]
  · intro p inside
    obtain ⟨pids, tids, begins, ends⟩ := same p inside
    simp [pids, tids, begins, ends]

theorem pairwise_zipIdx {α : Type} (list : List α) (k : Nat) :
    (list.zipIdx k).Pairwise fun a b => a.2 < b.2 := by
  induction list generalizing k with
  | nil => exact .nil
  | cons a rest ih =>
    rw [List.zipIdx_cons, List.pairwise_cons]
    refine ⟨?_, ih (k + 1)⟩
    intro b inside
    have after := List.le_snd_of_mem_zipIdx inside
    exact Nat.lt_of_succ_le after

theorem track_sorted (timeline : List Event) (pid : Option Nat) (tid : Nat) :
    ((track timeline pid tid).mergeSort fun a b => moment a ≤ moment b).Pairwise
      fun a b => moment a < moment b := by
  have apart : (track timeline pid tid).Pairwise fun a b => a.2 ≠ b.2 :=
    ((pairwise_zipIdx timeline 0).imp Nat.ne_of_lt).sublist List.filter_sublist
  have distinct := ((List.mergeSort_perm _ fun a b => decide (moment a ≤ moment b)).pairwise_iff
    (fun different => Ne.symm different)).mpr apart
  have ordered := @List.pairwise_mergeSort _ (fun a b => decide (moment a ≤ moment b))
    (by intro a b c; simpa using le_trans) (by intro a b; simpa using le_total _ _)
    (track timeline pid tid)
  refine (ordered.and distinct).imp ?_
  rintro a b ⟨le, different⟩
  refine lt_of_le_of_ne (by simpa using le) fun same => different ?_
  exact congrArg (fun moment => (ofLex moment).2) same

theorem thread_closed_iff {spans : List (Event × Event)} (paired : Paired spans)
    (pid : Option Nat) (tid : Nat) :
    (∀ p ∈ threadSpans pid tid spans,
        (some p.1, p.2) ∈ closings (Brackets.ends spans) pid tid) ↔
      Brackets.Nested moment (threadSpans pid tid spans) := by
  refine Brackets.closed_iff ?_ (track_sorted _ _ _) ?_
  · rw [← track_ends paired]
    exact List.mergeSort_perm _ _
  · intro p inside
    obtain ⟨i, span, found, rfl⟩ := mem_placed.mp (List.mem_filter.mp inside).1
    obtain ⟨-, -, begins, ends⟩ := paired span (List.mem_of_getElem? found)
    simp [begins, ends]

end Tracks

section Shown

variable {lines : List Line}

theorem find_iff (cmd : Value) :
    KeyedObject.find tidMap (getCmd cmd) ≠ none ↔ cmd.str ∈ commands := by
  rcases getCmd_cases cmd with ⟨str, name⟩ | ⟨str, name⟩ | ⟨str, name⟩ | ⟨other, none⟩
  · rw [str, name]
    decide
  · rw [str, name]
    decide
  · rw [str, name]
    decide
  · exact iff_of_false (fun found => found none) other

theorem getCmd_congr {cmd other : Value} (same : cmd.str = other.str) :
    getCmd cmd = getCmd other := by
  rw [getCmd, getCmd, same]

def commandOf (tid : Nat) : Text :=
  if tid = 0 then "1".toList else if tid = 1 then "0".toList else "15".toList

theorem commandOf_tid {cmd : Value} (known : cmd.str ∈ commands) :
    commandOf ((KeyedObject.find tidMap (getCmd cmd)).getD 0) = cmd.str := by
  rcases getCmd_cases cmd with ⟨str, name⟩ | ⟨str, name⟩ | ⟨str, name⟩ | ⟨other, -⟩
  · rw [str, name]
    rfl
  · rw [str, name]
    rfl
  · rw [str, name]
    rfl
  · exact absurd known other

theorem begins_lt_ends_iff (record : Record) (i : Nat) : record.begins i < record.ends i ↔
    microseconds record.submitted ≤ microseconds record.completed := by
  rw [Record.begins, Record.ends, Prod.Lex.toLex_lt_toLex, le_iff_lt_or_eq]
  simp

def records (lines : List Line) : List Record :=
  (recordsOf lines).map Prod.snd

theorem mem_threadSpans {pid : Option Nat} {tid : Nat} {p : (Event × Nat) × (Event × Nat)} :
    p ∈ threadSpans pid tid (spans lines) ↔ ∃ i sized record,
      (recordsOf lines)[i]? = some (sized, record) ∧
        p = (((span (sized, record)).1, 2 * i), ((span (sized, record)).2, 2 * i + 1)) ∧
        (span (sized, record)).1.pid = pid ∧ (span (sized, record)).1.tid = tid := by
  rw [threadSpans, List.mem_filter, mem_placed, spans]
  constructor
  · rintro ⟨⟨i, pair, found, rfl⟩, own⟩
    rw [List.getElem?_map] at found
    obtain ⟨⟨sized, record⟩, listed, rfl⟩ := Option.map_eq_some_iff.mp found
    exact ⟨i, sized, record, listed, rfl, by simpa using own⟩
  · rintro ⟨i, sized, record, listed, rfl, own⟩
    exact ⟨⟨i, _, by rw [List.getElem?_map, listed]; rfl, rfl⟩, by simpa using own⟩

theorem nested_iff (known : ∀ record ∈ records lines, record.cmd.str ∈ commands) :
    (∀ pid tid, Brackets.Nested moment (threadSpans pid tid (spans lines))) ↔
      Drawable (records lines) := by
  have listed : ∀ {i : Nat} {record : Record}, (records lines)[i]? = some record ↔
      ∃ sized, (recordsOf lines)[i]? = some (sized, record) := by
    intro i record
    rw [records, List.getElem?_map, Option.map_eq_some_iff]
    simp
  constructor
  · intro nested
    refine ⟨known, ?_, ?_⟩
    · intro record inside
      obtain ⟨i, found⟩ := List.getElem?_of_mem inside
      obtain ⟨sized, found⟩ := listed.mp found
      exact (begins_lt_ends_iff record i).mp
        ((nested _ _).ordered _ (mem_threadSpans.mpr ⟨i, sized, record, found, rfl, rfl, rfl⟩))
    · rintro i j r s left right same crossed
      obtain ⟨sized, left⟩ := listed.mp left
      obtain ⟨wide, right⟩ := listed.mp right
      have name := getCmd_congr same
      exact (nested _ _).uncrossed _ (mem_threadSpans.mpr ⟨i, sized, r, left, rfl, rfl, rfl⟩) _
        (mem_threadSpans.mpr ⟨j, wide, s, right, rfl, by simp [span, name], by simp [span, name]⟩)
        crossed
  · intro drawable pid tid
    refine ⟨?_, ?_⟩
    · intro p inside
      obtain ⟨i, sized, record, found, rfl, -⟩ := mem_threadSpans.mp inside
      exact (begins_lt_ends_iff record i).mpr
        (drawable.ordered record (List.mem_of_getElem? (listed.mpr ⟨sized, found⟩)))
    · intro p left q right crossed
      obtain ⟨i, sized, r, found, rfl, -, thread⟩ := mem_threadSpans.mp left
      obtain ⟨j, wide, s, other, rfl, -, same⟩ := mem_threadSpans.mp right
      have first : (records lines)[i]? = some r := listed.mpr ⟨sized, found⟩
      have second : (records lines)[j]? = some s := listed.mpr ⟨wide, other⟩
      have str : r.cmd.str = s.cmd.str := by
        rw [← commandOf_tid (known r (List.mem_of_getElem? first)),
          ← commandOf_tid (known s (List.mem_of_getElem? second))]
        exact congrArg commandOf (thread.trans same.symm)
      exact drawable.uncrossed i j r s first second str crossed

theorem names_iff :
    (∀ record ∈ recordsOf lines, KeyedObject.find tidMap (getCmd record.2.cmd) ≠ none) ↔
      ∀ record ∈ records lines, record.cmd.str ∈ commands := by
  rw [records, List.forall_mem_map]
  exact forall₂_congr fun record _ => find_iff record.2.cmd

theorem closed_threads_iff :
    (∀ i pair, (spans lines)[i]? = some pair →
      (some (pair.1, 2 * i), (pair.2, 2 * i + 1)) ∈
        closings (Brackets.ends (spans lines)) pair.1.pid pair.1.tid) ↔
      ∀ pid tid, ∀ p ∈ threadSpans pid tid (spans lines),
        (some p.1, p.2) ∈ closings (Brackets.ends (spans lines)) pid tid := by
  constructor
  · intro closed pid tid p inside
    obtain ⟨inside, own⟩ := List.mem_filter.mp inside
    obtain ⟨i, pair, found, rfl⟩ := mem_placed.mp inside
    have here := closed i pair found
    simp only [decide_eq_true_eq] at own
    rwa [own.1, own.2] at here
  · intro closed i pair found
    refine closed _ _ _ (List.mem_filter.mpr ⟨mem_placed.mpr ⟨i, pair, found, rfl⟩, ?_⟩)
    simp

theorem Shown.drawable (shown : Shown lines) : Drawable (records lines) := by
  have known := names_iff.mp (parseNvmeProbeData_find (shown.added []))
  refine (nested_iff known).mp fun pid tid => ?_
  exact (thread_closed_iff (spans_paired lines) pid tid).mp
    (closed_threads_iff.mp shown.closed pid tid)

/-- Every record is drawn with its own duration exactly if all commands have a thread, none is
completed before it is submitted, and no two of one kind cross. -/
theorem records_shown_iff (lines : List Line) : Shown lines ↔ Drawable (records lines) := by
  refine ⟨Shown.drawable, fun drawable => ⟨?_, closed_threads_iff.mpr fun pid tid => ?_⟩⟩
  · exact parseNvmeProbeData_known (names_iff.mpr drawable.known)
  · exact (thread_closed_iff (spans_paired lines) pid tid).mpr
      ((nested_iff drawable.known).mpr drawable pid tid)

end Shown

theorem microseconds_whole {n : ℕ} {nsecs : UInt64} (small : n < 2 ^ 53)
    (whole : nsecs.toNat = n * 1000) : microseconds nsecs = n := by
  rw [microseconds, whole, Nat.cast_mul, Nat.cast_ofNat, mul_div_cancel_right₀ _ (by norm_num),
    Binary64.toDouble_of_small small]

def requests : RecordMap :=
  ⟨"@nvme_rq".toList, by decide, by decide⟩

def command (code : Int) (submitted completed : UInt64) : Record :=
  ⟨submitted, 7, 8, .number code, .number 0, .number 0, 8, completed⟩

-- The second write is submitted while the first is in flight; the flush command has no thread.
theorem crossing_writes_not_shown :
    ¬ Shown [.records requests [command 1 1000 3000, command 1 2000 4000]] ∧
      ¬ Shown [.records requests [command 2 1000 2000]] := by
  have at1000 : microseconds 1000 = (1 : ℕ) := microseconds_whole (by decide) rfl
  have at2000 : microseconds 2000 = (2 : ℕ) := microseconds_whole (by decide) rfl
  have at3000 : microseconds 3000 = (3 : ℕ) := microseconds_whole (by decide) rfl
  have at4000 : microseconds 4000 = (4 : ℕ) := microseconds_whole (by decide) rfl
  constructor
  · intro shown
    refine shown.drawable.uncrossed 0 1 _ _ rfl rfl rfl ?_
    simp only [Record.begins, Record.ends, command, at1000, at2000, at3000, at4000]
    norm_num [Prod.Lex.toLex_lt_toLex]
  · intro shown
    have known := shown.drawable.known (command 2 1000 2000)
      (by simp [records, recordsOf, Line.recordsOf])
    exact absurd known (by decide)

end ZnsTools.Nvme
