import ZnsTools.Heatmap
import ZnsTools.ResetCounts
import ZnsTools.ResetLatency

set_option autoImplicit false

namespace ZnsTools.Trace

open Emitted KeyedObject

def FinishedReset.number (args : Args) (reset : FinishedReset) : Nat :=
  reset.zone.toNat / args.zoneSize.toNat

section Records

variable {args : Args} {bits : Nat} {events : List Event}

theorem zoneStart_dvd (args : Args) (sector : UInt64) :
    args.zoneSize.toNat ∣ (zoneStart args sector).toNat := by
  have small : sector.toNat / args.zoneSize.toNat * args.zoneSize.toNat < 2 ^ 64 :=
    Nat.lt_of_le_of_lt (Nat.div_mul_le_self _ _) sector.toNat_lt
  rw [zoneStart_eq, zoneKey_toNat small]
  exact Nat.dvd_mul_left _ _

theorem record_aligned {entry : (UInt64 × UInt64) × UInt64}
    (recorded : entry ∈ emitted (record args) [] events) :
    args.zoneSize.toNat ∣ entry.1.1.toNat := by
  obtain ⟨past, event, -, -, out⟩ := mem_emitted.mp recorded
  obtain ⟨reset, done, rfl⟩ := Option.map_eq_some_iff.mp out
  obtain ⟨request, nsecs, -, own⟩ := finish_some done
  rw [(resets_cases own).2.2]
  exact zoneStart_dvd args _

theorem records_of_number (interleaving : Interleaving args events) (zone : Nat) :
    ((emitted (record args) [] events).filter fun entry =>
      entry.1.1.toNat / args.zoneSize.toNat = zone).map (·.2.toNat) =
      ((finishedResets args events).filter (·.number args = zone)).map (·.latency) := by
  have same := congrArg (fun list => (list.filter fun (entry : UInt64 × Nat) =>
    entry.1.toNat / args.zoneSize.toNat = zone).map Prod.snd) (records_eq interleaving)
  simp only [List.filter_map, List.map_map, Function.comp_def] at same
  exact same

theorem latMap_of_separated (power : args.zoneSize.toNat = 2 ^ bits)
    (interleaving : Interleaving args events) (separated : Separated args events) :
    (trace args events).zResetLatMap = emitted (record args) [] events := by
  have distinct := (distinct_iff interleaving).mpr separated
  rw [(interleaving_tracked power interleaving).lat, addAll_distinct (by simpa using distinct),
    List.nil_append]

end Records

end ZnsTools.Trace

namespace ZnsTools.Plot

open Emitted KeyedObject PyText
open Trace (Args FinishedReset finishedResets Interleaving Separated zoneKey)

abbrev LatEntry := (UInt64 × UInt64) × UInt64

section Lines

variable {size : Nat}

def KeepsLatencies (size : Nat) (line : Text) : Prop :=
  ∀ data, ∃ next, parseLine size data line = .ok next ∧ next.zResetLatMap = data.zResetLatMap

theorem keeps_op (positive : 0 < size) {entry : MapEntry} (keyed : ∃ op : Trace.Op,
    entry.1.2 = op.code) : KeepsLatencies size (printOpEntry zDataMapName entry) ∧
      KeepsLatencies size (printOpEntry zRwCtrMapName entry) := by
  obtain ⟨op, own⟩ := keyed
  obtain ⟨zone, located⟩ := zoneIndex_exists positive entry.1.1
  constructor
  · intro data
    rw [parseLine, printOpEntry, printLine_two, own, parseEntry_zDataMap located]
    exact ⟨_, rfl, rfl⟩
  · intro data
    rw [parseLine, printOpEntry, printLine_two, own, parseEntry_zRwCtrMap located]
    exact ⟨_, rfl, rfl⟩

theorem keeps_reset (positive : 0 < size) (entry : UInt64 × UInt64) :
    KeepsLatencies size (printLine zResetCtrMapName [entry.1.toNat] entry.2) := by
  intro data
  obtain ⟨zone, located⟩ := zoneIndex_exists positive entry.1
  exact ⟨_, parseLine_reset located entry.2 data, rfl⟩

def linesBesides (maps : Trace.Maps) : List Text :=
  printOpMap zDataMapName maps.zDataMap ++ printOpMap zRwCtrMapName maps.zRwCtrMap ++
    resetLines maps.zResetCtrMap ++
    if maps.resetAllCtr = 0 then []
    else
      ['@' :: resetAllCtrName ++ ": ".toList ++ printInt maps.resetAllCtr.toBitVec.toInt ++ ['\n']]

theorem keeps_besides (positive : 0 < size) {maps : Trace.Maps} (keyed : maps.Keyed) :
    ∀ line ∈ linesBesides maps, KeepsLatencies size line := by
  intro line inside
  simp only [linesBesides, List.mem_append] at inside
  rcases inside with ((data | ctr) | reset) | all
  · obtain ⟨entry, listed, rfl⟩ := List.mem_map.mp data
    exact (keeps_op positive (keyed.data entry listed)).1
  · obtain ⟨entry, listed, rfl⟩ := List.mem_map.mp ctr
    exact (keeps_op positive (keyed.ctr entry listed)).2
  · obtain ⟨entry, -, rfl⟩ := List.mem_map.mp reset
    exact keeps_reset positive entry
  · split at all
    · cases all
    · rw [List.mem_singleton.mp all]
      exact fun data => ⟨_, parseLine_resetAll _ data, rfl⟩

inductive LatLine where
  | kept (line : Text)
  | recorded (entry : LatEntry)

def LatLine.line : LatLine → Text
  | .kept line => line
  | .recorded entry =>
    printLine zResetLatMapName [entry.1.1.toNat, entry.1.2.toBitVec.toInt] entry.2

def LatLine.entry? : LatLine → Option LatEntry
  | .kept _ => none
  | .recorded entry => some entry

def LatLine.Readable (size : Nat) : LatLine → Prop
  | .kept line => KeepsLatencies size line
  | .recorded entry => size ∣ entry.1.1.toNat

def readLatency (size : Nat) (entry : LatEntry) : Int × Text × Int :=
  (⌊Binary64.toDouble (entry.1.1.toNat / size : Nat)⌋, printInt entry.1.2.toBitVec.toInt,
    entry.2.toBitVec.toInt)

theorem parse_latLines (positive : 0 < size) {lines : List LatLine}
    (readable : ∀ line ∈ lines, line.Readable size) (start : Data) :
    ∃ data, (lines.map LatLine.line).foldlM (parseLine size) start = .ok data ∧
      data.zResetLatMap = groupAll start.zResetLatMap
        ((lines.filterMap LatLine.entry?).map (readLatency size)) := by
  induction lines generalizing start with
  | nil => exact ⟨start, rfl, rfl⟩
  | cons line rest ih =>
    rw [List.forall_mem_cons] at readable
    rw [List.map_cons, List.foldlM_cons]
    cases line with
    | kept line =>
      have kept : KeepsLatencies size line := readable.1
      obtain ⟨next, parsed, same⟩ := kept start
      obtain ⟨data, read, groups⟩ := ih readable.2 next
      rw [LatLine.line, parsed, Runs.ok_bind]
      exact ⟨data, read, same ▸ groups⟩
    | recorded entry =>
      have aligned : size ∣ entry.1.1.toNat := readable.1
      have small : entry.1.1.toNat / size * size < 2 ^ 64 :=
        Nat.lt_of_le_of_lt (Nat.div_mul_le_self _ _) entry.1.1.toNat_lt
      have located := zoneIndex_printInt positive small
      rw [Nat.div_mul_cancel aligned] at located
      obtain ⟨data, read, groups⟩ := ih readable.2 _
      rw [LatLine.line, parseLine_lat located, Runs.ok_bind]
      exact ⟨data, read, groups⟩

end Lines

section Output

variable {args : Args} {bits : Nat} {events : List Trace.Event}

theorem printMaps_latencies (maps : Trace.Maps) : (printMaps maps).Perm
    ((linesBesides maps).map LatLine.kept ++ maps.zResetLatMap.map LatLine.recorded |>.map
      LatLine.line) := by
  have lines : ((linesBesides maps).map LatLine.kept ++ maps.zResetLatMap.map LatLine.recorded).map
      LatLine.line = linesBesides maps ++ maps.zResetLatMap.map fun entry =>
        printLine zResetLatMapName [entry.1.1.toNat, entry.1.2.toBitVec.toInt] entry.2 := by
    rw [List.map_append, List.map_map, List.map_map]
    exact congrArg (· ++ _) (List.map_id _)
  rw [lines]
  simp only [printMaps, linesBesides, resetLines, List.append_assoc]
  refine List.Perm.append_left _ (List.Perm.append_left _ (List.Perm.append_left _ ?_))
  exact List.perm_append_comm

theorem parse_latencies (power : args.zoneSize.toNat = 2 ^ bits)
    (interleaving : Interleaving args events) (separated : Separated args events)
    {other output : List Text} (ignored : ∀ line ∈ other, Ignored line)
    (printed : output.Perm (other ++ printMaps (Trace.trace args events))) :
    ∃ data, ∃ entries : List LatEntry,
      entries.Perm (emitted (Trace.record args) [] events) ∧
      parse args.zoneSize.toNat output = .ok data ∧
      data.zResetLatMap = groupAll [] (entries.map (readLatency args.zoneSize.toNat)) := by
  have positive : 0 < args.zoneSize.toNat := power ▸ Nat.two_pow_pos bits
  have whole : output.Perm ((other.map LatLine.kept ++
      ((linesBesides (Trace.trace args events)).map LatLine.kept ++
        (emitted (Trace.record args) [] events).map LatLine.recorded)).map LatLine.line) := by
    rw [List.map_append, List.map_map, ← Trace.latMap_of_separated power interleaving separated]
    refine printed.trans (.trans (List.Perm.append_left _ (printMaps_latencies _)) (.of_eq ?_))
    exact congrArg (· ++ _) (List.map_id other).symm
  obtain ⟨lines, perm, same⟩ := Perms.exists_map_of_perm whole
  have readable : ∀ line ∈ lines, line.Readable args.zoneSize.toNat := by
    intro line inside
    rcases List.mem_append.mp (perm.mem_iff.mp inside) with first | second
    · obtain ⟨text, listed, rfl⟩ := List.mem_map.mp first
      exact fun data => ⟨data, parseLine_ignored (ignored text listed) _ data, rfl⟩
    rcases List.mem_append.mp second with kept | recorded
    · obtain ⟨text, listed, rfl⟩ := List.mem_map.mp kept
      exact keeps_besides positive (Trace.trace_keyed args events) text listed
    · obtain ⟨entry, listed, rfl⟩ := List.mem_map.mp recorded
      exact Trace.record_aligned listed
  obtain ⟨data, read, groups⟩ := parse_latLines positive readable Data.empty
  rw [← same] at read
  have entries := perm.filterMap LatLine.entry?
  refine ⟨data, lines.filterMap LatLine.entry?, ?_, read, groups⟩
  simpa [List.filterMap_append, List.filterMap_map, Function.comp_def, LatLine.entry?]
    using entries

end Output

section Cells

variable {args : Args} {bits : Nat} {events : List Trace.Event}

-- The mean of the latencies in μsec, rounded when it is taken and when it is converted.
def meanLatency (resets : List FinishedReset) : ℚ :=
  Binary64.toDouble
    (Binary64.toDouble ((resets.map (·.latency)).sum / resets.length) / 10 ^ 3)

def resetsOf (args : Args) (events : List Trace.Event) (zone : Nat) : List FinishedReset :=
  (finishedResets args events).filter (·.number args = zone)

def latencyCell (args : Args) (events : List Trace.Event) (nrZones zone : Nat) : Cell ℚ :=
  if nrZones ≤ zone then .blank
  else if (resetsOf args events zone).isEmpty then .unused
  else .shown (meanLatency (resetsOf args events zone))

theorem trueDiv_mean {total count : Nat} (positive : 0 < count) (most : total ≤ count * 2 ^ 63) :
    trueDiv total count = .ok (Binary64.toDouble (total / count)) := by
  have some : (0 : ℚ) < count := by exact_mod_cast positive
  have whole : (total : ℚ) ≤ count * 2 ^ 63 := by exact_mod_cast most
  have mean : |((total : Int) : ℚ) / ((count : Int) : ℚ)| ≤ 2 ^ 128 := by
    rw [Int.cast_natCast, Int.cast_natCast, abs_of_nonneg (by positivity), div_le_iff₀ some]
    linarith
  have divided := trueDiv_ok_of_quotient mean (by exact_mod_cast positive)
  rwa [Int.cast_natCast, Int.cast_natCast] at divided

theorem averageLatency_mean {latencies : List (Text × Int)} {resets : List FinishedReset}
    (perm : (latencies.map Prod.snd).Perm (resets.map fun reset => (reset.latency : Int)))
    (short : ∀ reset ∈ resets, reset.latency < 2 ^ 63) (several : resets ≠ []) :
    averageLatency latencies = .ok (meanLatency resets) := by
  have total : (latencies.map Prod.snd).sum = ((resets.map (·.latency)).sum : Nat) := by
    rw [perm.sum_eq, Nat.cast_list_sum, List.map_map]
    rfl
  have count : latencies.length = resets.length := by simpa using perm.length_eq
  have most : (resets.map (·.latency)).sum ≤ resets.length * 2 ^ 63 := by
    have each := List.sum_le_card_nsmul (resets.map (·.latency)) (2 ^ 63)
      (by simpa using fun reset listed => (short reset listed).le)
    simpa using each
  rw [averageLatency, total, count, trueDiv_mean (List.length_pos_of_ne_nil several) most,
    Runs.ok_bind, meanLatency]
  rfl

theorem zone_of_record {nrZones : Nat} (few : nrZones ≤ 2 ^ 53)
    (interleaving : Interleaving args events)
    (onDevice : ∀ reset ∈ finishedResets args events, reset.number args < nrZones)
    {entry : LatEntry} (recorded : entry ∈ emitted (Trace.record args) [] events) :
    entry.1.1.toNat / args.zoneSize.toNat < nrZones ∧
      (readLatency args.zoneSize.toNat entry).1 = (entry.1.1.toNat / args.zoneSize.toNat : Nat) ∧
      ∃ reset ∈ finishedResets args events, entry.2.toNat = reset.latency := by
  have paired : (entry.1.1, entry.2.toNat) ∈
      (finishedResets args events).map fun reset => (reset.zone, reset.latency) := by
    rw [← Trace.records_eq interleaving]
    exact List.mem_map.mpr ⟨entry, recorded, rfl⟩
  obtain ⟨reset, listed, same⟩ := List.mem_map.mp paired
  obtain ⟨zone, latency⟩ := Prod.mk.inj same
  have inside : entry.1.1.toNat / args.zoneSize.toNat < nrZones := zone ▸ onDevice reset listed
  refine ⟨inside, ?_, reset, listed, latency.symm⟩
  exact floor_of_hasDouble ⟨_, 0, inside.trans_le few, (Nat.mul_one _).symm⟩

theorem latencies_of_zone {nrZones : Nat} (few : nrZones ≤ 2 ^ 53)
    (interleaving : Interleaving args events)
    (onDevice : ∀ reset ∈ finishedResets args events, reset.number args < nrZones)
    (short : ∀ reset ∈ finishedResets args events, reset.latency < 2 ^ 63)
    {entries : List LatEntry} (perm : entries.Perm (emitted (Trace.record args) [] events))
    (zone : Nat) :
    ((membersOf (entries.map (readLatency args.zoneSize.toNat)) zone).map Prod.snd).Perm
      ((resetsOf args events zone).map fun reset => (reset.latency : Int)) := by
  have known := fun entry recorded =>
    @zone_of_record args events nrZones few interleaving onDevice entry recorded
  have reordered := (membersOf_perm (perm.map (readLatency args.zoneSize.toNat)) (zone : Int)).map
    Prod.snd
  refine reordered.trans (.of_eq ?_)
  have own : (emitted (Trace.record args) [] events).filter
      (fun entry => (readLatency args.zoneSize.toNat entry).1 = (zone : Int)) =
        (emitted (Trace.record args) [] events).filter fun entry =>
          entry.1.1.toNat / args.zoneSize.toNat = zone := by
    refine List.filter_congr fun entry recorded => ?_
    refine decide_eq_decide.mpr ?_
    rw [(known entry recorded).2.1, Int.natCast_inj]
  have values := congrArg (List.map fun n : Nat => (n : Int))
    (Trace.records_of_number interleaving zone)
  rw [List.map_map, List.map_map] at values
  rw [membersOf, List.filter_map, List.map_map, List.map_map]
  refine Eq.trans ?_ values
  refine (congrArg (List.map _) own).trans (List.map_congr_left fun entry listed => ?_)
  obtain ⟨_, _, reset, finished, latency⟩ := known entry (List.mem_of_mem_filter listed)
  have below : entry.2.toNat < 2 ^ 63 := latency ▸ short reset finished
  have signed := (signed_eq_iff entry.2.toNat).mpr below
  rwa [UInt64.ofNat_toNat] at signed

theorem distinct_latencies {nrZones : Nat} (few : nrZones ≤ 2 ^ 53)
    (interleaving : Interleaving args events) (separated : Separated args events)
    (onDevice : ∀ reset ∈ finishedResets args events, reset.number args < nrZones)
    {entries : List LatEntry} (perm : entries.Perm (emitted (Trace.record args) [] events)) :
    ((entries.map (readLatency args.zoneSize.toNat)).map fun entry =>
      (entry.1, entry.2.1)).Nodup := by
  have keys : (entries.map Prod.fst).Nodup :=
    (perm.map _).nodup_iff.mpr ((Trace.distinct_iff interleaving).mpr separated)
  rw [List.map_map]
  refine (List.Nodup.of_map _ keys).map_on ?_
  intro first inside second also same
  obtain ⟨zone, text⟩ := Prod.mk.inj same
  have here := (zone_of_record few interleaving onDevice (perm.mem_iff.mp inside)).2.1
  have there := (zone_of_record few interleaving onDevice (perm.mem_iff.mp also)).2.1
  have number : first.1.1.toNat / args.zoneSize.toNat = second.1.1.toNat / args.zoneSize.toNat :=
    Int.natCast_inj.mp (here.symm.trans (zone.trans there))
  have start : first.1.1 = second.1.1 := by
    apply UInt64.toNat_inj.mp
    rw [← Nat.div_mul_cancel (Trace.record_aligned (perm.mem_iff.mp inside)), number,
      Nat.div_mul_cancel (Trace.record_aligned (perm.mem_iff.mp also))]
  have count : first.1.2 = second.1.2 := by
    have texts : pyInt (printInt first.1.2.toBitVec.toInt) =
        pyInt (printInt second.1.2.toBitVec.toInt) := congrArg pyInt text
    rw [pyInt_printInt, pyInt_printInt] at texts
    exact UInt64.toBitVec_inj.mp (BitVec.toInt_inj.mp (Except.ok.inj texts))
  exact List.inj_on_of_nodup_map keys inside also (Prod.ext start count)

structure LatenciesRead (args : Args) (events : List Trace.Event) (nrZones : Nat)
    (map : List (Int × List (Text × Int))) : Prop where
  distinct : (map.map Prod.fst).Nodup
  numbered : ∀ item ∈ map, ∃ zone : Nat, item.1 = zone ∧ zone < nrZones
  absent : ∀ zone : Nat, resetsOf args events zone = [] → find map zone = none
  present : ∀ zone : Nat, resetsOf args events zone ≠ [] → ∃ members,
    find map zone = some members ∧ (members.map Prod.snd).Perm
      ((resetsOf args events zone).map fun reset => (reset.latency : Int))

theorem latencies_read {nrZones : Nat} (few : nrZones ≤ 2 ^ 53)
    (interleaving : Interleaving args events) (separated : Separated args events)
    (onDevice : ∀ reset ∈ finishedResets args events, reset.number args < nrZones)
    (short : ∀ reset ∈ finishedResets args events, reset.latency < 2 ^ 63)
    {entries : List LatEntry} (perm : entries.Perm (emitted (Trace.record args) [] events)) :
    LatenciesRead args events nrZones
      (groupAll [] (entries.map (readLatency args.zoneSize.toNat))) := by
  have distinct := distinct_latencies few interleaving separated onDevice perm
  have found (key : Int) := find_groupAll_distinct distinct key
  have latencies := fun zone => latencies_of_zone few interleaving onDevice short perm zone
  constructor
  · exact nodup_groupAll _
  · intro item inside
    have own := find_of_mem (nodup_groupAll _) inside
    rw [found] at own
    split at own
    · cases own
    · next several =>
      obtain ⟨member, listed⟩ := List.exists_mem_of_ne_nil _ several
      obtain ⟨read, kept, -⟩ := List.mem_map.mp listed
      obtain ⟨entry, recorded, rfl⟩ := List.mem_map.mp (List.mem_of_mem_filter kept)
      have key := of_decide_eq_true (List.mem_filter.mp kept).2
      obtain ⟨below, zone, -⟩ :=
        zone_of_record few interleaving onDevice (perm.mem_iff.mp recorded)
      exact ⟨_, key.symm.trans zone, below⟩
  · intro zone none
    have own := latencies zone
    rw [none, List.map_nil, List.perm_nil, List.map_eq_nil_iff] at own
    rw [found, if_pos own]
  · intro zone several
    refine ⟨_, (found zone).trans (if_neg fun none => several ?_), latencies zone⟩
    have own := latencies zone
    rwa [none, List.map_nil, List.nil_perm, List.map_eq_nil_iff] at own

theorem average_of_zone {nrZones : Nat} {map : List (Int × List (Text × Int))}
    (read : LatenciesRead args events nrZones map)
    (short : ∀ reset ∈ finishedResets args events, reset.latency < 2 ^ 63) {zone : Nat}
    {members : List (Text × Int)} (found : find map zone = some members) :
    averageLatency members = .ok (meanLatency (resetsOf args events zone)) := by
  have several : resetsOf args events zone ≠ [] := by
    intro none
    rw [read.absent zone none] at found
    cases found
  obtain ⟨own, there, latencies⟩ := read.present zone several
  rw [found] at there
  rw [Option.some.inj there]
  exact averageLatency_mean latencies
    (fun reset listed => short reset (List.mem_of_mem_filter listed)) several

/-- For every interleaving of submissions and completions whose resets of a zone are separated, on
a device of at most 2^53 zones, each zone's cell has the mean of the latencies of its resets. -/
theorem run_latency_heatmap (args : Args) (bits : Nat) (power : args.zoneSize.toNat = 2 ^ bits)
    (nrZones : Nat) (few : nrZones ≤ 2 ^ 53) (events : List Trace.Event)
    (interleaving : Interleaving args events) (separated : Separated args events)
    (onDevice : ∀ reset ∈ finishedResets args events, reset.number args < nrZones)
    (short : ∀ reset ∈ finishedResets args events, reset.latency < 2 ^ 63)
    (other output : List Text) (ignored : ∀ line ∈ other, Ignored line)
    (printed : output.Perm (other ++ printMaps (Trace.trace args events))) :
    ∃ data, parse args.zoneSize.toNat output = .ok data ∧
      plotZResetLatMap nrZones data.zResetLatMap =
        .ok fun cell => latencyCell args events nrZones (number cell) := by
  obtain ⟨data, entries, perm, parsed, groups⟩ :=
    parse_latencies power interleaving separated ignored printed
  have read := latencies_read few interleaving separated onDevice short perm
  rw [← groups] at read
  have rows := dimension_lt few
  have zones : ∀ item ∈ data.zResetLatMap, 0 ≤ item.1 ∧ item.1 < nrZones := by
    intro item inside
    obtain ⟨zone, key, below⟩ := read.numbered item inside
    omega
  have values : ∀ item ∈ data.zResetLatMap, ∃ a, averageLatency item.2 = .ok a := by
    intro item inside
    obtain ⟨zone, key, -⟩ := read.numbered item inside
    exact ⟨_, average_of_zone read short (key ▸ find_of_mem read.distinct inside)⟩
  obtain ⟨grid, drawn, exactGrid⟩ := (@ownCells_of_few (fun _ => .ok 0) nrZones rows).resetLatMap
    data.zResetLatMap read.distinct zones values
  refine ⟨data, parsed, drawn.trans (congrArg Except.ok (funext fun cell => ?_))⟩
  rw [latencyCell]
  by_cases behind : nrZones ≤ number cell
  · rw [if_pos behind, exactGrid.blanks cell behind]
  rw [if_neg behind]
  by_cases none : resetsOf args events (number cell) = []
  · rw [none, List.isEmpty_nil, if_pos rfl]
    refine exactGrid.others cell (Nat.not_le.mp behind) fun inside => ?_
    obtain ⟨item, listed, key⟩ := List.mem_map.mp inside
    have own := find_of_mem read.distinct listed
    rw [key, read.absent _ none] at own
    cases own
  · obtain ⟨members, found, -⟩ := read.present _ none
    obtain ⟨a, mean, shown⟩ := exactGrid.zones cell members (mem_of_find found)
    rw [average_of_zone read short found] at mean
    rw [shown, if_neg (by rwa [List.isEmpty_iff]), ← Except.ok.inj mean]

theorem successive_resets_heatmap :
    ∃ data, parse Trace.smallZones.zoneSize.toNat
      (printMaps (Trace.trace Trace.smallZones Trace.successiveResets)).reverse = .ok data ∧
        plotZResetLatMap 3 data.zResetLatMap = .ok fun cell => latencyCell Trace.smallZones
          Trace.successiveResets 3 (number cell) := by
  have interleaving : Interleaving Trace.smallZones Trace.successiveResets := by decide
  have separated : Separated Trace.smallZones Trace.successiveResets :=
    (Trace.distinct_iff interleaving).mp (by decide)
  exact run_latency_heatmap Trace.smallZones 3 rfl 3 (by decide) Trace.successiveResets
    interleaving separated (by decide) (by decide) [] _ (List.forall_mem_nil Ignored)
    (List.reverse_perm _)

end Cells

end ZnsTools.Plot
