import Mathlib.Algebra.BigOperators.Group.List.Lemmas
import Mathlib.Algebra.BigOperators.Ring.Finset
import ZnsTools.PlotExact
import ZnsTools.Shared.Grouped

set_option autoImplicit false

namespace ZnsTools.Trace

open BpfMap

def Event.resetZone (args : Args) : Event → Option Nat
  | .setup request _ =>
    if request.diskName = args.diskName ∧ request.isZoneReset then
      some (request.slba.toNat / args.zoneSize.toNat)
    else none
  | .complete _ _ => none

def Event.isResetAll (args : Args) : Event → Bool
  | .setup request _ => request.diskName = args.diskName ∧ request.cmd = reqOpZoneResetAll
  | .complete _ _ => false

-- The zones that are reset one by one, each as often as it is, and the number of the resets of all.
def resetZones (args : Args) (events : List Event) : List Nat :=
  events.filterMap (Event.resetZone args)

def resetAlls (args : Args) (events : List Event) : Nat :=
  events.countP (Event.isResetAll args)

section Counters

variable {args : Args} {bits : Nat}

def zoneKey (args : Args) (zone : Nat) : UInt64 :=
  UInt64.ofNat (zone * args.zoneSize.toNat)

theorem zoneStart_eq (args : Args) (sector : UInt64) :
    zoneStart args sector = zoneKey args (sector.toNat / args.zoneSize.toNat) := by
  have below : sector.toNat / args.zoneSize.toNat * args.zoneSize.toNat < 2 ^ 64 :=
    Nat.lt_of_le_of_lt (Nat.div_mul_le_self _ _) sector.toNat_lt
  apply UInt64.toNat_inj.mp
  rw [zoneStart, zoneKey, UInt64.toNat_mul, UInt64.toNat_div, UInt64.toNat_ofNat',
    Nat.mod_eq_of_lt below]

theorem resets_eq (request : Request) (nsecs : UInt64) :
    request.resets args = ((Event.setup request nsecs).resetZone args).map (zoneKey args) := by
  rw [Request.resets, Event.resetZone]
  split
  · rw [zoneStart_eq, Option.map_some]
  · rfl

theorem trace_resetCtr (power : args.zoneSize.toNat = 2 ^ bits) (events : List Event) :
    (trace args events).zResetCtrMap =
      tally ((resetZones args events).map fun zone => (zoneKey args zone, 1)) := by
  induction events using List.reverseRecOn with
  | nil => rfl
  | append_singleton past event ih =>
    rw [trace_snoc, resetZones, List.filterMap_append, List.map_append]
    cases event with
    | setup request nsecs =>
      have zone := @resets_eq args request nsecs
      cases reset : (Event.setup request nsecs).resetZone args with
      | some own =>
        rw [reset, Option.map_some] at zone
        rw [probe, (setup_of_reset power zone).ctr, ih]
        simp [reset, resetZones, tally_snoc]
      | none =>
        rw [reset, Option.map_none] at zone
        rw [probe, (setup_of_other zone).ctr, ih]
        simp [reset, resetZones]
    | complete request nsecs =>
      rw [probe, (complete_keeps args request nsecs _).1, ih]
      simp [Event.resetZone, List.filterMap_cons, resetZones]

theorem resetZones_small {events : List Event} {zone : Nat}
    (reset : zone ∈ resetZones args events) : zone * args.zoneSize.toNat < 2 ^ 64 := by
  obtain ⟨event, -, given⟩ := List.mem_filterMap.mp reset
  cases event with
  | complete request nsecs => cases given
  | setup request nsecs =>
    rw [Event.resetZone] at given
    split at given
    · cases given
      exact Nat.lt_of_le_of_lt (Nat.div_mul_le_self _ _) request.slba.toNat_lt
    · cases given

theorem zoneKey_toNat {zone : Nat} (small : zone * args.zoneSize.toNat < 2 ^ 64) :
    (zoneKey args zone).toNat = zone * args.zoneSize.toNat := by
  rw [zoneKey, UInt64.toNat_ofNat', Nat.mod_eq_of_lt small]

def resetEntry (args : Args) (zones : List Nat) (zone : Nat) : UInt64 × UInt64 :=
  (zoneKey args zone, UInt64.ofNat (zones.count zone))

theorem zoneKey_inj (power : args.zoneSize.toNat = 2 ^ bits) {events : List Event} {zone other : Nat}
    (reset : zone ∈ resetZones args events) (listed : other ∈ resetZones args events)
    (same : zoneKey args zone = zoneKey args other) : zone = other := by
  have sectors := congrArg UInt64.toNat same
  rw [zoneKey_toNat (resetZones_small reset), zoneKey_toNat (resetZones_small listed)] at sectors
  exact Nat.eq_of_mul_eq_mul_right (power ▸ Nat.two_pow_pos bits) sectors

theorem sum_of_zone (power : args.zoneSize.toNat = 2 ^ bits) (events : List Event) {zone : Nat}
    (reset : zone ∈ resetZones args events) :
    ((((resetZones args events).map fun other => (zoneKey args other, (1 : UInt64))).filter
      (·.1 = zoneKey args zone)).map (·.2.toNat)).sum = (resetZones args events).count zone := by
  have same : ((resetZones args events).filter fun other => zoneKey args other = zoneKey args zone) =
      (resetZones args events).filter (· == zone) := by
    refine List.filter_congr fun other listed => ?_
    rw [Bool.eq_iff_iff, decide_eq_true_eq, beq_iff_eq]
    exact ⟨zoneKey_inj power listed reset, fun equal => by rw [equal]⟩
  have ones : ∀ zones : List Nat, (zones.map fun _ => (1 : Nat)).sum = zones.length := by simp
  rw [List.count, List.countP_eq_length_filter, ← same, List.filter_map, List.map_map, ← ones]
  rfl

theorem resetCtr_perm (power : args.zoneSize.toNat = 2 ^ bits) (events : List Event) :
    (trace args events).zResetCtrMap.Perm
      ((resetZones args events).dedup.map (resetEntry args (resetZones args events))) := by
  rw [trace_resetCtr power]
  refine (List.perm_ext_iff_of_nodup (nodup_tally _).of_map ?_).mpr fun entry => ?_
  · refine (List.nodup_dedup _).map_on ?_
    intro zone reset other listed same
    exact zoneKey_inj power (List.mem_dedup.mp reset) (List.mem_dedup.mp listed)
      (congrArg Prod.fst same)
  · rw [mem_tally, List.mem_map]
    constructor
    · rintro ⟨⟨amount, inside, key⟩, value⟩
      obtain ⟨zone, reset, rfl⟩ := List.mem_map.mp inside
      dsimp only at key
      rw [← key, sum_of_zone power events reset] at value
      exact ⟨zone, List.mem_dedup.mpr reset, Prod.ext key value.symm⟩
    · rintro ⟨zone, reset, rfl⟩
      have listed := List.mem_dedup.mp reset
      exact ⟨⟨_, List.mem_map_of_mem listed, rfl⟩,
        congrArg UInt64.ofNat (sum_of_zone power events listed).symm⟩

structure Maps.Keyed (maps : Maps) : Prop where
  data : ∀ entry ∈ maps.zDataMap, ∃ op : Op, entry.1.2 = op.code
  ctr : ∀ entry ∈ maps.zRwCtrMap, ∃ op : Op, entry.1.2 = op.code

theorem increase_keyed {map : List ((UInt64 × UInt8) × UInt64)}
    (keyed : ∀ entry ∈ map, ∃ op : Op, entry.1.2 = op.code) (zlbas amount : UInt64) (op : Op) :
    ∀ entry ∈ increase map (zlbas, op.code) amount, ∃ op : Op, entry.1.2 = op.code := by
  intro entry inside
  rcases KeyedObject.mem_add inside with rfl | old
  · exact ⟨op, rfl⟩
  · exact keyed entry old

theorem Maps.Keyed.countIo {maps : Maps} (keyed : maps.Keyed) (op : Op) (zlbas : UInt64)
    (request : Request) : (Trace.countIo op zlbas request maps).Keyed :=
  ⟨increase_keyed keyed.data _ _ op, increase_keyed keyed.ctr _ _ op⟩

theorem Maps.Keyed.traceIo {maps : Maps} (keyed : maps.Keyed) (request : Request)
    (zlbas : UInt64) : (Trace.traceIo request zlbas maps).Keyed := by
  rw [Trace.traceIo]
  have written : (if request.cmd = reqOpWrite ∨ request.cmd = reqOpZoneAppend then
      Trace.countIo .write zlbas request maps else maps).Keyed := by
    split
    · exact keyed.countIo .write zlbas request
    · exact keyed
  split
  · exact written.countIo .read zlbas request
  · exact written

theorem Maps.Keyed.setup {maps : Maps} (keyed : maps.Keyed) (args : Args) (request : Request)
    (nsecs : UInt64) : (nvmeSetupCmd args request nsecs maps).Keyed := by
  rw [nvmeSetupCmd]
  split
  · have io := keyed.traceIo request
      ((if request.sector = 0 then request.slba else request.sector) &&& args.zoneMask)
    rw [traceResetAll, traceReset]
    split <;> split <;> exact ⟨io.data, io.ctr⟩
  · exact keyed

theorem Maps.Keyed.complete {maps : Maps} (keyed : maps.Keyed) (args : Args) (request : Request)
    (nsecs : UInt64) : (nvmeCompleteRq args request nsecs maps).Keyed := by
  rw [nvmeCompleteRq]
  split
  · split <;> exact ⟨keyed.data, keyed.ctr⟩
  · exact keyed

theorem trace_keyed (args : Args) (events : List Event) : (trace args events).Keyed := by
  induction events using List.reverseRecOn with
  | nil => exact ⟨by simp [trace, Maps.begin], by simp [trace, Maps.begin]⟩
  | append_singleton past event ih =>
    rw [trace_snoc]
    cases event with
    | setup request nsecs => exact ih.setup args request nsecs
    | complete request nsecs => exact ih.complete args request nsecs

end Counters

end ZnsTools.Trace

namespace ZnsTools.Plot

open KeyedObject PyText
open Trace (Args Op resetZones resetAlls resetEntry zoneKey)

-- The reset count of a zone in the dictionary; a zone that is not there was never reset.
def Data.resets (data : Data) (zone : Int) : Except PyError Int :=
  match find data.zResetCtrMap zone with
  | none => .ok 0
  | some resets => pyInt resets

/-- Every zone has its own resets and those of all zones, and the total is their sum. -/
structure ResetsExact (args : Args) (nrZones : Nat) (events : List Trace.Event) (data : Data) :
    Prop where
  zones : ∀ zone < nrZones, data.resets zone =
    .ok (((resetZones args events).count zone + resetAlls args events : Nat) : Int)
  total : data.zCounter = (((List.range nrZones).map fun zone =>
    (resetZones args events).count zone + resetAlls args events).sum : Nat)

section Lines

variable {size : Nat}

def Neutral (size : Nat) (line : Text) : Prop :=
  ∀ data, ∃ next, parseLine size data line = .ok next ∧
    next.zResetCtrMap = data.zResetCtrMap ∧ next.zCounter = data.zCounter

theorem Ignored.neutral {line : Text} (ignored : Ignored line) : Neutral size line :=
  fun data => ⟨data, parseLine_ignored ignored size data, rfl, rfl⟩

theorem zoneIndex_exists (positive : 0 < size) (lba : UInt64) :
    ∃ zone, zoneIndex size (printInt lba.toNat) = .ok zone := by
  have bound : |((lba.toNat : Nat) : Int)| ≤ 2 ^ 64 := by
    rw [Nat.abs_cast]
    exact_mod_cast lba.toNat_lt.le
  rw [zoneIndex, pyInt_printInt, Runs.ok_bind, trueDiv_ok bound (by exact_mod_cast positive)]
  exact ⟨_, rfl⟩

theorem neutral_data (positive : 0 < size) {entry : MapEntry} {op : Op}
    (keyed : entry.1.2 = op.code) : Neutral size (printOpEntry zDataMapName entry) := by
  intro data
  obtain ⟨zone, located⟩ := zoneIndex_exists positive entry.1.1
  rw [parseLine, printOpEntry, printLine_two, keyed, parseEntry_zDataMap located]
  exact ⟨_, rfl, rfl, rfl⟩

theorem neutral_ctr (positive : 0 < size) {entry : MapEntry} {op : Op}
    (keyed : entry.1.2 = op.code) : Neutral size (printOpEntry zRwCtrMapName entry) := by
  intro data
  obtain ⟨zone, located⟩ := zoneIndex_exists positive entry.1.1
  rw [parseLine, printOpEntry, printLine_two, keyed, parseEntry_zRwCtrMap located]
  exact ⟨_, rfl, rfl, rfl⟩

theorem pyInt_value (value : Int) : pyInt (printInt value ++ ['\n']) = .ok value := by
  have read : int ([] ++ printInt value ++ ['\n']) = some value :=
    int_printInt (List.forall_mem_nil _) (List.forall_mem_singleton.mpr (by decide)) value
  rw [List.nil_append] at read
  rw [pyInt, read]

theorem split_total (value : Int) : index ((resetAllCtrName ++ ':' :: ' ' ::
    (printInt value ++ ['\n'])).splitOn ' ').reverse 0 = .ok (printInt value ++ ['\n']) := by
  have own : ' ' ∉ resetAllCtrName ++ [':'] := by decide
  have last : ' ' ∉ printInt value ++ ['\n'] := by
    rw [List.mem_append, not_or]
    exact ⟨not_mem_printInt (by decide) (by decide) value, by decide⟩
  have whole : resetAllCtrName ++ ':' :: ' ' :: (printInt value ++ ['\n']) =
      (resetAllCtrName ++ [':']) ++ ' ' :: (printInt value ++ ['\n']) := by simp
  rw [whole, List.splitOn_append_cons_self_of_not_mem own, List.splitOn_eq_singleton last]
  rfl

theorem parseLine_resetAll (total : Int) (data : Data) : parseLine size data
    ('@' :: resetAllCtrName ++ ": ".toList ++ printInt total ++ ['\n']) =
      .ok { data with resetAllCtr := some total } := by
  have text : ('@' :: resetAllCtrName ++ ": ".toList ++ printInt total ++ ['\n']).drop 1 =
      resetAllCtrName ++ ':' :: ' ' :: (printInt total ++ ['\n']) := by simp
  have digits : 'g' ∉ printInt total := not_mem_printInt (by decide) (by decide) total
  have logging : ¬ loggingName <:+: resetAllCtrName ++ ':' :: ' ' :: (printInt total ++ ['\n']) := by
    apply not_infix_of_not_mem (c := 'g') (by decide)
    rw [List.mem_append, not_or]
    exact ⟨by decide, by simp [digits]⟩
  have own : resetAllCtrName <:+: resetAllCtrName ++ ':' :: ' ' :: (printInt total ++ ['\n']) :=
    (List.prefix_append _ _).isInfix
  rw [parseLine, text, parseEntry, if_neg logging, if_pos own, split_total, Runs.ok_bind,
    pyInt_value, Runs.ok_bind]
  rfl

theorem neutral_resetAll (total : Int) :
    Neutral size ('@' :: resetAllCtrName ++ ": ".toList ++ printInt total ++ ['\n']) :=
  fun data => ⟨_, parseLine_resetAll total data, rfl, rfl⟩

def latText (lba : Nat) (count value : Int) : Text :=
  printInt lba ++ ',' :: ' ' :: (printInt count ++ ']' :: ':' :: ' ' :: (printInt value ++ ['\n']))

theorem printLine_lat (lba : Nat) (count : Int) (value : UInt64) :
    (printLine zResetLatMapName [(lba : Int), count] value).drop 1 =
      zResetLatMapName ++ '[' :: latText lba count value.toBitVec.toInt := by
  simp [printLine, latText, List.intercalate]

theorem plain_printInt {c : Char} (other : ¬ c.isDigit ∧ c ≠ '-') (i : Int) : c ∉ printInt i :=
  not_mem_printInt other.1 other.2 i

def latValue (count value : Int) : Text :=
  ' ' :: (printInt count ++ ']' :: ':' :: ' ' :: (printInt value ++ ['\n']))

theorem latValue_bracket (count value : Int) :
    index ((latValue count value).splitOn ']') 0 = .ok (' ' :: printInt count) := by
  have own : ']' ∉ ' ' :: printInt count := by
    rw [List.mem_cons, not_or]
    exact ⟨by decide, plain_printInt (by decide) count⟩
  rw [latValue, ← List.cons_append, List.splitOn_append_cons_self_of_not_mem own]
  rfl

theorem latValue_colon (count value : Int) :
    index ((latValue count value).splitOn ':') 1 = .ok (' ' :: (printInt value ++ ['\n'])) := by
  have own : ':' ∉ ' ' :: (printInt count ++ [']']) := by
    simp [plain_printInt (c := ':') (by decide) count]
  have last : ':' ∉ ' ' :: (printInt value ++ ['\n']) := by
    simp [plain_printInt (c := ':') (by decide) value]
  have whole : latValue count value =
      (' ' :: (printInt count ++ [']'])) ++ ':' :: ' ' :: (printInt value ++ ['\n']) := by
    simp [latValue]
  rw [whole, List.splitOn_append_cons_self_of_not_mem own, List.splitOn_eq_singleton last]
  rfl

theorem parseResetLatLine_latText {lba : Nat} {zone : Int}
    (located : zoneIndex size (printInt lba) = .ok zone) (count value : Int) (data : Data) :
    parseResetLatLine size (latText lba count value) data = .ok { data with
      zResetLatMap := group data.zResetLatMap (zone, printInt count, value) } := by
  have rest : ',' ∉ latValue count value := by
    simp [latValue, plain_printInt (c := ',') (by decide) count,
      plain_printInt (c := ',') (by decide) value]
  have parts : (latText lba count value).splitOn ',' = [printInt lba, latValue count value] := by
    rw [latText, List.splitOn_append_cons_self_of_not_mem (plain_printInt (by decide) _)]
    exact congrArg _ (List.splitOn_eq_singleton rest)
  have first : index ((printInt lba).splitOn ']') 0 = .ok (printInt lba) := by
    rw [List.splitOn_eq_singleton (plain_printInt (by decide) _)]
    rfl
  have counter : strip (' ' :: printInt count) = printInt count := by
    have padded : strip ([' '] ++ printInt count ++ []) = printInt count :=
      strip_padded (List.forall_mem_singleton.mpr (by decide)) (printInt_solid count)
        (List.forall_mem_nil _)
    rwa [List.append_nil] at padded
  have stripped : strip (' ' :: (printInt value ++ ['\n'])) = printInt value := by
    have padded : strip ([' '] ++ printInt value ++ ['\n']) = printInt value :=
      strip_padded (List.forall_mem_singleton.mpr (by decide)) (printInt_solid value)
        (List.forall_mem_singleton.mpr (by decide))
    rwa [List.append_assoc] at padded
  have front : index [printInt lba, latValue count value] 0 = .ok (printInt lba) := rfl
  have back : index [printInt lba, latValue count value] 1 = .ok (latValue count value) := rfl
  rw [parseResetLatLine, parts]
  simp only [front, back, first, located, Runs.ok_bind, latValue_bracket, latValue_colon, counter,
    stripped, pyInt_printInt]
  rfl

theorem not_mem_latText {c : Char} (other : ¬ c.isDigit ∧ c ≠ '-')
    (plain : c ∉ [',', ' ', ']', ':', '\n']) (lba : Nat) (count value : Int) :
    c ∉ latText lba count value := by
  simp only [List.mem_cons, List.not_mem_nil, or_false, not_or] at plain
  simp [latText, plain_printInt other, plain]

theorem not_infix_named {needle name text : Text} {c : Char} (inside : c ∈ needle)
    (absent : c ∉ name ++ ['[']) (rest : c ∉ text) : ¬ needle <:+: name ++ '[' :: text := by
  apply not_infix_of_not_mem inside
  have split : name ++ '[' :: text = (name ++ ['[']) ++ text := by simp
  rw [split, List.mem_append, not_or]
  exact ⟨absent, rest⟩

theorem parseLine_lat {lba : Nat} {zone : Int}
    (located : zoneIndex size (printInt lba) = .ok zone) (count : Int) (value : UInt64)
    (data : Data) :
    parseLine size data (printLine zResetLatMapName [(lba : Int), count] value) = .ok { data with
      zResetLatMap := group data.zResetLatMap (zone, printInt count, value.toBitVec.toInt) } := by
  have text := fun c other plain => @not_mem_latText c other plain lba count value.toBitVec.toInt
  have cut : (zResetLatMapName ++ '[' :: latText lba count value.toBitVec.toInt).drop 16 =
      latText lba count value.toBitVec.toInt := rfl
  rw [parseLine, printLine_lat, parseEntry,
    if_neg (not_infix_named (c := 'g') (by decide) (by decide) (text _ (by decide) (by decide))),
    if_neg (not_infix_named (c := 'c') (by decide) (by decide) (text _ (by decide) (by decide))),
    if_neg (not_infix_named (c := 'd') (by decide) (by decide) (text _ (by decide) (by decide))),
    if_neg (not_infix_named (c := 'w') (by decide) (by decide) (text _ (by decide) (by decide))),
    if_neg (not_infix_named (c := 'c') (by decide) (by decide) (text _ (by decide) (by decide))),
    if_pos (List.prefix_append _ _).isInfix, cut]
  exact parseResetLatLine_latText located count _ data

theorem neutral_lat (positive : 0 < size) (lba : UInt64) (count : Int) (value : UInt64) :
    Neutral size (printLine zResetLatMapName [(lba.toNat : Int), count] value) := by
  intro data
  obtain ⟨zone, located⟩ := zoneIndex_exists positive lba
  rw [parseLine_lat located]
  exact ⟨_, rfl, rfl, rfl⟩

def resetText (lba : Nat) (value : Int) : Text :=
  printInt lba ++ ']' :: ':' :: ' ' :: (printInt value ++ ['\n'])

theorem printLine_reset (lba : Nat) (value : UInt64) :
    (printLine zResetCtrMapName [(lba : Int)] value).drop 1 =
      zResetCtrMapName ++ '[' :: resetText lba value.toBitVec.toInt := by
  simp [printLine, resetText, List.intercalate]

theorem parseResetCtrLine_resetText {lba : Nat} {zone : Int}
    (located : zoneIndex size (printInt lba) = .ok zone) (value : Int) (data : Data) :
    parseResetCtrLine size (resetText lba value) data = .ok { data with
      zResetCtrMap := add data.zResetCtrMap zone (printInt value)
      zCounter := data.zCounter + value } := by
  have whole : index ((resetText lba value).splitOn ',') 0 = .ok (resetText lba value) := by
    have none : ',' ∉ resetText lba value := by
      simp [resetText, plain_printInt (c := ',') (by decide)]
    rw [List.splitOn_eq_singleton none]
    rfl
  have first : index ((resetText lba value).splitOn ']') 0 = .ok (printInt lba) := by
    rw [resetText, List.splitOn_append_cons_self_of_not_mem (plain_printInt (by decide) _)]
    rfl
  have second : index ((resetText lba value).splitOn ' ') 1 = .ok (printInt value ++ ['\n']) := by
    have own : ' ' ∉ printInt lba ++ [']', ':'] := by
      simp [plain_printInt (c := ' ') (by decide)]
    have last : ' ' ∉ printInt value ++ ['\n'] := by
      simp [plain_printInt (c := ' ') (by decide)]
    have split : resetText lba value =
        (printInt lba ++ [']', ':']) ++ ' ' :: (printInt value ++ ['\n']) := by simp [resetText]
    rw [split, List.splitOn_append_cons_self_of_not_mem own, List.splitOn_eq_singleton last]
    rfl
  rw [parseResetCtrLine, whole]
  simp only [Runs.ok_bind, first, located, second, strip_value, pyInt_printInt]
  rfl

theorem parseLine_reset {lba : Nat} {zone : Int}
    (located : zoneIndex size (printInt lba) = .ok zone) (value : UInt64) (data : Data) :
    parseLine size data (printLine zResetCtrMapName [(lba : Int)] value) = .ok { data with
      zResetCtrMap := add data.zResetCtrMap zone (printInt value.toBitVec.toInt)
      zCounter := data.zCounter + value.toBitVec.toInt } := by
  have text : ∀ c : Char, ¬ c.isDigit ∧ c ≠ '-' → c ∉ [' ', ']', ':', '\n'] →
      c ∉ resetText lba value.toBitVec.toInt := by
    intro c other plain
    simp only [List.mem_cons, List.not_mem_nil, or_false, not_or] at plain
    simp [resetText, plain_printInt other, plain]
  have cut : (zResetCtrMapName ++ '[' :: resetText lba value.toBitVec.toInt).drop 16 =
      resetText lba value.toBitVec.toInt := rfl
  rw [parseLine, printLine_reset, parseEntry,
    if_neg (not_infix_named (c := 'g') (by decide) (by decide) (text _ (by decide) (by decide))),
    if_neg (not_infix_named (c := 'l') (by decide) (by decide) (text _ (by decide) (by decide))),
    if_neg (not_infix_named (c := 'd') (by decide) (by decide) (text _ (by decide) (by decide))),
    if_neg (not_infix_named (c := 'w') (by decide) (by decide) (text _ (by decide) (by decide))),
    if_pos (List.prefix_append _ _).isInfix, cut]
  exact parseResetCtrLine_resetText located _ data

end Lines

section Output

variable {args : Args} {bits : Nat} {events : List Trace.Event}

inductive ResetLine where
  | neutral (line : Text)
  | counted (zone : Nat)

def ResetLine.line (args : Args) (zones : List Nat) : ResetLine → Text
  | .neutral line => line
  | .counted zone => printLine zResetCtrMapName [((zoneKey args zone).toNat : Int)]
      (UInt64.ofNat (zones.count zone))

def ResetLine.zone? : ResetLine → Option Nat
  | .neutral _ => none
  | .counted zone => some zone

def ResetLine.Readable (args : Args) : ResetLine → Prop
  | .neutral line => Neutral args.zoneSize.toNat line
  | .counted zone => zone * args.zoneSize.toNat < 2 ^ 64

def signed (n : Nat) : Int :=
  (UInt64.ofNat n).toBitVec.toInt

def zonePair (zones : List Nat) (zone : Nat) : Int × Text :=
  (⌊Binary64.toDouble zone⌋, printInt (signed (zones.count zone)))

theorem parse_resetLines (positive : 0 < args.zoneSize.toNat) (zones : List Nat)
    {lines : List ResetLine} (readable : ∀ line ∈ lines, line.Readable args) (start : Data) :
    ∃ data, (lines.map (ResetLine.line args zones)).foldlM (parseLine args.zoneSize.toNat) start =
        .ok data ∧
      data.zResetCtrMap = addAll start.zResetCtrMap
        ((lines.filterMap ResetLine.zone?).map (zonePair zones)) ∧
      data.zCounter = start.zCounter +
        ((lines.filterMap ResetLine.zone?).map fun zone => signed (zones.count zone)).sum := by
  induction lines generalizing start with
  | nil => exact ⟨start, rfl, rfl, by simp⟩
  | cons line rest ih =>
    rw [List.forall_mem_cons] at readable
    rw [List.map_cons, List.foldlM_cons]
    cases line with
    | neutral line =>
      have neutral : Neutral args.zoneSize.toNat line := readable.1
      obtain ⟨next, parsed, map, counter⟩ := neutral start
      obtain ⟨data, read, pairs, total⟩ := ih readable.2 next
      rw [ResetLine.line, parsed, Runs.ok_bind]
      exact ⟨data, read, map ▸ pairs, counter ▸ total⟩
    | counted zone =>
      have small : zone * args.zoneSize.toNat < 2 ^ 64 := readable.1
      have located := zoneIndex_printInt positive small
      rw [← Trace.zoneKey_toNat small] at located
      rw [ResetLine.line, parseLine_reset located, Runs.ok_bind]
      obtain ⟨data, read, pairs, total⟩ := ih readable.2 _
      refine ⟨data, read, pairs, ?_⟩
      rw [total, add_assoc]
      simp [ResetLine.zone?, signed]

theorem neutral_op {name : Text} {map : List MapEntry}
    (each : ∀ entry ∈ map, Neutral args.zoneSize.toNat (printOpEntry name entry)) :
    ∀ line ∈ printOpMap name map, Neutral args.zoneSize.toNat line := by
  intro line inside
  obtain ⟨entry, listed, rfl⟩ := List.mem_map.mp inside
  exact each entry listed

def otherLines (maps : Trace.Maps) : List Text :=
  printOpMap zDataMapName maps.zDataMap ++ printOpMap zRwCtrMapName maps.zRwCtrMap ++
    (maps.zResetLatMap.map (fun entry =>
      printLine zResetLatMapName [entry.1.1.toNat, entry.1.2.toBitVec.toInt] entry.2) ++
    if maps.resetAllCtr = 0 then []
    else
      ['@' :: resetAllCtrName ++ ": ".toList ++ printInt maps.resetAllCtr.toBitVec.toInt ++ ['\n']])

def resetLines (map : List (UInt64 × UInt64)) : List Text :=
  map.map fun entry => printLine zResetCtrMapName [entry.1.toNat] entry.2

theorem printMaps_perm (maps : Trace.Maps) :
    (printMaps maps).Perm (otherLines maps ++ resetLines maps.zResetCtrMap) := by
  simp only [printMaps, otherLines, resetLines, List.append_assoc]
  refine List.Perm.append_left _ (List.Perm.append_left _ ?_)
  exact List.perm_append_comm.trans (List.Perm.of_eq (List.append_assoc _ _ _))

theorem neutral_otherLines (positive : 0 < args.zoneSize.toNat) {maps : Trace.Maps}
    (keyed : maps.Keyed) : ∀ line ∈ otherLines maps, Neutral args.zoneSize.toNat line := by
  intro line inside
  simp only [otherLines, List.mem_append] at inside
  rcases inside with (data | ctr) | (lat | all)
  · refine neutral_op (fun entry listed => ?_) line data
    obtain ⟨op, own⟩ := keyed.data entry listed
    exact neutral_data positive own
  · refine neutral_op (fun entry listed => ?_) line ctr
    obtain ⟨op, own⟩ := keyed.ctr entry listed
    exact neutral_ctr positive own
  · obtain ⟨entry, -, rfl⟩ := List.mem_map.mp lat
    exact neutral_lat positive entry.1.1 _ entry.2
  · split at all
    · cases all
    · rw [List.mem_singleton.mp all]
      exact neutral_resetAll _

theorem output_perm (power : args.zoneSize.toNat = 2 ^ bits) {other output : List Text}
    (printed : output.Perm (other ++ printMaps (Trace.trace args events))) :
    output.Perm (((other ++ otherLines (Trace.trace args events)).map ResetLine.neutral ++
      (resetZones args events).dedup.map ResetLine.counted).map
        (ResetLine.line args (resetZones args events))) := by
  have texts : ∀ lines : List Text, ∀ zones : List Nat, (lines.map ResetLine.neutral ++
      zones.dedup.map ResetLine.counted).map (ResetLine.line args zones) =
        lines ++ resetLines (zones.dedup.map (resetEntry args zones)) := by
    intro lines zones
    rw [resetLines, List.map_append, List.map_map, List.map_map, List.map_map]
    exact congrArg (· ++ _) (List.map_id _)
  rw [texts, List.append_assoc]
  refine printed.trans (List.Perm.append_left _ ((printMaps_perm _).trans ?_))
  exact List.Perm.append_left _ ((Trace.resetCtr_perm power events).map _)

theorem parse_resets (power : args.zoneSize.toNat = 2 ^ bits) {other output : List Text}
    (ignored : ∀ line ∈ other, Ignored line)
    (printed : output.Perm (other ++ printMaps (Trace.trace args events))) :
    ∃ data, ∃ zones : List Nat, zones.Perm (resetZones args events).dedup ∧
      parse args.zoneSize.toNat output = .ok data ∧
      data.zResetCtrMap = addAll [] (zones.map (zonePair (resetZones args events))) ∧
      data.zCounter = (zones.map fun zone => signed ((resetZones args events).count zone)).sum := by
  have positive : 0 < args.zoneSize.toNat := power ▸ Nat.two_pow_pos bits
  obtain ⟨items, perm, same⟩ := Perms.exists_map_of_perm (output_perm power printed)
  have readable : ∀ item ∈ items, item.Readable args := by
    intro item inside
    rcases List.mem_append.mp (perm.mem_iff.mp inside) with first | second
    · obtain ⟨line, listed, rfl⟩ := List.mem_map.mp first
      rcases List.mem_append.mp listed with unread | shown
      · exact Ignored.neutral (ignored line unread)
      · exact neutral_otherLines positive (Trace.trace_keyed args events) line shown
    · obtain ⟨zone, listed, rfl⟩ := List.mem_map.mp second
      exact Trace.resetZones_small (List.mem_dedup.mp listed)
  obtain ⟨data, read, pairs, total⟩ := parse_resetLines positive (resetZones args events) readable
    Data.empty
  rw [← same] at read
  have counted := perm.filterMap ResetLine.zone?
  refine ⟨data, items.filterMap ResetLine.zone?, ?_, read, pairs, ?_⟩
  · simpa [List.filterMap_append, List.filterMap_map, Function.comp_def, ResetLine.zone?]
      using counted
  · simpa [Data.empty] using total

theorem signed_le (n : Nat) : signed n ≤ n := by
  have bits : (UInt64.ofNat n).toBitVec = BitVec.ofNat 64 n := rfl
  rw [signed, bits, BitVec.toInt_eq_toNat_bmod, BitVec.toNat_ofNat, Int.bmod_def]
  omega

theorem eq_of_sum_le {α : Type} {f g : α → Int} {list : List α} (below : ∀ a ∈ list, f a ≤ g a)
    (sums : (list.map g).sum ≤ (list.map f).sum) : ∀ a ∈ list, f a = g a := by
  induction list with
  | nil => simp
  | cons first rest ih =>
    rw [List.forall_mem_cons] at below
    simp only [List.map_cons, List.sum_cons] at sums
    have later : (rest.map f).sum ≤ (rest.map g).sum := List.sum_le_sum below.2
    have here := below.1
    exact List.forall_mem_cons.mpr ⟨by omega, ih below.2 (by omega)⟩

theorem sum_count_range {zones : List Nat} {n : Nat} (inside : ∀ zone ∈ zones, zone < n) :
    ((List.range n).map fun zone => zones.count zone).sum = zones.length := by
  have counted := Multiset.sum_count_eq_card (s := Finset.range n) (m := (zones : Multiset Nat))
    fun zone listed => Finset.mem_range.mpr (inside zone listed)
  simp only [Multiset.coe_count, Multiset.coe_card] at counted
  exact counted

theorem sum_count_perm {zones order : List Nat} (perm : order.Perm zones.dedup) :
    (order.map fun zone => (zones.count zone : Int)).sum = zones.length := by
  have total := (perm.map zones.count).sum_eq
  rw [List.sum_map_count_dedup_eq_length] at total
  rw [← total, Nat.cast_list_sum, List.map_map]
  rfl

section Exact

variable {nrZones : Nat} {data : Data} {order : List Nat}

theorem resets_of_order (perm : order.Perm (resetZones args events).dedup)
    (pairs : data.zResetCtrMap = addAll [] (order.map (zonePair (resetZones args events))))
    (short : ∀ zone ∈ resetZones args events, Binary64.HasDouble zone)
    (few : ∀ zone ∈ resetZones args events, (resetZones args events).count zone < 2 ^ 63)
    (zone : Nat) : data.resets zone = .ok ((resetZones args events).count zone : Int) := by
  have listed : ∀ {zone : Nat}, zone ∈ order ↔ zone ∈ resetZones args events :=
    perm.mem_iff.trans List.mem_dedup
  let read : Nat → Int × Text := fun zone => (zone, printInt ((resetZones args events).count zone))
  have own : ∀ zone ∈ order, zonePair (resetZones args events) zone = read zone := by
    intro zone inside
    rw [zonePair, floor_of_hasDouble (short zone (listed.mp inside)), signed,
      (signed_eq_iff _).mpr (few zone (listed.mp inside))]
  have distinct : ((order.map read).map Prod.fst).Nodup := by
    rw [List.map_map]
    exact ((perm.nodup_iff.mpr (List.nodup_dedup _))).map Nat.cast_injective
  have whole : data.zResetCtrMap = order.map read := by
    rw [pairs, List.map_congr_left own, addAll_distinct (by simpa using distinct), List.nil_append]
  rw [Data.resets, whole]
  by_cases inside : zone ∈ order
  · rw [find_of_mem distinct (List.mem_map_of_mem inside)]
    exact pyInt_printInt _
  · have absent : find (order.map read) (zone : Int) = none := by
      cases found : find (order.map read) (zone : Int) with
      | none => rfl
      | some text =>
        obtain ⟨other, member, same⟩ := List.mem_map.mp (mem_of_find found)
        have equal : other = zone := Int.natCast_inj.mp (congrArg Prod.fst same)
        exact absurd (equal ▸ member) inside
    rw [absent, List.count_eq_zero.mpr fun reset => inside (listed.mpr reset)]
    rfl

end Exact

/-- The counts are exact exactly if no command resets all zones: those are never added. -/
theorem reset_counts_iff (args : Args) (bits : Nat) (power : args.zoneSize.toNat = 2 ^ bits)
    (nrZones : Nat) (some : 0 < nrZones) (events : List Trace.Event)
    (onDevice : ∀ zone ∈ resetZones args events, zone < nrZones) (other output : List Text)
    (ignored : ∀ line ∈ other, Ignored line)
    (printed : output.Perm (other ++ printMaps (Trace.trace args events))) :
    (∃ data, parse args.zoneSize.toNat output = .ok data ∧
        ResetsExact args nrZones events data) ↔
      resetAlls args events = 0 ∧ ∀ zone ∈ resetZones args events, Binary64.HasDouble zone ∧
        (resetZones args events).count zone < 2 ^ 63 := by
  obtain ⟨data, order, perm, parsed, pairs, total⟩ := parse_resets power ignored printed
  have listed : ∀ {zone : Nat}, zone ∈ order ↔ zone ∈ resetZones args events :=
    perm.mem_iff.trans List.mem_dedup
  have below : ∀ zone ∈ order, signed ((resetZones args events).count zone) ≤
      ((resetZones args events).count zone : Int) := fun zone _ => signed_le _
  have singles := sum_count_perm perm
  have shares : ((List.range nrZones).map fun zone =>
      (resetZones args events).count zone + resetAlls args events).sum =
        (resetZones args events).length + nrZones * resetAlls args events := by
    rw [List.sum_map_add, sum_count_range onDevice]
    simp
  constructor
  · rintro ⟨_, same, counts⟩
    rw [parsed] at same
    cases same
    have least := counts.total
    rw [total, shares] at least
    have most : (order.map fun zone => signed ((resetZones args events).count zone)).sum ≤
        (resetZones args events).length := singles ▸ List.sum_le_sum below
    have none : resetAlls args events = 0 := by
      have product : nrZones * resetAlls args events = 0 := by omega
      exact (Nat.mul_eq_zero.mp product).resolve_left some.ne'
    refine ⟨none, fun zone reset => ⟨?_, ?_⟩⟩
    · have own := counts.zones zone (onDevice zone reset)
      rw [none, Nat.add_zero, Data.resets] at own
      split at own
      · have several := List.count_pos_iff.mpr reset
        have nothing : (0 : Int) = (resetZones args events).count zone := Except.ok.inj own
        omega
      · next text found =>
        have member := mem_of_find found
        rw [pairs] at member
        obtain ⟨other, -, same⟩ := List.mem_map.mp ((mem_addAll member).resolve_left (by simp))
        exact hasDouble_of_floor (congrArg Prod.fst same)
    · have equal := eq_of_sum_le below (by rw [singles, least]; omega) zone (listed.mpr reset)
      exact (signed_eq_iff _).mp equal
  · rintro ⟨none, each⟩
    refine ⟨data, parsed, fun zone _ => ?_, ?_⟩
    · rw [resets_of_order perm pairs (fun zone reset => (each zone reset).1)
        (fun zone reset => (each zone reset).2), none, Nat.add_zero]
    · rw [total, shares, none, Nat.mul_zero, Nat.add_zero, ← singles]
      refine congrArg List.sum (List.map_congr_left fun zone inside => ?_)
      exact (signed_eq_iff _).mpr (each zone (listed.mp inside)).2

end Output

def resetRequest (cmd : UInt32) (slba : UInt64) : Trace.Request :=
  ⟨[110, 49], cmd, 0, 0, 1, 0, slba, 0⟩

def resetAllZones : List Trace.Event :=
  [.setup (resetRequest Trace.reqOpZoneResetAll 0) 10]

theorem reset_all_is_not_counted :
    ¬ ∃ data, parse (smallDisk 8).zoneSize.toNat
        (printMaps (Trace.trace (smallDisk 8) resetAllZones)) = .ok data ∧
      ResetsExact (smallDisk 8) 2 resetAllZones data := by
  rintro ⟨data, parsed, counts⟩
  obtain ⟨other, order, perm, same, -, total⟩ := @parse_resets (smallDisk 8) 3 resetAllZones rfl []
    _ (List.forall_mem_nil Ignored) (.refl _)
  rw [List.nil_append, parsed] at same
  cases same
  have nothing : order = [] := perm.eq_nil
  have none : data.zCounter = 0 := by rw [total, nothing]; rfl
  have two : data.zCounter = 2 := counts.total
  rw [none] at two
  cases two

def secondZoneTwice : List Trace.Event :=
  [.setup (resetRequest Trace.reqOpZoneReset 8) 10, .complete (resetRequest Trace.reqOpZoneReset 8) 20,
    .setup (resetRequest Trace.reqOpZoneReset 8) 30]

theorem single_resets_are_counted : ∃ data, parse (smallDisk 8).zoneSize.toNat
    (printMaps (Trace.trace (smallDisk 8) secondZoneTwice)).reverse = .ok data ∧
      ResetsExact (smallDisk 8) 2 secondZoneTwice data := by
  refine (reset_counts_iff (smallDisk 8) 3 rfl 2 (by decide) secondZoneTwice (by decide) [] _
    (List.forall_mem_nil Ignored) (List.reverse_perm _)).mpr ⟨by decide, fun zone reset => ?_⟩
  have own : zone = 1 := by
    have listed : zone ∈ [1, 1] := reset
    simpa using listed
  rw [own]
  exact ⟨⟨1, 0, by decide, rfl⟩, by decide⟩

end ZnsTools.Plot
