import ZnsTools.PlotDict

set_option autoImplicit false

namespace ZnsTools.Plot

open KeyedObject PyText
open Trace (Op Args IoRequest IoEvent commands totalSectors)

section Exact

variable {args : Args} {bits : Nat}

def Tallied (ios : List (IoRequest args)) (amount : Nat → Op → Nat)
    (entries : List MapEntry) : Prop :=
  ∀ entry, entry ∈ entries ↔
    ∃ io ∈ ios, entry = (io.key, UInt64.ofNat (amount io.zone io.op))

structure DictExact (ios : List (IoRequest args)) (amount : Nat → Op → Nat) (dict : OpDict) :
    Prop where
  zones : ∀ key, (find dict key).isSome ↔ ∃ io ∈ ios, (io.zone : Int) = key
  values : ∀ io ∈ ios, ∀ op, ∃ found, find dict io.zone = some found ∧
    (found.get op).int = .ok (amount io.zone op : Int)

theorem signed_eq_iff (n : Nat) : (UInt64.ofNat n).toBitVec.toInt = n ↔ n < 2 ^ 63 := by
  have bits : (UInt64.ofNat n).toBitVec = BitVec.ofNat 64 n := rfl
  rw [bits, BitVec.toInt_eq_toNat_bmod, BitVec.toNat_ofNat, Int.bmod_def]
  omega

theorem signed_lt (n : Nat) : (UInt64.ofNat n).toBitVec.toInt < 2 ^ 63 := by
  have bits : (UInt64.ofNat n).toBitVec = BitVec.ofNat 64 n := rfl
  rw [bits, BitVec.toInt_eq_toNat_bmod, BitVec.toNat_ofNat, Int.bmod_def]
  omega

theorem key_aligned (power : args.zoneSize.toNat = 2 ^ bits) (io : IoRequest args)
    (value : UInt64) :
    Aligned args.zoneSize.toNat (io.key, value) ∧
      entryKey args.zoneSize.toNat (io.key, value) = ⌊Binary64.toDouble io.zone⌋ ∧
      entryOp (io.key, value) = io.op := by
  have positive : 0 < args.zoneSize.toNat := by
    rw [power]
    exact Nat.two_pow_pos bits
  have op : entryOp (io.key, value) = io.op := by
    rw [entryOp, IoRequest.key]
    cases io.op <;> rfl
  refine ⟨⟨⟨io.zone, ?_⟩, ?_⟩, ?_, op⟩
  · rw [io.key_toNat, Nat.mul_comm]
  · rw [op]
    rfl
  · rw [entryKey, io.key_toNat, Nat.mul_div_cancel _ positive]

section Dict

variable {ios : List (IoRequest args)} {amount : Nat → Op → Nat} {entries : List MapEntry}
  {dict : OpDict}

theorem keys_io (power : args.zoneSize.toNat = 2 ^ bits) (tallied : Tallied ios amount entries)
    (read : ReadFrom args.zoneSize.toNat entries dict) (key : Int) :
    (find dict key).isSome ↔ ∃ io ∈ ios, ⌊Binary64.toDouble io.zone⌋ = key := by
  rw [read.keys]
  constructor
  · intro ⟨entry, inside, same⟩
    have ⟨io, listed, whole⟩ := (tallied entry).mp inside
    subst whole
    exact ⟨io, listed, (key_aligned power io _).2.1 ▸ same⟩
  · intro ⟨io, listed, same⟩
    exact ⟨_, (tallied _).mpr ⟨io, listed, rfl⟩, (key_aligned power io _).2.1.trans same⟩

theorem text_io (power : args.zoneSize.toNat = 2 ^ bits) (tallied : Tallied ios amount entries)
    (read : ReadFrom args.zoneSize.toNat entries dict) {key : Int} {found : OpEntries} {op : Op}
    {text : Text} (there : find dict key = some found) (value : found.get op = .text text) :
    ∃ io ∈ ios, ⌊Binary64.toDouble io.zone⌋ = key ∧ io.op = op ∧
      text = printInt (UInt64.ofNat (amount io.zone io.op)).toBitVec.toInt := by
  have ⟨entry, inside, located, operation, printed⟩ := read.texts key found op text there value
  have ⟨io, listed, whole⟩ := (tallied entry).mp inside
  subst whole
  have ⟨_, its, own⟩ := key_aligned power io (UInt64.ofNat (amount io.zone io.op))
  exact ⟨io, listed, its ▸ located, own ▸ operation, printed.symm⟩

theorem floor_of_hasDouble {zone : Nat} (short : Binary64.HasDouble zone) :
    ⌊Binary64.toDouble zone⌋ = (zone : Int) := by
  rw [Binary64.toDouble_exact short, Int.floor_natCast]

theorem hasDouble_of_floor {zone other : Nat} (same : ⌊Binary64.toDouble zone⌋ = (other : Int)) :
    Binary64.HasDouble other := by
  have ⟨rounded, value, short⟩ := Binary64.toDouble_natCast zone
  rw [value, Int.floor_natCast, Int.natCast_inj] at same
  rwa [← same]

theorem bounds_of_dict_exact (power : args.zoneSize.toNat = 2 ^ bits)
    (tallied : Tallied ios amount entries)
    (read : ReadFrom args.zoneSize.toNat entries dict) (exact_dict : DictExact ios amount dict) :
    ∀ io ∈ ios, Binary64.HasDouble io.zone ∧ amount io.zone io.op < 2 ^ 63 := by
  intro io listed
  constructor
  · have ⟨other, _, same⟩ := (keys_io power tallied read io.zone).mp
      ((exact_dict.zones io.zone).mpr ⟨io, listed, rfl⟩)
    exact hasDouble_of_floor same
  · have ⟨found, there, value⟩ := exact_dict.values io listed io.op
    cases entry : found.get io.op with
    | initial =>
      rw [entry, Entry.int] at value
      have := Except.ok.inj value
      omega
    | text text =>
      have ⟨other, _, _, _, printed⟩ := text_io power tallied read there entry
      rw [entry, Entry.int, printed, pyInt_printInt] at value
      have small := signed_lt (amount other.zone other.op)
      rw [Except.ok.inj value] at small
      exact_mod_cast small

theorem keys_of_doubles (power : args.zoneSize.toNat = 2 ^ bits)
    (tallied : Tallied ios amount entries) (read : ReadFrom args.zoneSize.toNat entries dict)
    (short : ∀ io ∈ ios, Binary64.HasDouble io.zone) (key : Int) :
    (find dict key).isSome ↔ ∃ io ∈ ios, (io.zone : Int) = key := by
  rw [keys_io power tallied read]
  constructor
  · intro ⟨io, listed, same⟩
    exact ⟨io, listed, (floor_of_hasDouble (short io listed)).symm.trans same⟩
  · intro ⟨io, listed, same⟩
    exact ⟨io, listed, (floor_of_hasDouble (short io listed)).trans same⟩

theorem dict_exact_iff (power : args.zoneSize.toNat = 2 ^ bits)
    (tallied : Tallied ios amount entries)
    (nothing : ∀ zone op, (∀ io ∈ ios, ¬ (io.zone = zone ∧ io.op = op)) → amount zone op = 0)
    (read : ReadFrom args.zoneSize.toNat entries dict) :
    DictExact ios amount dict ↔
      (∀ io ∈ ios, Binary64.HasDouble io.zone) ∧
        ∀ io ∈ ios, amount io.zone io.op < 2 ^ 63 := by
  constructor
  · intro exact_dict
    have bounds := bounds_of_dict_exact power tallied read exact_dict
    exact ⟨fun io listed => (bounds io listed).1, fun io listed => (bounds io listed).2⟩
  · intro ⟨short, small⟩
    have keys := keys_of_doubles power tallied read short
    refine ⟨keys, ?_⟩
    intro io listed op
    have ⟨found, there⟩ := Option.isSome_iff_exists.mp ((keys io.zone).mpr ⟨io, listed, rfl⟩)
    refine ⟨found, there, ?_⟩
    cases entry : found.get op with
    | text text =>
      have ⟨other, inside, same, own, printed⟩ := text_io power tallied read there entry
      rw [floor_of_hasDouble (short other inside), Int.natCast_inj] at same
      have exact_amount := (signed_eq_iff _).mpr (small other inside)
      rw [Entry.int, printed, pyInt_printInt, exact_amount, same, own]
    | initial =>
      have none : ∀ other ∈ ios, ¬ (other.zone = io.zone ∧ other.op = op) := by
        intro other inside ⟨zone, own⟩
        have ⟨_, key, operation⟩ := key_aligned power other
          (UInt64.ofNat (amount other.zone other.op))
        have given := read.given _ ((tallied _).mpr ⟨other, inside, rfl⟩) found
          (by rw [key, floor_of_hasDouble (short other inside), zone, there])
        rw [operation, own] at given
        exact given entry
      rw [Entry.int, nothing io.zone op none]
      rfl

end Dict

def requests (events : List (IoEvent args)) : List (IoRequest args) :=
  events.filterMap IoEvent.submitted

/-- The dictionaries are exact, and the average I/O sizes are computed from them. -/
structure PlotExact (events : List (IoEvent args)) (data : Data) : Prop where
  counts : DictExact (requests events) (commands (requests events)) data.zRwCtrMap
  sectors : DictExact (requests events) (totalSectors (requests events)) data.zDataMap
  covered : ∀ key found op, find data.zDataMap key = some found → found.get op ≠ .initial →
    ∃ counts n, find data.zRwCtrMap key = some counts ∧ (counts.get op).int = .ok n ∧ 1 ≤ n
  plotted : ∀ dimension, ∃ averages,
    plotAvgIoSize dimension data.zDataMap data.zRwCtrMap = .ok averages

section Averages

variable {data counter : OpDict}

theorem average_ok {key : Int} {op : Op} {entry : Entry}
    (texts : ∀ text, entry = .text text → ∃ total, pyInt text = .ok total ∧ |total| ≤ 2 ^ 64)
    (covered : entry ≠ .initial → ∃ counts n, find counter key = some counts ∧
      (counts.get op).int = .ok n ∧ 1 ≤ n) :
    ∃ result, average entry counter key op = .ok result := by
  cases entry with
  | initial => exact ⟨none, rfl⟩
  | text text =>
    have ⟨total, read, large⟩ := texts text rfl
    have ⟨counts, n, there, value, positive⟩ := covered (by rintro ⟨⟩)
    refine ⟨some (Binary64.toDouble ((total : ℚ) / n)), ?_⟩
    rw [average, read, Runs.ok_bind, there]
    simp only [value, Runs.ok_bind, trueDiv_ok large positive]
    rfl

theorem plotAvgIoSize_ok (dimension : Nat) (distinct : (data.map Prod.fst).Nodup)
    (texts : ∀ key found op text, find data key = some found → found.get op = .text text →
      ∃ total, pyInt text = .ok total ∧ |total| ≤ 2 ^ 64)
    (covered : ∀ key found op, find data key = some found → found.get op ≠ .initial →
      ∃ counts n, find counter key = some counts ∧ (counts.get op).int = .ok n ∧ 1 ≤ n) :
    ∃ averages, plotAvgIoSize dimension data counter = .ok averages := by
  rw [plotAvgIoSize]
  apply Runs.mapM_exists
  intro ⟨key, found⟩ inside
  have there := find_of_mem distinct inside
  have ⟨read, first⟩ : ∃ result, average found.read counter key .read = .ok result :=
    average_ok (texts key found .read · there) (covered key found .read there)
  have ⟨write, second⟩ : ∃ result, average found.write counter key .write = .ok result :=
    average_ok (texts key found .write · there) (covered key found .write there)
  dsimp only
  split
  · exact ⟨_, rfl⟩
  · rw [first, Runs.ok_bind, second]
    exact ⟨_, rfl⟩

end Averages

theorem commands_pos {ios : List (IoRequest args)} {io : IoRequest args} (listed : io ∈ ios) :
    1 ≤ commands ios io.zone io.op := by
  apply List.length_pos_of_mem (a := io)
  rw [Trace.requestsOf, List.mem_filter]
  exact ⟨listed, by simp⟩

theorem requestsOf_none {ios : List (IoRequest args)} {zone : Nat} {op : Op}
    (none : ∀ io ∈ ios, ¬ (io.zone = zone ∧ io.op = op)) : Trace.requestsOf ios zone op = [] := by
  rw [Trace.requestsOf, List.filter_eq_nil_iff]
  intro io listed
  simpa using none io listed

def items (events : List (IoEvent args)) (other : List Text) : List Item :=
  other.map .other ++
    ((Trace.trace args (events.map IoEvent.event)).zDataMap.map .data ++
      (Trace.trace args (events.map IoEvent.event)).zRwCtrMap.map .ctr)

theorem printed_items (power : args.zoneSize.toNat = 2 ^ bits) (events : List (IoEvent args))
    (other : List Text) :
    other ++ printMaps (Trace.trace args (events.map IoEvent.event)) =
      (items events other).map Item.line := by
  have maps := Trace.trace_io power events
  have lines : ∀ (name : Text) (map : List MapEntry),
      printOpMap name map = map.map (printOpEntry name) := fun _ _ => rfl
  rw [items, printMaps, lines, lines, maps]
  simp [Trace.Maps.begin, Function.comp_def, Item.line]

theorem items_dataEntry (events : List (IoEvent args)) (other : List Text) :
    (items events other).filterMap Item.dataEntry =
      (Trace.trace args (events.map IoEvent.event)).zDataMap := by
  simp [items, List.filterMap_map, Function.comp_def, Item.dataEntry]

theorem items_ctrEntry (events : List (IoEvent args)) (other : List Text) :
    (items events other).filterMap Item.ctrEntry =
      (Trace.trace args (events.map IoEvent.event)).zRwCtrMap := by
  simp [items, List.filterMap_map, Function.comp_def, Item.ctrEntry]

theorem traced_sectors (power : args.zoneSize.toNat = 2 ^ bits) (events : List (IoEvent args)) :
    Tallied (requests events) (totalSectors (requests events))
      (Trace.trace args (events.map IoEvent.event)).zDataMap := by
  rw [Trace.trace_io power]
  exact Trace.mem_zDataMap power (requests events)

theorem traced_counts (power : args.zoneSize.toNat = 2 ^ bits) (events : List (IoEvent args)) :
    Tallied (requests events) (commands (requests events))
      (Trace.trace args (events.map IoEvent.event)).zRwCtrMap := by
  rw [Trace.trace_io power]
  exact Trace.mem_zRwCtrMap power (requests events)

theorem tallied_aligned (power : args.zoneSize.toNat = 2 ^ bits) {ios : List (IoRequest args)}
    {amount : Nat → Op → Nat} {entries : List MapEntry} (tallied : Tallied ios amount entries) :
    ∀ entry ∈ entries, Aligned args.zoneSize.toNat entry := by
  intro entry inside
  have ⟨io, _, whole⟩ := (tallied entry).mp inside
  rw [whole]
  exact (key_aligned power io _).1

theorem items_readable (power : args.zoneSize.toNat = 2 ^ bits) (events : List (IoEvent args))
    {other : List Text} (ignored : ∀ line ∈ other, Ignored line) :
    ∀ item ∈ items events other, item.Readable args.zoneSize.toNat := by
  intro item inside
  rw [items, List.mem_append, List.mem_append, List.mem_map, List.mem_map, List.mem_map] at inside
  rcases inside with ⟨line, listed, rfl⟩ | ⟨entry, listed, rfl⟩ | ⟨entry, listed, rfl⟩
  · exact ignored line listed
  · exact tallied_aligned power (traced_sectors power events) entry listed
  · exact tallied_aligned power (traced_counts power events) entry listed

theorem parse_output (power : args.zoneSize.toNat = 2 ^ bits) (events : List (IoEvent args))
    {other output : List Text} (ignored : ∀ line ∈ other, Ignored line)
    (printed : output.Perm (other ++ printMaps (Trace.trace args (events.map IoEvent.event)))) :
    ∃ data sectors counts, parse args.zoneSize.toNat output = .ok data ∧
      data.zDataMap = dictOf args.zoneSize.toNat sectors ∧
      data.zRwCtrMap = dictOf args.zoneSize.toNat counts ∧
      Tallied (requests events) (totalSectors (requests events)) sectors ∧
      Tallied (requests events) (commands (requests events)) counts := by
  rw [printed_items power] at printed
  have ⟨reordered, perm, lines⟩ := Perms.exists_map_of_perm printed
  have positive : 0 < args.zoneSize.toNat := by
    rw [power]
    exact Nat.two_pow_pos bits
  have readable : ∀ item ∈ reordered, item.Readable args.zoneSize.toNat :=
    fun item inside => items_readable power events ignored item (perm.mem_iff.mp inside)
  have parsed := parse_items positive readable Data.empty
  rw [← lines] at parsed
  have sectors := perm.filterMap Item.dataEntry
  have counts := perm.filterMap Item.ctrEntry
  rw [items_dataEntry] at sectors
  rw [items_ctrEntry] at counts
  refine ⟨_, _, _, parsed, rfl, rfl, ?_, ?_⟩
  · intro entry
    rw [sectors.mem_iff, traced_sectors power events entry]
  · intro entry
    rw [counts.mem_iff, traced_counts power events entry]

theorem abs_signed_le (n : Nat) : |(UInt64.ofNat n).toBitVec.toInt| ≤ 2 ^ 64 := by
  have bits : (UInt64.ofNat n).toBitVec = BitVec.ofNat 64 n := rfl
  rw [bits, BitVec.toInt_eq_toNat_bmod, BitVec.toNat_ofNat, Int.bmod_def, abs_le]
  omega

/-- The dictionaries that are read from the output of a run are exact when every accessed zone
index is a double and no counter leaves the positive 64-bit integers. -/
theorem plot_exact_iff (args : Args) (bits : Nat) (power : args.zoneSize.toNat = 2 ^ bits)
    (events : List (IoEvent args)) (other output : List Text)
    (ignored : ∀ line ∈ other, Ignored line)
    (printed : output.Perm (other ++ printMaps (Trace.trace args (events.map IoEvent.event)))) :
    (∃ data, parse args.zoneSize.toNat output = .ok data ∧ PlotExact events data) ↔
      (∀ io ∈ requests events, Binary64.HasDouble io.zone) ∧
        ∀ io ∈ requests events, commands (requests events) io.zone io.op < 2 ^ 63 ∧
          totalSectors (requests events) io.zone io.op < 2 ^ 63 := by
  obtain ⟨data, sectors, counts, parsed, summed, counted, totals, numbers⟩ :=
    parse_output power events ignored printed
  have read_data := dictOf_from args.zoneSize.toNat sectors
  have read_ctr := dictOf_from args.zoneSize.toNat counts
  rw [← summed] at read_data
  rw [← counted] at read_ctr
  have exact_data := dict_exact_iff power totals
    (fun zone op none => by rw [totalSectors, requestsOf_none none]; rfl) read_data
  have exact_ctr := dict_exact_iff power numbers
    (fun zone op none => by rw [commands, requestsOf_none none]; rfl) read_ctr
  constructor
  · rintro ⟨other_data, same, plot⟩
    rw [parsed] at same
    rw [← Except.ok.inj same] at plot
    obtain ⟨short, few⟩ := exact_ctr.mp plot.counts
    exact ⟨short, fun io listed => ⟨few io listed, (exact_data.mp plot.sectors).2 io listed⟩⟩
  · rintro ⟨short, small⟩
    have exact_counts := exact_ctr.mpr ⟨short, fun io listed => (small io listed).1⟩
    have exact_sectors := exact_data.mpr ⟨short, fun io listed => (small io listed).2⟩
    have covered : ∀ key found op, find data.zDataMap key = some found →
        found.get op ≠ .initial → ∃ counts n, find data.zRwCtrMap key = some counts ∧
          (counts.get op).int = .ok n ∧ 1 ≤ n := by
      intro key found op there given
      cases entry : found.get op with
      | initial => exact absurd entry given
      | text text =>
        obtain ⟨io, listed, located, own, _⟩ := text_io power totals read_data there entry
        rw [floor_of_hasDouble (short io listed)] at located
        obtain ⟨counts, same, value⟩ := exact_counts.values io listed op
        refine ⟨counts, _, located ▸ same, value, ?_⟩
        rw [← own]
        exact_mod_cast commands_pos listed
    refine ⟨data, parsed, exact_counts, exact_sectors, covered, fun dimension => ?_⟩
    apply plotAvgIoSize_ok dimension read_data.distinct _ covered
    intro key found op text there value
    obtain ⟨io, _, _, _, printed⟩ := text_io power totals read_data there value
    exact ⟨_, printed ▸ pyInt_printInt _, abs_signed_le _⟩

end Exact

theorem no_double_past_2_53 : ¬ Binary64.HasDouble (2 ^ 53 + 1) := by
  intro ⟨m, e, bound, value⟩
  cases e with
  | zero => omega
  | succ e =>
    rw [pow_succ 2 e, ← mul_assoc] at value
    omega

def smallDisk (zoneSize : UInt64) : Args := ⟨[110, 49], zoneSize⟩

def ioRequest (zoneSize : UInt64) (op : Op) (cmd : UInt32) (start : UInt64) (dataLen : UInt32)
    (kind : cmd &&& Trace.reqOpMask ∈ op.cmds)
    (sized : dataLen.toNat = dataLen.toNat / 512 * 512) : IoRequest (smallDisk zoneSize) where
  request := ⟨[110, 49], cmd, start, dataLen, 1, 0, start, 0⟩
  op := op
  start := start
  sectors := dataLen.toNat / 512
  own := rfl
  kind := kind
  sector := fun _ => rfl
  slba := fun _ => rfl
  sized := sized

def farWrite : IoRequest (smallDisk 1) :=
  ioRequest 1 .write 1 0x20000000000001 512 (by decide) (by decide)

-- One write to the zone 2^53 + 1 of a device with zones of one sector.
theorem far_zone_is_misread :
    ¬ ∃ data, parse (smallDisk 1).zoneSize.toNat (printMaps (Trace.trace (smallDisk 1)
        ([.setup farWrite 0].map IoEvent.event))) = .ok data ∧
      PlotExact [.setup farWrite 0] data := by
  have power : (smallDisk 1).zoneSize.toNat = 2 ^ 0 := rfl
  intro ⟨data, parsed, plot⟩
  have ⟨other, _, counts, same, _, counted, _, numbers⟩ :=
    parse_output power [.setup farWrite 0] (List.forall_mem_nil Ignored) (.refl _)
  rw [List.nil_append, parsed] at same
  rw [← Except.ok.inj same] at counted
  have read := dictOf_from (smallDisk 1).zoneSize.toNat counts
  rw [← counted] at read
  have short := ((dict_exact_iff power numbers
    (fun zone op none => by rw [commands, requestsOf_none none]; rfl) read).mp plot.counts).1
  exact no_double_past_2_53 (short farWrite (List.mem_singleton_self farWrite))

def writeAndRead : List (IoEvent (smallDisk 8)) :=
  [.setup (ioRequest 8 .write 1 16 4096 (by decide) (by decide)) 10,
    .setup (ioRequest 8 .write 13 16 512 (by decide) (by decide)) 20,
    .setup (ioRequest 8 .read 0 3 512 (by decide) (by decide)) 30]

theorem near_zones_are_read : ∃ data, parse (smallDisk 8).zoneSize.toNat
    (printMaps (Trace.trace (smallDisk 8) (writeAndRead.map IoEvent.event))).reverse = .ok data ∧
      PlotExact writeAndRead data := by
  have near : ∀ io ∈ requests writeAndRead, io.zone < 2 ^ 53 := by decide
  have few : ∀ io ∈ requests writeAndRead,
      commands (requests writeAndRead) io.zone io.op < 2 ^ 63 ∧
        totalSectors (requests writeAndRead) io.zone io.op < 2 ^ 63 := by
    decide
  exact (plot_exact_iff (smallDisk 8) 3 rfl writeAndRead [] _ (List.forall_mem_nil Ignored)
    (List.reverse_perm _)).mpr
      ⟨fun io listed => ⟨io.zone, 0, near io listed, (Nat.mul_one _).symm⟩, few⟩

end ZnsTools.Plot
