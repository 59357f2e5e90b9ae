import ZnsTools.Heatmap
import ZnsTools.ResetCounts

set_option autoImplicit false

namespace ZnsTools.Plot

open KeyedObject PyText
open Trace (Op Args IoRequest IoEvent commands totalSectors)

def placeAverage {size : Nat} (grid : Grid ℚ size) (key : Int) :
    Option ℚ → Except PyError (Grid ℚ size)
  | none => .ok grid
  | some quotient => do
    let cell ← zoneCell size key
    pure (Function.update grid cell (.shown quotient))

def fillAverages {size : Nat} (counter : OpDict) (grids : Grid ℚ size × Grid ℚ size)
    (item : Int × OpEntries) : Except PyError (Grid ℚ size × Grid ℚ size) :=
  if ((size ^ 2 : Nat) : Int) ≤ item.1 then .ok grids
  else do
    let read ← average item.2.read counter item.1 .read
    let reads ← placeAverage grids.1 item.1 read
    let write ← average item.2.write counter item.1 .write
    let writes ← placeAverage grids.2 item.1 write
    pure (reads, writes)

-- `read_data` and `write_data` of plot_avg_io_size
def plotAvgIoSizeMaps (nrZones : Nat) (data counter : OpDict) :
    Except PyError (Grid ℚ (dimension nrZones) × Grid ℚ (dimension nrZones)) := do
  let reads ← emptyGrid ℚ nrZones
  let writes ← emptyGrid ℚ nrZones
  data.foldlM (fillAverages counter) (reads, writes)

-- A matrix of numbers takes the text of an integer for the nearest double.
def ReadsIntegers (asFloat : Text → Except PyError ℚ) : Prop :=
  ∀ text (n : Int), pyInt text = .ok n → |n| ≤ 2 ^ 64 → asFloat text = .ok (Binary64.toDouble n)

section Expected

variable {args : Args}

def opCell (ios : List (IoRequest args)) (amount : Nat → Op → Nat) (nrZones : Nat)
    (zone : Nat) : Cell (ℚ × ℚ) :=
  if nrZones ≤ zone then .blank
  else if ios.any (·.zone == zone) then
    .shown (Binary64.toDouble (amount zone .read), Binary64.toDouble (amount zone .write))
  else .unused

def averageCell (ios : List (IoRequest args)) (op : Op) (nrZones : Nat) (zone : Nat) : Cell ℚ :=
  if nrZones ≤ zone then .blank
  else if commands ios zone op = 0 then .unused
  else .shown (Binary64.toDouble (totalSectors ios zone op / commands ios zone op))

/-- The heatmaps of the sectors, of the commands and of the average I/O sizes. -/
structure Heatmaps (asFloat : Text → Except PyError ℚ) (nrZones : Nat)
    (ios : List (IoRequest args)) (data : Data) : Prop where
  sectors : plotZOpMap asFloat nrZones data.zDataMap =
    .ok fun cell => opCell ios (totalSectors ios) nrZones (number cell)
  counts : plotZOpMap asFloat nrZones data.zRwCtrMap =
    .ok fun cell => opCell ios (commands ios) nrZones (number cell)
  averages : plotAvgIoSizeMaps nrZones data.zDataMap data.zRwCtrMap =
    .ok (fun cell => averageCell ios .read nrZones (number cell),
      fun cell => averageCell ios .write nrZones (number cell))

end Expected

section OpMap

variable {args : Args} {bits : Nat} {ios : List (IoRequest args)} {amount : Nat → Op → Nat}
  {entries : List MapEntry} {dict : OpDict} {nrZones : Nat} {asFloat : Text → Except PyError ℚ}

structure Known (ios : List (IoRequest args)) (amount : Nat → Op → Nat) (dict : OpDict) :
    Prop where
  distinct : (dict.map Prod.fst).Nodup
  zones : ∀ key, (find dict key).isSome ↔ ∃ io ∈ ios, (io.zone : Int) = key
  entries : ∀ zone : Nat, ∀ found, find dict zone = some found → ∀ op,
    found.get op = if (Trace.requestsOf ios zone op).isEmpty then .initial
      else .text (printInt (amount zone op))
  small : ∀ zone op, amount zone op < 2 ^ 63

theorem mem_requestsOf {zone : Nat} {op : Op} {io : IoRequest args} :
    io ∈ Trace.requestsOf ios zone op ↔ io ∈ ios ∧ io.zone = zone ∧ io.op = op := by
  simp [Trace.requestsOf]

theorem known_of_tallied (power : args.zoneSize.toNat = 2 ^ bits)
    (tallied : Tallied ios amount entries) (read : ReadFrom args.zoneSize.toNat entries dict)
    (short : ∀ io ∈ ios, Binary64.HasDouble io.zone)
    (small : ∀ zone op, amount zone op < 2 ^ 63) : Known ios amount dict := by
  refine ⟨read.distinct, keys_of_doubles power tallied read short, ?_, small⟩
  intro zone found there op
  have texts : ∀ text, found.get op = .text text →
      ∃ io ∈ Trace.requestsOf ios zone op, text = printInt (amount zone op) := by
    intro text value
    obtain ⟨io, listed, located, own, printed⟩ := text_io power tallied read there value
    rw [floor_of_hasDouble (short io listed), Int.natCast_inj] at located
    refine ⟨io, mem_requestsOf.mpr ⟨listed, located, own⟩, ?_⟩
    rw [printed, (signed_eq_iff _).mpr (small _ _), located, own]
  split
  · next none =>
    cases entry : found.get op with
    | initial => rfl
    | text text =>
      obtain ⟨io, inside, _⟩ := texts text entry
      rw [List.isEmpty_iff.mp none] at inside
      cases inside
  · next several =>
    obtain ⟨io, inside⟩ := List.exists_mem_of_ne_nil _ fun nil =>
      several (List.isEmpty_iff.mpr nil)
    obtain ⟨listed, rfl, rfl⟩ := mem_requestsOf.mp inside
    obtain ⟨_, key, operation⟩ :=
      key_aligned power io (UInt64.ofNat (amount io.zone io.op))
    have given := read.given _ ((tallied _).mpr ⟨io, listed, rfl⟩) found
      (by rw [key, floor_of_hasDouble (short io listed), there])
    rw [operation] at given
    cases entry : found.get io.op with
    | initial => exact absurd entry given
    | text text =>
      obtain ⟨_, _, printed⟩ := texts text entry
      rw [printed]

theorem abs_small (known : Known ios amount dict) (zone : Nat) (op : Op) :
    |((amount zone op : Nat) : Int)| ≤ 2 ^ 64 := by
  rw [Nat.abs_cast]
  exact_mod_cast (known.small zone op).le.trans (by norm_num)

theorem stored_known (reads : ReadsIntegers asFloat) (known : Known ios amount dict)
    (nothing : ∀ zone op, Trace.requestsOf ios zone op = [] → amount zone op = 0)
    {zone : Nat} {found : OpEntries} (there : find dict zone = some found) :
    found.stored asFloat =
      .ok (Binary64.toDouble (amount zone .read), Binary64.toDouble (amount zone .write)) := by
  have zero : Binary64.toDouble ((0 : ℕ) : ℚ) = 0 := by
    rw [Binary64.toDouble_of_small (by norm_num), Nat.cast_zero]
  have each : ∀ op, (found.get op).stored asFloat =
      .ok (Binary64.toDouble (amount zone op)) := by
    intro op
    rw [known.entries zone found there op]
    split
    · next none =>
      rw [nothing zone op (List.isEmpty_iff.mp none), zero]
      rfl
    · exact reads _ _ (pyInt_printInt _) (abs_small known zone op)
  have first : found.read.stored asFloat = _ := each .read
  have second : found.write.stored asFloat = _ := each .write
  rw [OpEntries.stored, first, Runs.ok_bind, second]
  rfl

theorem any_zone_iff {zone : Nat} :
    ios.any (·.zone == zone) = true ↔ ∃ io ∈ ios, (io.zone : Int) = zone := by
  simp

theorem keys_bounded (known : Known ios amount dict) (onDevice : ∀ io ∈ ios, io.zone < nrZones)
    {item : Int × OpEntries} (inside : item ∈ dict) :
    ∃ zone : Nat, item.1 = zone ∧ zone < nrZones ∧ find dict zone = some item.2 := by
  have there := find_of_mem known.distinct inside
  obtain ⟨io, listed, same⟩ := (known.zones item.1).mp (Option.isSome_iff_exists.mpr ⟨_, there⟩)
  exact ⟨io.zone, same.symm, onDevice io listed, same ▸ there⟩

theorem opMap_known (reads : ReadsIntegers asFloat) (known : Known ios amount dict)
    (nothing : ∀ zone op, Trace.requestsOf ios zone op = [] → amount zone op = 0)
    (few : dimension nrZones < 2 ^ 27) (onDevice : ∀ io ∈ ios, io.zone < nrZones) :
    plotZOpMap asFloat nrZones dict =
      .ok fun cell => opCell ios amount nrZones (number cell) := by
  have zones : ∀ item ∈ dict, 0 ≤ item.1 ∧ item.1 < nrZones := by
    intro item inside
    obtain ⟨zone, same, below, _⟩ := keys_bounded known onDevice inside
    omega
  have values : ∀ item ∈ dict, ∃ a, OpEntries.stored asFloat item.2 = .ok a := by
    intro item inside
    obtain ⟨zone, _, _, there⟩ := keys_bounded known onDevice inside
    exact ⟨_, stored_known reads known nothing there⟩
  obtain ⟨grid, drawn, exact_grid⟩ := @heatmap_draws _ _ _ .ok (OpEntries.stored asFloat) nrZones
    few dict known.distinct zones values
  rw [plotZOpMap, drawn]
  refine congrArg Except.ok (funext fun cell => ?_)
  rw [opCell]
  by_cases behind : nrZones ≤ number cell
  · rw [if_pos behind, exact_grid.blanks cell behind]
  rw [if_neg behind]
  by_cases accessed : ios.any (·.zone == number cell) = true
  · rw [if_pos accessed]
    obtain ⟨found, there⟩ :=
      Option.isSome_iff_exists.mp ((known.zones _).mpr (any_zone_iff.mp accessed))
    obtain ⟨a, value, shown⟩ := exact_grid.zones cell found (mem_of_find there)
    have own : found.stored asFloat = .ok a := value
    rw [stored_known reads known nothing there] at own
    rw [shown, ← Except.ok.inj own]
  · rw [if_neg accessed]
    refine exact_grid.others cell (Nat.not_le.mp behind) fun listed => accessed ?_
    obtain ⟨item, inside, same⟩ := List.mem_map.mp listed
    refine any_zone_iff.mpr ((known.zones _).mp (Option.isSome_iff_exists.mpr ⟨item.2, ?_⟩))
    rw [← same]
    exact find_of_mem known.distinct inside

end OpMap

section Averages

variable {args : Args} {ios : List (IoRequest args)} {data counter : OpDict} {nrZones : Nat}

def averageOf (ios : List (IoRequest args)) (zone : Nat) (op : Op) : Option ℚ :=
  if (Trace.requestsOf ios zone op).isEmpty then none
  else some (Binary64.toDouble (totalSectors ios zone op / commands ios zone op))

theorem average_known (sums : Known ios (totalSectors ios) data)
    (counts : Known ios (commands ios) counter) {zone : Nat} {found : OpEntries}
    (there : find data zone = some found) (op : Op) :
    average (found.get op) counter zone op = .ok (averageOf ios zone op) := by
  rw [sums.entries zone found there op, averageOf]
  split
  · rfl
  · next several =>
    obtain ⟨entry, counted⟩ := Option.isSome_iff_exists.mp
      ((counts.zones zone).mpr ((sums.zones zone).mp (Option.isSome_iff_exists.mpr ⟨_, there⟩)))
    have positive : (1 : Int) ≤ commands ios zone op := by
      have some_request : Trace.requestsOf ios zone op ≠ [] :=
        fun nil => several (List.isEmpty_iff.mpr nil)
      exact_mod_cast List.length_pos_iff.mpr some_request
    have own := counts.entries zone entry counted op
    rw [if_neg several] at own
    rw [average, pyInt_printInt, Runs.ok_bind, counted]
    simp only [own, Entry.int, pyInt_printInt, Runs.ok_bind,
      trueDiv_ok (abs_small sums zone op) positive]
    rfl

def shownOr (average : Option ℚ) (cell : Cell ℚ) : Cell ℚ :=
  average.elim cell .shown

theorem placeAverage_number {size : Nat} (few : size < 2 ^ 27) (grid : Grid ℚ size)
    (cell : Fin size × Fin size) (average : Option ℚ) :
    placeAverage grid (number cell) average =
      .ok (Function.update grid cell (shownOr average (grid cell))) := by
  cases average with
  | none => exact congrArg Except.ok (Function.update_eq_self cell grid).symm
  | some quotient =>
    rw [placeAverage, zoneCell_number few]
    rfl

def drawnGrid (ios : List (IoRequest args)) (op : Op) (keys : List Int)
    (grid : Grid ℚ (dimension nrZones)) : Grid ℚ (dimension nrZones) := fun cell =>
  if (number cell : Int) ∈ keys then shownOr (averageOf ios (number cell) op) (grid cell)
  else grid cell

theorem drawnGrid_cons (op : Op) (cell : Fin (dimension nrZones) × Fin (dimension nrZones))
    (keys : List Int) (grid : Grid ℚ (dimension nrZones)) :
    drawnGrid ios op keys (Function.update grid cell
        (shownOr (averageOf ios (number cell) op) (grid cell))) =
      drawnGrid ios op ((number cell : Int) :: keys) grid := by
  funext other
  rw [drawnGrid, drawnGrid]
  by_cases same : other = cell
  · rw [same, Function.update_self, if_pos List.mem_cons_self]
    split
    · rw [shownOr]
      cases averageOf ios (number cell) op <;> rfl
    · rfl
  · have apart : (number other : Int) ≠ number cell := fun equal =>
      same (number_inj (Int.ofNat_inj.mp equal))
    rw [Function.update_of_ne same]
    simp [apart]

theorem fillAverages_known (few : dimension nrZones < 2 ^ 27)
    (sums : Known ios (totalSectors ios) data) (counts : Known ios (commands ios) counter)
    {items : List (Int × OpEntries)} (listed : ∀ item ∈ items, ∃ zone : Nat, item.1 = zone ∧
      zone < nrZones ∧ find data zone = some item.2)
    (grids : Grid ℚ (dimension nrZones) × Grid ℚ (dimension nrZones)) :
    items.foldlM (fillAverages counter) grids =
      .ok (drawnGrid ios .read (items.map Prod.fst) grids.1,
        drawnGrid ios .write (items.map Prod.fst) grids.2) := by
  induction items generalizing grids with
  | nil =>
    have same (op : Op) (grid : Grid ℚ (dimension nrZones)) : drawnGrid ios op [] grid = grid :=
      funext fun cell => if_neg List.not_mem_nil
    rw [List.map_nil, same, same]
    rfl
  | cons item rest ih =>
    rw [List.forall_mem_cons] at listed
    obtain ⟨zone, same, below, there⟩ := listed.1
    obtain ⟨cell, rfl⟩ := exists_number (below.trans_le (nrZones_le nrZones))
    have inside := number_lt cell
    have first : average item.2.read counter (number cell) .read = _ :=
      average_known sums counts there .read
    have second : average item.2.write counter (number cell) .write = _ :=
      average_known sums counts there .write
    have step : fillAverages counter grids item =
        .ok (Function.update grids.1 cell
            (shownOr (averageOf ios (number cell) .read) (grids.1 cell)),
          Function.update grids.2 cell
            (shownOr (averageOf ios (number cell) .write) (grids.2 cell))) := by
      rw [fillAverages, same, if_neg (by omega), first, Runs.ok_bind, placeAverage_number few,
        Runs.ok_bind, second, Runs.ok_bind, placeAverage_number few]
      rfl
    rw [List.foldlM_cons, step, Runs.ok_bind, ih listed.2, List.map_cons, same, drawnGrid_cons,
      drawnGrid_cons]

theorem drawnGrid_empty (onDevice : ∀ io ∈ ios, io.zone < nrZones)
    (sums : Known ios (totalSectors ios) data) (op : Op) :
    drawnGrid ios op (data.map Prod.fst)
        (fun cell => if number cell < nrZones then .unused else .blank) =
      fun cell : Fin (dimension nrZones) × Fin (dimension nrZones) =>
        averageCell ios op nrZones (number cell) := by
  funext cell
  have listed : (number cell : Int) ∈ data.map Prod.fst ↔ ∃ io ∈ ios, io.zone = number cell := by
    constructor
    · intro inside
      obtain ⟨item, member, same⟩ := List.mem_map.mp inside
      obtain ⟨io, given, zone⟩ := (sums.zones item.1).mp
        (Option.isSome_iff_exists.mpr ⟨_, find_of_mem sums.distinct member⟩)
      exact ⟨io, given, Int.ofNat_inj.mp (zone.trans same)⟩
    · rintro ⟨io, given, zone⟩
      obtain ⟨found, there⟩ := Option.isSome_iff_exists.mp
        ((sums.zones (number cell)).mpr ⟨io, given, congrArg Int.ofNat zone⟩)
      exact List.mem_map_of_mem (mem_of_find there)
  have none : commands ios (number cell) op = 0 ↔
      (Trace.requestsOf ios (number cell) op).isEmpty = true := by
    rw [commands, List.length_eq_zero_iff, List.isEmpty_iff]
  rw [drawnGrid, averageCell]
  by_cases behind : nrZones ≤ number cell
  · have absent : ¬ (number cell : Int) ∈ data.map Prod.fst := by
      rw [listed]
      rintro ⟨io, given, zone⟩
      have below := onDevice io given
      omega
    rw [if_neg absent, if_neg (Nat.not_lt.mpr behind), if_pos behind]
  rw [if_pos (Nat.not_le.mp behind), if_neg behind, averageOf]
  by_cases empty : (Trace.requestsOf ios (number cell) op).isEmpty = true
  · rw [if_pos empty, if_pos (none.mpr empty)]
    split <;> rfl
  · obtain ⟨io, inside⟩ := List.exists_mem_of_ne_nil _ fun nil =>
      empty (List.isEmpty_iff.mpr nil)
    obtain ⟨given, zone, _⟩ := mem_requestsOf.mp inside
    rw [if_neg empty, if_neg (mt none.mp empty), if_pos (listed.mpr ⟨io, given, zone⟩)]
    rfl

theorem averages_known (few : dimension nrZones < 2 ^ 27)
    (onDevice : ∀ io ∈ ios, io.zone < nrZones) (sums : Known ios (totalSectors ios) data)
    (counts : Known ios (commands ios) counter) :
    plotAvgIoSizeMaps nrZones data counter =
      .ok (fun cell => averageCell ios .read nrZones (number cell),
        fun cell => averageCell ios .write nrZones (number cell)) := by
  rw [plotAvgIoSizeMaps, emptyGrid_eq, Runs.ok_bind, Runs.ok_bind,
    fillAverages_known few sums counts fun item inside => keys_bounded sums onDevice inside,
    drawnGrid_empty onDevice sums, drawnGrid_empty onDevice sums]

end Averages

section Run

/-- For every run of commands on a device of at most 2^53 zones whose counters stay below 2^63,
whatever order its output is in, each zone's cell has the numbers of its own commands. -/
theorem run_heatmaps (args : Args) (bits : Nat) (power : args.zoneSize.toNat = 2 ^ bits)
    (nrZones : Nat) (few : nrZones ≤ 2 ^ 53) (asFloat : Text → Except PyError ℚ)
    (reads : ReadsIntegers asFloat) (events : List (IoEvent args))
    (onDevice : ∀ io ∈ requests events, io.zone < nrZones)
    (small : ∀ io ∈ requests events, commands (requests events) io.zone io.op < 2 ^ 63 ∧
      totalSectors (requests events) io.zone io.op < 2 ^ 63)
    (other output : List Text) (ignored : ∀ line ∈ other, Ignored line)
    (printed : output.Perm (other ++ printMaps (Trace.trace args (events.map IoEvent.event)))) :
    ∃ data, parse args.zoneSize.toNat output = .ok data ∧
      Heatmaps asFloat nrZones (requests events) data := by
  obtain ⟨data, sectors, counts, parsed, summed, counted, totals, numbers⟩ :=
    parse_output power events ignored printed
  have short : ∀ io ∈ requests events, Binary64.HasDouble io.zone := fun io listed =>
    ⟨io.zone, 0, (onDevice io listed).trans_le few, (Nat.mul_one _).symm⟩
  have rows := dimension_lt few
  have counters (zone : Nat) (op : Op) : commands (requests events) zone op < 2 ^ 63 ∧
      totalSectors (requests events) zone op < 2 ^ 63 := by
    cases own : Trace.requestsOf (requests events) zone op with
    | nil =>
      rw [commands, totalSectors, own]
      exact ⟨Nat.two_pow_pos 63, Nat.two_pow_pos 63⟩
    | cons io rest =>
      have first : io ∈ Trace.requestsOf (requests events) zone op := own ▸ List.mem_cons_self
      obtain ⟨listed, rfl, rfl⟩ := mem_requestsOf.mp first
      exact small io listed
  have sums : Known (requests events) (totalSectors (requests events)) data.zDataMap :=
    known_of_tallied power totals (summed ▸ dictOf_from _ _) short fun zone op =>
      (counters zone op).2
  have ctrs : Known (requests events) (commands (requests events)) data.zRwCtrMap :=
    known_of_tallied power numbers (counted ▸ dictOf_from _ _) short fun zone op =>
      (counters zone op).1
  refine ⟨data, parsed, ?_, ?_, averages_known rows onDevice sums ctrs⟩
  · refine opMap_known reads sums (fun zone op none => ?_) rows onDevice
    rw [totalSectors, none]
    rfl
  · refine opMap_known reads ctrs (fun zone op none => ?_) rows onDevice
    rw [commands, none]
    rfl

theorem intAsFloat_readsIntegers : ReadsIntegers intAsFloat := by
  intro text n read _
  rw [intAsFloat, read]
  rfl

theorem write_and_read_heatmaps : ∃ data, parse (smallDisk 8).zoneSize.toNat
    (printMaps (Trace.trace (smallDisk 8) (writeAndRead.map IoEvent.event))).reverse = .ok data ∧
      Heatmaps intAsFloat 7 (requests writeAndRead) data :=
  run_heatmaps (smallDisk 8) 3 rfl 7 (by decide) intAsFloat intAsFloat_readsIntegers writeAndRead
    (by decide) (by decide) [] _ (List.forall_mem_nil Ignored) (List.reverse_perm _)

end Run

section Resets

open Trace (resetZones)

variable {args : Args} {bits : Nat} {events : List Trace.Event} {data : Data} {order : List Nat}

theorem resetMap_of_order (perm : order.Perm (resetZones args events).dedup)
    (pairs : data.zResetCtrMap = addAll [] (order.map (zonePair (resetZones args events))))
    (short : ∀ zone ∈ resetZones args events, Binary64.HasDouble zone)
    (few : ∀ zone ∈ resetZones args events, (resetZones args events).count zone < 2 ^ 63) :
    data.zResetCtrMap = order.map fun zone : Nat =>
      ((zone : Int), printInt ((resetZones args events).count zone)) := by
  have listed : ∀ zone ∈ order, zone ∈ resetZones args events :=
    fun zone inside => List.mem_dedup.mp (perm.mem_iff.mp inside)
  have own : ∀ zone ∈ order, zonePair (resetZones args events) zone =
      ((zone : Int), printInt ((resetZones args events).count zone)) := by
    intro zone inside
    rw [zonePair, floor_of_hasDouble (short zone (listed zone inside)), signed,
      (signed_eq_iff _).mpr (few zone (listed zone inside))]
  have distinct : ((order.map fun zone : Nat =>
      ((zone : Int), printInt ((resetZones args events).count zone))).map Prod.fst).Nodup := by
    rw [List.map_map]
    exact ((perm.nodup_iff.mpr (List.nodup_dedup _))).map Nat.cast_injective
  rw [pairs, List.map_congr_left own, addAll_distinct (by simpa using distinct), List.nil_append]

def resetCell (zones : List Nat) (nrZones zone : Nat) : Cell ℚ :=
  if nrZones ≤ zone then .blank
  else if zone ∈ zones then .shown (Binary64.toDouble (zones.count zone))
  else .unused

/-- For every run, with any commands among the resets, on a device of at most 2^53 zones, each
zone's cell has the number of its own resets. -/
theorem run_reset_heatmap (args : Args) (bits : Nat) (power : args.zoneSize.toNat = 2 ^ bits)
    (nrZones : Nat) (few : nrZones ≤ 2 ^ 53) (asFloat : Text → Except PyError ℚ)
    (reads : ReadsIntegers asFloat) (events : List Trace.Event)
    (onDevice : ∀ zone ∈ resetZones args events, zone < nrZones)
    (small : ∀ zone ∈ resetZones args events, (resetZones args events).count zone < 2 ^ 63)
    (other output : List Text) (ignored : ∀ line ∈ other, Ignored line)
    (printed : output.Perm (other ++ printMaps (Trace.trace args events))) :
    ∃ data, parse args.zoneSize.toNat output = .ok data ∧
      plotZResetCtrMap asFloat nrZones data.zResetCtrMap =
        .ok fun cell => resetCell (resetZones args events) nrZones (number cell) := by
  obtain ⟨data, order, perm, parsed, pairs, _⟩ := parse_resets power ignored printed
  have short : ∀ zone ∈ resetZones args events, Binary64.HasDouble zone := fun zone listed =>
    ⟨zone, 0, (onDevice zone listed).trans_le few, (Nat.mul_one _).symm⟩
  have map := resetMap_of_order perm pairs short small
  have rows := dimension_lt few
  have listed {zone : Nat} : zone ∈ order ↔ zone ∈ resetZones args events :=
    perm.mem_iff.trans List.mem_dedup
  have value (zone : Nat) (inside : zone ∈ order) :
      asFloat (printInt ((resetZones args events).count zone)) =
        .ok (Binary64.toDouble ((resetZones args events).count zone)) := by
    refine reads _ _ (pyInt_printInt _) ?_
    rw [Nat.abs_cast]
    exact_mod_cast (small zone (listed.mp inside)).le.trans (by norm_num)
  have distinct : (data.zResetCtrMap.map Prod.fst).Nodup := by
    rw [map, List.map_map]
    exact ((perm.nodup_iff.mpr (List.nodup_dedup _))).map Nat.cast_injective
  have zones : ∀ item ∈ data.zResetCtrMap, 0 ≤ item.1 ∧ item.1 < nrZones := by
    rw [map, List.forall_mem_map]
    intro zone given
    have below := onDevice zone (listed.mp given)
    dsimp only
    omega
  have values : ∀ item ∈ data.zResetCtrMap, ∃ a, asFloat item.2 = .ok a := by
    rw [map, List.forall_mem_map]
    exact fun zone given => ⟨_, value zone given⟩
  obtain ⟨grid, drawn, exact_grid⟩ := @heatmap_draws _ _ _ .ok asFloat nrZones rows
    data.zResetCtrMap distinct zones values
  refine ⟨data, parsed, ?_⟩
  rw [plotZResetCtrMap, drawn]
  refine congrArg Except.ok (funext fun cell => ?_)
  rw [resetCell]
  by_cases behind : nrZones ≤ number cell
  · rw [if_pos behind, exact_grid.blanks cell behind]
  rw [if_neg behind]
  by_cases reset : number cell ∈ resetZones args events
  · rw [if_pos reset]
    obtain ⟨a, own, shown⟩ := exact_grid.zones cell
      (printInt ((resetZones args events).count (number cell)))
      (by rw [map]; exact List.mem_map.mpr ⟨_, listed.mpr reset, rfl⟩)
    have same : asFloat (printInt ((resetZones args events).count (number cell))) = .ok a := own
    rw [value _ (listed.mpr reset)] at same
    rw [shown, ← Except.ok.inj same]
  · rw [if_neg reset]
    refine exact_grid.others cell (Nat.not_le.mp behind) fun inside => reset ?_
    rw [map, List.map_map] at inside
    obtain ⟨zone, given, same⟩ := List.mem_map.mp inside
    exact listed.mp (Int.ofNat_inj.mp same ▸ given)

theorem second_zone_heatmap : ∃ data, parse (smallDisk 8).zoneSize.toNat
    (printMaps (Trace.trace (smallDisk 8) secondZoneTwice)).reverse = .ok data ∧
      plotZResetCtrMap intAsFloat 3 data.zResetCtrMap =
        .ok fun cell => resetCell (resetZones (smallDisk 8) secondZoneTwice) 3 (number cell) := by
  have counts : ∀ zone ∈ resetZones (smallDisk 8) secondZoneTwice,
      (resetZones (smallDisk 8) secondZoneTwice).count zone < 2 ^ 63 := by
    intro zone _
    exact (List.count_le_length).trans_lt (by decide)
  exact run_reset_heatmap (smallDisk 8) 3 rfl 3 (by decide) intAsFloat intAsFloat_readsIntegers
    secondZoneTwice (by decide) counts [] _ (List.forall_mem_nil Ignored) (List.reverse_perm _)

end Resets

end ZnsTools.Plot
