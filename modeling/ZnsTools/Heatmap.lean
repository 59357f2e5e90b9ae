import Mathlib.Data.Nat.Sqrt
import Mathlib.Data.Set.List
import Mathlib.Logic.Equiv.Fin.Basic
import ZnsTools.Plot
import ZnsTools.Shared.Updates

set_option autoImplicit false

namespace ZnsTools.Plot

open PyText

-- A cell starts out as -1. Those that no zone has are set to None; seaborn leaves them out.
inductive Cell (α : Type) where
  | unused
  | blank
  | shown (value : α)
  deriving DecidableEq, Repr

abbrev Grid (α : Type) (size : Nat) := Fin size × Fin size → Cell α

-- math.floor(NR_ZONES ** 0.5), the root taken exactly
def wholeRoot (nrZones : Nat) : Nat :=
  Nat.sqrt nrZones

def remainder (nrZones : Nat) : Int :=
  nrZones - (wholeRoot nrZones : Int) ^ 2

def dimension (nrZones : Nat) : Nat :=
  if remainder nrZones = 0 then wholeRoot nrZones else wholeRoot nrZones + 1

-- The row or column that an index stands for; a negative one counts from the end.
def axis (size : Nat) (i : Int) : Except PyError (Fin size) :=
  if inside : 0 ≤ i ∧ i < size then .ok ⟨i.toNat, by omega⟩
  else if behind : -size ≤ i ∧ i < 0 then .ok ⟨(size + i).toNat, by omega⟩
  else .error .indexError

def cellAt (size : Nat) (row column : Int) : Except PyError (Fin size × Fin size) := do
  let row ← axis size row
  let column ← axis size column
  pure (row, column)

variable {α β γ : Type} {size : Nat}

def blankCell (grid : Grid α size) (val : Nat) : Except PyError (Grid α size) := do
  let cell ← cellAt size (-1 - (val / size : Nat)) (-1 - (val % size : Nat))
  pure (Function.update grid cell .blank)

def emptyGrid (α : Type) (nrZones : Nat) : Except PyError (Grid α (dimension nrZones)) :=
  let grid : Grid α (dimension nrZones) := fun _ => .unused
  if remainder nrZones = 0 then .ok grid
  else
    let difference := ((nrZones : Int) - (dimension nrZones : Int) ^ 2).natAbs
    (List.range difference).foldlM blankCell grid

def zoneCell (size : Nat) (key : Int) : Except PyError (Fin size × Fin size) := do
  let quotient ← trueDiv key size
  cellAt size ⌊quotient⌋ (key % size)

-- `assigned` is what is assigned for an entry, and `stored` what the matrix makes of it.
def fillCell (assigned : β → Except PyError γ) (stored : γ → Except PyError α)
    (grid : Grid α size) (item : Int × β) : Except PyError (Grid α size) :=
  if ((size ^ 2 : Nat) : Int) ≤ item.1 then .ok grid
  else do
    let value ← assigned item.2
    let cell ← zoneCell size item.1
    let value ← stored value
    pure (Function.update grid cell (.shown value))

def heatmap (assigned : β → Except PyError γ) (stored : γ → Except PyError α) (nrZones : Nat)
    (data : List (Int × β)) : Except PyError (Grid α (dimension nrZones)) := do
  let grid ← emptyGrid α nrZones
  data.foldlM (fillCell assigned stored) grid

def Entry.stored (asFloat : Text → Except PyError ℚ) : Entry → Except PyError ℚ
  | .initial => .ok 0
  | .text value => asFloat value

def OpEntries.stored (asFloat : Text → Except PyError ℚ) (entries : OpEntries) :
    Except PyError (ℚ × ℚ) := do
  let read ← entries.read.stored asFloat
  let write ← entries.write.stored asFloat
  pure (read, write)

-- The mean latency, converted to μsec: LAT_CONV is 10^3.
def averageLatency (latencies : List (Text × Int)) : Except PyError ℚ := do
  let total := (latencies.map Prod.snd).sum
  let quotient ← trueDiv total latencies.length
  pure (Binary64.toDouble (quotient / 10 ^ 3))

-- `read_data` and `write_data` are blanked and filled together: one matrix of pairs.
def plotZOpMap (asFloat : Text → Except PyError ℚ) (nrZones : Nat) (data : OpDict) :
    Except PyError (Grid (ℚ × ℚ) (dimension nrZones)) :=
  heatmap .ok (OpEntries.stored asFloat) nrZones data

def plotZResetCtrMap (asFloat : Text → Except PyError ℚ) (nrZones : Nat)
    (data : List (Int × Text)) : Except PyError (Grid ℚ (dimension nrZones)) :=
  heatmap .ok asFloat nrZones data

def plotZResetLatMap (nrZones : Nat) (data : List (Int × List (Text × Int))) :
    Except PyError (Grid ℚ (dimension nrZones)) :=
  heatmap averageLatency .ok nrZones data

def number (cell : Fin size × Fin size) : Nat :=
  cell.1 * size + cell.2

structure Drawn (nrZones : Nat) (value : β → Except PyError α) (data : List (Int × β))
    (grid : Grid α (dimension nrZones)) : Prop where
  zones : ∀ cell entry, ((number cell : Int), entry) ∈ data →
    ∃ a, value entry = .ok a ∧ grid cell = .shown a
  others : ∀ cell, number cell < nrZones → (number cell : Int) ∉ data.map Prod.fst →
    grid cell = .unused
  blanks : ∀ cell, nrZones ≤ number cell → grid cell = .blank

def Draws (nrZones : Nat) (value : β → Except PyError α)
    (plot : List (Int × β) → Except PyError (Grid α (dimension nrZones))) : Prop :=
  ∀ data : List (Int × β), (data.map Prod.fst).Nodup →
    (∀ item ∈ data, 0 ≤ item.1 ∧ item.1 < nrZones) → (∀ item ∈ data, ∃ a, value item.2 = .ok a) →
      ∃ grid, plot data = .ok grid ∧ Drawn nrZones value data grid

/-- Every zone has a cell of its own, and the other cells are those that are blanked. -/
structure OwnCells (asFloat : Text → Except PyError ℚ) (nrZones : Nat) : Prop where
  zones : ∀ k < nrZones, ∃ cell, zoneCell (dimension nrZones) k = .ok cell ∧
    cell.1.val = k / dimension nrZones ∧ cell.2.val = k % dimension nrZones
  apart : ∀ j < nrZones, ∀ k < nrZones,
    zoneCell (dimension nrZones) j = zoneCell (dimension nrZones) k → j = k
  blanked : ∀ α : Type, ∃ grid, emptyGrid α nrZones = .ok grid ∧
    ∀ cell, grid cell = .blank ↔ nrZones ≤ cell.1 * dimension nrZones + cell.2
  free : ∀ (α : Type) (grid : Grid α (dimension nrZones)), emptyGrid α nrZones = .ok grid →
    ∀ k < nrZones, ∀ cell, zoneCell (dimension nrZones) k = .ok cell → grid cell ≠ .blank
  opMap : Draws nrZones (OpEntries.stored asFloat) (plotZOpMap asFloat nrZones)
  resetCtrMap : Draws nrZones asFloat (plotZResetCtrMap asFloat nrZones)
  resetLatMap : Draws nrZones averageLatency (plotZResetLatMap nrZones)

section Cells

theorem number_div (cell : Fin size × Fin size) : number cell / size = cell.1 := by
  rw [number, Nat.mul_comm, Nat.mul_add_div (Nat.zero_lt_of_lt cell.2.isLt),
    Nat.div_eq_of_lt cell.2.isLt, Nat.add_zero]

theorem number_mod (cell : Fin size × Fin size) : number cell % size = cell.2 := by
  rw [number, Nat.mul_add_mod', Nat.mod_eq_of_lt cell.2.isLt]

theorem number_eq (cell : Fin size × Fin size) : number cell = (finProdFinEquiv cell : Nat) := by
  rw [number, finProdFinEquiv_apply_val, Nat.add_comm, Nat.mul_comm]

theorem number_inj {a b : Fin size × Fin size} (same : number a = number b) : a = b := by
  rw [number_eq, number_eq] at same
  exact finProdFinEquiv.injective (Fin.ext same)

theorem number_lt (cell : Fin size × Fin size) : number cell < size ^ 2 := by
  rw [number_eq, Nat.pow_two]
  exact Fin.isLt _

theorem exists_number {k : Nat} (inside : k < size ^ 2) :
    ∃ cell : Fin size × Fin size, number cell = k := by
  rw [Nat.pow_two] at inside
  obtain ⟨cell, same⟩ := finProdFinEquiv.surjective (⟨k, inside⟩ : Fin (size * size))
  exact ⟨cell, by rw [number_eq, same]⟩

theorem number_rev (cell : Fin size × Fin size) :
    number (cell.1.rev, cell.2.rev) + number cell + 1 = size ^ 2 := by
  have row := Fin.val_rev cell.1
  have column := Fin.val_rev cell.2
  have rows : cell.1.rev.val + cell.1.val + 1 = size := by omega
  have whole : (cell.1.rev.val + cell.1.val + 1) * size = size * size := by rw [rows]
  rw [number, number, Nat.pow_two, ← whole, Nat.succ_mul, Nat.add_mul]
  dsimp only
  omega

theorem axis_natCast {i : Nat} (inside : i < size) : axis size i = .ok ⟨i, inside⟩ :=
  dif_pos ⟨Int.natCast_nonneg i, Int.ofNat_lt.mpr inside⟩

theorem axis_behind (i : Fin size) : axis size (-1 - (i : Nat)) = .ok i.rev := by
  have below := i.isLt
  rw [axis, dif_neg (by omega), dif_pos (by omega)]
  refine congrArg Except.ok (Fin.ext ?_)
  rw [Fin.val_rev]
  dsimp only
  omega

end Cells

section Dimension

theorem dimension_le_iff (nrZones n : Nat) : dimension nrZones ≤ n ↔ nrZones ≤ n ^ 2 := by
  have low := Nat.sqrt_le nrZones
  have high := Nat.lt_succ_sqrt nrZones
  rw [dimension, remainder, wholeRoot]
  by_cases perfect : (nrZones : Int) - (Nat.sqrt nrZones : Int) ^ 2 = 0
  · rw [if_pos perfect]
    have square : nrZones = Nat.sqrt nrZones ^ 2 := by exact_mod_cast sub_eq_zero.mp perfect
    constructor
    · intro enough
      exact square.trans_le (Nat.pow_le_pow_left enough 2)
    · intro room
      rw [square] at room
      exact (Nat.pow_le_pow_iff_left (by decide)).mp room
  · rw [if_neg perfect]
    have less : Nat.sqrt nrZones ^ 2 < nrZones := by
      rw [Nat.pow_two]
      refine Nat.lt_of_le_of_ne low fun same => perfect ?_
      rw [sub_eq_zero, pow_two]
      exact_mod_cast same.symm
    constructor
    · intro enough
      rw [← Nat.pow_two] at high
      exact high.le.trans (Nat.pow_le_pow_left enough 2)
    · intro room
      exact lt_of_pow_lt_pow_left₀ 2 (Nat.zero_le n) (less.trans_le room)

theorem dimension_lt {nrZones : Nat} (few : nrZones ≤ 2 ^ 53) : dimension nrZones < 2 ^ 27 := by
  have enough : dimension nrZones ≤ 2 ^ 27 - 1 := by
    rw [dimension_le_iff]
    exact few.trans (by norm_num)
  omega

theorem nrZones_le (nrZones : Nat) : nrZones ≤ dimension nrZones ^ 2 :=
  (dimension_le_iff _ _).mp (Nat.le_refl _)

theorem remainder_zero_iff (nrZones : Nat) :
    remainder nrZones = 0 ↔ nrZones = dimension nrZones ^ 2 := by
  have high := Nat.lt_succ_sqrt nrZones
  rw [dimension]
  split
  · next perfect =>
    refine iff_of_true perfect ?_
    rw [remainder, sub_eq_zero] at perfect
    exact_mod_cast perfect
  · next imperfect =>
    refine iff_of_false imperfect ?_
    rw [wholeRoot, Nat.pow_two]
    exact high.ne

end Dimension

section Empty

theorem blankCell_eq (grid : Grid α size) (cell : Fin size × Fin size) :
    blankCell grid (number cell) =
      .ok (Function.update grid (cell.1.rev, cell.2.rev) .blank) := by
  rw [blankCell, cellAt, number_div, number_mod, axis_behind, Runs.ok_bind, axis_behind]
  rfl

theorem blankCells_eq (grid : Grid α size) {count : Nat} (few : count ≤ size ^ 2) :
    (List.range count).foldlM blankCell grid =
      .ok fun cell => if number cell + count < size ^ 2 then grid cell else .blank := by
  induction count with
  | zero => exact congrArg Except.ok (funext fun cell => (if_pos (number_lt cell)).symm)
  | succ count ih =>
    obtain ⟨cell, turn⟩ := exists_number few
    have last := number_rev cell
    rw [List.range_succ, List.foldlM_append, ih (Nat.le_of_succ_le few), Runs.ok_bind,
      List.foldlM_cons, ← turn, blankCell_eq, Runs.ok_bind, List.foldlM_nil]
    refine congrArg Except.ok (funext fun other => ?_)
    by_cases same : other = (cell.1.rev, cell.2.rev)
    · rw [same, Function.update_self, if_neg (by omega)]
    · have apart : number other ≠ number (cell.1.rev, cell.2.rev) := fun equal =>
        same (number_inj equal)
      rw [Function.update_of_ne same]
      exact if_congr (by omega) rfl rfl

theorem emptyGrid_eq (α : Type) (nrZones : Nat) : emptyGrid α nrZones =
    .ok fun cell => if number cell < nrZones then .unused else .blank := by
  have room := nrZones_le nrZones
  rw [emptyGrid]
  by_cases perfect : remainder nrZones = 0
  · have square := (remainder_zero_iff nrZones).mp perfect
    dsimp only
    rw [if_pos perfect]
    refine congrArg Except.ok (funext fun cell => ?_)
    rw [if_pos ((number_lt cell).trans_eq square.symm)]
  · have difference : ((nrZones : Int) - (dimension nrZones : Int) ^ 2).natAbs =
        dimension nrZones ^ 2 - nrZones := by
      have same : ((dimension nrZones : Int) ^ 2) = ((dimension nrZones ^ 2 : Nat) : Int) := by
        push_cast
        rfl
      rw [same]
      omega
    dsimp only
    rw [if_neg perfect, difference, blankCells_eq _ (Nat.sub_le _ _)]
    exact congrArg Except.ok (funext fun cell => if_congr (by omega) rfl rfl)

end Empty

section Place

theorem cellAt_natCast {row column : Nat} (below : row < size) (inside : column < size) :
    cellAt size row column = .ok (⟨row, below⟩, ⟨column, inside⟩) := by
  rw [cellAt, axis_natCast below, Runs.ok_bind, axis_natCast inside]
  rfl

theorem half_lt_iff (some_size : 0 < size) :
    (2 : ℚ) ^ 26 / 2 ^ 53 < 1 / size ↔ size < 2 ^ 27 := by
  have half : (2 : ℚ) ^ 26 / 2 ^ 53 = 1 / 2 ^ 27 := by norm_num
  have positive : (0 : ℚ) < size := by exact_mod_cast some_size
  rw [half, one_div_lt_one_div (by norm_num) positive]
  exact_mod_cast Iff.rfl

theorem floor_number (few : size < 2 ^ 27) (cell : Fin size × Fin size) :
    ⌊Binary64.toDouble ((number cell : Int) / (size : Int) : ℚ)⌋ = cell.1.val := by
  have row := cell.1.isLt
  have column := cell.2.isLt
  have some_size : 0 < size := Nat.zero_lt_of_lt row
  have positive : (0 : ℚ) < size := by exact_mod_cast some_size
  have gap := (half_lt_iff some_size).mpr few
  have last : (cell.2.val : ℚ) / size ≤ 1 - 1 / size := by
    rw [one_sub_div positive.ne', div_le_div_iff_of_pos_right positive, le_sub_iff_add_le]
    exact_mod_cast column
  have quotient : ((number cell : Int) / (size : Int) : ℚ) = cell.1.val + cell.2.val / size := by
    rw [number]
    push_cast
    rw [add_div, mul_div_cancel_right₀ _ positive.ne']
  have nonneg : (0 : ℚ) ≤ cell.2.val / size := by positivity
  refine Binary64.floor_toDouble (e := 26) ?_ ?_ (by omega) (by decide)
  · rw [quotient]
    linarith
  · rw [quotient]
    linarith

/-- Up to 2^27 - 1 rows the quotient is never rounded up to the next row. -/
theorem zoneCell_number (few : size < 2 ^ 27) (cell : Fin size × Fin size) :
    zoneCell size (number cell) = .ok cell := by
  have row := cell.1.isLt
  have some_size : 0 < size := Nat.zero_lt_of_lt row
  have small : |((number cell : Nat) : Int)| ≤ 2 ^ 64 := by
    have square := Nat.pow_le_pow_left few.le 2
    have inside := number_lt cell
    rw [Nat.abs_cast]
    exact_mod_cast inside.le.trans (square.trans (by norm_num))
  have rest : (number cell : Int) % (size : Int) = (cell.2.val : Int) := by
    rw [← number_mod cell]
    push_cast
    rfl
  rw [zoneCell, trueDiv_ok small (by exact_mod_cast some_size), Runs.ok_bind,
    floor_number few cell, rest]
  exact cellAt_natCast row cell.2.isLt

theorem trueDiv_rounded (many : 2 ^ 27 ≤ size) {row : Nat} (low : 2 ^ 26 < row)
    (high : row ≤ 2 ^ 27) : trueDiv (row * size - 1 : Nat) size = .ok (row : ℚ) := by
  have some_size : 0 < size := Nat.lt_of_lt_of_le (by decide) many
  have product : size ≤ row * size := Nat.le_mul_of_pos_left _ (Nat.zero_lt_of_lt low)
  have positive : (0 : ℚ) < size := by exact_mod_cast some_size
  have gap := not_lt.mp (mt (half_lt_iff some_size).mp (Nat.not_lt.mpr many))
  have quotient : (((row * size - 1 : Nat) : Int) : ℚ) / ((size : Int) : ℚ) = row - 1 / size := by
    rw [Int.cast_natCast, Int.cast_natCast, Nat.cast_sub (some_size.trans_le product), Nat.cast_mul,
      Nat.cast_one, sub_div, mul_div_cancel_right₀ _ positive.ne']
  have up : Binary64.toDouble (row - 1 / size : ℚ) = row := by
    have least : (2 : ℚ) ^ 26 + 1 ≤ row := by exact_mod_cast low
    have some_gap : (0 : ℚ) < 1 / size := by positivity
    refine Binary64.toDouble_eq (e := 26) (by decide) ?_ ?_ (by linarith) high
    · linarith
    · linarith
  have top : (row : ℚ) < 2 ^ 1024 := by
    have most : (row : ℚ) ≤ 2 ^ 27 := by exact_mod_cast high
    exact most.trans_lt (pow_lt_pow_right₀ (by norm_num) (by norm_num))
  rw [trueDiv, if_neg (by omega)]
  dsimp only
  rw [quotient, up, abs_of_nonneg (Nat.cast_nonneg row), if_neg (not_le.mpr top)]

/-- From 2^27 rows on the last zone of a row is put into the next one. -/
theorem zoneCell_rounded (many : 2 ^ 27 ≤ size) {row : Nat} (low : 2 ^ 26 < row)
    (high : row ≤ 2 ^ 27) :
    zoneCell size (row * size - 1 : Nat) = cellAt size row (size - 1 : Nat) := by
  have some_size : 0 < size := Nat.lt_of_lt_of_le (by decide) many
  have product : size ≤ row * size := Nat.le_mul_of_pos_left _ (Nat.zero_lt_of_lt low)
  have split : row * size - 1 = (row - 1) * size + (size - 1) := by
    rw [Nat.sub_mul, Nat.one_mul]
    omega
  have rest : ((row * size - 1 : Nat) : Int) % (size : Int) = (size - 1 : Nat) := by
    rw [split, ← Int.natCast_mod, Nat.mul_add_mod', Nat.mod_eq_of_lt (by omega)]
  rw [zoneCell, trueDiv_rounded many low high, Runs.ok_bind, rest, Int.floor_natCast]

end Place

structure Placed (size : Nat) (value : β → Except PyError α) where
  cell : Fin size × Fin size
  entry : β
  shown : α
  computed : value entry = .ok shown

def Placed.item {value : β → Except PyError α} (placed : Placed size value) : Int × β :=
  (number placed.cell, placed.entry)

section Fill

variable {assigned : β → Except PyError γ} {stored : γ → Except PyError α} {nrZones : Nat}

theorem exists_placed (value : β → Except PyError α) {data : List (Int × β)}
    (zones : ∀ item ∈ data, 0 ≤ item.1 ∧ item.1 < nrZones)
    (values : ∀ item ∈ data, ∃ a, value item.2 = .ok a) :
    ∃ placed : List (Placed (dimension nrZones) value), placed.map Placed.item = data := by
  have room := nrZones_le nrZones
  have each : ∀ item ∈ data, item ∈ Set.range (@Placed.item α β (dimension nrZones) value) := by
    rintro ⟨key, entry⟩ inside
    obtain ⟨a, computed⟩ := values _ inside
    obtain ⟨low, high⟩ := zones _ inside
    obtain ⟨k, rfl⟩ := Int.eq_ofNat_of_zero_le low
    obtain ⟨cell, rfl⟩ := exists_number ((Int.ofNat_lt.mp high).trans_le room)
    exact ⟨⟨cell, entry, a, computed⟩, rfl⟩
  rwa [← Set.mem_range, Set.range_list_map]

theorem fillCell_placed (few : size < 2 ^ 27) (grid : Grid α size)
    (placed : Placed size fun entry : β => assigned entry >>= stored) :
    fillCell assigned stored grid placed.item =
      .ok (Function.update grid placed.cell (.shown placed.shown)) := by
  obtain ⟨given, computed, shown⟩ := Runs.bind_ok placed.computed
  have inside := number_lt placed.cell
  rw [fillCell, Placed.item, if_neg (by dsimp only; omega), computed, Runs.ok_bind,
    zoneCell_number few, Runs.ok_bind, shown]
  rfl

theorem heatmap_placed (few : dimension nrZones < 2 ^ 27)
    (placed : List (Placed (dimension nrZones) fun entry : β => assigned entry >>= stored)) :
    heatmap assigned stored nrZones (placed.map Placed.item) =
      .ok (Updates.updates Placed.cell (fun one => .shown one.shown) placed
        fun cell => if number cell < nrZones then .unused else .blank) := by
  rw [heatmap, emptyGrid_eq, Runs.ok_bind, List.foldlM_map]
  exact Updates.foldlM_updates fun grid one _ => fillCell_placed few grid one

theorem cell_not_mem {value : β → Except PyError α} {placed : List (Placed size value)}
    {cell : Fin size × Fin size}
    (absent : (number cell : Int) ∉ (placed.map Placed.item).map Prod.fst) :
    cell ∉ placed.map Placed.cell := by
  intro inside
  obtain ⟨one, listed, rfl⟩ := List.mem_map.mp inside
  rw [List.map_map] at absent
  exact absent (List.mem_map.mpr ⟨one, listed, rfl⟩)

theorem heatmap_draws (few : dimension nrZones < 2 ^ 27) :
    Draws nrZones (fun entry => assigned entry >>= stored) (heatmap assigned stored nrZones) := by
  intro data distinct zones values
  obtain ⟨placed, rfl⟩ := exists_placed (fun entry => assigned entry >>= stored) zones values
  have apart : (placed.map Placed.cell).Nodup := by
    refine List.Nodup.of_map (fun cell => (number cell : Int)) ?_
    rwa [List.map_map] at distinct ⊢
  refine ⟨_, heatmap_placed few placed, ?_, ?_, ?_⟩
  · intro cell entry inside
    obtain ⟨one, listed, same⟩ := List.mem_map.mp inside
    obtain ⟨own, rfl⟩ := Prod.mk.inj same
    obtain rfl : one.cell = cell := number_inj (Int.ofNat_inj.mp own)
    exact ⟨one.shown, one.computed, Updates.updates_hit apart listed⟩
  · intro cell zone absent
    rw [Updates.updates_missed (cell_not_mem absent), if_pos zone]
  · intro cell behind
    have absent : (number cell : Int) ∉ (placed.map Placed.item).map Prod.fst := by
      intro inside
      obtain ⟨item, listed, same⟩ := List.mem_map.mp inside
      obtain ⟨-, below⟩ := zones item listed
      omega
    rw [Updates.updates_missed (cell_not_mem absent), if_neg (Nat.not_lt.mpr behind)]

end Fill

section Own

variable {asFloat : Text → Except PyError ℚ} {nrZones : Nat}

theorem blank_iff (α : Type) (cell : Fin size × Fin size) :
    (if number cell < nrZones then Cell.unused else Cell.blank : Cell α) = .blank ↔
      nrZones ≤ number cell := by
  split
  · next zone => exact iff_of_false (by rintro ⟨⟩) (Nat.not_le.mpr zone)
  · next behind => exact iff_of_true rfl (Nat.not_lt.mp behind)

theorem zoneCell_of_lt (few : dimension nrZones < 2 ^ 27) {k : Nat} (zone : k < nrZones) :
    ∃ cell, zoneCell (dimension nrZones) k = .ok cell ∧ number cell = k := by
  obtain ⟨cell, rfl⟩ := exists_number (zone.trans_le (nrZones_le nrZones))
  exact ⟨cell, zoneCell_number few cell, rfl⟩

theorem OwnCells.few (own : OwnCells asFloat nrZones) : dimension nrZones < 2 ^ 27 := by
  by_contra large
  rw [Nat.not_lt] at large
  have last : (dimension nrZones - 1) ^ 2 < nrZones := by
    rw [← Nat.not_le, ← dimension_le_iff]
    omega
  have square : (2 ^ 27 - 1) * (dimension nrZones - 1) ≤ (dimension nrZones - 1) ^ 2 := by
    rw [Nat.pow_two]
    exact Nat.mul_le_mul_right _ (Nat.sub_le_sub_right large 1)
  have zone : (2 ^ 26 + 1) * dimension nrZones - 1 < nrZones := by omega
  have row : ((2 ^ 26 + 1) * dimension nrZones - 1) / dimension nrZones = 2 ^ 26 :=
    Nat.div_eq_of_lt_le (by omega) (by omega)
  obtain ⟨cell, place, own_row, -⟩ := own.zones _ zone
  rw [zoneCell_rounded large (by decide) (by decide),
    cellAt_natCast (by omega) (Nat.sub_lt (by omega) Nat.one_pos)] at place
  rw [row, ← Except.ok.inj place] at own_row
  dsimp only at own_row
  omega

theorem ownCells_of_few (few : dimension nrZones < 2 ^ 27) : OwnCells asFloat nrZones where
  zones k zone := by
    obtain ⟨cell, place, rfl⟩ := zoneCell_of_lt few zone
    exact ⟨cell, place, (number_div cell).symm, (number_mod cell).symm⟩
  apart j first k second same := by
    obtain ⟨a, place, rfl⟩ := zoneCell_of_lt few first
    obtain ⟨b, other, rfl⟩ := zoneCell_of_lt few second
    rw [place, other] at same
    rw [Except.ok.inj same]
  blanked α := ⟨_, emptyGrid_eq α nrZones, blank_iff α⟩
  free α grid empty k zone cell place := by
    obtain ⟨own, same, rfl⟩ := zoneCell_of_lt few zone
    obtain rfl := Except.ok.inj (same.symm.trans place)
    rw [emptyGrid_eq] at empty
    rw [← Except.ok.inj empty]
    exact mt (blank_iff α own).mp (Nat.not_le.mpr zone)
  opMap := @heatmap_draws _ _ _ .ok (OpEntries.stored asFloat) nrZones few
  resetCtrMap := @heatmap_draws _ _ _ .ok asFloat nrZones few
  resetLatMap := by
    have same : (fun latencies => averageLatency latencies >>= .ok) = averageLatency :=
      funext fun latencies => bind_pure _
    rw [← same]
    exact heatmap_draws few

end Own

/-- Every zone has a cell of its own, and the others are blanked, exactly if the dimension stays
below 2^27: from there on a quotient is rounded to the next row. -/
theorem own_cells_iff (asFloat : Text → Except PyError ℚ) (nrZones : Nat) :
    OwnCells asFloat nrZones ↔ nrZones ≤ (2 ^ 27 - 1) ^ 2 := by
  rw [← dimension_le_iff]
  constructor
  · intro own
    exact Nat.le_pred_of_lt own.few
  · intro small
    exact ownCells_of_few (Nat.lt_of_le_pred (by decide) small)

def intAsFloat (text : Text) : Except PyError ℚ := do
  let i ← pyInt text
  pure (Binary64.toDouble i)

theorem last_zone_outside :
    dimension (2 ^ 54) = 2 ^ 27 ∧
      zoneCell (2 ^ 27) (2 ^ 54 - 1 : Nat) = .error .indexError ∧
      ¬ OwnCells intAsFloat (2 ^ 54) := by
  have least : ¬ dimension (2 ^ 54) ≤ 2 ^ 27 - 1 := by
    rw [dimension_le_iff]
    norm_num
  have enough : dimension (2 ^ 54) ≤ 2 ^ 27 := by
    rw [dimension_le_iff]
    norm_num
  have size : dimension (2 ^ 54) = 2 ^ 27 := by omega
  have outside : zoneCell (2 ^ 27) (2 ^ 27 * 2 ^ 27 - 1 : Nat) = .error .indexError := by
    rw [zoneCell_rounded (Nat.le_refl _) (by decide) (Nat.le_refl _)]
    rfl
  refine ⟨size, outside, fun own => ?_⟩
  exact absurd own.few (by rw [size]; exact Nat.lt_irrefl _)

end ZnsTools.Plot
