import ZnsTools.FileCounters
import ZnsTools.Shared.Tiling

set_option autoImplicit false

namespace ZnsTools

structure Piece where
  pbas : Nat
  pbae : Nat
  size : Nat
  deriving DecidableEq, Repr

def Line.piece? : Line → Option Piece
  | .extent line => some ⟨line.pbas.toNat, line.pbae.toNat, line.size.toNat⟩
  | _ => none

def pieces (lines : List Line) : List Piece :=
  lines.filterMap Line.piece?

-- Inside one segment, or a run of whole segments.
def Piece.Segmented (segmentSize : Nat) (piece : Piece) : Prop :=
  piece.pbae ≤ (piece.pbas / segmentSize + 1) * segmentSize ∨
    segmentSize ∣ piece.pbas ∧ segmentSize ∣ piece.pbae

structure TilesSpan (segmentSize low high : Nat) (shown : List Piece) : Prop where
  tiles : Tiling.Tiles high low (shown.map fun piece => (piece.pbas, piece.pbae))
  sizes : ∀ piece ∈ shown, piece.size = piece.pbae - piece.pbas
  segmented : ∀ piece ∈ shown, piece.Segmented segmentSize

structure TilesExtent (segmentSize : Nat) (e : Extent) (shown : List Piece) : Prop
    extends TilesSpan segmentSize e.phyBlk.toNat e.stop shown where
  some_piece : shown ≠ []

namespace TilesSpan

theorem nil (segmentSize low : Nat) : TilesSpan segmentSize low low [] where
  tiles := rfl
  sizes := by simp
  segmented := by simp

theorem single {segmentSize low high size : Nat} (ordered : low ≤ high) (exact : size = high - low)
    (segmented : (⟨low, high, size⟩ : Piece).Segmented segmentSize) :
    TilesSpan segmentSize low high [⟨low, high, size⟩] where
  tiles := Tiling.tiles_singleton ordered
  sizes := by simpa using exact
  segmented := by simpa using segmented

theorem append {segmentSize low high : Nat} {front back : List Piece} (middle : Nat)
    (first : TilesSpan segmentSize low middle front)
    (second : TilesSpan segmentSize middle high back) :
    TilesSpan segmentSize low high (front ++ back) where
  tiles := by
    rw [List.map_append]
    exact Tiling.tiles_append first.tiles second.tiles
  sizes := List.forall_mem_append.mpr ⟨first.sizes, second.sizes⟩
  segmented := List.forall_mem_append.mpr ⟨first.segmented, second.segmented⟩

end TilesSpan

@[simp]
theorem pieces_append (front back : List Line) :
    pieces (front ++ back) = pieces front ++ pieces back :=
  List.filterMap_append

section Shown

variable {cfg : Config} {nrFiles : UInt32} {counters : FileCounterMap} {segI : SegmentInfo}
  {e : Extent} {state : ReportState}

theorem rep_shown (shown : cfg.showOnlyStats = false) (lines : List Line) : rep cfg lines = lines := by
  simp [rep, shown]

@[simp]
theorem pieces_showSegmentInfo (segmentStart curSegment : UInt64) :
    pieces (showSegmentInfo cfg segI segmentStart curSegment) = [] := by
  rw [showSegmentInfo]
  split
  · rfl
  · rw [rep]
    split <;> rfl

theorem pieces_extentLine (pbas pbae size : UInt64) :
    pieces [extentLine counters e pbas pbae size] = [⟨pbas.toNat, pbae.toNat, size.toNat⟩] :=
  rfl

theorem showWholeExtent_pieces (shown : cfg.showOnlyStats = false) (addressed : e.stop < 2 ^ 56) :
    pieces (showWholeExtent cfg nrFiles counters segI e state).2 =
      [⟨e.phyBlk.toNat, e.stop, e.len.toNat⟩] := by
  simp only [showWholeExtent, pieces_append, pieces_showSegmentInfo, rep_shown shown,
    pieces_extentLine, List.nil_append, Extent.stop_toNat addressed]

theorem showBeginning_pieces (supported : cfg.toGeometry.Supported)
    (shown : cfg.showOnlyStats = false) (addressed : e.stop < 2 ^ 56) :
    pieces (showBeginning cfg nrFiles counters segI e state).2 =
      if e.phyBlk.toNat = e.first cfg.toGeometry * cfg.segmentSize then []
      else [⟨e.phyBlk.toNat, (e.first cfg.toGeometry + 1) * cfg.segmentSize,
        (e.first cfg.toGeometry + 1) * cfg.segmentSize - e.phyBlk.toNat⟩] := by
  have finish := Extent.firstEnd_toNat supported addressed
  have inside := Extent.lt_first_succ_mul cfg.toGeometry e
  have size : (cfg.segmentStart e.phyBlk + cfg.f2fsSegmentSectors - e.phyBlk).toNat =
      (e.first cfg.toGeometry + 1) * cfg.segmentSize - e.phyBlk.toNat := by
    rw [UInt64.toNat_sub_of_le _ _ (by rw [UInt64.le_iff_toNat_le, finish]; omega), finish]
  rw [showBeginning_eq supported]
  split
  · rfl
  · simp only [showBeginningSegment, pieces_append, pieces_showSegmentInfo, rep_shown shown,
      pieces_extentLine, List.nil_append, finish, size]

theorem showConsecutiveSegments_pieces (supported : cfg.toGeometry.Supported)
    (shown : cfg.showOnlyStats = false) (addressed : e.stop < 2 ^ 56) (segmentStart : UInt64)
    (before : segmentStart.toNat ≤ e.last cfg.toGeometry) :
    pieces (showConsecutiveSegments cfg nrFiles counters segI e segmentStart state).2 =
      if e.last cfg.toGeometry = segmentStart.toNat + 1 then
        [⟨segmentStart.toNat, e.last cfg.toGeometry * cfg.segmentSize, cfg.segmentSize⟩]
      else
        [⟨segmentStart.toNat * cfg.segmentSize, e.last cfg.toGeometry * cfg.segmentSize,
          (e.last cfg.toGeometry - segmentStart.toNat) * cfg.segmentSize⟩] := by
  have finish := Extent.endSegment_toNat supported addressed
  have bound := Extent.last_mul_le cfg.toGeometry e
  have fits : ∀ n, n ≤ e.last cfg.toGeometry → n * cfg.segmentSize < 2 ^ 64 := by
    intro n small
    have := Nat.mul_le_mul_right cfg.segmentSize small
    omega
  have number : (e.endSegment cfg.toGeometry - segmentStart).toNat =
      e.last cfg.toGeometry - segmentStart.toNat := by
    rw [UInt64.toNat_sub_of_le _ _ (by rw [UInt64.le_iff_toNat_le, finish]; exact before), finish]
  have one : e.endSegment cfg.toGeometry - segmentStart = 1 ↔
      e.last cfg.toGeometry = segmentStart.toNat + 1 := by
    rw [← UInt64.toNat_inj, number, UInt64.toNat_one]
    omega
  have size : ((e.endSegment cfg.toGeometry - segmentStart) * cfg.f2fsSegmentSectors).toNat =
      (e.last cfg.toGeometry - segmentStart.toNat) * cfg.segmentSize := by
    rw [UInt64.toNat_mul, number, supported.sectors, Nat.mod_eq_of_lt (fits _ (Nat.sub_le _ _))]
  have pbas := Geometry.segmentLba_toNat supported segmentStart (fits _ before)
  have pbae := Extent.endLba_toNat supported addressed
  by_cases single : e.last cfg.toGeometry = segmentStart.toNat + 1
  · simp only [showConsecutiveSegments, one.mpr single, if_pos single, if_true, pieces_append,
      pieces_showSegmentInfo, rep_shown shown, pieces_extentLine, List.nil_append, pbae,
      supported.sectors]
  · have several : ¬ e.endSegment cfg.toGeometry - segmentStart = 1 := fun h => single (one.mp h)
    simp only [showConsecutiveSegments, if_neg several, if_neg single, pieces_append,
      pieces_showSegmentInfo, rep_shown shown, List.append_nil]
    simp only [pieces, List.filterMap_cons, Line.piece?, List.filterMap_nil, extentLine, pbas, pbae,
      size, List.nil_append]

theorem showMiddle_pieces (supported : cfg.toGeometry.Supported)
    (shown : cfg.showOnlyStats = false) (addressed : e.stop < 2 ^ 56) :
    pieces (showMiddle cfg nrFiles counters segI e state).2 =
      if e.last cfg.toGeometry ≤ e.first cfg.toGeometry + 1 then []
      else if e.phyBlk.toNat = e.first cfg.toGeometry * cfg.segmentSize then
        [⟨e.first cfg.toGeometry * cfg.segmentSize, e.last cfg.toGeometry * cfg.segmentSize,
          (e.last cfg.toGeometry - e.first cfg.toGeometry) * cfg.segmentSize⟩]
      else if e.last cfg.toGeometry = e.first cfg.toGeometry + 2 then
        [⟨e.first cfg.toGeometry + 1, e.last cfg.toGeometry * cfg.segmentSize, cfg.segmentSize⟩]
      else
        [⟨(e.first cfg.toGeometry + 1) * cfg.segmentSize,
          e.last cfg.toGeometry * cfg.segmentSize,
          (e.last cfg.toGeometry - (e.first cfg.toGeometry + 1)) * cfg.segmentSize⟩] := by
  have middle := Extent.middleSegment_toNat supported addressed
  rw [showMiddle_eq supported addressed]
  by_cases near : e.last cfg.toGeometry ≤ e.first cfg.toGeometry + 1
  · rw [if_pos near, if_pos near]
    rfl
  · rw [if_neg near, if_neg near, showConsecutiveSegments_pieces supported shown addressed _ (by
      rw [middle]; split <;> omega), middle]
    by_cases aligned : e.phyBlk.toNat = e.first cfg.toGeometry * cfg.segmentSize
    · rw [if_pos aligned, if_pos aligned, if_neg (by omega)]
    · rw [if_neg aligned, if_neg aligned]

theorem showRemainder_pieces (supported : cfg.toGeometry.Supported)
    (shown : cfg.showOnlyStats = false) (addressed : e.stop < 2 ^ 56) :
    pieces (showRemainder cfg nrFiles counters segI e state).2 =
      if e.last cfg.toGeometry * cfg.segmentSize = e.stop then []
      else [⟨e.last cfg.toGeometry * cfg.segmentSize, e.stop,
        e.stop - e.last cfg.toGeometry * cfg.segmentSize⟩] := by
  have pbas := Extent.endLba_toNat supported addressed
  have below := Extent.last_mul_le cfg.toGeometry e
  have stop := Extent.stop_toNat addressed
  have remainder : (e.phyBlk + e.len - cfg.segmentLba (e.endSegment cfg.toGeometry)).toNat =
      e.stop - e.last cfg.toGeometry * cfg.segmentSize := by
    rw [UInt64.toNat_sub_of_le _ _ (by rw [UInt64.le_iff_toNat_le, pbas, stop]; exact below),
      stop, pbas]
  have pbae : (cfg.segmentLba (e.endSegment cfg.toGeometry) +
      (e.phyBlk + e.len - cfg.segmentLba (e.endSegment cfg.toGeometry))).toNat = e.stop := by
    rw [UInt64.toNat_add, pbas, remainder, Nat.add_sub_cancel' below, Nat.mod_eq_of_lt (by omega)]
  rw [showRemainder_eq supported addressed]
  split
  · rfl
  · simp only [showRemainderSegment, pieces_append, pieces_showSegmentInfo, rep_shown shown,
      pieces_extentLine, List.nil_append, pbas, pbae, remainder]

def printedPieces (g : Geometry) (e : Extent) : List Piece :=
  let first := e.first g
  let last := e.last g
  let size := g.segmentSize
  if first = last ∨ e.stop = (first + 1) * size then [⟨e.phyBlk.toNat, e.stop, e.len.toNat⟩]
  else
    (if e.phyBlk.toNat = first * size then []
      else [⟨e.phyBlk.toNat, (first + 1) * size, (first + 1) * size - e.phyBlk.toNat⟩]) ++
    (if last ≤ first + 1 then []
      else if e.phyBlk.toNat = first * size then
        [⟨first * size, last * size, (last - first) * size⟩]
      else if last = first + 2 then [⟨first + 1, last * size, size⟩]
      else [⟨(first + 1) * size, last * size, (last - (first + 1)) * size⟩]) ++
    (if last * size = e.stop then [] else [⟨last * size, e.stop, e.stop - last * size⟩])

theorem showExtent_pieces (supported : cfg.toGeometry.Supported)
    (shown : cfg.showOnlyStats = false) (addressed : e.stop < 2 ^ 56) :
    pieces (showExtent cfg nrFiles counters segI e state).2 = printedPieces cfg.toGeometry e := by
  rw [showExtent_eq supported addressed, printedPieces]
  by_cases one : e.first cfg.toGeometry = e.last cfg.toGeometry ∨
      e.stop = (e.first cfg.toGeometry + 1) * cfg.segmentSize
  · rw [if_pos one, if_pos one, showWholeExtent_pieces shown addressed]
  · rw [if_neg one, if_neg one]
    simp only [pieces_append, showBeginning_pieces supported shown addressed,
      showMiddle_pieces supported shown addressed, showRemainder_pieces supported shown addressed]

end Shown

-- The extents that the report does not lose a part of: neither starts one at a segment's
-- beginning and ends inside the next segment, nor starts one inside a segment and ends in the
-- segment after the next one.
def SplitsExactly (segmentSize : Nat) (e : Extent) : Prop :=
  ¬ (e.phyBlk.toNat % segmentSize = 0 ∧
      e.stop / segmentSize = e.phyBlk.toNat / segmentSize + 1 ∧ e.stop % segmentSize ≠ 0) ∧
    ¬ (e.phyBlk.toNat % segmentSize ≠ 0 ∧
      e.stop / segmentSize = e.phyBlk.toNat / segmentSize + 2)

instance (segmentSize : Nat) (e : Extent) : Decidable (SplitsExactly segmentSize e) :=
  inferInstanceAs (Decidable (¬ _ ∧ ¬ _))

theorem printedPieces_lose {g : Geometry} (supported : g.Supported) (e : Extent)
    (tiled : TilesExtent g.segmentSize e (printedPieces g e)) :
    SplitsExactly g.segmentSize e := by
  have tiles := tiled.tiles
  rw [SplitsExactly]
  rcases supported.size with size | size <;>
    simp only [printedPieces, Extent.first, Extent.last, size] at tiles ⊢
  all_goals
    refine ⟨?_, ?_⟩
    · rintro ⟨aligned, next, rest⟩
      rw [if_neg (by omega), if_pos (by omega), if_pos (by omega), if_neg (by omega)] at tiles
      have start := tiles.1
      dsimp only at start
      omega
    · rintro ⟨inside, after⟩
      rw [if_neg (by omega), if_neg (by omega), if_neg (by omega), if_neg (by omega),
        if_pos (by omega)] at tiles
      have start := tiles.2.2.1
      dsimp only at start
      omega

theorem printedBeginning_tiles (g : Geometry) (e : Extent) :
    TilesSpan g.segmentSize e.phyBlk.toNat
      (if e.phyBlk.toNat = e.first g * g.segmentSize then e.first g * g.segmentSize
        else (e.first g + 1) * g.segmentSize)
      (if e.phyBlk.toNat = e.first g * g.segmentSize then []
        else [⟨e.phyBlk.toNat, (e.first g + 1) * g.segmentSize,
          (e.first g + 1) * g.segmentSize - e.phyBlk.toNat⟩]) := by
  by_cases aligned : e.phyBlk.toNat = e.first g * g.segmentSize
  · rw [if_pos aligned, if_pos aligned, aligned]
    exact .nil _ _
  · have inside := Extent.lt_first_succ_mul g e
    rw [if_neg aligned, if_neg aligned]
    exact .single (by omega) rfl (.inl (Nat.le_refl _))

theorem printedRemainder_tiles (g : Geometry) (e : Extent) :
    TilesSpan g.segmentSize (e.last g * g.segmentSize) e.stop
      (if e.last g * g.segmentSize = e.stop then []
        else [⟨e.last g * g.segmentSize, e.stop, e.stop - e.last g * g.segmentSize⟩]) := by
  by_cases filled : e.last g * g.segmentSize = e.stop
  · rw [if_pos filled, filled]
    exact .nil _ _
  · rw [if_neg filled]
    refine .single (Extent.last_mul_le g e) rfl (.inl ?_)
    change e.stop ≤ (e.last g * g.segmentSize / g.segmentSize + 1) * g.segmentSize
    rw [Nat.mul_div_cancel _ (show 0 < g.segmentSize from Nat.two_pow_pos _)]
    exact Nat.le_of_lt (Extent.lt_last_succ_mul g e)

-- With two segments the first one has to be begun inside, so that its end is the last one's start.
theorem printedMiddle_tiles {g : Geometry} (supported : g.Supported) (e : Extent)
    (several : ¬ (e.first g = e.last g ∨ e.stop = (e.first g + 1) * g.segmentSize))
    (exact : SplitsExactly g.segmentSize e) :
    TilesSpan g.segmentSize
      (if e.phyBlk.toNat = e.first g * g.segmentSize then e.first g * g.segmentSize
        else (e.first g + 1) * g.segmentSize)
      (e.last g * g.segmentSize)
      (if e.last g ≤ e.first g + 1 then []
        else if e.phyBlk.toNat = e.first g * g.segmentSize then
          [⟨e.first g * g.segmentSize, e.last g * g.segmentSize,
            (e.last g - e.first g) * g.segmentSize⟩]
        else if e.last g = e.first g + 2 then
          [⟨e.first g + 1, e.last g * g.segmentSize, g.segmentSize⟩]
        else [⟨(e.first g + 1) * g.segmentSize, e.last g * g.segmentSize,
          (e.last g - (e.first g + 1)) * g.segmentSize⟩]) := by
  have first : e.first g = e.phyBlk.toNat / g.segmentSize := rfl
  have last : e.last g = e.stop / g.segmentSize := rfl
  have ordered := Extent.first_le_last g e
  have run : ∀ n, n ≤ e.last g → TilesSpan g.segmentSize (n * g.segmentSize)
      (e.last g * g.segmentSize)
      [⟨n * g.segmentSize, e.last g * g.segmentSize, (e.last g - n) * g.segmentSize⟩] := by
    intro n below
    exact .single (Nat.mul_le_mul_right _ below) (Nat.sub_mul _ _ _)
      (.inr ⟨Nat.dvd_mul_left _ _, Nat.dvd_mul_left _ _⟩)
  obtain ⟨near, far⟩ := exact
  by_cases aligned : e.phyBlk.toNat = e.first g * g.segmentSize
  · have apart : ¬ e.last g ≤ e.first g + 1 := by
      rcases supported.size with size | size <;>
        simp only [size] at first last near several aligned <;> omega
    rw [if_pos aligned, if_neg apart, if_pos aligned]
    exact run _ ordered
  · have later : e.last g ≠ e.first g + 2 := by
      rcases supported.size with size | size <;>
        simp only [size] at first last far several aligned <;> omega
    rw [if_neg aligned, if_neg aligned, if_neg later]
    by_cases close : e.last g ≤ e.first g + 1
    · have next : e.last g = e.first g + 1 := by omega
      rw [if_pos close, next]
      exact .nil _ _
    · rw [if_neg close]
      exact run _ (by omega)

theorem printedPieces_tile {g : Geometry} (supported : g.Supported) (e : Extent)
    (exact : SplitsExactly g.segmentSize e) :
    TilesExtent g.segmentSize e (printedPieces g e) := by
  have stop : e.stop = e.phyBlk.toNat + e.len.toNat := rfl
  rw [printedPieces]
  by_cases one : e.first g = e.last g ∨ e.stop = (e.first g + 1) * g.segmentSize
  · have inside := Extent.lt_last_succ_mul g e
    rw [if_pos one]
    refine ⟨.single (by omega) (by omega) (.inl ?_), by simp⟩
    change e.stop ≤ (e.first g + 1) * g.segmentSize
    rcases one with same | full
    · rw [same]
      omega
    · omega
  · rw [if_neg one]
    have span := ((printedBeginning_tiles g e).append _
      (printedMiddle_tiles supported e one exact)).append _ (printedRemainder_tiles g e)
    refine ⟨span, fun none => ?_⟩
    have whole := span.tiles
    rw [none] at whole
    have empty : e.phyBlk.toNat = e.stop := whole
    exact one (.inl (by rw [Extent.first, Extent.last, empty]))

theorem printedPieces_tile_iff {g : Geometry} (supported : g.Supported) (e : Extent) :
    TilesExtent g.segmentSize e (printedPieces g e) ↔ SplitsExactly g.segmentSize e :=
  ⟨printedPieces_lose supported e, printedPieces_tile supported e⟩

theorem pieces_heading {heading : List Line}
    (lines : ∀ line ∈ heading, line = .formatter ∨ ∃ zone, line = .zone zone) :
    pieces heading = [] := by
  refine List.filterMap_eq_nil_iff.mpr fun line inside => ?_
  rcases lines line inside with rfl | ⟨zone, rfl⟩ <;> rfl

/-- Over the full range the report shows every extent, and the lines it prints for an extent tile
the extent exactly when they are those of an extent that it splits without a loss. -/
theorem report_tiles_iff (cfg : Config) (dev : Device) (ctrl : Control) (counters : FileCounterMap)
    (ready : Reportable cfg dev ctrl counters) (full : FullRange cfg ctrl.zonemap)
    (shown : cfg.showOnlyStats = false) :
    ∃ final passes, showSegments cfg dev List.length ctrl = some (.ok (final, passes)) ∧
      passes.map CursorLoop.Pass.item = ctrl.zonemap.extents ∧
      ∀ pass ∈ passes, (TilesExtent cfg.segmentSize pass.item (pieces pass.out) ↔
        SplitsExactly cfg.segmentSize pass.item) := by
  obtain ⟨final, passes, result, -, visited, each⟩ := showSegments_exhausts ready full
    (fun _ _ => True) (fun _ pass => TilesExtent cfg.segmentSize pass.item (pieces pass.out) ↔
      SplitsExactly cfg.segmentSize pass.item) (by
        intro done e rest split state flow _ turn
        have inside : e ∈ ctrl.zonemap.extents := by simp [split]
        obtain ⟨heading, segI, current, counted, _, lines, -, -, -, rfl, rfl⟩ := showExtentTurn_ok
          (full.before ready.supported inside) (by rw [full.startLba]; exact UInt64.zero_le) turn
        refine ⟨_, _, rfl, trivial, ?_⟩
        rw [pieces_append, pieces_heading lines, List.nil_append,
          showExtent_pieces ready.supported shown (ready.addressed e inside)]
        exact printedPieces_tile_iff ready.supported e) trivial
  refine ⟨final, passes, result, visited, fun pass inside => ?_⟩
  obtain ⟨index, found⟩ := List.getElem?_of_mem inside
  exact each index pass found

-- From the beginning of segment 1 to eight sectors into segment 2: only the eight are printed.
theorem report_loses_first_segment :
    (oneFile 4096 4104).zonemap.extents.map (fun e => (e.phyBlk, e.len)) = [(4096, 4104)] ∧
    ∃ final passes, showSegments warmConfig (fullZones warmConfig) List.length (oneFile 4096 4104) =
        some (.ok (final, passes)) ∧
      ∃ pass ∈ passes, ¬ TilesExtent warmConfig.segmentSize pass.item (pieces pass.out) := by
  have computed : (showSegments warmConfig (fullZones warmConfig) List.length
      (oneFile 4096 4104)).map (·.map fun run => run.2.map fun pass =>
        (pass.item.phyBlk, pieces pass.out)) = some (.ok [(4096, [⟨8192, 8200, 8⟩])]) := by
    decide
  obtain ⟨⟨final, passes⟩, result, shown⟩ := Runs.some_map_ok computed
  obtain ⟨pass, rfl, same⟩ := List.map_eq_singleton_iff.mp shown
  refine ⟨by decide, final, [pass], result, pass, by simp, fun tiled => ?_⟩
  have start := tiled.tiles
  obtain ⟨begins, printed⟩ := Prod.mk.inj same
  rw [printed, begins] at start
  exact absurd start.1 (by decide)

theorem report_tiles_whole_segments :
    ∃ final passes, showSegments warmConfig (fullZones warmConfig) List.length (oneFile 4096 8200) =
        some (.ok (final, passes)) ∧
      ∀ pass ∈ passes, TilesExtent warmConfig.segmentSize pass.item (pieces pass.out) := by
  obtain ⟨final, passes, result, visited, each⟩ := report_tiles_iff warmConfig
    (fullZones warmConfig) (oneFile 4096 8200) oneFileCounters
    (oneFile_reportable 4096 8200 (by decide)) (oneFile_fullRange 4096 8200 (by decide)) rfl
  have exact : ∀ e ∈ (oneFile 4096 8200).zonemap.extents,
      SplitsExactly warmConfig.segmentSize e := by decide
  refine ⟨final, passes, result, fun pass inside => (each pass inside).mpr (exact _ ?_)⟩
  rw [← visited]
  exact List.mem_map_of_mem inside

end ZnsTools
