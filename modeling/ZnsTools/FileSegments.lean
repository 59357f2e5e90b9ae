import Mathlib.Data.Finset.Card
import Mathlib.Order.Interval.Finset.Nat
import ZnsTools.FileEntries
import ZnsTools.SegmentTable

set_option autoImplicit false

namespace ZnsTools

def touched (segmentSize : Nat) (e : Extent) : Finset Nat :=
  if e.len = 0 then ∅
  else Finset.Icc (e.phyBlk.toNat / segmentSize) ((e.stop - 1) / segmentSize)

def occupied (segmentSize : Nat) : List Extent → Finset Nat
  | [] => ∅
  | e :: rest => touched segmentSize e ∪ occupied segmentSize rest

def heats : List SegmentType :=
  [.cursegColdData, .cursegWarmData, .cursegHotData]

def FileCounter.heat (entry : FileCounter) : SegmentType → UInt32
  | .cursegColdData => entry.coldCtr
  | .cursegWarmData => entry.warmCtr
  | .cursegHotData => entry.hotCtr
  | _ => 0

structure FileCounter.Exact (cfg : Config) (extents : List Extent) (entry : FileCounter) : Prop where
  segments : entry.segmentCtr.toNat = (occupied cfg.segmentSize extents).card
  typed : ∀ type ∈ heats, (entry.heat type).toNat =
    ((occupied cfg.segmentSize extents).filter fun segment =>
      cfg.segmentType segment = some type).card

-- `last_segment_id` after the extents of a file were shown: the first segment of the latest one.
def lastRecorded (segmentSize : Nat) (extents : List Extent) : Nat :=
  (extents.getLast?.map fun e => e.phyBlk.toNat / segmentSize).getD 0

/-- What an extent of a file has to satisfy, given those shown before, to be counted exactly. -/
def CountedExactly (cfg : Config) (before : List Extent) (e : Extent) : Prop :=
  let first := e.phyBlk.toNat / cfg.segmentSize
  let own := touched cfg.segmentSize e
  let old := occupied cfg.segmentSize before
  (first = lastRecorded cfg.segmentSize before ∧ own ⊆ old) ∨
    (first ≠ lastRecorded cfg.segmentSize before ∧ Disjoint own old ∧ e.len ≠ 0 ∧
      e.stop % cfg.segmentSize ≠ 0 ∧
      ∀ segment ∈ own, ∀ type ∈ heats,
        (cfg.segmentType segment = some type ↔ cfg.segmentType first = some type))

instance (cfg : Config) (before : List Extent) (e : Extent) :
    Decidable (CountedExactly cfg before e) :=
  inferInstanceAs (Decidable ((_ ∧ _) ∨ (_ ∧ _ ∧ _ ∧ _ ∧ _)))

-- The part of a pass that counts segments, without the zones.
def FileCounter.addExtent (cfg : Config) (entry : FileCounter) (e : Extent) : FileCounter :=
  entry.addSegments (e.endSegment cfg.toGeometry - cfg.segmentId e.phyBlk + 1).toUInt32
    (cfg.segmentId e.phyBlk).toUInt32 ((cfg.segmentType (e.first cfg.toGeometry)).getD .noCheckType)

theorem mem_touched {segmentSize : Nat} (positive : 0 < segmentSize) (e : Extent) (segment : Nat) :
    segment ∈ touched segmentSize e ↔
      ∃ sector, e.phyBlk.toNat ≤ sector ∧ sector < e.stop ∧ sector / segmentSize = segment := by
  have stop : e.stop = e.phyBlk.toNat + e.len.toNat := rfl
  by_cases empty : e.len = 0
  · simp only [touched, if_pos empty, Finset.notMem_empty, false_iff, not_exists]
    rintro sector ⟨after, before, -⟩
    simp only [stop, empty, UInt64.toNat_zero] at before
    omega
  · have some : e.len.toNat ≠ 0 := fun none => empty (UInt64.toNat_inj.mp none)
    simp only [touched, if_neg empty, Finset.mem_Icc]
    constructor
    · intro ⟨after, before⟩
      have low := Nat.mul_le_of_le_div _ _ _ before
      have high : e.phyBlk.toNat < (segment + 1) * segmentSize :=
        Nat.lt_mul_of_div_lt (Nat.lt_succ_of_le after) positive
      refine ⟨max e.phyBlk.toNat (segment * segmentSize), Nat.le_max_left _ _, by omega, ?_⟩
      refine Nat.div_eq_of_lt_le (Nat.le_max_right _ _) (Nat.max_lt.mpr ⟨high, ?_⟩)
      exact Nat.mul_lt_mul_of_pos_right (Nat.lt_succ_self _) positive
    · rintro ⟨sector, after, before, rfl⟩
      exact ⟨Nat.div_le_div_right after, Nat.div_le_div_right (by omega)⟩

theorem occupied_append (segmentSize : Nat) (front back : List Extent) :
    occupied segmentSize (front ++ back) = occupied segmentSize front ∪ occupied segmentSize back := by
  induction front with
  | nil => simp [occupied]
  | cons e rest ih => simp [occupied, ih, Finset.union_assoc]

theorem occupied_concat (segmentSize : Nat) (before : List Extent) (e : Extent) :
    occupied segmentSize (before ++ [e]) = occupied segmentSize before ∪ touched segmentSize e := by
  simp [occupied_append, occupied]

theorem lastRecorded_concat (segmentSize : Nat) (before : List Extent) (e : Extent) :
    lastRecorded segmentSize (before ++ [e]) = e.phyBlk.toNat / segmentSize := by
  simp [lastRecorded]

theorem card_union_filter (old own : Finset Nat) (p : Nat → Prop) [DecidablePred p] :
    ((old ∪ own).filter p).card = (old.filter p).card + ((own \ old).filter p).card := by
  rw [← Finset.union_sdiff_self_eq_union, Finset.filter_union,
    Finset.card_union_of_disjoint]
  exact Finset.disjoint_filter_filter Finset.disjoint_sdiff

theorem card_union (old own : Finset Nat) : (old ∪ own).card = old.card + (own \ old).card := by
  rw [← Finset.union_sdiff_self_eq_union, Finset.card_union_of_disjoint Finset.disjoint_sdiff]

-- The number of segments that is added for an extent is that of those it touches, unless the
-- extent is empty or ends on a boundary.
theorem touched_card {g : Geometry} (supported : g.Supported) (e : Extent) :
    (touched g.segmentSize e).card ≤ e.last g - e.first g + 1 ∧
      ((touched g.segmentSize e).card = e.last g - e.first g + 1 ↔
        e.len ≠ 0 ∧ e.stop % g.segmentSize ≠ 0) := by
  have stop : e.stop = e.phyBlk.toNat + e.len.toNat := rfl
  have first : e.first g = e.phyBlk.toNat / g.segmentSize := rfl
  have last : e.last g = e.stop / g.segmentSize := rfl
  by_cases empty : e.len = 0
  · simp [touched, empty]
  · have some : e.len.toNat ≠ 0 := fun none => empty (UInt64.toNat_inj.mp none)
    have card : (touched g.segmentSize e).card =
        (e.stop - 1) / g.segmentSize + 1 - e.phyBlk.toNat / g.segmentSize := by
      rw [touched, if_neg empty, Nat.card_Icc]
    rw [card]
    simp only [ne_eq, empty, not_false_eq_true, true_and]
    rcases supported.size with size | size <;> rw [size] at first last ⊢ <;> omega

theorem card_sdiff_eq_iff {own old : Finset Nat} {n : Nat} (bound : own.card ≤ n) :
    (own \ old).card = n ↔ own.card = n ∧ Disjoint own old := by
  have part : (own \ old).card ≤ own.card := Finset.card_le_card Finset.sdiff_subset
  constructor
  · intro all
    have same : own \ old = own := Finset.eq_of_subset_of_card_le Finset.sdiff_subset (by omega)
    exact ⟨by rw [← all, same], Finset.sdiff_eq_self_iff_disjoint.mp same⟩
  · intro ⟨all, apart⟩
    rw [Finset.sdiff_eq_self_of_disjoint apart, all]

section Step

variable {cfg : Config} {before : List Extent} {e : Extent} {entry : FileCounter}

theorem occupied_small (supported : cfg.toGeometry.Supported)
    (addressed : ∀ e ∈ before, BlockAddressed cfg e) :
    (occupied cfg.segmentSize before).card ≤ 2 ^ 23 + 1 := by
  have inside : occupied cfg.segmentSize before ⊆ Finset.range (2 ^ 23 + 1) := by
    induction before with
    | nil => simp [occupied]
    | cons e rest ih =>
      have small := last_small supported (addressed e (by simp))
      have own : touched cfg.segmentSize e ⊆ Finset.range (2 ^ 23 + 1) := by
        intro segment member
        obtain ⟨sector, -, below, rfl⟩ := (mem_touched (Nat.two_pow_pos _) e segment).mp member
        have := Nat.div_le_div_right (c := cfg.segmentSize) (Nat.le_of_lt below)
        change _ ≤ e.last cfg.toGeometry at this
        rw [Finset.mem_range]
        change sector / cfg.segmentSize < _
        omega
      exact Finset.union_subset own (ih fun e inside => addressed e (by simp [inside]))
  simpa using Finset.card_le_card inside

theorem addExtent_arguments (supported : cfg.toGeometry.Supported)
    (addressed : BlockAddressed cfg e) :
    (cfg.segmentId e.phyBlk).toUInt32.toUInt64.toNat = e.first cfg.toGeometry ∧
      (e.endSegment cfg.toGeometry - cfg.segmentId e.phyBlk + 1).toUInt32.toNat =
        e.last cfg.toGeometry - e.first cfg.toGeometry + 1 := by
  have small := last_small supported addressed
  have ordered := Extent.first_le_last cfg.toGeometry e
  have bounded : e.stop < 2 ^ 56 := by
    have bytes := Nat.le_mul_of_pos_right e.stop (Nat.two_pow_pos cfg.sectorShift.toNat)
    rw [BlockAddressed] at addressed
    omega
  have first : (cfg.segmentId e.phyBlk).toNat = e.first cfg.toGeometry :=
    Geometry.segmentId_toNat supported e.phyBlk
  constructor
  · rw [UInt32.toNat_toUInt64, UInt64.toNat_toUInt32, first, Nat.mod_eq_of_lt (by omega)]
  · rw [Extent.numSegments_toNat supported bounded, Nat.mod_eq_of_lt (by omega)]

theorem heat_addTyped (entry : FileCounter) (numSegments : UInt32) (found : Option SegmentType)
    {type : SegmentType} (counted : type ∈ heats) :
    (entry.addTyped numSegments (found.getD .noCheckType)).heat type =
      if found = some type then entry.heat type + numSegments else entry.heat type := by
  simp only [heats, List.mem_cons, List.not_mem_nil, or_false] at counted
  cases found with
  | none => rfl
  | some other =>
    rcases counted with rfl | rfl | rfl <;> cases other <;> rfl

theorem addTyped_segmentCtr (entry : FileCounter) (numSegments : UInt32) (type : SegmentType) :
    (entry.addTyped numSegments type).segmentCtr = entry.segmentCtr ∧
      (entry.addTyped numSegments type).lastSegmentId = entry.lastSegmentId := by
  cases type <;> exact ⟨rfl, rfl⟩

theorem addExtent_lastSegmentId (supported : cfg.toGeometry.Supported)
    (addressed : BlockAddressed cfg e) :
    (entry.addExtent cfg e).lastSegmentId.toNat = e.first cfg.toGeometry := by
  have id := (addExtent_arguments supported addressed).1
  rw [FileCounter.addExtent, FileCounter.addSegments]
  split
  · next same => rw [same, id]
  · rw [(addTyped_segmentCtr _ _ _).2, id]

theorem addExtent_segmentCtr (supported : cfg.toGeometry.Supported)
    (addressed : ∀ e ∈ before, BlockAddressed cfg e) (own : BlockAddressed cfg e)
    (exact : entry.Exact cfg before)
    (moved : entry.lastSegmentId ≠ (cfg.segmentId e.phyBlk).toUInt32.toUInt64) :
    (entry.addExtent cfg e).segmentCtr.toNat = (occupied cfg.segmentSize before).card +
      (e.last cfg.toGeometry - e.first cfg.toGeometry + 1) := by
  have few := occupied_small supported addressed
  have small := last_small supported own
  rw [FileCounter.addExtent, FileCounter.addSegments, if_neg moved, (addTyped_segmentCtr _ _ _).1,
    UInt32.toNat_add, exact.segments, (addExtent_arguments supported own).2]
  exact Nat.mod_eq_of_lt (by omega)

theorem addExtent_heat (supported : cfg.toGeometry.Supported)
    (addressed : ∀ e ∈ before, BlockAddressed cfg e) (own : BlockAddressed cfg e)
    (exact : entry.Exact cfg before)
    (moved : entry.lastSegmentId ≠ (cfg.segmentId e.phyBlk).toUInt32.toUInt64)
    (type : SegmentType) (counted : type ∈ heats) :
    ((entry.addExtent cfg e).heat type).toNat =
      ((occupied cfg.segmentSize before).filter fun segment =>
        cfg.segmentType segment = some type).card +
      if cfg.segmentType (e.first cfg.toGeometry) = some type
      then e.last cfg.toGeometry - e.first cfg.toGeometry + 1 else 0 := by
  have few := occupied_small supported addressed
  have part := Finset.card_filter_le (occupied cfg.segmentSize before)
    fun segment => cfg.segmentType segment = some type
  have small := last_small supported own
  have before := exact.typed type counted
  rw [FileCounter.addExtent, FileCounter.addSegments, if_neg moved, heat_addTyped _ _ _ counted,
    ← before]
  rw [← before] at part
  split
  · rw [UInt32.toNat_add, (addExtent_arguments supported own).2]
    exact Nat.mod_eq_of_lt (by simp only [FileCounter.heat] at part ⊢; omega)
  · rfl

theorem filter_uniform_iff {own : Finset Nat} {p : Nat → Prop} [DecidablePred p] {q : Prop}
    [Decidable q] : (own.filter p).card = (if q then own.card else 0) ↔
      ∀ segment ∈ own, (p segment ↔ q) := by
  by_cases holds : q
  · simp [holds, Finset.card_filter_eq_iff]
  · simp [holds, Finset.filter_eq_empty_iff]

theorem addExtent_skips (exact : entry.Exact cfg before)
    (same : entry.lastSegmentId = (cfg.segmentId e.phyBlk).toUInt32.toUInt64) :
    (entry.addExtent cfg e).Exact cfg (before ++ [e]) ↔
      touched cfg.segmentSize e ⊆ occupied cfg.segmentSize before := by
  have kept : entry.addExtent cfg e = entry := by
    rw [FileCounter.addExtent, FileCounter.addSegments, if_pos same]
  rw [kept]
  constructor
  · intro after
    have none := after.segments
    rw [exact.segments, occupied_concat, card_union] at none
    exact Finset.sdiff_eq_empty_iff_subset.mp (Finset.card_eq_zero.mp (by omega))
  · intro inside
    have whole : occupied cfg.segmentSize (before ++ [e]) = occupied cfg.segmentSize before := by
      rw [occupied_concat, Finset.union_eq_left.mpr inside]
    exact ⟨by rw [whole]; exact exact.segments, by rw [whole]; exact exact.typed⟩

theorem addExtent_counts (supported : cfg.toGeometry.Supported)
    (addressed : ∀ e ∈ before, BlockAddressed cfg e) (own : BlockAddressed cfg e)
    (exact : entry.Exact cfg before)
    (other : entry.lastSegmentId ≠ (cfg.segmentId e.phyBlk).toUInt32.toUInt64) :
    (entry.addExtent cfg e).Exact cfg (before ++ [e]) ↔
      (touched cfg.segmentSize e \ occupied cfg.segmentSize before).card =
        e.last cfg.toGeometry - e.first cfg.toGeometry + 1 ∧
      ∀ type ∈ heats, ((touched cfg.segmentSize e \ occupied cfg.segmentSize before).filter
        fun segment => cfg.segmentType segment = some type).card =
          if cfg.segmentType (e.first cfg.toGeometry) = some type
          then e.last cfg.toGeometry - e.first cfg.toGeometry + 1 else 0 := by
  have segments := addExtent_segmentCtr supported addressed own exact other
  have heat := addExtent_heat supported addressed own exact other
  constructor
  · intro after
    refine ⟨?_, fun type counted => ?_⟩
    · have := after.segments
      rw [segments, occupied_concat, card_union] at this
      omega
    · have := after.typed type counted
      rw [heat type counted, occupied_concat, card_union_filter] at this
      omega
  · rintro ⟨all, typed⟩
    refine ⟨?_, fun type counted => ?_⟩
    · rw [segments, occupied_concat, card_union, all]
    · rw [heat type counted, occupied_concat, card_union_filter, typed type counted]

theorem addExtent_exact_iff (supported : cfg.toGeometry.Supported)
    (addressed : ∀ e ∈ before, BlockAddressed cfg e) (own : BlockAddressed cfg e)
    (exact : entry.Exact cfg before)
    (recorded : entry.lastSegmentId.toNat = lastRecorded cfg.segmentSize before) :
    (entry.addExtent cfg e).Exact cfg (before ++ [e]) ↔ CountedExactly cfg before e := by
  obtain ⟨first, number⟩ := addExtent_arguments supported own
  have card := touched_card supported e
  have id : e.phyBlk.toNat / cfg.segmentSize = e.first cfg.toGeometry := rfl
  rw [CountedExactly, id, ← recorded]
  by_cases same : entry.lastSegmentId = (cfg.segmentId e.phyBlk).toUInt32.toUInt64
  · have start : e.first cfg.toGeometry = entry.lastSegmentId.toNat := by rw [same, first]
    simp only [start, ne_eq, not_true_eq_false, false_and, or_false, true_and]
    exact addExtent_skips exact same
  · have start : e.first cfg.toGeometry ≠ entry.lastSegmentId.toNat := by
      intro here
      exact same (UInt64.toNat_inj.mp (by rw [first, here]))
    rw [addExtent_counts supported addressed own exact same, card_sdiff_eq_iff card.1, card.2]
    simp only [start, ne_eq, not_false_eq_true, false_and, true_and, false_or]
    constructor
    · rintro ⟨⟨⟨nonempty, partly⟩, apart⟩, typed⟩
      rw [Finset.sdiff_eq_self_of_disjoint apart] at typed
      refine ⟨apart, nonempty, partly, fun segment inside type counted => ?_⟩
      have whole := card.2.mpr ⟨nonempty, partly⟩
      rw [← whole] at typed
      exact filter_uniform_iff.mp (typed type counted) segment inside
    · rintro ⟨apart, nonempty, partly, uniform⟩
      have whole := card.2.mpr ⟨nonempty, partly⟩
      refine ⟨⟨⟨nonempty, partly⟩, apart⟩, fun type counted => ?_⟩
      rw [Finset.sdiff_eq_self_of_disjoint apart, ← whole]
      exact filter_uniform_iff.mpr fun segment inside => uniform segment inside type counted

end Step

def SameSegments (a b : FileCounter) : Prop :=
  a = { b with zoneCtr := a.zoneCtr, lastZone := a.lastZone }

theorem SameSegments.addSegments {a b : FileCounter} (same : SameSegments a b)
    (numSegments curSegment : UInt32) (type : SegmentType) (zoneCtr lastZone : UInt32) :
    SameSegments { a.addSegments numSegments curSegment type with
      zoneCtr := zoneCtr, lastZone := lastZone } (b.addSegments numSegments curSegment type) := by
  rw [SameSegments] at same ⊢
  rw [same, FileCounter.addSegments, FileCounter.addSegments]
  dsimp only
  split
  · rfl
  · cases type <;> rfl

theorem SameSegments.exact_iff {cfg : Config} {extents : List Extent} {a b : FileCounter}
    (same : SameSegments a b) : a.Exact cfg extents ↔ b.Exact cfg extents := by
  have heat : a.heat = b.heat := by
    funext type
    rw [same]
    cases type <;> rfl
  have segmentCtr : a.segmentCtr = b.segmentCtr := by rw [same]
  constructor
  · intro exact
    exact ⟨segmentCtr ▸ exact.segments, heat ▸ exact.typed⟩
  · intro exact
    exact ⟨segmentCtr ▸ exact.segments, heat ▸ exact.typed⟩

section Fold

variable {cfg : Config} {entry : FileCounter}

theorem fresh_exact (cfg : Config) (fresh : entry.Fresh) : entry.Exact cfg [] := by
  rw [FileCounter.Fresh] at fresh
  rw [fresh]
  refine ⟨rfl, fun type counted => ?_⟩
  simp only [heats, List.mem_cons, List.not_mem_nil, or_false] at counted
  rcases counted with rfl | rfl | rfl <;> rfl

theorem foldl_recorded (supported : cfg.toGeometry.Supported) (fresh : entry.Fresh)
    (extents : List Extent) (addressed : ∀ e ∈ extents, BlockAddressed cfg e) :
    (extents.foldl (FileCounter.addExtent cfg) entry).lastSegmentId.toNat =
      lastRecorded cfg.segmentSize extents := by
  induction extents using List.reverseRecOn with
  | nil =>
    rw [FileCounter.Fresh] at fresh
    rw [fresh]
    rfl
  | append_singleton before e _ =>
    rw [List.foldl_concat, lastRecorded_concat,
      addExtent_lastSegmentId supported (addressed e (by simp))]
    rfl

theorem foldl_exact_iff (supported : cfg.toGeometry.Supported) (fresh : entry.Fresh)
    (extents : List Extent) (addressed : ∀ e ∈ extents, BlockAddressed cfg e) :
    (∀ front back, extents = front ++ back →
        (front.foldl (FileCounter.addExtent cfg) entry).Exact cfg front) ↔
      ∀ before e after, extents = before ++ e :: after → CountedExactly cfg before e := by
  have step : ∀ before e after, extents = before ++ e :: after →
      (before.foldl (FileCounter.addExtent cfg) entry).Exact cfg before →
      (((before ++ [e]).foldl (FileCounter.addExtent cfg) entry).Exact cfg (before ++ [e]) ↔
        CountedExactly cfg before e) := by
    intro before e after split exact
    have earlier : ∀ e ∈ before, BlockAddressed cfg e := fun e inside =>
      addressed e (by simp [split, inside])
    rw [List.foldl_concat]
    exact addExtent_exact_iff supported earlier (addressed e (by simp [split])) exact
      (foldl_recorded supported fresh before earlier)
  constructor
  · intro exact before e after split
    exact (step before e after split (exact before _ split)).mp
      (exact (before ++ [e]) after (by simp [split]))
  · intro counted front
    induction front using List.reverseRecOn with
    | nil => exact fun _ _ => fresh_exact cfg fresh
    | append_singleton before e ih =>
      intro back split
      have here : extents = before ++ e :: back := by simp [split]
      exact (step before e back here (ih (e :: back) here)).mpr (counted before e back here)

end Fold

def FileExact (cfg : Config) (file : CString) (shown : List Extent) (state : ReportState) : Prop :=
  ∃ counters index entry, state.fileCounterMap = some counters ∧
    counters.find? file = some index ∧ counters.files[index]? = some entry ∧
    entry.Exact cfg (shown.filter fun e => e.file == file)

def FileFollows (cfg : Config) (counters : FileCounterMap) (file : CString) (index : Nat)
    (entry : FileCounter) (shown : List Extent) (state : ReportState) : Prop :=
  ∃ current now, state.fileCounterMap = some current ∧ SameFiles counters current ∧
    current.files[index]? = some now ∧
    SameSegments now ((shown.filter fun e => e.file == file).foldl (FileCounter.addExtent cfg) entry)

section Run

variable {cfg : Config} {counters : FileCounterMap} {file : CString} {index : Nat}
  {entry : FileCounter}

theorem FileFollows.exact_iff {shown : List Extent} {state : ReportState}
    (found : counters.find? file = some index)
    (follows : FileFollows cfg counters file index entry shown state) :
    FileExact cfg file shown state ↔
      ((shown.filter fun e => e.file == file).foldl (FileCounter.addExtent cfg) entry).Exact cfg
        (shown.filter fun e => e.file == file) := by
  obtain ⟨current, now, map, same, present, agree⟩ := follows
  rw [← agree.exact_iff]
  exact entry_iff map ((same.find? file).trans found) present fun entry =>
    entry.Exact cfg (shown.filter fun e => e.file == file)

end Run

def AllFollow (cfg : Config) (counters : FileCounterMap) (shown : List Extent)
    (state : ReportState) : Prop :=
  ∀ file index entry, counters.find? file = some index → counters.files[index]? = some entry →
    FileFollows cfg counters file index entry shown state

theorem showSegments_follows {cfg : Config} {dev : Device} {ctrl : Control}
    {counters : FileCounterMap} (ready : Reportable cfg dev ctrl counters)
    (full : FullRange cfg ctrl.zonemap)
    (tabled : ∀ e ∈ ctrl.zonemap.extents, e.fsInfo = cfg.tableEntry (e.phyBlk.toNat / cfg.segmentSize)) :
    ∃ final passes, showSegments cfg dev List.length ctrl = some (.ok (final, passes)) ∧
      AllFollow cfg counters ctrl.zonemap.extents final ∧
      passes.map CursorLoop.Pass.item = ctrl.zonemap.extents ∧
      ∀ index pass, passes[index]? = some pass →
        AllFollow cfg counters (ctrl.zonemap.extents.take (index + 1)) pass.after := by
  refine showSegments_keeps (fun entry own now =>
    SameSegments now (own.foldl (FileCounter.addExtent cfg) entry)) ready full (fun _ => rfl) ?_
  intro e inside entry own now next agree counts
  obtain ⟨segI, zone, info, -, added⟩ := counts
  obtain ⟨zoneCtr, lastZone, rfl⟩ := addZones_ok added
  have type : (cfg.segmentType (e.first cfg.toGeometry)).getD .noCheckType = segI.type := by
    have entry := tabled e inside
    change e.fsInfo = cfg.tableEntry (e.first cfg.toGeometry) at entry
    rw [Config.segmentType, ← entry, info]
    rfl
  rw [List.foldl_concat, FileCounter.addExtent, type]
  exact agree.addSegments _ _ _ _ _

/-- Each file's counters are exact after every pass exactly when each of its extents is counted
exactly; in particular they are exact at the end then. -/
theorem file_segments_exact_iff (cfg : Config) (dev : Device) (ctrl : Control)
    (counters : FileCounterMap) (ready : Reportable cfg dev ctrl counters)
    (sound : counters.Sound) (full : FullRange cfg ctrl.zonemap)
    (tabled : ∀ e ∈ ctrl.zonemap.extents, e.fsInfo = cfg.tableEntry (e.phyBlk.toNat / cfg.segmentSize))
    (addressed : ∀ e ∈ ctrl.zonemap.extents, BlockAddressed cfg e) :
    ∃ final passes, showSegments cfg dev List.length ctrl = some (.ok (final, passes)) ∧
      passes.map CursorLoop.Pass.item = ctrl.zonemap.extents ∧
      ∀ file ∈ counters.names,
        ((∀ index pass, passes[index]? = some pass →
            FileExact cfg file (ctrl.zonemap.extents.take (index + 1)) pass.after) ↔
          ∀ before e after,
            (ctrl.zonemap.extents.filter fun e => e.file == file) = before ++ e :: after →
              CountedExactly cfg before e) ∧
        ((∀ before e after,
            (ctrl.zonemap.extents.filter fun e => e.file == file) = before ++ e :: after →
              CountedExactly cfg before e) →
          FileExact cfg file ctrl.zonemap.extents final) := by
  obtain ⟨final, passes, result, last, visited, each⟩ := showSegments_follows ready full tabled
  refine ⟨final, passes, result, visited, fun file listed => ?_⟩
  obtain ⟨index, entry, found, present, fresh⟩ := sound.entry listed
  have own : ∀ e ∈ ctrl.zonemap.extents.filter (fun e => e.file == file), BlockAddressed cfg e :=
    fun e member => addressed e (List.mem_filter.mp member).1
  have folded := foldl_exact_iff ready.supported fresh _ own
  constructor
  · rw [← folded]
    constructor
    · intro exact front back split
      obtain ⟨shown, rest, whole, rfl, -⟩ := List.filter_eq_append_iff.mp split
      by_cases none : shown = []
      · subst none
        exact fresh_exact cfg fresh
      · have some_shown := List.length_pos_iff.mpr none
        have enough : shown.length - 1 < passes.length := by
          rw [← List.length_map (f := CursorLoop.Pass.item), visited, whole, List.length_append]
          omega
        have pass := List.getElem?_eq_getElem enough
        have until_here : ctrl.zonemap.extents.take (shown.length - 1 + 1) = shown := by
          rw [Nat.sub_add_cancel some_shown, whole, List.take_left]
        have now := each _ _ pass file index _ found present
        have holds := exact _ _ pass
        rw [until_here] at now holds
        exact (now.exact_iff found).mp holds
    · intro exact place pass at_place
      refine ((each place pass at_place file index _ found present).exact_iff found).mpr
        (exact _ ((ctrl.zonemap.extents.drop (place + 1)).filter fun e => e.file == file) ?_)
      rw [← List.filter_append, List.take_append_drop]
  · intro counted
    refine ((last file index _ found present).exact_iff found).mpr (folded.mpr counted _ [] ?_)
    rw [List.append_nil]

-- A file that fills segment 1 is counted in two segments.
theorem file_segments_overcounted :
    (oneFile 4096 4096).zonemap.extents.map (fun e => (e.phyBlk, e.len)) = [(4096, 4096)] ∧
    ∃ final passes, showSegments warmConfig (fullZones warmConfig) List.length (oneFile 4096 4096) =
        some (.ok (final, passes)) ∧
      ¬ FileExact warmConfig [97] (oneFile 4096 4096).zonemap.extents final := by
  have computed : (showSegments warmConfig (fullZones warmConfig) List.length
      (oneFile 4096 4096)).map (·.map fun run => run.1.fileCounterMap.map fun counters =>
        counters.files.map (·.segmentCtr)) = some (.ok (some [2])) := by
    decide
  obtain ⟨⟨final, passes⟩, result, shown⟩ := Runs.some_map_ok computed
  refine ⟨by decide, final, passes, result, ?_⟩
  rintro ⟨counters, index, entry, map, -, present, exact⟩
  simp only [map, Option.map_some, Option.some.injEq] at shown
  have two : entry.segmentCtr ∈ counters.files.map (·.segmentCtr) :=
    List.mem_map_of_mem (List.mem_of_getElem? present)
  rw [shown, List.mem_singleton] at two
  have one := exact.segments
  rw [two] at one
  exact absurd one (by decide)

-- A file with one piece in each zone, neither of them over a segment's end.
theorem file_segments_exact :
    (splitFile (4196, 100) (20480, 100)).zonemap.extents.map (fun e => (e.phyBlk, e.len)) =
      [(4196, 100), (20480, 100)] ∧
    ∃ final passes, showSegments warmConfig (fullZones warmConfig) List.length
        (splitFile (4196, 100) (20480, 100)) = some (.ok (final, passes)) ∧
      FileExact warmConfig [97] (splitFile (4196, 100) (20480, 100)).zonemap.extents final := by
  have addressed : ∀ e ∈ (splitFile (4196, 100) (20480, 100)).zonemap.extents,
      BlockAddressed warmConfig e := by
    decide
  obtain ⟨final, passes, result, -, each⟩ := file_segments_exact_iff warmConfig
    (fullZones warmConfig) (splitFile (4196, 100) (20480, 100)) splitFileCounters
    (splitFile_reportable _ _ (by decide)) ⟨by decide, by decide, by decide⟩
    ⟨rfl, rfl, by decide, by decide, by decide⟩ (collected_tabled (.inl rfl) (by decide) addressed)
    addressed
  refine ⟨by decide, final, passes, result, (each [97] (by decide)).2 ?_⟩
  have counted : ∀ numbered ∈ ((splitFile (4196, 100) (20480, 100)).zonemap.extents.filter
      fun e => e.file == [97]).zipIdx,
      CountedExactly warmConfig (((splitFile (4196, 100) (20480, 100)).zonemap.extents.filter
        fun e => e.file == [97]).take numbered.2) numbered.1 := by
    decide
  intro before e after split
  simpa [split] using counted (e, before.length) (by simp [split, List.mk_mem_zipIdx_iff_getElem?])

end ZnsTools
