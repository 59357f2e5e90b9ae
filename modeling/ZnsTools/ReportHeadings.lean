import ZnsTools.ReportEnd
import ZnsTools.ReportTiling
import ZnsTools.SegmentHeadings
import ZnsTools.Shared.Ascending
import ZnsTools.Shared.LastSeen

set_option autoImplicit false

namespace ZnsTools

open Ascending (Ascends)
open LastSeen (statesAt statesAt_append mem_statesAt)

-- The numbers of the last ZONE heading and the last SEGMENT heading so far.
structure Under where
  zone : Option Nat
  segment : Option Nat
  deriving DecidableEq, Repr

def Under.after (under : Under) : Line → Under
  | .zone heading => { under with zone := some heading.zone.toNat }
  | .segment heading => { under with segment := some heading.segment.toNat }
  | _ => under

def Line.isExtent : Line → Bool
  | .extent _ => true
  | _ => false

def above (under : Under) (lines : List Line) : List Under :=
  statesAt Under.after Line.isExtent under lines

-- Where the parts of an extent that are printed start: what lies in its first segment, the whole
-- segments after it, and the rest.
def Extent.partStarts (g : Geometry) (e : Extent) : List Nat :=
  let first := e.first g
  let last := e.last g
  let size := g.segmentSize
  let aligned := e.phyBlk.toNat = first * size
  if first = last ∨ e.stop = (first + 1) * size then [e.phyBlk.toNat]
  else
    (if aligned then [] else [e.phyBlk.toNat]) ++
    (if last ≤ first + 1 then [] else [if aligned then first * size else (first + 1) * size]) ++
    (if last * size = e.stop then [] else [last * size])

/-- Every part of an extent is printed under the headings of its own zone and segment, and no
segment has two headings. -/
structure OwnHeadings (g : Geometry) (extents : List Extent) (lines : List Line) : Prop where
  own : above ⟨none, none⟩ lines = extents.flatMap fun e =>
    (e.partStarts g).map fun sector => ⟨some e.zone.toNat, some (sector / g.segmentSize)⟩
  once : ((headings lines).map (·.segment)).Nodup

/-- A zone map of extents that are not empty, do not overlap, and are filed, in order, under the
zones that they start in. -/
structure DisjointMap (cfg : Config) (zonemap : ZoneMap) : Prop extends Contained cfg zonemap where
  sorted : ∀ zone ∈ zonemap.zones, Sorted zone.extents
  counted : ∀ zone ∈ zonemap.zones, zone.extentCtr.toNat = zone.extents.length
  filed : ∀ (index : Nat) (zone : Zone), zonemap.zones[index]? = some zone →
    ∀ e ∈ zone.extents, e.zone.toNat = index
  positive : ∀ e ∈ zonemap.extents, 0 < e.len.toNat
  disjoint : zonemap.extents.Pairwise fun a b =>
    a.stop ≤ b.phyBlk.toNat ∨ b.stop ≤ a.phyBlk.toNat
  addressed : ∀ e ∈ zonemap.extents, e.stop < 2 ^ 56

section Parts

variable {g : Geometry}

def Extent.partSegments (g : Geometry) (e : Extent) : List Nat :=
  let first := e.first g
  let last := e.last g
  let size := g.segmentSize
  let aligned := e.phyBlk.toNat = first * size
  if first = last ∨ e.stop = (first + 1) * size then [first]
  else
    (if aligned then [] else [first]) ++
    (if last ≤ first + 1 then [] else [if aligned then first else first + 1]) ++
    (if last * size = e.stop then [] else [last])

theorem partStarts_segments (g : Geometry) (e : Extent) :
    (e.partStarts g).map (· / g.segmentSize) = e.partSegments g := by
  have positive : 0 < g.segmentSize := Nat.two_pow_pos _
  have whole : ∀ n, n * g.segmentSize / g.segmentSize = n := fun n => Nat.mul_div_cancel n positive
  have own : e.phyBlk.toNat / g.segmentSize = e.first g := rfl
  simp only [Extent.partStarts, Extent.partSegments]
  split
  · rw [List.map_singleton, own]
  · rw [List.map_append, List.map_append]
    split <;> split <;> split <;> simp [own, whole]

theorem Extent.whole_of_filled {e : Extent}
    (several : ¬ (e.first g = e.last g ∨ e.stop = (e.first g + 1) * g.segmentSize))
    (filled : e.last g * g.segmentSize = e.stop) : e.first g + 1 < e.last g := by
  have ordered := Extent.first_le_last g e
  rcases Nat.lt_trichotomy (e.last g) (e.first g + 1) with near | next | far
  · exact absurd (.inl (by omega)) several
  · exact absurd (.inr (by rw [← filled, next])) several
  · exact far

theorem partStarts_some (g : Geometry) (e : Extent) : e.partStarts g ≠ [] := by
  rw [Extent.partStarts]
  split
  · simp
  next several =>
  by_cases far : e.last g ≤ e.first g + 1
  · have rest : e.last g * g.segmentSize ≠ e.stop := fun filled =>
      absurd (Extent.whole_of_filled several filled) (by omega)
    simp [rest]
  · simp [far]

end Parts

section Order

variable {cfg : Config} {zonemap : ZoneMap}

theorem DisjointMap.ordered (map : DisjointMap cfg zonemap) :
    zonemap.extents.Pairwise fun a b => a.stop ≤ b.phyBlk.toNat ∧ a.zone.toNat ≤ b.zone.toNat := by
  have starts : zonemap.extents.Pairwise fun a b =>
      a.phyBlk.toNat ≤ b.phyBlk.toNat ∧ a.zone.toNat ≤ b.zone.toNat := by
    refine List.pairwise_flatMap.mpr ⟨fun zone member => ?_, ?_⟩
    · obtain ⟨index, found⟩ := List.getElem?_of_mem member
      refine (map.sorted zone member).imp_of_mem fun {a b} first second before => ?_
      rw [map.filed index zone found a first, map.filed index zone found b second]
      exact ⟨UInt64.le_iff_toNat_le.mp before, Nat.le_refl _⟩
    · refine List.pairwise_iff_getElem.mpr fun i j _ _ before a first b second => ?_
      have lower : zonemap.zones[i]? = some zonemap.zones[i] := List.getElem?_eq_getElem _
      have upper : zonemap.zones[j]? = some zonemap.zones[j] := List.getElem?_eq_getElem _
      have ⟨_, low⟩ := map.inside i _ lower a first
      have ⟨high, _⟩ := map.inside j _ upper b second
      have next : (i + 1) * cfg.znsdev.zoneSize.toNat ≤ j * cfg.znsdev.zoneSize.toNat :=
        Nat.mul_le_mul_right _ before
      rw [map.filed i _ lower a first, map.filed j _ upper b second]
      omega
  refine (starts.and map.disjoint).imp_of_mem fun {a b} _ second both => ?_
  obtain ⟨⟨start, zone⟩, apart⟩ := both
  have some_len := map.positive b second
  refine ⟨?_, zone⟩
  rw [Extent.stop, Extent.stop] at apart
  rw [Extent.stop]
  omega

theorem DisjointMap.zone_of_mem (map : DisjointMap cfg zonemap) {e : Extent}
    (inside : e ∈ zonemap.extents) : ∃ zone, zonemap.zones[e.zone.toNat]? = some zone ∧
      e ∈ zone.extents := by
  obtain ⟨zone, member, listed⟩ := List.mem_flatMap.mp inside
  obtain ⟨index, found⟩ := List.getElem?_of_mem member
  rw [map.filed index zone found e listed]
  exact ⟨zone, found, listed⟩

theorem DisjointMap.first_pos (map : DisjointMap cfg zonemap) {e : Extent}
    (inside : e ∈ zonemap.extents) (behind : e.zone ≠ 0) : 0 < e.first cfg.toGeometry := by
  obtain ⟨zone, found, listed⟩ := map.zone_of_mem inside
  obtain ⟨low, high⟩ := map.inside _ zone found e listed
  have number : 1 ≤ e.zone.toNat := Nat.pos_of_ne_zero fun zero => behind (UInt32.toNat_inj.mp zero)
  have least : cfg.znsdev.zoneSize.toNat ≤ e.phyBlk.toNat :=
    Nat.le_trans (by simpa using Nat.mul_le_mul_right cfg.znsdev.zoneSize.toNat number) low
  have some_size : 0 < cfg.znsdev.zoneSize.toNat := by
    refine Nat.pos_of_ne_zero fun zero => ?_
    rw [zero, Nat.mul_zero] at high
    omega
  exact Nat.div_pos (Nat.le_trans (Nat.le_of_dvd some_size map.whole) least) (Nat.two_pow_pos _)

theorem DisjointMap.selected (map : DisjointMap cfg zonemap) (supported : cfg.toGeometry.Supported)
    (start : cfg.startZone = 1) (finish : cfg.endZone = cfg.znsdev.nrZones) {e : Extent}
    (inside : e ∈ zonemap.extents) :
    cfg.segmentLba (cfg.segmentId e.phyBlk) < cfg.endLba ∧
      cfg.startLba ≤ cfg.segmentLba (cfg.segmentId e.phyBlk) := by
  obtain ⟨zone, found, listed⟩ := map.zone_of_mem inside
  have zones := (List.getElem?_eq_some_iff.mp found).1
  rw [map.count] at zones
  have same : (cfg.upTo cfg.znsdev.nrZones).endLba = cfg.endLba := by
    rw [← finish]
    rfl
  have origin : cfg.startLba = 0 := by simp [Config.startLba, start]
  refine ⟨?_, by rw [origin]; exact UInt64.zero_le⟩
  rw [← same]
  exact (map.below_iff supported (UInt32.le_refl _) found listed).mpr zones

end Order

section Shown

variable {cfg : Config} {nrFiles : UInt32} {counters : FileCounterMap} {segI : SegmentInfo}
  {e : Extent} {state : ReportState} {under : Under}

theorem above_append (under : Under) (front back : List Line) :
    above under (front ++ back) = above under front ++ above (front.foldl Under.after under) back :=
  statesAt_append under front back

-- `lines` are the parts in `segments`; `current` is then the current segment.
structure Prints (under : Under) (lines : List Line) (segments : List Nat) (current : Nat) :
    Prop where
  own : above under lines = segments.map fun segment => ⟨under.zone, some segment⟩
  zone : (lines.foldl Under.after under).zone = under.zone
  segment : current ≠ 0 → (lines.foldl Under.after under).segment = some current

theorem Prints.append {front back : List Line} {first second : List Nat} {middle current : Nat}
    (one : Prints under front first middle)
    (other : Prints (front.foldl Under.after under) back second current) :
    Prints under (front ++ back) (first ++ second) current where
  own := by rw [above_append, one.own, other.own, one.zone, List.map_append]
  zone := by rw [List.foldl_append, other.zone, one.zone]
  segment := by rw [List.foldl_append]; exact other.segment

theorem Prints.nothing {current : Nat} (tracks : current ≠ 0 → under.segment = some current) :
    Prints under [] [] current :=
  ⟨rfl, rfl, tracks⟩

theorem showSegmentInfo_under (segI : SegmentInfo) (shown : cfg.showOnlyStats = false)
    {segment current : UInt64} (tracks : current.toNat ≠ 0 → under.segment = some current.toNat)
    (some_segment : segment.toNat ≠ 0) :
    above under (showSegmentInfo cfg segI segment current) = [] ∧
      (showSegmentInfo cfg segI segment current).foldl Under.after under =
        { under with segment := some segment.toNat } := by
  rw [showSegmentInfo]
  by_cases same : current = segment
  · subst same
    rw [if_pos rfl, List.foldl_nil, ← tracks some_segment]
    exact ⟨rfl, rfl⟩
  · rw [if_neg same, rep_shown shown]
    exact ⟨rfl, rfl⟩

theorem headed_prints (segI : SegmentInfo) (shown : cfg.showOnlyStats = false)
    {segment current : UInt64} (tracks : current.toNat ≠ 0 → under.segment = some current.toNat)
    (some_segment : segment.toNat ≠ 0) (pbas pbae size : UInt64) :
    Prints under (showSegmentInfo cfg segI segment current ++
      rep cfg [extentLine counters e pbas pbae size]) [segment.toNat] segment.toNat := by
  obtain ⟨none, headed⟩ := showSegmentInfo_under segI shown tracks some_segment
  rw [rep_shown shown]
  refine ⟨?_, ?_, fun _ => ?_⟩
  · rw [above_append, none, headed]
    rfl
  · rw [List.foldl_append, headed]
    rfl
  · rw [List.foldl_append, headed]
    rfl

def Tracks (under : Under) (state : ReportState) : Prop :=
  state.curSegment.toNat ≠ 0 → under.segment = some state.curSegment.toNat

theorem showWholeExtent_prints (supported : cfg.toGeometry.Supported)
    (shown : cfg.showOnlyStats = false) (tracks : Tracks under state)
    (some_segment : e.first cfg.toGeometry ≠ 0) :
    Prints under (showWholeExtent cfg nrFiles counters segI e state).2 [e.first cfg.toGeometry]
      (showWholeExtent cfg nrFiles counters segI e state).1.curSegment.toNat := by
  have id : (cfg.segmentId e.phyBlk).toNat = e.first cfg.toGeometry :=
    Geometry.segmentId_toNat supported e.phyBlk
  rw [← id] at some_segment ⊢
  exact headed_prints segI shown tracks some_segment _ _ _

theorem showBeginning_prints (nrFiles : UInt32) (counters : FileCounterMap) (segI : SegmentInfo)
    (supported : cfg.toGeometry.Supported) (shown : cfg.showOnlyStats = false)
    (tracks : Tracks under state) (some_segment : e.first cfg.toGeometry ≠ 0) :
    Prints under (showBeginning cfg nrFiles counters segI e state).2
      (if e.phyBlk.toNat = e.first cfg.toGeometry * cfg.segmentSize then []
        else [e.first cfg.toGeometry])
      (showBeginning cfg nrFiles counters segI e state).1.curSegment.toNat := by
  have id : (cfg.segmentId e.phyBlk).toNat = e.first cfg.toGeometry :=
    Geometry.segmentId_toNat supported e.phyBlk
  rw [showBeginning_eq supported]
  split
  · exact .nothing tracks
  · rw [← id] at some_segment ⊢
    exact headed_prints segI shown tracks some_segment _ _ _

theorem showConsecutiveSegments_prints (shown : cfg.showOnlyStats = false)
    (tracks : Tracks under state) {segmentStart : UInt64} (some_segment : segmentStart.toNat ≠ 0) :
    Prints under (showConsecutiveSegments cfg nrFiles counters segI e segmentStart state).2
      [segmentStart.toNat] segmentStart.toNat := by
  rw [showConsecutiveSegments]
  dsimp only
  split
  · exact headed_prints segI shown tracks some_segment _ _ _
  · obtain ⟨none, headed⟩ := showSegmentInfo_under segI shown tracks some_segment
    rw [rep_shown shown, rep_shown shown, List.append_assoc]
    refine ⟨?_, ?_, fun _ => ?_⟩
    · rw [above_append, above_append]
      simp only [List.foldl_cons, List.foldl_nil, Under.after, none, headed]
      rfl
    · rw [List.foldl_append, List.foldl_append]
      simp only [List.foldl_cons, List.foldl_nil, Under.after, headed]
      rfl
    · rw [List.foldl_append, List.foldl_append]
      simp only [List.foldl_cons, List.foldl_nil, Under.after, headed]
      rfl

theorem showMiddle_prints (nrFiles : UInt32) (counters : FileCounterMap) (segI : SegmentInfo)
    (supported : cfg.toGeometry.Supported) (shown : cfg.showOnlyStats = false)
    (addressed : e.stop < 2 ^ 56) (tracks : Tracks under state)
    (some_segment : e.first cfg.toGeometry ≠ 0) :
    Prints under (showMiddle cfg nrFiles counters segI e state).2
      (if e.last cfg.toGeometry ≤ e.first cfg.toGeometry + 1 then []
        else [if e.phyBlk.toNat = e.first cfg.toGeometry * cfg.segmentSize
          then e.first cfg.toGeometry else e.first cfg.toGeometry + 1])
      (showMiddle cfg nrFiles counters segI e state).1.curSegment.toNat := by
  have middle := Extent.middleSegment_toNat supported addressed
  rw [showMiddle_eq supported addressed]
  split
  · exact .nothing tracks
  · have start : (e.middleSegment cfg.toGeometry).toNat ≠ 0 := by
      rw [middle]
      split <;> omega
    rw [← middle]
    exact showConsecutiveSegments_prints shown tracks start

theorem showRemainder_prints (nrFiles : UInt32) (counters : FileCounterMap) (segI : SegmentInfo)
    (supported : cfg.toGeometry.Supported) (shown : cfg.showOnlyStats = false)
    (addressed : e.stop < 2 ^ 56) (tracks : Tracks under state)
    (some_segment : e.first cfg.toGeometry ≠ 0) :
    Prints under (showRemainder cfg nrFiles counters segI e state).2
      (if e.last cfg.toGeometry * cfg.segmentSize = e.stop then [] else [e.last cfg.toGeometry])
      (showRemainder cfg nrFiles counters segI e state).1.curSegment.toNat := by
  have finish := Extent.endSegment_toNat supported addressed
  have ordered := Extent.first_le_last cfg.toGeometry e
  rw [showRemainder_eq supported addressed]
  split
  · exact .nothing tracks
  · rw [← finish]
    exact headed_prints segI shown tracks (by rw [finish]; omega) _ _ _

theorem showExtent_prints (supported : cfg.toGeometry.Supported)
    (shown : cfg.showOnlyStats = false) (addressed : e.stop < 2 ^ 56) (tracks : Tracks under state)
    (some_segment : e.first cfg.toGeometry ≠ 0) :
    Prints under (showExtent cfg nrFiles counters segI e state).2 (e.partSegments cfg.toGeometry)
      (showExtent cfg nrFiles counters segI e state).1.curSegment.toNat := by
  rw [showExtent_eq supported addressed, Extent.partSegments]
  split
  · exact showWholeExtent_prints supported shown tracks some_segment
  · have beginning := showBeginning_prints nrFiles counters segI supported shown tracks some_segment
    have middle := showMiddle_prints nrFiles counters segI supported shown addressed
      beginning.segment some_segment
    have remainder := showRemainder_prints nrFiles counters segI supported shown addressed
      (beginning.append middle).segment some_segment
    exact (beginning.append middle).append remainder

theorem headed_ascends {current segment : Nat} (ordered : current ≤ segment) :
    Ascends current (headed current segment) segment := by
  rw [headed]
  split
  · next same => exact .nil (Nat.le_of_eq same)
  · next other => exact .single (Nat.lt_of_le_of_ne ordered other)

theorem showBeginning_ascends (nrFiles : UInt32) (counters : FileCounterMap) (segI : SegmentInfo)
    (supported : cfg.toGeometry.Supported) (shown : cfg.showOnlyStats = false)
    (behind : state.curSegment.toNat ≤ e.first cfg.toGeometry) :
    Ascends state.curSegment.toNat
      ((headings (showBeginning cfg nrFiles counters segI e state).2).map (·.segment.toNat))
      (showBeginning cfg nrFiles counters segI e state).1.curSegment.toNat := by
  obtain ⟨beginning, begun⟩ := showBeginning_headed nrFiles counters segI e state supported shown
  rw [beginning.segments, begun]
  split
  · exact .nil (Nat.le_refl _)
  · exact headed_ascends behind

theorem showMiddle_ascends (nrFiles : UInt32) (counters : FileCounterMap) (segI : SegmentInfo)
    (supported : cfg.toGeometry.Supported) (shown : cfg.showOnlyStats = false)
    (addressed : e.stop < 2 ^ 56) (behind : state.curSegment.toNat ≤ e.first cfg.toGeometry) :
    Ascends state.curSegment.toNat
      ((headings (showMiddle cfg nrFiles counters segI e state).2).map (·.segment.toNat))
      (showMiddle cfg nrFiles counters segI e state).1.curSegment.toNat := by
  obtain ⟨middle, reached⟩ :=
    showMiddle_headed nrFiles counters segI state supported shown addressed
  rw [middle.segments, reached]
  split
  · exact .nil (Nat.le_refl _)
  · refine headed_ascends ?_
    split <;> omega

theorem showRemainder_ascends (nrFiles : UInt32) (counters : FileCounterMap) (segI : SegmentInfo)
    (supported : cfg.toGeometry.Supported) (shown : cfg.showOnlyStats = false)
    (addressed : e.stop < 2 ^ 56) (behind : state.curSegment.toNat ≤ e.last cfg.toGeometry) :
    Ascends state.curSegment.toNat
        ((headings (showRemainder cfg nrFiles counters segI e state).2).map (·.segment.toNat))
        (showRemainder cfg nrFiles counters segI e state).1.curSegment.toNat ∧
      (showRemainder cfg nrFiles counters segI e state).1.curSegment.toNat =
        if e.last cfg.toGeometry * cfg.segmentSize = e.stop then state.curSegment.toNat
        else e.last cfg.toGeometry := by
  have remainder := showRemainder_headed nrFiles counters segI state supported shown addressed
  have current : (showRemainder cfg nrFiles counters segI e state).1.curSegment.toNat =
      if e.last cfg.toGeometry * cfg.segmentSize = e.stop then state.curSegment.toNat
      else e.last cfg.toGeometry := by
    rw [showRemainder_eq supported addressed]
    split
    · rfl
    · exact Extent.endSegment_toNat supported addressed
  refine ⟨?_, current⟩
  rw [remainder.segments, current]
  split
  · exact .nil (Nat.le_refl _)
  · exact headed_ascends behind

theorem showBeginning_behind (nrFiles : UInt32) (counters : FileCounterMap) (segI : SegmentInfo)
    (supported : cfg.toGeometry.Supported) (shown : cfg.showOnlyStats = false)
    (behind : state.curSegment.toNat ≤ e.first cfg.toGeometry) :
    (showBeginning cfg nrFiles counters segI e state).1.curSegment.toNat ≤
      e.first cfg.toGeometry := by
  rw [(showBeginning_headed nrFiles counters segI e state supported shown).2]
  split
  · exact behind
  · exact Nat.le_refl _

theorem showMiddle_behind (nrFiles : UInt32) (counters : FileCounterMap) (segI : SegmentInfo)
    (supported : cfg.toGeometry.Supported) (shown : cfg.showOnlyStats = false)
    (addressed : e.stop < 2 ^ 56) (behind : state.curSegment.toNat ≤ e.first cfg.toGeometry) :
    (showMiddle cfg nrFiles counters segI e state).1.curSegment.toNat ≤ e.last cfg.toGeometry := by
  have ordered := Extent.first_le_last cfg.toGeometry e
  rw [(showMiddle_headed nrFiles counters segI state supported shown addressed).2]
  split
  · exact behind.trans ordered
  · split <;> omega

theorem showExtent_ascends (nrFiles : UInt32) (counters : FileCounterMap) (segI : SegmentInfo)
    (supported : cfg.toGeometry.Supported) (shown : cfg.showOnlyStats = false)
    (addressed : e.stop < 2 ^ 56) (positive : 0 < e.len.toNat)
    (behind : state.curSegment.toNat ≤ e.first cfg.toGeometry) :
    Ascends state.curSegment.toNat
        ((headings (showExtent cfg nrFiles counters segI e state).2).map (·.segment.toNat))
        (showExtent cfg nrFiles counters segI e state).1.curSegment.toNat ∧
      (showExtent cfg nrFiles counters segI e state).1.curSegment.toNat * cfg.segmentSize <
        e.stop := by
  have start := Extent.first_mul_le cfg.toGeometry e
  have rest := Extent.last_mul_le cfg.toGeometry e
  have stop : e.stop = e.phyBlk.toNat + e.len.toNat := rfl
  rw [showExtent_eq supported addressed]
  split
  · have current : (cfg.segmentId e.phyBlk).toNat = e.first cfg.toGeometry :=
      Geometry.segmentId_toNat supported e.phyBlk
    rw [(showWholeExtent_headed supported shown).segments, showWholeExtent]
    dsimp only
    rw [current]
    exact ⟨headed_ascends behind, by omega⟩
  · next several =>
    have first_behind := showBeginning_behind nrFiles counters segI supported shown behind
    obtain ⟨remainder, current⟩ := showRemainder_ascends nrFiles counters segI supported shown
      addressed (showMiddle_behind nrFiles counters segI supported shown addressed first_behind)
    dsimp only
    rw [headings_append, headings_append, List.map_append, List.map_append]
    refine ⟨((showBeginning_ascends nrFiles counters segI supported shown behind).append
      (showMiddle_ascends nrFiles counters segI supported shown addressed first_behind)).append
        remainder, ?_⟩
    rw [current]
    split
    · next filled =>
      -- Whole segments end here, so that the current one is at most the second of them.
      have far := Extent.whole_of_filled several filled
      rw [(showMiddle_headed nrFiles counters segI _ supported shown addressed).2,
        if_neg (Nat.not_le.mpr far), ← filled]
      refine Nat.mul_lt_mul_of_pos_right ?_ (Nat.two_pow_pos _)
      split <;> omega
    · next unfilled => exact Nat.lt_of_le_of_ne rest unfilled

end Shown

section Run

variable {cfg : Config} {dev : Device} {ctrl : Control} {e : Extent} {state : ReportState}

theorem showZoneHeading_under {under : Under} {next : ReportState} {heading : List Line}
    (shown : cfg.showOnlyStats = false)
    (opens : dev (cfg.zoneSectors * e.zone.toUInt64) ≠ .openFailed) (behind : e.zone ≠ 0)
    (tracks : state.currentZone ≠ 0 → under.zone = some state.currentZone.toNat)
    (headed : showZoneHeading cfg dev e state = .ok (next, heading)) :
    above under heading = [] ∧
      heading.foldl Under.after under = { under with zone := some e.zone.toNat } := by
  rw [showZoneHeading] at headed
  split at headed
  · next same =>
    cases headed
    rw [List.foldl_nil, ← same, ← tracks (by rwa [same])]
    exact ⟨rfl, rfl⟩
  · obtain ⟨lines, printed, headed⟩ := Runs.bind_ok headed
    cases headed
    rw [repZoneInfo, shown, if_neg (by simp), printZoneInfo] at printed
    split at printed
    · next failed => exact absurd failed opens
    · cases printed
    · cases printed
      rw [rep_shown shown]
      split <;> exact ⟨rfl, rfl⟩

theorem showZoneHeading_zone {next : ReportState} {heading : List Line}
    (headed : showZoneHeading cfg dev e state = .ok (next, heading)) {zone : ZoneHeading}
    (inside : .zone zone ∈ heading) :
    state.currentZone ≠ e.zone ∧ zone.zone = e.zone ∧
      dev (cfg.zoneSectors * e.zone.toUInt64) ≠ .openFailed := by
  rw [showZoneHeading] at headed
  split at headed
  · cases headed
    cases inside
  · next other =>
    obtain ⟨lines, printed, headed⟩ := Runs.bind_ok headed
    cases headed
    refine ⟨other, ?_⟩
    have plain : Line.zone zone ∉ (if state.currentZone = 0 then [] else rep cfg [.formatter]) := by
      rw [rep]
      split
      · simp
      · split <;> simp
    have listed := (List.mem_append.mp inside).resolve_left plain
    rw [repZoneInfo] at printed
    split at printed
    · cases printed
      cases listed
    · exact printZoneInfo_zone printed listed

theorem zone_not_mem_rep {zone : ZoneHeading} {lines : List Line} (none : .zone zone ∉ lines) :
    .zone zone ∉ rep cfg lines := by
  rw [rep]
  split
  · simp
  · exact none

theorem zone_not_mem_showSegmentInfo (zone : ZoneHeading) (segI : SegmentInfo)
    (segment current : UInt64) : .zone zone ∉ showSegmentInfo cfg segI segment current := by
  rw [showSegmentInfo]
  split
  · simp
  · exact zone_not_mem_rep (by simp)

theorem zone_not_mem_extentLine (zone : ZoneHeading) (counters : FileCounterMap) (e : Extent)
    (pbas pbae size : UInt64) : .zone zone ∉ rep cfg [extentLine counters e pbas pbae size] :=
  zone_not_mem_rep (by simp [extentLine])

theorem zone_not_mem_showMiddle (zone : ZoneHeading) (nrFiles : UInt32)
    (counters : FileCounterMap) (segI : SegmentInfo) (e : Extent) (state : ReportState) :
    .zone zone ∉ (showMiddle cfg nrFiles counters segI e state).2 := by
  have range : ∀ first last pbas pbae size,
      .zone zone ∉ rep cfg [.underscore, .formatter, .segmentRange first last pbas pbae size] :=
    fun _ _ _ _ _ => zone_not_mem_rep (by simp)
  have after : ∀ pbas pbae size,
      .zone zone ∉ rep cfg [.formatter, extentLine counters e pbas pbae size] :=
    fun _ _ _ => zone_not_mem_rep (by simp [extentLine])
  have consecutive : ∀ segmentStart, .zone zone ∉
      (showConsecutiveSegments cfg nrFiles counters segI e segmentStart state).2 := by
    intro segmentStart
    rw [showConsecutiveSegments]
    dsimp only
    split
    · simp [zone_not_mem_showSegmentInfo, zone_not_mem_extentLine]
    · simp [zone_not_mem_showSegmentInfo, range, after]
  rw [showMiddle, apply_ite Prod.snd]
  split
  · exact consecutive _
  · simp

theorem zone_not_mem_showExtent (zone : ZoneHeading) (nrFiles : UInt32) (counters : FileCounterMap)
    (segI : SegmentInfo) (e : Extent) (state : ReportState) :
    .zone zone ∉ (showExtent cfg nrFiles counters segI e state).2 := by
  have beginning : .zone zone ∉ (showBeginning cfg nrFiles counters segI e state).2 := by
    rw [showBeginning]
    split
    · simp
    · simp [showBeginningSegment, zone_not_mem_showSegmentInfo, zone_not_mem_extentLine]
  have remainder : ∀ state, .zone zone ∉ (showRemainder cfg nrFiles counters segI e state).2 := by
    intro state
    rw [showRemainder]
    split
    · simp
    · simp [showRemainderSegment, zone_not_mem_showSegmentInfo, zone_not_mem_extentLine]
  rw [showExtent]
  split
  · simp [showWholeExtent, zone_not_mem_showSegmentInfo, zone_not_mem_extentLine]
  · simp [beginning, zone_not_mem_showMiddle, remainder]

theorem foldl_zone {under : Under} {lines : List Line} {number : Nat}
    (seen : (lines.foldl Under.after under).zone = some number) :
    under.zone = some number ∨ ∃ heading, .zone heading ∈ lines ∧ heading.zone.toNat = number := by
  induction lines generalizing under with
  | nil => exact .inl seen
  | cons line rest ih =>
    rcases ih seen with before | ⟨heading, inside, same⟩
    · cases line with
      | zone heading => exact .inr ⟨heading, List.mem_cons_self, Option.some.inj before⟩
      | _ => exact .inl before
    · exact .inr ⟨heading, List.mem_cons_of_mem _ inside, same⟩

theorem mem_above {lines : List Line} {under : Under} {number : Nat}
    (inside : under ∈ above ⟨none, none⟩ lines) (zone : under.zone = some number) :
    ∃ heading, .zone heading ∈ lines ∧ heading.zone.toNat = number := by
  obtain ⟨front, item, back, rfl, rfl⟩ := mem_statesAt inside
  obtain ⟨heading, listed, same⟩ := (foldl_zone zone).resolve_left (by rintro ⟨⟩)
  exact ⟨heading, List.mem_append_left _ listed, same⟩

theorem showSegmentReport_lines {fuel : List Extent → Nat} {lines : List Line}
    {stats : List StatsLine}
    (run : showSegmentReport cfg dev fuel ctrl = some (.ok (lines, stats))) :
    ∃ final passes, showSegments cfg dev fuel ctrl = some (.ok (final, passes)) ∧
      lines = rep cfg [.equalFormatter, .title, .equalFormatter] ++ passes.flatMap (·.out) := by
  obtain ⟨loops, shown, ended⟩ := Option.map_eq_some_iff.mp run
  obtain ⟨⟨final, passes⟩, rfl, shows⟩ := Runs.bind_ok ended
  obtain ⟨counted, -, printed⟩ := Runs.bind_ok shows
  cases printed
  exact ⟨final, passes, shown, rfl⟩

theorem zones_of_passes (supported : cfg.toGeometry.Supported)
    (map : DisjointMap cfg ctrl.zonemap) (start : cfg.startZone = 1)
    (finish : cfg.endZone = cfg.znsdev.nrZones) {fuel : List Extent → Nat} {final : ReportState}
    {passes : List ReportPass} (run : showSegments cfg dev fuel ctrl = some (.ok (final, passes))) :
    ∀ pass ∈ passes, ∀ heading, .zone heading ∈ pass.out → heading.zone ≠ 0 ∧
      dev (cfg.zoneSectors * heading.zone.toUInt64) ≠ .openFailed := by
  obtain ⟨-, -, each⟩ := showSegments_exhausted map.counted
    (fun done state => state.currentZone = 0 ∨ ∃ d ∈ done, state.currentZone = d.zone)
    (fun _ pass => ∀ heading, .zone heading ∈ pass.out → heading.zone ≠ 0 ∧
      dev (cfg.zoneSectors * heading.zone.toUInt64) ≠ .openFailed) (by
        intro done e rest split state flow current turn
        have inside : e ∈ ctrl.zonemap.extents := by simp [split]
        have ⟨below, behind⟩ := map.selected supported start finish inside
        obtain ⟨heading, segI, counters, counted, _, headed, -, -, -, rfl, rfl⟩ :=
          showExtentTurn_parts below behind turn
        refine ⟨_, _, rfl, .inr ⟨e, by simp, (showExtent_frame _ _ _ _ _).1⟩, ?_⟩
        intro zone listed
        have own := (List.mem_append.mp listed).resolve_right (zone_not_mem_showExtent _ _ _ _ _ _)
        obtain ⟨other, same, opens⟩ := showZoneHeading_zone headed own
        rw [same]
        refine ⟨fun zero => ?_, opens⟩
        rcases current with none | ⟨d, earlier, own⟩
        · exact other (none.trans zero.symm)
        · have ordered := map.ordered
          rw [split] at ordered
          have before := ((List.pairwise_append.mp ordered).2.2 d earlier e List.mem_cons_self).2
          rw [zero, UInt32.toNat_zero, Nat.le_zero] at before
          exact other (by rw [own, zero]; exact UInt32.toNat_inj.mp before)) (.inl rfl) run
  intro pass inside
  obtain ⟨index, found⟩ := List.getElem?_of_mem inside
  exact each index pass found

def underOf (done : List ReportPass) : Under :=
  (done.flatMap (·.out)).foldl Under.after ⟨none, none⟩

structure Follows (cfg : Config) (done : List ReportPass) (state : ReportState) : Prop where
  own : above ⟨none, none⟩ (done.flatMap (·.out)) =
    (done.map CursorLoop.Pass.item).flatMap fun e =>
      (e.partSegments cfg.toGeometry).map fun segment => ⟨some e.zone.toNat, some segment⟩
  zone : state.currentZone ≠ 0 → (underOf done).zone = some state.currentZone.toNat
  tracks : Tracks (underOf done) state
  ascends : Ascends 0 ((headings (done.flatMap (·.out))).map (·.segment.toNat))
    state.curSegment.toNat
  behind : state.curSegment.toNat = 0 ∨
    ∃ d ∈ done.map CursorLoop.Pass.item, state.curSegment.toNat * cfg.segmentSize < d.stop

theorem Follows.start (fresh : ctrl.curSegment = 0) :
    Follows cfg [] (ReportState.start ctrl) where
  own := rfl
  zone := fun moved => absurd rfl moved
  tracks := by
    rw [Tracks, ReportState.start, fresh]
    exact fun moved => absurd rfl moved
  ascends := .nil (Nat.zero_le _)
  behind := .inl (by rw [ReportState.start, fresh]; rfl)

theorem Follows.reached {done : List ReportPass} (follows : Follows cfg done state)
    (before : ∀ d ∈ done.map CursorLoop.Pass.item, d.stop ≤ e.phyBlk.toNat) :
    state.curSegment.toNat ≤ e.first cfg.toGeometry := by
  rcases follows.behind with zero | ⟨d, earlier, short⟩
  · rw [zero]
    exact Nat.zero_le _
  · have inside := before d earlier
    exact (Nat.le_div_iff_mul_le (Nat.two_pow_pos _)).mpr
      (Nat.le_of_lt (Nat.lt_of_lt_of_le short inside))

theorem Follows.snoc {done : List ReportPass} (follows : Follows cfg done state)
    {next : ReportState} {heading printed : List Line}
    (plain : above (underOf done) heading = [])
    (moved : heading.foldl Under.after (underOf done) =
      ⟨some e.zone.toNat, (underOf done).segment⟩)
    (segmentless : headings heading = [])
    (prints : Prints ⟨some e.zone.toNat, (underOf done).segment⟩ printed
      (e.partSegments cfg.toGeometry) next.curSegment.toNat)
    (ascends : Ascends state.curSegment.toNat ((headings printed).map (·.segment.toNat))
      next.curSegment.toNat)
    (short : next.curSegment.toNat * cfg.segmentSize < e.stop)
    (current : next.currentZone = e.zone) :
    Follows cfg (done ++ [⟨e, state, next, heading ++ printed⟩]) next := by
  let pass : ReportPass := ⟨e, state, next, heading ++ printed⟩
  have lines : (done ++ [pass]).flatMap (·.out) = done.flatMap (·.out) ++ (heading ++ printed) := by
    rw [List.flatMap_append, List.flatMap_singleton]
  have under : underOf (done ++ [pass]) =
      printed.foldl Under.after ⟨some e.zone.toNat, (underOf done).segment⟩ := by
    rw [underOf, lines, List.foldl_append, List.foldl_append, ← underOf, moved]
  refine ⟨?_, fun _ => ?_, ?_, ?_, .inr ⟨e, by simp, short⟩⟩
  · rw [lines, above_append, above_append, ← underOf, follows.own, plain, moved, prints.own,
      List.map_append, List.flatMap_append, List.map_singleton, List.flatMap_singleton,
      List.nil_append]
  · rw [under, prints.zone, current]
  · rw [under]
    exact prints.segment
  · rw [lines, headings_append, headings_append, segmentless, List.nil_append, List.map_append]
    exact follows.ascends.append ascends

theorem Follows.turn (supported : cfg.toGeometry.Supported)
    (map : DisjointMap cfg ctrl.zonemap) (start : cfg.startZone = 1)
    (finish : cfg.endZone = cfg.znsdev.nrZones) (shown : cfg.showOnlyStats = false)
    {done : List ReportPass} {rest : List Extent}
    (split : ctrl.zonemap.extents = done.map CursorLoop.Pass.item ++ e :: rest)
    (behind : e.zone ≠ 0) (opens : dev (cfg.zoneSectors * e.zone.toUInt64) ≠ .openFailed)
    (follows : Follows cfg done state) {flow : CursorLoop.Flow ReportState (List Line)}
    (turn : showExtentTurn cfg dev ctrl.nrFiles e state = .ok flow) :
    ∃ next out, flow = .advance next out ∧ Follows cfg (done ++ [⟨e, state, next, out⟩]) next := by
  have inside : e ∈ ctrl.zonemap.extents := by simp [split]
  have addressed := map.addressed e inside
  have ⟨below, low⟩ := map.selected supported start finish inside
  obtain ⟨heading, segI, counters, counted, _, headed, -, -, -, rfl, rfl⟩ :=
    showExtentTurn_parts below low turn
  have ordered := map.ordered
  rw [split] at ordered
  have reached := follows.reached fun d earlier =>
    ((List.pairwise_append.mp ordered).2.2 d earlier e List.mem_cons_self).1
  obtain ⟨plain, moved⟩ := showZoneHeading_under shown opens behind follows.zone headed
  obtain ⟨ascends, short⟩ := @showExtent_ascends cfg e
    { state with currentZone := e.zone, fileCounterMap := some counted } ctrl.nrFiles counted segI
    supported shown addressed (map.positive e inside) reached
  exact ⟨_, _, rfl, follows.snoc plain moved (headings_heading (showZoneHeading_ok headed).2)
    (showExtent_prints supported shown addressed follows.tracks (map.first_pos inside behind).ne')
    ascends short (showExtent_frame _ _ _ _ _).1⟩

theorem showSegments_headed (supported : cfg.toGeometry.Supported)
    (map : DisjointMap cfg ctrl.zonemap) (start : cfg.startZone = 1)
    (finish : cfg.endZone = cfg.znsdev.nrZones) (shown : cfg.showOnlyStats = false)
    (fresh : ctrl.curSegment = 0)
    (opens : ∀ e ∈ ctrl.zonemap.extents,
      e.zone ≠ 0 ∧ dev (cfg.zoneSectors * e.zone.toUInt64) ≠ .openFailed)
    {fuel : List Extent → Nat} {final : ReportState} {passes : List ReportPass}
    (run : showSegments cfg dev fuel ctrl = some (.ok (final, passes))) :
    Follows cfg passes final ∧ passes.map CursorLoop.Pass.item = ctrl.zonemap.extents := by
  have flat : ctrl.zonemap.scanned.flatten = ctrl.zonemap.extents := scannedOf_flatten map.counted
  have visited := CursorLoop.scans_shows (Follows cfg) (Follows cfg) ctrl.zonemap.scanned
    (by
      intro done e rest split state flow follows turn
      rw [flat] at split
      have inside : e ∈ ctrl.zonemap.extents := by simp [split]
      have ⟨behind, opened⟩ := opens e inside
      exact follows.turn supported map start finish shown split behind opened turn)
    (fun _ _ holds => holds) (fun _ _ _ holds same => Except.ok.inj same ▸ holds) run
    (Follows.start fresh)
  rwa [flat] at visited

theorem title_plain (shown : cfg.showOnlyStats = false) (lines : List Line) :
    above ⟨none, none⟩ (rep cfg [.equalFormatter, .title, .equalFormatter] ++ lines) =
        above ⟨none, none⟩ lines ∧
      headings (rep cfg [.equalFormatter, .title, .equalFormatter] ++ lines) = headings lines := by
  rw [rep_shown shown]
  exact ⟨rfl, rfl⟩

theorem Follows.ownHeadings {done : List ReportPass} (follows : Follows cfg done state)
    (visited : done.map CursorLoop.Pass.item = ctrl.zonemap.extents)
    (shown : cfg.showOnlyStats = false) :
    OwnHeadings cfg.toGeometry ctrl.zonemap.extents
      (rep cfg [.equalFormatter, .title, .equalFormatter] ++ done.flatMap (·.out)) := by
  obtain ⟨plain, segmentless⟩ := title_plain shown (done.flatMap (·.out))
  refine ⟨?_, ?_⟩
  · rw [plain, follows.own, visited]
    refine List.flatMap_congr fun e _ => ?_
    rw [← partStarts_segments, List.map_map]
    rfl
  · rw [segmentless]
    refine List.Nodup.of_map UInt64.toNat ?_
    rw [List.map_map]
    exact follows.ascends.nodup

theorem OwnHeadings.zone_printed {lines : List Line}
    (printed : OwnHeadings cfg.toGeometry ctrl.zonemap.extents lines)
    (inside : e ∈ ctrl.zonemap.extents) :
    ∃ heading, .zone heading ∈ lines ∧ heading.zone = e.zone := by
  obtain ⟨sector, part⟩ := List.exists_mem_of_ne_nil _ (partStarts_some cfg.toGeometry e)
  have listed : ⟨some e.zone.toNat, some (sector / cfg.segmentSize)⟩ ∈
      above ⟨none, none⟩ lines := by
    rw [printed.own]
    exact List.mem_flatMap.mpr ⟨e, inside, List.mem_map_of_mem part⟩
  obtain ⟨heading, found, same⟩ := mem_above listed rfl
  exact ⟨heading, found, UInt32.toNat_inj.mp same⟩

theorem showSegmentReport_exists {counters : FileCounterMap}
    (ready : Reportable cfg dev ctrl counters) (start : cfg.startZone = 1) :
    ∃ lines stats, showSegmentReport cfg dev List.length ctrl = some (.ok (lines, stats)) := by
  have origin : cfg.startLba = 0 := by simp [Config.startLba, start]
  obtain ⟨final, passes, run, tracking⟩ := showSegments_returns ready fun _ _ _ => by
    rw [origin]
    exact UInt64.zero_le
  obtain ⟨stats, report⟩ := showSegmentReport_ok tracking run
  exact ⟨_, stats, report⟩

end Run

theorem oneFile_disjointMap (phyBlk len : UInt64)
    (ready : Reportable warmConfig (fullZones warmConfig) (oneFile phyBlk len) oneFileCounters)
    (places : ∀ numbered ∈ (oneFile phyBlk len).zonemap.zones.zipIdx, ∀ e ∈ numbered.1.extents,
      (numbered.2 * 16384 ≤ e.phyBlk.toNat ∧ e.phyBlk.toNat < (numbered.2 + 1) * 16384) ∧
        e.zone.toNat = numbered.2)
    (count : (oneFile phyBlk len).zonemap.zones.length = 2)
    (positive : ∀ e ∈ (oneFile phyBlk len).zonemap.extents, 0 < e.len.toNat)
    (disjoint : (oneFile phyBlk len).zonemap.extents.Pairwise fun a b =>
      a.stop ≤ b.phyBlk.toNat ∨ b.stop ≤ a.phyBlk.toNat) :
    DisjointMap warmConfig (oneFile phyBlk len).zonemap where
  whole := by decide
  inside index zone found e listed :=
    (places (zone, index) (List.mk_mem_zipIdx_iff_getElem?.mpr found) e listed).1
  count := count
  fits := by decide
  sorted := ready.sorted
  counted := ready.counted
  filed index zone found e listed :=
    (places (zone, index) (List.mk_mem_zipIdx_iff_getElem?.mpr found) e listed).2
  positive := positive
  disjoint := disjoint
  addressed := ready.addressed

/-- The full report comes to its end, and prints each part of an extent under its own headings
exactly if no extent lies in zone 0 and the device opens for the ZONE heading of every zone in
use. -/
theorem own_headings_iff (cfg : Config) (dev : Device) (ctrl : Control)
    (supported : cfg.toGeometry.Supported) (map : DisjointMap cfg ctrl.zonemap)
    (start : cfg.startZone = 1) (finish : cfg.endZone = cfg.znsdev.nrZones)
    (shown : cfg.showOnlyStats = false) (fresh : ctrl.curSegment = 0) :
    (∀ counters, Reportable cfg dev ctrl counters → ∃ lines stats,
      showSegmentReport cfg dev List.length ctrl = some (.ok (lines, stats))) ∧
    ∀ (fuel : List Extent → Nat) (lines : List Line) (stats : List StatsLine),
      showSegmentReport cfg dev fuel ctrl = some (.ok (lines, stats)) →
        (OwnHeadings cfg.toGeometry ctrl.zonemap.extents lines ↔
          ∀ e ∈ ctrl.zonemap.extents,
            e.zone ≠ 0 ∧ dev (cfg.zoneSectors * e.zone.toUInt64) ≠ .openFailed) := by
  refine ⟨fun counters ready => showSegmentReport_exists ready start, ?_⟩
  intro fuel lines stats report
  obtain ⟨final, passes, run, rfl⟩ := showSegmentReport_lines report
  constructor
  · intro printed e inside
    obtain ⟨heading, listed, same⟩ := printed.zone_printed inside
    have title : .zone heading ∉ rep cfg [.equalFormatter, .title, .equalFormatter] :=
      zone_not_mem_rep (by simp)
    obtain ⟨pass, taken, own⟩ :=
      List.mem_flatMap.mp ((List.mem_append.mp listed).resolve_left title)
    rw [← same]
    exact zones_of_passes supported map start finish run pass taken heading own
  · intro opens
    obtain ⟨follows, visited⟩ :=
      showSegments_headed supported map start finish shown fresh opens run
    exact follows.ownHeadings visited shown

theorem own_headings_second_zone :
    ∃ lines stats, showSegmentReport warmConfig (fullZones warmConfig) List.length
        (oneFile 20480 8) = some (.ok (lines, stats)) ∧
      OwnHeadings warmConfig.toGeometry (oneFile 20480 8).zonemap.extents lines := by
  have ready := oneFile_reportable 20480 8 (by decide)
  have map := oneFile_disjointMap 20480 8 ready (by decide) rfl (by decide) (by decide)
  obtain ⟨ends, own⟩ := own_headings_iff warmConfig (fullZones warmConfig) (oneFile 20480 8)
    (.inl rfl) map rfl rfl rfl rfl
  obtain ⟨lines, stats, run⟩ := ends oneFileCounters ready
  exact ⟨lines, stats, run, (own List.length lines stats run).mpr (by decide)⟩

-- The file lies at the start of zone 0, in segment 0: its line stands under no heading.
theorem first_zone_unheaded :
    DisjointMap warmConfig (oneFile 8 8).zonemap ∧
      ∃ lines stats, showSegmentReport warmConfig (fullZones warmConfig) List.length
          (oneFile 8 8) = some (.ok (lines, stats)) ∧
        above ⟨none, none⟩ lines = [⟨none, none⟩] ∧
        ¬ OwnHeadings warmConfig.toGeometry (oneFile 8 8).zonemap.extents lines := by
  have ready := oneFile_reportable 8 8 (by decide)
  have map := oneFile_disjointMap 8 8 ready (by decide) rfl (by decide) (by decide)
  obtain ⟨lines, stats, run⟩ := showSegmentReport_exists ready rfl
  have evaluated : (showSegmentReport warmConfig (fullZones warmConfig) List.length
      (oneFile 8 8)).map (·.map fun shown => above ⟨none, none⟩ shown.1) =
        some (.ok [⟨none, none⟩]) := by
    decide
  rw [run] at evaluated
  have plain : above ⟨none, none⟩ lines = [⟨none, none⟩] :=
    Except.ok.inj (Option.some.inj evaluated)
  refine ⟨map, lines, stats, run, plain, fun printed => ?_⟩
  have expected := printed.own
  rw [plain] at expected
  revert expected
  decide

end ZnsTools
