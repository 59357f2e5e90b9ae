import ZnsTools.Segments

set_option autoImplicit false

namespace ZnsTools

def Extent.endSegment (g : Geometry) (extent : Extent) : UInt64 :=
  g.segmentId (extent.phyBlk + extent.len)

def Extent.inOneSegment (g : Geometry) (extent : Extent) : Bool :=
  let segmentStart := g.segmentStart extent.phyBlk
  let extentEnd := extent.phyBlk + extent.len
  segmentStart == g.segmentStart extentEnd ||
    extentEnd == segmentStart + (f2fsSegmentBytes >>> g.sectorShift).toUInt64

-- The first of the segments that the second part of an extent's split is about.
def Extent.middleSegment (g : Geometry) (extent : Extent) : UInt64 :=
  if extent.phyBlk = g.segmentStart extent.phyBlk then g.segmentId extent.phyBlk
  else g.segmentId extent.phyBlk + 1

namespace Extent

-- The segments of the first sector and of the sector after the last one, as numbers.
def first (g : Geometry) (e : Extent) : Nat :=
  e.phyBlk.toNat / g.segmentSize

def stop (e : Extent) : Nat :=
  e.phyBlk.toNat + e.len.toNat

def last (g : Geometry) (e : Extent) : Nat :=
  e.stop / g.segmentSize

end Extent

theorem Geometry.segmentLba_segmentId {g : Geometry} (supported : g.Supported) (lba : UInt64) :
    (g.segmentLba (g.segmentId lba)).toNat = lba.toNat / g.segmentSize * g.segmentSize := by
  have below : lba.toNat / g.segmentSize * g.segmentSize < 2 ^ 64 :=
    Nat.lt_of_le_of_lt (Nat.div_mul_le_self _ _) lba.toNat_lt
  have id := segmentId_toNat supported lba
  rw [segmentLba_toNat supported _ (by rw [id]; exact below), id]

namespace Extent

variable {g : Geometry} {e : Extent}

theorem stop_toNat (addressed : e.stop < 2 ^ 56) : (e.phyBlk + e.len).toNat = e.stop := by
  rw [UInt64.toNat_add, Nat.mod_eq_of_lt (by rw [stop] at addressed; omega)]
  rfl

theorem first_le_last (g : Geometry) (e : Extent) : e.first g ≤ e.last g :=
  Nat.div_le_div_right (Nat.le_add_right _ _)

theorem first_mul_le (g : Geometry) (e : Extent) : e.first g * g.segmentSize ≤ e.phyBlk.toNat :=
  Nat.div_mul_le_self _ _

theorem last_mul_le (g : Geometry) (e : Extent) : e.last g * g.segmentSize ≤ e.stop :=
  Nat.div_mul_le_self _ _

theorem lt_first_succ_mul (g : Geometry) (e : Extent) :
    e.phyBlk.toNat < (e.first g + 1) * g.segmentSize := by
  rw [Nat.mul_comm]
  exact Nat.lt_mul_div_succ _ (Nat.two_pow_pos _)

theorem lt_last_succ_mul (g : Geometry) (e : Extent) :
    e.stop < (e.last g + 1) * g.segmentSize := by
  rw [Nat.mul_comm]
  exact Nat.lt_mul_div_succ _ (Nat.two_pow_pos _)

theorem endSegment_toNat (supported : g.Supported) (addressed : e.stop < 2 ^ 56) :
    (e.endSegment g).toNat = e.last g := by
  rw [endSegment, Geometry.segmentId_toNat supported, stop_toNat addressed]
  rfl

theorem numSegments_toNat (supported : g.Supported) (addressed : e.stop < 2 ^ 56) :
    (e.endSegment g - g.segmentId e.phyBlk + 1).toUInt32.toNat =
      (e.last g - e.first g + 1) % 2 ^ 32 := by
  have ordered := first_le_last g e
  have start : (g.segmentId e.phyBlk).toNat = e.first g :=
    Geometry.segmentId_toNat supported e.phyBlk
  have finish := endSegment_toNat supported addressed
  have span : (e.endSegment g - g.segmentId e.phyBlk).toNat = e.last g - e.first g := by
    rw [UInt64.toNat_sub_of_le _ _ (by rw [UInt64.le_iff_toNat_le, start, finish]; exact ordered),
      start, finish]
  rw [UInt64.toNat_toUInt32, UInt64.toNat_add, span, UInt64.toNat_one]
  omega

theorem segmentStart_stop (supported : g.Supported) (addressed : e.stop < 2 ^ 56) :
    (g.segmentStart (e.phyBlk + e.len)).toNat = e.last g * g.segmentSize := by
  rw [Geometry.segmentStart_toNat supported, stop_toNat addressed]
  rfl

theorem aligned_iff (supported : g.Supported) (e : Extent) :
    e.phyBlk = g.segmentStart e.phyBlk ↔ e.phyBlk.toNat = e.first g * g.segmentSize := by
  rw [← UInt64.toNat_inj, Geometry.segmentStart_toNat supported, first]

theorem filled_iff (supported : g.Supported) (addressed : e.stop < 2 ^ 56) :
    g.segmentStart (e.phyBlk + e.len) = e.phyBlk + e.len ↔ e.last g * g.segmentSize = e.stop := by
  rw [← UInt64.toNat_inj, segmentStart_stop supported addressed, stop_toNat addressed]

theorem span_toNat (supported : g.Supported) (addressed : e.stop < 2 ^ 56) :
    ((g.segmentStart (e.phyBlk + e.len) - g.segmentStart e.phyBlk) >>>
      g.segmentShift.toUInt64).toNat = e.last g - e.first g := by
  have small : g.segmentShift.toNat < 64 := by rcases supported.shift with h | h <;> omega
  have ordered : g.segmentStart e.phyBlk ≤ g.segmentStart (e.phyBlk + e.len) := by
    rw [UInt64.le_iff_toNat_le, segmentStart_stop supported addressed,
      Geometry.segmentStart_toNat supported]
    exact Nat.mul_le_mul_right _ (first_le_last g e)
  rw [AlignDown.shiftRight_toNat _ _ g.segmentShift.toNat small (by simp),
    UInt64.toNat_sub_of_le _ _ ordered, segmentStart_stop supported addressed,
    Geometry.segmentStart_toNat supported, ← Nat.sub_mul]
  exact Nat.mul_div_cancel _ (Nat.two_pow_pos _)

theorem one_lt_span_iff (supported : g.Supported) (addressed : e.stop < 2 ^ 56) :
    1 < (g.segmentStart (e.phyBlk + e.len) - g.segmentStart e.phyBlk) >>>
      g.segmentShift.toUInt64 ↔ ¬ e.last g ≤ e.first g + 1 := by
  rw [UInt64.lt_iff_toNat_lt, span_toNat supported addressed, UInt64.toNat_one]
  omega

theorem middleSegment_toNat (supported : g.Supported) (addressed : e.stop < 2 ^ 56) :
    (e.middleSegment g).toNat =
      if e.phyBlk.toNat = e.first g * g.segmentSize then e.first g else e.first g + 1 := by
  have id : (g.segmentId e.phyBlk).toNat = e.first g := Geometry.segmentId_toNat supported e.phyBlk
  have below := first_mul_le g e
  have small : e.first g + 1 < 2 ^ 64 := by
    rw [stop] at addressed
    rcases supported.size with h | h <;> rw [h] at below <;> omega
  by_cases aligned : e.phyBlk = g.segmentStart e.phyBlk
  · rw [middleSegment, if_pos aligned, if_pos ((aligned_iff supported e).mp aligned), id]
  · rw [middleSegment, if_neg aligned, if_neg fun same => aligned ((aligned_iff supported e).mpr same),
      UInt64.toNat_add, id, UInt64.toNat_one, Nat.mod_eq_of_lt small]

theorem middleSegment_le (supported : g.Supported) (addressed : e.stop < 2 ^ 56) :
    (e.middleSegment g).toNat ≤ e.first g + 1 := by
  rw [middleSegment_toNat supported addressed]
  split
  · exact Nat.le_succ _
  · exact Nat.le_refl _

theorem firstEnd_toNat (supported : g.Supported) (addressed : e.stop < 2 ^ 56) :
    (g.segmentStart e.phyBlk + g.f2fsSegmentSectors).toNat = (e.first g + 1) * g.segmentSize := by
  have below := first_mul_le g e
  rw [UInt64.toNat_add, Geometry.segmentStart_toNat supported, supported.sectors, Nat.add_mul,
    Nat.one_mul, Nat.mod_eq_of_lt]
  · rfl
  · change e.first g * g.segmentSize + _ < _
    rw [stop] at addressed
    rcases supported.size with h | h <;> omega

theorem endLba_toNat (supported : g.Supported) (addressed : e.stop < 2 ^ 56) :
    (g.segmentLba (e.endSegment g)).toNat = e.last g * g.segmentSize := by
  rw [endSegment, Geometry.segmentLba_segmentId supported, stop_toNat addressed]
  rfl

theorem inOneSegment_iff (supported : g.Supported) (addressed : e.stop < 2 ^ 56) :
    e.inOneSegment g = true ↔
      e.first g = e.last g ∨ e.stop = (e.first g + 1) * g.segmentSize := by
  have positive : 0 < g.segmentSize := Nat.two_pow_pos _
  rw [inOneSegment, supported.bytes, Bool.or_eq_true, beq_iff_eq, beq_iff_eq,
    ← UInt64.toNat_inj, ← UInt64.toNat_inj, segmentStart_stop supported addressed,
    Geometry.segmentStart_toNat supported, stop_toNat addressed,
    firstEnd_toNat supported addressed]
  change e.first g * _ = _ ∨ _ ↔ _
  rw [Nat.mul_left_inj (Nat.ne_of_gt positive)]

theorem last_le_of_inOneSegment (supported : g.Supported) (addressed : e.stop < 2 ^ 56)
    (one : e.inOneSegment g = true) : e.last g ≤ e.first g + 1 := by
  rcases (inOneSegment_iff supported addressed).mp one with same | full
  · omega
  · have below := last_mul_le g e
    rw [full] at below
    exact Nat.le_of_mul_le_mul_right below (Nat.two_pow_pos _)

end Extent

end ZnsTools
