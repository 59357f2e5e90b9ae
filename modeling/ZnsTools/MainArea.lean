import ZnsTools.Collection
import ZnsTools.Metadata

set_option autoImplicit false

namespace ZnsTools

-- What reading segment_info leaves behind: one entry for each segment of the main area, with its
-- own number, or no table at all.
def Describes (cfg : Config) (sb : SuperBlock) : Prop :=
  ∀ segman, cfg.fsManager = some segman →
    segman.segments.length = sb.segmentCountMain.toNat ∧
      ∀ (i : Nat) (segI : SegmentInfo), segman.segments[i]? = some segI → segI.id.toNat = i

def mainSegment (sb : SuperBlock) (fePhysical : UInt64) : Nat :=
  (fePhysical.toNat / 4096 - sb.mainBlkaddr.toNat) / 512

/-- The entry that `fs_info_initialize` finds for an extent is that of the segment of the main area
in which the extent begins. -/
structure AttachedToOwnSegment (cfg : Config) (sb : SuperBlock) (fm : FiemapExtent) : Prop where
  started : sb.mainBlkaddr.toNat ≤ fm.fePhysical.toNat / 4096
  inside : mainSegment sb fm.fePhysical < sb.segmentCountMain.toNat
  attached : ∃ segman segI, cfg.fsManager = some segman ∧
    segman.segments[mainSegment sb fm.fePhysical]? = some segI ∧
    fsInfoInitialize cfg.fsManager (cfg.segmentId (physicalBlk cfg fm)).toUInt32 = .ok segI

-- The bytes between the start of the extent and that of its segment, counted from the ZNS device.
def intoSegment (cfg : Config) (fm : FiemapExtent) : Nat :=
  (fm.fePhysical.toNat - cfg.offset.toNat) % f2fsSegmentBytes.toNat

theorem accepted_zoned {cfg : Config} {fm : FiemapExtent} (accepted : disregarded cfg fm = false) :
    cfg.offset.toNat ≤ fm.fePhysical.toNat := by
  simp only [disregarded, Bool.or_eq_false_iff, decide_eq_false_iff_not, UInt64.not_lt] at accepted
  exact UInt64.le_iff_toNat_le.mp accepted.1

theorem zonedSegment_toNat {cfg : Config} (supported : cfg.toGeometry.Supported)
    {fm : FiemapExtent} (zoned : cfg.offset.toNat ≤ fm.fePhysical.toNat) :
    (cfg.segmentId (physicalBlk cfg fm)).toUInt32.toNat =
      (fm.fePhysical.toNat - cfg.offset.toNat) / 2 ^ 21 % 2 ^ 32 := by
  have shift : cfg.sectorShift.toNat < 64 ∧ 2 ^ cfg.sectorShift.toNat * cfg.segmentSize = 2 ^ 21 := by
    rcases supported with same | same <;> rw [same] <;> decide
  rw [UInt64.toNat_toUInt32, Geometry.segmentId_toNat supported, physicalBlk,
    AlignDown.shiftRight_toNat _ _ cfg.sectorShift.toNat shift.1 (by simp),
    UInt64.toNat_sub_of_le _ _ (UInt64.le_iff_toNat_le.mpr zoned), Nat.div_div_eq_div_mul, shift.2]

theorem fsInfoInitialize_ok_iff {segman : SegmentManager} {segment : UInt32} {segI : SegmentInfo} :
    fsInfoInitialize (some segman) segment = .ok segI ↔
      segman.segments[segment.toNat]? = some segI := by
  rw [fsInfoInitialize]
  cases segman.segments[segment.toNat]? <;> simp

theorem segment_numbers_agree_iff (offset mainBlkaddr fePhysical : Nat)
    (zoned : offset ≤ fePhysical) (word : mainBlkaddr < 2 ^ 32)
    (few : (fePhysical / 4096 - mainBlkaddr) / 512 < 2 ^ 32) :
    (mainBlkaddr ≤ fePhysical / 4096 ∧
        (fePhysical - offset) / 2 ^ 21 % 2 ^ 32 = (fePhysical / 4096 - mainBlkaddr) / 512) ↔
      mainBlkaddr * 4096 ≤ offset + (fePhysical - offset) % 2 ^ 21 ∧
        offset + (fePhysical - offset) % 2 ^ 21 < mainBlkaddr * 4096 + 2 ^ 21 := by
  omega

/-- An accepted extent gets the entry of its own segment exactly when segment_info was read, the
main area begins with the ZNS device (up to the place of the extent in its segment), and the extent
begins before the main area ends. -/
theorem main_segment_attached_iff (cfg : Config) (sb : SuperBlock) (fm : FiemapExtent)
    (supported : cfg.toGeometry.Supported) (described : Describes cfg sb)
    (accepted : disregarded cfg fm = false) :
    AttachedToOwnSegment cfg sb fm ↔
      cfg.fsManager ≠ none ∧
      (sb.mainBlkaddr.toNat * 4096 ≤ cfg.offset.toNat + intoSegment cfg fm ∧
        cfg.offset.toNat + intoSegment cfg fm <
          sb.mainBlkaddr.toNat * 4096 + f2fsSegmentBytes.toNat) ∧
      fm.fePhysical.toNat <
        (sb.mainBlkaddr.toNat + sb.segmentCountMain.toNat * 512) * 4096 := by
  have zoned := accepted_zoned accepted
  have number := zonedSegment_toNat supported zoned
  have word := sb.mainBlkaddr.toNat_lt
  have table := sb.segmentCountMain.toNat_lt
  have agree := segment_numbers_agree_iff cfg.offset.toNat sb.mainBlkaddr.toNat
    fm.fePhysical.toNat zoned word
  rw [intoSegment, show f2fsSegmentBytes.toNat = 2 ^ 21 from rfl]
  constructor
  · intro ⟨started, inside, segman, segI, read, own, found⟩
    have ⟨_, numbered⟩ := described segman read
    rw [read, fsInfoInitialize_ok_iff] at found
    have same := (numbered _ _ found).symm.trans (numbered _ _ own)
    rw [mainSegment] at inside same
    rw [number] at same
    refine ⟨by simp [read], (agree (by omega)).mp ⟨started, same⟩, by omega⟩
  · intro ⟨read, near, before⟩
    have ⟨segman, some_table⟩ := Option.ne_none_iff_exists'.mp read
    have ⟨length, _⟩ := described segman some_table
    have few : mainSegment sb fm.fePhysical < sb.segmentCountMain.toNat := by
      rw [mainSegment]
      omega
    rw [mainSegment] at few
    have ⟨started, same⟩ := (agree (by omega)).mpr near
    have present := List.getElem?_eq_getElem (length ▸ few)
    refine ⟨started, few, segman, _, some_table, present, ?_⟩
    rw [some_table, fsInfoInitialize_ok_iff, number, same, present]

def twoSegmentConfig : Config :=
  segmapConfig 512 0x40000000 0x20000 2 [⟨0, .cursegHotData, 1⟩, ⟨1, .cursegColdData, 2⟩]

theorem twoSegmentConfig_described {sb : SuperBlock} (two : sb.segmentCountMain = 2) :
    Describes twoSegmentConfig sb := by
  intro segman read
  cases read
  refine ⟨by rw [two]; rfl, fun i segI found => ?_⟩
  match i, found with
  | 0, found => cases found; rfl
  | 1, found => cases found; rfl

-- The README's set-up with file data on the conventional device: the main area begins one segment
-- before the ZNS device, and the extent at the start of that device gets the entry before its own.
theorem main_area_on_conventional_device :
    let cfg := twoSegmentConfig
    let sb : SuperBlock := ⟨9, 2, 2, 512, 1024, 0x3fe00⟩
    let fm : FiemapExtent := ⟨0, 0x40000000, 4096, fiemapExtentLast⟩
    Describes cfg sb ∧ disregarded cfg fm = false ∧ mainSegment sb fm.fePhysical = 1 ∧
      fsInfoInitialize cfg.fsManager (cfg.segmentId (physicalBlk cfg fm)).toUInt32 =
        .ok ⟨0, .cursegHotData, 1⟩ ∧
      ¬ AttachedToOwnSegment cfg sb fm := by
  intro cfg sb fm
  have second : mainSegment sb fm.fePhysical = 1 := by decide
  refine ⟨twoSegmentConfig_described rfl, by decide, second, by decide, fun own => ?_⟩
  have ⟨segman, segI, read, listed, found⟩ := own.attached
  cases read
  rw [second] at listed
  cases listed
  exact absurd found (by decide)

-- The usual set-up: the main area begins with the ZNS device.
theorem main_area_on_zns_device :
    AttachedToOwnSegment twoSegmentConfig ⟨9, 2, 2, 512, 1024, 0x40000⟩
      ⟨0, 0x40200000, 4096, fiemapExtentLast⟩ :=
  (main_segment_attached_iff twoSegmentConfig _ _ (.inl rfl) (twoSegmentConfig_described rfl)
    (by decide)).mpr ⟨by decide, by decide, by decide⟩

end ZnsTools
