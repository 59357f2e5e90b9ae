import ZnsTools.Collection
import ZnsTools.ExtentSpan

set_option autoImplicit false

namespace ZnsTools

def Config.tableEntry (cfg : Config) (segment : Nat) : Option SegmentInfo :=
  cfg.fsManager.bind fun segman => segman.segments[segment]?

def Config.segmentType (cfg : Config) (segment : Nat) : Option SegmentType :=
  (cfg.tableEntry segment).map (·.type)

-- F2FS addresses blocks of 4 KiB with 32 bits.
def BlockAddressed (cfg : Config) (e : Extent) : Prop :=
  e.stop * 2 ^ cfg.sectorShift.toNat ≤ 2 ^ 44

instance (cfg : Config) (e : Extent) : Decidable (BlockAddressed cfg e) :=
  inferInstanceAs (Decidable (_ ≤ _))

section Addressed

variable {cfg : Config} {e : Extent}

theorem segmentBytes (supported : cfg.toGeometry.Supported) :
    cfg.segmentSize * 2 ^ cfg.sectorShift.toNat = 2 ^ 21 := by
  have shifts : cfg.toGeometry = initGeometry 512 ∨ cfg.toGeometry = initGeometry 4096 := supported
  rcases shifts with same | same <;> rw [same] <;> decide

theorem last_small (supported : cfg.toGeometry.Supported) (addressed : BlockAddressed cfg e) :
    e.last cfg.toGeometry ≤ 2 ^ 23 := by
  have bytes := segmentBytes supported
  have below := Nat.mul_le_mul_right (2 ^ cfg.sectorShift.toNat)
    (Extent.last_mul_le cfg.toGeometry e)
  rw [Nat.mul_assoc, bytes] at below
  rw [BlockAddressed] at addressed
  omega

theorem Collected.tabled (collected : Collected cfg e) (supported : cfg.toGeometry.Supported)
    (addressed : BlockAddressed cfg e) (informed : 0 < cfg.fsInfoBytes) :
    e.fsInfo = cfg.tableEntry (e.phyBlk.toNat / cfg.segmentSize) ∧ e.fsInfo ≠ none := by
  obtain ⟨segI, found, looked⟩ := collected.fsInfo informed
  have small : e.phyBlk.toNat / cfg.segmentSize < 2 ^ 32 := by
    have ordered := Extent.first_le_last cfg.toGeometry e
    have bound := last_small supported addressed
    change e.first cfg.toGeometry < _
    omega
  have id : (cfg.segmentId e.phyBlk).toUInt32.toNat = e.phyBlk.toNat / cfg.segmentSize := by
    rw [UInt64.toNat_toUInt32, Geometry.segmentId_toNat supported, Nat.mod_eq_of_lt small]
  rw [fsInfoInitialize.eq_def] at looked
  split at looked
  · cases looked
  · next segman manager =>
    split at looked
    · cases looked
    · next other present =>
      cases looked
      rw [found, Config.tableEntry, manager, Option.bind_some, ← id]
      exact ⟨present.symm, by simp⟩

end Addressed

theorem collected_tabled {cfg : Config} {events : List Event} (supported : cfg.toGeometry.Supported)
    (informed : 0 < cfg.fsInfoBytes)
    (addressed : ∀ e ∈ (collected cfg events).zonemap.extents, BlockAddressed cfg e) :
    ∀ e ∈ (collected cfg events).zonemap.extents,
      e.fsInfo = cfg.tableEntry (e.phyBlk.toNat / cfg.segmentSize) := by
  intro e inside
  have small := addressed e inside
  rw [collected.eq_def] at inside
  cases run : collect cfg events with
  | error abort => simp [run, initControl, initZoneMap, ZoneMap.extents] at inside
  | ok m =>
    simp only [run] at inside
    exact ((collect_collected run e inside).tabled supported small informed).1

end ZnsTools
