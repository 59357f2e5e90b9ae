import ZnsTools.Shared.AlignDown
import ZnsTools.Types

set_option autoImplicit false

namespace ZnsTools

structure SuperBlock where
  logBlocksPerSeg : UInt32
  segmentCountNat : UInt32
  segmentCountMain : UInt32
  cpBlkaddr : UInt32
  natBlkaddr : UInt32
  mainBlkaddr : UInt32
  deriving DecidableEq, Repr

def blockSz : UInt32 := 4096

-- `segment_count_nat` counts each segment together with its pair.
def SuperBlock.natBlocks (sb : SuperBlock) : UInt32 :=
  (sb.segmentCountNat >>> 1) <<< sb.logBlocksPerSeg

-- What `f2fs_read_checkpoint` and, for a block position, `f2fs_get_inode_nat_entry` pass to
-- `f2fs_read_block`. The parameter has 64 bits, but both are computed from 32-bit operands.
def SuperBlock.checkpointOffset (sb : SuperBlock) : UInt64 :=
  (sb.cpBlkaddr <<< f2fsBlksizeBits).toUInt64

def SuperBlock.natOffset (sb : SuperBlock) (natBlockOffset : UInt32) : UInt64 :=
  ((sb.natBlkaddr <<< f2fsBlksizeBits) + natBlockOffset * blockSz).toUInt64

theorem blockShift_toNat (blkaddr : UInt32) :
    (blkaddr <<< f2fsBlksizeBits).toNat = blkaddr.toNat * 4096 % 2 ^ 32 := by
  rw [UInt32.toNat_shiftLeft]
  exact congrArg (· % 2 ^ 32) (Nat.shiftLeft_eq _ _)

theorem checkpointOffset_toNat (sb : SuperBlock) :
    sb.checkpointOffset.toNat = sb.cpBlkaddr.toNat * 4096 % 2 ^ 32 := by
  rw [SuperBlock.checkpointOffset, UInt32.toNat_toUInt64, blockShift_toNat]

theorem natOffset_toNat (sb : SuperBlock) (natBlockOffset : UInt32) :
    (sb.natOffset natBlockOffset).toNat =
      (sb.natBlkaddr.toNat + natBlockOffset.toNat) * 4096 % 2 ^ 32 := by
  rw [SuperBlock.natOffset, UInt32.toNat_toUInt64, UInt32.toNat_add, blockShift_toNat,
    UInt32.toNat_mul, Nat.add_mul]
  exact (Nat.add_mod _ _ _).symm

theorem wrapped_eq_iff (block : Nat) : block * 4096 % 2 ^ 32 = block * 4096 ↔ block < 2 ^ 20 := by
  omega

/-- The checkpoint and every NAT block are read at their own offsets exactly when all of them lie
in the first 4 GiB of the device. -/
theorem metadata_offsets_exact_iff (sb : SuperBlock) :
    (sb.checkpointOffset.toNat = sb.cpBlkaddr.toNat * 4096 ∧
        ∀ k, k < sb.natBlocks →
          (sb.natOffset k).toNat = (sb.natBlkaddr.toNat + k.toNat) * 4096) ↔
      sb.cpBlkaddr.toNat < 2 ^ 20 ∧
        (sb.natBlocks = 0 ∨ sb.natBlkaddr.toNat + sb.natBlocks.toNat ≤ 2 ^ 20) := by
  simp only [checkpointOffset_toNat, natOffset_toNat, wrapped_eq_iff]
  refine and_congr_right fun _ => ?_
  constructor
  · intro below
    by_cases empty : sb.natBlocks = 0
    · exact .inl empty
    · have positive : 0 < sb.natBlocks.toNat := by
        rw [← UInt32.toNat_inj] at empty
        exact Nat.pos_of_ne_zero empty
      have last : (sb.natBlocks - 1).toNat = sb.natBlocks.toNat - 1 :=
        UInt32.toNat_sub_of_le _ _ (by rw [UInt32.le_iff_toNat_le]; exact positive)
      have reached := below (sb.natBlocks - 1) (by rw [UInt32.lt_iff_toNat_lt, last]; omega)
      rw [last] at reached
      exact .inr (by omega)
  · intro fits k inside
    rw [UInt32.lt_iff_toNat_lt] at inside
    rcases fits with empty | fits
    · simp [empty] at inside
    · omega

-- A checkpoint and a NAT that start at 4 GiB are both looked for at the start of the device.
theorem metadata_offsets_wrapped :
    let sb : SuperBlock := ⟨9, 2, 1024, 0x100000, 0x100000, 0x100400⟩
    0 < sb.natBlocks ∧ sb.checkpointOffset.toNat = 0 ∧ (sb.natOffset 0).toNat = 0 ∧
      ¬ (sb.checkpointOffset.toNat = sb.cpBlkaddr.toNat * 4096 ∧
        ∀ k, k < sb.natBlocks →
          (sb.natOffset k).toNat = (sb.natBlkaddr.toNat + k.toNat) * 4096) := by
  refine ⟨by decide, by decide, by decide, ?_⟩
  rintro ⟨checkpoint, -⟩
  exact absurd checkpoint (by decide)

end ZnsTools
