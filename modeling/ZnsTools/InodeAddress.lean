import ZnsTools.Metadata
import ZnsTools.Segments

set_option autoImplicit false

namespace ZnsTools

def f2fsSecsPerBlock : UInt64 := 9

-- Where `f2fs_get_node_block` reads the node, on the ZNS device.
def nodeOffset (blockAddr : UInt32) : UInt64 :=
  (blockAddr <<< f2fsBlksizeBits).toUInt64

-- The first and the last address of the `INODE` line of zns.imap.
def inodePbas (g : Geometry) (blockAddr : UInt32) : UInt64 :=
  ((blockAddr <<< f2fsBlksizeBits) >>> g.sectorShift).toUInt64

def inodePbae (g : Geometry) (blockAddr : UInt32) : UInt64 :=
  inodePbas g blockAddr + f2fsSecsPerBlock

/-- The node is read, and its sectors are printed, at its address on the ZNS device: that in the
file system less the size of the conventional device. -/
structure ZnsRelative (g : Geometry) (offset : UInt64) (blockAddr : UInt32) : Prop where
  read : (nodeOffset blockAddr).toNat = blockAddr.toNat * 4096 - offset.toNat
  pbas : (inodePbas g blockAddr).toNat =
    (blockAddr.toNat * 4096 - offset.toNat) / g.sectorSize.toNat
  pbae : (inodePbae g blockAddr).toNat =
    (blockAddr.toNat * 4096 - offset.toNat) / g.sectorSize.toNat + 4096 / g.sectorSize.toNat

theorem nodeOffset_toNat (blockAddr : UInt32) :
    (nodeOffset blockAddr).toNat = blockAddr.toNat * 4096 % 2 ^ 32 := by
  rw [nodeOffset, UInt32.toNat_toUInt64, blockShift_toNat]

theorem inodePbae_toNat (g : Geometry) (blockAddr : UInt32) :
    (inodePbae g blockAddr).toNat = (inodePbas g blockAddr).toNat + 9 := by
  have small := ((blockAddr <<< f2fsBlksizeBits) >>> g.sectorShift).toNat_lt
  rw [inodePbae, UInt64.toNat_add, inodePbas, UInt32.toNat_toUInt64]
  exact Nat.mod_eq_of_lt (by change _ + 9 < _; omega)

theorem nodeOffset_relative_iff (offset : UInt64) (blockAddr : UInt32)
    (zoned : offset.toNat ≤ blockAddr.toNat * 4096) :
    (nodeOffset blockAddr).toNat = blockAddr.toNat * 4096 - offset.toNat ↔
      offset.toNat = blockAddr.toNat / 2 ^ 20 * 2 ^ 32 := by
  rw [nodeOffset_toNat]
  omega

/-- No block past the conventional device gets its ZNS-relative address everywhere: where the node
happens to be read from its own place, the printed range still ends behind the block. -/
theorem inode_address_never_relative (g : Geometry) (supported : g.Supported) (offset : UInt64)
    (blockAddr : UInt32) (zoned : offset.toNat ≤ blockAddr.toNat * 4096) :
    ¬ ZnsRelative g offset blockAddr ∧
      ((nodeOffset blockAddr).toNat = blockAddr.toNat * 4096 - offset.toNat ↔
        offset.toNat = blockAddr.toNat / 2 ^ 20 * 2 ^ 32) := by
  refine ⟨fun relative => ?_, nodeOffset_relative_iff offset blockAddr zoned⟩
  have pbae := relative.pbae
  rw [inodePbae_toNat, relative.pbas] at pbae
  have sectors : 4096 / g.sectorSize.toNat = 8 ∨ 4096 / g.sectorSize.toNat = 1 := by
    rcases supported with rfl | rfl <;> decide
  omega

-- On a set-up with 1 GiB of conventional device the node 2 MiB into the ZNS device is read, and
-- printed, 1 GiB too far.
theorem node_read_past_its_place :
    let g := initGeometry 512
    let offset : UInt64 := 0x40000000
    let blockAddr : UInt32 := 0x40200
    offset.toNat ≤ blockAddr.toNat * 4096 ∧ blockAddr.toNat * 4096 - offset.toNat = 0x200000 ∧
      nodeOffset blockAddr = 0x40200000 ∧ inodePbas g blockAddr = 0x201000 ∧
      ¬ ZnsRelative g offset blockAddr := by
  refine ⟨by decide, by decide, by decide, by decide, fun relative => ?_⟩
  exact absurd relative.read (by decide)

-- With 4 GiB of conventional device the wrap makes up for it, but the range is a sector too long.
theorem node_range_too_long :
    ¬ ZnsRelative (initGeometry 512) 0x100000000 0x100200 ∧
      ((nodeOffset 0x100200).toNat = (0x100200 : UInt32).toNat * 4096 - (0x100000000 : UInt64).toNat ↔
        (0x100000000 : UInt64).toNat = (0x100200 : UInt32).toNat / 2 ^ 20 * 2 ^ 32) :=
  inode_address_never_relative (initGeometry 512) (.inl rfl) 0x100000000 0x100200 (by decide)

end ZnsTools
