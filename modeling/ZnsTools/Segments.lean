import ZnsTools.Shared.AlignDown
import ZnsTools.Types

set_option autoImplicit false

namespace ZnsTools

namespace Geometry

-- The three conversions that the reports write out wherever they need them.
def segmentStart (g : Geometry) (lba : UInt64) : UInt64 :=
  lba &&& g.f2fsSegmentMask

def segmentId (g : Geometry) (lba : UInt64) : UInt64 :=
  (lba &&& g.f2fsSegmentMask) >>> g.segmentShift.toUInt64

def segmentLba (g : Geometry) (segment : UInt64) : UInt64 :=
  segment <<< g.segmentShift.toUInt64

def Supported (g : Geometry) : Prop :=
  g = initGeometry 512 ∨ g = initGeometry 4096

def segmentSize (g : Geometry) : Nat :=
  2 ^ g.segmentShift.toNat

variable {g : Geometry}

theorem Supported.shift (supported : g.Supported) :
    g.segmentShift.toNat = 12 ∨ g.segmentShift.toNat = 9 := by
  rcases supported with rfl | rfl <;> decide

theorem Supported.size (supported : g.Supported) :
    g.segmentSize = 4096 ∨ g.segmentSize = 512 := by
  rcases supported with rfl | rfl <;> decide

theorem Supported.sectors (supported : g.Supported) :
    g.f2fsSegmentSectors.toNat = g.segmentSize := by
  rcases supported with rfl | rfl <;> decide

theorem Supported.mask (supported : g.Supported) :
    g.f2fsSegmentMask = ~~~(g.f2fsSegmentSectors - 1) := by
  rcases supported with rfl | rfl <;> decide

theorem Supported.bytes (supported : g.Supported) :
    (f2fsSegmentBytes >>> g.sectorShift).toUInt64 = g.f2fsSegmentSectors := by
  rcases supported with rfl | rfl <;> decide

theorem Supported.sectorShift (supported : g.Supported) :
    9 ≤ g.sectorShift.toNat ∧ g.sectorShift.toNat ≤ 12 := by
  rcases supported with rfl | rfl <;> decide

theorem Supported.znsShift (supported : g.Supported) :
    g.znsSectorShift.toNat = 0 ∧ g.segmentSize = 4096 ∨
      g.znsSectorShift.toNat = 3 ∧ g.segmentSize = 512 := by
  rcases supported with rfl | rfl <;> decide

theorem segmentStart_toNat (supported : g.Supported) (lba : UInt64) :
    (g.segmentStart lba).toNat = lba.toNat / g.segmentSize * g.segmentSize := by
  rw [segmentStart, supported.mask]
  exact AlignDown.and_complement_toNat _ _ _ supported.sectors

theorem segmentId_toNat (supported : g.Supported) (lba : UInt64) :
    (g.segmentId lba).toNat = lba.toNat / g.segmentSize := by
  have small : g.segmentShift.toNat < 64 := by rcases supported.shift with h | h <;> omega
  have positive : 0 < g.segmentSize := Nat.two_pow_pos _
  rw [segmentId, AlignDown.shiftRight_toNat _ _ g.segmentShift.toNat small (by simp)]
  change (g.segmentStart lba).toNat / g.segmentSize = _
  rw [segmentStart_toNat supported, Nat.mul_div_cancel _ positive]

theorem segmentLba_toNat (supported : g.Supported) (segment : UInt64)
    (fits : segment.toNat * g.segmentSize < 2 ^ 64) :
    (g.segmentLba segment).toNat = segment.toNat * g.segmentSize := by
  have small : g.segmentShift.toNat < 64 := by rcases supported.shift with h | h <;> omega
  exact AlignDown.shiftLeft_toNat _ _ _ small (by simp) fits

end Geometry

end ZnsTools
