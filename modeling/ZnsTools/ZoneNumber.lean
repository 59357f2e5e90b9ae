import ZnsTools.Shared.AlignDown
import ZnsTools.Types

set_option autoImplicit false

namespace ZnsTools

-- The kernel counts a zone in 512 B sectors.
def getZoneSize (znsSectorShift : UInt32) (sectors : UInt64) : UInt64 :=
  sectors >>> znsSectorShift.toUInt64

-- Zone size in the 512 B sectors that the kernel reports in.
def Config.zoneSectors (cfg : Config) : UInt64 :=
  cfg.znsdev.zoneSize <<< cfg.znsSectorShift.toUInt64

def getZoneNumber (cfg : Config) (lba : UInt64) : Except Abort UInt32 :=
  let zoneMask : UInt32 := (~~~(cfg.zoneSectors - 1)).toUInt32
  let slba := lba &&& zoneMask.toUInt64
  if cfg.zoneSectors = 0 then .error .divideByZero
  else .ok (slba / cfg.zoneSectors).toUInt32

theorem getZoneNumber_value (cfg : Config) (lba : UInt64) (bits : Nat)
    (power : cfg.zoneSectors.toNat = 2 ^ bits) :
    ∃ zone, getZoneNumber cfg lba = .ok zone ∧ zone.toNat = lba.toNat % 2 ^ 32 / 2 ^ bits := by
  have nonzero : cfg.zoneSectors ≠ 0 := by
    intro zero
    have := Nat.two_pow_pos bits
    simp [zero, ← power] at this
  refine ⟨_, by rw [getZoneNumber, if_neg nonzero], ?_⟩
  have small : lba.toNat % 2 ^ 32 / 2 ^ bits < 2 ^ 32 :=
    Nat.lt_of_le_of_lt (Nat.div_le_self _ _) (Nat.mod_lt _ (by decide))
  rw [UInt64.toNat_toUInt32, UInt64.toNat_div,
    AlignDown.and_narrow_complement_toNat _ _ _ power, power,
    Nat.mul_div_cancel _ (Nat.two_pow_pos bits), Nat.mod_eq_of_lt small]

theorem getZoneNumber_ok (cfg : Config) (lba : UInt64) (zone : UInt32) (bits : Nat)
    (power : cfg.zoneSectors.toNat = 2 ^ bits) (result : getZoneNumber cfg lba = .ok zone) :
    zone.toNat = lba.toNat % 2 ^ 32 / 2 ^ bits := by
  obtain ⟨value, computed, exact⟩ := getZoneNumber_value cfg lba bits power
  rw [computed] at result
  cases result
  exact exact

end ZnsTools
