import ZnsTools.ZoneAgreement

set_option autoImplicit false

namespace ZnsTools

structure F2fsIoInfo where
  ino : UInt32
  newBlkaddr : UInt32
  temp : Int32
  type : Int32

-- The value under (nsecs, pid, tid, ino); `zoneSize` is `$1`.
structure PageWrite where
  newBlkaddr : UInt64
  zone : UInt64
  temp : Int32
  type : Int32
  deriving DecidableEq

def f2fsSubmitPageWrite (zoneSize : UInt64) (fio : F2fsIoInfo) : PageWrite :=
  let zoneMask := ~~~(zoneSize - 1)
  let zlbas := fio.newBlkaddr.toUInt64 &&& zoneMask
  ⟨fio.newBlkaddr.toUInt64, zlbas / zoneSize, fio.temp, fio.type⟩

def Geometry.blockLbas (g : Geometry) : Nat :=
  4096 / 2 ^ g.sectorShift.toNat

def Config.conventionalLbas (cfg : Config) : Nat :=
  (cfg.offset.toNat + 2 ^ cfg.sectorShift.toNat - 1) / 2 ^ cfg.sectorShift.toNat

def Config.deviceLba (cfg : Config) (blkaddr : Nat) : Nat :=
  cfg.blockLbas * blkaddr - cfg.conventionalLbas

-- LBAs that a mask of 32 bits over 512 B sectors tells apart.
def Geometry.maskedLbas (g : Geometry) : Nat :=
  2 ^ (32 - g.znsSectorShift.toNat)

/-- The LBAs in front of the device and those that the mask drops make up, but for less than a
zone, what the count of LBAs exceeds the count of blocks by. -/
def Config.SkewedInside (cfg : Config) (blkaddr : Nat) : Prop :=
  let dropped := cfg.deviceLba blkaddr / cfg.maskedLbas * cfg.maskedLbas
  let skew := (cfg.blockLbas - 1) * blkaddr + blkaddr % cfg.znsdev.zoneSize.toNat
  cfg.conventionalLbas + dropped ≤ skew ∧
    skew < cfg.conventionalLbas + dropped + cfg.znsdev.zoneSize.toNat

section Zone

variable {cfg : Config} {fm : FiemapExtent} {fio : F2fsIoInfo} {bits : Nat}

theorem fePhysical_toNat (placed : fm.fePhysical = fio.newBlkaddr.toUInt64 * 4096) :
    fm.fePhysical.toNat = fio.newBlkaddr.toNat * 4096 := by
  have small := fio.newBlkaddr.toNat_lt
  have page : (4096 : UInt64).toNat = 4096 := rfl
  rw [placed, UInt64.toNat_mul, UInt32.toNat_toUInt64, page, Nat.mod_eq_of_lt (by omega)]

theorem conventionalLbas_cases (supported : cfg.toGeometry.Supported) :
    (cfg.sectorShift.toNat = 9 ∧ cfg.blockLbas = 8 ∧
        cfg.conventionalLbas = (cfg.offset.toNat + 511) / 512) ∨
      cfg.sectorShift.toNat = 12 ∧ cfg.blockLbas = 1 ∧
        cfg.conventionalLbas = (cfg.offset.toNat + 4095) / 4096 := by
  rcases supported with same | same
  · have own : cfg.sectorShift.toNat = 9 := by rw [same]; rfl
    exact .inl ⟨own, by rw [Geometry.blockLbas, own]; rfl,
      by rw [Config.conventionalLbas, own]; rfl⟩
  · have own : cfg.sectorShift.toNat = 12 := by rw [same]; rfl
    exact .inr ⟨own, by rw [Geometry.blockLbas, own]; rfl,
      by rw [Config.conventionalLbas, own]; rfl⟩

theorem physicalBlk_toNat (supported : cfg.toGeometry.Supported)
    (placed : fm.fePhysical = fio.newBlkaddr.toUInt64 * 4096)
    (landed : cfg.offset ≤ fm.fePhysical) :
    (physicalBlk cfg fm).toNat = cfg.deviceLba fio.newBlkaddr.toNat := by
  have least := UInt64.le_iff_toNat_le.mp landed
  have shift : cfg.sectorShift.toNat < 64 := by
    have := supported.sectorShift
    omega
  rw [physicalBlk, AlignDown.shiftRight_toNat _ _ cfg.sectorShift.toNat shift (by simp),
    UInt64.toNat_sub_of_le _ _ landed, Config.deviceLba]
  rw [fePhysical_toNat placed] at least ⊢
  rcases conventionalLbas_cases supported with ⟨own, lbas, front⟩ | ⟨own, lbas, front⟩
  · rw [own, lbas, front]
    omega
  · rw [own, lbas, front]
    omega

theorem f2fsSubmitPageWrite_zone (power : cfg.znsdev.zoneSize.toNat = 2 ^ bits) :
    (f2fsSubmitPageWrite cfg.znsdev.zoneSize fio).zone.toNat = fio.newBlkaddr.toNat / 2 ^ bits := by
  rw [f2fsSubmitPageWrite]
  dsimp only
  rw [UInt64.toNat_div, AlignDown.and_complement_toNat _ _ _ power, power,
    Nat.mul_div_cancel _ (Nat.two_pow_pos bits), UInt32.toNat_toUInt64]

theorem extentZone_value (device : ZonedDevice cfg bits)
    (placed : fm.fePhysical = fio.newBlkaddr.toUInt64 * 4096)
    (landed : cfg.offset ≤ fm.fePhysical) :
    ∃ zone, getZoneNumber cfg (physicalBlk cfg fm <<< cfg.znsSectorShift.toUInt64) = .ok zone ∧
      zone.toNat = cfg.deviceLba fio.newBlkaddr.toNat % cfg.maskedLbas / 2 ^ bits := by
  have small := fio.newBlkaddr.toNat_lt
  have shift := device.shift_small
  have least : 2 ^ cfg.znsSectorShift.toNat ≤ 2 ^ 3 := Nat.pow_le_pow_right (by decide) shift
  have below : cfg.deviceLba fio.newBlkaddr.toNat ≤ 8 * fio.newBlkaddr.toNat := by
    have lbas : cfg.blockLbas ≤ 8 := by
      rcases device.supported with same | same <;> rw [same] <;> decide
    exact Nat.le_trans (Nat.sub_le _ _) (Nat.mul_le_mul_right _ lbas)
  have address : (physicalBlk cfg fm <<< cfg.znsSectorShift.toUInt64).toNat =
      cfg.deviceLba fio.newBlkaddr.toNat * 2 ^ cfg.znsSectorShift.toNat := by
    rw [AlignDown.shiftLeft_toNat _ _ cfg.znsSectorShift.toNat (by omega) (by simp),
      physicalBlk_toNat device.supported placed landed]
    rw [physicalBlk_toNat device.supported placed landed]
    have product := Nat.mul_le_mul below least
    omega
  obtain ⟨zone, numbered, value⟩ := getZoneNumber_value cfg
    (physicalBlk cfg fm <<< cfg.znsSectorShift.toUInt64) _ device.zoneSectors_toNat
  refine ⟨zone, numbered, ?_⟩
  have mask : 2 ^ 32 = cfg.maskedLbas * 2 ^ cfg.znsSectorShift.toNat := by
    rw [Geometry.maskedLbas, ← Nat.pow_add]
    congr 1
    omega
  rw [value, address, mask, Nat.mul_mod_mul_right, Nat.pow_add,
    Nat.mul_div_mul_right _ _ (Nat.two_pow_pos _)]

/-- The zone that the probe records is that of the extent exactly when what is in front of the
device, and what the mask drops, makes up for the difference of the units. -/
theorem recorded_zone_iff (cfg : Config) (fm : FiemapExtent) (fio : F2fsIoInfo) (bits : Nat)
    (device : ZonedDevice cfg bits)
    (placed : fm.fePhysical = fio.newBlkaddr.toUInt64 * 4096)
    (landed : cfg.offset ≤ fm.fePhysical) :
    (∃ zone, getZoneNumber cfg (physicalBlk cfg fm <<< cfg.znsSectorShift.toUInt64) = .ok zone ∧
        (f2fsSubmitPageWrite cfg.znsdev.zoneSize fio).zone.toNat = zone.toNat) ↔
      cfg.SkewedInside fio.newBlkaddr.toNat := by
  obtain ⟨zone, numbered, value⟩ := extentZone_value device placed landed
  have least := UInt64.le_iff_toNat_le.mp landed
  rw [fePhysical_toNat placed] at least
  have window : cfg.deviceLba fio.newBlkaddr.toNat % cfg.maskedLbas / 2 ^ bits =
      fio.newBlkaddr.toNat / 2 ^ bits ↔ cfg.SkewedInside fio.newBlkaddr.toNat := by
    have dropped := Nat.div_add_mod' (cfg.deviceLba fio.newBlkaddr.toNat) cfg.maskedLbas
    have block := Nat.div_add_mod' fio.newBlkaddr.toNat (2 ^ bits)
    rw [← AlignDown.in_block_iff _ _ _ (Nat.two_pow_pos bits), Config.SkewedInside, device.power,
      Nat.add_mul, Nat.one_mul]
    rw [Config.deviceLba] at dropped ⊢
    rcases conventionalLbas_cases device.supported with ⟨-, lbas, front⟩ | ⟨-, lbas, front⟩
    · rw [lbas] at dropped ⊢
      omega
    · rw [lbas] at dropped ⊢
      omega
  constructor
  · rintro ⟨other, same, equal⟩
    rw [numbered] at same
    cases same
    rw [f2fsSubmitPageWrite_zone device.power, value] at equal
    exact window.mp equal.symm
  · intro inside
    refine ⟨zone, numbered, ?_⟩
    rw [f2fsSubmitPageWrite_zone device.power, value]
    exact (window.mpr inside).symm

-- 100 MiB of conventional space and zones of 1 GiB: the blocks behind them stay in their zone.
theorem recorded_zone_near_start :
    let cfg := segmapConfig 4096 104857600 262144 16 []
    ∃ zone, getZoneNumber cfg (physicalBlk cfg ⟨0, 300000 * 4096, 4096, 0⟩ <<<
        cfg.znsSectorShift.toUInt64) = .ok zone ∧
      (f2fsSubmitPageWrite cfg.znsdev.zoneSize ⟨7, 300000, 0, 0⟩).zone.toNat = zone.toNat :=
  (recorded_zone_iff (segmapConfig 4096 104857600 262144 16 [])
    ⟨0, 300000 * 4096, 4096, 0⟩ ⟨7, 300000, 0, 0⟩ 18 ⟨.inr rfl, by decide, 2 ^ 21, by decide⟩
    (by decide) (by decide)).mpr (by unfold Config.SkewedInside; decide)

-- The first block of the ZNS device behind 1 GiB of conventional space.
theorem conventional_device_counted :
    let cfg := segmapConfig 4096 1073741824 4096 16 []
    let blkaddr : UInt32 := 262144
    let fm : FiemapExtent := ⟨0, blkaddr.toUInt64 * 4096, 4096, 0⟩
    cfg.offset ≤ fm.fePhysical ∧
      getZoneNumber cfg (physicalBlk cfg fm <<< cfg.znsSectorShift.toUInt64) = .ok 0 ∧
      (f2fsSubmitPageWrite cfg.znsdev.zoneSize ⟨7, blkaddr, 0, 0⟩).zone = 64 := by
  decide

-- With sectors of 512 B the units differ, too: zone 32 of a device with nothing in front of it.
example :
    let cfg := segmapConfig 512 0 4096 64 []
    let blkaddr : UInt32 := 16384
    let fm : FiemapExtent := ⟨0, blkaddr.toUInt64 * 4096, 4096, 0⟩
    getZoneNumber cfg (physicalBlk cfg fm <<< cfg.znsSectorShift.toUInt64) = .ok 32 ∧
      (f2fsSubmitPageWrite cfg.znsdev.zoneSize ⟨7, blkaddr, 0, 0⟩).zone = 4 := by
  decide

end Zone

end ZnsTools
