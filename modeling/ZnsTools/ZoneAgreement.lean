import ZnsTools.SegmentReport

set_option autoImplicit false

namespace ZnsTools

-- `main` of zns.imap passes on the inode's LBA in device sectors.
def imapZoneNumber (cfg : Config) (lba : UInt64) : Except Abort UInt32 :=
  getZoneNumber cfg lba

-- A device on which the masks make sense: its zones have a power of two sectors.
structure ZonedDevice (cfg : Config) (bits : Nat) : Prop where
  supported : cfg.toGeometry.Supported
  power : cfg.znsdev.zoneSize.toNat = 2 ^ bits
  reported : ∃ sectors, cfg.znsdev.zoneSize = getZoneSize cfg.znsSectorShift sectors

namespace ZonedDevice

variable {cfg : Config} {bits : Nat}

theorem shift_small (device : ZonedDevice cfg bits) : cfg.znsSectorShift.toNat ≤ 3 := by
  rcases device.supported.znsShift with ⟨h, -⟩ | ⟨h, -⟩ <;> omega

theorem fits (device : ZonedDevice cfg bits) : 2 ^ (bits + cfg.znsSectorShift.toNat) < 2 ^ 64 := by
  obtain ⟨sectors, reported⟩ := device.reported
  have small := device.shift_small
  have shifted : 2 ^ bits = sectors.toNat / 2 ^ cfg.znsSectorShift.toNat := by
    rw [← device.power, reported, getZoneSize,
      AlignDown.shiftRight_toNat _ _ cfg.znsSectorShift.toNat (by omega) (by simp)]
  rw [Nat.pow_add, shifted]
  exact Nat.lt_of_le_of_lt (Nat.div_mul_le_self _ _) sectors.toNat_lt

theorem zoneSectors_toNat (device : ZonedDevice cfg bits) :
    cfg.zoneSectors.toNat = 2 ^ (bits + cfg.znsSectorShift.toNat) := by
  have small := device.shift_small
  have fits := device.fits
  rw [Nat.pow_add] at fits ⊢
  rw [Config.zoneSectors, AlignDown.shiftLeft_toNat _ _ cfg.znsSectorShift.toNat (by omega) (by simp),
    device.power]
  rw [device.power]
  exact fits

end ZonedDevice

namespace Collected

variable {cfg : Config} {e : Extent}

theorem lba_toNat {bits : Nat} (collected : Collected cfg e) (device : ZonedDevice cfg bits) :
    (e.phyBlk <<< cfg.znsSectorShift.toUInt64).toNat =
      e.phyBlk.toNat * 2 ^ cfg.znsSectorShift.toNat := by
  have small := collected.phyBlk_small device.supported
  have shift := device.shift_small
  have wide : 2 ^ cfg.znsSectorShift.toNat ≤ 2 ^ 3 := Nat.pow_le_pow_right (by decide) shift
  refine AlignDown.shiftLeft_toNat _ _ _ (by omega) (by simp) ?_
  calc e.phyBlk.toNat * 2 ^ cfg.znsSectorShift.toNat
      ≤ e.phyBlk.toNat * 2 ^ 3 := Nat.mul_le_mul_left _ wide
    _ < 2 ^ 64 := by omega

theorem zone_toNat {bits : Nat} (collected : Collected cfg e) (device : ZonedDevice cfg bits) :
    e.zone.toNat = e.phyBlk.toNat * 2 ^ cfg.znsSectorShift.toNat % 2 ^ 32 /
      2 ^ (bits + cfg.znsSectorShift.toNat) := by
  rw [getZoneNumber_ok cfg _ _ _ device.zoneSectors_toNat collected.zone,
    collected.lba_toNat device]

end Collected

theorem getZoneNumber_exact_iff {cfg : Config} {bits : Nat} (device : ZonedDevice cfg bits)
    (lba : UInt64) :
    (∃ zone, getZoneNumber cfg lba = .ok zone ∧
        zone.toNat = lba.toNat / cfg.zoneSectors.toNat) ↔
      lba.toNat < 2 ^ 32 ∨ lba.toNat < cfg.zoneSectors.toNat := by
  obtain ⟨zone, computed, exact⟩ := getZoneNumber_value cfg lba _ device.zoneSectors_toNat
  rw [computed, device.zoneSectors_toNat, ← AlignDown.mod_div_exact, ← exact]
  simp

theorem Collected.in_zone_iff {cfg : Config} {bits : Nat} {e : Extent}
    (collected : Collected cfg e) (device : ZonedDevice cfg bits) :
    (e.zone.toNat * cfg.znsdev.zoneSize.toNat ≤ e.phyBlk.toNat ∧
        e.phyBlk.toNat < (e.zone.toNat + 1) * cfg.znsdev.zoneSize.toNat) ↔
      (e.phyBlk <<< cfg.znsSectorShift.toUInt64).toNat < 2 ^ 32 ∨
        e.phyBlk.toNat < cfg.znsdev.zoneSize.toNat := by
  have scaled : e.phyBlk.toNat / 2 ^ bits = e.phyBlk.toNat * 2 ^ cfg.znsSectorShift.toNat /
      2 ^ (bits + cfg.znsSectorShift.toNat) := by
    rw [Nat.pow_add, Nat.mul_div_mul_right _ _ (Nat.two_pow_pos _)]
  rw [AlignDown.in_block_iff _ _ _ (by rw [device.power]; exact Nat.two_pow_pos _),
    collected.zone_toNat device, device.power, scaled, eq_comm, AlignDown.mod_div_exact,
    collected.lba_toNat device, Nat.pow_add, Nat.mul_lt_mul_right (Nat.two_pow_pos _)]

/-- `get_zone_number` rounds down correctly exactly below sector 2^32 and inside the first zone,
and the same bound decides whether an extent is filed under the zone that contains it. -/
theorem zone_number_exact_iff (cfg : Config) (bits : Nat) (device : ZonedDevice cfg bits) :
    (∀ lba : UInt64,
      (∃ zone, getZoneNumber cfg lba = .ok zone ∧
          zone.toNat = lba.toNat / cfg.zoneSectors.toNat) ↔
        lba.toNat < 2 ^ 32 ∨ lba.toNat < cfg.zoneSectors.toNat) ∧
    ∀ (events : List Event) (m : Machine), collect cfg events = .ok m →
      ∀ e ∈ m.ctrl.zonemap.extents,
        ((e.zone.toNat * cfg.znsdev.zoneSize.toNat ≤ e.phyBlk.toNat ∧
            e.phyBlk.toNat < (e.zone.toNat + 1) * cfg.znsdev.zoneSize.toNat) ↔
          (e.phyBlk <<< cfg.znsSectorShift.toUInt64).toNat < 2 ^ 32 ∨
            e.phyBlk.toNat < cfg.znsdev.zoneSize.toNat) := by
  constructor
  · exact getZoneNumber_exact_iff device
  · intro events m run e inside
    exact (collect_collected run e inside).in_zone_iff device

-- 2 TiB into a device with zones of 1 TiB: the third zone is taken for the first.
theorem zone_number_wraps :
    let cfg := segmapConfig 512 0 0x80000000 4 [⟨0, .cursegWarmData, 512⟩]
    (¬ ∀ lba : UInt64, ∃ zone, getZoneNumber cfg lba = .ok zone ∧
        zone.toNat = lba.toNat / cfg.zoneSectors.toNat) ∧
      getZoneNumber cfg 0x100000000 = .ok 0 := by
  intro cfg
  have wrapped : getZoneNumber cfg 0x100000000 = .ok 0 := by decide
  refine ⟨fun exact => ?_, wrapped⟩
  obtain ⟨zone, computed, floor⟩ := exact 0x100000000
  rw [wrapped] at computed
  cases computed
  exact absurd floor (by decide)

theorem zone_number_exact_small_device :
    let cfg := segmapConfig 4096 0 65536 16 []
    ∃ zone, getZoneNumber cfg 600000 = .ok zone ∧ zone.toNat = 600000 / 524288 :=
  ((zone_number_exact_iff (segmapConfig 4096 0 65536 16 []) 16
    ⟨.inr rfl, by decide, 524288, by decide⟩).1 600000).mpr (.inl (by decide))

-- Below 2^32 sectors the 32-bit arithmetic on the segment number loses nothing; what is left is
-- that it shifts towards larger sectors where `get_extents` shifted towards smaller ones.
theorem segmentZone_value {cfg : Config} {bits : Nat} (device : ZonedDevice cfg bits)
    (whole : cfg.segmentSize ∣ cfg.znsdev.zoneSize.toNat) (phyBlk : UInt64)
    (small : phyBlk.toNat * 2 ^ cfg.znsSectorShift.toNat < 2 ^ 32) :
    ∃ zone, segmentZone cfg (cfg.segmentId phyBlk).toUInt32 = .ok zone ∧
      zone.toNat = phyBlk.toNat / 2 ^ (bits + 2 * cfg.znsSectorShift.toNat) := by
  obtain ⟨zone, computed, exact⟩ :=
    getZoneNumber_value cfg _ _ device.zoneSectors_toNat
  refine ⟨zone, computed, ?_⟩
  have positive : 0 < cfg.segmentSize := Nat.two_pow_pos _
  have narrow : phyBlk.toNat < 2 ^ 32 :=
    Nat.lt_of_le_of_lt (Nat.le_mul_of_pos_right _ (Nat.two_pow_pos _)) small
  have start : phyBlk.toNat / cfg.segmentSize * cfg.segmentSize ≤ phyBlk.toNat :=
    Nat.div_mul_le_self _ _
  have id : (cfg.segmentId phyBlk).toUInt32.toNat = phyBlk.toNat / cfg.segmentSize := by
    rw [UInt64.toNat_toUInt32, Geometry.segmentId_toNat device.supported, Nat.mod_eq_of_lt]
    exact Nat.lt_of_le_of_lt (Nat.div_le_self _ _) narrow
  have shifts : cfg.segmentShift.toNat < 32 ∧ cfg.znsSectorShift.toNat < 32 := by
    have := device.shift_small
    rcases device.supported.shift with h | h <;> omega
  have lba : (((cfg.segmentId phyBlk).toUInt32 <<< cfg.segmentShift) >>>
      cfg.znsSectorShift).toUInt64.toNat =
        phyBlk.toNat / cfg.segmentSize * cfg.segmentSize / 2 ^ cfg.znsSectorShift.toNat := by
    rw [UInt32.toNat_toUInt64, UInt32.toNat_shiftRight, UInt32.toNat_shiftLeft, id,
      Nat.mod_eq_of_lt shifts.1, Nat.mod_eq_of_lt shifts.2, Nat.shiftLeft_eq,
      Nat.shiftRight_eq_div_pow]
    change phyBlk.toNat / cfg.segmentSize * cfg.segmentSize % 2 ^ 32 / _ = _
    rw [Nat.mod_eq_of_lt (Nat.lt_of_le_of_lt start narrow)]
  have below : phyBlk.toNat / cfg.segmentSize * cfg.segmentSize / 2 ^ cfg.znsSectorShift.toNat <
      2 ^ 32 := Nat.lt_of_le_of_lt (Nat.div_le_self _ _) (Nat.lt_of_le_of_lt start narrow)
  have divides : cfg.segmentSize ∣
      2 ^ cfg.znsSectorShift.toNat * 2 ^ (bits + cfg.znsSectorShift.toNat) := by
    rw [Nat.pow_add, ← device.power, Nat.mul_left_comm]
    exact Dvd.dvd.mul_right whole _
  rw [exact, lba, Nat.mod_eq_of_lt below, Nat.div_div_eq_div_mul,
    AlignDown.div_mul_div_of_dvd _ _ _ positive divides, ← Nat.pow_add]
  congr 2
  omega

theorem segmentZone_agrees_iff {cfg : Config} {bits : Nat} {e : Extent}
    (device : ZonedDevice cfg bits) (whole : cfg.segmentSize ∣ cfg.znsdev.zoneSize.toNat)
    (collected : Collected cfg e)
    (small : e.phyBlk.toNat * 2 ^ cfg.znsSectorShift.toNat < 2 ^ 32) :
    segmentZone cfg (cfg.segmentId e.phyBlk).toUInt32 = .ok e.zone ↔
      cfg.znsSectorShift = 0 ∨ e.phyBlk.toNat < cfg.znsdev.zoneSize.toNat := by
  obtain ⟨zone, computed, exact⟩ := segmentZone_value device whole e.phyBlk small
  have own : e.zone.toNat = e.phyBlk.toNat / 2 ^ bits := by
    rw [collected.zone_toNat device, Nat.mod_eq_of_lt small, Nat.pow_add,
      Nat.mul_div_mul_right _ _ (Nat.two_pow_pos _)]
  rw [computed, Except.ok.injEq, ← UInt32.toNat_inj, exact, own, Nat.pow_add,
    ← Nat.div_div_eq_div_mul, device.power, ← UInt32.toNat_inj]
  rcases device.supported.znsShift with ⟨none, -⟩ | ⟨three, -⟩
  · simp [none]
  · rw [three, AlignDown.eq_div_iff_zero _ _ (by decide), Nat.div_eq_zero_iff_lt (Nat.two_pow_pos _)]
    simp

theorem imapZoneNumber_contains_iff {cfg : Config} {bits : Nat} (device : ZonedDevice cfg bits)
    (lba : UInt64) (small : lba.toNat * 2 ^ cfg.znsSectorShift.toNat < 2 ^ 32) :
    (∃ zone, imapZoneNumber cfg lba = .ok zone ∧
        zone.toNat * cfg.znsdev.zoneSize.toNat ≤ lba.toNat ∧
        lba.toNat < (zone.toNat + 1) * cfg.znsdev.zoneSize.toNat) ↔
      cfg.znsSectorShift = 0 ∨ lba.toNat < cfg.znsdev.zoneSize.toNat := by
  obtain ⟨zone, computed, exact⟩ := getZoneNumber_value cfg lba _ device.zoneSectors_toNat
  have narrow : lba.toNat < 2 ^ 32 :=
    Nat.lt_of_le_of_lt (Nat.le_mul_of_pos_right _ (Nat.two_pow_pos _)) small
  rw [Nat.mod_eq_of_lt narrow, Nat.pow_add, ← Nat.div_div_eq_div_mul, ← device.power] at exact
  have positive : 0 < cfg.znsdev.zoneSize.toNat := by rw [device.power]; exact Nat.two_pow_pos _
  rw [imapZoneNumber, computed]
  simp only [Except.ok.injEq, exists_eq_left', AlignDown.in_block_iff _ _ _ positive]
  rw [exact, ← UInt32.toNat_inj]
  rcases device.supported.znsShift with ⟨none, -⟩ | ⟨three, -⟩
  · simp [none]
  · rw [three, eq_comm, AlignDown.eq_div_iff_zero _ _ (by decide),
      Nat.div_eq_zero_iff_lt positive]
    simp

/-- All users of `get_zone_number` agree exactly on devices with 512 B sectors and, with 4 KiB
sectors, in the first zone: the other two callers do not scale the address as `get_extents` does. -/
theorem zone_agreement_iff (cfg : Config) (bits : Nat) (device : ZonedDevice cfg bits) :
    (cfg.segmentSize ∣ cfg.znsdev.zoneSize.toNat →
      ∀ (events : List Event) (m : Machine), collect cfg events = .ok m →
        ∀ e ∈ m.ctrl.zonemap.extents, e.phyBlk.toNat * 2 ^ cfg.znsSectorShift.toNat < 2 ^ 32 →
          (segmentZone cfg (cfg.segmentId e.phyBlk).toUInt32 = .ok e.zone ↔
            cfg.znsSectorShift = 0 ∨ e.phyBlk.toNat < cfg.znsdev.zoneSize.toNat)) ∧
    ∀ lba : UInt64, lba.toNat * 2 ^ cfg.znsSectorShift.toNat < 2 ^ 32 →
      ((∃ zone, imapZoneNumber cfg lba = .ok zone ∧
          zone.toNat * cfg.znsdev.zoneSize.toNat ≤ lba.toNat ∧
          lba.toNat < (zone.toNat + 1) * cfg.znsdev.zoneSize.toNat) ↔
        cfg.znsSectorShift = 0 ∨ lba.toNat < cfg.znsdev.zoneSize.toNat) := by
  constructor
  · intro whole events m run e inside small
    exact segmentZone_agrees_iff device whole (collect_collected run e inside) small
  · exact imapZoneNumber_contains_iff device

-- A file in the second zone of a device with 4 KiB sectors.
theorem zone_agreement_lost :
    let cfg := segmapConfig 4096 0 512 2 (List.replicate 2 ⟨0, .cursegWarmData, 512⟩)
    (∃ m, collect cfg (mapFile cfg [97] 8 [⟨0, 0x200000, 4096, 1⟩]) = .ok m ∧
      ∃ e ∈ m.ctrl.zonemap.extents, e.phyBlk = 512 ∧ e.zone = 1 ∧
        segmentZone cfg (cfg.segmentId e.phyBlk).toUInt32 = .ok 0) ∧
      imapZoneNumber cfg 512 = .ok 0 :=
  ⟨⟨_, rfl, by decide⟩, by decide⟩

theorem zone_agreement_first_zone :
    let cfg := segmapConfig 4096 0 512 2 []
    ∃ zone, imapZoneNumber cfg 100 = .ok zone ∧
      zone.toNat * 512 ≤ 100 ∧ 100 < (zone.toNat + 1) * 512 :=
  ((zone_agreement_iff (segmapConfig 4096 0 512 2 []) 9 ⟨.inr rfl, by decide, 4096, by decide⟩).2 100
    (by decide)).mpr (.inr (by decide))

end ZnsTools
