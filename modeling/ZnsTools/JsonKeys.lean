import ZnsTools.JsonHistory
import ZnsTools.Shared.Digits

set_option autoImplicit false

namespace ZnsTools

def ReadsBack (number : UInt32) : Prop :=
  Digits.read 10 (uint32ToStringCast number) = some number.toNat

instance (number : UInt32) : Decidable (ReadsBack number) :=
  inferInstanceAs (Decidable (_ = _))

def keyNumbers (cfg : Config) (groups : List (List JsonPass)) : List UInt32 :=
  zoneNumbers [] groups ++ groups.flatten.flatMap (segmentNumbers cfg)

/-- Keys tell the numbers that they are made of, so that an object is replaced only by one with the
same number: the document is that which has the whole numbers for keys. -/
structure FaithfulKeys (numbers : List UInt32) (zones : List StoredZone)
    (document : JsonZonemap) : Prop where
  readBack : ∀ number ∈ numbers, ReadsBack number
  distinct : ∀ a ∈ numbers, ∀ b ∈ numbers, uint32ToStringCast a = uint32ToStringCast b → a = b
  document : document = storeZones (fun number => idText number.toNat) zones

theorem decimal_toInt32 (number : UInt32) : decimal number.toInt32.toInt =
    if number.toNat < 2 ^ 31 then Nat.toDigits 10 number.toNat
    else '-' :: Nat.toDigits 10 (2 ^ 32 - number.toNat) := by
  have small := number.toNat_lt
  have signed : number.toInt32.toInt =
      if number.toNat < 2 ^ 31 then (number.toNat : Int) else (number.toNat : Int) - 2 ^ 32 := by
    change number.toBitVec.toInt = _
    rw [BitVec.toInt_eq_toNat_cond]
    change (if 2 * number.toNat < 2 ^ 32 then _ else _) = _
    split <;> split <;> first | rfl | omega
  rw [decimal, signed]
  by_cases low : number.toNat < 2 ^ 31
  · rw [if_pos low, if_pos low, if_neg (by omega)]
    rfl
  · rw [if_neg low, if_neg low, if_pos (by omega)]
    congr 2
    omega

theorem uint32ToStringCast_eq {number : UInt32} (small : number.toNat < 1000) :
    uint32ToStringCast number = idText number.toNat := by
  rw [uint32ToStringCast, decimal_toInt32, if_pos (by omega), idText, List.take_of_length_le]
  exact (Nat.length_toDigits_le_iff (by decide) (by decide)).mpr small

theorem readsBack_iff (number : UInt32) : ReadsBack number ↔ number.toNat < 1000 := by
  rw [ReadsBack, uint32ToStringCast, decimal_toInt32]
  split
  · exact Digits.read_take_iff (by decide) (by decide) (by decide)
  · next large =>
    have sign : Digits.read 10 ('-' :: (Nat.toDigits 10 (2 ^ 32 - number.toNat)).take 2) = none :=
      rfl
    rw [List.take_succ_cons, sign]
    simp
    omega

section History

variable {key other : UInt32 → List Char}

theorem storeSegments_congr {segments : List (UInt32 × JsonSegment)}
    (same : ∀ stored ∈ segments, key stored.1 = other stored.1) :
    storeSegments key segments = storeSegments other segments := by
  rw [storeSegments, storeSegments]
  congr 1
  exact List.map_congr_left fun stored inside => by rw [same stored inside]

theorem storeZones_congr {zones : List StoredZone}
    (same : ∀ stored ∈ zones, key stored.number = other stored.number ∧
      ∀ segment ∈ stored.segments, key segment.1 = other segment.1) :
    storeZones key zones = storeZones other zones := by
  rw [storeZones, storeZones]
  congr 1
  apply List.map_congr_left
  intro stored inside
  obtain ⟨zone, segments⟩ := same stored inside
  rw [zone, storeSegments_congr segments]

theorem zoneNumbers_mem {before : List JsonPass} {groups : List (List JsonPass)} {number : UInt32}
    (inside : number ∈ zoneNumbers before groups) :
    number = 0 ∨ ∃ pass ∈ before ++ groups.flatten, number = pass.item.zone := by
  induction groups generalizing before with
  | nil => cases inside
  | cons group rest ih =>
    rw [List.flatten_cons, ← List.append_assoc]
    rcases List.mem_cons.mp inside with rfl | later
    · cases last : (before ++ group).getLast? with
      | none => exact .inl (by simp [zoneNumber, last])
      | some pass =>
        refine .inr ⟨pass, List.mem_append_left _ (List.mem_of_getLast? last), ?_⟩
        simp [zoneNumber, last]
    · exact ih later

theorem DumpHistory.number_mem {cfg : Config} {groups : List (List JsonPass)}
    {zones : List StoredZone} (history : DumpHistory cfg groups zones) {stored : StoredZone}
    (inside : stored ∈ zones) : stored.number ∈ keyNumbers cfg groups := by
  rw [keyNumbers, ← history.numbered]
  exact List.mem_append_left _ (List.mem_map_of_mem inside)

theorem DumpHistory.segment_mem {cfg : Config} {groups : List (List JsonPass)}
    {zones : List StoredZone} (history : DumpHistory cfg groups zones) {stored : StoredZone}
    (inside : stored ∈ zones) {segment : UInt32 × JsonSegment}
    (listed : segment ∈ stored.segments) : segment.1 ∈ keyNumbers cfg groups := by
  have numbers : stored.segments.map Prod.fst ∈ groups.map fun group =>
      group.flatMap (segmentNumbers cfg) := by
    rw [← history.segments]
    exact List.mem_map.mpr ⟨stored, inside, rfl⟩
  obtain ⟨group, member, same⟩ := List.mem_map.mp numbers
  have number : segment.1 ∈ group.flatMap (segmentNumbers cfg) := by
    rw [same]
    exact List.mem_map_of_mem listed
  obtain ⟨pass, taken, made⟩ := List.mem_flatMap.mp number
  rw [keyNumbers]
  apply List.mem_append_right
  exact List.mem_flatMap.mpr ⟨pass, List.mem_flatten.mpr ⟨group, member, taken⟩, made⟩

end History

/-- A number reads back from its key exactly if it is below 1000, and so the keys of a document are
faithful exactly if its zones and segments have such numbers. -/
theorem json_keys_exact_iff (cfg : Config) (dev : Device) (ctrl : Control)
    (fuel : List Extent → Nat) (inner : Nat) (final : JsonState) (passes : List JsonPass)
    (result : jsonDumpF2fsZonemap cfg dev fuel inner ctrl = some (.ok (final, passes))) :
    (∀ number, ReadsBack number ↔ number.toNat < 1000) ∧
    ∃ groups zones, groups.flatten = passes ∧ DumpHistory cfg groups zones ∧
      final.zonemap = storeZones uint32ToStringCast zones ∧
      (FaithfulKeys (keyNumbers cfg groups) zones final.zonemap ↔
        ∀ number ∈ keyNumbers cfg groups, number.toNat < 1000) := by
  obtain ⟨groups, zones, whole, -, history, document⟩ := jsonDumpF2fsZonemap_history result
  refine ⟨readsBack_iff, groups, zones, whole, history, document, ?_⟩
  constructor
  · intro faithful number inside
    exact (readsBack_iff number).mp (faithful.readBack number inside)
  · intro small
    constructor
    · intro number inside
      exact (readsBack_iff number).mpr (small number inside)
    · intro a first b second same
      rw [uint32ToStringCast_eq (small a first), uint32ToStringCast_eq (small b second)] at same
      exact UInt32.toNat_inj.mp (idText_inj same)
    · rw [document]
      apply storeZones_congr
      intro stored inside
      constructor
      · exact uint32ToStringCast_eq (small _ (history.number_mem inside))
      · intro segment listed
        exact uint32ToStringCast_eq (small _ (history.segment_mem inside listed))

def largeZone : Config :=
  segmapConfig 512 0 8388608 1 (List.replicate 1002 ⟨0, .cursegWarmData, 512⟩)

def threeSegments (first second third : UInt64) : Control :=
  collected largeZone (mapFile largeZone [97] 24
    [⟨0, first * 2097152, 4096, 0⟩, ⟨4096, second * 2097152, 4096, 0⟩,
      ⟨8192, third * 2097152, 4096, fiemapExtentLast⟩])

-- What is pending when segment 1001 is begun replaces what was stored when segment 1000 was begun.
theorem segment_overwritten :
    uint32ToStringCast 1000 = ['1', '0', '0'] ∧ uint32ToStringCast 100 = ['1', '0', '0'] ∧
    ∃ final passes, jsonDumpF2fsZonemap largeZone (fullZones largeZone) List.length 1
        (threeSegments 5 1000 1001) = some (.ok (final, passes)) ∧
      passes.flatMap (segmentNumbers largeZone) = [1000, 1001] ∧
      final.zonemap.map (fun zone => zone.2.segments.map Prod.fst) = [[['1', '0', '0']]] := by
  have computed : (jsonDumpF2fsZonemap largeZone (fullZones largeZone) List.length 1
      (threeSegments 5 1000 1001)).map (·.map fun run =>
        decide (run.2.flatMap (segmentNumbers largeZone) = [1000, 1001] ∧
          run.1.zonemap.map (fun zone => zone.2.segments.map Prod.fst) = [[['1', '0', '0']]])) =
            some (.ok true) := by
    decide +kernel
  obtain ⟨⟨final, passes⟩, result, shown⟩ := Runs.some_map_ok computed
  exact ⟨by decide, by decide, final, passes, result, of_decide_eq_true shown⟩

theorem small_segments_kept :
    ∃ final passes groups zones, jsonDumpF2fsZonemap largeZone (fullZones largeZone) List.length 1
        (threeSegments 5 10 11) = some (.ok (final, passes)) ∧
      FaithfulKeys (keyNumbers largeZone groups) zones final.zonemap := by
  have computed : (jsonDumpF2fsZonemap largeZone (fullZones largeZone) List.length 1
      (threeSegments 5 10 11)).map (·.map fun run =>
        decide (run.2.map (·.item.zone) = [0, 0, 0] ∧
          run.2.flatMap (segmentNumbers largeZone) = [10, 11])) = some (.ok true) := by
    decide +kernel
  obtain ⟨⟨final, passes⟩, result, shown⟩ := Runs.some_map_ok computed
  obtain ⟨zone, segments⟩ := of_decide_eq_true shown
  obtain ⟨-, groups, zones, rfl, -, -, exact⟩ := json_keys_exact_iff _ _ _ _ _ _ _ result
  refine ⟨final, _, groups, zones, result, exact.mpr ?_⟩
  intro number inside
  rcases List.mem_append.mp inside with zoned | stored
  · rcases zoneNumbers_mem zoned with rfl | ⟨pass, taken, rfl⟩
    · decide
    · have listed := List.mem_map_of_mem (f := fun pass : JsonPass => pass.item.zone) taken
      simp only [List.nil_append, zone, List.mem_cons, List.not_mem_nil, or_self, or_false] at listed
      rw [listed]
      decide
  · rw [segments] at stored
    simp only [List.mem_cons, List.not_mem_nil, or_false] at stored
    rcases stored with rfl | rfl <;> decide

end ZnsTools
