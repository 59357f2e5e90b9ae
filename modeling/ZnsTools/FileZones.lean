import ZnsTools.FiemapLines
import ZnsTools.FileEntries
import ZnsTools.Shared.Changes

set_option autoImplicit false

namespace ZnsTools

-- The zone that an extent counts for: that of its first segment, as the counters compute it.
def countedZone (cfg : Config) (e : Extent) : UInt32 :=
  ((segmentZone cfg (cfg.segmentId e.phyBlk).toUInt32).toOption).getD 0

-- Whole zone capacities in the segments of an extent, whose bytes are multiplied out in 32 bits.
def capacities (cfg : Config) (e : Extent) : Nat :=
  (e.last cfg.toGeometry - e.first cfg.toGeometry + 1) * f2fsSegmentBytes.toNat % 2 ^ 32 /
    2 ^ cfg.sectorShift.toNat / e.zoneCap.toNat

def ownIn (file : CString) (extents : List Extent) : List Extent :=
  extents.filter fun e => e.file == file

def Zone.holdsFile (file : CString) (zone : Zone) : Bool :=
  zone.extents.any fun e => e.file == file

def ZoneMap.zonesOf (zonemap : ZoneMap) (file : CString) : Nat :=
  zonemap.zones.countP (Zone.holdsFile file)

def ZoneMap.firstsOf (zonemap : ZoneMap) (file : CString) : List Extent :=
  (zonemap.zones.drop 1).filterMap fun zone => (ownIn file zone.extents).head?

def FileZonesExact (zonemap : ZoneMap) (file : CString) (state : ReportState) : Prop :=
  ∃ counters index entry, state.fileCounterMap = some counters ∧
    counters.find? file = some index ∧ counters.files[index]? = some entry ∧
    entry.zoneCtr.toNat = zonemap.zonesOf file

def zonesAdded (cfg : Config) (extents : List Extent) : Nat :=
  ((Changes.heads (countedZone cfg) 0 extents).map fun e => capacities cfg e + 1).sum

def ZonesAddUp (cfg : Config) (zonemap : ZoneMap) (file : CString) : Prop :=
  zonesAdded cfg (ownIn file zonemap.extents) % 2 ^ 32 = zonemap.zonesOf file

instance (cfg : Config) (zonemap : ZoneMap) (file : CString) :
    Decidable (ZonesAddUp cfg zonemap file) :=
  inferInstanceAs (Decidable (_ = _))

-- The part of a pass that counts zones.
def FileCounter.enterZone (cfg : Config) (entry : FileCounter) (e : Extent) : FileCounter :=
  if entry.lastZone = countedZone cfg e then entry
  else { entry with
    zoneCtr := entry.zoneCtr + UInt32.ofNat (capacities cfg e + 1)
    lastZone := countedZone cfg e }

def SameZones (a b : FileCounter) : Prop :=
  a.zoneCtr = b.zoneCtr ∧ a.lastZone = b.lastZone

section Step

variable {cfg : Config} {e : Extent} {now next : FileCounter}

theorem addSegments_zones (entry : FileCounter) (numSegments curSegment : UInt32)
    (type : SegmentType) : SameZones (entry.addSegments numSegments curSegment type) entry := by
  rw [FileCounter.addSegments]
  split
  · exact ⟨rfl, rfl⟩
  · cases type <;> exact ⟨rfl, rfl⟩

theorem capacities_lt (cfg : Config) (e : Extent) : capacities cfg e < 2 ^ 32 :=
  Nat.lt_of_le_of_lt (Nat.le_trans (Nat.div_le_self _ _) (Nat.div_le_self _ _))
    (Nat.mod_lt _ (Nat.two_pow_pos 32))

-- The product wraps around in 32 bits whether or not the number of segments has done so before.
theorem capacities_toUInt32 (supported : cfg.toGeometry.Supported) (addressed : e.stop < 2 ^ 56) :
    ((((e.endSegment cfg.toGeometry - cfg.segmentId e.phyBlk + 1).toUInt32 * f2fsSegmentBytes) >>>
        cfg.sectorShift).toUInt64 / e.zoneCap + 1).toUInt32 = UInt32.ofNat (capacities cfg e + 1) := by
  have number : (e.endSegment cfg.toGeometry - cfg.segmentId e.phyBlk + 1).toUInt32.toNat =
      (e.last cfg.toGeometry - e.first cfg.toGeometry + 1) % 2 ^ 32 :=
    Extent.numSegments_toNat supported addressed
  have shift := supported.sectorShift
  have small := capacities_lt cfg e
  have value : ((((e.endSegment cfg.toGeometry - cfg.segmentId e.phyBlk + 1).toUInt32 *
      f2fsSegmentBytes) >>> cfg.sectorShift).toUInt64 / e.zoneCap).toNat = capacities cfg e := by
    rw [UInt64.toNat_div, UInt32.toNat_toUInt64, UInt32.toNat_shiftRight, UInt32.toNat_mul, number,
      Nat.mod_mul_mod, Nat.shiftRight_eq_div_pow, Nat.mod_eq_of_lt (by omega : _ < 32)]
    rfl
  rw [← UInt32.toNat_inj, UInt64.toNat_toUInt32, UInt64.toNat_add, value, UInt64.toNat_one,
    UInt32.toNat_ofNat', Nat.mod_eq_of_lt (by omega : capacities cfg e + 1 < 2 ^ 64)]

theorem Counts.enterZone (supported : cfg.toGeometry.Supported) (addressed : e.stop < 2 ^ 56)
    (counts : Counts cfg e now next) {entry : FileCounter} (same : SameZones now entry) :
    SameZones next (entry.enterZone cfg e) := by
  obtain ⟨segI, zone, -, numbered, added⟩ := counts
  have here : countedZone cfg e = zone := by
    rw [countedZone, numbered]
    rfl
  have ⟨counter, last⟩ := addSegments_zones now
    (e.endSegment cfg.toGeometry - cfg.segmentId e.phyBlk + 1).toUInt32
    (cfg.segmentId e.phyBlk).toUInt32 segI.type
  rw [FileCounter.addZones, last, same.2] at added
  rw [FileCounter.enterZone, here]
  split at added
  · next stays =>
    cases added
    rw [if_pos stays]
    exact ⟨counter.trans same.1, last.trans same.2⟩
  · next moves =>
    split at added <;> cases added
    rw [if_neg moves, SameZones, counter, same.1, capacities_toUInt32 supported addressed]
    exact ⟨rfl, rfl⟩

theorem foldl_enterZone (extents : List Extent) (entry : FileCounter) :
    (extents.foldl (FileCounter.enterZone cfg) entry).zoneCtr.toNat = (entry.zoneCtr.toNat +
      ((Changes.heads (countedZone cfg) entry.lastZone extents).map
        fun e => capacities cfg e + 1).sum) % 2 ^ 32 := by
  induction extents generalizing entry with
  | nil =>
    rw [List.foldl_nil, Changes.heads, List.map_nil, List.sum_nil, Nat.add_zero]
    exact (Nat.mod_eq_of_lt entry.zoneCtr.toNat_lt).symm
  | cons e rest ih =>
    rw [List.foldl_cons, ih, FileCounter.enterZone, Changes.heads]
    by_cases same : entry.lastZone = countedZone cfg e
    · rw [if_pos same, if_pos same]
    · rw [if_neg same, if_neg same, List.map_cons, List.sum_cons]
      dsimp only
      rw [UInt32.toNat_add, UInt32.toNat_ofNat']
      omega

end Step

section Agreement

variable {cfg : Config} {zonemap : ZoneMap} {file : CString}

theorem holdsFile_iff (zone : Zone) :
    Zone.holdsFile file zone = true ↔ (ownIn file zone.extents).head?.isSome = true := by
  rw [Zone.holdsFile, ownIn, List.head?_filter, List.find?_isSome, List.any_eq_true]

theorem ownIn_extents (zonemap : ZoneMap) (file : CString) :
    ownIn file zonemap.extents =
      (zonemap.zones.map fun zone => ownIn file zone.extents).flatten := by
  rw [ownIn, ZoneMap.extents, List.filter_flatMap]
  rfl

theorem firstsOf_length (zonemap : ZoneMap) (file : CString) :
    (zonemap.firstsOf file).length = (zonemap.zones.drop 1).countP (Zone.holdsFile file) := by
  rw [ZoneMap.firstsOf, List.length_filterMap_eq_countP]
  congr 1
  funext zone
  rw [Bool.eq_iff_iff, holdsFile_iff]

-- Groups of extents that are counted for consecutive zones, from `start` on, change the zone at
-- their heads.
theorem heads_consecutive {groups : List (List Extent)} {start : Nat}
    (counted : ∀ (place : Nat) (group : List Extent), groups[place]? = some group →
      ∀ e ∈ group, (countedZone cfg e).toNat = start + place) {last : UInt32}
    (before : last.toNat < start) :
    Changes.heads (countedZone cfg) last groups.flatten = groups.filterMap List.head? := by
  apply Changes.heads_groups
  · intro group inside a first b second
    obtain ⟨place, here⟩ := List.getElem?_of_mem inside
    rw [← UInt32.toNat_inj, counted place group here a first, counted place group here b second]
  · rw [List.pairwise_iff_getElem]
    intro i j here there ordered a first b second same
    have one := counted i _ (List.getElem?_eq_getElem here) a first
    have two := counted j _ (List.getElem?_eq_getElem there) b second
    rw [same] at one
    omega
  · rintro group inside a first rfl
    obtain ⟨place, here⟩ := List.getElem?_of_mem inside
    have number := counted place group here a first
    omega

/-- Where the counters find the zones that the extents are filed under, the changes are at the first
extents of the file in each zone but zone 0, where they start. -/
theorem heads_firstsOf (listed : zonemap.Listed)
    (agree : ∀ e ∈ zonemap.extents, e.file = file → countedZone cfg e = e.zone) :
    Changes.heads (countedZone cfg) 0 (ownIn file zonemap.extents) = zonemap.firstsOf file := by
  have filed : ∀ (index : Nat) (zone : Zone), zonemap.zones[index]? = some zone →
      ∀ e ∈ ownIn file zone.extents, (countedZone cfg e).toNat = index := by
    intro index zone found e inside
    obtain ⟨listed_here, own⟩ := List.mem_filter.mp inside
    have member : e ∈ zonemap.extents :=
      List.mem_flatMap.mpr ⟨zone, List.mem_of_getElem? found, listed_here⟩
    rw [agree e member (beq_iff_eq.mp own)]
    exact listed.filed index zone found e listed_here
  rw [ownIn_extents, ZoneMap.firstsOf]
  cases split : zonemap.zones with
  | nil => rfl
  | cons zone rest =>
    rw [split] at filed
    have zero : ∀ e ∈ ownIn file zone.extents, countedZone cfg e = 0 := fun e inside =>
      UInt32.toNat_inj.mp (filed 0 zone rfl e inside)
    have later : ∀ (place : Nat) (group : List Extent),
        (rest.map fun zone => ownIn file zone.extents)[place]? = some group →
          ∀ e ∈ group, (countedZone cfg e).toNat = 1 + place := by
      intro place group found
      rw [List.getElem?_map] at found
      obtain ⟨other, here, rfl⟩ := Option.map_eq_some_iff.mp found
      rw [Nat.add_comm]
      exact filed (place + 1) other here
    rw [List.map_cons, List.flatten_cons, Changes.heads_same zero,
      heads_consecutive later (by decide), List.filterMap_map, List.drop_one, List.tail_cons]
    rfl

theorem zonesAddUp_iff (listed : zonemap.Listed) (few : zonemap.zones.length < 2 ^ 32)
    (agree : ∀ e ∈ zonemap.extents, e.file = file → countedZone cfg e = e.zone) :
    ZonesAddUp cfg zonemap file ↔
      ((zonemap.firstsOf file).map (capacities cfg)).sum % 2 ^ 32 =
        (zonemap.zones.take 1).countP (Zone.holdsFile file) := by
  have added : zonesAdded cfg (ownIn file zonemap.extents) =
      ((zonemap.firstsOf file).map (capacities cfg)).sum + (zonemap.firstsOf file).length := by
    rw [zonesAdded, heads_firstsOf listed agree, List.sum_map_add]
    simp
  have zones : zonemap.zonesOf file = (zonemap.zones.take 1).countP (Zone.holdsFile file) +
      (zonemap.firstsOf file).length := by
    rw [ZoneMap.zonesOf, firstsOf_length, ← List.countP_append, List.take_append_drop]
  have bound : zonemap.zonesOf file ≤ zonemap.zones.length := List.countP_le_length
  rw [ZonesAddUp, added, zones]
  omega

end Agreement

theorem showSegments_zones {cfg : Config} {dev : Device} {ctrl : Control}
    {counters : FileCounterMap} (ready : Reportable cfg dev ctrl counters)
    (sound : counters.Sound) (full : FullRange cfg ctrl.zonemap) :
    ∃ final passes, showSegments cfg dev List.length ctrl = some (.ok (final, passes)) ∧
      passes.map CursorLoop.Pass.item = ctrl.zonemap.extents ∧
      ∀ file ∈ counters.names, ∃ current index entry, final.fileCounterMap = some current ∧
        current.find? file = some index ∧ current.files[index]? = some entry ∧
        entry.zoneCtr.toNat = zonesAdded cfg (ownIn file ctrl.zonemap.extents) % 2 ^ 32 := by
  obtain ⟨final, passes, result, last, visited, -⟩ := showSegments_keeps (fun entry own now =>
    SameZones now (own.foldl (FileCounter.enterZone cfg) entry)) ready full (fun _ => ⟨rfl, rfl⟩)
    (by
      intro e inside entry own now next same counts
      rw [List.foldl_concat]
      exact counts.enterZone ready.supported (ready.addressed e inside) same)
  refine ⟨final, passes, result, visited, fun file listed => ?_⟩
  obtain ⟨index, first, found, present, fresh⟩ := sound.entry listed
  obtain ⟨current, entry, map, same, kept, counted, -⟩ := last file index first found present
  refine ⟨current, index, entry, map, by rw [same.find?, found], kept, ?_⟩
  rw [FileCounter.Fresh] at fresh
  rw [counted, foldl_enterZone, fresh]
  exact congrArg (· % 2 ^ 32) (Nat.zero_add _)

/-- A file's counter of zones is the number of zones that hold its extents exactly if what is added
where the zone changes makes up that number. -/
theorem file_zones_exact_iff (cfg : Config) (dev : Device) (ctrl : Control)
    (counters : FileCounterMap) (ready : Reportable cfg dev ctrl counters)
    (sound : counters.Sound) (full : FullRange cfg ctrl.zonemap) (listed : ctrl.zonemap.Listed)
    (few : ctrl.zonemap.zones.length < 2 ^ 32) :
    ∃ final passes, showSegments cfg dev List.length ctrl = some (.ok (final, passes)) ∧
      passes.map CursorLoop.Pass.item = ctrl.zonemap.extents ∧
      ∀ file ∈ counters.names,
        (FileZonesExact ctrl.zonemap file final ↔ ZonesAddUp cfg ctrl.zonemap file) ∧
        ((∀ e ∈ ctrl.zonemap.extents, e.file = file → countedZone cfg e = e.zone) →
          (ZonesAddUp cfg ctrl.zonemap file ↔
            ((ctrl.zonemap.firstsOf file).map (capacities cfg)).sum % 2 ^ 32 =
              (ctrl.zonemap.zones.take 1).countP (Zone.holdsFile file))) := by
  obtain ⟨final, passes, result, visited, each⟩ := showSegments_zones ready sound full
  refine ⟨final, passes, result, visited, fun file inside => ⟨?_, zonesAddUp_iff listed few⟩⟩
  obtain ⟨current, index, entry, map, found, kept, counted⟩ := each file inside
  rw [FileZonesExact, entry_iff map found kept fun entry =>
    entry.zoneCtr.toNat = ctrl.zonemap.zonesOf file, counted, ZonesAddUp]

-- A file in zone 0 only is counted in no zone, and one that fills zone 1 in two.
theorem file_zones_miscounted :
    ((oneFile 8 8).zonemap.zonesOf [97] = 1 ∧
      ∃ final passes, showSegments warmConfig (fullZones warmConfig) List.length (oneFile 8 8) =
          some (.ok (final, passes)) ∧
        (∃ map, final.fileCounterMap = some map ∧ map.files.map (·.zoneCtr) = [0]) ∧
        ¬ FileZonesExact (oneFile 8 8).zonemap [97] final) ∧
    (oneFile 16384 16384).zonemap.zonesOf [97] = 1 ∧
      (showSegments warmConfig (fullZones warmConfig) List.length (oneFile 16384 16384)).map
        (·.map fun run => run.1.fileCounterMap.map fun map => map.files.map (·.zoneCtr)) =
          some (.ok (some [2])) := by
  refine ⟨⟨by decide, ?_⟩, by decide, by decide⟩
  have computed : (showSegments warmConfig (fullZones warmConfig) List.length
      (oneFile 8 8)).map (·.map fun run => run.1.fileCounterMap.map fun map =>
        map.files.map (·.zoneCtr)) = some (.ok (some [0])) := by
    decide
  obtain ⟨⟨final, passes⟩, result, shown⟩ := Runs.some_map_ok computed
  obtain ⟨map, tracked, none⟩ := Option.map_eq_some_iff.mp shown
  refine ⟨final, passes, result, ⟨map, tracked, none⟩, ?_⟩
  rintro ⟨counters, index, entry, same, -, present, exact⟩
  obtain rfl := Option.some.inj (tracked.symm.trans same)
  have zero : entry.zoneCtr ∈ map.files.map (·.zoneCtr) :=
    List.mem_map_of_mem (List.mem_of_getElem? present)
  rw [none, List.mem_singleton] at zero
  rw [zero] at exact
  exact absurd exact (by decide)

-- The one zone missing for zone 0 is made up by the piece that fills zone 1.
theorem file_zones_exact :
    (splitFile (8, 8) (16384, 16384)).zonemap.zonesOf [97] = 2 ∧
    ∃ final passes, showSegments warmConfig (fullZones warmConfig) List.length
        (splitFile (8, 8) (16384, 16384)) = some (.ok (final, passes)) ∧
      FileZonesExact (splitFile (8, 8) (16384, 16384)).zonemap [97] final := by
  have filed : ∀ numbered ∈ (splitFile (8, 8) (16384, 16384)).zonemap.zones.zipIdx,
      ∀ e ∈ numbered.1.extents, e.zone.toNat = numbered.2 := by
    decide
  have listed : (splitFile (8, 8) (16384, 16384)).zonemap.Listed :=
    ⟨fun index zone found => filed (zone, index) (List.mk_mem_zipIdx_iff_getElem?.mpr found),
      by decide⟩
  obtain ⟨final, passes, result, -, each⟩ := file_zones_exact_iff warmConfig
    (fullZones warmConfig) (splitFile (8, 8) (16384, 16384)) splitFileCounters
    (splitFile_reportable _ _ (by decide)) ⟨by decide, by decide, by decide⟩
    ⟨rfl, rfl, by decide, by decide, by decide⟩ listed (by decide)
  have ⟨counted, simpler⟩ := each [97] (by decide)
  exact ⟨by decide, final, passes, result, counted.mpr ((simpler (by decide)).mpr (by decide))⟩

end ZnsTools
