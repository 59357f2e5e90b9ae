import ZnsTools.FiemapLines
import ZnsTools.JsonKeys
import ZnsTools.ReportEnd

set_option autoImplicit false

namespace ZnsTools

-- No zone from the end on holds extents. The address of the end may wrap around; then it has to
-- lie behind the extents of the zones before it.
def EndsBehind (cfg : Config) (zonemap : ZoneMap) : Prop :=
  ∀ numbered ∈ zonemap.numbered, numbered.2 < cfg.endZone.toNat ∧
    ∀ e ∈ numbered.1.extents, cfg.segmentLba (cfg.segmentId e.phyBlk) < cfg.endLba

instance (cfg : Config) (zonemap : ZoneMap) : Decidable (EndsBehind cfg zonemap) :=
  inferInstanceAs (Decidable (∀ numbered ∈ zonemap.numbered, _))

/-- The entries of the document are those of the zones before the end: each of these zones has the
object stored behind the passes over its own extents, and the other zones store none. -/
structure OnlyDrops (cfg : Config) (zonemap : ZoneMap) (groups : List (List JsonPass))
    (stores : List StoredZone) (document : JsonZonemap) : Prop where
  entries : document.map Prod.fst =
    (zonemap.numbered.filter fun numbered => numbered.2 < cfg.endZone.toNat).map
      fun numbered => idText numbered.2
  own : ∀ (place index : Nat) (zone : Zone), zonemap.numbered[place]? = some (zone, index) →
    index < cfg.endZone.toNat → ∃ (group : List JsonPass) (stored : StoredZone),
      groups[place]? = some group ∧ stores[place]? = some stored ∧
      group.map CursorLoop.Pass.item = zone.extents ∧
      KeyedObject.find document (idText index) =
        some ⟨stored.zoneInfo, storeSegments uint32ToStringCast stored.segments⟩
  silent : ∀ (place index : Nat) (zone : Zone), zonemap.numbered[place]? = some (zone, index) →
    cfg.endZone.toNat ≤ index → stores[place]? = none

theorem ZoneMap.numbered_distinct (zonemap : ZoneMap) :
    (zonemap.numbered.map Prod.snd).Nodup := by
  have all : (zonemap.zones.zipIdx.map Prod.snd).Nodup := by
    rw [List.zipIdx_map_snd]
    exact List.nodup_range'
  exact (List.filter_sublist.map Prod.snd).nodup all

section Groups

variable {cfg : Config} {counters : Option FileCounterMap} {inner : Nat}
  {fuel : List Extent → Nat} {extents : List Extent} {group : List JsonPass}

theorem scanned_before
    (scanned : CursorLoop.Scanned (jsonExtentTurn cfg counters inner) fuel extents group) :
    ∀ e ∈ group.map CursorLoop.Pass.item,
      cfg.segmentLba (cfg.segmentId e.phyBlk) < cfg.endLba := by
  intro e inside
  obtain ⟨pass, taken, rfl⟩ := List.mem_map.mp inside
  exact jsonExtentTurn_before (scanned.pass taken).2

theorem scanned_whole (start : cfg.startLba = 0)
    (below : ∀ e ∈ extents, cfg.segmentLba (cfg.segmentId e.phyBlk) < cfg.endLba)
    (scanned : CursorLoop.Scanned (jsonExtentTurn cfg counters inner) fuel extents group) :
    group.map CursorLoop.Pass.item = extents := by
  obtain ⟨state, left, run⟩ := scanned
  refine (CursorLoop.scan_exhausts (fun _ _ => True) (fun _ _ => True) extents ?_ run trivial).2.1
  intro done e rest split state flow _ turn
  rcases jsonExtentTurn_ok turn with ⟨past, -⟩ | ⟨front, -⟩ | ⟨-, next, first, made, -, -, rfl⟩
  · exact absurd (below e (by simp [split])) (UInt64.not_lt.mpr past)
  · rw [start] at front
    exact absurd front (UInt64.not_lt.mpr UInt64.zero_le)
  · exact ⟨next, _, rfl, trivial, trivial⟩

theorem zoneNumber_append (before : List JsonPass) (some_pass : group ≠ []) :
    zoneNumber (before ++ group) = zoneNumber group := by
  rw [zoneNumber, zoneNumber, List.getLast?_append_of_ne_nil before some_pass]

theorem zoneNumber_eq {index : Nat} (some_pass : group ≠ [])
    (own : ∀ e ∈ group.map CursorLoop.Pass.item, e.zone.toNat = index) :
    (zoneNumber group).toNat = index := by
  have last := List.getLast?_eq_some_getLast some_pass
  rw [zoneNumber, last]
  exact own _ (List.mem_map_of_mem (List.getLast_mem some_pass))

theorem zoneNumbers_closed {zones : List (Zone × Nat)} {groups : List (List JsonPass)}
    (closed : List.Forall₂ (fun numbered group => group ≠ [] ∧
      (zoneNumber group).toNat = numbered.2) zones groups) (before : List JsonPass) :
    (zoneNumbers before groups).map UInt32.toNat = zones.map Prod.snd := by
  induction closed generalizing before with
  | nil => rfl
  | cons own _ ih =>
    rw [zoneNumbers, List.map_cons, List.map_cons, zoneNumber_append before own.1, own.2, ih]

end Groups

section Run

variable {cfg : Config} {ctrl : Control} {inner : Nat} {fuel : List Extent → Nat}
  {groups : List (List JsonPass)} {stores : List StoredZone}

theorem numbered_groups
    (scanned : List.Forall₂ (CursorLoop.Scanned (jsonExtentTurn cfg ctrl.fileCounterMap inner) fuel)
      ctrl.zonemap.scanned groups) :
    List.Forall₂ (fun numbered group => CursorLoop.Scanned
      (jsonExtentTurn cfg ctrl.fileCounterMap inner) fuel numbered.1.extents group)
        ctrl.zonemap.numbered groups := by
  rw [← ZoneMap.numbered_scanned] at scanned
  exact List.forall₂_map_left_iff.mp scanned

theorem DumpHistory.length (history : DumpHistory cfg groups stores) :
    stores.length = groups.length := by
  have lengths := congrArg List.length history.segments
  simpa using lengths

theorem stored_in_order (listed : ctrl.zonemap.Listed) (start : cfg.startLba = 0)
    (behind : EndsBehind cfg ctrl.zonemap)
    (scanned : List.Forall₂ (CursorLoop.Scanned (jsonExtentTurn cfg ctrl.fileCounterMap inner) fuel)
      ctrl.zonemap.scanned groups) (history : DumpHistory cfg groups stores) :
    List.Forall₂ (fun numbered group => group.map CursorLoop.Pass.item = numbered.1.extents)
        ctrl.zonemap.numbered groups ∧
      stores.map (fun stored => stored.number.toNat) = ctrl.zonemap.numbered.map Prod.snd := by
  have visited := (List.forall₂_and_left (p := fun numbered => numbered ∈ ctrl.zonemap.numbered)
    _ _).mpr ⟨fun _ member => member, numbered_groups scanned⟩
  replace visited := visited.imp fun numbered group ⟨member, passes⟩ =>
    And.intro member (scanned_whole start (behind numbered member).2 passes)
  refine ⟨visited.imp fun _ _ => And.right, ?_⟩
  have closed : List.Forall₂ (fun numbered group => group ≠ [] ∧
      (zoneNumber group).toNat = numbered.2) ctrl.zonemap.numbered groups := by
    refine visited.imp fun numbered group ⟨member, own⟩ => ?_
    have ⟨place, used⟩ := ZoneMap.mem_numbered member
    have some_pass : group ≠ [] := by
      rintro rfl
      exact listed.some_extent numbered.1 (List.mem_of_getElem? place) used own.symm
    refine ⟨some_pass, zoneNumber_eq some_pass ?_⟩
    rw [own]
    exact listed.filed numbered.2 numbered.1 place
  rw [← zoneNumbers_closed closed [], ← history.numbered, List.map_map]
  rfl

theorem storeZones_numbered {zonemap : ZoneMap} (few : zonemap.zones.length < 1000)
    (numbers : stores.map (fun stored => stored.number.toNat) = zonemap.numbered.map Prod.snd) :
    (storeZones uint32ToStringCast stores).map Prod.fst =
        zonemap.numbered.map (fun numbered => idText numbered.2) ∧
      ((storeZones uint32ToStringCast stores).map Prod.fst).Nodup ∧
      storeZones uint32ToStringCast stores = stores.map fun stored =>
        (idText stored.number.toNat,
          ⟨stored.zoneInfo, storeSegments uint32ToStringCast stored.segments⟩) := by
  have small : ∀ stored ∈ stores, stored.number.toNat < 1000 := by
    intro stored inside
    have number : stored.number.toNat ∈ zonemap.numbered.map Prod.snd := by
      rw [← numbers]
      exact List.mem_map.mpr ⟨stored, inside, rfl⟩
    obtain ⟨numbered, member, same⟩ := List.mem_map.mp number
    rw [← same]
    exact Nat.lt_trans (ZoneMap.numbered_lt member) few
  have keys : stores.map (fun stored => idText stored.number.toNat) =
      zonemap.numbered.map fun numbered => idText numbered.2 := by
    have mapped := congrArg (List.map idText) numbers
    rw [List.map_map, List.map_map] at mapped
    exact mapped
  have pairs : (stores.map fun stored => (uint32ToStringCast stored.number,
        (⟨stored.zoneInfo, storeSegments uint32ToStringCast stored.segments⟩ : JsonZone))) =
      stores.map fun stored => (idText stored.number.toNat,
        ⟨stored.zoneInfo, storeSegments uint32ToStringCast stored.segments⟩) :=
    List.map_congr_left fun stored inside => by rw [uint32ToStringCast_eq (small stored inside)]
  have distinct : (stores.map fun stored => idText stored.number.toNat).Nodup := by
    have apart := zonemap.numbered_distinct.map fun _ _ same => idText_inj same
    rw [List.map_map] at apart
    rw [keys]
    exact apart
  have document : storeZones uint32ToStringCast stores = stores.map fun stored =>
      (idText stored.number.toNat,
        ⟨stored.zoneInfo, storeSegments uint32ToStringCast stored.segments⟩) := by
    rw [storeZones, pairs]
    exact KeyedObject.addAll_distinct (by simpa [Function.comp_def] using distinct)
  rw [document, List.map_map]
  exact ⟨keys, distinct, rfl⟩

theorem onlyDrops_iff (listed : ctrl.zonemap.Listed) (few : ctrl.zonemap.zones.length < 1000)
    (start : cfg.startLba = 0)
    (scanned : List.Forall₂ (CursorLoop.Scanned (jsonExtentTurn cfg ctrl.fileCounterMap inner) fuel)
      ctrl.zonemap.scanned groups) (history : DumpHistory cfg groups stores) :
    OnlyDrops cfg ctrl.zonemap groups stores (storeZones uint32ToStringCast stores) ↔
      EndsBehind cfg ctrl.zonemap := by
  have lists := numbered_groups scanned
  have length : stores.length = ctrl.zonemap.numbered.length :=
    history.length.trans lists.length_eq.symm
  constructor
  · intro drops numbered member
    obtain ⟨place, found⟩ := List.getElem?_of_mem member
    have placed := (List.getElem?_eq_some_iff.mp found).1
    have before : numbered.2 < cfg.endZone.toNat := by
      by_contra past
      have none := drops.silent place numbered.2 numbered.1 found (Nat.not_lt.mp past)
      rw [List.getElem?_eq_none_iff] at none
      omega
    obtain ⟨group, stored, here, -, own, -⟩ := drops.own place numbered.2 numbered.1 found before
    refine ⟨before, ?_⟩
    rw [← own]
    exact scanned_before (List.forall₂_zip lists
      (List.mem_of_getElem? (List.getElem?_zip_eq_some.mpr ⟨found, here⟩)))
  · intro behind
    have ⟨visited, numbers⟩ := stored_in_order listed start behind scanned history
    have ⟨entries, distinct, document⟩ := storeZones_numbered few numbers
    constructor
    · rw [entries, List.filter_eq_self.mpr fun numbered member =>
        decide_eq_true (behind numbered member).1]
    · intro place index zone found _
      have placed := (List.getElem?_eq_some_iff.mp found).1
      obtain ⟨group, here⟩ : ∃ group, groups[place]? = some group :=
        ⟨_, List.getElem?_eq_getElem (lists.length_eq ▸ placed)⟩
      obtain ⟨stored, kept⟩ : ∃ stored, stores[place]? = some stored :=
        ⟨_, List.getElem?_eq_getElem (length ▸ placed)⟩
      have number : stored.number.toNat = index := by
        have same := congrArg (fun numbers => numbers[place]?) numbers
        simpa [kept, found] using same
      refine ⟨group, stored, here, kept, ?_, KeyedObject.find_of_mem distinct ?_⟩
      · exact List.forall₂_zip visited
          (List.mem_of_getElem? (List.getElem?_zip_eq_some.mpr ⟨found, here⟩))
      · rw [document, ← number]
        exact List.mem_map.mpr ⟨stored, List.mem_of_getElem? kept, rfl⟩
    · intro place index zone found past
      have before := (behind (zone, index) (List.mem_of_getElem? found)).1
      exact absurd before (Nat.not_lt.mpr past)

end Run

section Behind

variable {cfg : Config} {zonemap : ZoneMap}

theorem InZones.below_iff (inZones : InZones cfg zonemap) (supported : cfg.toGeometry.Supported)
    (few : cfg.endZone.toNat + 1 < 2 ^ 32)
    (fits : cfg.endZone.toNat * cfg.znsdev.zoneSize.toNat < 2 ^ 64) {index : Nat} {zone : Zone}
    (found : zonemap.zones[index]? = some zone) {e : Extent} (inside : e ∈ zone.extents) :
    cfg.segmentLba (cfg.segmentId e.phyBlk) < cfg.endLba ↔ index < cfg.endZone.toNat := by
  have address : cfg.endLba.toNat = cfg.endZone.toNat * cfg.znsdev.zoneSize.toNat := by
    rw [Config.endLba_eq few, UInt64.toNat_mul, UInt32.toNat_toUInt64, Nat.mod_eq_of_lt fits]
  rw [UInt64.lt_iff_toNat_lt, address]
  exact inZones.segment_below_iff supported found inside _

theorem endsBehind_iff (inZones : InZones cfg zonemap) (supported : cfg.toGeometry.Supported)
    (few : cfg.endZone.toNat + 1 < 2 ^ 32)
    (fits : cfg.endZone.toNat * cfg.znsdev.zoneSize.toNat < 2 ^ 64) :
    EndsBehind cfg zonemap ↔ ∀ numbered ∈ zonemap.numbered, numbered.2 < cfg.endZone.toNat := by
  constructor
  · intro behind numbered member
    exact (behind numbered member).1
  · intro before numbered member
    refine ⟨before numbered member, fun e inside => ?_⟩
    exact (inZones.below_iff supported few fits (ZoneMap.mem_numbered member).1 inside).mpr
      (before numbered member)

theorem ZoneMap.le_last {numbered last : Zone × Nat} (member : numbered ∈ zonemap.numbered)
    (final : zonemap.numbered.getLast? = some last) : numbered.2 ≤ last.2 := by
  have ordered : (zonemap.numbered.map Prod.snd).Pairwise (· < ·) := by
    refine List.Pairwise.sublist (List.filter_sublist.map Prod.snd) ?_
    rw [List.zipIdx_map_snd]
    exact List.pairwise_lt_range'
  obtain ⟨front, split⟩ := List.getLast?_eq_some_iff.mp final
  rw [split, List.map_append, List.pairwise_append] at ordered
  rw [split] at member
  rcases List.mem_append.mp member with early | late
  · exact Nat.le_of_lt (ordered.2.2 _ (List.mem_map_of_mem early) _ List.mem_cons_self)
  · rw [List.mem_singleton.mp late]

end Behind

section Lost

variable {cfg : Config} {ctrl : Control} {inner : Nat} {fuel : List Extent → Nat}
  {groups : List (List JsonPass)} {stores : List StoredZone}

theorem scanned_none {counters : Option FileCounterMap} {extents : List Extent}
    {group : List JsonPass}
    (behind : ∀ e ∈ extents, cfg.endLba ≤ cfg.segmentLba (cfg.segmentId e.phyBlk))
    (scanned : CursorLoop.Scanned (jsonExtentTurn cfg counters inner) fuel extents group) :
    group = [] := by
  refine List.eq_nil_iff_forall_not_mem.mpr fun pass taken => ?_
  have ⟨member, turn⟩ := scanned.pass taken
  exact absurd (jsonExtentTurn_before turn) (UInt64.not_lt.mpr (behind pass.item member))

theorem DumpHistory.last_empty (history : DumpHistory cfg groups stores)
    (last : groups.getLast? = some []) : ∃ zoneInfo,
      KeyedObject.find (storeZones uint32ToStringCast stores)
        (uint32ToStringCast (zoneNumber groups.flatten)) = some ⟨zoneInfo, []⟩ := by
  obtain ⟨front, rfl⟩ := List.getLast?_eq_some_iff.mp last
  obtain ⟨older, stored, rfl⟩ : ∃ older stored, stores = older ++ [stored] := by
    rcases List.eq_nil_or_concat stores with rfl | ⟨older, stored, rfl⟩
    · have length := history.length
      simp at length
    · exact ⟨older, stored, List.concat_eq_append⟩
  have number := congrArg List.getLast? history.numbered
  have segments := congrArg List.getLast? history.segments
  rw [zoneNumbers_snoc] at number
  simp only [List.map_append, List.map_cons, List.map_nil, List.getLast?_append_of_ne_nil, ne_eq,
    List.cons_ne_self, not_false_eq_true, List.getLast?_singleton, Option.some.injEq,
    List.flatMap_nil, List.map_eq_nil_iff, List.nil_append] at number segments
  refine ⟨stored.zoneInfo, ?_⟩
  rw [storeZones, List.map_append, List.map_singleton, KeyedObject.addAll_snoc,
    KeyedObject.find_add, number, if_pos rfl, segments]
  rfl

theorem behind_empties (inZones : InZones cfg ctrl.zonemap) (supported : cfg.toGeometry.Supported)
    (few : cfg.endZone.toNat + 1 < 2 ^ 32)
    (fits : cfg.endZone.toNat * cfg.znsdev.zoneSize.toNat < 2 ^ 64)
    (scanned : List.Forall₂ (CursorLoop.Scanned (jsonExtentTurn cfg ctrl.fileCounterMap inner) fuel)
      ctrl.zonemap.scanned groups) (history : DumpHistory cfg groups stores)
    (reaches : ¬ EndsBehind cfg ctrl.zonemap) : ∃ zoneInfo,
      KeyedObject.find (storeZones uint32ToStringCast stores)
        (uint32ToStringCast (zoneNumber groups.flatten)) = some ⟨zoneInfo, []⟩ := by
  rw [endsBehind_iff inZones supported few fits] at reaches
  obtain ⟨numbered, member, behind⟩ :
      ∃ numbered ∈ ctrl.zonemap.numbered, cfg.endZone.toNat ≤ numbered.2 := by
    simpa using reaches
  have lists := numbered_groups scanned
  have some_zone := List.ne_nil_of_mem member
  have final := List.getLast?_eq_some_getLast some_zone
  have past := Nat.le_trans behind (ZoneMap.le_last member final)
  have some_group : groups ≠ [] := by
    rintro rfl
    exact some_zone (List.forall₂_nil_right_iff.mp lists)
  have closing := List.getLast?_eq_some_getLast some_group
  have closed : groups.getLast? = some [] := by
    rw [closing]
    rw [List.getLast?_eq_getElem?] at final
    rw [List.getLast?_eq_getElem?, ← lists.length_eq] at closing
    have own := List.forall₂_zip lists
      (List.mem_of_getElem? (List.getElem?_zip_eq_some.mpr ⟨final, closing⟩))
    have place := (ZoneMap.mem_numbered (List.mem_of_getElem? final)).1
    refine congrArg some (scanned_none (fun e inside => UInt64.not_lt.mp fun below => ?_) own)
    have before := (inZones.below_iff supported few fits place inside).mp below
    exact absurd before (Nat.not_lt.mpr past)
  exact history.last_empty closed

end Lost

theorem jsonDumpF2fsZonemap_ends {cfg : Config} {dev : Device} {ctrl : Control}
    (listed : ctrl.zonemap.Listed) (few : ctrl.zonemap.zones.length < 1000)
    (start : cfg.startZone = 1) {fuel : List Extent → Nat} {inner : Nat} {final : JsonState}
    {passes : List JsonPass} (inZones : InZones cfg ctrl.zonemap)
    (supported : cfg.toGeometry.Supported)
    (result : jsonDumpF2fsZonemap cfg dev fuel inner ctrl = some (.ok (final, passes))) :
    ∃ groups stores, groups.flatten = passes ∧ DumpHistory cfg groups stores ∧
      final.zonemap = storeZones uint32ToStringCast stores ∧
      (OnlyDrops cfg ctrl.zonemap groups stores final.zonemap ↔ EndsBehind cfg ctrl.zonemap) ∧
      (cfg.endZone.toNat + 1 < 2 ^ 32 → cfg.endZone.toNat * cfg.znsdev.zoneSize.toNat < 2 ^ 64 →
        ¬ EndsBehind cfg ctrl.zonemap → ∃ zoneInfo,
          KeyedObject.find final.zonemap (uint32ToStringCast (zoneNumber passes)) =
            some ⟨zoneInfo, []⟩) := by
  have origin : cfg.startLba = 0 := by simp [Config.startLba, start]
  obtain ⟨groups, stores, rfl, scanned, history, document⟩ := jsonDumpF2fsZonemap_history result
  refine ⟨groups, stores, rfl, history, document, ?_⟩
  rw [document]
  refine ⟨onlyDrops_iff listed few origin scanned history, ?_⟩
  intro small fits reaches
  exact behind_empties inZones supported small fits scanned history reaches

/-- The end zone only drops zones from the document exactly if it drops none: no zone from the end
on holds extents. Where one does, the entry of the zone seen last ends without segments. -/
theorem json_end_exact_iff (cfg : Config) (dev : Device) (ctrl : Control)
    (counters : FileCounterMap) (ready : Reportable cfg dev ctrl counters)
    (few : ctrl.zonemap.zones.length < 1000) (listed : ctrl.zonemap.Listed)
    (inZones : InZones cfg ctrl.zonemap) (start : cfg.startZone = 1) :
    ((∀ e ∈ ctrl.zonemap.extents, cfg.segmentLba (cfg.segmentId e.phyBlk) < cfg.endLba →
        FillLoopEnds cfg e) →
      ∃ final passes, jsonDumpF2fsZonemap cfg dev List.length (2 ^ 32) ctrl =
        some (.ok (final, passes))) ∧
    (∀ fuel inner final passes,
      jsonDumpF2fsZonemap cfg dev fuel inner ctrl = some (.ok (final, passes)) →
        ∃ groups stores, groups.flatten = passes ∧ DumpHistory cfg groups stores ∧
          final.zonemap = storeZones uint32ToStringCast stores ∧
          (OnlyDrops cfg ctrl.zonemap groups stores final.zonemap ↔
            EndsBehind cfg ctrl.zonemap) ∧
          (cfg.endZone.toNat + 1 < 2 ^ 32 →
            cfg.endZone.toNat * cfg.znsdev.zoneSize.toNat < 2 ^ 64 →
            ¬ EndsBehind cfg ctrl.zonemap → ∃ zoneInfo,
              KeyedObject.find final.zonemap (uint32ToStringCast (zoneNumber passes)) =
                some ⟨zoneInfo, []⟩)) ∧
    (cfg.endZone.toNat + 1 < 2 ^ 32 → cfg.endZone.toNat * cfg.znsdev.zoneSize.toNat < 2 ^ 64 →
      (EndsBehind cfg ctrl.zonemap ↔
        ∀ numbered ∈ ctrl.zonemap.numbered, numbered.2 < cfg.endZone.toNat)) := by
  refine ⟨?_, ?_, endsBehind_iff inZones ready.supported⟩
  · intro ends
    refine jsonDumpF2fsZonemap_returns ready fun e inside below => ⟨?_, ends e inside below⟩
    simp [Config.startLba, start]
  · intro fuel inner final passes result
    exact jsonDumpF2fsZonemap_ends listed few start inZones ready.supported result

theorem first_zone_kept :
    ∃ final passes groups stores,
      jsonDumpF2fsZonemap (warmConfig.upTo 1) (fullZones warmConfig) List.length (2 ^ 32)
        (splitFile (8, 8) (4096, 8)) = some (.ok (final, passes)) ∧
      DumpHistory (warmConfig.upTo 1) groups stores ∧
      OnlyDrops (warmConfig.upTo 1) (splitFile (8, 8) (4096, 8)).zonemap groups stores
        final.zonemap := by
  have ready := splitFile_reportable (8, 8) (4096, 8) (by decide)
  have places : ∀ numbered ∈ (splitFile (8, 8) (4096, 8)).zonemap.zones.zipIdx,
      ∀ e ∈ numbered.1.extents, (numbered.2 * 16384 ≤ e.phyBlk.toNat ∧
        e.phyBlk.toNat < (numbered.2 + 1) * 16384) ∧ e.zone.toNat = numbered.2 := by
    decide
  have place : ∀ (index : Nat) (zone : Zone),
      (splitFile (8, 8) (4096, 8)).zonemap.zones[index]? = some zone →
        (zone, index) ∈ (splitFile (8, 8) (4096, 8)).zonemap.zones.zipIdx :=
    fun index zone found => List.mk_mem_zipIdx_iff_getElem?.mpr found
  have inZones : InZones (warmConfig.upTo 1) (splitFile (8, 8) (4096, 8)).zonemap :=
    ⟨by decide, fun index zone found e inside => (places _ (place index zone found) e inside).1⟩
  have listed : (splitFile (8, 8) (4096, 8)).zonemap.Listed :=
    ⟨fun index zone found e inside => (places _ (place index zone found) e inside).2, by decide⟩
  have ⟨returns, written, _⟩ := json_end_exact_iff (warmConfig.upTo 1) (fullZones warmConfig) _
    splitFileCounters (ready.upTo 1) (by decide) listed inZones rfl
  obtain ⟨final, passes, result⟩ := returns (by decide)
  obtain ⟨groups, stores, -, history, -, drops, -⟩ := written _ _ _ _ result
  exact ⟨final, passes, groups, stores, result, history, drops.mpr (by decide)⟩

def threePieces : Control :=
  collected warmConfig (mapFile warmConfig [97] 24
    [⟨0, 8 * 512, 4096, 0⟩, ⟨4096, 4096 * 512, 4096, 0⟩,
      ⟨8192, 20480 * 512, 4096, fiemapExtentLast⟩])

def keysOf (document : JsonZonemap) : List (List Char × List (List Char)) :=
  document.map fun zone => (zone.1, zone.2.segments.map Prod.fst)

-- With end zone 2 the entry of zone 0 holds segment 1. With end zone 1 it is replaced by one without
-- segments when the list of zone 1 is closed.
theorem first_zone_emptied :
    (jsonDumpF2fsZonemap (warmConfig.upTo 2) (fullZones warmConfig) List.length 1
        threePieces).map (·.map fun run => keysOf run.1.zonemap) =
      some (.ok [(['0'], [['1']]), (['1'], [['5']])]) ∧
    ∃ final passes, jsonDumpF2fsZonemap (warmConfig.upTo 1) (fullZones warmConfig) List.length 1
        threePieces = some (.ok (final, passes)) ∧ keysOf final.zonemap = [(['0'], [])] ∧
      ∀ groups stores, groups.flatten = passes → DumpHistory (warmConfig.upTo 1) groups stores →
        ¬ OnlyDrops (warmConfig.upTo 1) threePieces.zonemap groups stores final.zonemap := by
  have computed : (jsonDumpF2fsZonemap (warmConfig.upTo 1) (fullZones warmConfig) List.length 1
      threePieces).map (·.map fun run => decide (keysOf run.1.zonemap = [(['0'], [])] ∧
        run.2.length = 2 ∧ run.2.flatMap (segmentNumbers (warmConfig.upTo 1)) = [1])) =
          some (.ok true) := by
    decide +kernel
  obtain ⟨⟨final, passes⟩, result, shown⟩ := Runs.some_map_ok computed
  obtain ⟨keys, two, numbers⟩ := of_decide_eq_true shown
  dsimp only at keys two numbers
  refine ⟨by decide +kernel, final, passes, result, keys, ?_⟩
  intro groups stores whole history drops
  have first : (threePieces.zonemap.numbered[0]?).map (fun numbered =>
      (numbered.2, numbered.1.extents.length)) = some (0, 2) := by
    decide
  obtain ⟨⟨zone, index⟩, found, same⟩ := Option.map_eq_some_iff.mp first
  obtain ⟨rfl, extents⟩ := Prod.mk.inj same
  obtain ⟨group, stored, here, kept, own, entry⟩ := drops.own 0 0 zone found (by decide)
  -- All passes are those over zone 0, so that its object is stored with segment 1.
  have all : group = passes := by
    obtain ⟨rest, rfl⟩ : ∃ rest, groups = group :: rest := by
      cases groups with
      | nil => cases here
      | cons head rest => exact ⟨rest, by rw [Option.some.inj here]⟩
    have length := congrArg List.length own
    have total := congrArg List.length whole
    rw [List.length_map, extents] at length
    rw [List.flatten_cons, List.length_append] at total
    have more : rest.flatten = [] := List.eq_nil_of_length_eq_zero (by omega)
    rw [← whole, List.flatten_cons, more, List.append_nil]
  have segments : stored.segments.map Prod.fst = [1] := by
    have placed := congrArg (fun lists => lists[0]?) history.segments
    rw [List.getElem?_map, List.getElem?_map, kept, here, all] at placed
    exact (Option.some.inj placed).trans numbers
  obtain ⟨segment, single, -⟩ := List.map_eq_singleton_iff.mp segments
  obtain ⟨member, only, shape⟩ := List.map_eq_singleton_iff.mp keys
  obtain ⟨key, empty⟩ := Prod.mk.inj shape
  rw [only, single, KeyedObject.find, if_pos (show member.1 = idText 0 from key)] at entry
  rw [Option.some.inj entry] at empty
  cases empty

end ZnsTools
