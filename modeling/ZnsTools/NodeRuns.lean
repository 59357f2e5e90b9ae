import ZnsTools.ExtentNodes

set_option autoImplicit false

namespace ZnsTools.ExtentNodes

open Memory

section Store

variable {nodes : Nodes} {owned : List OwnedZone} {extra : Blocks Block} {old : OwnedZone}

def Grown (old new : OwnedZone) (extent : Extent) : Prop :=
  new.zone = ⟨old.extentCtr + 1,
    if old.extentCtr = 0 then ZnsTools.insertZoneListHead extent
    else ZnsTools.sortedZoneListInsert (old.cells.map Cell.value) extent⟩

theorem modify_set {α : Type} (list : List α) (i : Nat) (a : α) (f : α → α) :
    (list.set i a).modify i f = list.set i (f a) := by
  apply List.ext_getElem?
  intro j
  rw [List.getElem?_modify, List.getElem?_set, List.getElem?_set]
  by_cases same : i = j
  · subst same
    by_cases inside : i < list.length <;> simp [inside]
  · simp [same]

theorem leads_zone {index : Nat} (heads : nodes.zones = owned.map OwnedZone.head)
    {front back : List OwnedZone} (split : owned = front ++ old :: back)
    (place : front.length = index) {cell : Cell} {created : Blocks Block}
    (holds : Owns created (cell.blocks none ++ (owned.flatMap OwnedZone.blocks ++ extra))) :
    Leads { nodes with memory := created } index old.extentCtr old.cells none (cell.blocks none ++
      (front.flatMap OwnedZone.blocks ++ (back.flatMap OwnedZone.blocks ++ extra))) where
  head := by
    have found : owned[index]? = some old := by
      rw [split, ← place, List.getElem?_append_right (Nat.le_refl _), Nat.sub_self]
      rfl
    show nodes.zones[index]? = _
    rw [heads, List.getElem?_map, found]
    rfl
  memory := by
    refine holds.reorder ?_
    rw [split, List.flatMap_append, List.flatMap_cons, List.append_assoc, List.append_assoc]
    have moved := @List.perm_append_comm_assoc _ (front.flatMap OwnedZone.blocks) old.blocks
      (back.flatMap OwnedZone.blocks ++ extra)
    exact (List.Perm.append_left _ moved).trans (List.perm_append_comm_assoc _ _ _)

theorem insert_inserted {zone : Nat} {ctr : UInt32} {cells : List Cell} {cell : Cell}
    {others : Blocks Block} (leads : Leads nodes zone ctr cells none (cell.blocks none ++ others))
    (counted : ctr = 0 → cells = []) :
    ∃ next listed,
      (if ctr = 0 then insertZoneListHead nodes zone cell.node
        else sortedZoneListInsert nodes zone cell.node) = .ok next ∧
      Inserted nodes next zone ctr listed
        (if ctr = 0 then ZnsTools.insertZoneListHead cell.value
        else ZnsTools.sortedZoneListInsert (cells.map Cell.value) cell.value) others := by
  by_cases zero : ctr = 0
  · rw [counted zero] at leads
    obtain ⟨next, inserted, left⟩ := insertZoneListHead_inserted leads
    rw [if_pos zero, if_pos zero]
    exact ⟨next, [cell], inserted, left⟩
  · obtain ⟨next, listed, inserted, left⟩ := sortedZoneListInsert_inserted leads
    rw [if_neg zero, if_neg zero]
    exact ⟨next, listed, inserted, left⟩

theorem addExtentToZoneList_holds (allocator : Allocator Block) (extent : Extent)
    (info : Option (Addr × SegmentInfo)) (heads : nodes.zones = owned.map OwnedZone.head)
    (memory : Owns nodes.memory (owned.flatMap OwnedZone.blocks ++ extra))
    (there : ∀ source ∈ info, (source.1, .fsInfo source.2) ∈ extra)
    (found : owned[extent.zone.toNat]? = some old)
    (counted : old.extentCtr = 0 → old.cells = []) :
    ∃ next new, addExtentToZoneList allocator nodes extent (info.map Prod.fst) = .ok next ∧
      next.zones = (owned.set extent.zone.toNat new).map OwnedZone.head ∧
      Owns next.memory ((owned.set extent.zone.toNat new).flatMap OwnedZone.blocks ++ extra) ∧
      Grown old new { extent with fsInfo := info.map Prod.snd } := by
  obtain ⟨cell, created, done, holds, bare, copied⟩ := createZoneExtentNode_holds allocator extent
    info memory fun source given => List.mem_append_right _ (there source given)
  have value : cell.value = { extent with fsInfo := info.map Prod.snd } := by
    rw [Cell.value, bare, copied]
  obtain ⟨front, back, split, place, -⟩ := Buckets.set_split found old
  obtain ⟨next, listed, inserted, left⟩ :=
    insert_inserted (leads_zone heads split place holds) counted
  have here : nodes.zones[extent.zone.toNat]? = some old.head := by
    rw [heads, List.getElem?_map, found]
    rfl
  have updated (new : OwnedZone) : owned.set extent.zone.toNat new = front ++ new :: back := by
    rw [split, ← place, List.set_append_right _ _ (Nat.le_refl _), Nat.sub_self, List.set_cons_zero]
  refine ⟨{ next with zones := next.zones.modify extent.zone.toNat fun zone =>
    { zone with extentCtr := zone.extentCtr + 1 } }, ⟨old.extentCtr + 1, listed⟩, ?_, ?_, ?_, ?_⟩
  · rw [addExtentToZoneList, done, Runs.ok_bind]
    dsimp only
    rw [here]
    by_cases zero : old.extentCtr = 0
    · have also : old.head.extentCtr = 0 := zero
      rw [if_pos zero] at inserted
      dsimp only
      rw [if_pos also]
      exact congrArg (· >>= _) inserted
    · have also : ¬ old.head.extentCtr = 0 := zero
      rw [if_neg zero] at inserted
      dsimp only
      rw [if_neg also]
      exact congrArg (· >>= _) inserted
  · dsimp only
    rw [left.zones, modify_set, List.map_set, heads]
    rfl
  · refine left.memory.reorder ?_
    rw [updated, List.flatMap_append, List.flatMap_cons, List.append_assoc, List.append_assoc]
    exact List.perm_append_comm_assoc _ _ _
  · rw [Grown, OwnedZone.zone, left.extents, value]

theorem storeExtent_beside (allocator : Allocator Block) {zones : List Zone}
    (beside : Beside nodes owned zones extra) (extent : Extent)
    (found : owned[extent.zone.toNat]? = some old)
    (counted : old.extentCtr = 0 → old.cells = []) :
    ∃ next new, storeExtent allocator nodes extent = .ok next ∧ Grown old new extent ∧
      Beside next (owned.set extent.zone.toNat new) (zones.set extent.zone.toNat new.zone)
        extra := by
  have lists (new : OwnedZone) : zones.set extent.zone.toNat new.zone =
      (owned.set extent.zone.toNat new).map OwnedZone.zone := by
    rw [beside.lists, List.map_set]
  rw [storeExtent.eq_def]
  cases own : extent.fsInfo with
  | none =>
    obtain ⟨next, new, added, heads, memory, grown⟩ := addExtentToZoneList_holds allocator extent
      none beside.heads beside.memory (by rintro _ ⟨⟩) found counted
    have same : { extent with fsInfo := (none : Option SegmentInfo) } = extent := by rw [← own]
    exact ⟨next, new, added, same ▸ grown, heads, lists new, memory⟩
  | some segI =>
    let info := alloc allocator nodes.memory (.fsInfo segI)
    have held : Owns info.2 (owned.flatMap OwnedZone.blocks ++ (info.1, .fsInfo segI) :: extra) :=
      (beside.memory.alloc allocator _).reorder List.perm_middle.symm
    obtain ⟨added, new, filed, heads, memory, grown⟩ :=
      @addExtentToZoneList_holds { nodes with memory := info.2 } _ _ _ allocator
        { extent with fsInfo := none } (some (info.1, segI)) beside.heads held
        (by rintro _ ⟨⟩; exact List.mem_cons_self) found counted
    obtain ⟨left, freed, kept⟩ := memory.free
    have same : { extent with fsInfo := some segI } = extent := by rw [← own]
    refine ⟨{ added with memory := left }, new, ?_, same ▸ grown, heads, lists new, kept⟩
    refine (congrArg (· >>= _) filed).trans ?_
    rw [Runs.ok_bind]
    exact congrArg (· >>= _) freed

end Store

section Run

variable {nodes : Nodes} {owned : List OwnedZone}

theorem initNodes_represents (nrZones : UInt32) :
    Represents (initNodes nrZones) (List.replicate nrZones.toNat ⟨0, []⟩)
      (initZoneMap nrZones).zones where
  heads := by
    rw [initNodes, List.map_replicate]
    rfl
  lists := by
    rw [initZoneMap, List.map_replicate]
    rfl
  memory := by
    have none : (List.replicate nrZones.toNat (⟨0, []⟩ : OwnedZone)).flatMap OwnedZone.blocks =
        [] := by
      rw [List.flatMap_eq_nil_iff]
      intro zone inside
      rw [List.eq_of_mem_replicate inside]
      rfl
    rw [none]
    exact .empty

theorem storeExtent_follows (allocator : Allocator Block) {zonemap filed : ZoneMap}
    {accepted : List Extent} {extent : Extent} {extra : Blocks Block}
    (beside : Beside nodes owned zonemap.zones extra) (consistent : zonemap.Consistent accepted)
    (added : ZnsTools.addExtentToZoneList zonemap extent = .ok filed) :
    ∃ next grown, storeExtent allocator nodes extent = .ok next ∧
      Beside next grown filed.zones extra := by
  obtain ⟨zone, found, rfl⟩ := addExtentToZoneList_ok added
  have listed := found
  rw [beside.lists, List.getElem?_map, Option.map_eq_some_iff] at listed
  obtain ⟨old, here, rfl⟩ := listed
  have counted : old.extentCtr = 0 → old.cells = [] := by
    intro zero
    have ctr := consistent.counted _ (List.mem_of_getElem? found)
    have none : old.zone.extentCtr.toNat = 0 := congrArg UInt32.toNat zero
    rw [none, OwnedZone.zone, List.length_map] at ctr
    exact List.length_eq_zero_iff.mp ctr.symm
  obtain ⟨next, new, stored, grown, after⟩ :=
    storeExtent_beside allocator beside extent here counted
  rw [grown] at after
  exact ⟨next, _, stored, after⟩

theorem run_represents (allocator : Allocator Block) {cfg : Config} {events : List Event}
    {m : Machine} (run : collect cfg events = .ok m) (few : m.accepted.length < 2 ^ 32) :
    ∃ nodes owned, m.accepted.foldlM (storeExtent allocator) (initNodes cfg.znsdev.nrZones) =
      .ok nodes ∧ Represents nodes owned m.ctrl.zonemap.zones := by
  let Follows (m : Machine) : Prop := m.accepted.length < 2 ^ 32 →
    m.ctrl.zonemap.Consistent m.accepted ∧ ∃ nodes owned,
      m.accepted.foldlM (storeExtent allocator) (initNodes cfg.znsdev.nrZones) = .ok nodes ∧
        Represents nodes owned m.ctrl.zonemap.zones
  have start : Follows (Machine.start cfg) := fun _ => ⟨initZoneMap_consistent _, _, _, rfl,
    initNodes_represents _⟩
  refine (Runs.foldlM_invariant Follows ?_ run start few).2
  intro state event _ next follows moved short
  refine ⟨step_consistent moved (fun small => (follows small).1) short, ?_⟩
  rcases step_zonemap moved with ⟨same, history⟩ | ⟨extent, ctrl, -, filed, same, history⟩
  · rw [same, history]
    exact (follows (history ▸ short)).2
  · have before : state.accepted.length < 2 ^ 32 := by
      rw [history, List.length_append] at short
      omega
    obtain ⟨consistent, nodes, owned, built, represents⟩ := follows before
    obtain ⟨zonemap, added, rfl⟩ := storeExtent_ok filed
    obtain ⟨stored, grown, done, after⟩ :=
      storeExtent_follows allocator represents.beside consistent added
    refine ⟨stored, grown, ?_, same ▸ after.represents⟩
    rw [history, List.foldlM_append, built, Runs.ok_bind, List.foldlM_cons, done, Runs.ok_bind]
    rfl

end Run

/-- Filing the extents of a run node by node reaches nothing that is not allocated, and the nodes
make up exactly the lists of the run's zone map. -/
theorem nodes_refine_lists (allocator : Allocator Block) (cfg : Config) (events : List Event)
    (m : Machine) (run : collect cfg events = .ok m) (few : m.accepted.length < 2 ^ 32) :
    ∃ nodes owned, m.accepted.foldlM (storeExtent allocator) (initNodes cfg.znsdev.nrZones) =
      .ok nodes ∧ Represents nodes owned m.ctrl.zonemap.zones :=
  run_represents allocator run few

def twoExtentsConfig : Config :=
  segmapConfig 512 0 8192 2 (List.replicate 4 ⟨0, .cursegWarmData, 512⟩)

def twoExtents : List Event :=
  mapFile twoExtentsConfig [97] 16 [⟨0, 12288, 4096, 0⟩, ⟨4096, 4096, 4096, 1⟩]

theorem twoExtents_collected :
    ∃ m, collect twoExtentsConfig twoExtents = .ok m ∧ m.accepted.length = 2 := by
  have counted : (collect twoExtentsConfig twoExtents).map (·.accepted.length) = .ok 2 := by
    decide
  obtain ⟨m, run, two⟩ := Runs.map_ok counted
  exact ⟨m, run, two⟩

theorem two_nodes_refine_lists : ∃ m, collect twoExtentsConfig twoExtents = .ok m ∧
    ∃ nodes owned, m.accepted.foldlM (storeExtent .least) (initNodes 2) = .ok nodes ∧
      Represents nodes owned m.ctrl.zonemap.zones := by
  obtain ⟨m, run, two⟩ := twoExtents_collected
  exact ⟨m, run, nodes_refine_lists .least twoExtentsConfig twoExtents m run (by omega)⟩

end ZnsTools.ExtentNodes
