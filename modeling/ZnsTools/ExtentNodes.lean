import Mathlib.Data.List.Induction
import ZnsTools.Collection
import ZnsTools.Shared.Memory

set_option autoImplicit false

namespace ZnsTools.ExtentNodes

open Memory

-- The zone lists as the nodes they are made of, and what the calls of `get_extents` have allocated
-- besides. `extent` has no `fsInfo` of its own: the struct points to it.
inductive Block where
  | node (extent next : Option Addr)
  | extent (extent : Extent) (fsInfo : Option Addr)
  | fsInfo (segI : SegmentInfo)
  | fiemap
  deriving DecidableEq, Repr

structure ZoneHead where
  extentCtr : UInt32
  extentsHead : Option Addr
  deriving DecidableEq, Repr

structure Nodes where
  memory : Blocks Block
  zones : List ZoneHead
  deriving DecidableEq, Repr

def initNodes (nrZones : UInt32) : Nodes :=
  ⟨[], List.replicate nrZones.toNat ⟨0, none⟩⟩

def readNode (memory : Blocks Block) : Option Addr → Except Fault (Option Addr × Option Addr)
  | none => .error .notAllocated
  | some node => do
    match ← read memory node with
    | .node extent next => .ok (extent, next)
    | _ => .error .notAllocated

def readExtent (memory : Blocks Block) : Option Addr → Except Fault (Extent × Option Addr)
  | none => .error .notAllocated
  | some extent => do
    match ← read memory extent with
    | .extent extent fsInfo => .ok (extent, fsInfo)
    | _ => .error .notAllocated

def readFsInfo (memory : Blocks Block) (fsInfo : Addr) : Except Fault SegmentInfo := do
  match ← read memory fsInfo with
  | .fsInfo segI => .ok segI
  | _ => .error .notAllocated

def phyBlkOf (memory : Blocks Block) (node : Addr) : Except Fault UInt64 := do
  let (extent, _) ← readNode memory (some node)
  let (extent, _) ← readExtent memory extent
  pure extent.phyBlk

-- The node's own `extent` is a copy, and so is what that one points to.
def createZoneExtentNode (allocator : Allocator Block) (memory : Blocks Block) (extent : Extent)
    (fsInfo : Option Addr) : Except Fault (Addr × Blocks Block) := do
  let (node, memory) := alloc allocator memory (.node none none)
  let (copy, memory) := alloc allocator memory (.extent extent fsInfo)
  let memory ← write memory node (.node (some copy) none)
  match fsInfo with
  | none => pure (node, memory)
  | some info => do
    let segI ← readFsInfo memory info
    let (infoCopy, memory) := alloc allocator memory (.fsInfo segI)
    let memory ← write memory copy (.extent extent (some infoCopy))
    pure (node, memory)

-- What a `struct node **` points to.
inductive Slot where
  | head (zone : Nat)
  | next (node : Addr)
  deriving DecidableEq, Repr

def Nodes.load (nodes : Nodes) : Slot → Except Fault (Option Addr)
  | .head zone =>
    match nodes.zones[zone]? with
    | none => .error .notAllocated
    | some zone => .ok zone.extentsHead
  | .next node => do
    let (_, next) ← readNode nodes.memory (some node)
    pure next

def Nodes.assign (nodes : Nodes) (pointer : Option Addr) : Slot → Except Fault Nodes
  | .head zone =>
    match nodes.zones[zone]? with
    | none => .error .notAllocated
    | some head => .ok { nodes with
        zones := nodes.zones.set zone { head with extentsHead := pointer } }
  | .next node => do
    let (extent, _) ← readNode nodes.memory (some node)
    let memory ← write nodes.memory node (.node extent pointer)
    pure { nodes with memory := memory }

def insertZoneListHead (nodes : Nodes) (zone : Nat) (node : Addr) : Except Fault Nodes :=
  nodes.assign (some node) (.head zone)

def findSlot (nodes : Nodes) (node : Addr) : Nat → Slot → Except Fault Slot
  | 0, _ => .error .endless
  | turns + 1, slot => do
    match ← nodes.load slot with
    | none => pure slot
    | some current => do
      let stored ← phyBlkOf nodes.memory current
      let added ← phyBlkOf nodes.memory node
      if stored < added then findSlot nodes node turns (.next current) else pure slot

-- No list has more nodes than there are blocks.
def sortedZoneListInsert (nodes : Nodes) (zone : Nat) (node : Addr) : Except Fault Nodes := do
  let slot ← findSlot nodes node (nodes.memory.length + 1) (.head zone)
  let current ← nodes.load slot
  let nodes ← nodes.assign current (.next node)
  nodes.assign (some node) slot

def addExtentToZoneList (allocator : Allocator Block) (nodes : Nodes) (extent : Extent)
    (fsInfo : Option Addr) : Except Fault Nodes := do
  let (node, memory) ← createZoneExtentNode allocator nodes.memory extent fsInfo
  match nodes.zones[extent.zone.toNat]? with
  | none => .error .notAllocated
  | some zone => do
    let nodes := { nodes with memory := memory }
    let nodes ← if zone.extentCtr = 0 then insertZoneListHead nodes extent.zone.toNat node
      else sortedZoneListInsert nodes extent.zone.toNat node
    pure { nodes with zones := nodes.zones.modify extent.zone.toNat fun zone =>
      { zone with extentCtr := zone.extentCtr + 1 } }

-- In `get_extents`: the list gets the extent by value, and its information is freed again once the
-- list has a copy of it.
def storeExtent (allocator : Allocator Block) (nodes : Nodes) (extent : Extent) :
    Except Fault Nodes :=
  match extent.fsInfo with
  | none => addExtentToZoneList allocator nodes extent none
  | some segI => do
    let (info, memory) := alloc allocator nodes.memory (.fsInfo segI)
    let nodes ← addExtentToZoneList allocator { nodes with memory := memory }
      { extent with fsInfo := none } (some info)
    let memory ← free nodes.memory info
    pure { nodes with memory := memory }

def clearedExtent : Extent :=
  { zone := 0, flags := 0, extNr := 0, fileID := 0, logicalBlk := 0, phyBlk := 0, zoneLbas := 0
    zoneCap := 0, len := 0, zoneSize := 0, zoneWp := 0, zoneLbae := 0, fsInfo := none, file := [] }

-- `call` has the `fiemap` and the `extent` of a call in progress.
structure Heap where
  nodes : Nodes
  call : Option (Addr × Addr)
  deriving DecidableEq, Repr

section Layout

structure Cell where
  node : Addr
  extent : Addr
  bare : Extent
  info : Option (Addr × SegmentInfo)

def Cell.value (cell : Cell) : Extent :=
  { cell.bare with fsInfo := cell.info.map Prod.snd }

def Cell.infoBlocks (cell : Cell) : Blocks Block :=
  cell.info.toList.map fun info => (info.1, .fsInfo info.2)

def Cell.blocks (cell : Cell) (next : Option Addr) : Blocks Block :=
  (cell.node, .node (some cell.extent) next) ::
    (cell.extent, .extent cell.bare (cell.info.map Prod.fst)) :: cell.infoBlocks

def headOr (cells : List Cell) (tail : Option Addr) : Option Addr :=
  match cells with
  | [] => tail
  | cell :: _ => some cell.node

def blocksTo : List Cell → Option Addr → Blocks Block
  | [], _ => []
  | cell :: rest, tail => cell.blocks (headOr rest tail) ++ blocksTo rest tail

structure OwnedZone where
  extentCtr : UInt32
  cells : List Cell

def OwnedZone.zone (owned : OwnedZone) : Zone :=
  ⟨owned.extentCtr, owned.cells.map Cell.value⟩

def OwnedZone.head (owned : OwnedZone) : ZoneHead :=
  ⟨owned.extentCtr, headOr owned.cells none⟩

def OwnedZone.blocks (owned : OwnedZone) : Blocks Block :=
  blocksTo owned.cells none

/-- The nodes make up these lists, and there is nothing else in the memory. -/
structure Represents (nodes : Nodes) (owned : List OwnedZone) (zones : List Zone) : Prop where
  heads : nodes.zones = owned.map OwnedZone.head
  lists : zones = owned.map OwnedZone.zone
  memory : Owns nodes.memory (owned.flatMap OwnedZone.blocks)

structure Beside (nodes : Nodes) (owned : List OwnedZone) (zones : List Zone)
    (extra : Blocks Block) : Prop where
  heads : nodes.zones = owned.map OwnedZone.head
  lists : zones = owned.map OwnedZone.zone
  memory : Owns nodes.memory (owned.flatMap OwnedZone.blocks ++ extra)

theorem Represents.beside {nodes : Nodes} {owned : List OwnedZone} {zones : List Zone}
    (represents : Represents nodes owned zones) : Beside nodes owned zones [] :=
  ⟨represents.heads, represents.lists, by simpa using represents.memory⟩

theorem Beside.represents {nodes : Nodes} {owned : List OwnedZone} {zones : List Zone}
    (beside : Beside nodes owned zones []) : Represents nodes owned zones :=
  ⟨beside.heads, beside.lists, by simpa using beside.memory⟩

theorem headOr_append (first second : List Cell) (tail : Option Addr) :
    headOr (first ++ second) tail = headOr first (headOr second tail) := by
  cases first <;> rfl

theorem blocksTo_append (first second : List Cell) (tail : Option Addr) :
    blocksTo (first ++ second) tail =
      blocksTo first (headOr second tail) ++ blocksTo second tail := by
  induction first with
  | nil => rfl
  | cons cell rest ih =>
    rw [List.cons_append, blocksTo, blocksTo, ih, headOr_append, List.append_assoc]

theorem blocksTo_single (cell : Cell) (tail : Option Addr) :
    blocksTo [cell] tail = cell.blocks tail := by
  rw [blocksTo, headOr, blocksTo, List.append_nil]

theorem length_blocksTo (cells : List Cell) (tail : Option Addr) :
    cells.length ≤ (blocksTo cells tail).length := by
  induction cells with
  | nil => exact Nat.le_refl _
  | cons cell rest ih =>
    rw [blocksTo, Cell.blocks, List.length_append, List.length_cons, List.length_cons,
      List.length_cons]
    omega

end Layout

section Reads

variable {memory blocks : Blocks Block} {cell : Cell} {next : Option Addr}

theorem readNode_cell (holds : Owns memory blocks) (inside : cell.blocks next ⊆ blocks) :
    readNode memory (some cell.node) = .ok (some cell.extent, next) := by
  have own := holds.read (inside List.mem_cons_self)
  rw [readNode, own]
  rfl

theorem phyBlkOf_cell (holds : Owns memory blocks) (inside : cell.blocks next ⊆ blocks) :
    phyBlkOf memory cell.node = .ok cell.bare.phyBlk := by
  have own := holds.read (inside (List.mem_cons_of_mem _ List.mem_cons_self))
  rw [phyBlkOf, readNode_cell holds inside, Runs.ok_bind]
  dsimp only
  rw [readExtent, own]
  rfl

end Reads

section Create

variable {memory blocks : Blocks Block}

theorem createZoneExtentNode_holds (allocator : Allocator Block) (extent : Extent)
    (info : Option (Addr × SegmentInfo)) (holds : Owns memory blocks)
    (there : ∀ source ∈ info, (source.1, .fsInfo source.2) ∈ blocks) :
    ∃ (cell : Cell) (created : Blocks Block),
      createZoneExtentNode allocator memory extent (info.map Prod.fst) = .ok (cell.node, created) ∧
      Owns created (cell.blocks none ++ blocks) ∧ cell.bare = extent ∧
      cell.info.map Prod.snd = info.map Prod.snd := by
  let node := alloc allocator memory (.node none none)
  let copy := alloc allocator node.2 (.extent extent (info.map Prod.fst))
  have allocated : Owns copy.2 ([(copy.1, .extent extent (info.map Prod.fst))] ++
      (node.1, .node none none) :: blocks) := (holds.alloc allocator _).alloc allocator _
  obtain ⟨linked, written, held⟩ := allocated.write (.node (some copy.1) none)
  cases info with
  | none =>
    refine ⟨⟨node.1, copy.1, extent, none⟩, linked, ?_, held.reorder (.swap _ _ _), rfl, rfl⟩
    rw [createZoneExtentNode]
    exact congrArg (· >>= _) written
  | some source =>
    have readable : readFsInfo linked source.1 = .ok source.2 := by
      have inside : (source.1, Block.fsInfo source.2) ∈ blocks := there source rfl
      rw [readFsInfo, held.read (List.mem_append_right _ (List.mem_cons_of_mem _ inside))]
      rfl
    let infoCopy := alloc allocator linked (.fsInfo source.2)
    have copied : Owns infoCopy.2 ([(infoCopy.1, .fsInfo source.2)] ++
        (copy.1, .extent extent (some source.1)) ::
          ((node.1, .node (some copy.1) none) :: blocks)) := held.alloc allocator _
    obtain ⟨created, pointed, final⟩ := copied.write (.extent extent (some infoCopy.1))
    refine ⟨⟨node.1, copy.1, extent, some (infoCopy.1, source.2)⟩, created, ?_, ?_, rfl, rfl⟩
    · rw [createZoneExtentNode]
      refine (congrArg (· >>= _) written).trans ?_
      rw [Runs.ok_bind, Option.map_some]
      refine (congrArg (· >>= _) readable).trans ?_
      rw [Runs.ok_bind]
      exact congrArg (· >>= _) pointed
    · exact final.reorder ((List.reverse_perm [(node.1, Block.node (some copy.1) none),
        (copy.1, Block.extent extent (some infoCopy.1)),
        (infoCopy.1, Block.fsInfo source.2)]).append_right blocks)

end Create

section Slots

variable {nodes : Nodes} {zone : Nat} {ctr : UInt32} {before : List Cell} {tail : Option Addr}
  {others : Blocks Block}

def slotOf (zone : Nat) (before : List Cell) : Slot :=
  match before.getLast? with
  | none => .head zone
  | some cell => .next cell.node

structure Leads (nodes : Nodes) (zone : Nat) (ctr : UInt32) (before : List Cell)
    (tail : Option Addr) (others : Blocks Block) : Prop where
  head : nodes.zones[zone]? = some ⟨ctr, headOr before tail⟩
  memory : Owns nodes.memory (blocksTo before tail ++ others)

theorem slotOf_concat (zone : Nat) (before : List Cell) (last : Cell) :
    slotOf zone (before ++ [last]) = .next last.node := by
  rw [slotOf, List.getLast?_concat]

theorem last_blocks (first : List Cell) (last : Cell) (tail : Option Addr)
    (others : Blocks Block) : last.blocks tail ⊆ blocksTo (first ++ [last]) tail ++ others := by
  rw [blocksTo_append, blocksTo_single, List.append_assoc]
  exact List.Subset.trans (List.subset_append_left _ _) (List.subset_append_right _ _)

theorem load_slot (leads : Leads nodes zone ctr before tail others) :
    nodes.load (slotOf zone before) = .ok tail := by
  cases before using List.reverseRecOn with
  | nil =>
    rw [slotOf, List.getLast?_nil, Nodes.load, leads.head]
    rfl
  | append_singleton first last =>
    have own := last_blocks first last tail others
    rw [slotOf_concat, Nodes.load, readNode_cell leads.memory own]
    rfl

theorem assign_next {front back : Blocks Block} {cell : Cell} {next : Option Addr}
    (holds : Owns nodes.memory (front ++ (cell.blocks next ++ back))) (pointer : Option Addr) :
    ∃ memory, nodes.assign pointer (.next cell.node) = .ok { nodes with memory := memory } ∧
      Owns memory (front ++ (cell.blocks pointer ++ back)) := by
  have own : cell.blocks next ⊆ front ++ (cell.blocks next ++ back) :=
    List.Subset.trans (List.subset_append_left _ _) (List.subset_append_right _ _)
  obtain ⟨memory, written, held⟩ :=
    @Owns.write _ _ front _ cell.node _ holds (.node (some cell.extent) pointer)
  refine ⟨memory, ?_, held⟩
  rw [Nodes.assign, readNode_cell holds own, Runs.ok_bind]
  exact congrArg (· >>= _) written

theorem assign_slot (leads : Leads nodes zone ctr before tail others) (pointer : Option Addr) :
    ∃ assigned, nodes.assign pointer (slotOf zone before) = .ok assigned ∧
      Owns assigned.memory (blocksTo before pointer ++ others) ∧
      assigned.zones = nodes.zones.set zone ⟨ctr, headOr before pointer⟩ := by
  cases before using List.reverseRecOn with
  | nil =>
    refine ⟨{ nodes with zones := nodes.zones.set zone ⟨ctr, pointer⟩ }, ?_, leads.memory, rfl⟩
    rw [slotOf, List.getLast?_nil, Nodes.assign, leads.head]
  | append_singleton first last =>
    have split (link : Option Addr) : blocksTo (first ++ [last]) link ++ others =
        blocksTo first (some last.node) ++ (last.blocks link ++ others) := by
      rw [blocksTo_append, blocksTo_single, List.append_assoc]
      rfl
    have memory := leads.memory
    rw [split] at memory
    obtain ⟨next, assigned, holds⟩ := assign_next memory pointer
    refine ⟨_, by rw [slotOf_concat, assigned], by rwa [split], ?_⟩
    have same : headOr (first ++ [last]) pointer = headOr (first ++ [last]) tail := by
      rw [headOr_append, headOr_append]
      rfl
    obtain ⟨inside, here⟩ := List.getElem?_eq_some_iff.mp leads.head
    rw [same, ← here, List.set_getElem_self]

theorem Leads.split {first second : List Cell}
    (leads : Leads nodes zone ctr (first ++ second) tail others) :
    Leads nodes zone ctr first (headOr second tail) (blocksTo second tail ++ others) where
  head := by rw [leads.head, headOr_append]
  memory := by
    have memory := leads.memory
    rwa [blocksTo_append, List.append_assoc] at memory

end Slots

section Insert

variable {nodes : Nodes} {zone : Nat} {ctr : UInt32} {others : Blocks Block}

theorem findSlot_stops {node : Addr} {extent : Extent} (before after : List Cell)
    (leads : Leads nodes zone ctr (before ++ after) none others)
    (added : phyBlkOf nodes.memory node = .ok extent.phyBlk) {turns : Nat}
    (enough : after.length < turns) :
    ∃ skipped rest, after = skipped ++ rest ∧
      findSlot nodes node turns (slotOf zone before) = .ok (slotOf zone (before ++ skipped)) ∧
      ZnsTools.sortedZoneListInsert (after.map Cell.value) extent =
        skipped.map Cell.value ++ extent :: rest.map Cell.value := by
  induction after generalizing before turns with
  | nil =>
    obtain ⟨turns, rfl⟩ := Nat.exists_eq_succ_of_ne_zero (Nat.ne_zero_of_lt enough)
    refine ⟨[], [], rfl, ?_, rfl⟩
    rw [findSlot, load_slot leads.split, List.append_nil]
    rfl
  | cons cell after ih =>
    obtain ⟨turns, rfl⟩ := Nat.exists_eq_succ_of_ne_zero (Nat.ne_zero_of_lt enough)
    have stored : phyBlkOf nodes.memory cell.node = .ok cell.bare.phyBlk := by
      refine @phyBlkOf_cell _ _ cell (headOr after none) leads.memory ?_
      rw [blocksTo_append, blocksTo, List.append_assoc, List.append_assoc]
      exact List.Subset.trans (List.subset_append_left _ _) (List.subset_append_right _ _)
    have turn : findSlot nodes node (turns + 1) (slotOf zone before) =
        if cell.bare.phyBlk < extent.phyBlk then findSlot nodes node turns (.next cell.node)
        else .ok (slotOf zone before) := by
      rw [findSlot, load_slot leads.split]
      dsimp only [headOr]
      rw [Runs.ok_bind]
      dsimp only
      rw [stored, Runs.ok_bind, added, Runs.ok_bind]
      rfl
    rw [turn, List.map_cons, ZnsTools.sortedZoneListInsert]
    by_cases earlier : cell.bare.phyBlk < extent.phyBlk
    · have here : cell.value.phyBlk < extent.phyBlk := earlier
      rw [if_pos earlier, if_pos here]
      rw [List.append_cons] at leads
      obtain ⟨skipped, rest, rfl, found, inserted⟩ := ih (before ++ [cell]) leads
        (Nat.lt_of_succ_lt_succ enough)
      refine ⟨cell :: skipped, rest, rfl, ?_, by rw [inserted]; rfl⟩
      rw [slotOf_concat, List.append_assoc] at found
      exact found
    · have here : ¬ cell.value.phyBlk < extent.phyBlk := earlier
      rw [if_neg earlier, if_neg here]
      exact ⟨[], cell :: after, rfl, by rw [List.append_nil], rfl⟩

structure Inserted (nodes next : Nodes) (zone : Nat) (ctr : UInt32) (cells : List Cell)
    (extents : List Extent) (others : Blocks Block) : Prop where
  zones : next.zones = nodes.zones.set zone ⟨ctr, headOr cells none⟩
  memory : Owns next.memory (blocksTo cells none ++ others)
  extents : cells.map Cell.value = extents

theorem insertZoneListHead_inserted {cell : Cell}
    (leads : Leads nodes zone ctr [] none (cell.blocks none ++ others)) :
    ∃ next, insertZoneListHead nodes zone cell.node = .ok next ∧
      Inserted nodes next zone ctr [cell] (ZnsTools.insertZoneListHead cell.value) others := by
  obtain ⟨next, assigned, memory, zones⟩ := assign_slot leads (some cell.node)
  exact ⟨next, assigned, zones, by rwa [blocksTo_single], rfl⟩

theorem sortedZoneListInsert_inserted {cells : List Cell} {cell : Cell}
    (leads : Leads nodes zone ctr cells none (cell.blocks none ++ others)) :
    ∃ next listed, sortedZoneListInsert nodes zone cell.node = .ok next ∧
      Inserted nodes next zone ctr listed
        (ZnsTools.sortedZoneListInsert (cells.map Cell.value) cell.value) others := by
  have added : phyBlkOf nodes.memory cell.node = .ok cell.value.phyBlk := by
    refine @phyBlkOf_cell _ _ cell none leads.memory ?_
    exact List.Subset.trans (List.subset_append_left _ _) (List.subset_append_right _ _)
  have enough : cells.length < nodes.memory.length + 1 := by
    have most := length_blocksTo cells none
    rw [leads.memory.perm.length_eq, List.length_append]
    omega
  obtain ⟨skipped, rest, rfl, found, inserted⟩ := findSlot_stops [] cells leads added enough
  have here := leads.split
  have beside : Owns nodes.memory ((blocksTo skipped (headOr rest none) ++ blocksTo rest none) ++
      (cell.blocks none ++ others)) := by
    rw [List.append_assoc]
    exact here.memory
  obtain ⟨linked, assigned, memory⟩ := assign_next beside (headOr rest none)
  have leading : Leads { nodes with memory := linked } zone ctr skipped (headOr rest none)
      (blocksTo rest none ++ (cell.blocks (headOr rest none) ++ others)) :=
    ⟨here.head, by rwa [List.append_assoc] at memory⟩
  obtain ⟨next, entered, holds, zones⟩ := assign_slot leading (some cell.node)
  have split : blocksTo (skipped ++ cell :: rest) none = blocksTo skipped (some cell.node) ++
      (cell.blocks (headOr rest none) ++ blocksTo rest none) := by
    rw [blocksTo_append]
    rfl
  refine ⟨next, skipped ++ cell :: rest, ?_, ?_, ?_, ?_⟩
  · rw [sortedZoneListInsert]
    have start : slotOf zone [] = .head zone := rfl
    rw [← start, found, Runs.ok_bind, List.nil_append, load_slot here, Runs.ok_bind, assigned,
      Runs.ok_bind]
    exact entered
  · rw [zones, headOr_append]
    rfl
  · refine holds.reorder ?_
    rw [split, List.append_assoc, List.append_assoc]
    refine List.Perm.append_left _ ?_
    rw [← List.append_assoc, ← List.append_assoc]
    exact List.perm_append_comm.append_right _
  · rw [inserted, List.map_append]
    rfl

end Insert

end ZnsTools.ExtentNodes
