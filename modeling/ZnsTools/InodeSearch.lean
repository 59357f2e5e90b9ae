import ZnsTools.InodeAddress
import ZnsTools.NatIterator
import ZnsTools.ZoneAgreement

set_option autoImplicit false

namespace ZnsTools

structure NodeFooter where
  nid : UInt32
  ino : UInt32
  flag : UInt32
  nextBlkaddr : UInt32
  deriving DecidableEq, Repr

-- `ι` stands for the 4072 bytes before the footer: an inode, or the addresses of other blocks.
structure F2fsNode (ι : Type) where
  i : ι
  footer : NodeFooter
  deriving DecidableEq, Repr

-- What reading a node at a byte offset leaves in the zeroed buffer, if the read does not fail.
abbrev NodeDevice (ι : Type) := UInt64 → Option (F2fsNode ι)

def isInode {ι : Type} (node : F2fsNode ι) : Bool :=
  node.footer.nid == node.footer.ino

def f2fsGetNodeBlock {ι : Type} (fd : Option (NodeDevice ι)) (blockAddr : UInt32) :
    Except Abort (F2fsNode ι) :=
  match fd with
  | none => .error .exitFailure
  | some dev =>
    match dev (nodeOffset blockAddr) with
    | none => .error .exitFailure
    | some nodeBlock => .ok nodeBlock

-- The `do` loop of zns.imap, `none` where it has not ended after so many turns.
def findInode {ι : Type} (sb : SuperBlock) (bdev : Option BlockDevice)
    (znsdev : Option (NodeDevice ι)) (stIno : UInt64) :
    Nat → NatCursor → Option (Except Abort (NatEntry × F2fsNode ι))
  | 0, _ => none
  | turns + 1, cursor =>
    let lookup := f2fsGetInodeNatEntry sb bdev stIno.toUInt32 cursor
    match lookup.result with
    | .error abort => some (.error abort)
    | .ok none => some (.error .exitFailure)
    | .ok (some natEntry) =>
      match f2fsGetNodeBlock znsdev natEntry.blockAddr with
      | .error abort => some (.error abort)
      | .ok nodeBlock =>
        if isInode nodeBlock then some (.ok (natEntry, nodeBlock))
        else findInode sb bdev znsdev stIno turns lookup.cursor

structure InodeReport (ι : Type) where
  ino : UInt32
  zone : UInt32
  zoneInfo : List Line
  pbas : UInt64
  pbae : UInt64
  footer : NodeFooter
  inode : ι
  deriving DecidableEq, Repr

-- `zones` is the ZNS device as it answers `print_zone_info`.
def reportInode {ι : Type} (cfg : Config) (zones : Device) (natEntry : NatEntry)
    (nodeBlock : F2fsNode ι) : Except Abort (InodeReport ι) := do
  let lba := inodePbas cfg.toGeometry natEntry.blockAddr
  let zone ← imapZoneNumber cfg lba
  let zoneInfo ← printZoneInfo cfg zones zone
  pure ⟨natEntry.ino, zone, zoneInfo, lba, inodePbae cfg.toGeometry natEntry.blockAddr,
    nodeBlock.footer, nodeBlock.i⟩

def znsImap {ι : Type} (cfg : Config) (zones : Device) (sb : SuperBlock)
    (bdev : Option BlockDevice) (znsdev : Option (NodeDevice ι)) (stIno : UInt64) (turns : Nat) :
    Option (Except Abort (InodeReport ι)) :=
  (findInode sb bdev znsdev stIno turns .start).map fun found => do
    let (natEntry, nodeBlock) ← found
    reportInode cfg zones natEntry nodeBlock

section Loop

variable {ι : Type} {sb : SuperBlock} {dev : BlockDevice} {nat : Nat → NatBlock}
  {znsdev : Option (NodeDevice ι)} {stIno : UInt64} {before after : List NatEntry}
  {natEntry : NatEntry}

def NoInode (znsdev : Option (NodeDevice ι)) (natEntry : NatEntry) : Prop :=
  ∃ nodeBlock, f2fsGetNodeBlock znsdev natEntry.blockAddr = .ok nodeBlock ∧
    isInode nodeBlock = false

theorem findInode_ends (delivered : Delivered sb dev nat) (cursor : NatCursor)
    (within : cursor.Inside)
    (coming : matchingFrom sb nat stIno.toUInt32 cursor = before ++ natEntry :: after)
    (passed : ∀ other ∈ before, NoInode znsdev other)
    (stops : ∀ nodeBlock, f2fsGetNodeBlock znsdev natEntry.blockAddr = .ok nodeBlock →
      isInode nodeBlock = true) {turns : Nat} (enough : before.length < turns) :
    findInode sb (some dev) znsdev stIno turns cursor =
      some ((f2fsGetNodeBlock znsdev natEntry.blockAddr).map fun nodeBlock =>
        (natEntry, nodeBlock)) := by
  induction before generalizing cursor turns with
  | nil =>
    obtain ⟨turns, rfl⟩ := Nat.exists_eq_succ_of_ne_zero (Nat.ne_zero_of_lt enough)
    obtain ⟨result, _, _⟩ := natLoop_found delivered sb.natBlocks.toNat NatBlock.zero cursor within
      (Nat.le_add_right _ _) coming
    simp only [findInode, f2fsGetInodeNatEntry, result]
    cases read : f2fsGetNodeBlock znsdev natEntry.blockAddr with
    | error abort => rfl
    | ok nodeBlock => exact if_pos (stops nodeBlock read)
  | cons other rest ih =>
    obtain ⟨turns, rfl⟩ := Nat.exists_eq_succ_of_ne_zero (Nat.ne_zero_of_lt enough)
    rw [List.forall_mem_cons] at passed
    obtain ⟨result, stays, later⟩ := natLoop_found delivered sb.natBlocks.toNat NatBlock.zero cursor
      within (Nat.le_add_right _ _) coming
    obtain ⟨nodeBlock, read, different⟩ := passed.1
    have next := ih _ stays later passed.2 (Nat.lt_of_succ_lt_succ enough)
    simp only [findInode, f2fsGetInodeNatEntry, result, read, different]
    exact next

end Loop

/-- zns.imap ends with the first NAT entry of the inode, in on-disk order, whose block is an inode,
however many entries lead to other nodes before it, and reports that block. -/
theorem imap_reports_first_inode {ι : Type} (cfg : Config) (zones : Device) (sb : SuperBlock)
    (dev : BlockDevice) (nat : Nat → NatBlock) (znsdev : Option (NodeDevice ι)) (stIno : UInt64)
    (delivered : Delivered sb dev nat) (before after : List NatEntry) (natEntry : NatEntry)
    (entries : matchingEntries sb nat stIno.toUInt32 = before ++ natEntry :: after)
    (passed : ∀ other ∈ before, NoInode znsdev other) (nodeBlock : F2fsNode ι)
    (read : f2fsGetNodeBlock znsdev natEntry.blockAddr = .ok nodeBlock)
    (inode : isInode nodeBlock = true) (turns : Nat) (enough : before.length < turns) :
    natEntry.ino = stIno.toUInt32 ∧
      znsImap cfg zones sb (some dev) znsdev stIno turns =
        some (reportInode cfg zones natEntry nodeBlock) := by
  have own : natEntry ∈ matchingEntries sb nat stIno.toUInt32 := by
    rw [entries]
    exact List.mem_append_right _ List.mem_cons_self
  have stops : ∀ found, f2fsGetNodeBlock znsdev natEntry.blockAddr = .ok found →
      isInode found = true := by
    intro found same
    rw [read] at same
    exact Except.ok.inj same ▸ inode
  have coming := (matchingFrom_start sb nat stIno.toUInt32).trans entries
  refine ⟨by simpa using (List.mem_filter.mp own).2, ?_⟩
  rw [znsImap, findInode_ends delivered .start (Nat.zero_lt_succ _) coming passed stops enough,
    read]
  rfl

def twoEntryNat : Nat → NatBlock :=
  fun _ => (NatBlock.zero.set 3 ⟨0, 7, 100⟩).set 454 ⟨0, 7, 200⟩

def twoNodes : NodeDevice Unit := fun offset =>
  if offset = nodeOffset 200 then some ⟨(), 7, 7, 0, 0⟩ else some ⟨(), 9, 7, 0, 0⟩

theorem second_entry_is_reported :
    let sb : SuperBlock := ⟨0, 2, 0, 512, 1024, 4096⟩
    let cfg := segmapConfig 512 0 8192 2 []
    znsImap cfg (fullZones cfg) sb (some (imageOf sb twoEntryNat)) (some twoNodes) 7 2 =
      some (reportInode cfg (fullZones cfg) ⟨0, 7, 200⟩ ⟨(), 7, 7, 0, 0⟩) := by
  intro sb cfg
  have delivered : Delivered sb (imageOf sb twoEntryNat) twoEntryNat :=
    imageOf_delivers sb twoEntryNat (by decide)
  have entries : matchingEntries sb twoEntryNat 7 = [⟨0, 7, 100⟩] ++ ⟨0, 7, 200⟩ :: [] := by
    decide +kernel
  have passed : ∀ other ∈ [(⟨0, 7, 100⟩ : NatEntry)], NoInode (some twoNodes) other :=
    List.forall_mem_singleton.mpr ⟨⟨(), 9, 7, 0, 0⟩, by decide, by decide⟩
  exact (imap_reports_first_inode cfg (fullZones cfg) sb _ twoEntryNat (some twoNodes) 7 delivered
    _ _ _ entries passed ⟨(), 7, 7, 0, 0⟩ (by decide) (by decide) 2 (by decide)).2

end ZnsTools
