import ZnsTools.InodeSearch
import ZnsTools.Shared.Packed

set_option autoImplicit false

namespace ZnsTools

-- What zns.imap reads, from the bytes of the two devices on.

open Packed

def f2fsSuperOffset : UInt64 := 1024

-- The superblock up to the last field that is used, as it lies on disk.
structure DiskSuperBlock where
  magic : UInt32
  majorVer : UInt16
  minorVer : UInt16
  logSectorsize : UInt32
  logSectorsPerBlock : UInt32
  logBlocksize : UInt32
  logBlocksPerSeg : UInt32
  segsPerSec : UInt32
  secsPerZone : UInt32
  checksumOffset : UInt32
  blockCount : UInt64
  sectionCount : UInt32
  segmentCount : UInt32
  segmentCountCkpt : UInt32
  segmentCountSit : UInt32
  segmentCountNat : UInt32
  segmentCountSsa : UInt32
  segmentCountMain : UInt32
  segment0Blkaddr : UInt32
  cpBlkaddr : UInt32
  sitBlkaddr : UInt32
  natBlkaddr : UInt32
  ssaBlkaddr : UInt32
  mainBlkaddr : UInt32
  deriving DecidableEq, Repr

def DiskSuperBlock.superBlock (sb : DiskSuperBlock) : SuperBlock :=
  ⟨sb.logBlocksPerSeg, sb.segmentCountNat, sb.segmentCountMain, sb.cpBlkaddr, sb.natBlkaddr,
    sb.mainBlkaddr⟩

def superBlockCodec : Codec DiskSuperBlock :=
  (u32.prod <| u16.prod <| u16.prod <| u32.prod <| u32.prod <| u32.prod <| u32.prod <| u32.prod <|
    u32.prod <| u32.prod <| u64.prod <| u32.prod <| u32.prod <| u32.prod <| u32.prod <| u32.prod <|
    u32.prod <| u32.prod <| u32.prod <| u32.prod <| u32.prod <| u32.prod <| u32.prod u32).transport
    (fun (magic, majorVer, minorVer, logSectorsize, logSectorsPerBlock, logBlocksize,
        logBlocksPerSeg, segsPerSec, secsPerZone, checksumOffset, blockCount, sectionCount,
        segmentCount, segmentCountCkpt, segmentCountSit, segmentCountNat, segmentCountSsa,
        segmentCountMain, segment0Blkaddr, cpBlkaddr, sitBlkaddr, natBlkaddr, ssaBlkaddr,
        mainBlkaddr) =>
      { magic, majorVer, minorVer, logSectorsize, logSectorsPerBlock, logBlocksize,
        logBlocksPerSeg, segsPerSec, secsPerZone, checksumOffset, blockCount, sectionCount,
        segmentCount, segmentCountCkpt, segmentCountSit, segmentCountNat, segmentCountSsa,
        segmentCountMain, segment0Blkaddr, cpBlkaddr, sitBlkaddr, natBlkaddr, ssaBlkaddr,
        mainBlkaddr })
    (fun sb => (sb.magic, sb.majorVer, sb.minorVer, sb.logSectorsize, sb.logSectorsPerBlock,
      sb.logBlocksize, sb.logBlocksPerSeg, sb.segsPerSec, sb.secsPerZone, sb.checksumOffset,
      sb.blockCount, sb.sectionCount, sb.segmentCount, sb.segmentCountCkpt, sb.segmentCountSit,
      sb.segmentCountNat, sb.segmentCountSsa, sb.segmentCountMain, sb.segment0Blkaddr,
      sb.cpBlkaddr, sb.sitBlkaddr, sb.natBlkaddr, sb.ssaBlkaddr, sb.mainBlkaddr))
    (fun _ => rfl)

def natEntryCodec : Codec NatEntry :=
  (u8.prod (u32.prod u32)).transport (fun (version, ino, blockAddr) => ⟨version, ino, blockAddr⟩)
    (fun natEntry => (natEntry.version, natEntry.ino, natEntry.blockAddr)) (fun _ => rfl)

def natBlockCodec : Codec NatBlock :=
  (natEntryCodec.table natEntryPerBlock).transport (fun entries => ⟨entries.1, entries.2⟩)
    (fun natBlock => ⟨natBlock.entries, natBlock.full⟩) (fun _ => rfl)

-- The inode, or the addresses of other blocks, in front of the footer.
abbrev NodeBytes := { bytes : Bytes // bytes.length = 4072 }

structure DiskNode where
  i : NodeBytes
  nid : UInt32
  ino : UInt32
  flag : UInt32
  cpVer : UInt64
  nextBlkaddr : UInt32

def DiskNode.node (node : DiskNode) : F2fsNode NodeBytes :=
  ⟨node.i, ⟨node.nid, node.ino, node.flag, node.nextBlkaddr⟩⟩

def nodeCodec : Codec DiskNode :=
  ((u8.table 4072).prod (u32.prod (u32.prod (u32.prod (u64.prod u32))))).transport
    (fun (i, nid, ino, flag, cpVer, nextBlkaddr) => ⟨i, nid, ino, flag, cpVer, nextBlkaddr⟩)
    (fun node => (node.i, node.nid, node.ino, node.flag, node.cpVer, node.nextBlkaddr))
    (fun _ => rfl)

-- The sizes that the header asserts.
example : natEntryCodec.size = 9 ∧ natBlockCodec.size = 4095 ∧ nodeCodec.size = 4096 := by
  decide

-- `lseek` fails for an offset that is negative as an `off_t`; the device can be read.
def f2fsReadBlock (image : Bytes) (offset : UInt64) (size : Nat) (dest : Bytes) : Option Bytes :=
  if 2 ^ 63 ≤ offset.toNat then none else some (readAt image offset.toNat size dest)

-- The global superblock is zero until it is read.
def f2fsReadSuperBlock (fd : Option Bytes) : Except Abort SuperBlock :=
  match fd with
  | none => .error .exitFailure
  | some image =>
    match f2fsReadBlock image f2fsSuperOffset 3072 (List.replicate 3072 0) with
    | none => .error .exitFailure
    | some f2fsSb => .ok (superBlockCodec.decode f2fsSb).superBlock

-- Behind the entries a block has a byte that nothing looks at.
def natDevice (image : Bytes) : BlockDevice := fun offset natBlock =>
  (f2fsReadBlock image offset 4096 (natBlockCodec.encode natBlock ++ [0])).map natBlockCodec.decode

def nodeDevice (image : Bytes) : NodeDevice NodeBytes := fun offset =>
  (f2fsReadBlock image offset 4096 (List.replicate 4096 0)).map fun nodeBlock =>
    (nodeCodec.decode nodeBlock).node

def imapImages (cfg : Config) (zones : Device) (bdev znsdev : Option Bytes) (stIno : UInt64)
    (turns : Nat) : Option (Except Abort (InodeReport NodeBytes)) :=
  match f2fsReadSuperBlock bdev with
  | .error abort => some (.error abort)
  | .ok sb => znsImap cfg zones sb (bdev.map natDevice) (znsdev.map nodeDevice) stIno turns

structure OnDisk (image : Bytes) (sb : DiskSuperBlock) (nat : Nat → NatBlock) : Prop where
  superBlock : HasAt image 1024 (superBlockCodec.encode sb)
  nat : ∀ k < sb.superBlock.natBlocks.toNat,
    HasAt image ((sb.natBlkaddr.toNat + k) * 4096) (natBlockCodec.encode (nat k))

section Images

variable {image : Bytes} {offset : UInt64}

theorem f2fsReadBlock_decodes {α : Type} (codec : Codec α) {size : Nat} (fits : codec.size ≤ size)
    {value : α} (low : offset.toNat < 2 ^ 63)
    (has : HasAt image offset.toNat (codec.encode value)) (dest : Bytes) :
    ∃ bytes, f2fsReadBlock image offset size dest = some bytes ∧ codec.decode bytes = value := by
  have whole : (codec.encode value).length ≤ size := by
    rw [codec.length_encode]
    exact fits
  refine ⟨_, if_neg (by omega), codec.decode_of_starts (readAt_starts has whole dest)⟩

theorem f2fsReadSuperBlock_reads {sb : DiskSuperBlock}
    (has : HasAt image 1024 (superBlockCodec.encode sb)) :
    f2fsReadSuperBlock (some image) = .ok sb.superBlock := by
  have fits : superBlockCodec.size ≤ 3072 := by decide
  have low : f2fsSuperOffset.toNat < 2 ^ 63 := by decide
  obtain ⟨bytes, read, decoded⟩ := f2fsReadBlock_decodes superBlockCodec fits low has
    (List.replicate 3072 0)
  rw [f2fsReadSuperBlock, read]
  dsimp only
  rw [decoded]

theorem natDevice_delivers {sb : DiskSuperBlock} {nat : Nat → NatBlock} (disk : OnDisk image sb nat)
    (low : sb.natBlkaddr.toNat + sb.superBlock.natBlocks.toNat ≤ 2 ^ 20) :
    Delivered sb.superBlock (natDevice image) nat := by
  intro k inside buffer
  have below := UInt32.lt_iff_toNat_lt.mp inside
  have place : (sb.superBlock.natOffset k).toNat = (sb.natBlkaddr.toNat + k.toNat) * 4096 := by
    rw [natOffset_toNat]
    exact (wrapped_eq_iff _).mpr (by
      change sb.natBlkaddr.toNat + k.toNat < 2 ^ 20
      omega)
  have has := disk.nat k.toNat below
  rw [← place] at has
  have fits : natBlockCodec.size ≤ 4096 := by decide
  have reached : (sb.superBlock.natOffset k).toNat < 2 ^ 63 := by omega
  obtain ⟨bytes, read, decoded⟩ := f2fsReadBlock_decodes natBlockCodec fits reached has
    (natBlockCodec.encode buffer ++ [0])
  rw [natDevice, read, Option.map_some, decoded]

theorem nodeDevice_reads {blockAddr : UInt32} {node : DiskNode}
    (has : HasAt image (nodeOffset blockAddr).toNat (nodeCodec.encode node)) :
    f2fsGetNodeBlock (some (nodeDevice image)) blockAddr = .ok node.node := by
  have fits : nodeCodec.size ≤ 4096 := by decide
  have reached : (nodeOffset blockAddr).toNat < 2 ^ 63 := by
    rw [nodeOffset_toNat]
    omega
  obtain ⟨bytes, read, decoded⟩ := f2fsReadBlock_decodes nodeCodec fits reached has
    (List.replicate 4096 0)
  rw [f2fsGetNodeBlock, nodeDevice, read, Option.map_some, decoded]

end Images

/-- From the bytes on the two devices: with the superblock and the NAT where they belong, and the
nodes where zns.imap looks for them, it reports the first node of the inode's NAT entries, in
on-disk order, that is the inode. -/
theorem imap_reads_disk (cfg : Config) (zones : Device) (bdev znsdev : Bytes)
    (sb : DiskSuperBlock) (nat : Nat → NatBlock) (disk : OnDisk bdev sb nat)
    (low : sb.natBlkaddr.toNat + sb.superBlock.natBlocks.toNat ≤ 2 ^ 20) (stIno : UInt64)
    (before after : List NatEntry) (natEntry : NatEntry)
    (entries : matchingEntries sb.superBlock nat stIno.toUInt32 = before ++ natEntry :: after)
    (nodes : NatEntry → DiskNode)
    (stored : ∀ e ∈ natEntry :: before,
      HasAt znsdev (nodeOffset e.blockAddr).toNat (nodeCodec.encode (nodes e)))
    (passed : ∀ e ∈ before, (nodes e).nid ≠ (nodes e).ino)
    (inode : (nodes natEntry).nid = (nodes natEntry).ino) (turns : Nat)
    (enough : before.length < turns) :
    imapImages cfg zones (some bdev) (some znsdev) stIno turns =
      some (reportInode cfg zones natEntry (nodes natEntry).node) := by
  have read : ∀ e ∈ natEntry :: before,
      f2fsGetNodeBlock (some (nodeDevice znsdev)) e.blockAddr = .ok (nodes e).node :=
    fun e inside => nodeDevice_reads (stored e inside)
  have others : ∀ e ∈ before, NoInode (some (nodeDevice znsdev)) e := fun e inside =>
    ⟨_, read e (List.mem_cons_of_mem _ inside), beq_false_of_ne (passed e inside)⟩
  have stops : ∀ nodeBlock, f2fsGetNodeBlock (some (nodeDevice znsdev)) natEntry.blockAddr =
      .ok nodeBlock → isInode nodeBlock = true := by
    intro nodeBlock same
    rw [read natEntry List.mem_cons_self] at same
    exact Except.ok.inj same ▸ beq_iff_eq.mpr inode
  have coming := (matchingFrom_start sb.superBlock nat stIno.toUInt32).trans entries
  have ends := findInode_ends (natDevice_delivers disk low) .start (Nat.zero_lt_succ _) coming
    others stops enough
  rw [read natEntry List.mem_cons_self] at ends
  rw [imapImages, f2fsReadSuperBlock_reads disk.superBlock]
  dsimp only [Option.map_some]
  rw [znsImap, ends]
  rfl

def zeros (count : Nat) : Bytes :=
  List.replicate count 0

def smallSuperBlock : DiskSuperBlock where
  magic := 0xF2F52010
  majorVer := 1
  minorVer := 15
  logSectorsize := 9
  logSectorsPerBlock := 3
  logBlocksize := 12
  logBlocksPerSeg := 0
  segsPerSec := 1
  secsPerZone := 1
  checksumOffset := 0
  blockCount := 4096
  sectionCount := 2
  segmentCount := 2
  segmentCountCkpt := 0
  segmentCountSit := 0
  segmentCountNat := 2
  segmentCountSsa := 0
  segmentCountMain := 0
  segment0Blkaddr := 0
  cpBlkaddr := 0
  sitBlkaddr := 0
  natBlkaddr := 1
  ssaBlkaddr := 0
  mainBlkaddr := 3

def smallBdev : Bytes :=
  zeros 1024 ++ (superBlockCodec.encode smallSuperBlock ++
    (zeros 2976 ++ (natBlockCodec.encode (twoEntryNat 0) ++ [])))

def emptyNode : NodeBytes := ⟨zeros 4072, List.length_replicate⟩

def smallNode (natEntry : NatEntry) : DiskNode :=
  if natEntry.blockAddr = 100 then ⟨emptyNode, 9, 7, 0, 0, 0⟩ else ⟨emptyNode, 7, 7, 0, 0, 0⟩

def smallZnsdev : Bytes :=
  zeros 409600 ++ (nodeCodec.encode (smallNode ⟨0, 7, 100⟩) ++
    (zeros 405504 ++ (nodeCodec.encode (smallNode ⟨0, 7, 200⟩) ++ [])))

theorem smallBdev_onDisk : OnDisk smallBdev smallSuperBlock twoEntryNat where
  superBlock := hasAt_append List.length_replicate _ _
  nat k below := by
    have one : smallSuperBlock.superBlock.natBlocks.toNat = 1 := by decide
    obtain rfl : k = 0 := by omega
    have length : (zeros 1024 ++ (superBlockCodec.encode smallSuperBlock ++ zeros 2976)).length =
        4096 := by
      rw [List.length_append, List.length_append, superBlockCodec.length_encode, zeros,
        List.length_replicate, zeros, List.length_replicate]
      rfl
    have stands := hasAt_append length (natBlockCodec.encode (twoEntryNat 0)) []
    rw [List.append_assoc, List.append_assoc] at stands
    exact stands

theorem smallZnsdev_stored : ∀ e ∈ [(⟨0, 7, 200⟩ : NatEntry), ⟨0, 7, 100⟩],
    HasAt smallZnsdev (nodeOffset e.blockAddr).toNat (nodeCodec.encode (smallNode e)) := by
  rw [List.forall_mem_cons, List.forall_mem_singleton]
  constructor
  · have place : (nodeOffset 200).toNat = 819200 := by decide
    have length : (zeros 409600 ++ (nodeCodec.encode (smallNode ⟨0, 7, 100⟩) ++
        zeros 405504)).length = 819200 := by
      rw [List.length_append, List.length_append, nodeCodec.length_encode, zeros,
        List.length_replicate, zeros, List.length_replicate]
      rfl
    have stands := hasAt_append length (nodeCodec.encode (smallNode ⟨0, 7, 200⟩)) []
    rw [List.append_assoc, List.append_assoc, ← place] at stands
    exact stands
  · have place : (nodeOffset 100).toNat = 409600 := by decide
    have length : (zeros 409600).length = 409600 := List.length_replicate
    rw [place]
    exact hasAt_append length _ _

theorem second_node_is_reported :
    let cfg := segmapConfig 512 0 8192 2 []
    imapImages cfg (fullZones cfg) (some smallBdev) (some smallZnsdev) 7 2 =
      some (reportInode cfg (fullZones cfg) ⟨0, 7, 200⟩ ⟨emptyNode, 7, 7, 0, 0⟩) := by
  intro cfg
  have entries : matchingEntries smallSuperBlock.superBlock twoEntryNat 7 =
      [⟨0, 7, 100⟩] ++ ⟨0, 7, 200⟩ :: [] := by
    decide +kernel
  exact imap_reads_disk cfg (fullZones cfg) smallBdev smallZnsdev smallSuperBlock twoEntryNat
    smallBdev_onDisk (by decide) 7 [⟨0, 7, 100⟩] [] ⟨0, 7, 200⟩ entries smallNode smallZnsdev_stored
    (List.forall_mem_singleton.mpr (by decide)) (by decide) 2 (by decide)

end ZnsTools
