import ZnsTools.Metadata
import ZnsTools.Shared.ResumedSearch

set_option autoImplicit false

namespace ZnsTools

structure NatEntry where
  version : UInt8
  ino : UInt32
  blockAddr : UInt32
  deriving DecidableEq, Repr

-- As many entries of 9 bytes as fit a page.
def natEntryPerBlock : Nat := 455

structure NatBlock where
  entries : List NatEntry
  full : entries.length = natEntryPerBlock
  deriving DecidableEq, Repr

def NatBlock.zero : NatBlock :=
  ⟨List.replicate natEntryPerBlock ⟨0, 0, 0⟩, List.length_replicate⟩

-- What reading a block at a byte offset leaves in the buffer, if the read does not fail. A short
-- read leaves what was there before.
abbrev BlockDevice := UInt64 → NatBlock → Option NatBlock

-- The globals `nat_block_offset` and `nat_entry_offset`.
structure NatCursor where
  natBlockOffset : UInt32
  natEntryOffset : Nat
  deriving DecidableEq, Repr

def NatCursor.start : NatCursor := ⟨0, 0⟩

-- `reads` records the offsets of the blocks read, first to last.
structure NatLookup where
  reads : List UInt64
  result : Except Abort (Option NatEntry)
  cursor : NatCursor
  deriving DecidableEq, Repr

def findEntry (natBlock : NatBlock) (inodeNumber : UInt32) (natEntryOffset : Nat) :
    Option (NatEntry × Nat) :=
  ResumedSearch.search (fun natEntry => natEntry.ino == inodeNumber) natBlock.entries natEntryOffset

def NatCursor.past (cursor : NatCursor) (i : Nat) : NatCursor :=
  if i = natEntryPerBlock - 1 then ⟨cursor.natBlockOffset + 1, 0⟩
  else ⟨cursor.natBlockOffset, i + 1⟩

-- The outer loop counts its own turns, the block position is the global one.
def natLoop (sb : SuperBlock) (dev : BlockDevice) (inodeNumber : UInt32) :
    Nat → NatBlock → NatCursor → NatLookup
  | 0, _, cursor => ⟨[], .ok none, cursor⟩
  | turns + 1, natBlock, cursor =>
    let curNatBlkaddress := sb.natOffset cursor.natBlockOffset
    match dev curNatBlkaddress natBlock with
    | none => ⟨[curNatBlkaddress], .error .exitFailure, cursor⟩
    | some natBlock =>
      match findEntry natBlock inodeNumber cursor.natEntryOffset with
      | some (natEntry, i) => ⟨[curNatBlkaddress], .ok (some natEntry), cursor.past i⟩
      | none =>
        let next := natLoop sb dev inodeNumber turns natBlock ⟨cursor.natBlockOffset + 1, 0⟩
        { next with reads := curNatBlkaddress :: next.reads }

def f2fsGetInodeNatEntry (sb : SuperBlock) (fd : Option BlockDevice) (inodeNumber : UInt32)
    (cursor : NatCursor) : NatLookup :=
  match fd with
  | none => ⟨[], .error .exitFailure, cursor⟩
  | some dev => natLoop sb dev inodeNumber sb.natBlocks.toNat NatBlock.zero cursor

def natLookups (sb : SuperBlock) (fd : Option BlockDevice) :
    List UInt32 → NatCursor → List NatLookup
  | [], _ => []
  | inodeNumber :: rest, cursor =>
    let lookup := f2fsGetInodeNatEntry sb fd inodeNumber cursor
    match lookup.result with
    | .error _ => [lookup]
    | .ok _ => lookup :: natLookups sb fd rest lookup.cursor

def Delivered (sb : SuperBlock) (dev : BlockDevice) (nat : Nat → NatBlock) : Prop :=
  ∀ k, k < sb.natBlocks → ∀ buffer, dev (sb.natOffset k) buffer = some (nat k.toNat)

def matchingFrom (sb : SuperBlock) (nat : Nat → NatBlock) (inodeNumber : UInt32)
    (cursor : NatCursor) : List NatEntry :=
  (ResumedSearch.rest (fun k => (nat k).entries) sb.natBlocks.toNat cursor.natBlockOffset.toNat
    cursor.natEntryOffset).filter fun natEntry => natEntry.ino == inodeNumber

def matchingEntries (sb : SuperBlock) (nat : Nat → NatBlock) (inodeNumber : UInt32) :
    List NatEntry :=
  ((List.range sb.natBlocks.toNat).flatMap fun k => (nat k).entries).filter
    fun natEntry => natEntry.ino == inodeNumber

def NatCursor.Inside (cursor : NatCursor) : Prop :=
  cursor.natEntryOffset < natEntryPerBlock

theorem matchingFrom_start (sb : SuperBlock) (nat : Nat → NatBlock) (inodeNumber : UInt32) :
    matchingFrom sb nat inodeNumber .start = matchingEntries sb nat inodeNumber := by
  simp [matchingFrom, matchingEntries, ResumedSearch.rest, NatCursor.start, List.range_eq_range']

section Turn

variable {sb : SuperBlock} {nat : Nat → NatBlock} {inodeNumber : UInt32} {cursor : NatCursor}

theorem nextBlock_toNat (inside : cursor.natBlockOffset < sb.natBlocks) :
    (cursor.natBlockOffset + 1).toNat = cursor.natBlockOffset.toNat + 1 := by
  have small := sb.natBlocks.toNat_lt
  rw [UInt32.lt_iff_toNat_lt] at inside
  rw [UInt32.toNat_add, UInt32.toNat_one, Nat.mod_eq_of_lt (by omega)]

theorem past_inside {i : Nat} (within : i < natEntryPerBlock) : (cursor.past i).Inside := by
  rw [NatCursor.past, NatCursor.Inside]
  split
  · exact Nat.zero_lt_succ _
  · dsimp only
    omega

theorem matchingFrom_past {natEntry : NatEntry} {i : Nat} (inside : cursor.natBlockOffset < sb.natBlocks)
    (within : cursor.Inside)
    (found : findEntry (nat cursor.natBlockOffset.toNat) inodeNumber cursor.natEntryOffset =
      some (natEntry, i)) :
    matchingFrom sb nat inodeNumber cursor =
      natEntry :: matchingFrom sb nat inodeNumber (cursor.past i) := by
  have full := (nat cursor.natBlockOffset.toNat).full
  have counted := UInt32.lt_iff_toNat_lt.mp inside
  have filtered := ResumedSearch.filter_rest_found (fun k => (nat k).entries) counted
    (by rw [full]; exact Nat.le_of_lt within) found
  rw [matchingFrom, filtered, NatCursor.past]
  by_cases last : i = natEntryPerBlock - 1
  · have beyond : i + 1 = (nat cursor.natBlockOffset.toNat).entries.length := by
      rw [full, last]
      rfl
    have ends := ResumedSearch.rest_end (fun k => (nat k).entries) counted
    rw [if_pos last, matchingFrom, nextBlock_toNat inside, beyond]
    exact congrArg (fun later => natEntry :: List.filter _ later) ends
  · rw [if_neg last]
    rfl

theorem matchingFrom_next (inside : cursor.natBlockOffset < sb.natBlocks) (within : cursor.Inside)
    (missed : findEntry (nat cursor.natBlockOffset.toNat) inodeNumber cursor.natEntryOffset = none) :
    matchingFrom sb nat inodeNumber cursor =
      matchingFrom sb nat inodeNumber ⟨cursor.natBlockOffset + 1, 0⟩ := by
  have full := (nat cursor.natBlockOffset.toNat).full
  rw [matchingFrom, matchingFrom, nextBlock_toNat inside]
  exact ResumedSearch.filter_rest_missed _ (UInt32.lt_iff_toNat_lt.mp inside)
    (by rw [full]; exact Nat.le_of_lt within) missed

theorem natLoop_match {dev : BlockDevice} {turns i : Nat} {buffer natBlock : NatBlock}
    {natEntry : NatEntry} (read : dev (sb.natOffset cursor.natBlockOffset) buffer = some natBlock)
    (found : findEntry natBlock inodeNumber cursor.natEntryOffset = some (natEntry, i)) :
    natLoop sb dev inodeNumber (turns + 1) buffer cursor =
      ⟨[sb.natOffset cursor.natBlockOffset], .ok (some natEntry), cursor.past i⟩ := by
  simp only [natLoop, read, found]

theorem natLoop_next {dev : BlockDevice} {turns : Nat} {buffer natBlock : NatBlock}
    (read : dev (sb.natOffset cursor.natBlockOffset) buffer = some natBlock)
    (missed : findEntry natBlock inodeNumber cursor.natEntryOffset = none) :
    natLoop sb dev inodeNumber (turns + 1) buffer cursor =
      let next := natLoop sb dev inodeNumber turns natBlock ⟨cursor.natBlockOffset + 1, 0⟩
      { next with reads := sb.natOffset cursor.natBlockOffset :: next.reads } := by
  simp only [natLoop, read, missed]

theorem findEntry_within {natBlock : NatBlock} {natEntryOffset i : Nat} {natEntry : NatEntry}
    (found : findEntry natBlock inodeNumber natEntryOffset = some (natEntry, i)) :
    i < natEntryPerBlock :=
  natBlock.full ▸ (ResumedSearch.search_some found).2.1

end Turn

theorem natLoop_found {sb : SuperBlock} {dev : BlockDevice} {nat : Nat → NatBlock}
    {inodeNumber : UInt32} (delivered : Delivered sb dev nat) (turns : Nat) (buffer : NatBlock)
    (cursor : NatCursor) (within : cursor.Inside)
    (enough : sb.natBlocks.toNat ≤ turns + cursor.natBlockOffset.toNat) {natEntry : NatEntry}
    {later : List NatEntry}
    (coming : matchingFrom sb nat inodeNumber cursor = natEntry :: later) :
    let lookup := natLoop sb dev inodeNumber turns buffer cursor
    lookup.result = .ok (some natEntry) ∧ lookup.cursor.Inside ∧
      matchingFrom sb nat inodeNumber lookup.cursor = later := by
  have inside : cursor.natBlockOffset < sb.natBlocks := by
    rw [UInt32.lt_iff_toNat_lt]
    by_contra past
    rw [matchingFrom, ResumedSearch.rest_past _ (Nat.not_lt.mp past)] at coming
    cases coming
  induction turns generalizing buffer cursor with
  | zero =>
    rw [UInt32.lt_iff_toNat_lt] at inside
    omega
  | succ turns ih =>
    have read := delivered _ inside buffer
    cases found : findEntry (nat cursor.natBlockOffset.toNat) inodeNumber cursor.natEntryOffset with
    | some entry =>
      have split := matchingFrom_past inside within found
      rw [coming, List.cons.injEq] at split
      rw [natLoop_match read found]
      exact ⟨by rw [split.1], past_inside (findEntry_within found), split.2.symm⟩
    | none =>
      have same := matchingFrom_next inside within found
      have next := nextBlock_toNat inside
      rw [natLoop_next read found]
      apply ih
      · exact Nat.zero_lt_succ _
      · dsimp only
        omega
      · rw [← same, coming]
      · rw [UInt32.lt_iff_toNat_lt]
        by_contra past
        rw [same, matchingFrom, ResumedSearch.rest_past _ (Nat.not_lt.mp past)] at coming
        cases coming

def nthNatEntry (sb : SuperBlock) (fd : Option BlockDevice) (inodeNumber : UInt32) (k : Nat) :
    Option (Except Abort (Option NatEntry)) :=
  ((natLookups sb fd (List.replicate (k + 1) inodeNumber) .start)[k]?).map (·.result)

theorem natLookups_found {sb : SuperBlock} {dev : BlockDevice} {nat : Nat → NatBlock}
    {inodeNumber : UInt32} (delivered : Delivered sb dev nat) (k : Nat) (cursor : NatCursor)
    (within : cursor.Inside) {natEntry : NatEntry}
    (present : (matchingFrom sb nat inodeNumber cursor)[k]? = some natEntry) :
    ((natLookups sb (some dev) (List.replicate (k + 1) inodeNumber) cursor)[k]?).map (·.result) =
      some (.ok (some natEntry)) := by
  induction k generalizing cursor with
  | zero =>
    cases coming : matchingFrom sb nat inodeNumber cursor with
    | nil => simp [coming] at present
    | cons first later =>
      have ⟨result, _, _⟩ := natLoop_found delivered sb.natBlocks.toNat NatBlock.zero cursor within
        (Nat.le_add_right _ _) coming
      have same : first = natEntry := by simpa [coming] using present
      simp [natLookups, f2fsGetInodeNatEntry, result, same]
  | succ k ih =>
    cases coming : matchingFrom sb nat inodeNumber cursor with
    | nil => simp [coming] at present
    | cons first later =>
      have ⟨result, stays, rest⟩ := natLoop_found delivered sb.natBlocks.toNat NatBlock.zero cursor
        within (Nat.le_add_right _ _) coming
      have next := ih _ stays (by rw [rest]; simpa [coming] using present)
      rw [List.replicate_succ, natLookups]
      simp only [f2fsGetInodeNatEntry, result, List.getElem?_cons_succ]
      exact next

/-- Successive calls with an inode number return its NAT entries in on-disk order, none skipped
and none repeated, for as long as there are any. -/
theorem nat_entries_in_order (sb : SuperBlock) (dev : BlockDevice) (nat : Nat → NatBlock)
    (inodeNumber : UInt32) (delivered : Delivered sb dev nat) (k : Nat)
    (few : k < (matchingEntries sb nat inodeNumber).length) :
    nthNatEntry sb (some dev) inodeNumber k =
      some (.ok (some (matchingEntries sb nat inodeNumber)[k])) := by
  apply natLookups_found delivered k .start (Nat.zero_lt_succ _)
  rw [matchingFrom_start]
  exact List.getElem?_eq_getElem few

def imageOf (sb : SuperBlock) (nat : Nat → NatBlock) : BlockDevice := fun offset _ =>
  some (nat (offset.toNat / 4096 - sb.natBlkaddr.toNat))

theorem imageOf_delivers (sb : SuperBlock) (nat : Nat → NatBlock)
    (fits : sb.natBlkaddr.toNat + sb.natBlocks.toNat ≤ 2 ^ 20) :
    Delivered sb (imageOf sb nat) nat := by
  intro k inside buffer
  rw [UInt32.lt_iff_toNat_lt] at inside
  rw [imageOf, natOffset_toNat, (wrapped_eq_iff _).mpr (by omega), Nat.mul_div_cancel _ (by decide),
    Nat.add_sub_cancel_left]

def NatBlock.set (natBlock : NatBlock) (i : Nat) (natEntry : NatEntry) : NatBlock :=
  ⟨natBlock.entries.set i natEntry, (List.length_set).trans natBlock.full⟩

def twoBlockNat : Nat → NatBlock
  | 0 => NatBlock.zero.set 454 ⟨0, 7, 100⟩
  | _ => NatBlock.zero.set 0 ⟨0, 7, 200⟩

theorem nat_entries_in_order_two_blocks :
    let sb : SuperBlock := ⟨0, 4, 1024, 512, 1024, 4096⟩
    ∃ few : 1 < (matchingEntries sb twoBlockNat 7).length,
      nthNatEntry sb (some (imageOf sb twoBlockNat)) 7 1 =
        some (.ok (some (matchingEntries sb twoBlockNat 7)[1])) := by
  intro sb
  have delivered : Delivered sb (imageOf sb twoBlockNat) twoBlockNat :=
    imageOf_delivers sb twoBlockNat (by decide)
  have few : 1 < (matchingEntries sb twoBlockNat 7).length := by decide +kernel
  exact ⟨few, nat_entries_in_order sb _ twoBlockNat 7 delivered 1 few⟩

end ZnsTools
