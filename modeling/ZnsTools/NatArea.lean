import ZnsTools.NatIterator

set_option autoImplicit false

namespace ZnsTools

-- The bytes of the blocks from `nat_blkaddr` up to `nat_blkaddr + nat_blocks`.
def InNatArea (sb : SuperBlock) (offset : UInt64) : Prop :=
  sb.natBlkaddr.toNat * 4096 ≤ offset.toNat ∧
    offset.toNat < (sb.natBlkaddr.toNat + sb.natBlocks.toNat) * 4096

-- The device has the NAT blocks of the area at their own addresses and can read them.
def Holds (sb : SuperBlock) (dev : BlockDevice) (nat : Nat → NatBlock) : Prop :=
  ∀ p < sb.natBlocks.toNat, ∀ buffer,
    dev (UInt64.ofNat ((sb.natBlkaddr.toNat + p) * 4096)) buffer = some (nat p)

def EachLookup (sb : SuperBlock) (fd : Option BlockDevice)
    (P : UInt32 → NatCursor → NatLookup → Prop) : List UInt32 → NatCursor → Prop
  | [], _ => True
  | inodeNumber :: rest, cursor =>
    let lookup := f2fsGetInodeNatEntry sb fd inodeNumber cursor
    P inodeNumber cursor lookup ∧
      ∀ found, lookup.result = .ok found → EachLookup sb fd P rest lookup.cursor

def Confined (sb : SuperBlock) (nat : Nat → NatBlock) (inodeNumber : UInt32) (cursor : NatCursor)
    (lookup : NatLookup) : Prop :=
  (∀ offset ∈ lookup.reads, InNatArea sb offset) ∧
    (matchingFrom sb nat inodeNumber cursor = [] → lookup.result = .ok none)

def Ahead (nat : Nat → NatBlock) (inodeNumber : UInt32) (cursor : NatCursor) (q : Nat) : Prop :=
  ∃ natEntry ∈ (nat q).entries.drop
    (if q = cursor.natBlockOffset.toNat then cursor.natEntryOffset else 0),
    natEntry.ino = inodeNumber

/-- The search ends in a block of the area that a 32-bit byte offset reaches: at an entry that is
still ahead, or at the end of the area if it starts from the first block. -/
def Ends (sb : SuperBlock) (nat : Nat → NatBlock) (inodeNumber : UInt32) (cursor : NatCursor) :
    Prop :=
  sb.natBlocks = 0 ∨ ∃ q, cursor.natBlockOffset.toNat ≤ q ∧ q < sb.natBlocks.toNat ∧
    sb.natBlkaddr.toNat + q < 2 ^ 20 ∧
      (Ahead nat inodeNumber cursor q ∨
        cursor.natBlockOffset = 0 ∧ q + 1 = sb.natBlocks.toNat)

section Turn

variable {sb : SuperBlock} {dev : BlockDevice} {nat : Nat → NatBlock} {inodeNumber : UInt32}
  {cursor : NatCursor}

theorem natOffset_reached {k : UInt32} (fits : sb.natBlkaddr.toNat + k.toNat < 2 ^ 20) :
    sb.natOffset k = UInt64.ofNat ((sb.natBlkaddr.toNat + k.toNat) * 4096) := by
  rw [← UInt64.toNat_inj, natOffset_toNat, (wrapped_eq_iff _).mpr fits, UInt64.toNat_ofNat']
  omega

theorem natOffset_in_area {k : UInt32} (fits : sb.natBlkaddr.toNat + k.toNat < 2 ^ 20)
    (area : k.toNat < sb.natBlocks.toNat) : InNatArea sb (sb.natOffset k) := by
  rw [InNatArea, natOffset_toNat, (wrapped_eq_iff _).mpr fits]
  omega

theorem natLoop_reads_first (turns : Nat) (buffer : NatBlock) :
    sb.natOffset cursor.natBlockOffset ∈
      (natLoop sb dev inodeNumber (turns + 1) buffer cursor).reads := by
  simp only [natLoop]
  split
  · simp
  · split <;> simp

theorem findEntry_none_iff :
    findEntry (nat cursor.natBlockOffset.toNat) inodeNumber cursor.natEntryOffset = none ↔
      ¬ Ahead nat inodeNumber cursor cursor.natBlockOffset.toNat := by
  rw [findEntry, ResumedSearch.search_none_iff, Ahead, if_pos rfl, List.filter_eq_nil_iff]
  simp

theorem ahead_next {q : Nat} (later : cursor.natBlockOffset.toNat < q) :
    Ahead nat inodeNumber ⟨cursor.natBlockOffset + 1, 0⟩ q ↔ Ahead nat inodeNumber cursor q := by
  rw [Ahead, Ahead, if_neg (Nat.ne_of_gt later), ite_self]

theorem past_le {i : Nat} (inside : cursor.natBlockOffset < sb.natBlocks) :
    (cursor.past i).natBlockOffset.toNat ≤ cursor.natBlockOffset.toNat + 1 := by
  rw [NatCursor.past]
  split
  · exact Nat.le_of_eq (nextBlock_toNat inside)
  · exact Nat.le_succ _

end Turn

theorem natLoop_confined {sb : SuperBlock} {dev : BlockDevice} {nat : Nat → NatBlock}
    {inodeNumber : UInt32} (held : Holds sb dev nat) (turns : Nat) (buffer : NatBlock)
    (cursor : NatCursor) (within : cursor.Inside) (q : Nat)
    (ahead : cursor.natBlockOffset.toNat ≤ q) (area : q < sb.natBlocks.toNat)
    (fits : sb.natBlkaddr.toNat + q < 2 ^ 20) (turn : q < cursor.natBlockOffset.toNat + turns)
    (ends : Ahead nat inodeNumber cursor q ∨ q + 1 = cursor.natBlockOffset.toNat + turns) :
    let lookup := natLoop sb dev inodeNumber turns buffer cursor
    Confined sb nat inodeNumber cursor lookup ∧ lookup.cursor.Inside ∧
      lookup.cursor.natBlockOffset.toNat ≤ q + 1 := by
  induction turns generalizing buffer cursor with
  | zero => omega
  | succ turns ih =>
    have inside : cursor.natBlockOffset < sb.natBlocks := by
      rw [UInt32.lt_iff_toNat_lt]
      omega
    have near : sb.natBlkaddr.toNat + cursor.natBlockOffset.toNat < 2 ^ 20 := by omega
    have own := natOffset_in_area near (UInt32.lt_iff_toNat_lt.mp inside)
    have next := nextBlock_toNat inside
    have read := held _ (UInt32.lt_iff_toNat_lt.mp inside) buffer
    rw [← natOffset_reached near] at read
    cases found : findEntry (nat cursor.natBlockOffset.toNat) inodeNumber cursor.natEntryOffset with
    | some entry =>
      have split := matchingFrom_past inside within found
      have moved : (cursor.past entry.2).natBlockOffset.toNat ≤ _ := past_le inside
      rw [natLoop_match read found]
      refine ⟨⟨by simpa using own, ?_⟩, past_inside (findEntry_within found), ?_⟩
      · intro none
        rw [none] at split
        cases split
      · exact Nat.le_trans moved (by omega)
    | none =>
      have same := matchingFrom_next inside within found
      have passed := findEntry_none_iff.mp found
      rw [natLoop_next read found]
      by_cases last : turns = 0
      · subst last
        refine ⟨⟨by simpa [natLoop] using own, fun _ => rfl⟩, Nat.zero_lt_succ _, ?_⟩
        simp only [natLoop]
        omega
      · have later : cursor.natBlockOffset.toNat < q := by
          rcases Nat.lt_or_eq_of_le ahead with less | equal
          · exact less
          · rw [← equal] at ends
            have := ends.resolve_left passed
            omega
        have rest := ih (nat cursor.natBlockOffset.toNat) ⟨cursor.natBlockOffset + 1, 0⟩
          (Nat.zero_lt_succ _) (by simp only [next]; omega) (by simp only [next]; omega)
          (ends.imp (ahead_next later).mpr (by simp only [next]; omega))
        refine ⟨⟨?_, ?_⟩, rest.2⟩
        · intro offset inside
          rcases List.mem_cons.mp inside with rfl | other
          · exact own
          · exact rest.1.1 offset other
        · intro none
          exact rest.1.2 (same ▸ none)

theorem natLoop_ends {sb : SuperBlock} {dev : BlockDevice} {nat : Nat → NatBlock}
    {inodeNumber : UInt32} (held : Holds sb dev nat) (placed : sb.natBlkaddr ≠ 0) (turns : Nat)
    (buffer : NatBlock) (cursor : NatCursor) (some_turn : 0 < turns)
    (reached : cursor.natBlockOffset = 0 ∨
      sb.natBlkaddr.toNat + cursor.natBlockOffset.toNat ≤ 2 ^ 20)
    (confined : ∀ offset ∈ (natLoop sb dev inodeNumber turns buffer cursor).reads,
      InNatArea sb offset) :
    ∃ q, cursor.natBlockOffset.toNat ≤ q ∧ q < sb.natBlocks.toNat ∧
      sb.natBlkaddr.toNat + q < 2 ^ 20 ∧
        (Ahead nat inodeNumber cursor q ∨ q + 1 = cursor.natBlockOffset.toNat + turns) := by
  induction turns generalizing buffer cursor with
  | zero => omega
  | succ turns ih =>
    have own := confined _ (natLoop_reads_first turns buffer)
    rw [InNatArea, natOffset_toNat] at own
    have positive : 0 < sb.natBlkaddr.toNat := by
      rw [Ne, ← UInt32.toNat_inj] at placed
      exact Nat.pos_of_ne_zero placed
    have fits : sb.natBlkaddr.toNat + cursor.natBlockOffset.toNat < 2 ^ 20 := by
      rcases reached with start | reached
      · rw [start] at own ⊢
        simp only [UInt32.toNat_zero] at own ⊢
        omega
      · omega
    have area : cursor.natBlockOffset.toNat < sb.natBlocks.toNat := by omega
    have inside : cursor.natBlockOffset < sb.natBlocks := UInt32.lt_iff_toNat_lt.mpr area
    by_cases ahead : Ahead nat inodeNumber cursor cursor.natBlockOffset.toNat
    · exact ⟨_, Nat.le_refl _, area, fits, .inl ahead⟩
    · by_cases last : turns = 0
      · exact ⟨_, Nat.le_refl _, area, fits, .inr (by omega)⟩
      · have next := nextBlock_toNat inside
        have rest : ∀ offset ∈ (natLoop sb dev inodeNumber turns
            (nat cursor.natBlockOffset.toNat) ⟨cursor.natBlockOffset + 1, 0⟩).reads,
            InNatArea sb offset := by
          intro offset listed
          apply confined
          rw [natLoop_next (natOffset_reached fits ▸ held _ area buffer)
            (findEntry_none_iff.mpr ahead)]
          exact List.mem_cons_of_mem _ listed
        obtain ⟨q, after, below, small, ends⟩ := ih _ _ (Nat.pos_of_ne_zero last)
          (.inr (by simp only [next]; omega)) rest
        simp only [next] at after ends
        exact ⟨q, by omega, below, small,
          ends.imp (ahead_next after).mp (by omega)⟩

theorem lookup_confined {sb : SuperBlock} {dev : BlockDevice} {nat : Nat → NatBlock}
    {inodeNumber : UInt32} {cursor : NatCursor} (held : Holds sb dev nat)
    (within : cursor.Inside) (ends : Ends sb nat inodeNumber cursor) :
    let lookup := f2fsGetInodeNatEntry sb (some dev) inodeNumber cursor
    Confined sb nat inodeNumber cursor lookup ∧ lookup.cursor.Inside ∧
      (lookup.cursor.natBlockOffset = cursor.natBlockOffset ∨
        sb.natBlkaddr.toNat + lookup.cursor.natBlockOffset.toNat ≤ 2 ^ 20) := by
  rcases ends with empty | ⟨q, ahead, area, fits, ends⟩
  · simp [f2fsGetInodeNatEntry, empty, natLoop, Confined, within]
  · have stop : Ahead nat inodeNumber cursor q ∨
        q + 1 = cursor.natBlockOffset.toNat + sb.natBlocks.toNat := by
      refine ends.imp_right ?_
      rintro ⟨start, last⟩
      rw [start, last, UInt32.toNat_zero, Nat.zero_add]
    obtain ⟨confined, inside, reached⟩ := natLoop_confined held sb.natBlocks.toNat NatBlock.zero
      cursor within q ahead area fits (by omega) stop
    exact ⟨confined, inside, .inr (by simp only [f2fsGetInodeNatEntry]; omega)⟩

theorem lookup_ends {sb : SuperBlock} {dev : BlockDevice} {nat : Nat → NatBlock}
    {inodeNumber : UInt32} {cursor : NatCursor} (held : Holds sb dev nat)
    (placed : sb.natBlkaddr ≠ 0)
    (reached : cursor.natBlockOffset = 0 ∨
      sb.natBlkaddr.toNat + cursor.natBlockOffset.toNat ≤ 2 ^ 20)
    (confined : Confined sb nat inodeNumber cursor
      (f2fsGetInodeNatEntry sb (some dev) inodeNumber cursor)) :
    Ends sb nat inodeNumber cursor := by
  by_cases empty : sb.natBlocks = 0
  · exact .inl empty
  · have some_turn : 0 < sb.natBlocks.toNat := by
      rw [← UInt32.toNat_inj] at empty
      exact Nat.pos_of_ne_zero empty
    have ⟨q, ahead, area, fits, ends⟩ := natLoop_ends held placed sb.natBlocks.toNat NatBlock.zero
      cursor some_turn reached confined.1
    refine .inr ⟨q, ahead, area, fits, ends.imp_right ?_⟩
    intro last
    have start : cursor.natBlockOffset.toNat = 0 := by omega
    exact ⟨UInt32.toNat_inj.mp start, by omega⟩

theorem lookups_confined {sb : SuperBlock} {dev : BlockDevice} {nat : Nat → NatBlock}
    (held : Holds sb dev nat) (inodeNumbers : List UInt32) (cursor : NatCursor)
    (within : cursor.Inside)
    (ends : EachLookup sb (some dev) (fun inodeNumber cursor _ => Ends sb nat inodeNumber cursor)
      inodeNumbers cursor) :
    EachLookup sb (some dev) (Confined sb nat) inodeNumbers cursor := by
  induction inodeNumbers generalizing cursor with
  | nil => trivial
  | cons inodeNumber rest ih =>
    have ⟨confined, inside, _⟩ := lookup_confined held within ends.1
    exact ⟨confined, fun found done => ih _ inside (ends.2 found done)⟩

theorem lookups_end {sb : SuperBlock} {dev : BlockDevice} {nat : Nat → NatBlock}
    (held : Holds sb dev nat) (placed : sb.natBlkaddr ≠ 0) (inodeNumbers : List UInt32)
    (cursor : NatCursor) (within : cursor.Inside)
    (reached : cursor.natBlockOffset = 0 ∨
      sb.natBlkaddr.toNat + cursor.natBlockOffset.toNat ≤ 2 ^ 20)
    (confined : EachLookup sb (some dev) (Confined sb nat) inodeNumbers cursor) :
    EachLookup sb (some dev) (fun inodeNumber cursor _ => Ends sb nat inodeNumber cursor)
      inodeNumbers cursor := by
  induction inodeNumbers generalizing cursor with
  | nil => trivial
  | cons inodeNumber rest ih =>
    have ends := lookup_ends held placed reached confined.1
    have ⟨_, inside, moved⟩ := lookup_confined held within ends
    refine ⟨ends, fun found done => ih _ inside ?_ (confined.2 found done)⟩
    rcases moved with same | further
    · rwa [same]
    · exact .inr further

/-- A sequence of calls reads only blocks of the NAT area, and finds nothing once no matching entry
is left, if each of its searches ends in the area. On every NAT that does not start at block 0,
where the superblock is, it does so only then. -/
theorem nat_reads_confined_iff (sb : SuperBlock) (dev : BlockDevice) (nat : Nat → NatBlock)
    (held : Holds sb dev nat) (inodeNumbers : List UInt32) :
    let confined := EachLookup sb (some dev) (Confined sb nat) inodeNumbers .start
    let ends := EachLookup sb (some dev)
      (fun inodeNumber cursor _ => Ends sb nat inodeNumber cursor) inodeNumbers .start
    (ends → confined) ∧ (sb.natBlkaddr ≠ 0 → confined → ends) :=
  ⟨lookups_confined held inodeNumbers .start (Nat.zero_lt_succ _),
    fun placed => lookups_end held placed inodeNumbers .start (Nat.zero_lt_succ _) (.inl rfl)⟩

theorem imageOf_holds (sb : SuperBlock) (nat : Nat → NatBlock) :
    Holds sb (imageOf sb nat) nat := by
  intro p inside buffer
  have small := sb.natBlkaddr.toNat_lt
  have blocks := sb.natBlocks.toNat_lt
  rw [imageOf, UInt64.toNat_ofNat', Nat.mod_eq_of_lt (by omega), Nat.mul_div_cancel _ (by decide),
    Nat.add_sub_cancel_left]

def oneEntryNat (q : Nat) : NatBlock :=
  if q = 1 then NatBlock.zero.set 0 ⟨0, 7, 200⟩ else NatBlock.zero

theorem oneEntryNat_ahead {cursor : NatCursor} {q : Nat} (ahead : Ahead oneEntryNat 7 cursor q) :
    q = 1 ∧ (cursor.natBlockOffset.toNat = 1 → cursor.natEntryOffset = 0) := by
  have ⟨natEntry, listed, own⟩ := ahead
  have used : natEntry ≠ ⟨0, 0, 0⟩ := by
    rintro rfl
    exact absurd own (by decide)
  rw [oneEntryNat] at listed
  by_cases second : q = 1
  · subst second
    refine ⟨rfl, fun here => ?_⟩
    by_contra past
    rw [if_pos rfl, here, if_pos rfl, NatBlock.set, List.drop_set_of_lt (Nat.pos_of_ne_zero past)]
      at listed
    exact used (List.eq_of_mem_replicate (List.mem_of_mem_drop listed))
  · rw [if_neg second] at listed
    exact absurd (List.eq_of_mem_replicate (List.mem_of_mem_drop listed)) used

-- The second call starts behind the only entry and goes on to the block after the area.
theorem second_search_leaves_nat_area :
    let sb : SuperBlock := ⟨9, 2, 1024, 512, 1024, 4096⟩
    Holds sb (imageOf sb oneEntryNat) oneEntryNat ∧
      ¬ EachLookup sb (some (imageOf sb oneEntryNat)) (Confined sb oneEntryNat) [7, 7] .start := by
  intro sb
  have held := imageOf_holds sb oneEntryNat
  refine ⟨held, fun confined => ?_⟩
  have first : (f2fsGetInodeNatEntry sb (some (imageOf sb oneEntryNat)) 7 .start).result =
      .ok (some ⟨0, 7, 200⟩) := by decide +kernel
  have stopped : (f2fsGetInodeNatEntry sb (some (imageOf sb oneEntryNat)) 7 .start).cursor =
      ⟨1, 1⟩ := by decide +kernel
  have ends := lookups_end held (by decide) [7, 7] .start (Nat.zero_lt_succ _) (.inl rfl)
    confined
  have second := (ends.2 _ first).1
  rw [stopped] at second
  rcases second with empty | ⟨q, -, -, -, ahead | ⟨start, -⟩⟩
  · exact absurd empty (by decide)
  · exact absurd ((oneEntryNat_ahead ahead).2 rfl) (by decide)
  · exact absurd start (by decide)

theorem first_search_stays_in_nat_area :
    let sb : SuperBlock := ⟨9, 2, 1024, 512, 1024, 4096⟩
    EachLookup sb (some (imageOf sb oneEntryNat)) (Confined sb oneEntryNat) [7] .start := by
  intro sb
  apply (nat_reads_confined_iff sb _ oneEntryNat (imageOf_holds sb oneEntryNat) [7]).1
  refine ⟨.inr ⟨1, by decide, by decide, by decide, .inl ?_⟩, fun _ _ => trivial⟩
  exact ⟨⟨0, 7, 200⟩, List.mem_cons_self, rfl⟩

end ZnsTools
