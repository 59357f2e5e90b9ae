import Mathlib.Data.List.Nodup
import Mathlib.Data.Nat.Bitwise

set_option autoImplicit false

namespace NamedBits

-- Flags that are shown by the names of the bits that are set.

variable {α : Type}

def shown (table : List (UInt32 × α)) (flags : UInt32) : List α :=
  (table.filter fun entry => flags &&& entry.1 != 0).map Prod.snd

def mask (table : List (UInt32 × α)) : UInt32 :=
  table.foldr (fun entry bits => entry.1 ||| bits) 0

def decode [DecidableEq α] (table : List (UInt32 × α)) (names : List α) : UInt32 :=
  table.foldr (fun entry bits => if entry.2 ∈ names then entry.1 ||| bits else bits) 0

structure Proper (table : List (UInt32 × α)) : Prop where
  single : ∀ entry ∈ table, ∃ k, k < 32 ∧ entry.1.toNat = 2 ^ k
  distinct : (table.map Prod.snd).Nodup

theorem and_single {bit : UInt32} (single : ∃ k, k < 32 ∧ bit.toNat = 2 ^ k) (flags : UInt32) :
    flags &&& bit = 0 ∨ flags &&& bit = bit := by
  obtain ⟨k, -, power⟩ := single
  rw [← UInt32.toNat_inj, ← UInt32.toNat_inj, UInt32.toNat_and, power, Nat.and_two_pow]
  cases flags.toNat.testBit k with
  | false => exact .inl (Nat.zero_mul _)
  | true => exact .inr (Nat.one_mul _)

theorem mem_shown_iff {table : List (UInt32 × α)} (distinct : (table.map Prod.snd).Nodup)
    {entry : UInt32 × α} (inside : entry ∈ table) (flags : UInt32) :
    entry.2 ∈ shown table flags ↔ flags &&& entry.1 ≠ 0 := by
  rw [shown, List.mem_map]
  constructor
  · rintro ⟨other, listed, name⟩
    obtain ⟨member, set⟩ := List.mem_filter.mp listed
    rw [List.inj_on_of_nodup_map distinct member inside name] at set
    simpa using set
  · intro set
    exact ⟨entry, List.mem_filter.mpr ⟨inside, by simpa using set⟩, rfl⟩

theorem shown_map {β : Type} (f : α → β) (table : List (UInt32 × α)) (flags : UInt32) :
    shown (table.map (Prod.map id f)) flags = (shown table flags).map f := by
  rw [shown, shown, List.filter_map, List.map_map, List.map_map]
  rfl

theorem and_or_distrib (flags a b : UInt32) :
    flags &&& (a ||| b) = flags &&& a ||| flags &&& b := by
  rw [← UInt32.toNat_inj, UInt32.toNat_and, UInt32.toNat_or, Nat.and_or_distrib_left,
    UInt32.toNat_or, UInt32.toNat_and, UInt32.toNat_and]

theorem or_and {table : List (UInt32 × α)}
    (single : ∀ entry ∈ table, ∃ k, k < 32 ∧ entry.1.toNat = 2 ^ k) (flags : UInt32) :
    table.foldr (fun entry bits => if flags &&& entry.1 ≠ 0 then entry.1 ||| bits else bits) 0 =
      flags &&& mask table := by
  induction table with
  | nil => exact UInt32.and_zero.symm
  | cons entry rest ih =>
    have later := ih fun other inside => single other (List.mem_cons_of_mem _ inside)
    have bits : mask (entry :: rest) = entry.1 ||| mask rest := rfl
    rw [List.foldr_cons, later, bits, and_or_distrib]
    rcases and_single (single entry List.mem_cons_self) flags with clear | set
    · rw [if_neg (not_not_intro clear), clear, UInt32.zero_or]
    · split
      · rw [set]
      · next clear =>
        rw [not_not.mp clear, UInt32.zero_or]

theorem decode_shown [DecidableEq α] {table : List (UInt32 × α)} (proper : Proper table)
    (flags : UInt32) : decode table (shown table flags) = flags &&& mask table := by
  rw [← or_and proper.single flags, decode]
  refine List.foldr_ext _ _ _ fun entry inside bits => ?_
  exact if_congr (mem_shown_iff proper.distinct inside flags) rfl rfl

end NamedBits
