import Mathlib.Algebra.BigOperators.Group.List.Basic
import Mathlib.Algebra.GroupWithZero.Nat
import Mathlib.Data.List.Induction
import ZnsTools.Shared.KeyedObject

set_option autoImplicit false

namespace BpfMap

open KeyedObject

-- The maps of a bpftrace program, with 64-bit values and as many keys as a run needs.

variable {κ : Type} [DecidableEq κ]

-- A key that is not in a map reads as 0.
def value (map : List (κ × UInt64)) (key : κ) : UInt64 :=
  (find map key).getD 0

def increase (map : List (κ × UInt64)) (key : κ) (amount : UInt64) : List (κ × UInt64) :=
  add map key (value map key + amount)

theorem value_add (map : List (κ × UInt64)) (key other : κ) (amount : UInt64) :
    value (add map key amount) other = if key = other then amount else value map other := by
  rw [value, find_add]
  split
  · rfl
  · rfl

theorem value_increase (map : List (κ × UInt64)) (key other : κ) (amount : UInt64) :
    value (increase map key amount) other =
      if key = other then value map key + amount else value map other :=
  value_add map key other (value map key + amount)

def tally (amounts : List (κ × UInt64)) : List (κ × UInt64) :=
  amounts.foldl (fun map amount => increase map amount.1 amount.2) []

theorem tally_snoc (amounts : List (κ × UInt64)) (amount : κ × UInt64) :
    tally (amounts ++ [amount]) = increase (tally amounts) amount.1 amount.2 := by
  simp [tally]

theorem value_tally (amounts : List (κ × UInt64)) (key : κ) :
    value (tally amounts) key =
      UInt64.ofNat ((amounts.filter (·.1 = key)).map (·.2.toNat)).sum := by
  induction amounts using List.reverseRecOn with
  | nil => rfl
  | append_singleton past amount ih =>
    rw [tally_snoc, value_increase, List.filter_append, List.map_append, List.sum_append,
      UInt64.ofNat_add]
    by_cases here : amount.1 = key
    · simp [here, ← ih]
    · simp [here, ih]

theorem mem_keys_tally {amounts : List (κ × UInt64)} {key : κ} :
    key ∈ (tally amounts).map Prod.fst ↔ ∃ amount ∈ amounts, amount.1 = key := by
  induction amounts using List.reverseRecOn with
  | nil => simp [tally]
  | append_singleton past amount ih =>
    rw [tally_snoc, increase, mem_keys_add, ih]
    simp only [List.mem_append, List.mem_singleton, or_and_right, exists_or, exists_eq_left]
    rw [or_comm, eq_comm]

theorem nodup_tally (amounts : List (κ × UInt64)) : ((tally amounts).map Prod.fst).Nodup := by
  induction amounts using List.reverseRecOn with
  | nil => exact .nil
  | append_singleton past amount ih =>
    rw [tally_snoc]
    exact nodup_add ih amount.1 _

theorem mem_tally {amounts : List (κ × UInt64)} {entry : κ × UInt64} :
    entry ∈ tally amounts ↔ (∃ amount ∈ amounts, amount.1 = entry.1) ∧
      entry.2 = UInt64.ofNat ((amounts.filter (·.1 = entry.1)).map (·.2.toNat)).sum := by
  rw [← mem_keys_tally, ← value_tally]
  constructor
  · intro inside
    refine ⟨List.mem_map_of_mem inside, ?_⟩
    rw [value, find_of_mem (nodup_tally amounts) inside]
    rfl
  · intro ⟨listed, amount⟩
    have ⟨found, inside, same⟩ := List.mem_map.mp listed
    rw [value, ← same, find_of_mem (nodup_tally amounts) inside] at amount
    have whole : entry = found := Prod.ext same.symm amount
    rwa [whole]

end BpfMap
