import Mathlib.Order.Basic

set_option autoImplicit false

namespace Ascending

-- Numbers that ascend strictly from above one bound up to another.

variable {α : Type} [Preorder α]

structure Ascends (low : α) (numbers : List α) (high : α) : Prop where
  bounds : low ≤ high
  ordered : numbers.Pairwise (· < ·)
  within : ∀ n ∈ numbers, low < n ∧ n ≤ high

theorem Ascends.nil {low high : α} (bounds : low ≤ high) : Ascends low [] high :=
  ⟨bounds, .nil, fun _ inside => nomatch inside⟩

theorem Ascends.single {low n : α} (above : low < n) : Ascends low [n] n where
  bounds := le_of_lt above
  ordered := List.pairwise_singleton _ _
  within := List.forall_mem_singleton.mpr ⟨above, le_refl n⟩

theorem Ascends.append {low middle high : α} {front back : List α}
    (first : Ascends low front middle) (second : Ascends middle back high) :
    Ascends low (front ++ back) high where
  bounds := le_trans first.bounds second.bounds
  ordered := by
    refine List.pairwise_append.mpr ⟨first.ordered, second.ordered, fun a inside b later => ?_⟩
    exact lt_of_le_of_lt (first.within a inside).2 (second.within b later).1
  within := by
    refine List.forall_mem_append.mpr ⟨fun n inside => ?_, fun n inside => ?_⟩
    · have ⟨above, below⟩ := first.within n inside
      exact ⟨above, le_trans below second.bounds⟩
    · have ⟨above, below⟩ := second.within n inside
      exact ⟨lt_of_le_of_lt first.bounds above, below⟩

theorem Ascends.nodup {low high : α} {numbers : List α} (ascends : Ascends low numbers high) :
    numbers.Nodup :=
  ascends.ordered.imp fun before => ne_of_lt before

end Ascending
