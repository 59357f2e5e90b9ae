import Mathlib.Algebra.BigOperators.Group.List.Basic
import Mathlib.Algebra.GroupWithZero.Nat
import Mathlib.Data.Nat.Basic
import Mathlib.Order.Basic

set_option autoImplicit false

namespace Tiling

-- Intervals, given by where they start and stop, that fill another one from left to right.

variable {α : Type} [Preorder α]

def Tiles (high : α) : α → List (α × α) → Prop
  | low, [] => low = high
  | low, (start, stop) :: rest => start = low ∧ start ≤ stop ∧ Tiles high stop rest

theorem tiles_append {low middle high : α} {front back : List (α × α)}
    (first : Tiles middle low front) (second : Tiles high middle back) :
    Tiles high low (front ++ back) := by
  induction front generalizing low with
  | nil => exact (show low = middle from first) ▸ second
  | cons piece rest ih =>
    obtain ⟨start, ordered, tail⟩ := first
    exact ⟨start, ordered, ih tail⟩

theorem tiles_singleton {low high : α} (ordered : low ≤ high) : Tiles high low [(low, high)] :=
  ⟨rfl, ordered, rfl⟩

theorem tiles_sum {low high : Nat} {pieces : List (Nat × Nat)} (tiles : Tiles high low pieces) :
    low ≤ high ∧ (pieces.map fun piece => piece.2 - piece.1).sum = high - low := by
  induction pieces generalizing low with
  | nil =>
    obtain rfl : low = high := tiles
    simp
  | cons piece rest ih =>
    obtain ⟨rfl, ordered, tail⟩ := tiles
    have ⟨reach, sum⟩ := ih tail
    rw [List.map_cons, List.sum_cons, sum]
    omega

end Tiling
