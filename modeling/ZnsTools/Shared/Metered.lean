import Mathlib.Algebra.BigOperators.Group.List.Basic
import Mathlib.Algebra.GroupWithZero.Nat
import ZnsTools.Shared.Runs

set_option autoImplicit false

namespace Metered

-- Computations that take up room, and are refused when there is none left.

variable {σ ι ε : Type} {keeps : σ → Prop} {used : σ → Nat} {limit : Nat}

/-- The result of a computation that takes up `cost` of the room. -/
structure Uses (keeps : σ → Prop) (used : σ → Nat) (limit cost : Nat) (state : σ)
    (result : Except ε σ) : Prop where
  fits : used state + cost ≤ limit →
    ∃ next, result = .ok next ∧ keeps next ∧ used next = used state + cost
  exceeds : limit < used state + cost → ∃ e, result = .error e

namespace Uses

variable {cost : Nat} {state : σ} {result : Except ε σ}

theorem ok_iff (uses : Uses keeps used limit cost state result) :
    (∃ next, result = .ok next) ↔ used state + cost ≤ limit := by
  constructor
  · rintro ⟨next, done⟩
    refine Nat.not_lt.mp fun beyond => ?_
    obtain ⟨e, failed⟩ := uses.exceeds beyond
    rw [done] at failed
    cases failed
  · intro room
    obtain ⟨next, done, -⟩ := uses.fits room
    exact ⟨next, done⟩

theorem idle (kept : keeps state) (inside : used state ≤ limit) :
    Uses keeps used limit 0 state (.ok state : Except ε σ) where
  fits _ := ⟨state, rfl, kept, rfl⟩
  exceeds beyond := absurd inside (Nat.not_le.mpr beyond)

theorem bind {later : Nat} {next : σ → Except ε σ}
    (first : Uses keeps used limit cost state result)
    (second : ∀ middle, keeps middle → used middle ≤ limit →
      Uses keeps used limit later middle (next middle)) :
    Uses keeps used limit (cost + later) state (result >>= next) where
  fits room := by
    obtain ⟨middle, rfl, kept, taken⟩ := first.fits (by omega)
    obtain ⟨last, done, keeps_last, total⟩ := (second middle kept (by omega)).fits (by omega)
    exact ⟨last, done, keeps_last, by omega⟩
  exceeds beyond := by
    by_cases room : used state + cost ≤ limit
    · obtain ⟨middle, rfl, kept, taken⟩ := first.fits room
      exact (second middle kept (by omega)).exceeds (by omega)
    · obtain ⟨e, rfl⟩ := first.exceeds (Nat.not_le.mp room)
      exact ⟨e, rfl⟩

theorem foldlM {step : σ → ι → Except ε σ} {cost : ι → Nat}
    (each : ∀ state item, keeps state → used state ≤ limit →
      Uses keeps used limit (cost item) state (step state item))
    (items : List ι) (kept : keeps state) (inside : used state ≤ limit) :
    Uses keeps used limit (items.map cost).sum state (items.foldlM step state) := by
  induction items generalizing state with
  | nil => exact idle kept inside
  | cons item rest ih =>
    rw [List.map_cons, List.sum_cons, List.foldlM_cons]
    exact (each state item kept inside).bind fun middle => ih

end Uses

end Metered
