import Mathlib.Data.List.Nodup
import Mathlib.Logic.Function.Basic

set_option autoImplicit false

namespace Updates

-- A table that is filled entry by entry, by steps that might fail.

variable {ι κ ν ε : Type} [DecidableEq κ]

def updates (place : ι → κ) (value : ι → ν) (items : List ι) (start : κ → ν) : κ → ν :=
  items.foldl (fun table item => Function.update table (place item) (value item)) start

variable {place : ι → κ} {value : ι → ν} {items : List ι} {start : κ → ν}

theorem updates_missed {key : κ} (missed : key ∉ items.map place) :
    updates place value items start key = start key := by
  induction items generalizing start with
  | nil => rfl
  | cons item rest ih =>
    rw [List.map_cons, List.mem_cons, not_or] at missed
    rw [updates, List.foldl_cons, ← updates, ih missed.2, Function.update_of_ne missed.1]

theorem updates_hit (distinct : (items.map place).Nodup) {item : ι} (inside : item ∈ items) :
    updates place value items start (place item) = value item := by
  induction items generalizing start with
  | nil => cases inside
  | cons first rest ih =>
    rw [List.map_cons, List.nodup_cons] at distinct
    rw [updates, List.foldl_cons, ← updates]
    rcases List.mem_cons.mp inside with rfl | later
    · rw [updates_missed distinct.1, Function.update_self]
    · exact ih distinct.2 later

theorem foldlM_updates {step : (κ → ν) → ι → Except ε (κ → ν)}
    (each : ∀ table, ∀ item ∈ items,
      step table item = .ok (Function.update table (place item) (value item))) :
    items.foldlM step start = .ok (updates place value items start) := by
  induction items generalizing start with
  | nil => rfl
  | cons item rest ih =>
    rw [List.foldlM_cons, each start item List.mem_cons_self]
    exact ih fun table other inside => each table other (List.mem_cons_of_mem _ inside)

end Updates
