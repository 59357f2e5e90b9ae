import Mathlib.Logic.Function.Basic
import ZnsTools.Shared.KeyedObject

set_option autoImplicit false

namespace Flushed

open KeyedObject

-- Maps that are printed and cleared from time to time, and printed once more at the end.

variable {μ κ ν : Type} [DecidableEq μ] [DecidableEq κ]

inductive Step (μ κ ν : Type) where
  | write (map : μ) (key : κ) (value : ν)
  | flush
  deriving DecidableEq

structure State (μ κ ν : Type) where
  held : μ → List (κ × ν)
  printed : List (μ × List (κ × ν))

def start : State μ κ ν := ⟨fun _ => [], []⟩

-- `order` is the order in which the maps are printed.
def step (order : List μ) (state : State μ κ ν) : Step μ κ ν → State μ κ ν
  | .write map key value =>
    { state with held := Function.update state.held map (add (state.held map) key value) }
  | .flush =>
    ⟨fun map => if map ∈ order then [] else state.held map,
      state.printed ++ order.map fun map => (map, state.held map)⟩

def printouts (order : List μ) (steps : List (Step μ κ ν)) : List (μ × List (κ × ν)) :=
  let last := steps.foldl (step order) start
  last.printed ++ order.map fun map => (map, last.held map)

def overwritten (key : μ × κ) : List (Step μ κ ν) → Bool
  | [] => false
  | .flush :: _ => false
  | .write map other _ :: rest => (map, other) = key || overwritten key rest

/-- The writes that are still there when the maps are printed. -/
def lasting : List (Step μ κ ν) → List ((μ × κ) × ν)
  | [] => []
  | .flush :: rest => lasting rest
  | .write map key value :: rest =>
    if overwritten (map, key) rest then lasting rest
    else ((map, key), value) :: lasting rest

def writes : List (Step μ κ ν) → List ((μ × κ) × ν)
  | [] => []
  | .flush :: rest => writes rest
  | .write map key value :: rest => ((map, key), value) :: writes rest

def tag (printout : μ × List (κ × ν)) : List ((μ × κ) × ν) :=
  printout.2.map fun entry => ((printout.1, entry.1), entry.2)

section Entries

def entries (order : List μ) (held : μ → List (κ × ν)) : List ((μ × κ) × ν) :=
  order.flatMap fun map => tag (map, held map)

omit [DecidableEq μ] [DecidableEq κ] in
theorem printed_entries (order : List μ) (held : μ → List (κ × ν)) :
    (order.map fun map => (map, held map)).flatMap tag = entries order held := by
  rw [entries, List.flatMap_map]

theorem add_perm {object : List (κ × ν)} (distinct : (object.map Prod.fst).Nodup) (key : κ)
    (value : ν) :
    (add object key value).Perm ((key, value) :: object.filter fun entry => entry.1 ≠ key) := by
  induction object with
  | nil => exact .refl _
  | cons head rest ih =>
    obtain ⟨other, old⟩ := head
    rw [List.map_cons, List.nodup_cons] at distinct
    by_cases same : other = key
    · have others : ∀ entry ∈ rest, entry.1 ≠ key := by
        intro entry inside again
        exact distinct.1 (List.mem_map.mpr ⟨entry, inside, again.trans same.symm⟩)
      have all : rest.filter (fun entry => entry.1 ≠ key) = rest := by
        simpa [List.filter_eq_self] using others
      rw [add, if_pos same, List.filter_cons_of_neg (by simpa using same), all, same]
    · rw [add, if_neg same, List.filter_cons_of_pos (by simpa using same)]
      exact ((ih distinct.2).cons _).trans (.swap _ _ _)

theorem tag_filter (map : μ) (key : κ) (held : List (κ × ν)) :
    (tag (map, held)).filter (fun entry => entry.1 ≠ (map, key)) =
      tag (map, held.filter fun entry => entry.1 ≠ key) := by
  simp [tag, List.filter_map, Function.comp_def]

theorem tag_other {map other : μ} (apart : other ≠ map) (key : κ) (held : List (κ × ν)) :
    (tag (other, held)).filter (fun entry => entry.1 ≠ (map, key)) = tag (other, held) := by
  rw [List.filter_eq_self]
  intro entry inside
  obtain ⟨own, _, rfl⟩ := List.mem_map.mp inside
  simp [apart]

theorem entries_away {order : List μ} {map : μ} (away : map ∉ order) (key : κ)
    (held : μ → List (κ × ν)) (new : List (κ × ν)) :
    entries order (Function.update held map new) =
      (entries order held).filter fun entry => entry.1 ≠ (map, key) := by
  induction order with
  | nil => rfl
  | cons other rest ih =>
    rw [List.mem_cons, not_or] at away
    have apart := Ne.symm away.1
    have later := ih away.2
    rw [entries, entries] at later ⊢
    rw [List.flatMap_cons, List.flatMap_cons, List.filter_append, later,
      Function.update_of_ne apart, tag_other apart]

theorem entries_write {order : List μ} (once : order.Nodup) {map : μ} (listed : map ∈ order)
    {held : μ → List (κ × ν)} (distinct : ((held map).map Prod.fst).Nodup) (key : κ) (value : ν) :
    (entries order (Function.update held map (add (held map) key value))).Perm
      (((map, key), value) :: (entries order held).filter fun entry => entry.1 ≠ (map, key)) := by
  have reordered := List.perm_cons_erase listed
  have away : map ∉ order.erase map := once.not_mem_erase
  have split (held : μ → List (κ × ν)) :
      (entries order held).Perm (tag (map, held map) ++ entries (order.erase map) held) :=
    reordered.flatMap_right _
  have first : (tag (map, add (held map) key value)).Perm
      (((map, key), value) :: tag (map, (held map).filter fun entry => entry.1 ≠ key)) :=
    (add_perm distinct key value).map _
  have before := (split held).filter fun entry => entry.1 ≠ (map, key)
  rw [List.filter_append, tag_filter] at before
  refine (split _).trans ?_
  rw [Function.update_self, entries_away away key]
  exact (first.append_right _).trans (before.symm.cons _)

omit [DecidableEq μ] [DecidableEq κ] in
theorem entries_empty {order : List μ} {held : μ → List (κ × ν)}
    (nothing : ∀ map ∈ order, held map = []) : entries order held = [] := by
  rw [entries, List.flatMap_eq_nil_iff]
  intro map listed
  rw [nothing map listed]
  rfl

end Entries

section Run

variable {order : List μ}

def Covered (order : List μ) (steps : List (Step μ κ ν)) : Prop :=
  ∀ map key value, .write map key value ∈ steps → map ∈ order

theorem held_distinct {state : State μ κ ν}
    (distinct : ∀ map, ((state.held map).map Prod.fst).Nodup) (next : Step μ κ ν) (map : μ) :
    (((step order state next).held map).map Prod.fst).Nodup := by
  cases next with
  | write other key value =>
    by_cases same : map = other
    · subst same
      simpa [step] using nodup_add (distinct map) key value
    · simpa [step, same] using distinct map
  | flush =>
    by_cases listed : map ∈ order
    · simp [step, listed]
    · simpa [step, listed] using distinct map

/-- What is printed and held, less what is written again, and what lasts of the steps to come. -/
theorem run_perm (once : order.Nodup) {steps : List (Step μ κ ν)} (covered : Covered order steps)
    {state : State μ κ ν} (distinct : ∀ map, ((state.held map).map Prod.fst).Nodup) :
    let last := steps.foldl (step order) state
    (last.printed.flatMap tag ++ entries order last.held).Perm
      (state.printed.flatMap tag ++
        ((entries order state.held).filter fun entry => ¬ overwritten entry.1 steps) ++
        lasting steps) := by
  induction steps generalizing state with
  | nil => simp [overwritten, lasting]
  | cons next rest ih =>
    have later : Covered order rest := fun map key value inside =>
      covered map key value (List.mem_cons_of_mem _ inside)
    refine (ih later (held_distinct distinct next)).trans ?_
    cases next with
    | flush =>
      have cleared : entries order (step order state .flush).held = [] :=
        entries_empty fun map listed => if_pos listed
      have whole : (step order state .flush).printed.flatMap tag =
          state.printed.flatMap tag ++ entries order state.held := by
        rw [step, List.flatMap_append, printed_entries]
      rw [cleared, whole]
      simp [overwritten, lasting]
    | write map key value =>
      have listed := covered map key value List.mem_cons_self
      have written := (entries_write once listed (distinct map) key value).filter
        fun entry => ¬ overwritten entry.1 rest
      have keys : (entries order state.held).filter
            (fun entry => ¬ overwritten entry.1 (.write map key value :: rest)) =
          ((entries order state.held).filter fun entry => entry.1 ≠ (map, key)).filter
            fun entry => ¬ overwritten entry.1 rest := by
        rw [List.filter_filter]
        apply List.filter_congr
        intro entry _
        by_cases same : entry.1 = (map, key)
        · simp [overwritten, same]
        · simp [overwritten, same, Ne.symm same]
      rw [keys, lasting]
      refine ((written.append_left _).append_right _).trans ?_
      by_cases again : overwritten (map, key) rest
      · rw [if_pos again, List.filter_cons_of_neg (by simpa using again)]
        exact .refl _
      · rw [if_neg again, List.filter_cons_of_pos (by simpa using again)]
        exact (List.perm_middle.append_right _).trans List.perm_middle.symm

theorem printouts_perm (once : order.Nodup) {steps : List (Step μ κ ν)}
    (covered : Covered order steps) :
    ((printouts order steps).flatMap tag).Perm (lasting steps) := by
  have nothing : entries order (start : State μ κ ν).held = [] := entries_empty fun _ _ => rfl
  have run := run_perm once covered (show ∀ map, ((start.held map).map Prod.fst).Nodup from
    fun map => List.nodup_nil)
  dsimp only at run
  rw [nothing] at run
  rw [printouts, List.flatMap_append, printed_entries]
  exact run

end Run

section Lasting

theorem lasting_sublist (steps : List (Step μ κ ν)) :
    (lasting steps).Sublist (writes steps) := by
  induction steps with
  | nil => exact .slnil
  | cons next rest ih =>
    cases next with
    | flush => exact ih
    | write map key value =>
      rw [lasting, writes]
      split
      · exact ih.cons _
      · exact ih.cons_cons _

def Kept (chosen : (μ × κ) × ν → Bool) : List (Step μ κ ν) → Prop
  | [] => True
  | .flush :: rest => Kept chosen rest
  | .write map key value :: rest =>
    (chosen ((map, key), value) → ¬ overwritten (map, key) rest) ∧ Kept chosen rest

instance decidableKept (chosen : (μ × κ) × ν → Bool) :
    (steps : List (Step μ κ ν)) → Decidable (Kept chosen steps)
  | [] => inferInstanceAs (Decidable True)
  | .flush :: rest => decidableKept chosen rest
  | .write map key value :: rest =>
    have := decidableKept chosen rest
    inferInstanceAs (Decidable
      ((chosen ((map, key), value) → ¬ overwritten (map, key) rest) ∧ Kept chosen rest))

theorem length_le_iff (chosen : (μ × κ) × ν → Bool) (steps : List (Step μ κ ν)) :
    ((writes steps).filter chosen).length ≤ ((lasting steps).filter chosen).length ↔
      Kept chosen steps := by
  induction steps with
  | nil => simp [lasting, writes, Kept]
  | cons next rest ih =>
    cases next with
    | flush => exact ih
    | write map key value =>
      have fewer := ((lasting_sublist rest).filter chosen).length_le
      rw [lasting, writes, Kept, ← ih]
      by_cases picked : chosen ((map, key), value) <;>
        by_cases again : overwritten (map, key) rest <;> simp [picked, again]
      omega

end Lasting

end Flushed
