import Mathlib.Data.List.Forall2
import Mathlib.Data.List.Perm.Basic
import ZnsTools.Shared.Runs

set_option autoImplicit false

namespace Appending

-- Steps that only add to the end of what a run has given out.

variable {ι β ε : Type}

def Appends (step : List β → ι → Except ε (List β)) : Prop :=
  ∀ out item, step out item = (step [] item).map (out ++ ·)

variable {step : List β → ι → Except ε (List β)}

theorem Appends.step_ok_iff (appends : Appends step) {out result : List β} {item : ι} :
    step out item = .ok result ↔ ∃ part, step [] item = .ok part ∧ result = out ++ part := by
  rw [appends out item]
  cases step [] item with
  | error e => simp [Except.map]
  | ok part => simp [Except.map, eq_comm]

theorem Appends.run_ok_iff (appends : Appends step) {items : List ι} {out result : List β} :
    items.foldlM step out = .ok result ↔ ∃ parts,
      List.Forall₂ (fun item part => step [] item = .ok part) items parts ∧
        result = out ++ parts.flatten := by
  induction items generalizing out with
  | nil => simp [pure, Except.pure, eq_comm]
  | cons item rest ih =>
    rw [List.foldlM_cons]
    constructor
    · intro ran
      obtain ⟨next, moved, later⟩ := Runs.bind_ok ran
      obtain ⟨part, first, rfl⟩ := appends.step_ok_iff.mp moved
      obtain ⟨parts, each, same⟩ := ih.mp later
      exact ⟨part :: parts, .cons first each, by simp [same]⟩
    · intro ⟨parts, each, same⟩
      cases each with
      | cons first each =>
        rw [appends.step_ok_iff.mpr ⟨_, first, rfl⟩, Runs.ok_bind, ih]
        exact ⟨_, each, by simp [same]⟩

theorem Appends.run (appends : Appends step) :
    Appends fun out (items : List ι) => items.foldlM step out := by
  intro out items
  dsimp only
  induction items generalizing out with
  | nil => exact congrArg Except.ok (List.append_nil out).symm
  | cons item rest ih =>
    rw [List.foldlM_cons, List.foldlM_cons, appends out item]
    cases step [] item with
    | error e => rfl
    | ok part =>
      rw [Except.map, Runs.ok_bind, Runs.ok_bind, ih (out ++ part), ih part]
      cases rest.foldlM step [] with
      | error e => rfl
      | ok later => exact congrArg Except.ok (List.append_assoc out part later)

theorem Appends.run_perm (appends : Appends step) {first second : List ι}
    (perm : first.Perm second) {out result : List β} (ran : first.foldlM step out = .ok result) :
    ∃ other, second.foldlM step out = .ok other ∧ result.Perm other := by
  obtain ⟨parts, each, rfl⟩ := appends.run_ok_iff.mp ran
  obtain ⟨others, matched, reordered⟩ := List.perm_comp_forall₂ perm.symm each
  exact ⟨out ++ others.flatten, appends.run_ok_iff.mpr ⟨others, matched, rfl⟩,
    reordered.symm.flatten.append_left out⟩

theorem Appends.run_forall (appends : Appends step) {P : β → Prop} {items : List ι}
    (each : ∀ item ∈ items, ∀ part, step [] item = .ok part → ∀ b ∈ part, P b)
    {out result : List β} (ran : items.foldlM step out = .ok result) (before : ∀ b ∈ out, P b) :
    ∀ b ∈ result, P b := by
  refine Runs.foldlM_invariant (fun out => ∀ b ∈ out, P b) ?_ ran before
  intro state item inside next kept moved b member
  obtain ⟨part, given, rfl⟩ := appends.step_ok_iff.mp moved
  rcases List.mem_append.mp member with old | new
  · exact kept b old
  · exact each item inside part given b new

end Appending
