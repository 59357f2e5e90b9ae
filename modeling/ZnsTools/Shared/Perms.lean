import Mathlib.Algebra.BigOperators.Group.List.Basic
import Mathlib.Algebra.GroupWithZero.Nat
import Mathlib.Data.List.Perm.Basic

set_option autoImplicit false

namespace Perms

-- Permutations against lists that are related element by element.

variable {α β : Type}

theorem exists_map_of_perm {f : β → α} {xs : List α} {ys : List β} (perm : xs.Perm (ys.map f)) :
    ∃ zs : List β, zs.Perm ys ∧ xs = zs.map f := by
  have images : List.Forall₂ (fun (x : α) (y : β) => x = f y) (ys.map f) ys := by
    rw [← List.forall₂_map_right_iff, List.forall₂_eq_eq_eq]
  have ⟨zs, matched, reordered⟩ := List.perm_comp_forall₂ perm images
  rw [← List.forall₂_map_right_iff, List.forall₂_eq_eq_eq] at matched
  exact ⟨zs, reordered, matched⟩

theorem eq_of_perm_of_le (n : β → Nat) {xs ys : List β}
    (above : List.Forall₂ (fun x y => n y ≤ n x) xs ys) (perm : xs.Perm ys) :
    List.Forall₂ (fun x y => n x = n y) xs ys := by
  have total := (perm.map n).sum_eq
  have sums : ∀ {xs ys : List β}, List.Forall₂ (fun x y => n y ≤ n x) xs ys →
      (ys.map n).sum ≤ (xs.map n).sum := by
    intro xs ys above
    induction above with
    | nil => exact Nat.le_refl _
    | cons first _ ih =>
      rw [List.map_cons, List.map_cons, List.sum_cons, List.sum_cons]
      omega
  clear perm
  induction above with
  | nil => exact .nil
  | cons first rest ih =>
    have later := sums rest
    rw [List.map_cons, List.map_cons, List.sum_cons, List.sum_cons] at total
    exact .cons (by omega) (ih (by omega))

theorem forall₂_of_map_eq {γ : Type} {f : α → γ} {g : β → γ} {P : α → Prop} {xs : List α}
    {ys : List β} (same : xs.map f = ys.map g) (all : ∀ x ∈ xs, P x) :
    List.Forall₂ (fun x y => f x = g y ∧ P x) xs ys := by
  induction xs generalizing ys with
  | nil =>
    cases ys with
    | nil => exact .nil
    | cons y rest => cases same
  | cons x xs ih =>
    cases ys with
    | nil => cases same
    | cons y ys =>
      obtain ⟨first, later⟩ := List.cons.inj same
      rw [List.forall_mem_cons] at all
      exact .cons ⟨first, all.1⟩ (ih later all.2)

theorem find?_of_mem {κ : Type} [BEq κ] [LawfulBEq κ] {key : α → κ} {xs : List α}
    (distinct : (xs.map key).Nodup) {a : α} (inside : a ∈ xs) :
    xs.find? (fun x => key x == key a) = some a := by
  induction xs with
  | nil => cases inside
  | cons x rest ih =>
    rw [List.map_cons, List.nodup_cons] at distinct
    rcases List.mem_cons.mp inside with rfl | later
    · exact List.find?_cons_of_pos (by simp)
    · have other : key x ≠ key a := by
        intro same
        exact distinct.1 (same ▸ List.mem_map_of_mem later)
      rw [List.find?_cons_of_neg (by simpa using other)]
      exact ih distinct.2 later

theorem find?_perm {κ : Type} [BEq κ] [LawfulBEq κ] {key : α → κ} {xs ys : List α}
    (perm : xs.Perm ys) (distinct : (xs.map key).Nodup) (k : κ) :
    xs.find? (fun x => key x == k) = ys.find? (fun x => key x == k) := by
  have others : (ys.map key).Nodup := (perm.map key).nodup_iff.mp distinct
  cases found : xs.find? (fun x => key x == k) with
  | some a =>
    have own : key a = k := by simpa using List.find?_some found
    have there := find?_of_mem others (perm.mem_iff.mp (List.mem_of_find?_eq_some found))
    rw [← own, there]
  | none =>
    refine (List.find?_eq_none.mpr fun y inside => ?_).symm
    exact List.find?_eq_none.mp found y (perm.mem_iff.mpr inside)

theorem set_perm {xs ys : List α} (perm : xs.Perm ys) {i j : Nat} {a : α}
    (here : xs[i]? = some a) (there : ys[j]? = some a) (b : α) :
    (xs.set i b).Perm (ys.set j b) := by
  obtain ⟨inside, rfl⟩ := List.getElem?_eq_some_iff.mp here
  obtain ⟨below, same⟩ := List.getElem?_eq_some_iff.mp there
  have first := List.getElem_cons_eraseIdx_perm inside
  have second := List.getElem_cons_eraseIdx_perm below
  rw [same] at second
  have rest := (List.perm_cons _).mp (first.trans (perm.trans second.symm))
  exact (List.set_perm_cons_eraseIdx inside b).trans
    ((rest.cons b).trans (List.set_perm_cons_eraseIdx below b).symm)

end Perms
