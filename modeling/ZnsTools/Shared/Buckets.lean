import Mathlib.Algebra.BigOperators.Group.List.Basic
import Mathlib.Algebra.GroupWithZero.Nat
import Mathlib.Data.List.Perm.Basic

set_option autoImplicit false

namespace Buckets

-- A list of buckets in which one bucket is replaced.

variable {α β : Type}

theorem set_split {buckets : List α} {index : Nat} {old : α} (found : buckets[index]? = some old)
    (new : α) : ∃ front back, buckets = front ++ old :: back ∧ front.length = index ∧
      buckets.set index new = front ++ new :: back := by
  obtain ⟨inside, rfl⟩ := List.getElem?_eq_some_iff.mp found
  refine ⟨buckets.take index, buckets.drop (index + 1), ?_, ?_, ?_⟩
  · rw [List.cons_getElem_drop_succ, List.take_append_drop]
  · simp [Nat.min_eq_left (Nat.le_of_lt inside)]
  · rw [List.set_eq_take_append_cons_drop, if_pos inside]

theorem flatMap_set_perm {buckets : List α} {index : Nat} {old : α} {b : β} (f : α → List β)
    (new : α) (found : buckets[index]? = some old) (grown : (f new).Perm (b :: f old)) :
    ((buckets.set index new).flatMap f).Perm (b :: buckets.flatMap f) := by
  obtain ⟨front, back, split, -, updated⟩ := set_split found new
  rw [updated, split]
  simp only [List.flatMap_append, List.flatMap_cons]
  refine (List.Perm.append_left _ (grown.append_right _)).trans ?_
  exact List.perm_middle

theorem sum_set {buckets : List α} {index : Nat} {old : α} {n : Nat} (f : α → Nat)
    (new : α) (found : buckets[index]? = some old) (grown : f new = f old + n) :
    ((buckets.set index new).map f).sum = (buckets.map f).sum + n := by
  obtain ⟨front, back, split, -, updated⟩ := set_split found new
  rw [updated, split]
  simp only [List.map_append, List.map_cons, List.sum_append, List.sum_cons, grown]
  omega

theorem length_le_flatMap {buckets : List α} {bucket : α} (f : α → List β)
    (inside : bucket ∈ buckets) : (f bucket).length ≤ (buckets.flatMap f).length := by
  obtain ⟨front, back, rfl⟩ := List.append_of_mem inside
  simp only [List.flatMap_append, List.flatMap_cons, List.length_append]
  omega

theorem getElem?_set_cases {buckets : List α} {index other : Nat} {new found : α}
    (at_index : (buckets.set index new)[other]? = some found) :
    other = index ∧ found = new ∨ other ≠ index ∧ buckets[other]? = some found := by
  rw [List.getElem?_set] at at_index
  split at at_index
  · next same =>
    split at at_index
    · exact .inl ⟨same.symm, (Option.some.inj at_index).symm⟩
    · simp at at_index
  · next different => exact .inr ⟨Ne.symm different, at_index⟩

theorem filter_bucket {buckets : List α} {index : Nat} {bucket : α} (f : α → List β)
    (key : β → Nat) (found : buckets[index]? = some bucket)
    (filed : ∀ (place : Nat) (other : α), buckets[place]? = some other →
      ∀ b ∈ f other, key b = place) :
    (buckets.flatMap f).filter (fun b => key b == index) = f bucket := by
  have ⟨front, back, split, length, _⟩ := set_split found bucket
  have others : ∀ part : List α,
      (∀ other ∈ part, ∃ place, place ≠ index ∧ buckets[place]? = some other) →
        (part.flatMap f).filter (fun b => key b == index) = [] := by
    intro part elsewhere
    rw [List.filter_eq_nil_iff]
    intro b member
    have ⟨other, listed, inside⟩ := List.mem_flatMap.mp member
    have ⟨place, apart, here⟩ := elsewhere other listed
    simpa [filed place other here b inside] using apart
  have before := others front fun other listed => by
    have ⟨place, here⟩ := List.getElem?_of_mem listed
    have ⟨below, _⟩ := List.getElem?_eq_some_iff.mp here
    exact ⟨place, by omega, by rw [split, List.getElem?_append_left below, here]⟩
  have behind := others back fun other listed => by
    have ⟨place, here⟩ := List.getElem?_of_mem listed
    refine ⟨index + 1 + place, by omega, ?_⟩
    rw [split, List.getElem?_append_right (by omega), length,
      show index + 1 + place - index = place + 1 by omega, List.getElem?_cons_succ, here]
  have own : (f bucket).filter (fun b => key b == index) = f bucket := by
    rw [List.filter_eq_self]
    intro b member
    simpa using filed index bucket found b member
  rw [split, List.flatMap_append, List.flatMap_cons, List.filter_append, List.filter_append, before,
    behind, own, List.append_nil, List.nil_append]

end Buckets
