import Mathlib.Data.List.Basic

set_option autoImplicit false

namespace ResumedSearch

-- A search through blocks of one size that remembers where it stopped: a block and an index in it.

variable {α : Type} {p : α → Bool}

def search (p : α → Bool) (block : List α) (start : Nat) : Option (α × Nat) :=
  ((block.drop start).zipIdx start).find? fun entry => p entry.1

theorem find?_zipIdx_some {list : List α} {n i : Nat} {a : α}
    (found : (list.zipIdx n).find? (fun entry => p entry.1) = some (a, i)) :
    n ≤ i ∧ i < n + list.length ∧ list.filter p = a :: (list.drop (i + 1 - n)).filter p := by
  induction list generalizing n with
  | nil => simp at found
  | cons head rest ih =>
    rw [List.zipIdx_cons, List.find?_cons] at found
    cases hit : p head with
    | true =>
      simp only [hit, Option.some.injEq, Prod.mk.injEq] at found
      obtain ⟨rfl, rfl⟩ := found
      simp [hit]
    | false =>
      simp only [hit] at found
      have ⟨after, before, filtered⟩ := ih found
      have next : i + 1 - n = (i + 1 - (n + 1)) + 1 := by omega
      refine ⟨by omega, by rw [List.length_cons]; omega, ?_⟩
      rw [List.filter_cons_of_neg (by simp [hit]), filtered, next, List.drop_succ_cons]

theorem search_some {block : List α} {start i : Nat} {a : α}
    (found : search p block start = some (a, i)) :
    start ≤ i ∧ i < block.length ∧
      (block.drop start).filter p = a :: (block.drop (i + 1)).filter p := by
  have ⟨after, before, filtered⟩ := find?_zipIdx_some found
  rw [List.length_drop] at before
  refine ⟨after, by omega, ?_⟩
  rw [filtered, List.drop_drop]
  congr 3
  omega

theorem search_none_iff {block : List α} {start : Nat} :
    search p block start = none ↔ (block.drop start).filter p = [] := by
  rw [search, List.find?_eq_none, List.filter_eq_nil_iff]
  constructor
  · intro missed a inside
    have ⟨i, here⟩ := List.getElem?_of_mem inside
    exact missed (a, start + i) (List.mk_mem_zipIdx_iff_le_and_getElem?_sub.mpr (by simpa using here))
  · intro missed entry inside
    exact missed entry.1 (List.mem_of_getElem? (List.mk_mem_zipIdx_iff_le_and_getElem?_sub.mp inside).2)

-- What is still to come when the search stands at index `start` of block `b`.
def rest (blocks : Nat → List α) (count b start : Nat) : List α :=
  ((List.range' b (count - b)).flatMap blocks).drop start

variable (blocks : Nat → List α) {count b start : Nat}

theorem rest_past (past : count ≤ b) : rest blocks count b start = [] := by
  simp [rest, Nat.sub_eq_zero_of_le past]

theorem rest_inside (inside : b < count) (within : start ≤ (blocks b).length) :
    rest blocks count b start = (blocks b).drop start ++ rest blocks count (b + 1) 0 := by
  have more : count - b = (count - (b + 1)) + 1 := by omega
  rw [rest, more, List.range'_succ, List.flatMap_cons, List.drop_append_of_le_length within]
  rfl

theorem rest_end (inside : b < count) :
    rest blocks count b (blocks b).length = rest blocks count (b + 1) 0 := by
  rw [rest_inside blocks inside (Nat.le_refl _), List.drop_length, List.nil_append]

theorem filter_rest_found {a : α} {i : Nat} (inside : b < count)
    (within : start ≤ (blocks b).length) (found : search p (blocks b) start = some (a, i)) :
    (rest blocks count b start).filter p = a :: (rest blocks count b (i + 1)).filter p := by
  have ⟨after, before, filtered⟩ := search_some found
  rw [rest_inside blocks inside within, rest_inside blocks inside before, List.filter_append, filtered,
    List.filter_append, List.cons_append]

theorem filter_rest_missed (inside : b < count) (within : start ≤ (blocks b).length)
    (missed : search p (blocks b) start = none) :
    (rest blocks count b start).filter p = (rest blocks count (b + 1) 0).filter p := by
  rw [rest_inside blocks inside within, List.filter_append, search_none_iff.mp missed, List.nil_append]

end ResumedSearch
