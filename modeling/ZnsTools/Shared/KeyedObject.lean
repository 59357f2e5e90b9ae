import Mathlib.Algebra.BigOperators.Group.List.Basic
import Mathlib.Algebra.GroupWithZero.Nat

set_option autoImplicit false

namespace KeyedObject

-- An object with keys in the order in which they were first added.

variable {κ ν : Type}

section Add

variable [DecidableEq κ]

def add : List (κ × ν) → κ → ν → List (κ × ν)
  | [], key, value => [(key, value)]
  | (other, old) :: rest, key, value =>
    if other = key then (other, value) :: rest else (other, old) :: add rest key value

theorem add_add (object : List (κ × ν)) (key : κ) (first value : ν) :
    add (add object key first) key value = add object key value := by
  induction object with
  | nil => simp [add]
  | cons head rest ih => by_cases same : head.1 = key <;> simp [add, same, ih]

theorem add_map {ν' : Type} (g : ν → ν') (object : List (κ × ν)) (key : κ) (value : ν) :
    (add object key value).map (Prod.map id g) = add (object.map (Prod.map id g)) key (g value) := by
  induction object with
  | nil => rfl
  | cons head rest ih =>
    obtain ⟨other, old⟩ := head
    rw [List.map_cons, Prod.map_apply, id, add, add]
    by_cases same : other = key
    · rw [if_pos same, if_pos same]
      rfl
    · rw [if_neg same, if_neg same, ← ih]
      rfl

theorem mem_add {object : List (κ × ν)} {key : κ} {value : ν} {member : κ × ν}
    (inside : member ∈ add object key value) : member = (key, value) ∨ member ∈ object := by
  induction object with
  | nil => exact .inl (List.mem_singleton.mp inside)
  | cons head rest ih =>
    obtain ⟨other, old⟩ := head
    by_cases same : other = key
    · rw [add, if_pos same] at inside
      rcases List.mem_cons.mp inside with rfl | later
      · exact .inl (by rw [same])
      · exact .inr (List.mem_cons_of_mem _ later)
    · rw [add, if_neg same] at inside
      rcases List.mem_cons.mp inside with rfl | later
      · exact .inr List.mem_cons_self
      · exact (ih later).imp id (List.mem_cons_of_mem _)

theorem sum_add_le (size : ν → Nat) (object : List (κ × ν)) (key : κ) (value : ν) :
    ((add object key value).map fun member => size member.2).sum ≤
      (object.map fun member => size member.2).sum + size value := by
  induction object with
  | nil => simp [add]
  | cons head rest ih =>
    by_cases same : head.1 = key <;>
      simp only [add, same, if_true, if_false, List.map_cons, List.sum_cons] <;> omega

def find : List (κ × ν) → κ → Option ν
  | [], _ => none
  | (other, value) :: rest, key => if other = key then some value else find rest key

theorem find_add (object : List (κ × ν)) (key other : κ) (value : ν) :
    find (add object key value) other = if key = other then some value else find object other := by
  induction object with
  | nil => rfl
  | cons head rest ih =>
    have ⟨first, old⟩ := head
    by_cases same : first = key
    · subst same
      by_cases here : first = other <;> simp [add, find, here]
    · by_cases here : first = other
      · subst here
        simp [add, find, same, Ne.symm same]
      · simp [add, find, same, here, ih]

theorem find_of_mem {object : List (κ × ν)} (distinct : (object.map Prod.fst).Nodup) {key : κ}
    {value : ν} (inside : (key, value) ∈ object) : find object key = some value := by
  induction object with
  | nil => cases inside
  | cons head rest ih =>
    have ⟨other, old⟩ := head
    rw [List.map_cons, List.nodup_cons] at distinct
    rcases List.mem_cons.mp inside with same | later
    · cases same
      exact if_pos rfl
    · have apart : other ≠ key := by
        intro same
        exact distinct.1 (List.mem_map.mpr ⟨_, later, same.symm⟩)
      rw [find, if_neg apart, ih distinct.2 later]

theorem mem_of_find {object : List (κ × ν)} {key : κ} {value : ν}
    (found : find object key = some value) : (key, value) ∈ object := by
  induction object with
  | nil => cases found
  | cons head rest ih =>
    have ⟨other, old⟩ := head
    rw [find] at found
    split at found
    · next same =>
      rw [same, Option.some.inj found]
      exact List.mem_cons_self
    · exact List.mem_cons_of_mem _ (ih found)

theorem find_perm {first second : List (κ × ν)} (perm : first.Perm second)
    (distinct : (first.map Prod.fst).Nodup) (key : κ) : find first key = find second key := by
  have others : (second.map Prod.fst).Nodup := (perm.map _).nodup_iff.mp distinct
  cases found : find first key with
  | some value => exact (find_of_mem others (perm.mem_iff.mp (mem_of_find found))).symm
  | none =>
    cases again : find second key with
    | none => rfl
    | some value =>
      rw [find_of_mem distinct (perm.mem_iff.mpr (mem_of_find again))] at found
      cases found

theorem find_map {κ' ν' : Type} [DecidableEq κ'] {f : κ → κ'} (injective : Function.Injective f)
    (g : ν → ν') (object : List (κ × ν)) (key : κ) :
    find (object.map fun entry => (f entry.1, g entry.2)) (f key) = (find object key).map g := by
  induction object with
  | nil => rfl
  | cons head rest ih =>
    by_cases same : head.1 = key
    · simp [find, same]
    · have apart : f head.1 ≠ f key := fun equal => same (injective equal)
      simp [find, same, apart, ih]

theorem keys_add (object : List (κ × ν)) (key : κ) (value : ν) :
    (add object key value).map Prod.fst =
      if key ∈ object.map Prod.fst then object.map Prod.fst else object.map Prod.fst ++ [key] := by
  induction object with
  | nil => rfl
  | cons head rest ih =>
    have ⟨other, old⟩ := head
    by_cases same : other = key
    · simp [add, same]
    · rw [add, if_neg same, List.map_cons, ih]
      by_cases inside : key ∈ rest.map Prod.fst
      · have present : key ∈ ((other, old) :: rest).map Prod.fst := List.mem_cons_of_mem _ inside
        rw [if_pos inside, if_pos present, List.map_cons]
      · have absent : key ∉ ((other, old) :: rest).map Prod.fst := by
          rw [List.map_cons, List.mem_cons, not_or]
          exact ⟨Ne.symm same, inside⟩
        rw [if_neg inside, if_neg absent, List.map_cons, List.cons_append]

theorem nodup_add {object : List (κ × ν)} (distinct : (object.map Prod.fst).Nodup) (key : κ)
    (value : ν) : ((add object key value).map Prod.fst).Nodup := by
  rw [keys_add]
  split
  · exact distinct
  · next absent =>
    rw [List.nodup_append]
    refine ⟨distinct, by simp, ?_⟩
    intro other inside last alone same
    rw [same, List.mem_singleton.mp alone] at inside
    exact absent inside

theorem mem_keys_add {object : List (κ × ν)} {key other : κ} {value : ν} :
    other ∈ (add object key value).map Prod.fst ↔ other = key ∨ other ∈ object.map Prod.fst := by
  rw [keys_add]
  split
  · next inside =>
    constructor
    · exact .inr
    · rintro (rfl | member)
      · exact inside
      · exact member
  · rw [List.mem_append, List.mem_singleton, or_comm]

theorem add_new {object : List (κ × ν)} {key : κ} (absent : key ∉ object.map Prod.fst) (value : ν) :
    add object key value = object ++ [(key, value)] := by
  induction object with
  | nil => rfl
  | cons head rest ih =>
    rw [List.map_cons, List.mem_cons, not_or] at absent
    rw [add, if_neg (Ne.symm absent.1), ih absent.2, List.cons_append]

def addAll (object pairs : List (κ × ν)) : List (κ × ν) :=
  pairs.foldl (fun object pair => add object pair.1 pair.2) object

theorem addAll_cons (object : List (κ × ν)) (pair : κ × ν) (rest : List (κ × ν)) :
    addAll object (pair :: rest) = addAll (add object pair.1 pair.2) rest :=
  rfl

theorem addAll_snoc (object pairs : List (κ × ν)) (pair : κ × ν) :
    addAll object (pairs ++ [pair]) = add (addAll object pairs) pair.1 pair.2 := by
  simp [addAll]

theorem mem_addAll {object pairs : List (κ × ν)} {member : κ × ν}
    (inside : member ∈ addAll object pairs) : member ∈ object ∨ member ∈ pairs := by
  induction pairs generalizing object with
  | nil => exact .inl inside
  | cons pair rest ih =>
    rw [addAll_cons] at inside
    rcases ih inside with before | later
    · rcases mem_add before with rfl | old
      · exact .inr List.mem_cons_self
      · exact .inl old
    · exact .inr (List.mem_cons_of_mem _ later)

theorem addAll_distinct {object pairs : List (κ × ν)}
    (distinct : ((object ++ pairs).map Prod.fst).Nodup) :
    addAll object pairs = object ++ pairs := by
  induction pairs generalizing object with
  | nil => simp [addAll]
  | cons pair rest ih =>
    have absent : pair.1 ∉ object.map Prod.fst := by
      rw [List.map_append, List.map_cons, List.nodup_append] at distinct
      exact fun inside => distinct.2.2 _ inside _ List.mem_cons_self rfl
    have split : object ++ pair :: rest = (object ++ [pair]) ++ rest := by simp
    rw [split] at distinct ⊢
    rw [← ih distinct, ← add_new absent, addAll_cons]

theorem length_add_le (object : List (κ × ν)) (key : κ) (value : ν) :
    (add object key value).length ≤ object.length + 1 := by
  have keys := congrArg List.length (keys_add object key value)
  rw [List.length_map] at keys
  split at keys <;> simp at keys <;> omega

theorem length_addAll_le (object pairs : List (κ × ν)) :
    (addAll object pairs).length ≤ object.length + pairs.length := by
  induction pairs generalizing object with
  | nil => exact Nat.le_refl _
  | cons pair rest ih =>
    have later := ih (add object pair.1 pair.2)
    have first := length_add_le object pair.1 pair.2
    rw [addAll_cons, List.length_cons]
    omega

theorem distinct_of_length {object pairs : List (κ × ν)} (start : (object.map Prod.fst).Nodup)
    (length : (addAll object pairs).length = object.length + pairs.length) :
    ((object ++ pairs).map Prod.fst).Nodup := by
  induction pairs generalizing object with
  | nil => simpa using start
  | cons pair rest ih =>
    rw [addAll_cons, List.length_cons] at length
    have absent : pair.1 ∉ object.map Prod.fst := by
      intro inside
      have keys := congrArg List.length (keys_add object pair.1 pair.2)
      rw [if_pos inside, List.length_map, List.length_map] at keys
      have later := length_addAll_le (add object pair.1 pair.2) rest
      omega
    have split : object ++ pair :: rest = add object pair.1 pair.2 ++ rest := by
      rw [add_new absent]
      simp
    have added : (add object pair.1 pair.2).length = object.length + 1 := by
      rw [add_new absent]
      simp
    rw [split]
    exact ih (nodup_add start pair.1 pair.2) (by omega)

theorem addAll_perm_iff {pairs expected : List (κ × ν)} (length : pairs.length = expected.length) :
    (addAll [] pairs).Perm expected ↔ (pairs.map Prod.fst).Nodup ∧ pairs.Perm expected := by
  have whole : (pairs.map Prod.fst).Nodup → addAll [] pairs = pairs :=
    fun distinct => addAll_distinct (by simpa using distinct)
  constructor
  · intro perm
    have distinct : (pairs.map Prod.fst).Nodup := by
      have added : (([] ++ pairs).map Prod.fst).Nodup := by
        apply distinct_of_length (by simp)
        rw [perm.length_eq, length, List.length_nil, Nat.zero_add]
      simpa using added
    rw [whole distinct] at perm
    exact ⟨distinct, perm⟩
  · intro ⟨distinct, perm⟩
    rwa [whole distinct]

theorem filter_add (keep : κ → Bool) (object : List (κ × ν)) (key : κ) (value : ν) :
    (add object key value).filter (fun member => keep member.1) =
      if keep key then add (object.filter fun member => keep member.1) key value
      else object.filter fun member => keep member.1 := by
  induction object with
  | nil => by_cases kept : keep key <;> simp [add, kept]
  | cons head rest ih =>
    have ⟨other, old⟩ := head
    by_cases same : other = key
    · subst same
      by_cases kept : keep other <;> simp [add, kept]
    · by_cases kept : keep key <;> by_cases stays : keep other <;>
        simp_all [add]

theorem filter_addAll (keep : κ → Bool) (object pairs : List (κ × ν)) :
    (addAll object pairs).filter (fun member => keep member.1) =
      addAll (object.filter fun member => keep member.1)
        (pairs.filter fun member => keep member.1) := by
  induction pairs generalizing object with
  | nil => rfl
  | cons pair rest ih =>
    rw [addAll_cons, ih, filter_add, List.filter_cons]
    split
    · rw [addAll_cons]
    · rfl

end Add

theorem sum_le_of_members (size : ν → Nat) {expected : List (κ × Nat)} {object : List (κ × ν)}
    (distinct : (expected.map Prod.fst).Nodup)
    (members : ∀ part ∈ expected, ∃ value, (part.1, value) ∈ object ∧ part.2 ≤ size value) :
    (expected.map Prod.snd).sum ≤ (object.map fun member => size member.2).sum := by
  induction expected generalizing object with
  | nil => simp
  | cons part rest ih =>
    obtain ⟨value, inside, fits⟩ := members part (by simp)
    obtain ⟨front, back, rfl⟩ := List.append_of_mem inside
    rw [List.map_cons, List.nodup_cons] at distinct
    have others : ∀ other ∈ rest, ∃ value, (other.1, value) ∈ front ++ back ∧
        other.2 ≤ size value := by
      intro other listed
      obtain ⟨found, member, small⟩ := members other (by simp [listed])
      have apart : (other.1, found) ≠ (part.1, value) := by
        intro same
        rw [← (Prod.mk.inj same).1] at distinct
        exact distinct.1 (List.mem_map_of_mem listed)
      refine ⟨found, ?_, small⟩
      simpa [apart] using member
    have tail := ih distinct.2 others
    simp only [List.map_cons, List.sum_cons, List.map_append, List.sum_append] at tail ⊢
    omega

end KeyedObject
