import Mathlib.Data.List.Nodup
import Mathlib.Data.List.Perm.Basic
import ZnsTools.Shared.KeyedObject

set_option autoImplicit false

namespace Memory

open KeyedObject

-- Blocks that are allocated and freed one by one. An address outside of them can be neither read
-- nor written nor freed.

abbrev Addr := Nat

abbrev Blocks (β : Type) := List (Addr × β)

inductive Fault where
  | notAllocated
  | endless
  deriving DecidableEq, Repr

structure Allocator (β : Type) where
  address : Blocks β → Addr
  fresh : ∀ memory, address memory ∉ memory.map Prod.fst

variable {β : Type} {memory front back blocks : Blocks β} {a : Addr} {old : β}

def read (memory : Blocks β) (a : Addr) : Except Fault β :=
  match find memory a with
  | none => .error .notAllocated
  | some b => .ok b

def write (memory : Blocks β) (a : Addr) (b : β) : Except Fault (Blocks β) :=
  match find memory a with
  | none => .error .notAllocated
  | some _ => .ok (add memory a b)

def free (memory : Blocks β) (a : Addr) : Except Fault (Blocks β) :=
  match find memory a with
  | none => .error .notAllocated
  | some _ => .ok (memory.filter (·.1 ≠ a))

def alloc (allocator : Allocator β) (memory : Blocks β) (b : β) : Addr × Blocks β :=
  (allocator.address memory, add memory (allocator.address memory) b)

def Allocator.least : Allocator β where
  address memory := (memory.map Prod.fst).foldr max 0 + 1
  fresh memory := by
    have below : ∀ addresses : List Nat, ∀ a ∈ addresses, a ≤ addresses.foldr max 0 := by
      intro addresses
      induction addresses with
      | nil => simp
      | cons first rest ih =>
        intro a inside
        rcases List.mem_cons.mp inside with rfl | later
        · exact Nat.le_max_left _ _
        · exact Nat.le_trans (ih a later) (Nat.le_max_right _ _)
    intro inside
    exact Nat.not_succ_le_self _ (below _ _ inside)

/-- The memory is made of these blocks and no others, each at an address of its own. -/
structure Owns (memory blocks : Blocks β) : Prop where
  perm : memory.Perm blocks
  distinct : (blocks.map Prod.fst).Nodup

theorem Owns.reorder {others : Blocks β} (holds : Owns memory blocks)
    (perm : blocks.Perm others) : Owns memory others where
  perm := holds.perm.trans perm
  distinct := (perm.map Prod.fst).nodup_iff.mp holds.distinct

theorem Owns.empty : Owns ([] : Blocks β) [] where
  perm := .nil
  distinct := .nil

theorem Owns.find (holds : Owns memory blocks) {b : β} (inside : (a, b) ∈ blocks) :
    find memory a = some b := by
  rw [← find_of_mem holds.distinct inside]
  exact find_perm holds.perm ((holds.perm.map Prod.fst).nodup_iff.mpr holds.distinct) a

theorem Owns.read (holds : Owns memory blocks) {b : β} (inside : (a, b) ∈ blocks) :
    read memory a = .ok b := by
  rw [Memory.read, holds.find inside]

theorem mem_middle {b : β} : (a, b) ∈ front ++ (a, b) :: back :=
  List.mem_append_right _ List.mem_cons_self

theorem perm_add {b : β} (perm : memory.Perm ((a, old) :: blocks))
    (distinct : (memory.map Prod.fst).Nodup) : (add memory a b).Perm ((a, b) :: blocks) := by
  induction memory generalizing blocks with
  | nil => exact absurd perm.length_eq (by simp)
  | cons head rest ih =>
    obtain ⟨first, value⟩ := head
    rw [List.map_cons, List.nodup_cons] at distinct
    by_cases same : first = a
    · subst same
      have own : value = old := by
        rcases List.mem_cons.mp (perm.mem_iff.mpr List.mem_cons_self) with here | later
        · exact (Prod.mk.inj here).2.symm
        · exact absurd (List.mem_map_of_mem later) distinct.1
      rw [own] at perm
      rw [add, if_pos rfl]
      exact perm.cons_inv.cons _
    · have inside : (first, value) ∈ blocks := by
        rcases List.mem_cons.mp (perm.mem_iff.mp List.mem_cons_self) with here | later
        · exact absurd (Prod.mk.inj here).1 same
        · exact later
      obtain ⟨before, after, rfl⟩ := List.append_of_mem inside
      have shifted : ((a, old) :: (before ++ (first, value) :: after)).Perm
          ((first, value) :: (a, old) :: (before ++ after)) :=
        (List.perm_middle.cons _).trans (.swap _ _ _)
      have rest := ih (perm.trans shifted).cons_inv distinct.2
      rw [add, if_neg same]
      refine (rest.cons _).trans ?_
      exact (List.Perm.swap _ _ _).trans (List.perm_middle.symm.cons _)

theorem Owns.write (holds : Owns memory (front ++ (a, old) :: back)) (b : β) :
    ∃ next, write memory a b = .ok next ∧ Owns next (front ++ (a, b) :: back) := by
  have found := holds.find mem_middle
  refine ⟨add memory a b, by rw [Memory.write, found], ?_, ?_⟩
  · have moved := perm_add (b := b) (holds.perm.trans List.perm_middle)
      ((holds.perm.map Prod.fst).nodup_iff.mpr holds.distinct)
    exact moved.trans List.perm_middle.symm
  · have same : (front ++ (a, b) :: back).map Prod.fst =
        (front ++ (a, old) :: back).map Prod.fst := by simp
    rw [same]
    exact holds.distinct

theorem Owns.free (holds : Owns memory (front ++ (a, old) :: back)) :
    ∃ next, free memory a = .ok next ∧ Owns next (front ++ back) := by
  have found := holds.find mem_middle
  have distinct := holds.distinct
  rw [(List.perm_middle.map Prod.fst).nodup_iff, List.map_cons, List.nodup_cons] at distinct
  have others : (front ++ back).filter (·.1 ≠ a) = front ++ back := by
    rw [List.filter_eq_self]
    intro block inside
    have apart : block.1 ≠ a := fun same =>
      distinct.1 (List.mem_map.mpr ⟨block, inside, same⟩)
    exact decide_eq_true apart
  refine ⟨_, by rw [Memory.free, found], ?_, distinct.2⟩
  have kept := (holds.perm.trans List.perm_middle).filter (·.1 ≠ a)
  rw [List.filter_cons_of_neg (by simp), others] at kept
  exact kept

theorem Owns.alloc (holds : Owns memory blocks) (allocator : Allocator β) (b : β) :
    Owns (alloc allocator memory b).2 (((alloc allocator memory b).1, b) :: blocks) := by
  have fresh := allocator.fresh memory
  rw [Memory.alloc, add_new fresh]
  constructor
  · exact (List.perm_append_singleton _ _).trans (holds.perm.cons _)
  · rw [List.map_cons, List.nodup_cons]
    refine ⟨fun inside => fresh ?_, holds.distinct⟩
    exact (holds.perm.map Prod.fst).mem_iff.mpr inside

end Memory
