import ZnsTools.NodeRuns

set_option autoImplicit false

namespace ZnsTools.ExtentNodes

open Memory

-- What the calls of `get_extents` leave allocated, and what is left of it after the clean-up.

def Heap.callBlocks (heap : Heap) : Blocks Block :=
  heap.call.toList.flatMap fun call => [(call.1, .fiemap), (call.2, .extent clearedExtent none)]

-- `done` calls have returned, and `lost` of them without freeing their `fiemap`.
structure Follows (m : Machine) (heap : Heap) (owned : List OwnedZone) (others : Blocks Block)
    (done lost : Nat) : Prop where
  beside : Beside heap.nodes owned m.ctrl.zonemap.zones (heap.callBlocks ++ others)
  others : (others.map Prod.snd).Perm
    (List.replicate done (.extent clearedExtent none) ++ List.replicate lost .fiemap)
  pending : heap.call.isSome = m.call.isSome
  opened : m.opened = done + heap.call.toList.length
  returned : m.failed = false → lost = 0

section Blocks

variable {nodes : Nodes} {owned : List OwnedZone} {zones : List Zone}
  {front back others : Blocks Block} {a : Addr} {old : Block}

theorem Beside.write (beside : Beside nodes owned zones (front ++ (a, old) :: back)) (b : Block) :
    ∃ memory, Memory.write nodes.memory a b = .ok memory ∧
      Beside { nodes with memory := memory } owned zones (front ++ (a, b) :: back) := by
  have held := beside.memory
  rw [← List.append_assoc] at held
  obtain ⟨memory, written, kept⟩ := held.write b
  exact ⟨memory, written, beside.heads, beside.lists, by rwa [List.append_assoc] at kept⟩

theorem Beside.free (beside : Beside nodes owned zones (front ++ (a, old) :: back)) :
    ∃ memory, Memory.free nodes.memory a = .ok memory ∧
      Beside { nodes with memory := memory } owned zones (front ++ back) := by
  have held := beside.memory
  rw [← List.append_assoc] at held
  obtain ⟨memory, freed, kept⟩ := held.free
  exact ⟨memory, freed, beside.heads, beside.lists, by rwa [List.append_assoc] at kept⟩

end Blocks

section Step

variable {cfg : Config} {m next : Machine} {heap : Heap} {owned : List OwnedZone}
  {others : Blocks Block} {done lost : Nat}

end Step

section Cleanup

variable {memory others : Blocks Block}

end Cleanup

theorem events_accepted {cfg : Config} {events : List Event} {m last : Machine}
    (run : events.foldlM (step cfg) m = .ok last) : m.accepted.length ≤ last.accepted.length := by
  apply Runs.foldlM_invariant (fun state => m.accepted.length ≤ state.accepted.length) _ run
  · exact Nat.le_refl _
  · intro state event _ next before moved
    rcases step_zonemap moved with ⟨-, same⟩ | ⟨extent, ctrl, -, -, -, grown⟩
    · simpa [same] using before
    · simpa [grown] using Nat.le_succ_of_le before

end ZnsTools.ExtentNodes
