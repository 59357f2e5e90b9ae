import Mathlib.Data.List.Sort
import ZnsTools.Shared.Buckets
import ZnsTools.Types

set_option autoImplicit false

namespace ZnsTools

def insertZoneListHead (node : Extent) : List Extent :=
  [node]

def sortedZoneListInsert : List Extent → Extent → List Extent
  | [], node => [node]
  | current :: next, node =>
    if current.phyBlk < node.phyBlk then current :: sortedZoneListInsert next node
    else node :: current :: next

def addExtentToZoneList (zonemap : ZoneMap) (extent : Extent) : Except Abort ZoneMap :=
  match zonemap.zones[extent.zone.toNat]? with
  | none => .error .badAccess
  | some zone =>
    let extents :=
      if zone.extentCtr = 0 then insertZoneListHead extent
      else sortedZoneListInsert zone.extents extent
    .ok { zonemap with
      zones := zonemap.zones.set extent.zone.toNat ⟨zone.extentCtr + 1, extents⟩ }

-- The order in which a zone list keeps its nodes.
def StartsBefore (a b : Extent) : Prop :=
  a.phyBlk ≤ b.phyBlk

instance : DecidableRel StartsBefore := fun a b => inferInstanceAs (Decidable (a.phyBlk ≤ b.phyBlk))

instance : Std.Total StartsBefore := ⟨fun a b => UInt64.le_total a.phyBlk b.phyBlk⟩

instance : IsTrans Extent StartsBefore := ⟨fun _ _ _ => UInt64.le_trans⟩

def Sorted (extents : List Extent) : Prop :=
  extents.Pairwise StartsBefore

theorem sortedZoneListInsert_eq (extents : List Extent) (node : Extent) :
    sortedZoneListInsert extents node = extents.orderedInsert StartsBefore node := by
  induction extents with
  | nil => rfl
  | cons current next ih =>
    by_cases before : current.phyBlk < node.phyBlk
    · simp [sortedZoneListInsert, StartsBefore, before, ih, UInt64.not_le.mpr before]
    · simp [sortedZoneListInsert, StartsBefore, before, UInt64.not_lt.mp before]

theorem sortedZoneListInsert_sorted (extents : List Extent) (node : Extent)
    (sorted : Sorted extents) : Sorted (sortedZoneListInsert extents node) := by
  rw [sortedZoneListInsert_eq]
  exact sorted.orderedInsert node extents

theorem sortedZoneListInsert_perm (extents : List Extent) (node : Extent) :
    (sortedZoneListInsert extents node).Perm (node :: extents) := by
  rw [sortedZoneListInsert_eq]
  exact List.perm_orderedInsert _ _ _

-- What the zone map has to be after the extents in `accepted` were filed, in that order.
structure ZoneMap.Consistent (zonemap : ZoneMap) (accepted : List Extent) : Prop where
  sorted : ∀ zone ∈ zonemap.zones, Sorted zone.extents
  counted : ∀ zone ∈ zonemap.zones, zone.extentCtr.toNat = zone.extents.length
  filed : ∀ (index : Nat) (zone : Zone), zonemap.zones[index]? = some zone →
    ∀ e ∈ zone.extents, e.zone.toNat = index
  complete : zonemap.extents.Perm accepted
  total : zonemap.extentCtr.toNat = (zonemap.zones.map (·.extentCtr.toNat)).sum
  cumulated : zonemap.cumExtentSize.toNat = (accepted.map (·.len.toNat)).sum % 2 ^ 64

theorem initZoneMap_consistent (nrZones : UInt32) : (initZoneMap nrZones).Consistent [] where
  sorted zone inside := by simp [initZoneMap] at inside; simp [inside.2, Sorted]
  counted zone inside := by simp [initZoneMap] at inside; simp [inside.2]
  filed index zone found e inside := by
    obtain ⟨-, rfl⟩ : _ ∧ _ = zone := by simpa [initZoneMap, List.getElem?_replicate] using found
    simp at inside
  complete := by simp [initZoneMap, ZoneMap.extents]
  total := by simp [initZoneMap]
  cumulated := rfl

theorem ZoneMap.Consistent.extentCtr_eq {zonemap : ZoneMap} {accepted : List Extent}
    (consistent : zonemap.Consistent accepted) :
    zonemap.extentCtr.toNat = accepted.length := by
  rw [consistent.total, ← consistent.complete.length_eq, ZoneMap.extents, List.length_flatMap]
  exact congrArg List.sum (List.map_congr_left consistent.counted)

theorem ZoneMap.Consistent.extentCtr_eq_zero_iff {zonemap : ZoneMap} {accepted : List Extent}
    (consistent : zonemap.Consistent accepted) : zonemap.extentCtr = 0 ↔ accepted = [] := by
  rw [← UInt64.toNat_inj, consistent.extentCtr_eq, UInt64.toNat_zero, List.length_eq_zero_iff]

theorem addExtentToZoneList_ok {zonemap filed : ZoneMap} {extent : Extent}
    (result : addExtentToZoneList zonemap extent = .ok filed) :
    ∃ zone, zonemap.zones[extent.zone.toNat]? = some zone ∧
      filed = { zonemap with
        zones := zonemap.zones.set extent.zone.toNat ⟨zone.extentCtr + 1,
          if zone.extentCtr = 0 then insertZoneListHead extent
          else sortedZoneListInsert zone.extents extent⟩ } := by
  rw [addExtentToZoneList] at result
  split at result
  · simp at result
  · next zone found => exact ⟨zone, found, by simpa using result.symm⟩

theorem insertion_agrees (zone : Zone) (extent : Extent)
    (counted : zone.extentCtr.toNat = zone.extents.length) :
    (if zone.extentCtr = 0 then insertZoneListHead extent
      else sortedZoneListInsert zone.extents extent) = sortedZoneListInsert zone.extents extent := by
  split
  · next zero =>
    have empty : zone.extents = [] := List.length_eq_zero_iff.mp (by rw [← counted, zero]; rfl)
    simp [empty, insertZoneListHead, sortedZoneListInsert]
  · rfl

theorem addExtentToZoneList_consistent {zonemap filed : ZoneMap} {accepted : List Extent}
    {extent : Extent} (consistent : zonemap.Consistent accepted)
    (few : accepted.length + 1 < 2 ^ 32)
    (result : addExtentToZoneList zonemap extent = .ok filed) :
    { filed with
      extentCtr := filed.extentCtr + 1
      cumExtentSize := filed.cumExtentSize + extent.len : ZoneMap }.Consistent
        (accepted ++ [extent]) := by
  obtain ⟨zone, found, rfl⟩ := addExtentToZoneList_ok result
  have inside := List.mem_of_getElem? found
  have counted := consistent.counted zone inside
  rw [insertion_agrees zone extent counted]
  have short : zone.extents.length ≤ accepted.length := by
    have := Buckets.length_le_flatMap Zone.extents inside
    exact consistent.complete.length_eq ▸ this
  have counter : (zone.extentCtr + 1).toNat = zone.extentCtr.toNat + 1 := by
    rw [UInt32.toNat_add, Nat.mod_eq_of_lt (by simp only [UInt32.reduceToNat]; omega)]
    rfl
  have inserted := sortedZoneListInsert_perm zone.extents extent
  constructor
  · intro other member
    rcases List.mem_or_eq_of_mem_set member with old | rfl
    · exact consistent.sorted other old
    · exact sortedZoneListInsert_sorted _ _ (consistent.sorted zone inside)
  · intro other member
    rcases List.mem_or_eq_of_mem_set member with old | rfl
    · exact consistent.counted other old
    · simp only [counter, counted, inserted.length_eq, List.length_cons]
  · intro index other at_index e member
    rcases Buckets.getElem?_set_cases at_index with ⟨rfl, rfl⟩ | ⟨-, old⟩
    · rcases List.mem_cons.mp (inserted.mem_iff.mp member) with rfl | member
      · rfl
      · exact consistent.filed _ zone found e member
    · exact consistent.filed index other old e member
  · have grown := Buckets.flatMap_set_perm Zone.extents
      ⟨zone.extentCtr + 1, sortedZoneListInsert zone.extents extent⟩ found inserted
    exact grown.trans ((consistent.complete.cons extent).trans
      (List.perm_append_singleton extent accepted).symm)
  · have sum := Buckets.sum_set (fun zone => zone.extentCtr.toNat)
      ⟨zone.extentCtr + 1, sortedZoneListInsert zone.extents extent⟩ found counter
    rw [sum, ← consistent.total, UInt64.toNat_add, Nat.mod_eq_of_lt]
    · rfl
    · simp only [consistent.extentCtr_eq, UInt64.reduceToNat]
      omega
  · simp only [UInt64.toNat_add, consistent.cumulated, List.map_append, List.map_cons, List.map_nil,
      List.sum_append, List.sum_cons, List.sum_nil, Nat.mod_add_mod, Nat.add_zero]

end ZnsTools
