import ZnsTools.FiemapReport
import ZnsTools.ReportRuns

set_option autoImplicit false

namespace ZnsTools

-- What the loops print, zone by zone, without the state that they carry along.

section Lines

variable {opts : FiemapOptions}

def gapHole (opts : FiemapOptions) (prev current : Extent) : Option FiemapHole :=
  if opts.showHoles && prev.pbae != current.phyBlk then
    some ⟨false, prev.pbae, current.phyBlk, current.phyBlk - prev.pbae⟩
  else none

-- `lower` says that there is an extent in a lower zone.
def headHole (opts : FiemapOptions) (lower : Bool) (current : Extent) (next : List Extent) :
    Option FiemapHole :=
  if lower && opts.showHoles && !next.isEmpty && current.zoneLbas != current.phyBlk then
    some ⟨true, current.zoneLbas, current.phyBlk, current.phyBlk - current.zoneLbas⟩
  else none

def linesAfter (opts : FiemapOptions) : Extent → List Extent → List FiemapLine
  | current, [] => holeLines (trailingHole opts current [])
  | current, e :: rest =>
    holeLines (gapHole opts current e) ++ fiemapExtentLines opts e ++ linesAfter opts e rest

def zoneLines (opts : FiemapOptions) (lower : Bool) : List Extent → List FiemapLine
  | [] => []
  | e :: rest =>
    holeLines (headHole opts lower e rest) ++ fiemapExtentLines opts e ++ linesAfter opts e rest

def FiemapLine.hole? : FiemapLine → Option FiemapHole
  | .hole found => some found
  | _ => none

def holesIn (lines : List FiemapLine) : List FiemapHole :=
  lines.filterMap FiemapLine.hole?

@[simp] theorem holesIn_append (front back : List FiemapLine) :
    holesIn (front ++ back) = holesIn front ++ holesIn back :=
  List.filterMap_append

@[simp] theorem holesIn_holeLines (hole : Option FiemapHole) :
    holesIn (holeLines hole) = hole.toList := by
  cases hole <;> rfl

@[simp] theorem holesIn_extentLines (current : Extent) :
    holesIn (fiemapExtentLines opts current) = [] := by
  rw [fiemapExtentLines]
  split <;> rfl

theorem betweenHole_same {prev current : Extent} (same : prev.zone = current.zone) :
    betweenHole opts (some prev) current = gapHole opts prev current := by
  simp [betweenHole, gapHole, same]

theorem betweenHole_other {prev : Option Extent} {current : Extent}
    (other : ∀ p, prev = some p → p.zone ≠ current.zone) :
    betweenHole opts prev current = none := by
  cases prev with
  | none => rfl
  | some p => simp [betweenHole, other p rfl]

theorem leadingHole_same {prev current : Extent} (same : prev.zone = current.zone)
    (next : List Extent) : leadingHole opts (some prev) current next = none := by
  simp [leadingHole, same]

theorem leadingHole_other {prev : Option Extent} {current : Extent}
    (other : ∀ p, prev = some p → p.zone ≠ current.zone) (next : List Extent) :
    leadingHole opts prev current next = headHole opts prev.isSome current next := by
  cases prev with
  | none => rfl
  | some p => simp [leadingHole, headHole, other p rfl]

theorem trailingHole_cons (current e : Extent) (rest : List Extent) :
    trailingHole opts current (e :: rest) = none := by
  simp [trailingHole]

def totalSize (holes : List FiemapHole) : Nat :=
  (holes.map fun hole => hole.size.toNat).sum

theorem foldl_addHole (holes : List FiemapHole) (state : FiemapState) :
    holes.foldl FiemapState.addHole state = ⟨state.prev,
      state.holeCtr + UInt32.ofNat holes.length,
      state.holeCumSize + UInt64.ofNat (totalSize holes)⟩ := by
  induction holes generalizing state with
  | nil => simp [totalSize]
  | cons hole rest ih =>
    rw [List.foldl_cons, ih]
    simp only [FiemapState.addHole, totalSize, List.map_cons, List.sum_cons, List.length_cons,
      UInt64.ofNat_add, UInt64.ofNat_toNat, UInt32.ofNat_add, FiemapState.mk.injEq, true_and]
    constructor
    · rw [UInt32.add_assoc, UInt32.add_comm 1]
      rfl
    · rw [UInt64.add_assoc]

theorem fiemapExtents_state (extents : List Extent) (state : FiemapState) :
    (fiemapExtents opts extents state).1 = ⟨extents.getLast?.or state.prev,
      state.holeCtr + UInt32.ofNat (holesIn (fiemapExtents opts extents state).2).length,
      state.holeCumSize + UInt64.ofNat (totalSize (holesIn (fiemapExtents opts extents state).2))⟩ := by
  induction extents generalizing state with
  | nil => simp [fiemapExtents, holesIn, totalSize]
  | cons current next ih =>
    have last : (current :: next).getLast?.or state.prev = next.getLast?.or (some current) := by
      cases found : next.getLast? <;> simp_all [List.getLast?_cons]
    rw [last, fiemapExtents]
    dsimp only
    rw [ih, fiemapExtent]
    simp only [foldl_addHole, holesIn_append, holesIn_holeLines, holesIn_extentLines,
      List.append_nil, List.length_append, UInt32.ofNat_add, totalSize, List.map_append,
      List.sum_append, UInt64.ofNat_add, UInt32.add_assoc, UInt64.add_assoc]

theorem fiemapExtents_after (prev : Extent) (extents : List Extent) (state : FiemapState)
    (before : state.prev = some prev) (same : ∀ e ∈ extents, e.zone = prev.zone) :
    holeLines (trailingHole opts prev extents) ++ (fiemapExtents opts extents state).2 =
      linesAfter opts prev extents := by
  induction extents generalizing prev state with
  | nil => simp [fiemapExtents, linesAfter]
  | cons current next ih =>
    have own : prev.zone = current.zone := (same current List.mem_cons_self).symm
    have later := ih current (fiemapExtent opts current next state).1 rfl fun e inside => by
      rw [same e (List.mem_cons_of_mem _ inside), own]
    simp only [fiemapExtents, fiemapExtent, before, betweenHole_same own, leadingHole_same own,
      trailingHole_cons, linesAfter, holeLines] at later ⊢
    rw [← later]
    simp

theorem fiemapExtents_lines (extents : List Extent) (state : FiemapState) (zone : UInt32)
    (own : ∀ e ∈ extents, e.zone = zone) (other : ∀ p, state.prev = some p → p.zone ≠ zone) :
    (fiemapExtents opts extents state).2 = zoneLines opts state.prev.isSome extents := by
  cases extents with
  | nil => rfl
  | cons current next =>
    have first := own current List.mem_cons_self
    have apart : ∀ p, state.prev = some p → p.zone ≠ current.zone := fun p found => by
      rw [first]
      exact other p found
    have later : _ = linesAfter opts current next := fiemapExtents_after current next
      (fiemapExtent opts current next state).1 rfl fun e inside => by
        rw [first, own e (List.mem_cons_of_mem _ inside)]
    simp only [fiemapExtents, fiemapExtent, betweenHole_other apart, leadingHole_other apart,
      zoneLines, holeLines, List.nil_append] at later ⊢
    rw [← later]
    simp

end Lines

def Zone.occupied (zone : Zone) : Bool :=
  zone.extentCtr != 0

/-- What the report relies on: an extent knows its zone, and a zone in use has extents. -/
structure ZoneMap.Listed (zonemap : ZoneMap) : Prop where
  filed : ∀ (index : Nat) (zone : Zone), zonemap.zones[index]? = some zone →
    ∀ e ∈ zone.extents, e.zone.toNat = index
  some_extent : ∀ zone ∈ zonemap.zones, zone.occupied = true → zone.extents ≠ []

theorem initZoneMap_listed (nrZones : UInt32) : (initZoneMap nrZones).Listed where
  filed index zone found e inside := by
    obtain ⟨-, rfl⟩ : _ ∧ _ = zone := by simpa [initZoneMap, List.getElem?_replicate] using found
    simp at inside
  some_extent zone member used := by
    obtain rfl := (List.mem_replicate.mp member).2
    exact absurd used (by decide)

theorem mem_inserted {zone : Zone} {extent e : Extent}
    (inside : e ∈ if zone.extentCtr = 0 then insertZoneListHead extent
      else sortedZoneListInsert zone.extents extent) : e = extent ∨ e ∈ zone.extents := by
  split at inside
  · exact .inl (List.mem_singleton.mp inside)
  · exact List.mem_cons.mp ((sortedZoneListInsert_perm _ _).mem_iff.mp inside)

theorem ZoneMap.Listed.add {zonemap filed : ZoneMap} {extent : Extent} (listed : zonemap.Listed)
    (result : addExtentToZoneList zonemap extent = .ok filed) : filed.Listed := by
  obtain ⟨zone, found, rfl⟩ := addExtentToZoneList_ok result
  constructor
  · intro index other at_index e member
    rcases Buckets.getElem?_set_cases at_index with ⟨rfl, rfl⟩ | ⟨-, old⟩
    · rcases mem_inserted member with rfl | inside
      · rfl
      · exact listed.filed _ zone found e inside
    · exact listed.filed index other old e member
  · intro other member used
    rcases List.mem_or_eq_of_mem_set member with old | rfl
    · exact listed.some_extent other old used
    · dsimp only
      split
      · exact List.cons_ne_nil _ _
      · intro empty
        have length := (sortedZoneListInsert_perm zone.extents extent).length_eq
        rw [empty] at length
        cases length

theorem ZoneMap.Listed.congr {zonemap other : ZoneMap} (listed : zonemap.Listed)
    (same : other.zones = zonemap.zones) : other.Listed where
  filed := by
    rw [same]
    exact listed.filed
  some_extent := by
    rw [same]
    exact listed.some_extent

theorem collect_listed {cfg : Config} {events : List Event} {m : Machine}
    (run : collect cfg events = .ok m) : m.ctrl.zonemap.Listed ∧
      m.ctrl.zonemap.zones.length = cfg.znsdev.nrZones.toNat := by
  refine Runs.foldlM_invariant (fun m => m.ctrl.zonemap.Listed ∧
    m.ctrl.zonemap.zones.length = cfg.znsdev.nrZones.toNat) ?_ run ?_
  · intro state event _ next ⟨listed, length⟩ moved
    rcases step_zonemap moved with ⟨same, -⟩ | ⟨extent, ctrl, -, filed, same, -⟩
    · rw [same]
      exact ⟨listed, length⟩
    · obtain ⟨zonemap, added, rfl⟩ := storeExtent_ok filed
      rw [same]
      refine ⟨(listed.add added).congr rfl, ?_⟩
      obtain ⟨zone, -, rfl⟩ := addExtentToZoneList_ok added
      rw [← length]
      exact List.length_set
  · exact ⟨initZoneMap_listed cfg.znsdev.nrZones, by simp [Machine.start, initControl, initZoneMap]⟩

def ZoneMap.numbered (zonemap : ZoneMap) : List (Zone × Nat) :=
  zonemap.zones.zipIdx.filter fun numbered => numbered.1.occupied

theorem ZoneMap.mem_numbered {zonemap : ZoneMap} {numbered : Zone × Nat}
    (member : numbered ∈ zonemap.numbered) :
    zonemap.zones[numbered.2]? = some numbered.1 ∧ numbered.1.occupied = true := by
  obtain ⟨listed, used⟩ := List.mem_filter.mp member
  exact ⟨List.mk_mem_zipIdx_iff_getElem?.mp listed, used⟩

theorem ZoneMap.numbered_scanned (zonemap : ZoneMap) :
    zonemap.numbered.map (fun numbered => numbered.1.extents) = zonemap.scanned := by
  have zones : zonemap.zones = zonemap.zones.zipIdx.map Prod.fst :=
    (List.zipIdx_map_fst 0 zonemap.zones).symm
  rw [ZoneMap.scanned, zones, List.filter_map, List.map_map]
  rfl

theorem ZoneMap.numbered_lt {zonemap : ZoneMap} {numbered : Zone × Nat}
    (member : numbered ∈ zonemap.numbered) : numbered.2 < zonemap.zones.length :=
  (List.getElem?_eq_some_iff.mp (ZoneMap.mem_numbered member).1).1

def ZoneMap.lower (zonemap : ZoneMap) (number : Nat) : Bool :=
  (zonemap.zones.take number).any Zone.occupied

def blockLines (opts : FiemapOptions) (zonemap : ZoneMap) (numbered : Zone × Nat) :
    List FiemapLine :=
  zoneLines opts (zonemap.lower numbered.2) numbered.1.extents

section Blocks

variable {cfg : Config} {dev : Device} {opts : FiemapOptions} {zonemap : ZoneMap}

-- What the state remembers of the zones in `front`, which the loop has passed.
structure Passed (front : List Zone) (state : FiemapState) : Prop where
  seen : state.prev.isSome = front.any Zone.occupied
  before : ∀ p, state.prev = some p → p.zone.toNat < front.length

theorem Passed.skip {front : List Zone} {zone : Zone} {state : FiemapState}
    (passed : Passed front state) (idle : zone.occupied = false) :
    Passed (front ++ [zone]) state where
  seen := by simp [passed.seen, idle]
  before p here := by
    rw [List.length_append]
    exact Nat.lt_succ_of_lt (passed.before p here)

theorem Passed.block {front rest : List Zone} {zone : Zone} {state : FiemapState}
    (passed : Passed front state) (listed : zonemap.Listed)
    (whole : zonemap.zones = front ++ zone :: rest) (small : zonemap.zones.length < 2 ^ 32)
    (busy : zone.occupied = true) :
    (fiemapExtents opts zone.extents state).2 = blockLines opts zonemap (zone, front.length) ∧
      Passed (front ++ [zone]) (fiemapExtents opts zone.extents state).1 := by
  have found : zonemap.zones[front.length]? = some zone := by simp [whole]
  have number : front.length.toUInt32.toNat = front.length := by
    have bound : front.length < 2 ^ 32 := by
      rw [whole, List.length_append] at small
      omega
    exact Nat.mod_eq_of_lt bound
  constructor
  · have own : ∀ e ∈ zone.extents, e.zone = front.length.toUInt32 := fun e inside => by
      rw [← UInt32.toNat_inj, number]
      exact listed.filed _ zone found e inside
    have other : ∀ p, state.prev = some p → p.zone ≠ front.length.toUInt32 := by
      intro p here same
      have low := passed.before p here
      rw [same, number] at low
      exact Nat.lt_irrefl _ low
    have before : zonemap.zones.take front.length = front := by
      rw [whole, List.take_left']
      rfl
    rw [fiemapExtents_lines zone.extents state _ own other, blockLines, ZoneMap.lower, before,
      passed.seen]
  · have some_extent := listed.some_extent zone (List.mem_of_getElem? found) busy
    have last := List.getLast?_eq_some_getLast some_extent
    have after : (fiemapExtents opts zone.extents state).1.prev =
        some (zone.extents.getLast some_extent) := by
      rw [fiemapExtents_state, last]
      rfl
    constructor
    · simp [after, busy]
    · intro p here
      rw [after] at here
      obtain rfl := Option.some.inj here
      rw [listed.filed _ zone found _ (List.getLast_mem some_extent), List.length_append]
      exact Nat.lt_succ_self _

theorem fiemapZones_ok (listed : zonemap.Listed) {front back : List Zone}
    (whole : zonemap.zones = front ++ back) {state final : FiemapState} {blocks : List FiemapBlock}
    (small : zonemap.zones.length < 2 ^ 32) (passed : Passed front state)
    (result : fiemapZones cfg dev opts front.length back state = .ok (final, blocks)) :
    blocks.map (fun block => (block.zone, block.lines)) =
      ((back.zipIdx front.length).filter fun numbered => numbered.1.occupied).map
        (fun numbered => (numbered.2.toUInt32, blockLines opts zonemap numbered)) ∧
    final.holeCtr = state.holeCtr +
      UInt32.ofNat (blocks.flatMap fun block => holesIn block.lines).length ∧
    final.holeCumSize = state.holeCumSize +
      UInt64.ofNat (totalSize (blocks.flatMap fun block => holesIn block.lines)) := by
  induction back generalizing front state blocks with
  | nil =>
    cases result
    simp [totalSize]
  | cons zone rest ih =>
    have shorter : zonemap.zones = (front ++ [zone]) ++ rest := by simp [whole]
    have length : (front ++ [zone]).length = front.length + 1 := by simp
    rw [fiemapZones, ← length] at result
    split at result
    · next empty =>
      have idle : zone.occupied = false := by simp [Zone.occupied, empty]
      have later := ih shorter (passed.skip idle) result
      simpa [List.zipIdx_cons, idle] using later
    · next used =>
      have busy : zone.occupied = true := by simp [Zone.occupied, used]
      obtain ⟨heading, -, result⟩ := Runs.bind_ok result
      dsimp only at result
      obtain ⟨⟨last, others⟩, tail, result⟩ := Runs.bind_ok result
      cases result
      obtain ⟨lines, next⟩ := @Passed.block opts _ _ _ _ _ passed listed whole small busy
      obtain ⟨blocks, holeCtr, holeCumSize⟩ := ih shorter next tail
      refine ⟨?_, ?_, ?_⟩
      · rw [List.zipIdx_cons, List.filter_cons_of_pos (by exact busy), List.map_cons, List.map_cons,
          blocks, lines, length]
      · rw [holeCtr, fiemapExtents_state, List.flatMap_cons, List.length_append, UInt32.ofNat_add,
          UInt32.add_assoc]
      · rw [holeCumSize, fiemapExtents_state, List.flatMap_cons, totalSize, totalSize, totalSize,
          List.map_append, List.sum_append, UInt64.ofNat_add, UInt64.add_assoc]

theorem fiemapZones_exists (reports : ∀ sector, dev sector ≠ .ioctlFailed) (number : Nat)
    (zones : List Zone) (state : FiemapState) :
    ∃ final blocks, fiemapZones cfg dev opts number zones state = .ok (final, blocks) := by
  induction zones generalizing number state with
  | nil => exact ⟨state, [], rfl⟩
  | cons zone rest ih =>
    rw [fiemapZones]
    split
    · exact ih (number + 1) state
    · obtain ⟨heading, printed⟩ := printZoneInfo_exists cfg reports number.toUInt32
      obtain ⟨final, blocks, later⟩ := ih (number + 1) (fiemapExtents opts zone.extents state).1
      rw [printed, Runs.ok_bind]
      dsimp only
      rw [later, Runs.ok_bind]
      exact ⟨_, _, rfl⟩

theorem fiemapMappings_returns (listed : zonemap.Listed) (small : zonemap.zones.length < 2 ^ 32)
    (reports : ∀ sector, dev sector ≠ .ioctlFailed) :
    ∃ state blocks, fiemapMappings cfg dev opts zonemap = .ok (state, blocks) ∧
      blocks.map (fun block => (block.zone, block.lines)) =
        zonemap.numbered.map
          (fun numbered => (numbered.2.toUInt32, blockLines opts zonemap numbered)) ∧
      state.holeCtr = UInt32.ofNat (blocks.flatMap fun block => holesIn block.lines).length ∧
      state.holeCumSize =
        UInt64.ofNat (totalSize (blocks.flatMap fun block => holesIn block.lines)) := by
  obtain ⟨state, blocks, result⟩ : ∃ state blocks, fiemapMappings cfg dev opts zonemap =
      .ok (state, blocks) := fiemapZones_exists reports 0 zonemap.zones FiemapState.start
  have ⟨lines, holeCtr, holeCumSize⟩ := fiemapZones_ok listed (List.nil_append _).symm small
    ⟨rfl, fun p found => by cases found⟩ result
  refine ⟨state, blocks, result, lines, ?_, ?_⟩
  · rw [holeCtr]
    exact UInt32.zero_add _
  · rw [holeCumSize]
    exact UInt64.zero_add _

end Blocks

end ZnsTools
