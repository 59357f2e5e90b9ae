import ZnsTools.FiemapHoles
import Mathlib.Algebra.Order.BigOperators.Group.List

set_option autoImplicit false

namespace ZnsTools

instance (extents : List Extent) : Decidable (Successive extents) :=
  inferInstanceAs (Decidable (List.IsChain _ _))

def FiemapHole.Proper (hole : FiemapHole) : Prop :=
  hole.pbas.toNat < hole.pbae.toNat ∧ hole.size.toNat = hole.pbae.toNat - hole.pbas.toNat

/-- No printed hole ends at or before its start, and the printed total is no larger than the zones. -/
structure HolesSound (cfg : Config) (opts : FiemapOptions) (state : FiemapState)
    (blocks : List FiemapBlock) : Prop where
  proper : ∀ block ∈ blocks, ∀ hole ∈ holesIn block.lines, hole.Proper
  total : (fiemapHoleStats opts state).ths ≤
    cfg.znsdev.nrZones.toNat * cfg.znsdev.zoneSize.toNat

/-- Each extent of a zone ends before the next one starts; where a hole in front of the first extent
is looked for, that extent starts in its zone; and the last one ends inside the capacity of the zone,
or not before its write pointer. -/
structure Separate (lower : Bool) (extents : List Extent) : Prop where
  successive : Successive extents
  begins : ∀ e ∈ extents.head?, lower = true → 1 < extents.length →
    e.zoneLbas.toNat ≤ e.phyBlk.toNat
  ends : ∀ e ∈ extents.getLast?, e.Ends

def ZoneMap.Separate (zonemap : ZoneMap) : Prop :=
  ∀ numbered ∈ zonemap.numbered,
    ZnsTools.Separate (zonemap.lower numbered.2) numbered.1.extents

def holeIntervals (lower : Bool) (extents : List Extent) : List (Nat × Nat) :=
  extents.head?.toList.flatMap (documentedHead (lower && decide (1 < extents.length))) ++
    documentedGaps extents ++ extents.getLast?.toList.flatMap (documentedTail true)

def ZoneMap.holeIntervals (zonemap : ZoneMap) : List (Nat × Nat) :=
  zonemap.numbered.flatMap fun numbered =>
    ZnsTools.holeIntervals (zonemap.lower numbered.2) numbered.1.extents

def intervalSum (intervals : List (Nat × Nat)) : Nat :=
  (intervals.map fun interval => interval.2 - interval.1).sum

def ZoneMap.HolesFit (cfg : Config) (zonemap : ZoneMap) : Prop :=
  zonemap.holeIntervals.length % 2 ^ 32 = 0 ∨ intervalSum zonemap.holeIntervals % 2 ^ 64 ≤
    cfg.znsdev.nrZones.toNat * cfg.znsdev.zoneSize.toNat

/-- An extent that starts in its zone, with limits of the zone that do not leave it. -/
structure Extent.Located (cfg : Config) (e : Extent) : Prop where
  lbas : e.zone.toNat * cfg.znsdev.zoneSize.toNat ≤ e.zoneLbas.toNat
  start : e.zone.toNat * cfg.znsdev.zoneSize.toNat ≤ e.phyBlk.toNat ∧
    e.phyBlk.toNat ≤ (e.zone.toNat + 1) * cfg.znsdev.zoneSize.toNat
  lbae : e.zoneLbae.toNat ≤ (e.zone.toNat + 1) * cfg.znsdev.zoneSize.toNat

section Proper

variable (showFlags : Bool)

theorem span_proper (leading : Bool) (start stop : UInt64) :
    (∀ hole ∈ (span leading start stop).toList, hole.Proper) ↔ start.toNat ≤ stop.toNat := by
  by_cases same : start = stop
  · subst same
    simp [span]
  · have apart : start.toNat ≠ stop.toNat := fun equal => same (UInt64.toNat_inj.mp equal)
    simp only [span_some same, Option.toList_some, List.mem_singleton, forall_eq, FiemapHole.Proper]
    constructor
    · rintro ⟨below, _⟩
      exact Nat.le_of_lt below
    · intro ordered
      exact ⟨Nat.lt_of_le_of_ne ordered apart,
        UInt64.toNat_sub_of_le _ _ (UInt64.le_iff_toNat_le.mpr ordered)⟩

theorem gapHole_proper {prev : Extent} (fits : prev.stop < 2 ^ 64) (current : Extent) :
    (∀ hole ∈ (gapHole ⟨true, showFlags⟩ prev current).toList, hole.Proper) ↔
      prev.stop ≤ current.phyBlk.toNat := by
  rw [gapHole_eq, span_proper, pbae_toNat fits]

theorem headHole_proper (lower : Bool) (e : Extent) (rest : List Extent) :
    (∀ hole ∈ (headHole ⟨true, showFlags⟩ lower e rest).toList, hole.Proper) ↔
      (lower = true → 1 < (e :: rest).length → e.zoneLbas.toNat ≤ e.phyBlk.toNat) := by
  rw [headHole_eq]
  cases lower with
  | false => simp
  | true =>
    cases rest with
    | nil => simp
    | cons next rest => simpa using span_proper true e.zoneLbas e.phyBlk

theorem trailingHole_proper {e : Extent} (fits : e.stop < 2 ^ 64) :
    (∀ hole ∈ (trailingHole ⟨true, showFlags⟩ e []).toList, hole.Proper) ↔ e.Ends := by
  have stop := pbae_toNat fits
  constructor
  · intro proper behind
    by_contra short
    have shows : (e.pbae != e.zoneLbae && decide (e.pbae < e.zoneWp)) = true := by
      rw [Bool.and_eq_true, bne_iff_ne, ne_eq, decide_eq_true_eq, ← UInt64.toNat_inj,
        UInt64.lt_iff_toNat_lt, stop]
      omega
    have cut : ¬ e.zoneWp < e.zoneLbae := by
      rw [UInt64.lt_iff_toNat_lt]
      omega
    have below := (proper ⟨false, e.pbae, e.zoneLbae, e.zoneLbae - e.pbae⟩ (by
      simpa [trailingHole, cut] using shows)).1
    dsimp only at below
    rw [stop] at below
    omega
  · intro ends hole printed
    have shown := trailingHole_shown showFlags fits ends
    have inside := List.mem_map_of_mem (f := FiemapHole.shown) printed
    rw [shown, documentedTail] at inside
    split at inside
    · next below =>
      have same := List.mem_singleton.mp inside
      simp only [FiemapHole.shown, sized, Prod.mk.injEq] at same
      rw [Bool.true_and, decide_eq_true_eq] at below
      rw [FiemapHole.Proper]
      omega
    · cases inside

theorem linesAfter_proper {e last : Extent} {rest : List Extent}
    (fits : ∀ x ∈ e :: rest, x.stop < 2 ^ 64) (ending : (e :: rest).getLast? = some last) :
    (∀ hole ∈ holesIn (linesAfter ⟨true, showFlags⟩ e rest), hole.Proper) ↔
      Successive (e :: rest) ∧ last.Ends := by
  have ⟨small, others⟩ := List.forall_mem_cons.mp fits
  induction rest generalizing e with
  | nil =>
    obtain rfl : e = last := by simpa using ending
    rw [linesAfter, holesIn_holeLines, trailingHole_proper showFlags small]
    exact (and_iff_right (List.IsChain.singleton e)).symm
  | cons next rest ih =>
    have ⟨near, far⟩ := List.forall_mem_cons.mp others
    have later := ih others (by simpa using ending) near far
    rw [linesAfter, holesIn_append, holesIn_append, holesIn_holeLines, holesIn_extentLines,
      List.append_nil, List.forall_mem_append]
    apply (and_congr (gapHole_proper showFlags small next) later).trans
    rw [Successive, Successive, List.isChain_cons_cons, and_assoc]

theorem zoneLines_proper (lower : Bool) {extents : List Extent}
    (fits : ∀ x ∈ extents, x.stop < 2 ^ 64) :
    (∀ hole ∈ holesIn (zoneLines ⟨true, showFlags⟩ lower extents), hole.Proper) ↔
      Separate lower extents := by
  cases extents with
  | nil => exact iff_of_true (fun hole inside => by cases inside) ⟨.nil, by simp, by simp⟩
  | cons e rest =>
    obtain ⟨last, ending⟩ : ∃ last, (e :: rest).getLast? = some last :=
      ⟨_, List.getLast?_eq_some_getLast (by simp)⟩
    rw [zoneLines, holesIn_append, holesIn_append, holesIn_holeLines, holesIn_extentLines,
      List.append_nil, List.forall_mem_append, headHole_proper,
      linesAfter_proper showFlags fits ending]
    constructor
    · rintro ⟨begins, successive, ends⟩
      exact ⟨successive, by simpa using begins, by simpa [ending] using ends⟩
    · intro separate
      exact ⟨separate.begins e rfl, separate.successive, separate.ends last ending⟩

theorem zoneLines_intervals {lower : Bool} {extents : List Extent}
    (separate : Separate lower extents) (fits : ∀ x ∈ extents, x.stop < 2 ^ 64) :
    (holesIn (zoneLines ⟨true, showFlags⟩ lower extents)).map FiemapHole.shown =
      (holeIntervals lower extents).map sized := by
  cases extents with
  | nil => rfl
  | cons e rest =>
    obtain ⟨last, ending⟩ : ∃ last, (e :: rest).getLast? = some last :=
      ⟨_, List.getLast?_eq_some_getLast (by simp)⟩
    have several : (!rest.isEmpty) = decide (1 < (e :: rest).length) := by
      cases rest <;> simp
    have begins : (lower && !rest.isEmpty) = true → e.zoneLbas.toNat ≤ e.phyBlk.toNat := by
      rw [several, Bool.and_eq_true, decide_eq_true_eq]
      intro ⟨below, more⟩
      exact separate.begins e rfl below more
    rw [zoneLines_shown showFlags separate.successive fits begins ending
      (separate.ends last ending), holeIntervals, ending, several]
    simp

end Proper

theorem zoneLines_off (showFlags lower : Bool) (extents : List Extent) :
    holesIn (zoneLines ⟨false, showFlags⟩ lower extents) = [] := by
  have after : ∀ (e : Extent) (rest : List Extent),
      holesIn (linesAfter ⟨false, showFlags⟩ e rest) = [] := by
    intro e rest
    induction rest generalizing e with
    | nil => simp [linesAfter, trailingHole]
    | cons next rest ih => simp [linesAfter, gapHole, ih]
  cases extents with
  | nil => rfl
  | cons e rest => simp [zoneLines, headHole, after]

theorem intervalSum_append (front back : List (Nat × Nat)) :
    intervalSum (front ++ back) = intervalSum front + intervalSum back := by
  rw [intervalSum, List.map_append, List.sum_append]
  rfl

theorem totalSize_sized {holes : List FiemapHole} {intervals : List (Nat × Nat)}
    (shown : holes.map FiemapHole.shown = intervals.map sized) :
    holes.length = intervals.length ∧ totalSize holes = intervalSum intervals := by
  constructor
  · simpa using congrArg List.length shown
  · have sizes := congrArg (fun lines : List (Nat × Nat × Nat) => (lines.map (·.2.2)).sum) shown
    simpa [totalSize, intervalSum, FiemapHole.shown, sized, Function.comp_def] using sizes

theorem documentedGaps_sum {e last : Extent} {rest : List Extent}
    (successive : Successive (e :: rest)) (ending : (e :: rest).getLast? = some last) :
    e.phyBlk.toNat + intervalSum (documentedGaps (e :: rest)) ≤ last.phyBlk.toNat := by
  induction rest generalizing e with
  | nil =>
    obtain rfl : e = last := by simpa using ending
    exact Nat.le_refl _
  | cons next rest ih =>
    have ⟨first, later⟩ := List.isChain_cons_cons.mp successive
    have gaps := ih later (by simpa using ending)
    rw [documentedGaps, intervalSum, List.map_append, List.sum_append]
    rw [intervalSum] at gaps
    rw [Extent.stop] at first ⊢
    split <;> simp only [List.map_cons, List.map_nil, List.sum_cons, List.sum_nil] <;> omega

theorem holeIntervals_fit {cfg : Config} {lower : Bool} {extents : List Extent} {zone : Nat}
    (separate : Separate lower extents) (own : ∀ e ∈ extents, e.zone.toNat = zone)
    (located : ∀ e ∈ extents, e.Located cfg) :
    intervalSum (holeIntervals lower extents) ≤ cfg.znsdev.zoneSize.toNat := by
  cases extents with
  | nil => exact Nat.zero_le _
  | cons e rest =>
    obtain ⟨last, ending⟩ : ∃ last, (e :: rest).getLast? = some last :=
      ⟨_, List.getLast?_eq_some_getLast (by simp)⟩
    have inside := List.mem_of_getLast? ending
    have ⟨lbas, ⟨start, _⟩, _⟩ := located e List.mem_cons_self
    have ⟨_, ⟨_, reach⟩, lbae⟩ := located last inside
    rw [own e List.mem_cons_self] at lbas start
    rw [own last inside, Nat.succ_mul] at reach lbae
    have gaps := documentedGaps_sum separate.successive ending
    have head : ∀ shows, intervalSum (documentedHead shows e) ≤
        e.phyBlk.toNat - e.zoneLbas.toNat := by
      intro shows
      rw [documentedHead]
      split <;> simp [intervalSum]
    have tail : intervalSum (documentedTail true last) ≤ last.zoneLbae.toNat - last.phyBlk.toNat := by
      rw [documentedTail]
      split
      · have cut : last.written ≤ last.zoneLbae.toNat := Nat.min_le_right _ _
        simp only [intervalSum, List.map_cons, List.map_nil, List.sum_cons, List.sum_nil, Extent.stop]
        omega
      · exact Nat.zero_le _
    have first := head (lower && decide (1 < (e :: rest).length))
    rw [holeIntervals, ending, intervalSum_append, intervalSum_append]
    simp only [List.head?_cons, Option.toList_some, List.flatMap_cons, List.flatMap_nil,
      List.append_nil]
    omega

section Report

variable {cfg : Config} {zonemap : ZoneMap} {blocks : List FiemapBlock}

theorem numbered_extents {numbered : Zone × Nat} (member : numbered ∈ zonemap.numbered)
    {e : Extent} (inside : e ∈ numbered.1.extents) : e ∈ zonemap.extents :=
  mem_extents (List.mem_of_getElem? (ZoneMap.mem_numbered member).1) inside

theorem blocks_lines {opts : FiemapOptions}
    (lines : blocks.map (fun block => (block.zone, block.lines)) = zonemap.numbered.map
      fun numbered => (numbered.2.toUInt32, blockLines opts zonemap numbered)) :
    blocks.map FiemapBlock.lines = zonemap.numbered.map (blockLines opts zonemap) := by
  have own := congrArg (List.map Prod.snd) lines
  rwa [List.map_map, List.map_map] at own

theorem blocks_proper {showFlags : Bool} (fits : ∀ e ∈ zonemap.extents, e.stop < 2 ^ 64)
    (lines : blocks.map FiemapBlock.lines =
      zonemap.numbered.map (blockLines ⟨true, showFlags⟩ zonemap)) :
    (∀ block ∈ blocks, ∀ hole ∈ holesIn block.lines, hole.Proper) ↔ zonemap.Separate := by
  have shown : (∀ block ∈ blocks, ∀ hole ∈ holesIn block.lines, hole.Proper) ↔
      ∀ printed ∈ blocks.map FiemapBlock.lines, ∀ hole ∈ holesIn printed, hole.Proper := by
    simp only [List.forall_mem_map]
  rw [shown, lines, List.forall_mem_map, ZoneMap.Separate]
  apply forall₂_congr
  intro numbered member
  rw [blockLines]
  exact zoneLines_proper showFlags _ fun e inside => fits e (numbered_extents member inside)

theorem blocks_intervals {showFlags : Bool} (fits : ∀ e ∈ zonemap.extents, e.stop < 2 ^ 64)
    (lines : blocks.map FiemapBlock.lines =
      zonemap.numbered.map (blockLines ⟨true, showFlags⟩ zonemap))
    (separate : zonemap.Separate) :
    (blocks.flatMap fun block => holesIn block.lines).map FiemapHole.shown =
      zonemap.holeIntervals.map sized := by
  have own : (blocks.flatMap fun block => holesIn block.lines) =
      (zonemap.numbered.map (blockLines ⟨true, showFlags⟩ zonemap)).flatMap holesIn := by
    rw [← lines, List.flatMap_map]
  rw [own, ZoneMap.holeIntervals, List.flatMap_map, List.map_flatMap, List.map_flatMap]
  apply List.flatMap_congr
  intro numbered member
  rw [blockLines]
  exact zoneLines_intervals showFlags (separate numbered member)
    fun e inside => fits e (numbered_extents member inside)

theorem blocks_off {showFlags : Bool}
    (lines : blocks.map FiemapBlock.lines =
      zonemap.numbered.map (blockLines ⟨false, showFlags⟩ zonemap)) :
    ∀ block ∈ blocks, holesIn block.lines = [] := by
  intro block inside
  have member := List.mem_map_of_mem (f := FiemapBlock.lines) inside
  rw [lines] at member
  obtain ⟨numbered, -, same⟩ := List.mem_map.mp member
  rw [← same]
  exact zoneLines_off showFlags _ _

theorem holesFit_of_located (listed : zonemap.Listed)
    (length : zonemap.zones.length = cfg.znsdev.nrZones.toNat) (separate : zonemap.Separate)
    (located : ∀ e ∈ zonemap.extents, e.Located cfg) : zonemap.HolesFit cfg := by
  have each : ∀ numbered ∈ zonemap.numbered,
      intervalSum (holeIntervals (zonemap.lower numbered.2) numbered.1.extents) ≤
        cfg.znsdev.zoneSize.toNat := by
    intro numbered member
    exact holeIntervals_fit (separate numbered member)
      (fun e inside => listed.filed _ _ (ZoneMap.mem_numbered member).1 e inside)
      fun e inside => located e (numbered_extents member inside)
  have sum : ∀ zones ⊆ zonemap.numbered, intervalSum (zones.flatMap fun numbered =>
      holeIntervals (zonemap.lower numbered.2) numbered.1.extents) ≤
        zones.length * cfg.znsdev.zoneSize.toNat := by
    intro zones
    induction zones with
    | nil => exact fun _ => Nat.zero_le _
    | cons numbered rest ih =>
      intro within
      have ⟨first, later⟩ := List.cons_subset.mp within
      have one := each numbered first
      have others := ih later
      rw [List.flatMap_cons, intervalSum_append, List.length_cons, Nat.succ_mul]
      omega
  have all := sum zonemap.numbered (List.Subset.refl _)
  have few : zonemap.numbered.length ≤ cfg.znsdev.nrZones.toNat := by
    rw [← length, ← List.length_zipIdx (l := zonemap.zones)]
    exact List.length_filter_le _ _
  refine .inr (Nat.le_trans (Nat.mod_le _ _) (Nat.le_trans all ?_))
  exact Nat.mul_le_mul_right _ few

-- The printed total is that of the intervals, unless the number of holes has wrapped around to 0.
theorem holeStats_fit_iff {showFlags : Bool} {state : FiemapState}
    (shown : (blocks.flatMap fun block => holesIn block.lines).map FiemapHole.shown =
      zonemap.holeIntervals.map sized)
    (holeCtr : state.holeCtr =
      UInt32.ofNat (blocks.flatMap fun block => holesIn block.lines).length)
    (holeCumSize : state.holeCumSize =
      UInt64.ofNat (totalSize (blocks.flatMap fun block => holesIn block.lines))) :
    (fiemapHoleStats ⟨true, showFlags⟩ state).ths ≤
        cfg.znsdev.nrZones.toNat * cfg.znsdev.zoneSize.toNat ↔ zonemap.HolesFit cfg := by
  obtain ⟨count, total⟩ := totalSize_sized shown
  have counter : state.holeCtr.toNat = zonemap.holeIntervals.length % 2 ^ 32 := by
    rw [holeCtr, count]
    rfl
  have sectors : state.holeCumSize.toNat = intervalSum zonemap.holeIntervals % 2 ^ 64 := by
    rw [holeCumSize, total]
    rfl
  rw [holeStats_ths, ZoneMap.HolesFit, ← counter, ← sectors]
  split
  · next none => exact iff_of_true (Nat.zero_le _) (.inl (by rw [none]; rfl))
  · next some => exact (or_iff_right fun zero => some (UInt32.toNat_inj.mp zero)).symm

/-- In every zone map that `get_extents` makes, the holes of the report are sound exactly if the
extents of each zone are separate and the sectors between them fit the zones; and they fit wherever
the extents and the limits of their zones lie in these zones. -/
theorem hole_arithmetic_exact_iff (cfg : Config) (dev : Device) (opts : FiemapOptions)
    (events : List Event) (m : Machine) (run : collect cfg events = .ok m)
    (supported : cfg.toGeometry.Supported) (reports : ∀ sector, dev sector ≠ .ioctlFailed) :
    ∃ state blocks, fiemapMappings cfg dev opts m.ctrl.zonemap = .ok (state, blocks) ∧
      (HolesSound cfg opts state blocks ↔ (opts.showHoles = true →
        m.ctrl.zonemap.Separate ∧ m.ctrl.zonemap.HolesFit cfg)) ∧
      ((∀ e ∈ m.ctrl.zonemap.extents, e.Located cfg) → m.ctrl.zonemap.Separate →
        m.ctrl.zonemap.HolesFit cfg) := by
  obtain ⟨listed, length⟩ := collect_listed run
  have small : m.ctrl.zonemap.zones.length < 2 ^ 32 := by
    rw [length]
    exact cfg.znsdev.nrZones.toNat_lt
  have fits : ∀ e ∈ m.ctrl.zonemap.extents, e.stop < 2 ^ 64 := by
    intro e inside
    have found := collect_collected run e inside
    have start := found.phyBlk_small supported
    have len := found.len_small supported
    rw [Extent.stop]
    omega
  obtain ⟨state, blocks, result, lines, holeCtr, holeCumSize⟩ :
      ∃ state blocks, fiemapMappings cfg dev opts m.ctrl.zonemap = .ok (state, blocks) ∧ _ :=
    fiemapMappings_returns listed small reports
  have printed := blocks_lines lines
  refine ⟨state, blocks, result, ?_, fun located separate =>
    holesFit_of_located listed length separate located⟩
  obtain ⟨showHoles, showFlags⟩ := opts
  cases showHoles with
  | false =>
    refine iff_of_true ⟨fun block inside hole listed => ?_, Nat.zero_le _⟩ (fun on => by cases on)
    rw [blocks_off printed block inside] at listed
    cases listed
  | true =>
    have proper := blocks_proper fits printed
    have totals := fun separate =>
      @holeStats_fit_iff cfg _ _ showFlags _ (blocks_intervals fits printed separate) holeCtr holeCumSize
    constructor
    · intro sound _
      have separate := proper.mp sound.proper
      exact ⟨separate, (totals separate).mp sound.total⟩
    · intro condition
      obtain ⟨separate, fit⟩ := condition rfl
      exact ⟨proper.mpr separate, (totals separate).mpr fit⟩

end Report

def btrfsZones : Config :=
  { twoZones with fsInfoBytes := 0, fsManager := none }

def sharedExtent : List Event :=
  mapFile btrfsZones [97] 8 [⟨0, 4096 * 512, 4096, fiemapExtentLast⟩] ++
    mapFile btrfsZones [98] 8 [⟨0, 4096 * 512, 4096, fiemapExtentLast⟩]

-- Two files share an extent: the hole from its end back to its start.
theorem hole_underflows :
    ∃ m state blocks, collect btrfsZones sharedExtent = .ok m ∧
      fiemapMappings btrfsZones (fullZones btrfsZones) ⟨true, false⟩ m.ctrl.zonemap =
        .ok (state, blocks) ∧
      blocks.map (fun block => (block.zone.toNat, (holesIn block.lines).map FiemapHole.shown)) =
        [(0, [(4104, 4096, 2 ^ 64 - 8), (4104, 8192, 4088)])] ∧
      ¬ HolesSound btrfsZones ⟨true, false⟩ state blocks := by
  have computed : (do
      let m ← collect btrfsZones sharedExtent
      fiemapMappings btrfsZones (fullZones btrfsZones) ⟨true, false⟩ m.ctrl.zonemap).map
        (fun report : FiemapState × List FiemapBlock => decide (report.2.map (fun block : FiemapBlock =>
          (block.zone.toNat, (holesIn block.lines).map FiemapHole.shown)) =
            [(0, [(4104, 4096, 2 ^ 64 - 8), (4104, 8192, 4088)])])) = .ok true := by
    decide
  obtain ⟨⟨state, blocks⟩, computed, facts⟩ := Runs.map_ok computed
  obtain ⟨m, run, result⟩ := Runs.bind_ok computed
  have holes := of_decide_eq_true facts
  refine ⟨m, state, blocks, run, result, holes, fun sound => ?_⟩
  obtain ⟨block, rfl, shown⟩ := List.map_eq_singleton_iff.mp holes
  have first : (4104, 4096, 2 ^ 64 - 8) ∈ (holesIn block.lines).map FiemapHole.shown := by
    rw [(Prod.mk.inj shown).2]
    exact List.mem_cons_self
  obtain ⟨hole, inside, same⟩ := List.mem_map.mp first
  have below := (sound.proper block (List.mem_singleton_self block) hole inside).1
  simp only [FiemapHole.shown, Prod.mk.injEq] at same
  omega

def apartExtents : List Event :=
  mapFile btrfsZones [97] 8 [⟨0, 4096 * 512, 4096, fiemapExtentLast⟩] ++
    mapFile btrfsZones [98] 8 [⟨0, 4112 * 512, 4096, fiemapExtentLast⟩]

theorem holes_sound :
    ∃ m state blocks, collect btrfsZones apartExtents = .ok m ∧
      fiemapMappings btrfsZones (fullZones btrfsZones) ⟨true, false⟩ m.ctrl.zonemap =
        .ok (state, blocks) ∧ HolesSound btrfsZones ⟨true, false⟩ state blocks := by
  have computed : (collect btrfsZones apartExtents).map (fun m =>
      decide ((∀ numbered ∈ m.ctrl.zonemap.numbered, Successive numbered.1.extents ∧
          ∀ e ∈ numbered.1.extents, e.zoneLbas.toNat ≤ e.phyBlk.toNat ∧ e.Ends) ∧
        ∀ e ∈ m.ctrl.zonemap.extents, e.zone = 0 ∧ e.phyBlk.toNat ≤ 8192 ∧
          e.zoneLbae.toNat ≤ 8192)) = .ok true := by
    decide
  obtain ⟨m, run, facts⟩ := Runs.map_ok computed
  obtain ⟨zones, inside⟩ := of_decide_eq_true facts
  obtain ⟨state, blocks, result, exact, room⟩ := hole_arithmetic_exact_iff btrfsZones
    (fullZones btrfsZones) ⟨true, false⟩ apartExtents m run (.inl rfl)
    (fun sector failed => by cases failed)
  have separate : m.ctrl.zonemap.Separate := by
    intro numbered member
    have ⟨successive, limits⟩ := zones numbered member
    constructor
    · exact successive
    · intro e first _ _
      exact (limits e (List.mem_of_head? first)).1
    · intro e last
      exact (limits e (List.mem_of_getLast? last)).2
  have located : ∀ e ∈ m.ctrl.zonemap.extents, e.Located btrfsZones := by
    intro e listed
    have ⟨zone, start, lbae⟩ := inside e listed
    constructor <;> rw [zone]
    · exact Nat.zero_le _
    · exact ⟨Nat.zero_le _, start⟩
    · exact lbae
  exact ⟨m, state, blocks, run, result, exact.mpr fun _ => ⟨separate, room located separate⟩⟩

end ZnsTools
