import ZnsTools.FiemapLines
import ZnsTools.ZoneCounter

set_option autoImplicit false

namespace ZnsTools

-- Holes as they are documented, as intervals of sectors.

def documentedGaps : List Extent → List (Nat × Nat)
  | current :: e :: rest =>
    (if current.stop < e.phyBlk.toNat then [(current.stop, e.phyBlk.toNat)] else []) ++
      documentedGaps (e :: rest)
  | _ => []

-- Only if there is an extent in a lower zone.
def documentedHead (lower : Bool) (e : Extent) : List (Nat × Nat) :=
  if lower && e.zoneLbas.toNat < e.phyBlk.toNat then [(e.zoneLbas.toNat, e.phyBlk.toNat)] else []

def Extent.written (e : Extent) : Nat :=
  min e.zoneWp.toNat e.zoneLbae.toNat

-- Only if there is an extent in a higher zone.
def documentedTail (higher : Bool) (e : Extent) : List (Nat × Nat) :=
  if higher && e.stop < e.written then [(e.stop, e.written)] else []

def documentedHoles (lower higher : Bool) (extents : List Extent) : List (Nat × Nat) :=
  extents.head?.toList.flatMap (documentedHead lower) ++ documentedGaps extents ++
    extents.getLast?.toList.flatMap (documentedTail higher)

def Zone.used (zone : Zone) : Bool :=
  !zone.extents.isEmpty

def ZoneMap.usedBelow (zonemap : ZoneMap) (number : Nat) : Bool :=
  (zonemap.zones.take number).any Zone.used

def ZoneMap.usedAbove (zonemap : ZoneMap) (number : Nat) : Bool :=
  (zonemap.zones.drop (number + 1)).any Zone.used

/-- The documented holes of every zone with extents. -/
def ZoneMap.documented (zonemap : ZoneMap) : List (Nat × List (Nat × Nat)) :=
  (zonemap.zones.zipIdx.filter fun numbered => numbered.1.used).map fun numbered =>
    (numbered.2, documentedHoles (zonemap.usedBelow numbered.2) (zonemap.usedAbove numbered.2)
      numbered.1.extents)

def ZoneMap.documentedCount (zonemap : ZoneMap) : Nat :=
  (zonemap.documented.flatMap Prod.snd).length

def ZoneMap.documentedSize (zonemap : ZoneMap) : Nat :=
  ((zonemap.documented.flatMap Prod.snd).map fun hole => hole.2 - hole.1).sum

def FiemapHole.shown (hole : FiemapHole) : Nat × Nat × Nat :=
  (hole.pbas.toNat, hole.pbae.toNat, hole.size.toNat)

def sized (hole : Nat × Nat) : Nat × Nat × Nat :=
  (hole.1, hole.2, hole.2 - hole.1)

def HoleStats.noh : HoleStats → Nat
  | summary noh _ _ _ => noh.toNat
  | _ => 0

def HoleStats.ths : HoleStats → Nat
  | summary _ ths _ _ => ths.toNat
  | _ => 0

/-- The holes of each block are those documented for its zone, and the totals are theirs. -/
structure FiemapReport.ShowsDocumented (report : FiemapReport) (zonemap : ZoneMap) : Prop where
  holes : report.blocks.map (fun block =>
      (block.zone.toNat, (holesIn block.lines).map FiemapHole.shown)) =
    zonemap.documented.map fun zone => (zone.1, zone.2.map sized)
  noh : report.stats.holes.noh = zonemap.documentedCount
  ths : report.stats.holes.ths = zonemap.documentedSize

def Extent.Apart (a b : Extent) : Prop :=
  a.stop ≤ b.phyBlk.toNat ∨ b.stop ≤ a.phyBlk.toNat

instance (a b : Extent) : Decidable (a.Apart b) :=
  inferInstanceAs (Decidable (_ ∨ _))

/-- Non-empty, pairwise disjoint extents, each inside the capacity of its zone. -/
structure ZoneMap.Mapped (zonemap : ZoneMap) : Prop where
  few : zonemap.zones.length < 2 ^ 32
  counted : ∀ zone ∈ zonemap.zones, zone.extentCtr.toNat = zone.extents.length
  sorted : ∀ zone ∈ zonemap.zones, Sorted zone.extents
  filed : ∀ (index : Nat) (zone : Zone), zonemap.zones[index]? = some zone →
    ∀ e ∈ zone.extents, e.zone.toNat = index
  some_sector : ∀ e ∈ zonemap.extents, 0 < e.len.toNat
  apart : zonemap.extents.Pairwise Extent.Apart
  inside : ∀ e ∈ zonemap.extents, e.zoneLbas.toNat ≤ e.phyBlk.toNat ∧ e.stop ≤ e.zoneLbae.toNat

def Ascending (extents : List Extent) : Prop :=
  extents.Pairwise fun a b => a.stop ≤ b.phyBlk.toNat

def Successive (extents : List Extent) : Prop :=
  extents.IsChain fun a b => a.stop ≤ b.phyBlk.toNat

def Extent.Ends (e : Extent) : Prop :=
  e.zoneLbae.toNat < e.stop → e.zoneWp.toNat ≤ e.stop

theorem Extent.ends_of_le {e : Extent} (inside : e.stop ≤ e.zoneLbae.toNat) : e.Ends :=
  fun behind => absurd inside (Nat.not_le.mpr behind)

instance (e : Extent) : Decidable e.Ends :=
  inferInstanceAs (Decidable (_ → _))

theorem ascending_of_sorted {extents : List Extent} (sorted : Sorted extents)
    (apart : extents.Pairwise Extent.Apart) (some_sector : ∀ e ∈ extents, 0 < e.len.toNat) :
    Ascending extents := by
  refine (List.Pairwise.and sorted apart).imp_of_mem ?_
  intro a b _ inside ⟨ordered, disjoint⟩
  rcases disjoint with before | behind
  · exact before
  · have start := UInt64.le_iff_toNat_le.mp ordered
    have wide := some_sector b inside
    rw [Extent.stop] at behind
    omega

section Holes

variable (showFlags : Bool)

theorem pbae_toNat {e : Extent} (fits : e.stop < 2 ^ 64) : e.pbae.toNat = e.stop := by
  rw [Extent.pbae, UInt64.toNat_add]
  exact Nat.mod_eq_of_lt fits

def span (leading : Bool) (start stop : UInt64) : Option FiemapHole :=
  if start != stop then some ⟨leading, start, stop, stop - start⟩ else none

theorem span_some {start stop : UInt64} (apart : start ≠ stop) (leading : Bool) :
    span leading start stop = some ⟨leading, start, stop, stop - start⟩ :=
  if_pos (by simpa using apart)

theorem span_shown {leading : Bool} {start stop : UInt64} (ordered : start.toNat ≤ stop.toNat) :
    (span leading start stop).toList.map FiemapHole.shown =
      (if start.toNat < stop.toNat then [(start.toNat, stop.toNat)] else []).map sized := by
  by_cases same : start = stop
  · subst same
    simp [span]
  · have apart : start.toNat ≠ stop.toNat := fun equal => same (UInt64.toNat_inj.mp equal)
    rw [span_some same, if_pos (by omega)]
    simp [FiemapHole.shown, sized, UInt64.toNat_sub_of_le _ _ (UInt64.le_iff_toNat_le.mpr ordered)]

theorem gapHole_eq (prev current : Extent) :
    gapHole ⟨true, showFlags⟩ prev current = span false prev.pbae current.phyBlk := by
  simp [gapHole, span]

theorem headHole_eq (lower : Bool) (current : Extent) (next : List Extent) :
    headHole ⟨true, showFlags⟩ lower current next =
      if lower && !next.isEmpty then span true current.zoneLbas current.phyBlk else none := by
  cases lower <;> cases next <;> simp [headHole, span]

theorem gapHole_shown {prev current : Extent} (fits : prev.stop < 2 ^ 64)
    (ordered : prev.stop ≤ current.phyBlk.toNat) :
    (gapHole ⟨true, showFlags⟩ prev current).toList.map FiemapHole.shown =
      (if prev.stop < current.phyBlk.toNat then [(prev.stop, current.phyBlk.toNat)] else []).map
        sized := by
  have stop := pbae_toNat fits
  rw [gapHole_eq, span_shown (by rw [stop]; exact ordered), stop]

theorem headHole_shown (lower : Bool) {e : Extent} (rest : List Extent)
    (begins : (lower && !rest.isEmpty) = true → e.zoneLbas.toNat ≤ e.phyBlk.toNat) :
    (headHole ⟨true, showFlags⟩ lower e rest).toList.map FiemapHole.shown =
      (documentedHead (lower && !rest.isEmpty) e).map sized := by
  rw [headHole_eq, documentedHead]
  cases shows : lower && !rest.isEmpty with
  | false => rfl
  | true => simpa using span_shown (begins shows)

theorem trailingHole_shown {e : Extent} (fits : e.stop < 2 ^ 64) (ends : e.Ends) :
    (trailingHole ⟨true, showFlags⟩ e []).toList.map FiemapHole.shown =
      (documentedTail true e).map sized := by
  have stop := pbae_toNat fits
  have finish : (if e.zoneWp < e.zoneLbae then e.zoneWp else e.zoneLbae).toNat = e.written := by
    rw [Extent.written]
    split
    · next below => exact (Nat.min_eq_left (Nat.le_of_lt (UInt64.lt_iff_toNat_lt.mp below))).symm
    · next above =>
      exact (Nat.min_eq_right (UInt64.le_iff_toNat_le.mp (UInt64.not_lt.mp above))).symm
  have shows : (e.pbae != e.zoneLbae && decide (e.pbae < e.zoneWp)) =
      decide (e.stop < e.written) := by
    rw [Bool.eq_iff_iff, Bool.and_eq_true, bne_iff_ne, ne_eq, decide_eq_true_eq, decide_eq_true_eq,
      ← UInt64.toNat_inj, UInt64.lt_iff_toNat_lt, stop, Extent.written]
    rw [Extent.Ends] at ends
    omega
  rw [trailingHole, documentedTail]
  simp only [List.isEmpty_nil, Bool.and_true, Bool.true_and, shows, decide_eq_true_eq]
  split
  · next below =>
    have size : ∀ last : UInt64, last.toNat = e.written →
        (last - e.pbae).toNat = e.written - e.stop := by
      intro last same
      rw [UInt64.toNat_sub_of_le _ _ (UInt64.le_iff_toNat_le.mpr (by omega)), same, stop]
    simp [FiemapHole.shown, sized, stop, finish, size _ finish]
  · rfl

theorem linesAfter_shown {e last : Extent} {rest : List Extent} (successive : Successive (e :: rest))
    (fits : ∀ x ∈ e :: rest, x.stop < 2 ^ 64) (ending : (e :: rest).getLast? = some last)
    (ends : last.Ends) :
    (holesIn (linesAfter ⟨true, showFlags⟩ e rest)).map FiemapHole.shown =
      (documentedGaps (e :: rest) ++ documentedTail true last).map sized := by
  obtain ⟨small, others⟩ := List.forall_mem_cons.mp fits
  induction rest generalizing e with
  | nil =>
    obtain rfl : e = last := by simpa using ending
    rw [linesAfter, holesIn_holeLines, trailingHole_shown showFlags small ends]
    rfl
  | cons current rest ih =>
    obtain ⟨first, later⟩ := List.isChain_cons_cons.mp successive
    have gap := gapHole_shown showFlags small first
    have tail := ih later others (by simpa using ending) (List.forall_mem_cons.mp others).1
      (List.forall_mem_cons.mp others).2
    rw [linesAfter, holesIn_append, holesIn_append, holesIn_holeLines, holesIn_extentLines,
      List.append_nil, List.map_append, gap, tail, ← List.map_append, ← List.append_assoc]
    rfl

theorem zoneLines_shown {lower : Bool} {e last : Extent} {rest : List Extent}
    (successive : Successive (e :: rest)) (fits : ∀ x ∈ e :: rest, x.stop < 2 ^ 64)
    (begins : (lower && !rest.isEmpty) = true → e.zoneLbas.toNat ≤ e.phyBlk.toNat)
    (ending : (e :: rest).getLast? = some last) (ends : last.Ends) :
    (holesIn (zoneLines ⟨true, showFlags⟩ lower (e :: rest))).map FiemapHole.shown =
      (documentedHead (lower && !rest.isEmpty) e ++ documentedGaps (e :: rest) ++
        documentedTail true last).map sized := by
  have head := headHole_shown showFlags lower rest begins
  have tail := linesAfter_shown showFlags successive fits ending ends
  rw [zoneLines, holesIn_append, holesIn_append, holesIn_holeLines, holesIn_extentLines,
    List.append_nil, List.map_append, head, tail, ← List.map_append, List.append_assoc]

end Holes

/-- A zone whose only extent starts behind the zone's LBAS, above an extent in a lower zone; or a
zone whose last extent ends before what is written, below no other extent. -/
def Missed (lower higher : Bool) (extents : List Extent) : Prop :=
  (lower = true ∧ ∃ e, extents = [e] ∧ e.zoneLbas.toNat < e.phyBlk.toNat) ∨
    higher = false ∧ ∃ e, extents.getLast? = some e ∧ e.stop < e.written

theorem sized_inj {front back : List (Nat × Nat)} (same : front.map sized = back.map sized) :
    front = back := by
  refine List.map_injective_iff.mpr ?_ same
  intro a b equal
  simp only [sized, Prod.mk.injEq] at equal
  exact Prod.ext equal.1 equal.2.1

theorem documentedTail_iff (higher : Bool) (e : Extent) :
    documentedTail true e = documentedTail higher e ↔ ¬ (higher = false ∧ e.stop < e.written) := by
  by_cases below : e.stop < e.written <;> cases higher <;> simp [documentedTail, below]

theorem zone_documented_iff {lower higher : Bool} {e last : Extent} {rest : List Extent}
    (some_sector : 0 < e.len.toNat) (inside : e.zoneLbas.toNat ≤ e.phyBlk.toNat)
    (ending : (e :: rest).getLast? = some last) :
    (documentedHead (lower && !rest.isEmpty) e ++ documentedGaps (e :: rest) ++
        documentedTail true last).map sized =
      (documentedHoles lower higher (e :: rest)).map sized ↔ ¬ Missed lower higher (e :: rest) := by
  have plain : ∀ front back : List (Nat × Nat), front.map sized = back.map sized ↔ front = back :=
    fun _ _ => ⟨sized_inj, congrArg _⟩
  rw [plain, documentedHoles, Missed, ending]
  have tail := documentedTail_iff higher last
  cases rest with
  | nil =>
    obtain rfl : e = last := by simpa using ending
    have apart : e.stop ≠ e.zoneLbas.toNat := by
      rw [Extent.stop]
      omega
    have empty : documentedHead (lower && !([] : List Extent).isEmpty) e = [] := if_neg (by simp)
    rw [empty]
    by_cases behind : lower = true ∧ e.zoneLbas.toNat < e.phyBlk.toNat
    · have head : documentedHead lower e = [(e.zoneLbas.toNat, e.phyBlk.toNat)] :=
        if_pos (by simpa using behind)
      refine iff_of_false (fun same => ?_) fun kept => kept (.inl ⟨behind.1, e, rfl, behind.2⟩)
      have shown : documentedTail true e =
          (e.zoneLbas.toNat, e.phyBlk.toNat) :: documentedTail higher e := by
        simpa [head, documentedGaps] using same
      rw [documentedTail] at shown
      split at shown
      · exact apart (Prod.mk.inj (List.cons.inj shown).1).1
      · cases shown
    · have head : documentedHead lower e = [] := if_neg (by simpa using behind)
      have missed : ¬ (lower = true ∧ ∃ x, [e] = [x] ∧ x.zoneLbas.toNat < x.phyBlk.toNat) := by
        rintro ⟨first, x, same, start⟩
        obtain rfl := List.singleton_inj.mp same
        exact behind ⟨first, start⟩
      rw [or_iff_right missed]
      simpa [head, documentedGaps] using tail
  | cons next rest =>
    simpa using tail

section Report

variable {cfg : Config} {dev : Device} {zonemap : ZoneMap} {showFlags : Bool}

theorem ZoneMap.Mapped.occupied_eq (mapped : zonemap.Mapped) {zone : Zone}
    (member : zone ∈ zonemap.zones) : zone.occupied = zone.used := by
  have counted := mapped.counted zone member
  rw [Zone.occupied, Zone.used, Bool.eq_iff_iff, bne_iff_ne, ne_eq, ← UInt32.toNat_inj, counted]
  simp

theorem ZoneMap.Mapped.listed (mapped : zonemap.Mapped) : zonemap.Listed where
  filed := mapped.filed
  some_extent zone member used := by
    rw [mapped.occupied_eq member, Zone.used] at used
    simpa using used

theorem ZoneMap.Mapped.numbered_eq (mapped : zonemap.Mapped) :
    zonemap.numbered = zonemap.zones.zipIdx.filter fun numbered => numbered.1.used := by
  apply List.filter_congr
  intro numbered inside
  exact mapped.occupied_eq (List.fst_mem_of_mem_zipIdx inside)

theorem ZoneMap.Mapped.lower_eq (mapped : zonemap.Mapped) (number : Nat) :
    zonemap.lower number = zonemap.usedBelow number := by
  have same : ∀ zones : List Zone, (∀ zone ∈ zones, zone.occupied = zone.used) →
      zones.any Zone.occupied = zones.any Zone.used := by
    intro zones equal
    induction zones with
    | nil => rfl
    | cons zone rest ih =>
      have ⟨first, later⟩ := List.forall_mem_cons.mp equal
      rw [List.any_cons, List.any_cons, first, ih later]
  exact same _ fun zone member => mapped.occupied_eq (List.mem_of_mem_take member)

theorem mem_extents {zone : Zone} (member : zone ∈ zonemap.zones) {e : Extent}
    (inside : e ∈ zone.extents) : e ∈ zonemap.extents :=
  List.mem_flatMap.mpr ⟨zone, member, inside⟩

theorem extents_sublist {zone : Zone} (member : zone ∈ zonemap.zones) :
    zone.extents.Sublist zonemap.extents :=
  List.sublist_flatten_of_mem (List.mem_map.mpr ⟨zone, member, rfl⟩)

theorem ZoneMap.Mapped.ascending (mapped : zonemap.Mapped) {zone : Zone}
    (member : zone ∈ zonemap.zones) : Ascending zone.extents :=
  ascending_of_sorted (mapped.sorted zone member)
    (mapped.apart.sublist (extents_sublist member))
    fun e inside => mapped.some_sector e (mem_extents member inside)

theorem blockLines_documented_iff (showFlags : Bool) (mapped : zonemap.Mapped) {numbered : Zone × Nat}
    (member : numbered ∈ zonemap.numbered) :
    (holesIn (blockLines ⟨true, showFlags⟩ zonemap numbered)).map FiemapHole.shown =
        (documentedHoles (zonemap.usedBelow numbered.2) (zonemap.usedAbove numbered.2)
          numbered.1.extents).map sized ↔
      ¬ Missed (zonemap.usedBelow numbered.2) (zonemap.usedAbove numbered.2) numbered.1.extents := by
  have listed := (List.mem_filter.mp member).1
  have own := List.fst_mem_of_mem_zipIdx listed
  have used : numbered.1.extents ≠ [] :=
    mapped.listed.some_extent _ own (List.mem_filter.mp member).2
  have ascending := mapped.ascending own
  have inside : ∀ e ∈ numbered.1.extents, e ∈ zonemap.extents := fun e => mem_extents own
  rw [blockLines, mapped.lower_eq]
  cases extents : numbered.1.extents with
  | nil => exact absurd extents used
  | cons e rest =>
    rw [extents] at ascending inside
    have first := inside e List.mem_cons_self
    have fits : ∀ x ∈ e :: rest, x.stop < 2 ^ 64 := fun x listed =>
      Nat.lt_of_le_of_lt (mapped.inside x (inside x listed)).2 x.zoneLbae.toNat_lt
    obtain ⟨last, ending⟩ : ∃ last, (e :: rest).getLast? = some last :=
      ⟨_, List.getLast?_eq_some_getLast (by simp)⟩
    have ends := Extent.ends_of_le (mapped.inside last (inside last (List.mem_of_getLast? ending))).2
    have begins := (mapped.inside e first).1
    rw [zoneLines_shown showFlags ascending.isChain fits (fun _ => begins) ending ends]
    exact zone_documented_iff (mapped.some_sector e first) begins ending

theorem numbered_small (few : zonemap.zones.length < 2 ^ 32) {numbered : Zone × Nat}
    (member : numbered ∈ zonemap.numbered) : numbered.2.toUInt32.toNat = numbered.2 :=
  Nat.mod_eq_of_lt (Nat.lt_trans (ZoneMap.numbered_lt member) few)

theorem blocks_documented_iff (mapped : zonemap.Mapped) {blocks : List FiemapBlock}
    (lines : blocks.map (fun block => (block.zone, block.lines)) = zonemap.numbered.map
      fun numbered => (numbered.2.toUInt32, blockLines ⟨true, showFlags⟩ zonemap numbered)) :
    blocks.map (fun block => (block.zone.toNat, (holesIn block.lines).map FiemapHole.shown)) =
        zonemap.documented.map (fun zone => (zone.1, zone.2.map sized)) ↔
      ∀ number zone, zonemap.zones[number]? = some zone →
        ¬ Missed (zonemap.usedBelow number) (zonemap.usedAbove number) zone.extents := by
  have shown := congrArg (List.map fun block : UInt32 × List FiemapLine =>
    (block.1.toNat, (holesIn block.2).map FiemapHole.shown)) lines
  rw [List.map_map, List.map_map] at shown
  have own := shown
  simp only [Function.comp_def] at own
  rw [own, ZoneMap.documented, ← mapped.numbered_eq, List.map_map, List.map_inj_left]
  constructor
  · intro each number zone found missed
    have used : zone.occupied = true := by
      rw [mapped.occupied_eq (List.mem_of_getElem? found), Zone.used]
      rcases missed with ⟨-, e, single, -⟩ | ⟨-, e, last, -⟩
      · rw [single]
        rfl
      · cases extents : zone.extents with
        | nil => simp [extents] at last
        | cons first rest => rfl
    have member : (zone, number) ∈ zonemap.numbered :=
      List.mem_filter.mpr ⟨List.mk_mem_zipIdx_iff_getElem?.mpr found, used⟩
    exact (blockLines_documented_iff showFlags mapped member).mp (Prod.mk.inj (each _ member)).2 missed
  · intro none numbered member
    have place := (ZoneMap.mem_numbered member).1
    have holes := (blockLines_documented_iff showFlags mapped member).mpr
      (none numbered.2 numbered.1 place)
    exact Prod.ext (numbered_small mapped.few member) holes

theorem documented_totals {blocks : List FiemapBlock}
    (same : blocks.map (fun block =>
        (block.zone.toNat, (holesIn block.lines).map FiemapHole.shown)) =
      zonemap.documented.map (fun zone => (zone.1, zone.2.map sized))) :
    (blocks.flatMap fun block => holesIn block.lines).length = zonemap.documentedCount ∧
      totalSize (blocks.flatMap fun block => holesIn block.lines) = zonemap.documentedSize := by
  have holes : (blocks.flatMap fun block => holesIn block.lines).map FiemapHole.shown =
      (zonemap.documented.flatMap Prod.snd).map sized := by
    have parts := congrArg (List.flatMap Prod.snd) same
    simpa [List.flatMap_map, List.map_flatMap] using parts
  constructor
  · have lengths := congrArg List.length holes
    simpa [ZoneMap.documentedCount] using lengths
  · have sizes := congrArg (fun shown : List (Nat × Nat × Nat) => (shown.map (·.2.2)).sum) holes
    simpa [totalSize, ZoneMap.documentedSize, FiemapHole.shown, sized, Function.comp_def] using sizes

theorem holeStats_noh (showFlags : Bool) (state : FiemapState) :
    (fiemapHoleStats ⟨true, showFlags⟩ state).noh = state.holeCtr.toNat := by
  by_cases none : state.holeCtr = 0 <;> simp [fiemapHoleStats, none, HoleStats.noh]

theorem holeStats_ths (showFlags : Bool) (state : FiemapState) :
    (fiemapHoleStats ⟨true, showFlags⟩ state).ths =
      if state.holeCtr = 0 then 0 else state.holeCumSize.toNat := by
  by_cases none : state.holeCtr = 0 <;> simp [fiemapHoleStats, none, HoleStats.ths]

/-- With holes enabled, the report shows the documented holes exactly if no zone with a single
extent starts it behind the LBAS, above another zone with extents, the last zone with extents has
none behind its last extent, and the counters are wide enough. -/
theorem fiemap_holes_exact_iff (cfg : Config) (dev : Device) (showFlags : Bool) (zonemap : ZoneMap)
    (mapped : zonemap.Mapped) (some_extent : zonemap.extentCtr ≠ 0)
    (reports : ∀ sector, dev sector ≠ .ioctlFailed) :
    ∃ report, printFiemapReport cfg dev ⟨true, showFlags⟩ zonemap = .ok report ∧
      (report.ShowsDocumented zonemap ↔
        (∀ number zone, zonemap.zones[number]? = some zone →
          ¬ Missed (zonemap.usedBelow number) (zonemap.usedAbove number) zone.extents) ∧
        zonemap.documentedCount < 2 ^ 32 ∧ zonemap.documentedSize < 2 ^ 64) := by
  obtain ⟨state, blocks, result, lines, holeCtr, holeCumSize⟩ :
      ∃ state blocks, fiemapMappings cfg dev ⟨true, showFlags⟩ zonemap = .ok (state, blocks) ∧ _ :=
    fiemapMappings_returns mapped.listed mapped.few reports
  have counts := holeStats_noh showFlags state
  have sizes := holeStats_ths showFlags state
  rw [printFiemapReport, result, Runs.ok_bind]
  dsimp only
  rw [fiemapStats, if_neg some_extent, Runs.ok_bind]
  refine ⟨_, rfl, ?_⟩
  constructor
  · intro shows
    have noh := shows.noh
    have ths := shows.ths
    dsimp only at noh ths
    refine ⟨(blocks_documented_iff mapped lines).mp shows.holes, ?_, ?_⟩
    · rw [← noh, counts]
      exact state.holeCtr.toNat_lt
    · rw [← ths, sizes]
      split
      · decide
      · exact state.holeCumSize.toNat_lt
  · intro ⟨kept, few, fits⟩
    have same := (blocks_documented_iff mapped lines).mpr kept
    have ⟨length, total⟩ := documented_totals same
    rw [length] at holeCtr
    rw [total] at holeCumSize
    have counter : state.holeCtr.toNat = zonemap.documentedCount := by
      rw [holeCtr]
      exact Nat.mod_eq_of_lt few
    refine ⟨same, counts.trans counter, sizes.trans ?_⟩
    split
    · next zero =>
      rw [zero] at counter
      have empty : blocks.flatMap (fun block => holesIn block.lines) = [] := by
        rw [← List.length_eq_zero_iff, length, ← counter]
        rfl
      rw [← total, empty]
      rfl
    · rw [holeCumSize]
      exact Nat.mod_eq_of_lt fits

end Report

theorem collect_mapped {cfg : Config} {events : List Event} {m : Machine}
    (run : collect cfg events = .ok m) (few : m.accepted.length < 2 ^ 32)
    (some_sector : ∀ e ∈ m.ctrl.zonemap.extents, 0 < e.len.toNat)
    (apart : m.ctrl.zonemap.extents.Pairwise Extent.Apart)
    (inside : ∀ e ∈ m.ctrl.zonemap.extents,
      e.zoneLbas.toNat ≤ e.phyBlk.toNat ∧ e.stop ≤ e.zoneLbae.toNat) :
    m.ctrl.zonemap.Mapped where
  few := by
    rw [(collect_listed run).2]
    exact cfg.znsdev.nrZones.toNat_lt
  counted := (collect_zonemap run few).counted
  sorted := (collect_zonemap run few).sorted
  filed := (collect_zonemap run few).filed
  some_sector := some_sector
  apart := apart
  inside := inside

def inPieces (firstBlk firstLen secondBlk secondLen : UInt64) : List Event :=
  mapFile twoZones [97] 16 [⟨0, firstBlk * 512, firstLen * 512, 0⟩,
    ⟨firstLen * 512, secondBlk * 512, secondLen * 512, fiemapExtentLast⟩]

def shownAndDocumented (events : List Event) :
    Except Abort (List (Nat × List (Nat × Nat × Nat)) × List (Nat × List (Nat × Nat))) := do
  let m ← collect twoZones events
  let report ← printFiemapReport twoZones (fullZones twoZones) ⟨true, false⟩ m.ctrl.zonemap
  pure (report.blocks.map fun block =>
    (block.zone.toNat, (holesIn block.lines).map FiemapHole.shown), m.ctrl.zonemap.documented)

-- The hole in front of the second piece is left out, and the one behind it is shown.
theorem holes_misreported :
    ∃ m report, collect twoZones (inPieces 4096 8 12288 8) = .ok m ∧
      printFiemapReport twoZones (fullZones twoZones) ⟨true, false⟩ m.ctrl.zonemap = .ok report ∧
      report.blocks.map (fun block =>
        (block.zone.toNat, (holesIn block.lines).map FiemapHole.shown)) =
          [(0, [(4104, 8192, 4088)]), (1, [(12296, 16384, 4088)])] ∧
      m.ctrl.zonemap.documented = [(0, [(4104, 8192)]), (1, [(8192, 12288)])] ∧
      ¬ report.ShowsDocumented m.ctrl.zonemap := by
  have computed : (shownAndDocumented (inPieces 4096 8 12288 8)).map (fun holes =>
      decide (holes.1 = [(0, [(4104, 8192, 4088)]), (1, [(12296, 16384, 4088)])] ∧
        holes.2 = [(0, [(4104, 8192)]), (1, [(8192, 12288)])])) = .ok true := by
    decide
  obtain ⟨both, computed, facts⟩ := Runs.map_ok computed
  obtain ⟨m, run, computed⟩ := Runs.bind_ok computed
  obtain ⟨report, printed, computed⟩ := Runs.bind_ok computed
  cases computed
  obtain ⟨holes, documented⟩ := of_decide_eq_true facts
  dsimp only at holes documented
  refine ⟨m, report, run, printed, holes, documented, fun shows => ?_⟩
  have same := shows.holes
  rw [holes, documented] at same
  exact absurd same (by decide)

theorem holes_reported :
    ∃ m report, collect twoZones (inPieces 8192 8 16376 8) = .ok m ∧
      printFiemapReport twoZones (fullZones twoZones) ⟨true, false⟩ m.ctrl.zonemap = .ok report ∧
      report.ShowsDocumented m.ctrl.zonemap := by
  have computed : (collect twoZones (inPieces 8192 8 16376 8)).map (fun m =>
      decide (m.accepted.length = 2 ∧ m.ctrl.zonemap.extentCtr = 2 ∧
        m.ctrl.zonemap.documentedCount = 1 ∧ m.ctrl.zonemap.documentedSize = 8176 ∧
        (∀ e ∈ m.ctrl.zonemap.extents, 0 < e.len.toNat) ∧
        m.ctrl.zonemap.extents.Pairwise Extent.Apart ∧
        (∀ e ∈ m.ctrl.zonemap.extents,
          e.zoneLbas.toNat ≤ e.phyBlk.toNat ∧ e.stop ≤ e.zoneLbae.toNat) ∧
        (∀ zone ∈ m.ctrl.zonemap.zones, zone.extents.length ≠ 1 ∧
          ∀ e ∈ zone.extents.getLast?, ¬ e.stop < e.written))) = .ok true := by
    decide
  obtain ⟨m, run, facts⟩ := Runs.map_ok computed
  obtain ⟨two, counter, count, size, sectors, apart, inside, zones⟩ := of_decide_eq_true facts
  have mapped := collect_mapped run (by omega) sectors apart inside
  obtain ⟨report, printed, exact⟩ := fiemap_holes_exact_iff twoZones (fullZones twoZones) false
    m.ctrl.zonemap mapped (by rw [counter]; decide) (fun sector failed => by cases failed)
  refine ⟨m, report, run, printed, exact.mpr ⟨?_, by omega, by omega⟩⟩
  intro number zone found missed
  have ⟨several, last⟩ := zones zone (List.mem_of_getElem? found)
  rcases missed with ⟨-, e, single, -⟩ | ⟨-, e, ending, below⟩
  · exact several (by rw [single]; rfl)
  · exact last e ending below

end ZnsTools
