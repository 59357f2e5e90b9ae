import ZnsTools.FiemapHoles
import ZnsTools.Shared.Tiling

set_option autoImplicit false

namespace ZnsTools

open Tiling (Tiles)

/-- What adding the extents one after the other makes of the zone map, whatever their order. -/
structure ZoneMap.Built (zonemap : ZoneMap) (added : List Extent) : Prop where
  few : zonemap.zones.length < 2 ^ 32
  listed : zonemap.Listed
  sorted : ∀ zone ∈ zonemap.zones, Sorted zone.extents
  members : ∀ zone ∈ zonemap.zones, zone.extents.Subperm added

theorem initZoneMap_built (nrZones : UInt32) : (initZoneMap nrZones).Built [] where
  few := by
    rw [initZoneMap, List.length_replicate]
    exact nrZones.toNat_lt
  listed := initZoneMap_listed nrZones
  sorted zone member := by
    obtain rfl := (List.mem_replicate.mp member).2
    exact List.Pairwise.nil
  members zone member := by
    obtain rfl := (List.mem_replicate.mp member).2
    exact List.Subperm.refl _

theorem ZoneMap.Built.add {zonemap filed : ZoneMap} {added : List Extent} {extent : Extent}
    (built : zonemap.Built added) (result : addExtentToZoneList zonemap extent = .ok filed) :
    filed.Built (added ++ [extent]) := by
  have listed := built.listed.add result
  obtain ⟨zone, found, rfl⟩ := addExtentToZoneList_ok result
  have inside := List.mem_of_getElem? found
  constructor
  · rw [List.length_set]
    exact built.few
  · exact listed
  · intro other member
    rcases List.mem_or_eq_of_mem_set member with old | rfl
    · exact built.sorted other old
    · dsimp only
      split
      · exact List.pairwise_singleton _ _
      · exact sortedZoneListInsert_sorted _ _ (built.sorted zone inside)
  · intro other member
    rcases List.mem_or_eq_of_mem_set member with old | rfl
    · exact (built.members other old).trans (List.sublist_append_left _ _).subperm
    · dsimp only
      split
      · exact (List.sublist_append_right _ _).subperm
      · have grown := sortedZoneListInsert_perm zone.extents extent
        have last := List.perm_append_singleton extent added
        exact grown.subperm.trans
          (((List.subperm_cons extent).mpr (built.members zone inside)).trans last.symm.subperm)

theorem foldlM_built {zonemap filed : ZoneMap} {before extents : List Extent}
    (built : zonemap.Built before)
    (result : extents.foldlM addExtentToZoneList zonemap = .ok filed) :
    filed.Built (before ++ extents) := by
  induction extents generalizing zonemap before with
  | nil =>
    obtain rfl : zonemap = filed := Except.ok.inj result
    rwa [List.append_nil]
  | cons extent rest ih =>
    rw [List.foldlM_cons] at result
    obtain ⟨next, added, later⟩ := Runs.bind_ok result
    have grown := ih (built.add added) later
    rwa [List.append_assoc] at grown

theorem Extent.apart_comm {a b : Extent} (apart : a.Apart b) : b.Apart a :=
  apart.symm

theorem ZoneMap.Built.ascending {zonemap : ZoneMap} {added : List Extent}
    (built : zonemap.Built added) (some_sector : ∀ e ∈ added, 0 < e.len.toNat)
    (apart : added.Pairwise Extent.Apart) {zone : Zone} (member : zone ∈ zonemap.zones) :
    Ascending zone.extents := by
  obtain ⟨same, perm, inside⟩ := built.members zone member
  apply ascending_of_sorted (built.sorted zone member)
  · exact (perm.pairwise_iff fun both => Extent.apart_comm both).mp (apart.sublist inside)
  · intro e listed
    exact some_sector e (inside.subset (perm.mem_iff.mpr listed))

structure FiemapSpan where
  hole : Bool
  start : Nat
  stop : Nat
  size : Nat
  deriving DecidableEq, Repr

def FiemapLine.span? : FiemapLine → Option FiemapSpan
  | .extent line => some ⟨false, line.pbas.toNat, line.pbae.toNat, line.size.toNat⟩
  | .hole found => some ⟨true, found.pbas.toNat, found.pbae.toNat, found.size.toNat⟩
  | _ => none

def spansOf (lines : List FiemapLine) : List FiemapSpan :=
  lines.filterMap FiemapLine.span?

def innerSpans (lines : List FiemapLine) : List FiemapSpan :=
  (((spansOf lines).dropWhile FiemapSpan.hole).reverse.dropWhile FiemapSpan.hole).reverse

def outerSpans (lines : List FiemapLine) : List FiemapSpan :=
  (spansOf lines).takeWhile FiemapSpan.hole

section Pieces

def extentSpan (e : Extent) : FiemapSpan :=
  ⟨false, e.phyBlk.toNat, e.stop, e.len.toNat⟩

def gapSpans (e next : Extent) : List FiemapSpan :=
  if e.stop < next.phyBlk.toNat then
    [⟨true, e.stop, next.phyBlk.toNat, next.phyBlk.toNat - e.stop⟩]
  else []

def pieceSpans : Extent → List Extent → List FiemapSpan
  | e, [] => [extentSpan e]
  | e, next :: rest => extentSpan e :: (gapSpans e next ++ pieceSpans next rest)

def holeSpan (hole : FiemapHole) : FiemapSpan :=
  ⟨true, hole.pbas.toNat, hole.pbae.toNat, hole.size.toNat⟩

theorem spansOf_append (front back : List FiemapLine) :
    spansOf (front ++ back) = spansOf front ++ spansOf back :=
  List.filterMap_append

theorem spansOf_holeLines (hole : Option FiemapHole) :
    spansOf (holeLines hole) = hole.toList.map holeSpan := by
  cases hole <;> rfl

theorem spansOf_extentLines {opts : FiemapOptions} {e : Extent} (fits : e.stop < 2 ^ 64) :
    spansOf (fiemapExtentLines opts e) = [extentSpan e] := by
  rw [fiemapExtentLines, extentSpan, ← pbae_toNat fits]
  split <;> rfl

theorem spansOf_gap (showFlags : Bool) {e next : Extent} (fits : e.stop < 2 ^ 64)
    (ordered : e.stop ≤ next.phyBlk.toNat) :
    spansOf (holeLines (gapHole ⟨true, showFlags⟩ e next)) = gapSpans e next := by
  have stop := pbae_toNat fits
  rw [spansOf_holeLines, gapHole_eq, gapSpans, span]
  by_cases same : e.pbae = next.phyBlk
  · rw [← same, stop]
    simp
  · have apart : e.stop ≠ next.phyBlk.toNat := fun equal =>
      same (UInt64.toNat_inj.mp (stop.trans equal))
    have size := UInt64.toNat_sub_of_le next.phyBlk e.pbae (by
      rw [UInt64.le_iff_toNat_le, stop]
      exact ordered)
    rw [if_pos (by simpa using same), if_pos (by omega)]
    simp [holeSpan, stop, size]

theorem spansOf_linesAfter (showFlags : Bool) {e : Extent} {rest : List Extent}
    (ascending : Ascending (e :: rest)) (fits : ∀ x ∈ e :: rest, x.stop < 2 ^ 64) :
    ∃ tail : Option FiemapHole,
      extentSpan e :: spansOf (linesAfter ⟨true, showFlags⟩ e rest) =
        pieceSpans e rest ++ tail.toList.map holeSpan := by
  induction rest generalizing e with
  | nil =>
    refine ⟨trailingHole ⟨true, showFlags⟩ e [], ?_⟩
    rw [linesAfter, spansOf_holeLines]
    rfl
  | cons next rest ih =>
    obtain ⟨first, later⟩ := List.pairwise_cons.mp ascending
    obtain ⟨small, others⟩ := List.forall_mem_cons.mp fits
    obtain ⟨tail, spans⟩ := ih later others
    refine ⟨tail, ?_⟩
    rw [linesAfter, spansOf_append, spansOf_append, spansOf_extentLines (others next (by simp)),
      spansOf_gap showFlags small (first next List.mem_cons_self), List.append_assoc,
      List.singleton_append, spans, pieceSpans, List.cons_append, List.append_assoc]

theorem pieceSpans_head (e : Extent) (rest : List Extent) :
    ∃ back, pieceSpans e rest = extentSpan e :: back := by
  cases rest <;> exact ⟨_, rfl⟩

theorem pieceSpans_last (e : Extent) (rest : List Extent) :
    ∃ front last, pieceSpans e rest = front ++ [extentSpan last] := by
  induction rest generalizing e with
  | nil => exact ⟨[], e, rfl⟩
  | cons next rest ih =>
    obtain ⟨front, last, same⟩ := ih next
    exact ⟨extentSpan e :: (gapSpans e next ++ front), last, by simp [pieceSpans, same]⟩

theorem pieceSpans_tiles {e last : Extent} {rest : List Extent} (ascending : Ascending (e :: rest))
    (ending : (e :: rest).getLast? = some last) :
    Tiles last.stop e.phyBlk.toNat ((pieceSpans e rest).map fun span => (span.start, span.stop)) := by
  induction rest generalizing e with
  | nil =>
    obtain rfl : e = last := by simpa using ending
    exact Tiling.tiles_singleton (Nat.le_add_right _ _)
  | cons next rest ih =>
    have ⟨first, later⟩ := List.pairwise_cons.mp ascending
    have ordered := first next List.mem_cons_self
    have tail := ih later (by simpa using ending)
    refine ⟨rfl, Nat.le_add_right _ _, ?_⟩
    rw [List.map_append]
    apply Tiling.tiles_append ?_ tail
    rw [gapSpans]
    split
    · next gap => exact Tiling.tiles_singleton (Nat.le_of_lt gap)
    · next none => exact Nat.le_antisymm ordered (Nat.not_lt.mp none)

theorem pieceSpans_extents (e : Extent) (rest : List Extent) :
    (pieceSpans e rest).filter (fun span => !span.hole) = (e :: rest).map extentSpan := by
  induction rest generalizing e with
  | nil => rfl
  | cons next rest ih =>
    have gaps : (gapSpans e next).filter (fun span => !span.hole) = [] := by
      rw [gapSpans]
      split <;> rfl
    rw [pieceSpans, List.filter_cons_of_pos rfl, List.filter_append, gaps, ih, List.nil_append]
    rfl

theorem pieceSpans_holes {e : Extent} {rest : List Extent} {span : FiemapSpan}
    (inside : span ∈ pieceSpans e rest) (hole : span.hole = true) :
    ∃ a b, [a, b] <:+: e :: rest ∧ a.stop < b.phyBlk.toNat ∧
      span = ⟨true, a.stop, b.phyBlk.toNat, b.phyBlk.toNat - a.stop⟩ := by
  induction rest generalizing e with
  | nil =>
    obtain rfl := List.mem_singleton.mp inside
    cases hole
  | cons next rest ih =>
    rcases List.mem_cons.mp inside with rfl | inside
    · cases hole
    · rcases List.mem_append.mp inside with gap | later
      · rw [gapSpans] at gap
        split at gap
        · next below =>
          obtain rfl := List.mem_singleton.mp gap
          exact ⟨e, next, ⟨[], rest, rfl⟩, below, rfl⟩
        · cases gap
      · obtain ⟨a, b, infix_, below, same⟩ := ih later
        exact ⟨a, b, infix_.trans (List.suffix_cons e _).isInfix, below, same⟩

theorem pieceSpans_sizes (e : Extent) (rest : List Extent) :
    ∀ span ∈ pieceSpans e rest, span.size = span.stop - span.start := by
  induction rest generalizing e with
  | nil =>
    intro span inside
    obtain rfl := List.mem_singleton.mp inside
    exact (Nat.add_sub_cancel_left _ _).symm
  | cons next rest ih =>
    intro span inside
    rcases List.mem_cons.mp inside with rfl | inside
    · exact (Nat.add_sub_cancel_left _ _).symm
    · rcases List.mem_append.mp inside with gap | later
      · rw [gapSpans] at gap
        split at gap
        · obtain rfl := List.mem_singleton.mp gap
          rfl
        · cases gap
      · exact ih next span later

end Pieces

theorem trim_eq {α : Type} (drop : α → Bool) {front middle back : List α} {first last : α}
    {rest others : List α} (starts : middle = first :: rest) (ends : middle = others ++ [last])
    (before : ∀ a ∈ front, drop a = true) (after : ∀ a ∈ back, drop a = true)
    (head : drop first = false) (tail : drop last = false) :
    (((front ++ middle ++ back).dropWhile drop).reverse.dropWhile drop).reverse = middle := by
  have begun : (front ++ middle ++ back).dropWhile drop = middle ++ back := by
    rw [List.append_assoc, List.dropWhile_append_of_pos before, starts, List.cons_append,
      List.dropWhile_cons_of_neg (by simp [head])]
  have ended : (back.reverse ++ middle.reverse).dropWhile drop = middle.reverse := by
    rw [List.dropWhile_append_of_pos fun a inside => after a (List.mem_reverse.mp inside), ends,
      List.reverse_append, List.reverse_singleton, List.singleton_append,
      List.dropWhile_cons_of_neg (by simp [tail])]
  rw [begun, List.reverse_append, ended, List.reverse_reverse]

/-- From its first to its last extent line, a block fills the sectors without a break; in front of
that there is nothing but the hole from the LBAS of its zone. -/
structure Tiled (extents : List Extent) (first last : Extent) (lines : List FiemapLine) : Prop where
  shown : (innerSpans lines).filter (fun span => !span.hole) = extents.map extentSpan
  tiles : Tiles last.stop first.phyBlk.toNat
    ((innerSpans lines).map fun span => (span.start, span.stop))
  gaps : ∀ span ∈ innerSpans lines, span.hole = true → ∃ a b, [a, b] <:+: extents ∧
    a.stop < b.phyBlk.toNat ∧ span.start = a.stop ∧ span.stop = b.phyBlk.toNat
  sizes : ∀ span ∈ innerSpans lines, span.size = span.stop - span.start
  total : ((innerSpans lines).map FiemapSpan.size).sum = last.stop - first.phyBlk.toNat
  outer : ∀ span ∈ outerSpans lines, span.start = first.zoneLbas.toNat ∧
    span.stop = first.phyBlk.toNat

theorem zoneLines_tiled (showFlags lower : Bool) {e last : Extent} {rest : List Extent}
    (ascending : Ascending (e :: rest)) (fits : ∀ x ∈ e :: rest, x.stop < 2 ^ 64)
    (ending : (e :: rest).getLast? = some last) :
    Tiled (e :: rest) e last (zoneLines ⟨true, showFlags⟩ lower (e :: rest)) := by
  obtain ⟨tail, behind⟩ := spansOf_linesAfter showFlags ascending fits
  have spans : spansOf (zoneLines ⟨true, showFlags⟩ lower (e :: rest)) =
      (headHole ⟨true, showFlags⟩ lower e rest).toList.map holeSpan ++ pieceSpans e rest ++
        tail.toList.map holeSpan := by
    rw [zoneLines, spansOf_append, spansOf_append, spansOf_holeLines,
      spansOf_extentLines (fits e List.mem_cons_self), List.append_assoc, List.singleton_append,
      behind, List.append_assoc]
  have holes : ∀ (found : Option FiemapHole), ∀ span ∈ found.toList.map holeSpan,
      span.hole = true := by
    intro found span inside
    obtain ⟨hole, -, rfl⟩ := List.mem_map.mp inside
    rfl
  obtain ⟨back, starts⟩ := pieceSpans_head e rest
  obtain ⟨front, final, ends⟩ := pieceSpans_last e rest
  have inner : innerSpans (zoneLines ⟨true, showFlags⟩ lower (e :: rest)) = pieceSpans e rest := by
    rw [innerSpans, spans]
    exact trim_eq FiemapSpan.hole starts ends (holes _) (holes _) rfl rfl
  have outer : outerSpans (zoneLines ⟨true, showFlags⟩ lower (e :: rest)) =
      (headHole ⟨true, showFlags⟩ lower e rest).toList.map holeSpan := by
    rw [outerSpans, spans, List.append_assoc, List.takeWhile_append_of_pos (holes _), starts,
      List.cons_append, List.takeWhile_cons_of_neg (by simp [extentSpan]), List.append_nil]
  have tiles := pieceSpans_tiles ascending ending
  have sizes := pieceSpans_sizes e rest
  constructor
  · rw [inner, pieceSpans_extents]
  · rw [inner]
    exact tiles
  · rw [inner]
    intro span inside hole
    obtain ⟨a, b, neighbours, below, rfl⟩ := pieceSpans_holes inside hole
    exact ⟨a, b, neighbours, below, rfl, rfl⟩
  · rw [inner]
    exact sizes
  · have sum := (Tiling.tiles_sum tiles).2
    rw [List.map_map] at sum
    rw [inner, ← sum]
    exact congrArg List.sum (List.map_congr_left sizes)
  · rw [outer]
    intro span inside
    obtain ⟨hole, found, rfl⟩ := List.mem_map.mp inside
    rw [Option.mem_toList, headHole] at found
    split at found <;> cases found
    exact ⟨rfl, rfl⟩

/-- In the report of a zone map that was built, in any order, from disjoint extents, the extents of
every zone and the holes between them tile the zone from its first extent to its last one. -/
theorem fiemap_blocks_tile (cfg : Config) (dev : Device) (showFlags : Bool) (nrZones : UInt32)
    (extents : List Extent) (zonemap : ZoneMap)
    (built : extents.foldlM addExtentToZoneList (initZoneMap nrZones) = .ok zonemap)
    (some_sector : ∀ e ∈ extents, 0 < e.len.toNat) (apart : extents.Pairwise Extent.Apart)
    (fits : ∀ e ∈ extents, e.stop < 2 ^ 64) (reports : ∀ sector, dev sector ≠ .ioctlFailed) :
    ∃ state blocks, fiemapMappings cfg dev ⟨true, showFlags⟩ zonemap = .ok (state, blocks) ∧
      blocks.map FiemapBlock.zone = zonemap.numbered.map (fun numbered => numbered.2.toUInt32) ∧
      ∀ block ∈ blocks, ∃ zone first last, zonemap.zones[block.zone.toNat]? = some zone ∧
        zone.extents.head? = some first ∧ zone.extents.getLast? = some last ∧
        Tiled zone.extents first last block.lines := by
  have all := foldlM_built (initZoneMap_built nrZones) built
  rw [List.nil_append] at all
  obtain ⟨state, blocks, result, lines, -, -⟩ :
      ∃ state blocks, fiemapMappings cfg dev ⟨true, showFlags⟩ zonemap = .ok (state, blocks) ∧ _ :=
    fiemapMappings_returns all.listed all.few reports
  have numbers := congrArg (List.map Prod.fst) lines
  rw [List.map_map, List.map_map] at numbers
  refine ⟨state, blocks, result, numbers, ?_⟩
  intro block inside
  have member : (block.zone, block.lines) ∈ zonemap.numbered.map
      (fun numbered => (numbered.2.toUInt32, blockLines ⟨true, showFlags⟩ zonemap numbered)) := by
    rw [← lines]
    exact List.mem_map.mpr ⟨block, inside, rfl⟩
  obtain ⟨⟨zone, number⟩, numbered, same⟩ := List.mem_map.mp member
  obtain ⟨own, shown⟩ := Prod.mk.inj same
  obtain ⟨place, used⟩ := ZoneMap.mem_numbered numbered
  have held := List.mem_of_getElem? place
  have some_extent := all.listed.some_extent zone held used
  have ascending := all.ascending some_sector apart held
  have small : ∀ e ∈ zone.extents, e.stop < 2 ^ 64 := fun e listed =>
    fits e ((all.members zone held).subset listed)
  rw [← own, numbered_small all.few numbered]
  cases listed : zone.extents with
  | nil => exact absurd listed some_extent
  | cons e rest =>
    rw [listed] at ascending small
    refine ⟨zone, e, (e :: rest).getLast (List.cons_ne_nil _ _), place, by rw [listed]; rfl,
      by rw [listed]; exact List.getLast?_eq_some_getLast _, ?_⟩
    rw [← shown, blockLines, listed]
    exact zoneLines_tiled showFlags _ ascending small (List.getLast?_eq_some_getLast _)

def fourExtents : List Extent :=
  let extent (zone : UInt32) (phyBlk : UInt64) : Extent :=
    ⟨zone, 0, 0, 0, 0, phyBlk, 8192 * zone.toUInt64, 8192, 8, 8192, 8192 * (zone.toUInt64 + 1),
      8192 * (zone.toUInt64 + 1), none, [97]⟩
  [extent 0 4096, extent 1 8200, extent 0 8, extent 0 16]

theorem four_extents_tile :
    ∃ zonemap state blocks, fourExtents.foldlM addExtentToZoneList (initZoneMap 2) = .ok zonemap ∧
      fiemapMappings twoZones (fullZones twoZones) ⟨true, false⟩ zonemap = .ok (state, blocks) ∧
      ∀ block ∈ blocks, ∃ zone first last, zonemap.zones[block.zone.toNat]? = some zone ∧
        zone.extents.head? = some first ∧ zone.extents.getLast? = some last ∧
        Tiled zone.extents first last block.lines := by
  have computed : (fourExtents.foldlM addExtentToZoneList (initZoneMap 2)).map (fun zonemap =>
      zonemap.zones.map fun zone => zone.extents.map (·.phyBlk)) =
        .ok [[8, 16, 4096], [8200]] := by
    decide
  obtain ⟨zonemap, built, -⟩ := Runs.map_ok computed
  obtain ⟨state, blocks, result, -, tiled⟩ := fiemap_blocks_tile twoZones (fullZones twoZones)
    false 2 fourExtents zonemap built (by decide) (by decide) (by decide)
    (fun sector failed => by cases failed)
  exact ⟨zonemap, state, blocks, built, result, tiled⟩

end ZnsTools
