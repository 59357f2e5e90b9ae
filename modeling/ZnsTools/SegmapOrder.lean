import ZnsTools.DumpOrder
import ZnsTools.SetUp

set_option autoImplicit false

namespace ZnsTools

open Lockstep

section Walks

variable {cfg : Config} {heap other : Nat → FileCounter} {path : CString}
  {listing listed : Listing} {m n : Machine}

theorem walked {visits : List Visit}
    (done : visits.foldlM (visit cfg heap) (Machine.start cfg) = .ok m)
    (few : (visits.map Visit.asked).sum < 2 ^ 32) : Walked m := by
  obtain ⟨between, called, filed⟩ := walk_filed visits (start_between cfg) done
  have opened : m.opened < 2 ^ 32 := by
    have start : (Machine.start cfg).opened = 0 := rfl
    omega
  have short : m.accepted.length < 2 ^ 32 := by
    have length := congrArg List.length filed
    rw [List.length_map, List.length_append, List.length_map] at length
    have start : (Machine.start cfg).accepted.length = 0 := rfl
    have bound := length_filings_le cfg visits
    omega
  obtain ⟨tables, counted⟩ := between.filed opened
  have named := walk_named visits (start_between cfg) (fun _ => start_named cfg) done opened
  exact ⟨between.consistent short, tables, counted, named⟩

theorem rearranged_of_reordered (reordered : Reordered listing listed)
    (few : ((listing.visits path).map Visit.asked).sum < 2 ^ 32)
    (run : collectExtents cfg heap path listing (Machine.start cfg) = .ok m)
    (rerun : collectExtents cfg other path listed (Machine.start cfg) = .ok n) :
    Rearranged m n := by
  have visits := reordered.visits path
  rw [collectExtents_eq] at run rerun
  have asked := (visits.map Visit.asked).sum_eq
  obtain ⟨found, files, table⟩ := walk_gathered _ (start_between cfg) run
  obtain ⟨again, counts, tracked⟩ := walk_gathered _ (start_between cfg) rerun
  have zones := (walk_filed _ (start_between cfg) run).1.zones
  have length := (walk_filed _ (start_between cfg) rerun).1.zones
  have contents := visits.flatMap_right (Visit.contents cfg)
  have mapped := visits.countP_eq Visit.mapped
  have accepted : (Machine.start cfg).accepted = [] := rfl
  refine ⟨walked run few, walked rerun (asked ▸ few), zones.trans length.symm,
    ?_, ?_, ?_, ?_, ?_, ?_⟩
  · rw [found.accepted, again.accepted, accepted]
    exact contents
  · rw [Bool.eq_iff_iff, table, tracked, mapped]
  · rw [files, counts, mapped]
  · rw [found.inlined, again.inlined, (visits.map Visit.inlined).sum_eq]
  · rw [found.zoneCtr, again.zoneCtr, contents.length_eq]
  · rw [found.curSegment, again.curSegment]

theorem accepted_apart
    (apart : (((listing.visits path).flatMap (Visit.filings cfg)).map Filing.phyBlk).Nodup)
    (run : collectExtents cfg heap path listing (Machine.start cfg) = .ok m) :
    (m.accepted.map Extent.phyBlk).Nodup := by
  rw [collectExtents_eq] at run
  have filed := (walk_filed _ (start_between cfg) run).2.2
  have accepted : (Machine.start cfg).accepted = [] := rfl
  rw [accepted, List.map_nil, List.nil_append] at filed
  rw [← filed, List.map_map] at apart
  exact apart

end Walks

def twoFiles : Listing :=
  .cons dataFile (.cons (.file (oneExtentFile [99] ⟨0, 12288, 4096, fiemapExtentLast⟩ (by decide)))
    .nil)

def twoFilesSwapped : Listing :=
  .cons (.file (oneExtentFile [99] ⟨0, 12288, 4096, fiemapExtentLast⟩ (by decide)))
    (.cons dataFile .nil)

theorem twoFiles_reordered : Reordered twoFiles twoFilesSwapped :=
  .swap _ _ .nil

theorem twoFiles_readable : ∀ v ∈ twoFiles.visits [47], v.Readable warmConfig := by
  have here : ∀ sector : UInt64, sector.toNat < 128 →
      getZoneNumber warmConfig (sector <<< warmConfig.znsSectorShift.toUInt64) = .ok 0 →
      fsInfoInitialize warmConfig.fsManager (warmConfig.segmentId sector).toUInt32 =
          .ok ⟨0, .cursegWarmData, 512⟩ →
      OnDevice warmConfig (fullZones warmConfig) 2 sector :=
    fun sector _ zone listed => ⟨⟨0, zone, by decide, by rintro ⟨⟩⟩, fun _ => ⟨_, listed⟩⟩
  intro v visited
  simp only [twoFiles, Listing.visits, DirEntry.visits, dataFile, List.cons_append,
    List.nil_append, List.mem_cons, List.not_mem_nil, or_false] at visited
  rcases visited with rfl | rfl
  · exact oneExtent_readable _ _ _ _ (.inr (here 16 (by decide) (by decide) (by decide)))
  · exact oneExtent_readable _ _ _ _ (.inr (here 24 (by decide) (by decide) (by decide)))

theorem twoFiles_mapped :
    (∃ m, collectExtents warmConfig (fun _ => FileCounter.zero) [47] twoFiles
      (Machine.start warmConfig) = .ok m) ∧
    ∃ n, collectExtents warmConfig (fun _ => FileCounter.zero) [47] twoFilesSwapped
      (Machine.start warmConfig) = .ok n := by
  have swapped := twoFiles_reordered.visits [47]
  rw [collectExtents_eq, collectExtents_eq,
    walk_exists_iff _ _ (start_between warmConfig) (by decide),
    walk_exists_iff _ _ (start_between warmConfig) (by decide)]
  refine ⟨⟨twoFiles_readable, .inr (by decide)⟩, fun v visited => ?_, .inr (by decide)⟩
  exact twoFiles_readable v (swapped.mem_iff.mpr visited)

-- What zns.segmap prints, up to the order of the files in the statistics.
inductive SamePrinted : SegmapOutput → SegmapOutput → Prop
  | nothing : SamePrinted .nothing .nothing
  | segments {lines : List Line} {stats others : List StatsLine} (perm : stats.Perm others) :
      SamePrinted (.segments lines stats) (.segments lines others)
  | extents (report : FiemapReport) : SamePrinted (.extents report) (.extents report)
  | document : SamePrinted .document .document

/-- The order in which the entries of a directory are listed does not show in what zns.segmap
prints of it, whatever the options: on both file systems it ends alike, with the same lines. Only
the files' statistics come in another order. -/
theorem segmap_of_any_order (opts : SegmapOptions) (fs : Option SetUp.FileSystem) (cfg : Config)
    (heap other : Nat → FileCounter) (path : CString) (listing listed : Listing)
    (reordered : Reordered listing listed)
    (few : ((listing.visits path).map Visit.asked).sum < 2 ^ 32)
    (apart : (((listing.visits path).flatMap (Visit.filings cfg)).map Filing.phyBlk).Nodup)
    (m n : Machine) (run : collectExtents cfg heap path listing (Machine.start cfg) = .ok m)
    (rerun : collectExtents cfg other path listed (Machine.start cfg) = .ok n) (dev : Device)
    (fuel : Nat → Nat) :
    Together SamePrinted
      (znsSegmapReport opts fs (.dir path true listing) dev (fun extents => fuel extents.length)
        cfg m)
      (znsSegmapReport opts fs (.dir path true listed) dev (fun extents => fuel extents.length)
        cfg n) := by
  have rearranged := rearranged_of_reordered reordered few run rerun
  have distinct := accepted_apart apart run
  have content := congrArg ZoneMap.extentCtr (rearranged.zonemap distinct)
  have count : m.ctrl.zonemap.extentCtr = n.ctrl.zonemap.extentCtr := content
  have isdir : ∀ entries, (Source.dir path true entries).isdir = true := fun _ => rfl
  unfold znsSegmapReport
  rw [count, isdir, isdir]
  split
  · exact .ended (.ok .nothing)
  · cases fs with
    | none => exact .ended (.ok .nothing)
    | some fs =>
      cases fs with
      | other => exact .ended (.ok .nothing)
      | btrfs calls =>
        dsimp only
        rw [printFiemapReport_same rearranged distinct]
        cases printFiemapReport cfg dev opts.holes n.ctrl.zonemap with
        | error abort => exact .ended (.error abort)
        | ok report => exact .ended (.ok (.extents report))
      | f2fs calls =>
        dsimp only
        split
        · exact .ended (.ok .document)
        · refine (showSegmentReport_same cfg dev fuel rearranged distinct).map fun _ _ both => ?_
          cases both with
          | error abort => exact .error abort
          | @ok first second same =>
            obtain ⟨lines, stats⟩ := first
            obtain ⟨others, listed⟩ := second
            obtain ⟨rfl, perm⟩ := same
            exact .ok (.segments perm)

theorem segmap_of_two_files : ∃ m n,
    collectExtents warmConfig (fun _ => FileCounter.zero) [47] twoFiles (Machine.start warmConfig) =
      .ok m ∧
    collectExtents warmConfig (fun _ => FileCounter.zero) [47] twoFilesSwapped
      (Machine.start warmConfig) = .ok n ∧
    ∀ opts fs, Together SamePrinted
      (znsSegmapReport opts fs (.dir [47] true twoFiles) (fullZones warmConfig)
        (fun extents => extents.length) warmConfig m)
      (znsSegmapReport opts fs (.dir [47] true twoFilesSwapped) (fullZones warmConfig)
        (fun extents => extents.length) warmConfig n) := by
  obtain ⟨⟨m, run⟩, n, rerun⟩ := twoFiles_mapped
  exact ⟨m, n, run, rerun, fun opts fs => segmap_of_any_order opts fs warmConfig _ _ [47] _ _
    twoFiles_reordered (by decide) (by decide) m n run rerun (fullZones warmConfig) id⟩

/-- Nor does it show in the JSON document. -/
theorem document_of_any_order (cfg : Config) (heap other : Nat → FileCounter) (path : CString)
    (listing listed : Listing) (reordered : Reordered listing listed)
    (few : ((listing.visits path).map Visit.asked).sum < 2 ^ 32)
    (apart : (((listing.visits path).flatMap (Visit.filings cfg)).map Filing.phyBlk).Nodup)
    (m n : Machine) (run : collectExtents cfg heap path listing (Machine.start cfg) = .ok m)
    (rerun : collectExtents cfg other path listed (Machine.start cfg) = .ok n) (dev : Device)
    (fuel : Nat → Nat) (inner : Nat) :
    Together (fun first second => zonemapContent first.1.zonemap = zonemapContent second.1.zonemap)
      (jsonDumpF2fsZonemap cfg dev (fun extents => fuel extents.length) inner m.ctrl)
      (jsonDumpF2fsZonemap cfg dev (fun extents => fuel extents.length) inner n.ctrl) := by
  have rearranged := rearranged_of_reordered reordered few run rerun
  have both := @jsonDumpF2fsZonemap_same cfg m n dev fuel inner rearranged
    (accepted_apart apart run)
  generalize jsonDumpF2fsZonemap cfg dev (fun extents => fuel extents.length) inner m.ctrl = first
    at both ⊢
  generalize jsonDumpF2fsZonemap cfg dev (fun extents => fuel extents.length) inner n.ctrl = second
    at both ⊢
  cases both with
  | running => exact .running
  | ended both => exact .ended (both.imp fun _ _ same => same.1.zonemap)

theorem document_of_two_files : ∃ m n,
    collectExtents warmConfig (fun _ => FileCounter.zero) [47] twoFiles (Machine.start warmConfig) =
      .ok m ∧
    collectExtents warmConfig (fun _ => FileCounter.zero) [47] twoFilesSwapped
      (Machine.start warmConfig) = .ok n ∧
    Together (fun first second => zonemapContent first.1.zonemap = zonemapContent second.1.zonemap)
      (jsonDumpF2fsZonemap warmConfig (fullZones warmConfig) (fun extents => extents.length) 1
        m.ctrl)
      (jsonDumpF2fsZonemap warmConfig (fullZones warmConfig) (fun extents => extents.length) 1
        n.ctrl) := by
  obtain ⟨⟨m, run⟩, n, rerun⟩ := twoFiles_mapped
  exact ⟨m, n, run, rerun, document_of_any_order warmConfig _ _ [47] _ _ twoFiles_reordered
    (by decide) (by decide) m n run rerun (fullZones warmConfig) id 1⟩

end ZnsTools
