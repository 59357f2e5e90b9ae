import ZnsTools.DirectoryWalk
import ZnsTools.ExtentCounts

set_option autoImplicit false

namespace ZnsTools

def Visit.Readable (cfg : Config) : Visit → Prop
  | .closedDir => False
  | .file _ entry =>
    match entry.access with
    | .deleted => True
    | .denied => False
    | .opened => ∀ answer ∈ entry.answers.all, Answerable cfg cfg.znsdev.nrZones.toNat answer

def firstFileAccepted (cfg : Config) : List Visit → Bool
  | [] => true
  | .closedDir :: rest => firstFileAccepted cfg rest
  | .file _ file :: rest =>
    if file.access = .opened then acceptedCount cfg file.answers.all != 0
    else firstFileAccepted cfg rest

def Visit.filings (cfg : Config) : Visit → List Filing
  | .closedDir => []
  | .file filename entry =>
    if entry.access = .opened then ZnsTools.filings cfg filename 0 entry.answers.all else []

def Visit.asked : Visit → Nat
  | .closedDir => 0
  | .file _ entry => entry.answers.all.length

def extentCountOf (ctrl : Control) (file : CString) : UInt32 :=
  match ctrl.fileCounterMap with
  | none => 0
  | some counters => getFileExtentCount counters file

/-- The same extents in every zone, and the same count for every file. -/
structure SameCollection (a b : Control) : Prop where
  zones : ∀ (index : Nat) (zone other : Zone), a.zonemap.zones[index]? = some zone →
    b.zonemap.zones[index]? = some other →
      (zone.extents.map Extent.filing).Perm (other.extents.map Extent.filing)
  counts : ∀ file, extentCountOf a file = extentCountOf b file

structure OrderIndependent (run other : Except Abort Machine) : Prop where
  completes : (∃ m, run = .ok m) ↔ ∃ m, other = .ok m
  same : ∀ m n, run = .ok m → other = .ok n → SameCollection m.ctrl n.ctrl

structure Between (cfg : Config) (m : Machine) : Prop where
  idle : m.call = none
  unfailed : m.failed = false
  zones : m.ctrl.zonemap.zones.length = cfg.znsdev.nrZones.toNat
  consistent : m.accepted.length < 2 ^ 32 → m.ctrl.zonemap.Consistent m.accepted
  filed : m.opened < 2 ^ 32 → m.Filed ∧ m.Counted

theorem start_between (cfg : Config) : Between cfg (Machine.start cfg) where
  idle := rfl
  unfailed := rfl
  zones := by simp [Machine.start, initControl, initZoneMap]
  consistent _ := initZoneMap_consistent cfg.znsdev.nrZones
  filed _ := ⟨start_filed cfg, start_counted cfg⟩

section Map

variable {cfg : Config} {heap : Nat → FileCounter} {filename : CString} {file : FileEntry}
  {m next : Machine}

theorem collectFile_ok_iff (opened : file.access = .opened) :
    collectFile cfg heap filename file m = .ok next ↔
      (file.call filename (heap m.opened)).events.foldlM (step cfg) m = .ok next ∧
        next.failed = false ∧ next.ctrl.zonemap.extentCtr ≠ 0 := by
  rw [collectFile, opened]
  constructor
  · intro done
    have ⟨mapped, run, checked⟩ := Runs.bind_ok done
    split at checked
    · cases checked
    · next success =>
      split at checked
      · cases checked
      · next nonempty =>
        cases checked
        exact ⟨run, by simpa using success, nonempty⟩
  · intro ⟨run, unfailed, nonempty⟩
    simp [run, Runs.ok_bind, unfailed, nonempty]

theorem collectFile_ok (between : Between cfg m) (opened : file.access = .opened)
    (done : collectFile cfg heap filename file m = .ok next) :
    Between cfg next ∧ next.opened = m.opened + 1 ∧ next.ctrl.zonemap.extentCtr ≠ 0 ∧
      ∃ new, next.accepted = m.accepted ++ new ∧
        new.map Extent.filing = filings cfg filename 0 file.answers.all := by
  have ⟨run, unfailed, nonempty⟩ := (collectFile_ok_iff opened).mp done
  have effect := file_mapped between.idle run
  have ⟨new, grown, own, _⟩ := effect.filed
  exact ⟨⟨effect.idle, unfailed, effect.zones.trans between.zones,
    events_consistent run between.consistent, events_filed run unfailed between.filed⟩,
    effect.opened, nonempty, new, grown, own⟩

theorem accepted_length {answers : List (Device × FiemapReply)} {new : List Extent}
    (grown : next.accepted = m.accepted ++ new)
    (own : new.map Extent.filing = filings cfg filename 0 answers) :
    next.accepted.length = m.accepted.length + acceptedCount cfg answers := by
  rw [grown, List.length_append, ← length_filings cfg filename 0, ← own, List.length_map]

theorem extentCtr_eq_zero_iff (between : Between cfg m)
    (few : m.accepted.length + acceptedCount cfg file.answers.all < 2 ^ 32)
    (run : (file.call filename (heap m.opened)).events.foldlM (step cfg) m = .ok next) :
    next.ctrl.zonemap.extentCtr = 0 ↔
      m.accepted = [] ∧ acceptedCount cfg file.answers.all = 0 := by
  have ⟨new, grown, own, _⟩ := (file_mapped between.idle run).filed
  have total : next.accepted.length = m.accepted.length + acceptedCount cfg file.answers.all :=
    accepted_length grown own
  have consistent := events_consistent run between.consistent (by omega)
  rw [consistent.extentCtr_eq_zero_iff, ← List.length_eq_zero_iff, total,
    ← List.length_eq_zero_iff]
  omega

theorem collectFile_exists_iff (heap : Nat → FileCounter) (filename : CString)
    (between : Between cfg m) (opened : file.access = .opened)
    (few : m.accepted.length + acceptedCount cfg file.answers.all < 2 ^ 32) :
    (∃ next, collectFile cfg heap filename file m = .ok next) ↔
      (∀ answer ∈ file.answers.all, Answerable cfg cfg.znsdev.nrZones.toNat answer) ∧
        (m.accepted ≠ [] ∨ acceptedCount cfg file.answers.all ≠ 0) := by
  have calls : (∃ next,
      (file.call filename (heap m.opened)).events.foldlM (step cfg) m = .ok next) ↔ _ :=
    file_exists_iff between.idle
  rw [between.zones] at calls
  have last : file.answers.final.2 = .ioctlFailed →
      ¬ Answerable cfg cfg.znsdev.nrZones.toNat file.answers.final := by
    rintro failed ⟨n, fm, mapped, _⟩
    rw [failed] at mapped
    cases mapped
  rw [FileAnswers.all, List.forall_mem_append, List.forall_mem_singleton]
  constructor
  · rintro ⟨next, done⟩
    obtain ⟨run, unfailed, nonempty⟩ := (collectFile_ok_iff opened).mp done
    obtain ⟨front, final⟩ := calls.mp ⟨next, run⟩
    have ended := (file_mapped between.idle run).ended
    rw [unfailed] at ended
    have good := final.resolve_left (ended.resolve_left (by simp)).1
    have some_extent := mt (extentCtr_eq_zero_iff between few run).mpr nonempty
    exact ⟨⟨front, good⟩, not_and_or.mp some_extent⟩
  · rintro ⟨answerable, some_extent⟩
    obtain ⟨next, run⟩ := calls.mpr ⟨answerable.1, .inr answerable.2⟩
    have unfailed : next.failed = false := by
      rcases (file_mapped between.idle run).ended with ⟨failed, _⟩ | ⟨_, same, _⟩
      · exact absurd answerable.2 (last failed)
      · rw [same, between.unfailed]
    have nonempty := mt (extentCtr_eq_zero_iff between few run).mp (not_and_or.mpr some_extent)
    exact ⟨next, (collectFile_ok_iff opened).mpr ⟨run, unfailed, nonempty⟩⟩

end Map

section Walk

variable {cfg : Config} {heap : Nat → FileCounter}

theorem acceptedCount_le (cfg : Config) (answers : List (Device × FiemapReply)) :
    acceptedCount cfg answers ≤ answers.length :=
  List.countP_le_length

/-- A walk completes exactly when every visit is readable and, unless something was accepted
before, the first file mapped has an extent that is. -/
theorem walk_exists_iff (heap : Nat → FileCounter) (visits : List Visit) {m : Machine}
    (between : Between cfg m)
    (few : m.accepted.length + (visits.map Visit.asked).sum < 2 ^ 32) :
    (∃ last, visits.foldlM (visit cfg heap) m = .ok last) ↔
      (∀ v ∈ visits, v.Readable cfg) ∧
        (m.accepted ≠ [] ∨ firstFileAccepted cfg visits = true) := by
  induction visits generalizing m with
  | nil => simp [firstFileAccepted, pure, Except.pure]
  | cons v rest ih =>
    rw [List.map_cons, List.sum_cons] at few
    cases v with
    | closedDir => simp [List.foldlM_cons, visit, Visit.Readable, bind, Except.bind]
    | file filename file =>
      cases access : file.access with
      | deleted =>
        have skipped : visit cfg heap m (.file filename file) = .ok m := by
          simp [visit, collectFile, access]
        rw [List.foldlM_cons, skipped, Runs.ok_bind, ih between (by omega)]
        simp [Visit.Readable, access, firstFileAccepted]
      | denied =>
        have refused : visit cfg heap m (.file filename file) = .error .exitFailure := by
          simp [visit, collectFile, access]
        rw [List.foldlM_cons, refused]
        simp [Visit.Readable, access, bind, Except.bind]
      | opened =>
        have bound := acceptedCount_le cfg file.answers.all
        rw [Visit.asked] at few
        have here := collectFile_exists_iff heap filename between access (by omega)
        have split : (∃ last, (Visit.file filename file :: rest).foldlM (visit cfg heap) m =
            .ok last) ↔ ∃ next, collectFile cfg heap filename file m = .ok next ∧
              ∃ last, rest.foldlM (visit cfg heap) next = .ok last := Runs.foldlM_cons_exists
        have later : ∀ next, collectFile cfg heap filename file m = .ok next →
            ((∃ last, rest.foldlM (visit cfg heap) next = .ok last) ↔
              ∀ v ∈ rest, v.Readable cfg) := by
          intro next done
          have ⟨after, _, nonempty, new, grown, own⟩ := collectFile_ok between access done
          have total := accepted_length grown own
          have consistent := after.consistent (by omega)
          have some_extent := mt consistent.extentCtr_eq_zero_iff.mpr nonempty
          rw [ih after (by omega)]
          simp [some_extent]
        rw [split, List.forall_mem_cons]
        simp only [Visit.Readable, access, firstFileAccepted, if_true, bne_iff_ne]
        constructor
        · intro ⟨next, done, others⟩
          have ⟨own, some_extent⟩ := here.mp ⟨next, done⟩
          exact ⟨⟨own, (later next done).mp others⟩, some_extent⟩
        · intro ⟨⟨own, others⟩, some_extent⟩
          have ⟨next, done⟩ := here.mpr ⟨own, some_extent⟩
          exact ⟨next, done, (later next done).mpr others⟩

theorem walk_filed (visits : List Visit) {m last : Machine} (between : Between cfg m)
    (done : visits.foldlM (visit cfg heap) m = .ok last) :
    Between cfg last ∧ last.opened ≤ m.opened + (visits.map Visit.asked).sum ∧
      last.accepted.map Extent.filing =
        m.accepted.map Extent.filing ++ visits.flatMap (Visit.filings cfg) := by
  induction visits generalizing m with
  | nil =>
    cases done
    exact ⟨between, Nat.le_refl _, by simp⟩
  | cons v rest ih =>
    rw [List.foldlM_cons] at done
    have ⟨middle, first, later⟩ := Runs.bind_ok done
    rw [List.map_cons, List.sum_cons]
    cases v with
    | closedDir => cases first
    | file filename file =>
      cases access : file.access with
      | denied => simp [visit, collectFile, access] at first
      | deleted =>
        have same : m = middle := by simpa [visit, collectFile, access] using first
        subst same
        have ⟨after, opened, filed⟩ := ih between later
        refine ⟨after, by omega, ?_⟩
        rw [filed]
        simp [Visit.filings, access]
      | opened =>
        have ⟨after, called, _, new, grown, own⟩ := collectFile_ok between access first
        have ⟨ends, opened, filed⟩ := ih after later
        have one : 1 ≤ (Visit.file filename file).asked := by
          simp [Visit.asked, FileAnswers.all]
        refine ⟨ends, by omega, ?_⟩
        rw [filed, grown, List.map_append, own, List.flatMap_cons, List.append_assoc]
        simp [Visit.filings, access]

end Walk

theorem zone_extents_perm {zonemap : ZoneMap} {accepted : List Extent}
    (consistent : zonemap.Consistent accepted) {index : Nat} {zone : Zone}
    (found : zonemap.zones[index]? = some zone) :
    zone.extents.Perm (accepted.filter fun e => e.zone.toNat == index) := by
  rw [← Buckets.filter_bucket Zone.extents (fun e => e.zone.toNat) found consistent.filed]
  exact consistent.complete.filter _

theorem same_collection {cfg : Config} {m n : Machine} (first : Between cfg m)
    (second : Between cfg n) (filed : (m.accepted.map Extent.filing).Perm
      (n.accepted.map Extent.filing))
    (few : m.accepted.length < 2 ^ 32) (called : m.opened < 2 ^ 32) (others : n.opened < 2 ^ 32) :
    SameCollection m.ctrl n.ctrl := by
  have length : m.accepted.length = n.accepted.length := by simpa using filed.length_eq
  constructor
  · intro index zone other here there
    have own := (zone_extents_perm (first.consistent few) here).map Extent.filing
    have its := (zone_extents_perm (second.consistent (by omega)) there).map Extent.filing
    have select : ∀ extents : List Extent,
        (extents.filter fun e => e.zone.toNat == index).map Extent.filing =
          (extents.map Extent.filing).filter fun filing => filing.zone.toNat == index := by
      intro extents
      rw [List.filter_map]
      rfl
    rw [select] at own its
    exact own.trans ((filed.filter _).trans its.symm)
  · intro file
    have count : ∀ extents : List Extent, (extents.countP fun e => e.file == file) =
        (extents.map Extent.filing).countP fun filing => filing.file == file := by
      intro extents
      rw [List.countP_map]
      rfl
    have counted : ∀ {k : Machine}, Between cfg k → k.opened < 2 ^ 32 →
        extentCountOf k.ctrl file =
          UInt32.ofNat
            ((k.accepted.map Extent.filing).countP fun filing => filing.file == file) := by
      intro k between small
      have ⟨_, started, counts⟩ := between.filed small
      rw [← count, extentCountOf]
      cases map : k.ctrl.fileCounterMap with
      | none => simp [started map]
      | some counters => exact counts counters map file
    rw [counted first called, counted second others, filed.countP_eq]

theorem length_filings_le (cfg : Config) (visits : List Visit) :
    (visits.flatMap (Visit.filings cfg)).length ≤ (visits.map Visit.asked).sum := by
  induction visits with
  | nil => exact Nat.le_refl _
  | cons v rest ih =>
    have own : (v.filings cfg).length ≤ v.asked := by
      cases v with
      | closedDir => exact Nat.le_refl _
      | file filename file =>
        rw [Visit.filings, Visit.asked]
        split
        · rw [length_filings]
          exact acceptedCount_le cfg file.answers.all
        · exact Nat.zero_le _
    rw [List.flatMap_cons, List.length_append, List.map_cons, List.sum_cons]
    exact Nat.add_le_add own ih

theorem walk_same {cfg : Config} {heap other : Nat → FileCounter} {visits others : List Visit}
    (reordered : visits.Perm others) {m n : Machine}
    (done : visits.foldlM (visit cfg heap) (Machine.start cfg) = .ok m)
    (completed : others.foldlM (visit cfg other) (Machine.start cfg) = .ok n)
    (few : (visits.map Visit.asked).sum < 2 ^ 32) : SameCollection m.ctrl n.ctrl := by
  have ⟨first, called, filed⟩ := walk_filed visits (start_between cfg) done
  have ⟨second, opened, entered⟩ := walk_filed others (start_between cfg) completed
  have asked := (reordered.map Visit.asked).sum_eq
  have none_yet : (Machine.start cfg).accepted = [] ∧ (Machine.start cfg).opened = 0 := ⟨rfl, rfl⟩
  rw [none_yet.1, List.map_nil, List.nil_append] at filed entered
  rw [none_yet.2] at called opened
  have short : m.accepted.length ≤ (visits.map Visit.asked).sum := by
    rw [← List.length_map (f := Extent.filing), filed]
    exact length_filings_le cfg visits
  have perm : (m.accepted.map Extent.filing).Perm (n.accepted.map Extent.filing) := by
    rw [filed, entered]
    exact reordered.flatMap_right _
  exact same_collection first second perm (by omega) (by omega) (by omega)

/-- Two listings of a directory give the same collection exactly when some file cannot be mapped,
or the files that the walks map first agree on having an extent that is accepted. -/
theorem collection_order_iff (cfg : Config) (heap other : Nat → FileCounter) (dir : CString)
    (listing listed : Listing) (reordered : Reordered listing listed)
    (few : ((listing.visits dir).map Visit.asked).sum < 2 ^ 32) :
    OrderIndependent (collectExtents cfg heap dir listing (Machine.start cfg))
        (collectExtents cfg other dir listed (Machine.start cfg)) ↔
      (∃ v ∈ listing.visits dir, ¬ v.Readable cfg) ∨
        firstFileAccepted cfg (listing.visits dir) = firstFileAccepted cfg (listed.visits dir) := by
  have visits := reordered.visits dir
  have asked := (visits.map Visit.asked).sum_eq
  have start := start_between cfg
  have none_yet : (Machine.start cfg).accepted = [] := rfl
  have completes := walk_exists_iff heap (listing.visits dir) start
    (by rw [none_yet]; simpa using few)
  have completed := walk_exists_iff other (listed.visits dir) start
    (by rw [none_yet, ← asked]; simpa using few)
  have readable : (∀ v ∈ listed.visits dir, v.Readable cfg) ↔
      ∀ v ∈ listing.visits dir, v.Readable cfg :=
    ⟨fun all v inside => all v (visits.mem_iff.mp inside),
      fun all v inside => all v (visits.mem_iff.mpr inside)⟩
  simp only [none_yet, ne_eq, not_true_eq_false, false_or] at completes completed
  rw [readable] at completed
  rw [collectExtents_eq, collectExtents_eq]
  constructor
  · intro independent
    have same := independent.completes
    rw [completes, completed] at same
    by_cases all : ∀ v ∈ listing.visits dir, v.Readable cfg
    · refine .inr (Bool.eq_iff_iff.mpr ?_)
      rw [and_iff_right all, and_iff_right all] at same
      exact same
    · refine .inl ?_
      have ⟨v, fails⟩ := not_forall.mp all
      exact ⟨v, Classical.not_imp.mp fails⟩
  · intro condition
    constructor
    · rw [completes, completed]
      rcases condition with ⟨v, inside, unreadable⟩ | same
      · have some_unreadable : ¬ ∀ v ∈ listing.visits dir, v.Readable cfg :=
          fun all => unreadable (all v inside)
        simp [some_unreadable]
      · rw [same]
    · intro m n done finished
      exact walk_same visits done finished few

def oneExtentFile (name : CString) (fm : FiemapExtent) (last : fm.feFlags &&& 1 ≠ 0) :
    FileEntry where
  name := name
  access := .opened
  stBlocks := 8
  answers :=
    { front := []
      final := (fullZones warmConfig, .mapped 1 fm)
      goesOn := none_before
      ends := by simpa [FiemapReply.ends, fiemapExtentLast] using last }

theorem oneExtent_readable (filename name : CString) (fm : FiemapExtent)
    (last : fm.feFlags &&& 1 ≠ 0) (fileable : Fileable warmConfig (fullZones warmConfig) 2 fm) :
    (Visit.file filename (oneExtentFile name fm last)).Readable warmConfig := by
  intro answer given
  cases List.mem_singleton.mp given
  exact ⟨1, fm, rfl, by decide, fileable⟩

def inlinedFile : DirEntry :=
  .file (oneExtentFile [97] ⟨0, 4096, 100, fiemapExtentDataInline ||| fiemapExtentLast⟩ (by decide))

def dataFile : DirEntry :=
  .file (oneExtentFile [98] ⟨0, 8192, 4096, fiemapExtentLast⟩ (by decide))

-- Listed first, a file with all its data inlined ends the tool.
theorem inlined_file_listed_first :
    Reordered (.cons inlinedFile (.cons dataFile .nil)) (.cons dataFile (.cons inlinedFile .nil)) ∧
      ¬ OrderIndependent
        (collectExtents warmConfig (fun _ => FileCounter.zero) [47]
          (.cons inlinedFile (.cons dataFile .nil)) (Machine.start warmConfig))
        (collectExtents warmConfig (fun _ => FileCounter.zero) [47]
          (.cons dataFile (.cons inlinedFile .nil)) (Machine.start warmConfig)) := by
  have ends : ¬ ∃ m, collectExtents warmConfig (fun _ => FileCounter.zero) [47]
      (.cons inlinedFile (.cons dataFile .nil)) (Machine.start warmConfig) = .ok m := by
    rw [collectExtents_eq, walk_exists_iff _ _ (start_between warmConfig) (by decide)]
    intro ⟨_, accepted⟩
    exact absurd (accepted.resolve_left (not_not_intro rfl)) (by decide)
  have completes : ∃ m, collectExtents warmConfig (fun _ => FileCounter.zero) [47]
      (.cons dataFile (.cons inlinedFile .nil)) (Machine.start warmConfig) = .ok m := by
    rw [collectExtents_eq, walk_exists_iff _ _ (start_between warmConfig) (by decide)]
    refine ⟨?_, .inr (by decide)⟩
    intro v visited
    simp only [Listing.visits, DirEntry.visits, dataFile, inlinedFile, List.cons_append,
      List.nil_append, List.mem_cons, List.not_mem_nil, or_false] at visited
    rcases visited with rfl | rfl
    · have zone : getZoneNumber warmConfig (16 <<< warmConfig.znsSectorShift.toUInt64) = .ok 0 := by
        decide
      have listed : fsInfoInitialize warmConfig.fsManager (warmConfig.segmentId 16).toUInt32 =
          .ok ⟨0, .cursegWarmData, 512⟩ := by
        decide
      exact oneExtent_readable _ _ _ _
        (.inr ⟨⟨0, zone, by decide, by rintro ⟨⟩⟩, fun _ => ⟨_, listed⟩⟩)
    · exact oneExtent_readable _ _ _ _ (.inl (by decide))
  refine ⟨.swap inlinedFile dataFile .nil, fun independent => ends ?_⟩
  exact independent.completes.mpr completes

theorem data_files_in_any_order :
    OrderIndependent
      (collectExtents warmConfig (fun _ => FileCounter.zero) [47]
        (.cons dataFile (.cons (.dir [99] true (.cons dataFile .nil)) .nil))
        (Machine.start warmConfig))
      (collectExtents warmConfig (fun _ => FileCounter.zero) [47]
        (.cons (.dir [99] true (.cons dataFile .nil)) (.cons dataFile .nil))
        (Machine.start warmConfig)) :=
  (collection_order_iff warmConfig _ _ [47] _ _
    (.swap dataFile (.dir [99] true (.cons dataFile .nil)) .nil) (by decide)).mpr (.inr (by decide))

end ZnsTools
