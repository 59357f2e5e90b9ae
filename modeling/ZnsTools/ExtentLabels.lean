import ZnsTools.ExtentCounts

set_option autoImplicit false

namespace ZnsTools

def callEvents (calls : List FileCall) : List Event :=
  calls.flatMap FileCall.events

def ledger (cfg : Config) : Nat → List FileCall → List (Nat × Filing)
  | _, [] => []
  | id, file :: rest =>
    (filings cfg file.filename 0 file.answers.all).map (id, ·) ++ ledger cfg (id + 1) rest

def Extent.entry (e : Extent) : Nat × Filing :=
  (e.fileID.toNat, e.filing)

def filedNames (cfg : Config) (calls : List FileCall) : List CString :=
  (calls.filter fun file => acceptedCount cfg file.answers.all != 0).map
    fun file => file.filename.take (maxFileLength - 1)

/-- What `EXTID i/n` says of an extent: the count of its file is that of the extents of its call,
and these are numbered from 0 on, each once. -/
structure Labelled (ctrl : Control) (e : Extent) : Prop where
  count : ∃ counters, ctrl.fileCounterMap = some counters ∧
    (getFileExtentCount counters e.file).toNat =
      ctrl.zonemap.extents.countP fun other => other.fileID == e.fileID
  numbers : ((ctrl.zonemap.extents.filter fun other => other.fileID == e.fileID).map
    (·.extNr.toNat)).Perm
      (List.range (ctrl.zonemap.extents.countP fun other => other.fileID == e.fileID))

section Ledger

variable {cfg : Config}

theorem ledger_ids (calls : List FileCall) (id : Nat) :
    ∀ entry ∈ ledger cfg id calls, id ≤ entry.1 ∧ entry.1 < id + calls.length := by
  induction calls generalizing id with
  | nil => simp [ledger]
  | cons file rest ih =>
    intro entry inside
    rcases List.mem_append.mp inside with own | later
    · have ⟨filing, _, same⟩ := List.mem_map.mp own
      rw [← same, List.length_cons]
      omega
    · have := ih (id + 1) entry later
      rw [List.length_cons]
      omega

theorem ledger_names (calls : List FileCall) (id : Nat) (name : CString) :
    (∃ entry ∈ ledger cfg id calls, entry.2.file = name) ↔ name ∈ filedNames cfg calls := by
  induction calls generalizing id with
  | nil => simp [ledger, filedNames]
  | cons file rest ih =>
    have own : (∃ entry ∈ (filings cfg file.filename 0 file.answers.all).map (id, ·),
        entry.2.file = name) ↔
          acceptedCount cfg file.answers.all ≠ 0 ∧
            file.filename.take (maxFileLength - 1) = name := by
      rw [← length_filings cfg file.filename 0, Ne, List.length_eq_zero_iff]
      have named := filings_file cfg file.filename 0 file.answers.all
      cases list : filings cfg file.filename 0 file.answers.all with
      | nil => simp
      | cons first others =>
        rw [list] at named
        constructor
        · intro ⟨entry, inside, same⟩
          have ⟨filing, listed, equal⟩ := List.mem_map.mp inside
          rw [← equal, named filing listed] at same
          exact ⟨by simp, same⟩
        · intro ⟨_, same⟩
          exact ⟨(id, first), by simp, by rw [named first (by simp), same]⟩
    have split : (∃ entry ∈ ledger cfg id (file :: rest), entry.2.file = name) ↔
        (∃ entry ∈ (filings cfg file.filename 0 file.answers.all).map (id, ·),
          entry.2.file = name) ∨ ∃ entry ∈ ledger cfg (id + 1) rest, entry.2.file = name := by
      simp only [ledger, List.mem_append, or_and_right, exists_or]
    rw [split, own, ih (id + 1), filedNames, filedNames, List.filter_cons]
    by_cases files : acceptedCount cfg file.answers.all = 0
    · simp [files]
    · simp [files, @eq_comm _ name]

theorem ledger_own {file : FileCall} {id : Nat} {entry : Nat × Filing}
    (own : entry ∈ (filings cfg file.filename 0 file.answers.all).map (id, ·)) :
    entry.1 = id ∧ entry.2.file = file.filename.take (maxFileLength - 1) ∧
      acceptedCount cfg file.answers.all ≠ 0 := by
  have ⟨filing, listed, same⟩ := List.mem_map.mp own
  subst same
  refine ⟨rfl, filings_file cfg file.filename 0 file.answers.all filing listed, ?_⟩
  rw [← length_filings cfg file.filename 0]
  exact Nat.ne_of_gt (List.length_pos_of_mem listed)

theorem ledger_distinct_iff (calls : List FileCall) (id : Nat) :
    (∀ a ∈ ledger cfg id calls, ∀ b ∈ ledger cfg id calls, b.2.file = a.2.file → b.1 = a.1) ↔
      (filedNames cfg calls).Nodup := by
  induction calls generalizing id with
  | nil => simp [ledger, filedNames]
  | cons file rest ih =>
    have names : filedNames cfg (file :: rest) =
        if acceptedCount cfg file.answers.all = 0 then filedNames cfg rest
        else file.filename.take (maxFileLength - 1) :: filedNames cfg rest := by
      rw [filedNames, List.filter_cons]
      split <;> simp_all [filedNames]
    have fresh : acceptedCount cfg file.answers.all ≠ 0 → (filedNames cfg (file :: rest)).Nodup →
        ∀ entry ∈ ledger cfg (id + 1) rest,
          entry.2.file ≠ file.filename.take (maxFileLength - 1) := by
      intro files nodup entry later same
      rw [names, if_neg files, List.nodup_cons] at nodup
      exact nodup.1 ((ledger_names rest (id + 1) _).mp ⟨entry, later, same⟩)
    constructor
    · intro apart
      have tail := (ih (id + 1)).mp fun a inside b member =>
        apart a (List.mem_append_right _ inside) b (List.mem_append_right _ member)
      rw [names]
      split
      · exact tail
      · next files =>
        refine List.nodup_cons.mpr ⟨fun taken => ?_, tail⟩
        have ⟨other, later, same⟩ := (ledger_names rest (id + 1) _).mpr taken
        rw [← length_filings cfg file.filename 0] at files
        have ⟨filing, listed⟩ := List.exists_mem_of_length_pos (Nat.pos_of_ne_zero files)
        have own : (id, filing) ∈ (filings cfg file.filename 0 file.answers.all).map (id, ·) :=
          List.mem_map_of_mem listed
        have equal := apart (id, filing) (List.mem_append_left _ own) other
          (List.mem_append_right _ later) (by rw [same, (ledger_own own).2.1])
        have := (ledger_ids rest (id + 1) other later).1
        omega
    · intro nodup
      have tail : (filedNames cfg rest).Nodup := by
        rw [names] at nodup
        split at nodup
        · exact nodup
        · exact (List.nodup_cons.mp nodup).2
      intro a inside b member same
      rcases List.mem_append.mp inside with own | later <;>
        rcases List.mem_append.mp member with other | after
      · rw [(ledger_own own).1, (ledger_own other).1]
      · exact absurd (same.trans (ledger_own own).2.1) (fresh (ledger_own own).2.2 nodup b after)
      · exact absurd (same.symm.trans (ledger_own other).2.1)
          (fresh (ledger_own other).2.2 nodup a later)
      · exact (ih (id + 1)).mpr tail a later b after same

theorem ledger_call (calls : List FileCall) (id : Nat) {entry : Nat × Filing}
    (inside : entry ∈ ledger cfg id calls) :
    ∃ file ∈ calls, (ledger cfg id calls).filter (fun other => other.1 == entry.1) =
      (filings cfg file.filename 0 file.answers.all).map (entry.1, ·) ∧
        entry.2.file = file.filename.take (maxFileLength - 1) := by
  induction calls generalizing id with
  | nil => simp [ledger] at inside
  | cons file rest ih =>
    rcases List.mem_append.mp inside with own | later
    · have ⟨number, name, _⟩ := ledger_own own
      refine ⟨file, by simp, ?_, name⟩
      have others : (ledger cfg (id + 1) rest).filter (fun other => other.1 == entry.1) = [] := by
        rw [List.filter_eq_nil_iff]
        intro other after
        have := (ledger_ids rest (id + 1) other after).1
        simp only [beq_iff_eq]
        omega
      rw [ledger, List.filter_append, others, List.append_nil, number, List.filter_eq_self]
      intro other member
      simp [(ledger_own member).1]
    · have ⟨call, listed, filtered, name⟩ := ih (id + 1) later
      have number := (ledger_ids rest (id + 1) entry later).1
      have others : ((filings cfg file.filename 0 file.answers.all).map (id, ·)).filter
          (fun other => other.1 == entry.1) = [] := by
        rw [List.filter_eq_nil_iff]
        intro other member
        rw [(ledger_own member).1, beq_iff_eq]
        omega
      refine ⟨call, by simp [listed], ?_, name⟩
      rw [ledger, List.filter_append, others, List.nil_append, filtered]

end Ledger

theorem calls_filed {cfg : Config} (calls : List FileCall) {m last : Machine} (idle : m.call = none)
    (run : (callEvents calls).foldlM (step cfg) m = .ok last) (finished : last.failed = false)
    (few : m.ctrl.nrFiles.toNat + calls.length < 2 ^ 32) :
    last.opened = m.opened + calls.length ∧ ∃ new, last.accepted = m.accepted ++ new ∧
      new.map Extent.entry = ledger cfg m.ctrl.nrFiles.toNat calls := by
  induction calls generalizing m with
  | nil =>
    cases run
    exact ⟨rfl, [], by simp, rfl⟩
  | cons file rest ih =>
    rw [callEvents, List.flatMap_cons, List.foldlM_append] at run
    have ⟨middle, first, later⟩ := Runs.bind_ok run
    have mapped := file_mapped idle first
    have unfailed := run_unfailed later finished
    have files : middle.ctrl.nrFiles = m.ctrl.nrFiles + 1 := by
      rcases mapped.ended with ⟨_, failed⟩ | ⟨_, _, counted⟩
      · rw [failed] at unfailed
        cases unfailed
      · exact counted
    rw [List.length_cons] at few
    have number : middle.ctrl.nrFiles.toNat = m.ctrl.nrFiles.toNat + 1 := by
      rw [files, UInt32.toNat_add, UInt32.toNat_one, Nat.mod_eq_of_lt (by omega)]
    have ⟨opened, new, grown, entries⟩ := ih mapped.idle later (by omega)
    have ⟨own, filed, exact_own, ids⟩ := mapped.filed
    refine ⟨by rw [opened, mapped.opened, List.length_cons]; omega, own ++ new,
      by rw [grown, filed, List.append_assoc], ?_⟩
    rw [List.map_append, entries, number, ledger, ← exact_own, List.map_map]
    congr 1
    refine List.map_congr_left fun e inside => ?_
    rw [Extent.entry, ids e inside]
    rfl

theorem countP_eq_iff {α : Type} {p q : α → Bool} (list : List α)
    (weaker : ∀ a ∈ list, p a = true → q a = true) :
    list.countP q = list.countP p ↔ ∀ a ∈ list, q a = true → p a = true := by
  constructor
  · intro same a inside holds
    by_contra fails
    have ⟨front, back, split⟩ := List.append_of_mem inside
    subst split
    have before := List.countP_mono_left (l := front) fun a member => weaker a (by simp [member])
    have behind := List.countP_mono_left (l := back) fun a member => weaker a (by simp [member])
    simp only [List.countP_append, List.countP_cons, holds, fails, if_true, if_false] at same
    omega
  · intro stronger
    exact List.countP_congr fun a inside => ⟨stronger a inside, weaker a inside⟩

section Accepted

variable {cfg : Config} {calls : List FileCall} {accepted : List Extent}

theorem sameCall_iff (a b : Extent) : (a.fileID == b.fileID) = (a.entry.1 == b.entry.1) := by
  rw [Bool.eq_iff_iff, beq_iff_eq, beq_iff_eq, Extent.entry, Extent.entry, UInt32.toNat_inj]

theorem call_extents (entries : accepted.map Extent.entry = ledger cfg 0 calls) {e : Extent}
    (inside : e ∈ accepted) :
    ∃ file ∈ calls, e.file = file.filename.take (maxFileLength - 1) ∧
      (accepted.filter fun other => other.fileID == e.fileID).map Extent.entry =
        (filings cfg file.filename 0 file.answers.all).map (e.entry.1, ·) := by
  have ⟨file, listed, filtered, name⟩ := ledger_call calls 0 (entries ▸ List.mem_map_of_mem inside)
  refine ⟨file, listed, name, ?_⟩
  rw [← filtered, ← entries, List.filter_map]
  congr 2
  funext other
  exact sameCall_iff other e

theorem call_numbers (entries : accepted.map Extent.entry = ledger cfg 0 calls) {e : Extent}
    (inside : e ∈ accepted) (short : accepted.length < 2 ^ 32) :
    (accepted.filter fun other => other.fileID == e.fileID).map (·.extNr.toNat) =
      List.range (accepted.countP fun other => other.fileID == e.fileID) := by
  have ⟨file, _, _, own⟩ := call_extents entries inside
  have count : (accepted.countP fun other => other.fileID == e.fileID) =
      acceptedCount cfg file.answers.all := by
    rw [List.countP_eq_length_filter, ← List.length_map (f := Extent.entry), own, List.length_map,
      length_filings]
  have numbers : (accepted.filter fun other => other.fileID == e.fileID).map (·.extNr.toNat) =
      (filings cfg file.filename 0 file.answers.all).map (·.extNr.toNat) := by
    have mapped := congrArg (List.map fun entry : Nat × Filing => entry.2.extNr.toNat) own
    rw [List.map_map, List.map_map] at mapped
    exact mapped
  have bound : (accepted.countP fun other => other.fileID == e.fileID) ≤ accepted.length :=
    List.countP_le_length
  rw [numbers, count, List.range_eq_range']
  exact filings_extNr cfg file.filename 0 file.answers.all (by simp; omega)

theorem sameCall_sameFile (entries : accepted.map Extent.entry = ledger cfg 0 calls)
    {e other : Extent} (inside : e ∈ accepted) (member : other ∈ accepted)
    (same : (other.fileID == e.fileID) = true) : (other.file == e.file) = true := by
  have ⟨file, _, name, own⟩ := call_extents entries inside
  have listed : other.entry ∈ (accepted.filter fun other => other.fileID == e.fileID).map
      Extent.entry := List.mem_map_of_mem (List.mem_filter.mpr ⟨member, same⟩)
  rw [own] at listed
  have ⟨filing, filed, equal⟩ := List.mem_map.mp listed
  have stored := filings_file cfg file.filename 0 file.answers.all filing filed
  have named : filing.file = other.file := congrArg (fun entry : Nat × Filing => entry.2.file) equal
  rw [beq_iff_eq, ← named, stored, name]

end Accepted

/-- After any sequence of calls that return, every extent is labelled consistently exactly when no
two calls that accept extents have paths with the same first 49 bytes. -/
theorem extent_labels_iff (cfg : Config) (calls : List FileCall) (m : Machine)
    (run : collect cfg (callEvents calls) = .ok m) (finished : m.failed = false)
    (few : calls.length < 2 ^ 32) (short : m.accepted.length < 2 ^ 32) :
    (∀ e ∈ m.ctrl.zonemap.extents, Labelled m.ctrl e) ↔ (filedNames cfg calls).Nodup := by
  have start : (Machine.start cfg).ctrl.nrFiles.toNat = 0 := rfl
  obtain ⟨opened, new, grown, entries⟩ := calls_filed calls (show (Machine.start cfg).call = none from rfl)
    run finished (by rw [start]; omega)
  have all : m.accepted = new := by simpa [Machine.start] using grown
  rw [← all, start] at entries
  have complete := (collect_zonemap run short).complete
  have count_small : m.opened < 2 ^ 32 := by
    have none_opened : (Machine.start cfg).opened = 0 := rfl
    omega
  obtain ⟨started, counted⟩ := collect_counted run finished count_small
  have labelled : ∀ e ∈ m.accepted, Labelled m.ctrl e ↔
      ∀ other ∈ m.accepted, (other.file == e.file) = true → (other.fileID == e.fileID) = true := by
    intro e inside
    rw [← countP_eq_iff m.accepted fun other member => sameCall_sameFile entries inside member]
    have numbers := call_numbers entries inside short
    have bound : (m.accepted.countP fun other => other.file == e.file) ≤ m.accepted.length :=
      List.countP_le_length
    constructor
    · intro label
      obtain ⟨counters, map, count⟩ := label.count
      rw [counted counters map, UInt32.toNat_ofNat', Nat.mod_eq_of_lt (by omega),
        complete.countP_eq] at count
      exact count
    · intro same
      cases map : m.ctrl.fileCounterMap with
      | none =>
        rw [started map] at inside
        cases inside
      | some counters =>
        refine ⟨⟨counters, map, ?_⟩, ?_⟩
        · rw [counted counters map, UInt32.toNat_ofNat', Nat.mod_eq_of_lt (by omega),
            complete.countP_eq, same]
        · rw [complete.countP_eq, ← numbers]
          exact (complete.filter _).map _
  rw [← ledger_distinct_iff calls 0, ← entries]
  constructor
  · intro holds a member b present same
    obtain ⟨e, inside, own⟩ := List.mem_map.mp member
    obtain ⟨other, listed, equal⟩ := List.mem_map.mp present
    subst own equal
    have tells := (labelled e inside).mp (holds e (complete.mem_iff.mpr inside)) other listed
    have id := tells (beq_iff_eq.mpr same)
    rw [sameCall_iff, beq_iff_eq] at id
    exact id
  · intro distinct e listed
    have inside := complete.mem_iff.mp listed
    refine (labelled e inside).mpr fun other member same => ?_
    rw [sameCall_iff, beq_iff_eq]
    exact distinct _ (List.mem_map_of_mem inside) _ (List.mem_map_of_mem member) (beq_iff_eq.mp same)

theorem ends_of_last (n : UInt32) {fm : FiemapExtent} (last : fm.feFlags = fiemapExtentLast) :
    (FiemapReply.mapped n fm).ends = true := by
  rw [FiemapReply.ends, last]
  decide

def oneExtentCall (filename : CString) (fePhysical : UInt64) : FileCall where
  filename := filename
  stBlocks := 8
  heap := FileCounter.zero
  answers :=
    { front := []
      final := (fullZones warmConfig, .mapped 1 ⟨0, fePhysical, 4096, fiemapExtentLast⟩)
      goesOn := none_before
      ends := ends_of_last 1 rfl }

def longPath (last : UInt8) : CString :=
  List.replicate 49 97 ++ [last]

theorem long_paths_share_a_count :
    let calls := [oneExtentCall (longPath 49) 4096, oneExtentCall (longPath 50) 8192]
    (calls.map (·.filename)).Nodup ∧ ∃ m, collect warmConfig (callEvents calls) = .ok m ∧
      m.failed = false ∧ ¬ ∀ e ∈ m.ctrl.zonemap.extents, Labelled m.ctrl e := by
  intro calls
  have computed : (collect warmConfig (callEvents calls)).map (fun m =>
      (m.failed, m.ctrl.zonemap.extents.map (·.fileID), m.ctrl.fileCounterMap.map fun counters =>
        m.ctrl.zonemap.extents.map fun e => getFileExtentCount counters e.file)) =
      .ok (false, [0, 1], some [2, 2]) := by
    decide
  have ⟨m, run, state⟩ := Runs.map_ok computed
  simp only [Prod.mk.injEq] at state
  have ⟨finished, ids, counts⟩ := state
  refine ⟨by decide, m, run, finished, fun labelled => ?_⟩
  have ⟨e, rest, list, first, others⟩ := List.map_eq_cons_iff.mp ids
  have ⟨counters, map, count⟩ := (labelled e (by simp [list])).count
  have alone : (m.ctrl.zonemap.extents.countP fun other => other.fileID == e.fileID) = 1 := by
    have mapped := List.countP_map (p := (· == (0 : UInt32))) (f := Extent.fileID)
      (l := m.ctrl.zonemap.extents)
    rw [ids] at mapped
    rw [first]
    exact mapped.symm
  simp only [map, Option.map_some, Option.some.injEq, list, List.map_cons, List.cons.injEq] at counts
  rw [alone, counts.1] at count
  exact absurd count (by decide)

theorem short_paths_are_labelled :
    ∃ m, collect warmConfig (callEvents [oneExtentCall [97] 4096, oneExtentCall [98] 8192]) = .ok m ∧
      ∀ e ∈ m.ctrl.zonemap.extents, Labelled m.ctrl e := by
  have computed : (collect warmConfig
      (callEvents [oneExtentCall [97] 4096, oneExtentCall [98] 8192])).map
        (fun m => (m.failed, m.accepted.length)) = .ok (false, 2) := by
    decide
  have ⟨m, run, state⟩ := Runs.map_ok computed
  simp only [Prod.mk.injEq] at state
  refine ⟨m, run, ?_⟩
  refine (extent_labels_iff warmConfig _ m run state.1 (by decide) ?_).mpr (by decide)
  rw [state.2]
  decide

end ZnsTools
