import ZnsTools.InodeProbes
import ZnsTools.Shared.Emitted

set_option autoImplicit false

namespace ZnsTools.InodeProbes

open Flushed KeyedObject PyText Tracegen
open Rocksdb (microseconds split_key)

abbrev Written := (MapName × Key) × Recorded

def Key.caller : Key → Call
  | .call c => c
  | .pageWrite c _ => c

def Written.ino : Written → Option UInt64
  | ((_, .call _), .ino i) => some i
  | ((_, .call _), .hint i _) => some i
  | ((_, .pageWrite _ i), .page _) => some i.toUInt64
  | _ => none

def lastName (events : List InodeEvent) (ino : UInt64) : Option Text :=
  Emitted.latest (fun event => if event.ino = ino then some event.name else none) events

def MapName.tid : MapName → Nat
  | .f2fsMoveData => 5
  | .f2fsSubmitPageWrite => 6
  | .vfsOpen => 7
  | .vfsCreate => 8
  | .vfsFsync => 9
  | .vfsRename => 10
  | .vfsUnlink => 11
  | .fcntlSetRwHint => 12
  | .mmDoWritepages => 13

def MapName.layer : MapName → Text × Nat
  | .f2fsMoveData => ("F2FS".toList, 3)
  | .f2fsSubmitPageWrite => ("F2FS".toList, 3)
  | .mmDoWritepages => ("MM".toList, 4)
  | _ => ("VFS".toList, 2)

def Recorded.args : Recorded → List (Text × Option Datum)
  | .ino _ => []
  | .hint _ h => [("rw_hint".toList, (getHint h.toInt).map .text)]
  | .page p => [("LBA".toList, some (.number p.newBlkaddr.toNat)),
      ("zone".toList, some (.number p.zone.toNat)),
      ("temp".toList, (getTemp p.temp.toInt).map .text),
      ("type".toList, (getType p.type.toInt).map .text)]

/-- What the timeline shows of a call: nothing, where its inode has no name. -/
def instant (names : UInt64 → Option Text) (write : Written) : Option Instant :=
  write.ino.bind fun ino => (names ino).map fun file =>
    ⟨write.1.1.text, some write.1.1.layer.1, 'i', microseconds write.1.2.caller.nsecs,
      some write.1.1.layer.2, write.1.1.tid,
      ("inode".toList, some (.text (printInt ino.toNat))) :: write.2.args ++
        [("file".toList, some (.text file))]⟩

inductive WellFormed : Written → Prop where
  | ino (map : MapName) (noHint : map ≠ .fcntlSetRwHint) (noPage : map ≠ .f2fsSubmitPageWrite)
      (c : Call) (i : UInt64) : WellFormed ((map, .call c), .ino i)
  | hint (c : Call) (i : UInt64) (h : Int64) :
      WellFormed ((.fcntlSetRwHint, .call c), .hint i h)
  | page (c : Call) (i : UInt32) (p : PageWrite) :
      WellFormed ((.f2fsSubmitPageWrite, .pageWrite c i), .page p)

section Item

variable {watchInodes : List (Text × Datum)} {names : UInt64 → Option Text}

def Watches (watchInodes : List (Text × Datum)) (names : UInt64 → Option Text) : Prop :=
  ∀ ino : UInt64, find watchInodes (printInt ino.toNat) = (names ino).map .text

theorem newInstant_call (map : MapName) (c : Call) (args : List (Text × Option Datum)) :
    newInstant map.text (printInt c.nsecs.toNat) args =
      .ok ⟨map.text, some map.layer.1, 'i', microseconds c.nsecs, some map.layer.2, map.tid,
        args⟩ := by
  have bound : |((c.nsecs.toNat : Nat) : Int)| ≤ 2 ^ 64 := by
    rw [Nat.abs_cast]
    exact_mod_cast c.nsecs.toNat_lt.le
  have created : newEvent map.text c.nsecs.toNat 'i' =
      .ok ⟨map.text, some map.layer.1, 'i', microseconds c.nsecs, some map.layer.2, map.tid,
        []⟩ := by
    rw [newEvent, trueDiv_ok bound (by decide), Runs.ok_bind]
    cases map <;> rfl
  rw [newInstant, pyInt_printInt, Except.mapError, Runs.ok_bind, created]
  rfl

theorem dropAt_text (map : MapName) : dropAt ('@' :: map.text) = map.text := by
  cases map <;> decide

theorem split_call (c : Call) : c.print.splitOn ',' =
    [printInt c.nsecs.toNat, printInt c.pid.toNat, printInt c.tid.toNat] :=
  split_key (c.nsecs, c.pid, c.tid)

theorem split_pageWrite (c : Call) (i : UInt32) : (c.print ++ ',' :: printInt i.toNat).splitOn ',' =
    [printInt c.nsecs.toNat, printInt c.pid.toNat, printInt c.tid.toNat, printInt i.toNat] := by
  have plain : ∀ n : Nat, ',' ∉ printInt n := fun n => not_mem_printInt (by decide) (by decide) n
  rw [Call.print, Rocksdb.printKey, List.append_assoc, List.cons_append, List.append_assoc,
    List.cons_append, List.splitOn_append_cons_self_of_not_mem (plain _),
    List.splitOn_append_cons_self_of_not_mem (plain _),
    List.splitOn_append_cons_self_of_not_mem (plain _), List.splitOn_eq_singleton (plain _)]

theorem inodeArgs_ino {map : MapName} (noHint : map ≠ .fcntlSetRwHint)
    (noPage : map ≠ .f2fsSubmitPageWrite) (items : List Text) (i : UInt64) :
    inodeArgs ('@' :: map.text) items (.number i.toNat) =
      .ok (printInt i.toNat, [("inode".toList, some (.text (printInt i.toNat)))]) := by
  have hint : ¬ "rw_hint".toList <:+: map.text := by
    cases map <;> first | decide | exact absurd rfl noHint
  have page : ¬ "f2fs_submit_page_write".toList <:+: map.text := by
    cases map <;> first | decide | exact absurd rfl noPage
  unfold inodeArgs
  simp only [dropAt_text, hint, page, if_false]
  rfl

theorem inodeArgs_hint (items : List Text) (i : UInt64) (h : Int64) :
    inodeArgs ('@' :: MapName.fcntlSetRwHint.text) items (.tuple [i.toNat, h.toInt]) =
      .ok (printInt i.toNat, [("inode".toList, some (.text (printInt i.toNat))),
        ("rw_hint".toList, (getHint h.toInt).map .text)]) := by
  have hint : "rw_hint".toList <:+: MapName.fcntlSetRwHint.text := by decide
  unfold inodeArgs
  simp only [dropAt_text, hint, if_true]
  rfl

theorem inodeArgs_page (first second third : Text) (i : UInt32) (p : PageWrite) :
    inodeArgs ('@' :: MapName.f2fsSubmitPageWrite.text) [first, second, third, printInt i.toNat]
        (Recorded.page p).print =
      .ok (printInt i.toNat,
        ("inode".toList, some (.text (printInt i.toNat))) :: (Recorded.page p).args) := by
  have hint : ¬ "rw_hint".toList <:+: MapName.f2fsSubmitPageWrite.text := by decide
  have page : "f2fs_submit_page_write".toList <:+: MapName.f2fsSubmitPageWrite.text := by decide
  unfold inodeArgs
  simp only [dropAt_text, hint, page, if_true, if_false]
  rfl

theorem item_added (watches : Watches watchInodes names) {map : MapName} {c : Call} {key : Text}
    {more : List Text} (split : key.splitOn ',' =
      printInt c.nsecs.toNat :: printInt c.pid.toNat :: printInt c.tid.toNat :: more)
    {value : Datum} {ino : UInt64} {args : List (Text × Option Datum)}
    (read : inodeArgs ('@' :: map.text) (key.splitOn ',') value = .ok (printInt ino.toNat, args)) :
    f2fsAndVfsItem watchInodes ('@' :: map.text) (key, value) =
      .ok (((names ino).map fun file => Entry.instant
        ⟨map.text, some map.layer.1, 'i', microseconds c.nsecs, some map.layer.2, map.tid,
          args ++ [("file".toList, some (.text file))]⟩).toList) := by
  rw [f2fsAndVfsItem, read, split]
  simp only [index, List.getElem?_cons_zero, List.getElem?_cons_succ,
    Except.mapError, Runs.ok_bind, watches ino]
  cases names ino with
  | none => rfl
  | some file =>
    rw [dropAt_text]
    simp only [Option.map_some, newInstant_call, Runs.ok_bind]
    rfl

theorem item_parsed (watches : Watches watchInodes names) {write : Written}
    (formed : WellFormed write) :
    f2fsAndVfsItem watchInodes ('@' :: write.1.1.text) (write.1.2.print, write.2.print) =
      .ok ((instant names write).map Entry.instant).toList := by
  cases formed with
  | ino map noHint noPage c i =>
    refine (item_added watches (split_call c) (inodeArgs_ino noHint noPage _ i)).trans ?_
    rw [instant, Written.ino, Option.bind_some]
    cases names i <;> rfl
  | hint c i h =>
    refine (item_added watches (split_call c) (inodeArgs_hint _ i h)).trans ?_
    rw [instant, Written.ino, Option.bind_some]
    cases names i <;> rfl
  | page c i p =>
    have read := inodeArgs_page (printInt c.nsecs.toNat) (printInt c.pid.toNat)
      (printInt c.tid.toNat) i p
    rw [← split_pageWrite, ← UInt32.toNat_toUInt64] at read
    refine (item_added watches (split_pageWrite c i) read).trans ?_
    rw [instant, Written.ino, Option.bind_some]
    cases names i.toUInt64 <;> rfl

theorem text_unlike (map : MapName) : ¬ "probes".toList <:+: '@' :: map.text ∧
    ¬ "events".toList <:+: '@' :: map.text := by
  cases map <;> decide

theorem map_added (watches : Watches watchInodes names)
    {printout : MapName × List (Key × Recorded)}
    (formed : ∀ write ∈ tag printout, WellFormed write) (timeline : List Entry) :
    addLine true (f2fsAndVfsItem watchInodes) timeline (printMap printout) =
      .ok (timeline ++ ((tag printout).filterMap (instant names)).map Entry.instant) := by
  obtain ⟨map, entries⟩ := printout
  have items : (entries.map fun entry => (entry.1.print, entry.2.print)).foldlM
      (addItem (f2fsAndVfsItem watchInodes ('@' :: map.text))) timeline =
        .ok (timeline ++ ((tag (map, entries)).filterMap (instant names)).map Entry.instant) := by
    induction entries generalizing timeline with
    | nil => simp [tag, pure, Except.pure]
    | cons entry rest ih =>
      have own := item_parsed watches (formed ((map, entry.1), entry.2) List.mem_cons_self)
      have later : ∀ write ∈ tag (map, rest), WellFormed write :=
        fun write inside => formed write (List.mem_cons_of_mem _ inside)
      have first : tag (map, entry :: rest) = ((map, entry.1), entry.2) :: tag (map, rest) := rfl
      rw [List.map_cons, List.foldlM_cons, addItem, own, Except.map, Runs.ok_bind, ih _ later,
        first]
      cases shown : instant names ((map, entry.1), entry.2) with
      | none => simp [shown]
      | some i => simp [shown]
  have unlike := text_unlike map
  have read : addMap true (f2fsAndVfsItem watchInodes) timeline ('@' :: map.text,
      .items (entries.map fun entry => (entry.1.print, entry.2.print))) =
        .ok (timeline ++ ((tag (map, entries)).filterMap (instant names)).map Entry.instant) :=
    (if_neg unlike.1).trans ((if_neg fun found => unlike.2 found.2).trans items)
  rw [printMap, addLine, List.foldlM_cons, read]
  rfl

theorem file_added (watches : Watches watchInodes names)
    {shown : List (MapName × List (Key × Recorded))}
    (formed : ∀ write ∈ shown.flatMap tag, WellFormed write) (probes : Int)
    (timeline : List Entry) :
    parseF2fsAndVfsProbeData watchInodes (printProbes probes :: shown.map printMap) timeline =
      .ok (timeline ++
        ((shown.flatMap tag).filterMap (instant names)).map Entry.instant) := by
  have skipped : addLine true (f2fsAndVfsItem watchInodes) timeline (printProbes probes) =
      .ok timeline := by
    have named : addMap true (f2fsAndVfsItem watchInodes) timeline
        ("probes".toList, .number probes) = .ok timeline := if_pos (List.infix_refl _)
    rw [addLine, printProbes, List.foldlM_cons, named]
    rfl
  rw [parseF2fsAndVfsProbeData, List.foldlM_cons, skipped, Runs.ok_bind]
  clear skipped
  induction shown generalizing timeline with
  | nil => simp [pure, Except.pure]
  | cons printout rest ih =>
    have own : ∀ write ∈ tag printout, WellFormed write :=
      fun write inside => formed write (by simp [inside])
    have later : ∀ write ∈ rest.flatMap tag, WellFormed write := by
      intro write inside
      rw [List.flatMap_cons, List.forall_mem_append] at formed
      exact formed.2 write inside
    rw [List.map_cons, List.foldlM_cons, map_added watches own, Runs.ok_bind, ih later,
      List.flatMap_cons, List.filterMap_append, List.map_append, List.append_assoc]

end Item

section Names

variable {events : List InodeEvent}

theorem find_inodes (events : List InodeEvent) (ino : UInt64) :
    find (inodes events) ino = lastName events ino := by
  induction events using List.reverseRecOn with
  | nil => rfl
  | append_singleton past event ih =>
    rw [lastName, Emitted.latest_snoc, ← lastName, ← ih, inodes, List.map_append,
      List.map_singleton, addAll_snoc, find_add, ← inodes]
    split <;> simp

theorem printInt_injective : Function.Injective fun n : UInt64 => printInt n.toNat := by
  intro m n same
  dsimp only at same
  have read := pyInt_printInt m.toNat
  rw [same, pyInt_printInt] at read
  have equal : (n.toNat : Int) = m.toNat := Except.ok.inj read
  exact UInt64.toNat_inj.mp (by omega)

theorem inodes_watched {file : Lines} (printed : InodesPrintedAs (inodes events) file) :
    ∃ watchInodes, parseInodes file [] = .ok watchInodes ∧
      Watches watchInodes (lastName events) := by
  obtain ⟨probes, entries, perm, rfl⟩ := printed
  have distinct : ((inodes events).map Prod.fst).Nodup := by
    rw [inodes]
    generalize events.map (fun event => (event.ino, event.name)) = pairs
    induction pairs using List.reverseRecOn with
    | nil => exact .nil
    | append_singleton past pair ih =>
      rw [addAll_snoc]
      exact nodup_add ih pair.1 pair.2
  have keys : (entries.map Prod.fst).Nodup := (perm.map _).nodup_iff.mpr distinct
  let read := entries.map fun entry => (printInt entry.1.toNat, Datum.text entry.2)
  have texts : (([] ++ read).map Prod.fst).Nodup := by
    rw [List.nil_append, List.map_map]
    have mapped := keys.map printInt_injective
    rwa [List.map_map] at mapped
  refine ⟨read, ?_, ?_⟩
  · have skipped : parseInodesMap [] ("probes".toList, .number probes) = .ok [] :=
      if_pos (List.infix_refl _)
    have other : ¬ "probes".toList <:+: "@inodes".toList := by decide
    have added : parseInodesMap [] ("@inodes".toList, .items read) = .ok (addAll [] read) :=
      if_neg other
    rw [addAll_distinct texts, List.nil_append] at added
    rw [parseInodes, List.foldlM_cons, printProbes, List.foldlM_cons, skipped]
    simp only [Runs.ok_bind, List.foldlM_nil, pure, Except.pure, List.foldlM_cons, printInodes]
    rw [added]
    rfl
  · intro ino
    rw [← find_inodes, ← find_perm perm keys]
    exact find_map printInt_injective Datum.text entries ino

end Names

section Programs

def Formed (order : List MapName) (steps : List Probed) : Prop :=
  ∀ map key value, .write map key value ∈ steps → map ∈ order ∧ WellFormed ((map, key), value)

theorem vfs_formed (events : List VfsEvent) : Formed vfsPrints (events.filterMap vfsProbes) := by
  intro map key value inside
  obtain ⟨event, _, probed⟩ := List.mem_filterMap.mp inside
  cases event with
  | doFcntl c cmd argp i =>
    rw [vfsProbes] at probed
    split at probed
    · split at probed
      · cases probed
        exact ⟨by decide, .hint c i argp⟩
      · cases probed
    · cases probed
  | interval => cases probed
  | _ c i =>
    cases probed
    exact ⟨by decide, .ino _ (by decide) (by decide) c i⟩

theorem mm_formed (events : List MmEvent) : Formed mmPrints (events.filterMap mmProbes) := by
  intro map key value inside
  obtain ⟨event, _, probed⟩ := List.mem_filterMap.mp inside
  cases event with
  | doWritepages c i =>
    cases probed
    exact ⟨by decide, .ino _ (by decide) (by decide) c i⟩
  | interval => cases probed

theorem f2fs_formed (zoneSize : UInt64) (events : List F2fsEvent) :
    Formed f2fsPrints (events.filterMap (f2fsProbes zoneSize)) := by
  intro map key value inside
  obtain ⟨event, _, probed⟩ := List.mem_filterMap.mp inside
  cases event with
  | f2fsSubmitPageWrite c fio =>
    cases probed
    exact ⟨by decide, .page c fio.ino _⟩
  | interval => cases probed
  | _ c i =>
    cases probed
    exact ⟨by decide, .ino _ (by decide) (by decide) c i⟩

theorem mem_writes {steps : List Probed} {write : Written} (inside : write ∈ writes steps) :
    .write write.1.1 write.1.2 write.2 ∈ steps := by
  induction steps with
  | nil => cases inside
  | cons next rest ih =>
    cases next with
    | flush => exact List.mem_cons_of_mem _ (ih inside)
    | write map key value =>
      rcases List.mem_cons.mp inside with rfl | later
      · exact List.mem_cons_self
      · exact List.mem_cons_of_mem _ (ih later)

variable {watchInodes : List (Text × Datum)} {names : UInt64 → Option Text}
  {order : List MapName} {steps : List Probed} {file : Lines}

theorem program_added (watches : Watches watchInodes names) (once : order.Nodup)
    (formed : Formed order steps) (printed : PrintedAs (printouts order steps) file) :
    ∃ shown : List Instant, shown.Perm ((lasting steps).filterMap (instant names)) ∧
      ∀ timeline, parseF2fsAndVfsProbeData watchInodes file timeline =
        .ok (timeline ++ shown.map Entry.instant) := by
  obtain ⟨probes, shown, perm, rfl⟩ := printed
  have kept := perm.trans
    (printouts_perm once fun map key value inside => (formed map key value inside).1)
  refine ⟨(shown.flatMap tag).filterMap (instant names), kept.filterMap _, ?_⟩
  refine file_added watches ?_ probes
  intro write inside
  have lasted := (lasting_sublist steps).subset (kept.mem_iff.mp inside)
  exact (formed _ _ _ (mem_writes lasted)).2

theorem printed_exists (printouts : List (MapName × List (Key × Recorded))) :
    ∃ file, PrintedAs printouts file :=
  ⟨_, 0, printouts, .refl _, rfl⟩

theorem kept_iff (names : UInt64 → Option Text) (steps : List Probed) :
    ((writes steps).filterMap (instant names)).length ≤
        ((lasting steps).filterMap (instant names)).length ↔
      Kept (fun write => (instant names write).isSome) steps := by
  rw [List.length_filterMap_eq_countP, List.length_filterMap_eq_countP,
    List.countP_eq_length_filter, List.countP_eq_length_filter]
  exact length_le_iff _ steps

theorem shown_sublist (names : UInt64 → Option Text) (steps : List Probed) :
    ((lasting steps).filterMap (instant names)).Sublist
      ((writes steps).filterMap (instant names)) :=
  (lasting_sublist steps).filterMap _

end Programs

-- What happens while the probes run; `zoneSize` is f2fs-probes.bt's argument.
structure Session where
  zoneSize : UInt64
  named : List InodeEvent
  vfs : List VfsEvent
  mm : List MmEvent
  f2fs : List F2fsEvent

section Session

variable (session : Session)

def Session.vfsSteps : List Probed := session.vfs.filterMap vfsProbes

def Session.mmSteps : List Probed := session.mm.filterMap mmProbes

def Session.f2fsSteps : List Probed := session.f2fs.filterMap (f2fsProbes session.zoneSize)

def Session.calls : List Instant :=
  (writes session.vfsSteps ++ writes session.mmSteps ++ writes session.f2fsSteps).filterMap
    (instant (lastName session.named))

structure Session.Files where
  inodes : Lines
  vfs : Lines
  mm : Lines
  f2fs : Lines

structure Session.Printed (files : Session.Files) : Prop where
  inodes : InodesPrintedAs (InodeProbes.inodes session.named) files.inodes
  vfs : PrintedAs (printouts vfsPrints session.vfsSteps) files.vfs
  mm : PrintedAs (printouts mmPrints session.mmSteps) files.mm
  f2fs : PrintedAs (printouts f2fsPrints session.f2fsSteps) files.f2fs

/-- Every call on an inode with a name is shown once, with the inode's last name. -/
def Session.Shown : Prop :=
  ∀ files, session.Printed files → ∃ watchInodes, ∃ shown : List Instant,
    parseInodes files.inodes [] = .ok watchInodes ∧ shown.Perm session.calls ∧
      ∀ timeline, [files.vfs, files.mm, files.f2fs].foldlM
        (fun timeline file => parseF2fsAndVfsProbeData watchInodes file timeline) timeline =
          .ok (timeline ++ shown.map Entry.instant)

-- No call on an inode with a name has another one, of its thread in its nanosecond, in its map.
def Session.Kept : Prop :=
  let watched (write : Written) : Bool := (instant (lastName session.named) write).isSome
  Flushed.Kept watched session.vfsSteps ∧ Flushed.Kept watched session.mmSteps ∧
    Flushed.Kept watched session.f2fsSteps

variable {session}

theorem files_added {files : Session.Files} (printed : session.Printed files) :
    ∃ watchInodes, ∃ shown : List Instant,
      parseInodes files.inodes [] = .ok watchInodes ∧
      shown.Perm ((lasting session.vfsSteps ++ lasting session.mmSteps ++
        lasting session.f2fsSteps).filterMap (instant (lastName session.named))) ∧
      ∀ timeline, [files.vfs, files.mm, files.f2fs].foldlM
        (fun timeline file => parseF2fsAndVfsProbeData watchInodes file timeline) timeline =
          .ok (timeline ++ shown.map Entry.instant) := by
  obtain ⟨watchInodes, read, watches⟩ := inodes_watched printed.inodes
  obtain ⟨vfs, vfsPerm, vfsAdded⟩ :=
    program_added watches (by decide) (vfs_formed session.vfs) printed.vfs
  obtain ⟨mm, mmPerm, mmAdded⟩ :=
    program_added watches (by decide) (mm_formed session.mm) printed.mm
  obtain ⟨f2fs, f2fsPerm, f2fsAdded⟩ :=
    program_added watches (by decide) (f2fs_formed session.zoneSize session.f2fs) printed.f2fs
  refine ⟨watchInodes, vfs ++ mm ++ f2fs, read, ?_, ?_⟩
  · rw [List.filterMap_append, List.filterMap_append]
    exact (vfsPerm.append mmPerm).append f2fsPerm
  · intro timeline
    simp only [List.foldlM_cons, List.foldlM_nil, vfsAdded, mmAdded, f2fsAdded, Runs.ok_bind,
      List.map_append, List.append_assoc]
    rfl

theorem kept_of_perm (perm : ((lasting session.vfsSteps ++ lasting session.mmSteps ++
    lasting session.f2fsSteps).filterMap (instant (lastName session.named))).Perm session.calls) :
    session.Kept := by
  have total := perm.length_eq
  rw [Session.calls] at total
  simp only [List.filterMap_append, List.length_append] at total
  have vfs := (shown_sublist (lastName session.named) session.vfsSteps).length_le
  have mm := (shown_sublist (lastName session.named) session.mmSteps).length_le
  have f2fs := (shown_sublist (lastName session.named) session.f2fsSteps).length_le
  refine ⟨(kept_iff _ _).mp ?_, (kept_iff _ _).mp ?_, (kept_iff _ _).mp ?_⟩ <;> omega

theorem lasting_of_kept (kept : session.Kept) : (lasting session.vfsSteps ++
    lasting session.mmSteps ++ lasting session.f2fsSteps).filterMap
      (instant (lastName session.named)) = session.calls := by
  have all {steps : List Probed}
      (own : Kept (fun write => (instant (lastName session.named) write).isSome) steps) :
      (lasting steps).filterMap (instant (lastName session.named)) =
        (writes steps).filterMap (instant (lastName session.named)) :=
    (shown_sublist _ steps).eq_of_length_le ((kept_iff _ steps).mpr own)
  rw [Session.calls, List.filterMap_append, List.filterMap_append, List.filterMap_append,
    List.filterMap_append, all kept.1, all kept.2.1, all kept.2.2]

/-- Every call on an inode with a name is shown exactly when none of them is overwritten in its
map before the next interval. -/
theorem calls_shown_iff (session : Session) : session.Shown ↔ session.Kept := by
  constructor
  · intro all
    obtain ⟨vfs, vfsPrinted⟩ := printed_exists (printouts vfsPrints session.vfsSteps)
    obtain ⟨mm, mmPrinted⟩ := printed_exists (printouts mmPrints session.mmSteps)
    obtain ⟨f2fs, f2fsPrinted⟩ := printed_exists (printouts f2fsPrints session.f2fsSteps)
    have printed : session.Printed
        ⟨[printProbes 0, printInodes (inodes session.named)], vfs, mm, f2fs⟩ :=
      ⟨⟨0, _, .refl _, rfl⟩, vfsPrinted, mmPrinted, f2fsPrinted⟩
    obtain ⟨watchInodes, shown, read, perm, added⟩ := all _ printed
    obtain ⟨others, lasted, same, lastedPerm, lastedAdded⟩ := files_added printed
    rw [read] at same
    cases same
    have both := (added []).symm.trans (lastedAdded [])
    rw [List.nil_append, List.nil_append] at both
    have equal : shown = lasted :=
      List.map_injective_iff.mpr (fun _ _ => Entry.instant.inj) (Except.ok.inj both)
    exact kept_of_perm (lastedPerm.symm.trans (equal ▸ perm))
  · intro kept files printed
    obtain ⟨watchInodes, shown, read, perm, added⟩ := files_added printed
    rw [lasting_of_kept kept] at perm
    exact ⟨watchInodes, shown, read, perm, added⟩

end Session

end ZnsTools.InodeProbes
