import ZnsTools.Collection

set_option autoImplicit false

namespace ZnsTools

def FiemapReply.seen : FiemapReply → List FiemapExtent
  | .ioctlFailed => []
  | .mapped _ fm => [fm]

-- The `do` loop against a file system that answers `ioctl`, with the extents it was shown and
-- whether it ended in EXIT_SUCCESS; `none` means that it is still running after `fuel` turns.
def getExtentsLoop (cfg : Config) (dev : Device) (ioctl : Fiemap → FiemapReply) :
    Nat → Call → Control → Option (Except Abort (Control × List FiemapExtent × Bool))
  | 0, _, _ => none
  | fuel + 1, call, ctrl =>
    let reply := ioctl call.fiemap
    match getExtentsTurn cfg dev call reply ctrl with
    | .error abort => some (.error abort)
    | .ok (ctrl, _, .done success) => some (.ok (ctrl, reply.seen, success))
    | .ok (ctrl, _, .more call) =>
      match getExtentsLoop cfg dev ioctl fuel call ctrl with
      | some (.ok (ctrl, visited, success)) => some (.ok (ctrl, reply.seen ++ visited, success))
      | other => other

def getExtents (cfg : Config) (dev : Device) (ioctl : Fiemap → FiemapReply) (fuel : Nat)
    (filename : CString) (stBlocks : UInt64) (heap : FileCounter) (ctrl : Control) :
    Option (Except Abort (Control × List FiemapExtent × Bool)) :=
  getExtentsLoop cfg dev ioctl fuel (openCall filename stBlocks)
    { ctrl with fileCounterMap := some (allocFileCounter ctrl heap) }

def FiemapExtent.after (fm : FiemapExtent) : Nat :=
  fm.feLogical.toNat + fm.feLength.toNat

def FiemapExtent.overlaps (fm : FiemapExtent) (fiemap : Fiemap) : Bool :=
  fm.feLogical.toNat < fiemap.fmStart.toNat + fiemap.fmLength.toNat &&
    fiemap.fmStart.toNat < fm.after

structure MappedFile (extents : List FiemapExtent) : Prop where
  nonempty : extents ≠ []
  positive : ∀ fm ∈ extents, 0 < fm.feLength.toNat
  bounded : ∀ fm ∈ extents, fm.after < 2 ^ 64
  disjoint : extents.Pairwise fun a b => a.after ≤ b.feLogical.toNat
  last : ∀ front fm back, extents = front ++ fm :: back →
    (fm.feFlags &&& fiemapExtentLast ≠ 0 ↔ back = [])

-- What is taken from the kernel: the first extent that overlaps the range, or none.
def Answers (ioctl : Fiemap → FiemapReply) (extents : List FiemapExtent) : Prop :=
  ∀ fiemap, match extents.find? (·.overlaps fiemap) with
    | some fm => ∃ n, n ≠ 0 ∧ ioctl fiemap = .mapped n fm
    | none => ∃ fm, ioctl fiemap = .mapped 0 fm

-- No hole before an extent is as long as the window; `start` is the end of the last extent.
def HolesWithin (window : Nat) : Nat → List FiemapExtent → Prop
  | _, [] => True
  | start, fm :: rest => fm.feLogical.toNat < start + window ∧ HolesWithin window fm.after rest

instance decidableHolesWithin (window : Nat) :
    (start : Nat) → (extents : List FiemapExtent) → Decidable (HolesWithin window start extents)
  | _, [] => inferInstanceAs (Decidable True)
  | start, fm :: rest =>
    have := decidableHolesWithin window fm.after rest
    inferInstanceAs (Decidable (fm.feLogical.toNat < start + window ∧
      HolesWithin window fm.after rest))

structure OnDevice (cfg : Config) (dev : Device) (nrZones : Nat) (phyBlk : UInt64) : Prop where
  zone : ∃ zone, getZoneNumber cfg (phyBlk <<< cfg.znsSectorShift.toUInt64) = .ok zone ∧
    zone.toNat < nrZones ∧ dev (cfg.zoneSectors * zone.toUInt64) ≠ .ioctlFailed
  segment : 0 < cfg.fsInfoBytes → ∃ segI,
    fsInfoInitialize cfg.fsManager (cfg.segmentId phyBlk).toUInt32 = .ok segI

def Fileable (cfg : Config) (dev : Device) (nrZones : Nat) (fm : FiemapExtent) : Prop :=
  disregarded cfg fm = true ∨
    OnDevice cfg dev nrZones (physicalBlk cfg fm)

section Turn

variable {cfg : Config} {dev : Device} {call : Call} {ctrl : Control} {fm : FiemapExtent}

theorem getZoneInfo_same {extent found : Extent}
    (result : getZoneInfo cfg dev extent = .ok found) :
    found.zone = extent.zone ∧ found.phyBlk = extent.phyBlk := by
  obtain ⟨_, _, _, _, rfl⟩ := getZoneInfo_ok result
  exact ⟨rfl, rfl⟩

theorem getZoneInfo_exists (extent : Extent)
    (reported : dev (cfg.zoneSectors * extent.zone.toUInt64) ≠ .ioctlFailed) :
    ∃ found, getZoneInfo cfg dev extent = .ok found := by
  rw [getZoneInfo]
  split
  · exact ⟨_, rfl⟩
  · next failed => exact absurd failed reported
  · exact ⟨_, rfl⟩

theorem getZoneInfo_reported {extent found : Extent}
    (result : getZoneInfo cfg dev extent = .ok found) :
    dev (cfg.zoneSectors * extent.zone.toUInt64) ≠ .ioctlFailed := by
  intro failed
  rw [getZoneInfo, failed] at result
  cases result

theorem setFsInfo_exists (extent : Extent)
    (inside : 0 < cfg.fsInfoBytes → ∃ segI,
      fsInfoInitialize cfg.fsManager (cfg.segmentId extent.phyBlk).toUInt32 = .ok segI) :
    ∃ fsInfo, setFsInfo cfg extent = .ok { extent with fsInfo := fsInfo } := by
  rw [setFsInfo]
  by_cases some_info : 0 < cfg.fsInfoBytes
  · obtain ⟨segI, looked⟩ := inside some_info
    exact ⟨some segI, by rw [if_pos some_info, looked]; rfl⟩
  · exact ⟨extent.fsInfo, by rw [if_neg some_info]; rfl⟩

theorem newExtent_exists {nrZones : Nat} (nrFiles : UInt32)
    (device : OnDevice cfg dev nrZones (physicalBlk cfg fm)) :
    ∃ extent, newExtent cfg dev nrFiles call fm = .ok extent ∧ extent.zone.toNat < nrZones := by
  obtain ⟨zone, numbered, below, reported⟩ := device.zone
  obtain ⟨located, found⟩ :=
    getZoneInfo_exists (mappedExtent cfg nrFiles call fm zone) reported
  obtain ⟨samezone, sameblk⟩ := getZoneInfo_same found
  obtain ⟨fsInfo, looked⟩ := setFsInfo_exists located (by rw [sameblk]; exact device.segment)
  refine ⟨{ located with fsInfo := fsInfo }, ?_, by rw [samezone]; exact below⟩
  simp only [newExtent, numbered, found, Runs.ok_bind, looked]

theorem storeExtent_exists (extent : Extent)
    (below : extent.zone.toNat < ctrl.zonemap.zones.length) :
    ∃ stored, storeExtent ctrl extent = .ok stored := by
  rw [storeExtent, addExtentToZoneList, List.getElem?_eq_getElem below]
  exact ⟨_, rfl⟩

theorem acceptExtent_exists_iff :
    (∃ taken, acceptExtent cfg dev call fm ctrl = .ok taken) ↔
      Fileable cfg dev ctrl.zonemap.zones.length fm := by
  constructor
  · rintro ⟨⟨stored, accepted⟩, taken⟩
    rcases acceptExtent_ok taken with ⟨skipped, -, -⟩ | ⟨-, extent, -, made, filed⟩
    · exact .inl skipped
    · obtain ⟨zone, numbered, made⟩ := Runs.bind_ok made
      obtain ⟨located, reported, made⟩ := Runs.bind_ok made
      obtain ⟨⟨fsInfo, rfl⟩, looked⟩ := setFsInfo_ok made
      obtain ⟨samezone, sameblk⟩ := getZoneInfo_same reported
      obtain ⟨zonemap, added, -⟩ := storeExtent_ok filed
      obtain ⟨entry, found, -⟩ := addExtentToZoneList_ok added
      have below := (List.getElem?_eq_some_iff.mp found).1
      refine .inr ⟨⟨zone, numbered, ?_, getZoneInfo_reported reported⟩, ?_⟩
      · simpa only [samezone, mappedExtent] using below
      · intro some_info
        obtain ⟨segI, -, inside⟩ := looked some_info
        exact ⟨segI, by simpa only [sameblk, mappedExtent] using inside⟩
  · intro fileable
    by_cases skipped : disregarded cfg fm = true
    · exact ⟨_, by rw [acceptExtent, if_pos skipped]; rfl⟩
    · obtain ⟨extent, made, below⟩ := newExtent_exists ctrl.nrFiles (fileable.resolve_left skipped)
      obtain ⟨stored, filed⟩ := storeExtent_exists extent below
      refine ⟨(stored, some extent), ?_⟩
      rw [acceptExtent, if_neg skipped, made, Runs.ok_bind, filed]
      rfl

theorem acceptExtent_zones {stored : Control} {accepted : Option Extent}
    (taken : acceptExtent cfg dev call fm ctrl = .ok (stored, accepted)) :
    stored.zonemap.zones.length = ctrl.zonemap.zones.length := by
  rcases acceptExtent_ok taken with ⟨-, rfl, -⟩ | ⟨-, extent, -, -, filed⟩
  · rfl
  · obtain ⟨zonemap, added, rfl⟩ := storeExtent_ok filed
    obtain ⟨zone, -, rfl⟩ := addExtentToZoneList_ok added
    simp

theorem getExtentsTurn_shown {n : UInt32} (shown : n ≠ 0)
    (fileable : Fileable cfg dev ctrl.zonemap.zones.length fm) :
    ∃ ctrl' accepted progress,
      getExtentsTurn cfg dev call (.mapped n fm) ctrl = .ok (ctrl', accepted, progress) ∧
      ctrl'.zonemap.zones.length = ctrl.zonemap.zones.length ∧
      (fm.feFlags &&& fiemapExtentLast ≠ 0 → progress = .done true) ∧
      (fm.feFlags &&& fiemapExtentLast = 0 → ∃ next, progress = .more next ∧
        next.fiemap = ⟨fm.feLogical + fm.feLength, call.fiemap.fmLength⟩) := by
  obtain ⟨⟨stored, accepted⟩, taken⟩ := acceptExtent_exists_iff.mpr fileable
  have returns : ∃ result, getExtentsTurn cfg dev call (.mapped n fm) ctrl = .ok result := by
    rw [getExtentsTurn.eq_def]
    dsimp only
    rw [if_neg shown, taken, Runs.ok_bind]
    dsimp only
    split <;> exact ⟨_, rfl⟩
  obtain ⟨⟨ctrl', filed, progress⟩, turn⟩ := returns
  obtain ⟨failed, -⟩ | ⟨m, same, ⟨⟩, -, after, retaken, zonemap, -, moved⟩ := getExtentsTurn_ok turn
  · cases failed
  · rw [← acceptExtent_zones retaken, ← zonemap]
    refine ⟨ctrl', filed, progress, turn, rfl, ?_⟩
    rcases moved with ⟨last, ended, -⟩ | ⟨more, -, continued⟩
    · exact ⟨fun _ => ended, fun unset => absurd unset last⟩
    · exact ⟨fun set => absurd more set, fun _ => ⟨_, continued, rfl⟩⟩

theorem getExtentsTurn_fileable {n : UInt32} {result : Control × Option Extent × Progress}
    (turn : getExtentsTurn cfg dev call (.mapped n fm) ctrl = .ok result) :
    n ≠ 0 ∧ Fileable cfg dev ctrl.zonemap.zones.length fm := by
  obtain ⟨ctrl', filed, progress⟩ := result
  obtain ⟨failed, -⟩ | ⟨m, same, ⟨⟩, shown, after, taken, -⟩ := getExtentsTurn_ok turn
  · cases failed
  · exact ⟨shown, acceptExtent_exists_iff.mp ⟨_, taken⟩⟩

end Turn

section Loop

variable {cfg : Config} {dev : Device} {ioctl : Fiemap → FiemapReply} {extents : List FiemapExtent}

theorem answers_near (answers : Answers ioctl extents) {fiemap : Fiemap}
    {done back : List FiemapExtent} {fm : FiemapExtent} (split : extents = done ++ fm :: back)
    (passed : ∀ e ∈ done, e.after ≤ fiemap.fmStart.toNat)
    (ahead : fiemap.fmStart.toNat < fm.after)
    (near : fm.feLogical.toNat < fiemap.fmStart.toNat + fiemap.fmLength.toNat) :
    ∃ n, n ≠ 0 ∧ ioctl fiemap = .mapped n fm := by
  have behind : ∀ e ∈ done, e.overlaps fiemap = false := by
    intro e member
    simp [FiemapExtent.overlaps, passed e member]
  have here : fm.overlaps fiemap = true := by
    simp [FiemapExtent.overlaps, near, ahead]
  have first : extents.find? (·.overlaps fiemap) = some fm := by
    rw [split, List.find?_append, List.find?_eq_none.mpr (by simpa using behind)]
    simp [here]
  have answer := answers fiemap
  rw [first] at answer
  exact answer

theorem answers_far (answers : Answers ioctl extents) {fiemap : Fiemap}
    {done rest : List FiemapExtent} (split : extents = done ++ rest)
    (passed : ∀ e ∈ done, e.after ≤ fiemap.fmStart.toNat)
    (far : ∀ e ∈ rest, fiemap.fmStart.toNat + fiemap.fmLength.toNat ≤ e.feLogical.toNat) :
    ∃ fm, ioctl fiemap = .mapped 0 fm := by
  have silent : ∀ e ∈ extents, e.overlaps fiemap = false := by
    intro e member
    rcases List.mem_append.mp (split ▸ member) with before | later
    · simp [FiemapExtent.overlaps, passed e before]
    · simp [FiemapExtent.overlaps, far e later]
  have none : extents.find? (·.overlaps fiemap) = none :=
    List.find?_eq_none.mpr (by simpa using silent)
  have answer := answers fiemap
  rw [none] at answer
  exact answer

theorem getExtentsLoop_ok {call : Call} {ctrl final : Control} {fuel : Nat} {success : Bool}
    {fm : FiemapExtent} {visited : List FiemapExtent} {n : UInt32}
    (reply : ioctl call.fiemap = .mapped n fm)
    (result : getExtentsLoop cfg dev ioctl fuel call ctrl = some (.ok (final, visited, success))) :
    ∃ fuel' result, fuel = fuel' + 1 ∧ getExtentsTurn cfg dev call (.mapped n fm) ctrl = .ok result := by
  cases fuel with
  | zero => cases result
  | succ fuel =>
    rw [getExtentsLoop, reply] at result
    cases turn : getExtentsTurn cfg dev call (.mapped n fm) ctrl with
    | error abort => simp [turn] at result
    | ok value => exact ⟨fuel, value, rfl, rfl⟩

theorem getExtentsLoop_done {call : Call} {ctrl final : Control} {fm : FiemapExtent} {n : UInt32}
    {accepted : Option Extent} {success : Bool} (reply : ioctl call.fiemap = .mapped n fm)
    (turn : getExtentsTurn cfg dev call (.mapped n fm) ctrl = .ok (final, accepted, .done success))
    (fuel : Nat) :
    getExtentsLoop cfg dev ioctl (fuel + 1) call ctrl = some (.ok (final, [fm], success)) := by
  simp [getExtentsLoop, reply, turn, FiemapReply.seen]

theorem getExtentsLoop_more {call next : Call} {ctrl stored final : Control} {fm : FiemapExtent}
    {n : UInt32} {accepted : Option Extent} {visited : List FiemapExtent} {success : Bool}
    (reply : ioctl call.fiemap = .mapped n fm)
    (turn : getExtentsTurn cfg dev call (.mapped n fm) ctrl = .ok (stored, accepted, .more next))
    (fuel : Nat) :
    getExtentsLoop cfg dev ioctl (fuel + 1) call ctrl = some (.ok (final, fm :: visited, success)) ↔
      getExtentsLoop cfg dev ioctl fuel next stored = some (.ok (final, visited, success)) := by
  simp only [getExtentsLoop, reply, turn, FiemapReply.seen]
  split
  · next same => simp [same]
  · next other => exact ⟨fun same => (other _ _ _ same).elim, fun same => (other _ _ _ same).elim⟩

theorem getExtentsLoop_more_exists {call next : Call} {ctrl stored : Control} {fm : FiemapExtent}
    {n : UInt32} {accepted : Option Extent} (reply : ioctl call.fiemap = .mapped n fm)
    (turn : getExtentsTurn cfg dev call (.mapped n fm) ctrl = .ok (stored, accepted, .more next))
    (visited : List FiemapExtent) (success : Bool) :
    (∃ fuel final, getExtentsLoop cfg dev ioctl fuel call ctrl =
        some (.ok (final, fm :: visited, success))) ↔
      ∃ fuel final, getExtentsLoop cfg dev ioctl fuel next stored =
        some (.ok (final, visited, success)) := by
  constructor
  · rintro ⟨fuel, final, result⟩
    obtain ⟨fuel, _, rfl, -⟩ := getExtentsLoop_ok reply result
    exact ⟨fuel, final, (getExtentsLoop_more reply turn fuel).mp result⟩
  · rintro ⟨fuel, final, tail⟩
    exact ⟨fuel + 1, final, (getExtentsLoop_more reply turn fuel).mpr tail⟩

theorem getExtentsLoop_refused {call : Call} {ctrl : Control} {fm : FiemapExtent} {n : UInt32}
    (reply : ioctl call.fiemap = .mapped n fm)
    (refused : ¬ (n ≠ 0 ∧ Fileable cfg dev ctrl.zonemap.zones.length fm))
    (visited : List FiemapExtent) (success : Bool) :
    ¬ ∃ fuel final, getExtentsLoop cfg dev ioctl fuel call ctrl =
      some (.ok (final, visited, success)) := by
  rintro ⟨fuel, final, result⟩
  obtain ⟨_, _, -, turn⟩ := getExtentsLoop_ok reply result
  exact refused (getExtentsTurn_fileable turn)

theorem passed_snoc {done : List FiemapExtent} {fm : FiemapExtent} {start : Nat}
    (passed : ∀ e ∈ done, e.after ≤ start) (further : start ≤ fm.after) :
    ∀ e ∈ done ++ [fm], e.after ≤ fm.after := by
  intro e inside
  rcases List.mem_append.mp inside with before | same
  · exact (passed e before).trans further
  · rw [List.mem_singleton.mp same]

theorem far_cons {fm : FiemapExtent} {back : List FiemapExtent} {limit : Nat}
    (far : limit ≤ fm.feLogical.toNat) (later : ∀ e ∈ back, fm.after ≤ e.feLogical.toNat) :
    ∀ e ∈ fm :: back, limit ≤ e.feLogical.toNat := by
  intro e inside
  rcases List.mem_cons.mp inside with rfl | inside
  · exact far
  · exact far.trans (Nat.le_trans (Nat.le_add_right _ _) (later e inside))

/-- From any turn on, the loop shows all remaining extents exactly when no hole before one of them
is as long as the window. -/
theorem getExtentsLoop_iff (file : MappedFile extents) (answers : Answers ioctl extents)
    (rest done : List FiemapExtent) (call : Call) (ctrl : Control) (left : rest ≠ [])
    (split : extents = done ++ rest)
    (passed : ∀ e ∈ done, e.after ≤ call.fiemap.fmStart.toNat)
    (ahead : ∀ e ∈ rest, call.fiemap.fmStart.toNat ≤ e.feLogical.toNat) :
    (∃ fuel final, getExtentsLoop cfg dev ioctl fuel call ctrl = some (.ok (final, rest, true))) ↔
      HolesWithin call.fiemap.fmLength.toNat call.fiemap.fmStart.toNat rest ∧
        ∀ fm ∈ rest, Fileable cfg dev ctrl.zonemap.zones.length fm := by
  induction rest generalizing done call ctrl with
  | nil => exact absurd rfl left
  | cons fm back ih =>
    have member : fm ∈ extents := by simp [split]
    have begins := ahead fm (by simp)
    have positive := file.positive fm member
    have ends : call.fiemap.fmStart.toNat < fm.after := by
      simp only [FiemapExtent.after]
      omega
    have later : ∀ e ∈ back, fm.after ≤ e.feLogical.toNat := by
      have ordered := file.disjoint
      rw [split, List.pairwise_append] at ordered
      exact (List.pairwise_cons.mp ordered.2.1).1
    by_cases near : fm.feLogical.toNat <
        call.fiemap.fmStart.toNat + call.fiemap.fmLength.toNat
    · obtain ⟨n, shown, reply⟩ := answers_near answers split passed ends near
      by_cases fileable : Fileable cfg dev ctrl.zonemap.zones.length fm
      · obtain ⟨stored, accepted, progress, turn, zones, ended, continued⟩ :=
          getExtentsTurn_shown shown fileable
        by_cases last : fm.feFlags &&& fiemapExtentLast = 0
        · obtain ⟨next, rfl, moved⟩ := continued last
          have more : back ≠ [] := fun none => (file.last done fm back split).mpr none last
          have start : next.fiemap.fmStart.toNat = fm.after := by
            have bounded := file.bounded fm member
            rw [moved]
            exact (UInt64.toNat_add _ _).trans (Nat.mod_eq_of_lt bounded)
          have rest := ih (done ++ [fm]) next stored more (by simp [split])
            (start ▸ passed_snoc passed ends.le) (start ▸ later)
          rw [start, moved, zones] at rest
          rw [getExtentsLoop_more_exists reply turn, rest, HolesWithin, List.forall_mem_cons]
          simp only [near, fileable, true_and]
        · obtain rfl := ended last
          obtain rfl := (file.last done fm back split).mp last
          constructor
          · intro _
            exact ⟨⟨near, trivial⟩, by simp [fileable]⟩
          · intro _
            exact ⟨1, stored, getExtentsLoop_done reply turn 0⟩
      · refine iff_of_false (getExtentsLoop_refused reply (fun filed => fileable filed.2) _ _) ?_
        rintro ⟨-, all⟩
        exact fileable (all fm (by simp))
    · obtain ⟨stale, reply⟩ :=
        answers_far answers split passed (far_cons (Nat.not_lt.mp near) later)
      refine iff_of_false (getExtentsLoop_refused reply (fun filed => filed.1 rfl) _ _) ?_
      rintro ⟨holes, -⟩
      exact near holes.1

end Loop

/-- `get_extents` visits every extent of a file, in order, and returns EXIT_SUCCESS exactly when
every hole in front of an extent is shorter than `st_blocks << 3` bytes and every extent can be
filed. -/
theorem getExtents_visits_iff (cfg : Config) (dev : Device) (ioctl : Fiemap → FiemapReply)
    (extents : List FiemapExtent) (file : MappedFile extents) (answers : Answers ioctl extents)
    (filename : CString) (stBlocks : UInt64) (heap : FileCounter) (ctrl : Control) :
    (∃ fuel final, getExtents cfg dev ioctl fuel filename stBlocks heap ctrl =
        some (.ok (final, extents, true))) ↔
      HolesWithin (stBlocks <<< 3).toNat 0 extents ∧
        ∀ fm ∈ extents, Fileable cfg dev ctrl.zonemap.zones.length fm :=
  getExtentsLoop_iff file answers extents [] (openCall filename stBlocks)
    { ctrl with fileCounterMap := some (allocFileCounter ctrl heap) } file.nonempty rfl
    (by simp) (by simp [openCall])

def fiemapOf (extents : List FiemapExtent) (fiemap : Fiemap) : FiemapReply :=
  match extents.find? (·.overlaps fiemap) with
  | some fm => .mapped 1 fm
  | none => .mapped 0 ⟨0, 0, 0, 0⟩

theorem fiemapOf_answers (extents : List FiemapExtent) : Answers (fiemapOf extents) extents := by
  intro fiemap
  cases found : extents.find? (·.overlaps fiemap) with
  | some fm => exact ⟨1, by decide, by rw [fiemapOf, found]⟩
  | none => exact ⟨_, by rw [fiemapOf, found]⟩

def twoBlocks (logical : UInt64) : List FiemapExtent :=
  [⟨0, 0, 4096, 0⟩, ⟨logical, 4096, 4096, fiemapExtentLast⟩]

theorem twoBlocks_mapped (logical : UInt64) (apart : 4096 ≤ logical.toNat)
    (bounded : logical.toNat + 4096 < 2 ^ 64) : MappedFile (twoBlocks logical) where
  nonempty := by simp [twoBlocks]
  positive := by simp [twoBlocks]
  bounded := by simpa [twoBlocks, FiemapExtent.after] using bounded
  disjoint := by simp [twoBlocks, FiemapExtent.after, apart]
  last front fm back split := by
    match front, split with
    | [], split => cases split; simp [fiemapExtentLast]
    | [_], split => cases split; simp [fiemapExtentLast]
    | _ :: _ :: front, split => simp [twoBlocks] at split

-- A sparse file: 16 blocks of 512 B are allocated, so the window is 128 B long.
theorem sparse_file_rejected :
    let cfg := segmapConfig 512 0 8192 2 (List.replicate 4 ⟨0, .cursegWarmData, 512⟩)
    let extents := twoBlocks 1048576
    MappedFile extents ∧ Answers (fiemapOf extents) extents ∧
      ¬ ∃ fuel final, getExtents cfg (fullZones cfg) (fiemapOf extents) fuel [97] 16
        FileCounter.zero (initControl cfg) = some (.ok (final, extents, true)) := by
  intro cfg extents
  have file : MappedFile extents := twoBlocks_mapped _ (by decide) (by decide)
  have answers := fiemapOf_answers extents
  refine ⟨file, answers, ?_⟩
  rintro visits
  have holes := (getExtentsLoop_iff file answers extents [] (openCall [97] 16) _ file.nonempty rfl
    (by simp) (by simp [openCall])).mp visits
  exact absurd holes.1.2.1 (by decide)

theorem dense_file_visited :
    let cfg := segmapConfig 512 0 8192 2 (List.replicate 4 ⟨0, .cursegWarmData, 512⟩)
    let extents := twoBlocks 4096
    ∃ fuel final, getExtents cfg (fullZones cfg) (fiemapOf extents) fuel [97] 16
      FileCounter.zero (initControl cfg) = some (.ok (final, extents, true)) := by
  intro cfg extents
  have onDevice : ∀ fm ∈ extents, Fileable cfg (fullZones cfg) 2 fm := by
    intro fm inside
    refine .inr ⟨⟨0, ?_, by decide, by simp [fullZones]⟩, fun _ => ⟨⟨0, .cursegWarmData, 512⟩, ?_⟩⟩
    all_goals
      rcases List.mem_pair.mp inside with rfl | rfl <;> decide
  exact (getExtents_visits_iff cfg (fullZones cfg) (fiemapOf extents) extents
    (twoBlocks_mapped _ (by decide) (by decide)) (fiemapOf_answers extents) [97] 16
    FileCounter.zero (initControl cfg)).mpr ⟨by decide, onDevice⟩

end ZnsTools
