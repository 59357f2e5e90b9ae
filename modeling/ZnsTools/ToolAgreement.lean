import ZnsTools.ZeroDivisors

set_option autoImplicit false

namespace ZnsTools

-- What zns.segmap prints of a file on Btrfs against what zns.fiemap prints of it.

-- The settings of zns.segmap that zns.fiemap does not have.
structure SegmapSettings where
  excludeFlags : UInt32
  startZone : UInt32
  endZone : UInt32
  showClassStats : Bool
  showOnlyStats : Bool
  procfs : Bool
  isdir : Bool

def Config.withSettings (cfg : Config) (settings : SegmapSettings) : Config :=
  { cfg with
    excludeFlags := settings.excludeFlags
    startZone := settings.startZone
    endZone := settings.endZone
    showClassStats := settings.showClassStats
    showOnlyStats := settings.showOnlyStats
    procfs := settings.procfs
    isdir := settings.isdir }

def FiemapReply.Free (flags : UInt32) : FiemapReply → Prop
  | .ioctlFailed => True
  | .mapped _ fm => fm.feFlags &&& flags = 0

section Mapping

variable {cfg : Config} {settings : SegmapSettings}

theorem disregarded_withSettings (plain : cfg.excludeFlags = 0) {fm : FiemapExtent}
    (free : fm.feFlags &&& settings.excludeFlags = 0) :
    disregarded (cfg.withSettings settings) fm = disregarded cfg fm := by
  unfold disregarded
  simp [Config.withSettings, plain, free]
  rfl

theorem newExtent_withSettings (dev : Device) (nrFiles : UInt32) (call : Call)
    (fm : FiemapExtent) :
    newExtent (cfg.withSettings settings) dev nrFiles call fm = newExtent cfg dev nrFiles call fm :=
  rfl

theorem getExtentsTurn_withSettings (plain : cfg.excludeFlags = 0) (dev : Device) (call : Call)
    {reply : FiemapReply} (free : reply.Free settings.excludeFlags) (ctrl : Control) :
    getExtentsTurn (cfg.withSettings settings) dev call reply ctrl =
      getExtentsTurn cfg dev call reply ctrl := by
  cases reply with
  | ioctlFailed => rfl
  | mapped n fm =>
    have same : acceptExtent (cfg.withSettings settings) dev call fm ctrl =
        acceptExtent cfg dev call fm ctrl := by
      simp only [acceptExtent, disregarded_withSettings plain free, newExtent_withSettings]
    simp only [getExtentsTurn, same]

theorem replies_withSettings (plain : cfg.excludeFlags = 0)
    {answers : List (Device × FiemapReply)}
    (free : ∀ answer ∈ answers, answer.2.Free settings.excludeFlags) (m : Machine) :
    (replyEvents answers).foldlM (step (cfg.withSettings settings)) m =
      (replyEvents answers).foldlM (step cfg) m := by
  induction answers generalizing m with
  | nil => rfl
  | cons answer rest ih =>
    have here : step (cfg.withSettings settings) m (.reply answer.1 answer.2) =
        step cfg m (.reply answer.1 answer.2) := by
      simp only [step, getExtentsTurn_withSettings plain answer.1 _
        (free answer List.mem_cons_self)]
    rw [replyEvents, List.map_cons, List.foldlM_cons, List.foldlM_cons, here]
    congr 1
    funext next
    exact ih (fun other inside => free other (List.mem_cons_of_mem _ inside)) next

theorem collectFile_withSettings (plain : cfg.excludeFlags = 0) (heap : Nat → FileCounter)
    (filename : CString) {file : FileEntry}
    (free : ∀ answer ∈ file.answers.all, answer.2.Free settings.excludeFlags) (m : Machine) :
    collectFile (cfg.withSettings settings) heap filename file m =
      collectFile cfg heap filename file m := by
  cases access : file.access with
  | deleted => simp only [collectFile, access]
  | denied => simp only [collectFile, access]
  | opened =>
    have events : (file.call filename (heap m.opened)).events.foldlM
        (step (cfg.withSettings settings)) m =
          (file.call filename (heap m.opened)).events.foldlM (step cfg) m := by
      rw [FileCall.events, List.foldlM_cons, List.foldlM_cons]
      congr 1
      funext next
      exact replies_withSettings plain free next
    simp only [collectFile, access, events]

theorem unmappedCall_withSettings (plain : cfg.excludeFlags = 0)
    {answers : List (Device × FiemapReply)}
    (free : ∀ answer ∈ answers, answer.2.Free settings.excludeFlags) :
    unmappedCall (cfg.withSettings settings) answers = unmappedCall cfg answers := by
  induction answers with
  | nil => rfl
  | cons answer rest ih =>
    obtain ⟨dev, reply⟩ := answer
    have later := ih fun other inside => free other (List.mem_cons_of_mem _ inside)
    cases reply with
    | ioctlFailed => rfl
    | mapped n fm =>
      simp only [unmappedCall, disregarded_withSettings plain (free _ List.mem_cons_self), later]

theorem mapSource_withSettings (plain : cfg.excludeFlags = 0) (heap : Nat → FileCounter)
    (filename : CString) {file : FileEntry}
    (free : ∀ answer ∈ file.answers.all, answer.2.Free settings.excludeFlags)
    (zonemap : Option ZoneMap) :
    mapSource heap (.file filename file) ⟨cfg.withSettings settings, zonemap⟩ =
      mapSource heap (.file filename file) ⟨cfg, zonemap⟩ := by
  cases zonemap with
  | some zonemap => simp only [mapSource, collectFile_withSettings plain heap filename free]
  | none =>
    by_cases access : file.access = .opened
    · simp only [mapSource, Source.visits, access, if_true, unmappedVisits,
        unmappedCall_withSettings plain free]
    · simp only [mapSource, Source.visits, access, if_false, unmappedVisits]

end Mapping

section Report

variable {cfg : Config} {settings : SegmapSettings} {dev : Device} {opts : FiemapOptions}

theorem fiemapZones_withSettings (i : Nat) (zones : List Zone) (state : FiemapState) :
    fiemapZones (cfg.withSettings settings) dev opts i zones state =
      fiemapZones cfg dev opts i zones state := by
  have heading : ∀ zone, printZoneInfo (cfg.withSettings settings) dev zone =
      printZoneInfo cfg dev zone := fun _ => rfl
  induction zones generalizing i state with
  | nil => rfl
  | cons zone rest ih => simp only [fiemapZones, heading, ih]

theorem printFiemapReport_withSettings (zonemap : ZoneMap) :
    printFiemapReport (cfg.withSettings settings) dev opts zonemap =
      printFiemapReport cfg dev opts zonemap := by
  simp only [printFiemapReport, fiemapMappings, fiemapZones_withSettings]

end Report

section BtrfsSetUp

open SetUp

theorem initZnsdev_exits {shift : UInt32} {calls : ZnsdevCalls} {abort : Abort}
    (failed : initZnsdev shift calls = .error abort) : abort = .exitFailure := by
  cases opened : calls.opened <;> cases zoned : calls.zoned <;> cases sector : calls.sectorSize <;>
    cases report : calls.zoneReport <;>
    simp_all [initZnsdev, isZoned, getSectorSize, SetUp.initZoneMap, bind, Except.bind, pure,
      Except.pure]

theorem initBtrfs_exits {cfg : Config} {calls : BtrfsCalls} {abort : Abort}
    (failed : initBtrfs cfg calls = .error abort) : abort = .exitFailure := by
  cases device : initZnsdev 0 calls.znsdev with
  | error early =>
    have same : early = abort := by simpa [initBtrfs, device, bind, Except.bind] using failed
    exact same ▸ initZnsdev_exits device
  | ok znsdev => simp [initBtrfs, device, bind, Except.bind, pure, Except.pure] at failed

theorem initBtrfs_withSettings (cfg : Config) (settings : SegmapSettings) (calls : BtrfsCalls) :
    initBtrfs (cfg.withSettings settings) calls =
      (initBtrfs cfg calls).map fun ready => ⟨ready.cfg.withSettings settings, ready.zonemap⟩ := by
  simp only [initBtrfs]
  cases initZnsdev 0 calls.znsdev <;> rfl

theorem initBtrfs_plain {calls : BtrfsCalls} {ready : Ready}
    (run : initBtrfs Config.cleared calls = .ok ready) : ready.cfg.excludeFlags = 0 := by
  cases device : initZnsdev 0 calls.znsdev with
  | error early => simp [initBtrfs, device, bind, Except.bind] at run
  | ok znsdev =>
    simp only [initBtrfs, device, bind, Except.bind, pure, Except.pure, Except.ok.injEq] at run
    rw [← run]
    rfl

end BtrfsSetUp

section Options

open SetUp

def SegmapOptions.settings (opts : SegmapOptions) (isdir : Bool) : SegmapSettings :=
  { excludeFlags := opts.excludeFlags
    startZone := opts.startZone
    endZone := opts.endZone
    showClassStats := opts.showClassStats && opts.procfs
    showOnlyStats := opts.showOnlyStats
    procfs := opts.procfs
    isdir := isdir }

def SegmapOptions.selected (opts : SegmapOptions) (isdir : Bool) (nrZones : UInt32) :
    SegmapSettings :=
  { opts.settings isdir with
    startZone := if opts.startZone = 0 && !opts.setZone then 1 else opts.startZone
    endZone := if opts.endZone = 0 && !opts.setZone then nrZones else opts.endZone }

theorem control_settings {opts : SegmapOptions} {isdir : Bool} {cfg : Config}
    (allowed : opts.control isdir = .ok cfg) :
    cfg = Config.cleared.withSettings (opts.settings isdir) := by
  unfold SegmapOptions.control at allowed
  split at allowed
  · cases allowed
  · split at allowed
    · cases allowed
    · simpa [Config.withSettings, SegmapOptions.settings] using allowed.symm

theorem segmapReady_btrfs {opts : SegmapOptions} {isdir : Bool} {cfg : Config}
    (allowed : opts.control isdir = .ok cfg) (calls : BtrfsCalls) :
    segmapReady opts (some (.btrfs calls)) isdir =
      (initCtrl Config.cleared (some (.btrfs calls))).map fun ready =>
        ⟨ready.cfg.withSettings (opts.selected isdir ready.cfg.znsdev.nrZones), ready.zonemap⟩ := by
  simp only [segmapReady, allowed, SetUp.checkDirInitCtrl, initCtrl, bind, Except.bind,
    control_settings allowed, initBtrfs_withSettings]
  cases initBtrfs Config.cleared calls <;> rfl

end Options

section Tools

variable {opts : SegmapOptions} {calls : SetUp.BtrfsCalls} {heap : Nat → FileCounter}
  {filename : CString} {file : FileEntry} {dev : Device} {fuel : List Extent → Nat}

theorem mapSource_unopened (closed : file.access ≠ .opened) (ready : SetUp.Ready) :
    mapSource heap (.file filename file) ready = .error .exitFailure := by
  cases zonemap : ready.zonemap <;>
    simp [mapSource, zonemap, Source.visits, closed, unmappedVisits]

/-- On a file of Btrfs none of whose extents is excluded, zns.segmap and zns.fiemap print the same
    report or fail in the same way: the zones, the class statistics, `-p` and `-j` change
    nothing. -/
theorem segmap_is_fiemap_on_btrfs (cfg : Config) (allowed : opts.control false = .ok cfg)
    (free : ∀ answer ∈ file.answers.all, answer.2.Free opts.excludeFlags) :
    znsSegmap opts (some (.btrfs calls)) heap (.file filename file) dev fuel =
      some ((znsFiemap opts.holes (some (.btrfs calls)) heap filename file dev).map
        .extents) := by
  have setUp := segmapReady_btrfs allowed calls
  simp only [znsSegmap, znsFiemap, Source.isdir, setUp]
  cases init : SetUp.initCtrl Config.cleared (some (.btrfs calls)) with
  | error abort =>
    have exits : abort = .exitFailure := initBtrfs_exits init
    by_cases access : file.access = .opened <;>
      simp [access, exits, Except.map, bind, Except.bind]
  | ok ready =>
    have plain : ready.cfg.excludeFlags = 0 := initBtrfs_plain init
    have mapped := @mapSource_withSettings ready.cfg
      (opts.selected false ready.cfg.znsdev.nrZones) plain heap filename file free ready.zonemap
    by_cases access : file.access = .opened
    · simp only [access, if_true, Except.map, bind, Except.bind, pure, Except.pure, mapped]
      cases run : mapSource heap (.file filename file) ready with
      | error abort => rfl
      | ok m =>
        simp only [znsSegmapReport, Source.isdir, Bool.false_and, Bool.false_eq_true, if_false,
          printFiemapReport_withSettings]
        rfl
    · simp [access, Except.map, bind, Except.bind, mapSource_unopened access]

end Tools

def btrfsCalls : SetUp.BtrfsCalls where
  znsdev := ⟨true, .answered (), .answered 512, .answered 2, .answered ()⟩
  zoneSize := .answered 16384
  nrZones := .answered 2

-- -z 1 -p -o, where the extent is in the second zone.
theorem statistics_of_btrfs :
    let opts := { plainOptions with
      startZone := 1, endZone := 1, setZone := true
      showClassStats := true, showOnlyStats := true, procfs := true }
    let dev := fullZones warmConfig
    let fiemap := znsFiemap ⟨true, false⟩ (some (.btrfs btrfsCalls)) (fun _ => FileCounter.zero)
      [97] (secondZoneFile dev) dev
    fiemap.isOk = true ∧
      znsSegmap opts (some (.btrfs btrfsCalls)) (fun _ => FileCounter.zero)
        (.file [97] (secondZoneFile dev)) dev List.length = some (fiemap.map .extents) := by
  refine ⟨by decide +kernel, segmap_is_fiemap_on_btrfs _ rfl ?_⟩
  intro answer inside
  have only : answer = (secondZoneFile (fullZones warmConfig)).answers.final := by
    simpa [FileAnswers.all, secondZoneFile] using inside
  rw [only]
  rfl

end ZnsTools
