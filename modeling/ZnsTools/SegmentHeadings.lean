import ZnsTools.FileCounters
import ZnsTools.JsonRuns
import ZnsTools.SegmentTable

set_option autoImplicit false

namespace ZnsTools

-- What both reports show of a table entry: the name of its type and its valid blocks.
def SegmentInfo.display (cfg : Config) (segI : SegmentInfo) : String × UInt32 :=
  (segI.type.name, segI.shownBlocks cfg.sectorShift)

def Config.display (cfg : Config) (segment : Nat) : Option (String × UInt32) :=
  (cfg.tableEntry segment).map (·.display cfg)

def HeadingExact (cfg : Config) (heading : SegmentHeading) : Prop :=
  cfg.display heading.segment.toNat = some (heading.type, heading.validBlocks)

def InfoExact (cfg : Config) (info : JsonSegmentInfo) : Prop :=
  ∃ shown, cfg.display info.segment.toNat = some shown ∧
    info.type = typeMember shown.1 ∧ info.validBlocks = shown.2.toInt32

def Line.heading? : Line → Option SegmentHeading
  | .segment heading => some heading
  | _ => none

def headings (lines : List Line) : List SegmentHeading :=
  lines.filterMap Line.heading?

def headed (current segment : Nat) : List Nat :=
  if current = segment then [] else [segment]

-- The segments that the report prints headings of when it shows an extent.
def headedSegments (g : Geometry) (e : Extent) (current : Nat) : List Nat :=
  let first := e.first g
  let last := e.last g
  let aligned := e.phyBlk.toNat = first * g.segmentSize
  let begun := if aligned then current else first
  let middle := if aligned then first else first + 1
  if first = last ∨ e.stop = (first + 1) * g.segmentSize then headed current first
  else
    (if aligned then [] else headed current first) ++
    (if last ≤ first + 1 then [] else headed begun middle) ++
    (if last * g.segmentSize = e.stop then []
      else headed (if last ≤ first + 1 then begun else middle) last)

-- The later segments of an extent are shown right if they look like the first one, whose table entry
-- the extent carries. The heading of the last one is left out when it is the current segment.
def HeadingsExact (cfg : Config) (e : Extent) (current : Nat) : Prop :=
  let first := e.first cfg.toGeometry
  let last := e.last cfg.toGeometry
  (e.phyBlk.toNat % cfg.segmentSize ≠ 0 → first + 2 ≤ last →
    cfg.display (first + 1) = cfg.display first) ∧
  (first < last → e.stop % cfg.segmentSize ≠ 0 →
    ¬ (e.phyBlk.toNat % cfg.segmentSize = 0 ∧ last = first + 1 ∧ current = last) →
    cfg.display last = cfg.display first)

instance (cfg : Config) (e : Extent) (current : Nat) : Decidable (HeadingsExact cfg e current) :=
  inferInstanceAs (Decidable ((_ → _ → _) ∧ (_ → _ → _ → _)))

-- The JSON report shows the first segment, and the second one in front of a run of segments.
def InfosExact (cfg : Config) (e : Extent) : Prop :=
  e.phyBlk.toNat % cfg.segmentSize ≠ 0 →
    e.first cfg.toGeometry + 2 ≤ e.last cfg.toGeometry →
      cfg.display (e.first cfg.toGeometry + 1) = cfg.display (e.first cfg.toGeometry)

@[simp]
theorem headings_nil : headings [] = [] :=
  rfl

@[simp]
theorem headings_append (front back : List Line) :
    headings (front ++ back) = headings front ++ headings back :=
  List.filterMap_append

section Shown

variable {cfg : Config} {nrFiles : UInt32} {counters : FileCounterMap} {segI : SegmentInfo}
  {e : Extent} {state : ReportState}

structure Headed (cfg : Config) (segI : SegmentInfo) (segments : List Nat) (lines : List Line) :
    Prop where
  segments : (headings lines).map (·.segment.toNat) = segments
  shown : ∀ heading ∈ headings lines, (heading.type, heading.validBlocks) = segI.display cfg

namespace Headed

theorem append {front back : List Nat} {first second : List Line}
    (one : Headed cfg segI front first) (other : Headed cfg segI back second) :
    Headed cfg segI (front ++ back) (first ++ second) where
  segments := by rw [headings_append, List.map_append, one.segments, other.segments]
  shown := by
    rw [headings_append]
    exact List.forall_mem_append.mpr ⟨one.shown, other.shown⟩

theorem plain {lines : List Line} (none : headings lines = []) : Headed cfg segI [] lines where
  segments := by rw [none]; rfl
  shown := by simp [none]

end Headed

theorem showSegmentInfo_headed (segI : SegmentInfo) (shown : cfg.showOnlyStats = false)
    (segment current : UInt64) :
    Headed cfg segI (headed current.toNat segment.toNat)
      (showSegmentInfo cfg segI segment current) := by
  rw [showSegmentInfo, headed]
  by_cases same : current = segment
  · rw [if_pos same, if_pos (congrArg UInt64.toNat same)]
    exact .plain rfl
  · rw [if_neg same, if_neg fun equal => same (UInt64.toNat_inj.mp equal), rep, shown]
    exact ⟨rfl, List.forall_mem_singleton.mpr rfl⟩

theorem rep_plain {lines : List Line} (none : headings lines = []) :
    headings (rep cfg lines) = [] := by
  rw [rep]
  split
  · rfl
  · exact none

theorem Headed.followed {segments : List Nat} {first : List Line}
    (heading : Headed cfg segI segments first) {lines : List Line} (none : headings lines = []) :
    Headed cfg segI segments (first ++ rep cfg lines) := by
  simpa using heading.append (.plain (rep_plain none))

theorem Headed.preceded {segments : List Nat} {last : List Line}
    (heading : Headed cfg segI segments last) {lines : List Line} (none : headings lines = []) :
    Headed cfg segI segments (rep cfg lines ++ last) :=
  append (.plain (rep_plain none)) heading

theorem showFirst_headed (supported : cfg.toGeometry.Supported)
    (shown : cfg.showOnlyStats = false) :
    Headed cfg segI (headed state.curSegment.toNat (e.first cfg.toGeometry))
      (showSegmentInfo cfg segI (cfg.segmentId e.phyBlk) state.curSegment) := by
  have id : (cfg.segmentId e.phyBlk).toNat = e.first cfg.toGeometry :=
    Geometry.segmentId_toNat supported e.phyBlk
  rw [← id]
  exact showSegmentInfo_headed segI shown _ _

theorem showWholeExtent_headed (supported : cfg.toGeometry.Supported)
    (shown : cfg.showOnlyStats = false) :
    Headed cfg segI (headed state.curSegment.toNat (e.first cfg.toGeometry))
      (showWholeExtent cfg nrFiles counters segI e state).2 :=
  (showFirst_headed supported shown).followed rfl

theorem showBeginning_headed (nrFiles : UInt32) (counters : FileCounterMap)
    (segI : SegmentInfo) (e : Extent) (state : ReportState)
    (supported : cfg.toGeometry.Supported)
    (shown : cfg.showOnlyStats = false) :
    Headed cfg segI
      (if e.phyBlk.toNat = e.first cfg.toGeometry * cfg.segmentSize then []
        else headed state.curSegment.toNat (e.first cfg.toGeometry))
      (showBeginning cfg nrFiles counters segI e state).2 ∧
    (showBeginning cfg nrFiles counters segI e state).1.curSegment.toNat =
      if e.phyBlk.toNat = e.first cfg.toGeometry * cfg.segmentSize then state.curSegment.toNat
      else e.first cfg.toGeometry := by
  rw [showBeginning_eq supported]
  split
  · exact ⟨.plain rfl, rfl⟩
  · exact ⟨(showFirst_headed supported shown).followed rfl, Geometry.segmentId_toNat supported _⟩

theorem showConsecutiveSegments_headed (shown : cfg.showOnlyStats = false)
    (segmentStart : UInt64) :
    Headed cfg segI (headed state.curSegment.toNat segmentStart.toNat)
      (showConsecutiveSegments cfg nrFiles counters segI e segmentStart state).2 := by
  have heading := showSegmentInfo_headed segI shown segmentStart state.curSegment
  rw [showConsecutiveSegments]
  dsimp only
  split
  · exact heading.followed rfl
  · exact (heading.preceded rfl).followed rfl

theorem showMiddle_headed (nrFiles : UInt32) (counters : FileCounterMap)
    (segI : SegmentInfo) (state : ReportState)
    (supported : cfg.toGeometry.Supported)
    (shown : cfg.showOnlyStats = false) (addressed : e.stop < 2 ^ 56) :
    Headed cfg segI
      (if e.last cfg.toGeometry ≤ e.first cfg.toGeometry + 1 then []
        else headed state.curSegment.toNat
          (if e.phyBlk.toNat = e.first cfg.toGeometry * cfg.segmentSize
            then e.first cfg.toGeometry else e.first cfg.toGeometry + 1))
      (showMiddle cfg nrFiles counters segI e state).2 ∧
    (showMiddle cfg nrFiles counters segI e state).1.curSegment.toNat =
      if e.last cfg.toGeometry ≤ e.first cfg.toGeometry + 1 then state.curSegment.toNat
      else if e.phyBlk.toNat = e.first cfg.toGeometry * cfg.segmentSize
        then e.first cfg.toGeometry else e.first cfg.toGeometry + 1 := by
  rw [showMiddle_eq supported addressed]
  split
  · exact ⟨.plain rfl, rfl⟩
  · rw [← Extent.middleSegment_toNat supported addressed]
    exact ⟨showConsecutiveSegments_headed shown _, rfl⟩

theorem showRemainder_headed (nrFiles : UInt32) (counters : FileCounterMap)
    (segI : SegmentInfo) (state : ReportState)
    (supported : cfg.toGeometry.Supported)
    (shown : cfg.showOnlyStats = false) (addressed : e.stop < 2 ^ 56) :
    Headed cfg segI
      (if e.last cfg.toGeometry * cfg.segmentSize = e.stop then []
        else headed state.curSegment.toNat (e.last cfg.toGeometry))
      (showRemainder cfg nrFiles counters segI e state).2 := by
  rw [showRemainder_eq supported addressed]
  split
  · exact .plain rfl
  · have heading := showSegmentInfo_headed segI shown (e.endSegment cfg.toGeometry)
      state.curSegment
    rw [Extent.endSegment_toNat supported addressed] at heading
    exact heading.followed rfl

theorem showExtent_headed (supported : cfg.toGeometry.Supported)
    (shown : cfg.showOnlyStats = false) (addressed : e.stop < 2 ^ 56) :
    Headed cfg segI (headedSegments cfg.toGeometry e state.curSegment.toNat)
      (showExtent cfg nrFiles counters segI e state).2 := by
  rw [showExtent_eq supported addressed, headedSegments]
  split
  · exact showWholeExtent_headed supported shown
  · obtain ⟨beginning, begun⟩ := showBeginning_headed nrFiles counters segI e state supported shown
    obtain ⟨middle, reached⟩ := showMiddle_headed nrFiles counters segI
      (showBeginning cfg nrFiles counters segI e state).1 supported shown addressed
    have remainder := showRemainder_headed nrFiles counters segI (showMiddle cfg nrFiles counters
      segI e (showBeginning cfg nrFiles counters segI e state).1).1 supported shown addressed
    rw [reached] at remainder
    rw [begun] at middle remainder
    exact (beginning.append middle).append remainder

theorem aligned_mod (supported : cfg.toGeometry.Supported) (e : Extent) :
    e.phyBlk.toNat = e.first cfg.toGeometry * cfg.segmentSize ↔
      e.phyBlk.toNat % cfg.segmentSize = 0 := by
  rw [Extent.first]
  rcases supported.size with size | size <;> rw [size] <;> omega

theorem headedSegments_exact_iff (supported : cfg.toGeometry.Supported) (current : Nat) :
    (∀ segment ∈ headedSegments cfg.toGeometry e current,
      cfg.display segment = cfg.display (e.first cfg.toGeometry)) ↔
      HeadingsExact cfg e current := by
  have aligned := aligned_mod supported e
  have filled : e.last cfg.toGeometry * cfg.segmentSize = e.stop ↔
      e.stop % cfg.segmentSize = 0 := by
    rw [Extent.last]
    rcases supported.size with size | size <;> rw [size] <;> omega
  have ends : e.stop = (e.first cfg.toGeometry + 1) * cfg.segmentSize ↔
      e.last cfg.toGeometry = e.first cfg.toGeometry + 1 ∧ e.stop % cfg.segmentSize = 0 := by
    rw [Extent.last]
    rcases supported.size with size | size <;> rw [size] <;> omega
  have ordered := Extent.first_le_last cfg.toGeometry e
  simp only [headedSegments, HeadingsExact, aligned, filled, ends]
  generalize e.first cfg.toGeometry = first at *
  generalize e.last cfg.toGeometry = last at *
  by_cases start : e.phyBlk.toNat % cfg.segmentSize = 0 <;>
    by_cases finish : e.stop % cfg.segmentSize = 0 <;>
    simp only [start, finish] <;> grind [headed]

theorem Headed.exact_iff {segments : List Nat} {lines : List Line}
    (headed : Headed cfg segI segments lines)
    (tabled : cfg.tableEntry (e.first cfg.toGeometry) = some segI) :
    (∀ heading ∈ headings lines, HeadingExact cfg heading) ↔
      ∀ segment ∈ segments, cfg.display segment = cfg.display (e.first cfg.toGeometry) := by
  have own : cfg.display (e.first cfg.toGeometry) = some (segI.display cfg) := by
    rw [Config.display, tabled, Option.map_some]
  rw [← headed.segments, List.forall_mem_map]
  refine forall_congr' fun heading => forall_congr' fun inside => ?_
  rw [HeadingExact, headed.shown heading inside, own]

theorem headings_heading {heading : List Line}
    (lines : ∀ line ∈ heading, line = .formatter ∨ ∃ zone, line = .zone zone) :
    headings heading = [] := by
  refine List.filterMap_eq_nil_iff.mpr fun line inside => ?_
  rcases lines line inside with rfl | ⟨zone, rfl⟩ <;> rfl

theorem headings_silent (silent : cfg.showOnlyStats = true) :
    headings (showExtent cfg nrFiles counters segI e state).2 = [] := by
  have info : ∀ segment current, showSegmentInfo cfg segI segment current = [] := by
    intro segment current
    simp [showSegmentInfo, rep, silent]
  simp only [showExtent, showWholeExtent, showBeginning, showMiddle, showConsecutiveSegments,
    showRemainder, showRemainderSegment, showBeginningSegment, info, rep, silent, if_true]
  split
  · rfl
  · split <;> split <;> split <;> simp

theorem showExtentTurn_exact_iff {dev : Device} {next : ReportState} {out : List Line}
    (supported : cfg.toGeometry.Supported) (addressed : e.stop < 2 ^ 56)
    (tabled : e.fsInfo = cfg.tableEntry (e.phyBlk.toNat / cfg.segmentSize))
    (turn : showExtentTurn cfg dev nrFiles e state = .ok (.advance next out)) :
    (∀ heading ∈ headings out, HeadingExact cfg heading) ↔
      cfg.showOnlyStats = true ∨ HeadingsExact cfg e state.curSegment.toNat := by
  obtain ⟨before, after⟩ := showExtentTurn_advance turn
  obtain ⟨heading, segI, current, counted, _, lines, found, -, -, rfl, flow⟩ :=
    showExtentTurn_ok before after turn
  cases flow
  rw [headings_append, headings_heading lines, List.nil_append]
  cases shown : cfg.showOnlyStats with
  | true => simp [headings_silent shown]
  | false =>
    rw [(showExtent_headed supported shown addressed).exact_iff (tabled ▸ found),
      headedSegments_exact_iff supported]
    simp

end Shown

section Made

variable {cfg : Config} {counters : Option FileCounterMap} {segI : SegmentInfo} {e : Extent}
  {state : JsonState}

theorem typeMember_inj {a b : String} (same : typeMember a = typeMember b) : a = b := by
  rw [typeMember, typeMember] at same
  split at same <;> split at same <;> simp_all

theorem segmentInfoOf_exact_iff (tabled : cfg.tableEntry (e.first cfg.toGeometry) = some segI)
    (segment : UInt64) :
    InfoExact cfg (segmentInfoOf cfg segI segment) ↔
      cfg.display segment.toNat = cfg.display (e.first cfg.toGeometry) := by
  have own : cfg.display (e.first cfg.toGeometry) = some (segI.display cfg) := by
    rw [Config.display, tabled, Option.map_some]
  rw [own]
  constructor
  · rintro ⟨⟨name, blocks⟩, found, type, valid⟩
    have names : segI.type.name = name := typeMember_inj type
    have shown : segI.shownBlocks cfg.sectorShift = blocks := congrArg Int32.toUInt32 valid
    rw [SegmentInfo.display, names, shown]
    exact found
  · intro same
    exact ⟨_, same, rfl, rfl⟩

theorem jsonExtentTurn_exact_iff {fuel : Nat} {next : JsonState} {made : List JsonSegmentInfo}
    (supported : cfg.toGeometry.Supported) (addressed : e.stop < 2 ^ 56)
    (tabled : e.fsInfo = cfg.tableEntry (e.phyBlk.toNat / cfg.segmentSize))
    (turn : jsonExtentTurn cfg counters fuel e state = .ok (.advance next made)) :
    (∀ info ∈ made, InfoExact cfg info) ↔ InfosExact cfg e := by
  have id : (cfg.segmentId e.phyBlk).toNat = e.first cfg.toGeometry :=
    Geometry.segmentId_toNat supported e.phyBlk
  have exact : ∀ segI, e.fsInfo = some segI → ∀ segment, InfoExact cfg (segmentInfoOf cfg segI segment) ↔
      cfg.display segment.toNat = cfg.display (e.first cfg.toGeometry) := by
    intro segI found
    exact segmentInfoOf_exact_iff (tabled ▸ found)
  rcases jsonExtentTurn_ok turn with ⟨-, flow⟩ | ⟨-, flow⟩ |
    ⟨changed, next, first, made, change, files, flow⟩
  · cases flow
  · cases flow
  cases flow
  have first_exact : ∀ info ∈ first, InfoExact cfg info := by
    rcases jsonChangeSegment_ok change with ⟨-, -, rfl⟩ | ⟨-, segI, found, rfl, -⟩
    · simp
    · exact List.forall_mem_singleton.mpr ((exact segI found _).mpr (by rw [id]))
  rw [List.forall_mem_append, and_iff_right first_exact]
  cases files with
  | whole one =>
    have near := Extent.last_le_of_inOneSegment supported addressed one
    simp [InfosExact, show ¬ e.first cfg.toGeometry + 2 ≤ e.last cfg.toGeometry by omega]
  | split several beginning middle remainder =>
    rcases jsonMiddle_ok supported addressed middle with ⟨near, -, rfl⟩ |
      ⟨far, segI, map, n, found, -, rfl, -⟩
    · simp [InfosExact, show ¬ e.first cfg.toGeometry + 2 ≤ e.last cfg.toGeometry by omega]
    · have start := Extent.middleSegment_toNat supported addressed
      rw [List.forall_mem_replicate, or_iff_right (Nat.succ_ne_zero n), exact segI found, start,
        InfosExact]
      simp only [aligned_mod supported]
      by_cases aligned : e.phyBlk.toNat % cfg.segmentSize = 0 <;> simp [aligned, far]

end Made

/-- In every pass of either report, in whatever state it begins, and so in every run: what is shown
under a segment's number is that segment's table entry exactly if the segments of the extent whose
headings or infos are made look like its first segment. -/
theorem segment_entries_shown_iff (cfg : Config) (dev : Device) (ctrl : Control)
    (supported : cfg.toGeometry.Supported)
    (addressed : ∀ e ∈ ctrl.zonemap.extents, e.stop < 2 ^ 56)
    (tabled : ∀ e ∈ ctrl.zonemap.extents,
      e.fsInfo = cfg.tableEntry (e.phyBlk.toNat / cfg.segmentSize)) :
    (∀ e ∈ ctrl.zonemap.extents, ∀ state next out,
      showExtentTurn cfg dev ctrl.nrFiles e state = .ok (.advance next out) →
        ((∀ heading ∈ headings out, HeadingExact cfg heading) ↔
          cfg.showOnlyStats = true ∨ HeadingsExact cfg e state.curSegment.toNat)) ∧
    (∀ fuel final passes, showSegments cfg dev fuel ctrl = some (.ok (final, passes)) →
      ∀ pass ∈ passes, ((∀ heading ∈ headings pass.out, HeadingExact cfg heading) ↔
        cfg.showOnlyStats = true ∨ HeadingsExact cfg pass.item pass.before.curSegment.toNat)) ∧
    (∀ e ∈ ctrl.zonemap.extents, ∀ fuel state next made,
      jsonExtentTurn cfg ctrl.fileCounterMap fuel e state = .ok (.advance next made) →
        ((∀ info ∈ made, InfoExact cfg info) ↔ InfosExact cfg e)) ∧
    ∀ fuel inner final passes,
      jsonDumpF2fsZonemap cfg dev fuel inner ctrl = some (.ok (final, passes)) →
        ∀ pass ∈ passes, ((∀ info ∈ pass.out, InfoExact cfg info) ↔ InfosExact cfg pass.item) := by
  have text : ∀ e ∈ ctrl.zonemap.extents, ∀ state next out,
      showExtentTurn cfg dev ctrl.nrFiles e state = .ok (.advance next out) →
        ((∀ heading ∈ headings out, HeadingExact cfg heading) ↔
          cfg.showOnlyStats = true ∨ HeadingsExact cfg e state.curSegment.toNat) :=
    fun e inside _ _ _ turn =>
      showExtentTurn_exact_iff supported (addressed e inside) (tabled e inside) turn
  have json : ∀ e ∈ ctrl.zonemap.extents, ∀ fuel state next made,
      jsonExtentTurn cfg ctrl.fileCounterMap fuel e state = .ok (.advance next made) →
        ((∀ info ∈ made, InfoExact cfg info) ↔ InfosExact cfg e) :=
    fun e inside _ _ _ _ turn =>
      jsonExtentTurn_exact_iff supported (addressed e inside) (tabled e inside) turn
  refine ⟨text, ?_, json, ?_⟩
  · intro fuel final passes result pass inside
    obtain ⟨-, each⟩ := CursorLoop.scans_keeps (fun _ => True) (fun _ => True) _
      (fun _ _ _ _ _ _ _ _ => trivial) (fun _ _ => trivial) (fun _ _ _ _ => trivial) result trivial
    obtain ⟨⟨extents, listed, member⟩, turn⟩ := each pass inside
    exact text _ (mem_scanned listed member) _ _ _ turn
  · intro fuel inner final passes result pass inside
    obtain ⟨-, each⟩ := CursorLoop.scans_keeps (fun _ => True) (fun _ => True) _
      (fun _ _ _ _ _ _ _ _ => trivial) (fun _ _ => trivial) (fun _ _ _ _ => trivial) result trivial
    obtain ⟨⟨extents, listed, member⟩, turn⟩ := each pass inside
    exact json _ (mem_scanned listed member) _ _ _ _ turn

def gradedConfig : Config :=
  segmapConfig 512 0 16384 2 ((List.range 8).map fun id =>
    ⟨id.toUInt32, .cursegWarmData, 8 * id.toUInt32⟩)

def gradedFile (phyBlk len : UInt64) : Control :=
  collected gradedConfig
    (mapFile gradedConfig [97] 16 [⟨0, phyBlk * 512, len * 512, fiemapExtentLast⟩])

-- From inside segment 1 to inside segment 3: both reports show the blocks of segment 1 for segment
-- 2, and the text report for segment 3, too.
theorem first_entry_shown_for_later_segments :
    (gradedFile 4104 8192).zonemap.extents.map (fun e => (e.phyBlk, e.len)) = [(4104, 8192)] ∧
    (∃ final passes, showSegments gradedConfig (fullZones gradedConfig) List.length
        (gradedFile 4104 8192) = some (.ok (final, passes)) ∧
      ∃ pass ∈ passes, ∃ heading ∈ headings pass.out, ¬ HeadingExact gradedConfig heading) ∧
    ∃ final passes, jsonDumpF2fsZonemap gradedConfig (fullZones gradedConfig) List.length 1
        (gradedFile 4104 8192) = some (.ok (final, passes)) ∧
      ∃ pass ∈ passes, ∃ info ∈ pass.out, ¬ InfoExact gradedConfig info := by
  have text : (showSegments gradedConfig (fullZones gradedConfig) List.length
      (gradedFile 4104 8192)).map (·.map fun run => run.2.map fun pass =>
        (headings pass.out).map fun heading => (heading.segment, heading.validBlocks)) =
      some (.ok [[(1, 64), (2, 64), (3, 64)]]) := by
    decide
  have json : (jsonDumpF2fsZonemap gradedConfig (fullZones gradedConfig) List.length 1
      (gradedFile 4104 8192)).map (·.map fun run => run.2.map fun pass =>
        pass.out.map fun info => (info.segment, info.validBlocks)) =
      some (.ok [[(1, 64), (2, 64)]]) := by
    decide
  have second : gradedConfig.display 2 = some ("CURSEG_WARM_DATA", 128) := by decide
  refine ⟨by decide, ?_, ?_⟩
  · obtain ⟨⟨final, passes⟩, result, shown⟩ := Runs.some_map_ok text
    obtain ⟨pass, rfl, lines⟩ := List.map_eq_singleton_iff.mp shown
    have member : ((2, 64) : UInt64 × UInt32) ∈ (headings pass.out).map fun heading =>
        (heading.segment, heading.validBlocks) := by
      rw [lines]
      decide
    obtain ⟨heading, inside, same⟩ := List.mem_map.mp member
    obtain ⟨segment, blocks⟩ := Prod.mk.inj same
    refine ⟨final, [pass], result, pass, by simp, heading, inside, fun exact => ?_⟩
    rw [HeadingExact, segment, blocks, show (2 : UInt64).toNat = 2 from rfl, second] at exact
    exact absurd (show (128 : UInt32) = 64 from congrArg Prod.snd (Option.some.inj exact)) (by decide)
  · obtain ⟨⟨final, passes⟩, result, shown⟩ := Runs.some_map_ok json
    obtain ⟨pass, rfl, infos⟩ := List.map_eq_singleton_iff.mp shown
    have member : ((2, 64) : UInt64 × Int32) ∈ pass.out.map fun info =>
        (info.segment, info.validBlocks) := by
      rw [infos]
      decide
    obtain ⟨info, inside, same⟩ := List.mem_map.mp member
    obtain ⟨segment, blocks⟩ := Prod.mk.inj same
    refine ⟨final, [pass], result, pass, by simp, info, inside, fun exact => ?_⟩
    obtain ⟨shown, found, -, valid⟩ := exact
    rw [segment, show (2 : UInt64).toNat = 2 from rfl, second] at found
    rw [blocks, ← Option.some.inj found] at valid
    exact absurd valid (by decide)

theorem whole_segments_shown_exactly :
    ∃ final passes, showSegments gradedConfig (fullZones gradedConfig) List.length
        (gradedFile 4096 8192) = some (.ok (final, passes)) ∧
      ∀ pass ∈ passes, ∀ heading ∈ headings pass.out, HeadingExact gradedConfig heading := by
  have computed : (showSegments gradedConfig (fullZones gradedConfig) List.length
      (gradedFile 4096 8192)).map (·.map fun run => run.2.all fun pass =>
        decide (HeadingsExact gradedConfig pass.item pass.before.curSegment.toNat)) =
      some (.ok true) := by
    decide
  obtain ⟨⟨final, passes⟩, result, each⟩ := Runs.some_map_ok computed
  have iff := (segment_entries_shown_iff gradedConfig (fullZones gradedConfig)
    (gradedFile 4096 8192) (.inl rfl) (by decide) (by decide)).2.1 List.length final passes result
  refine ⟨final, passes, result, fun pass inside => (iff pass inside).mpr (.inr ?_)⟩
  exact of_decide_eq_true (List.all_eq_true.mp each pass inside)

end ZnsTools
