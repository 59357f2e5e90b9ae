import ZnsTools.Shared.CText
import ZnsTools.Types

set_option autoImplicit false

namespace ZnsTools

open PyText (Text)
open CText (atoi cString getlines strsep)

def pathBytes : Nat := 50
def maxDevName : Nat := 15

-- What `fopen` finds under a path.
abbrev Procfs := Text → Option Text

def SegmentType.ofInt (value : Int32) : SegmentType :=
  match value.toInt with
  | 0 => .cursegHotData
  | 1 => .cursegWarmData
  | 2 => .cursegColdData
  | 3 => .cursegHotNode
  | 4 => .cursegWarmNode
  | 5 => .cursegColdNode
  | 6 => .noCheckType
  | _ => .other value

def SegmentManager.update (segman : SegmentManager) (write : SegmentInfo → SegmentInfo) :
    Except Abort SegmentManager :=
  if segman.nrSegments.toNat < segman.segments.length then
    .ok { segman with segments := segman.segments.modify segman.nrSegments.toNat write }
  else .error .badAccess

def readPieces : Bool → List Text → SegmentManager → Except Abort SegmentManager
  | _, [], segman => .ok segman
  | setFirst, splitString :: rest, segman =>
    if splitString = ['|'] then readPieces setFirst rest segman
    else if !setFirst then do
      let segman ← segman.update fun segI => { segI with type := .ofInt (atoi splitString) }
      readPieces true rest segman
    else do
      let segman ← segman.update fun segI =>
        { segI with validBlocks := (atoi splitString).toUInt32 }
      readPieces setFirst rest segman

def readContents (segman : SegmentManager) (contents : Text) : Except Abort SegmentManager :=
  if '|' ∈ contents then do
    let segman ← readPieces false (strsep ['|'] contents) segman
    let segman ← segman.update fun segI => { segI with id := segman.nrSegments }
    pure { segman with nrSegments := segman.nrSegments + 1 }
  else pure segman

def readLine (segman : SegmentManager) (line : Text) : Except Abort SegmentManager :=
  (strsep [' ', '\t'] (cString line)).foldlM readContents segman

-- The first two lines show the format.
def readLines (highestSegment : UInt32) :
    Nat → List Text → SegmentManager → Except Abort SegmentManager
  | _, [], segman => .ok segman
  | lineCtr, line :: rest, segman =>
    if lineCtr < 2 then readLines highestSegment (lineCtr + 1) rest segman
    else do
      let segman ← readLine segman line
      if highestSegment < segman.nrSegments then pure segman
      else readLines highestSegment lineCtr rest segman

def procfsDirectory : Text := "/proc/fs/f2fs/".toList
def segmentInfoName : Text := "/segment_info".toList

-- Of the name, what follows its last slash.
def segmentInfoPath (devName : Text) : Text :=
  procfsDirectory ++ (strsep ['/'] devName).getLastD [] ++ segmentInfoName

def initProcfsSegmentBits (procfs : Procfs) (devName : Text) (highestSegment : UInt32)
    (segman : SegmentManager) : Except Abort (Bool × SegmentManager) :=
  if pathBytes ≤ (segmentInfoPath devName).length then .error .badAccess
  else
    match procfs (segmentInfoPath devName) with
    | none => .ok (false, segman)
    | some contents => do
      let segman ← readLines highestSegment 0 (getlines contents) segman
      pure (true, segman)

def callocSegments (segmentCountMain : UInt32) : SegmentManager :=
  ⟨0, List.replicate segmentCountMain.toNat ⟨0, .cursegHotData, 0⟩⟩

def f2fsFsManagerInit (procfs : Procfs) (devName : Text) (segmentCountMain : UInt32) :
    Except Abort (Option SegmentManager) := do
  let (success, segman) ← initProcfsSegmentBits procfs devName segmentCountMain
    (callocSegments segmentCountMain)
  pure (if success then some segman else none)

end ZnsTools
