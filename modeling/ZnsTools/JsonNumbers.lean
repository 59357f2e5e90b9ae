import ZnsTools.JsonDump
import ZnsTools.Shared.Digits

set_option autoImplicit false

namespace ZnsTools

def btrfsMagic : UInt64 := 0x9123683E
def f2fsMagic : UInt64 := 0xF2F52010

structure NamedBdev extends Bdev where
  devName : CString
  devPath : CString
  linkName : CString
  isZoned : Bool
  deriving DecidableEq, Repr

structure DumpSetup where
  bdev : NamedBdev
  znsdev : NamedBdev
  multiDev : Bool
  fsMagic : UInt64
  deriving DecidableEq, Repr

structure JsonZones where
  nrZones : Int32
  zoneSize : Int32
  zoneMask : Hex32
  sectorSize : Int32
  sectorShift : Int32
  deriving DecidableEq, Repr

structure JsonBdev where
  devName : CString
  devPath : CString
  linkName : CString
  isZoned : Bool
  zones : Option JsonZones
  deriving DecidableEq, Repr

-- `segmentSectors` is written as a double, which holds it exactly.
structure JsonF2fsInfo where
  segmentSectors : UInt64
  segmentShift : Int32
  segmentMask : Hex64
  deriving DecidableEq, Repr

structure JsonFsInfo where
  fsMagic : Hex64
  fs : Option String
  f2fs : Option JsonF2fsInfo
  deriving DecidableEq, Repr

structure JsonCtrlConfig where
  dev1 : Option JsonBdev
  dev2 : JsonBdev
  filesystem : JsonFsInfo
  deriving DecidableEq, Repr

-- The document without the name of the program and the time.
structure JsonRoot where
  config : JsonCtrlConfig
  zonemap : Option JsonZonemap
  deriving DecidableEq, Repr

def jsonGetBdev (cfg : Config) (bdev : NamedBdev) : JsonBdev where
  devName := bdev.devName
  devPath := bdev.devPath
  linkName := bdev.linkName
  isZoned := bdev.isZoned
  zones := if bdev.isZoned then some {
      nrZones := bdev.nrZones.toInt32
      zoneSize := bdev.zoneSize.toUInt32.toInt32
      zoneMask := ⟨bdev.zoneMask⟩
      sectorSize := cfg.sectorSize.toInt32
      sectorShift := cfg.sectorShift.toInt32 }
    else none

def jsonGetFsInfo (cfg : Config) (fsMagic : UInt64) : JsonFsInfo where
  fsMagic := ⟨fsMagic⟩
  fs := if fsMagic = f2fsMagic then some "F2FS"
    else if fsMagic = btrfsMagic then some "Btrfs"
    else none
  f2fs := if fsMagic = f2fsMagic then some {
      segmentSectors := cfg.f2fsSegmentSectors
      segmentShift := cfg.segmentShift.toInt32
      segmentMask := ⟨cfg.f2fsSegmentMask⟩ }
    else none

def jsonGetCtrlConfig (cfg : Config) (setup : DumpSetup) : JsonCtrlConfig where
  dev1 := if setup.multiDev then some (jsonGetBdev cfg setup.bdev) else none
  dev2 := jsonGetBdev cfg setup.znsdev
  filesystem := jsonGetFsInfo cfg setup.fsMagic

def jsonDumpData (cfg : Config) (setup : DumpSetup) (zonemap : JsonZonemap) : JsonRoot where
  config := jsonGetCtrlConfig cfg setup
  zonemap := if setup.fsMagic = f2fsMagic then some zonemap else none

-- The hexadecimal fields of the document, from the top down.

def JsonZoneInfo.hex64 (info : JsonZoneInfo) : List Hex64 :=
  [info.lbas, info.lbae, info.cap, info.wp, info.size]

def JsonZoneInfo.hex32 (info : JsonZoneInfo) : List Hex32 :=
  [info.state, info.mask]

def JsonSegment.hex64 (segment : JsonSegment) : List Hex64 :=
  segment.segInfo.toList.flatMap (fun info => [info.pbas, info.pbae, info.size]) ++
    segment.extents.flatMap fun entry => [entry.info.pbas, entry.info.pbae, entry.info.size]

def JsonZone.hex64 (zone : JsonZone) : List Hex64 :=
  zone.zoneInfo.toList.flatMap JsonZoneInfo.hex64 ++
    zone.segments.flatMap fun member => member.2.hex64

def JsonFsInfo.hex64 (info : JsonFsInfo) : List Hex64 :=
  info.fsMagic :: info.f2fs.toList.map JsonF2fsInfo.segmentMask

def JsonBdev.hex32 (bdev : JsonBdev) : List Hex32 :=
  bdev.zones.toList.map JsonZones.zoneMask

def JsonRoot.hex64 (root : JsonRoot) : List Hex64 :=
  root.config.filesystem.hex64 ++
    root.zonemap.toList.flatMap fun zonemap => zonemap.flatMap fun member => member.2.hex64

def JsonRoot.hex32 (root : JsonRoot) : List Hex32 :=
  root.config.dev1.toList.flatMap JsonBdev.hex32 ++ root.config.dev2.hex32 ++
    root.zonemap.toList.flatMap fun zonemap => zonemap.flatMap fun member =>
      member.2.zoneInfo.toList.flatMap JsonZoneInfo.hex32

def parseHex : List Char → Option Nat
  | '0' :: 'x' :: digits => Digits.read 16 digits
  | _ => none

def Hex64.Decodes (field : Hex64) : Prop :=
  parseHex field.text = some field.value.toNat

def Hex32.Decodes (field : Hex32) : Prop :=
  parseHex field.text = some field.value.toNat

def JsonRoot.Decodes (root : JsonRoot) : Prop :=
  (∀ field ∈ root.hex64, field.Decodes) ∧ ∀ field ∈ root.hex32, field.Decodes

instance (field : Hex64) : Decidable field.Decodes :=
  inferInstanceAs (Decidable (_ = _))

theorem parseHex_hexText {value length : Nat} (room : 2 < length) :
    parseHex (hexText value length) = some value ↔ value < 16 ^ (length - 2) := by
  obtain ⟨digits, rfl⟩ : ∃ digits, length = digits + 2 := ⟨length - 2, by omega⟩
  rw [hexText, List.take_succ_cons, List.take_succ_cons, parseHex, Nat.add_sub_cancel]
  exact Digits.read_take_iff (by decide) (by decide) (by omega)

theorem Hex64.decodes_iff (field : Hex64) : field.Decodes ↔ field.value.toNat < 2 ^ 48 :=
  parseHex_hexText (by decide)

theorem Hex32.decodes (field : Hex32) : field.Decodes :=
  (parseHex_hexText (by decide)).mpr field.value.toNat_lt

theorem JsonRoot.decodes_iff (root : JsonRoot) :
    root.Decodes ↔ ∀ field ∈ root.hex64, field.value.toNat < 2 ^ 48 := by
  rw [JsonRoot.Decodes]
  constructor
  · intro ⟨wide, _⟩ field inside
    exact field.decodes_iff.mp (wide field inside)
  · intro small
    exact ⟨fun field inside => field.decodes_iff.mpr (small field inside),
      fun field _ => field.decodes⟩

theorem segmentMask_wide {g : Geometry} (supported : g.Supported) :
    ¬ g.f2fsSegmentMask.toNat < 2 ^ 48 := by
  rcases supported with rfl | rfl <;> decide

/-- The texts of 64-bit numbers read back below 2^48, those of 32-bit numbers always; a document
reads back if its 64-bit numbers do, which the segment mask of F2FS never does. -/
theorem hex_texts_exact_iff (cfg : Config) (setup : DumpSetup) (zonemap : JsonZonemap)
    (supported : cfg.toGeometry.Supported) (value : UInt64) (word : UInt32) (root : JsonRoot) :
    (Hex64.Decodes ⟨value⟩ ∧ Hex32.Decodes ⟨word⟩ ↔ value.toNat < 2 ^ 48) ∧
    (root.Decodes ↔ ∀ field ∈ root.hex64, field.value.toNat < 2 ^ 48) ∧
    (setup.fsMagic = f2fsMagic → ¬ (jsonDumpData cfg setup zonemap).Decodes) := by
  refine ⟨?_, root.decodes_iff, ?_⟩
  · rw [Hex64.decodes_iff]
    exact and_iff_left (Hex32.decodes _)
  · intro f2fs decodes
    have small := (JsonRoot.decodes_iff _).mp decodes ⟨cfg.f2fsSegmentMask⟩ (by
      simp [JsonRoot.hex64, JsonFsInfo.hex64, jsonDumpData, jsonGetCtrlConfig, jsonGetFsInfo, f2fs])
    exact segmentMask_wide supported small

-- Both masks lose their last digits, so that both are shown as the same number.
theorem segment_masks_cut :
    uint64ToHexStringCast (initGeometry 512).f2fsSegmentMask =
        ['0', 'x', 'f', 'f', 'f', 'f', 'f', 'f', 'f', 'f', 'f', 'f', 'f', 'f'] ∧
      uint64ToHexStringCast (initGeometry 4096).f2fsSegmentMask =
        uint64ToHexStringCast (initGeometry 512).f2fsSegmentMask ∧
      ¬ Hex64.Decodes ⟨(initGeometry 512).f2fsSegmentMask⟩ ∧
      ¬ Hex64.Decodes ⟨(initGeometry 4096).f2fsSegmentMask⟩ := by
  decide

def twoDevices : DumpSetup where
  bdev := ⟨⟨0, 0, 0⟩, [97], [], [], false⟩
  znsdev := ⟨⟨2, 8192, 0xffffe000⟩, [98], [], [], true⟩
  multiDev := true
  fsMagic := f2fsMagic

theorem f2fs_dump_not_decoded :
    Hex64.Decodes ⟨0xffffffffffff⟩ ∧ Hex32.Decodes ⟨0xffffffff⟩ ∧
      ¬ (jsonDumpData (segmapConfig 512 0 8192 2 []) twoDevices []).Decodes := by
  have ⟨numbers, _, dump⟩ := hex_texts_exact_iff (segmapConfig 512 0 8192 2 []) twoDevices []
    (.inl rfl) 0xffffffffffff 0xffffffff (jsonDumpData (segmapConfig 512 0 8192 2 []) twoDevices [])
  have ⟨wide, word⟩ := numbers.mpr (by decide)
  exact ⟨wide, word, dump rfl⟩

end ZnsTools
