import ZnsTools.Shared.Appending
import ZnsTools.Tracegen

set_option autoImplicit false

namespace ZnsTools.Tracegen

open KeyedObject PyText

-- A value that a probe prints: a number, a string or a tuple of numbers.
inductive Datum where
  | number (n : Int)
  | text (t : Text)
  | tuple (ns : List Int)
  deriving DecidableEq

-- What a name in `data["data"]` stands for; anything but an object has no items.
inductive Data where
  | number (n : Int)
  | items (entries : List (Text × Datum))

abbrev Lines := List (List (Text × Data))

inductive ReadError where
  | raised (e : PyError)
  | typeError
  | fileNotFoundError
  deriving DecidableEq

def Datum.str : Datum → Text
  | .number n => printInt n
  | .text t => t
  | .tuple ns => '[' :: ([',', ' '].intercalate (ns.map printInt) ++ [']'])

def Datum.list : Datum → Except ReadError (List Value)
  | .number _ => .error .typeError
  | .text t => .ok (t.map fun c => .text [c])
  | .tuple ns => .ok (ns.map .number)

def Datum.get (i : Nat) (value : Datum) : Except ReadError Value := do
  let vals ← value.list
  (valueAt vals i).mapError .raised

def Datum.int : Datum → Except ReadError Int
  | .number n => .ok n
  | .text t => (pyInt t).mapError .raised
  | .tuple _ => .error .typeError

def parseInodesMap (watchInodes : List (Text × Datum)) (map : Text × Data) :
    Except ReadError (List (Text × Datum)) :=
  if "probes".toList <:+: map.1 then .ok watchInodes
  else
    match map.2 with
    | .number _ => .error (.raised .attributeError)
    | .items entries => .ok (addAll watchInodes entries)

def parseInodes (file : Lines) (watchInodes : List (Text × Datum)) :
    Except ReadError (List (Text × Datum)) :=
  file.foldlM (fun watchInodes data => data.foldlM parseInodesMap watchInodes) watchInodes

def getHint (hint : Int) : Option Text :=
  match hint with
  | 0 => some "RWH_WRITE_LIFE_NOT_SET".toList
  | 1 => some "RWH_WRITE_LIFE_NONE".toList
  | 2 => some "RWH_WRITE_LIFE_SHORT".toList
  | 3 => some "RWH_WRITE_LIFE_MEDIUM".toList
  | 4 => some "RWH_WRITE_LIFE_LONG".toList
  | 5 => some "RWH_WRITE_LIFE_EXTREME".toList
  | _ => none

def getTemp (hint : Int) : Option Text :=
  match hint with
  | 0 => some "HOT".toList
  | 1 => some "WARM".toList
  | 2 => some "COLD".toList
  | _ => none

def getType (type : Int) : Option Text :=
  match type with
  | 0 => some "DATA".toList
  | 1 => some "NODE".toList
  | 2 => some "META".toList
  | 3 => some "META_FLUSH".toList
  | _ => none

structure Instant where
  name : Text
  cat : Option Text
  ph : Char
  ts : ℚ
  pid : Option Nat
  tid : Nat
  args : List (Text × Option Datum)
  deriving DecidableEq

structure MetaEvent where
  name : Text
  ph : Char
  pid : Option Nat
  tid : Nat
  args : List (Text × Value)
  deriving DecidableEq

inductive Entry where
  | event (e : Event)
  | instant (i : Instant)
  | metadata (m : MetaEvent)
  deriving DecidableEq

def newInstant (name timestamp : Text) (args : List (Text × Option Datum)) :
    Except ReadError Instant := do
  let starttime ← (pyInt timestamp).mapError .raised
  let event ← (newEvent name starttime 'i').mapError .raised
  pure ⟨event.name, event.cat, event.ph, event.ts, event.pid, event.tid, args⟩

def inodeArgs (mapName : Text) (items : List Text) (value : Datum) :
    Except ReadError (Text × List (Text × Option Datum)) := do
  if "rw_hint".toList <:+: dropAt mapName then do
    let inode ← value.get 0
    let rwHint ← value.get 1
    let hint ← rwHint.int.mapError .raised
    pure (inode.str, [("inode".toList, some (.text inode.str)),
      ("rw_hint".toList, (getHint hint).map .text)])
  else if "f2fs_submit_page_write".toList <:+: dropAt mapName then do
    let val ← value.list
    let inode ← (index items 3).mapError .raised
    let lba ← (valueAt val 0 >>= Value.int).mapError .raised
    let zone ← (valueAt val 1 >>= Value.int).mapError .raised
    let temp ← (valueAt val 2 >>= Value.int).mapError .raised
    let type ← (valueAt val 3 >>= Value.int).mapError .raised
    pure (inode, [("inode".toList, some (.text inode)), ("LBA".toList, some (.number lba)),
      ("zone".toList, some (.number zone)), ("temp".toList, (getTemp temp).map .text),
      ("type".toList, (getType type).map .text)])
  else
    pure (value.str, [("inode".toList, some (.text value.str))])

def f2fsAndVfsItem (watchInodes : List (Text × Datum)) (mapName : Text) (item : Text × Datum) :
    Except ReadError (List Entry) := do
  let items := item.1.splitOn ','
  let timestamp ← (index items 0).mapError .raised
  let _pid ← (index items 1).mapError .raised
  let _tid ← (index items 2).mapError .raised
  let (inode, args) ← inodeArgs mapName items item.2
  match find watchInodes inode with
  | none => pure []
  | some file => do
    let event ← newInstant (dropAt mapName) timestamp (args ++ [("file".toList, some file)])
    pure [.instant event]

def nvmeItem (mapName : Text) (item : Text × Datum) : Except ReadError (List Entry) := do
  let items := item.1.splitOn ','
  let _timestamp ← (index items 0).mapError .raised
  let _pid ← (index items 1).mapError .raised
  let _tid ← (index items 2).mapError .raised
  let vals ← item.2.list
  let events ← (parseNvmeItem mapName [] (item.1, vals)).mapError .raised
  pure (events.map .event)

def rocksdbItem (mapName : Text) (item : Text × Datum) : Except ReadError (List Entry) := do
  let items := item.1.splitOn ','
  let timestamp ← (index items 0).mapError .raised
  let _pid ← (index items 1).mapError .raised
  let _tid ← (index items 2).mapError .raised
  let _starttime ← (pyInt timestamp).mapError .raised
  let value ← item.2.int
  let events ← (parseItem mapName [] (item.1, value)).mapError .raised
  pure (events.map .event)

def addItem (parseItem : Text × Datum → Except ReadError (List Entry)) (timeline : List Entry)
    (item : Text × Datum) : Except ReadError (List Entry) :=
  (parseItem item).map (timeline ++ ·)

-- Only the files of RocksDB's probes are not checked for lost events.
def addMap (lost : Bool) (parseItem : Text → Text × Datum → Except ReadError (List Entry))
    (timeline : List Entry) (map : Text × Data) : Except ReadError (List Entry) :=
  if "probes".toList <:+: map.1 then .ok timeline
  else if lost ∧ "events".toList <:+: map.1 then .error (.raised .systemExit)
  else
    match map.2 with
    | .number _ => .error (.raised .attributeError)
    | .items entries => entries.foldlM (addItem (parseItem map.1)) timeline

def addLine (lost : Bool) (parseItem : Text → Text × Datum → Except ReadError (List Entry))
    (timeline : List Entry) (data : List (Text × Data)) : Except ReadError (List Entry) :=
  data.foldlM (addMap lost parseItem) timeline

def parseF2fsAndVfsProbeData (watchInodes : List (Text × Datum)) (file : Lines)
    (timeline : List Entry) : Except ReadError (List Entry) :=
  file.foldlM (addLine true (f2fsAndVfsItem watchInodes)) timeline

def parseNvmeLines (file : Lines) (timeline : List Entry) : Except ReadError (List Entry) :=
  file.foldlM (addLine true nvmeItem) timeline

def parseRocksdbLines (file : Lines) (timeline : List Entry) : Except ReadError (List Entry) :=
  file.foldlM (addLine false rocksdbItem) timeline

def processName (layer : Text) (pid : Nat) : MetaEvent :=
  ⟨"process_name".toList, 'M', some pid, pid, [("name".toList, .text layer)]⟩

def threadName (entry : Text × Nat) : MetaEvent :=
  ⟨"thread_name".toList, 'M', getPid entry.1, entry.2, [("name".toList, .text entry.1)]⟩

def processSortIndex (pid : Nat) (sortIndex : Int) : MetaEvent :=
  ⟨"process_sort_index".toList, 'M', some pid, pid, [("sort_index".toList, .number sortIndex)]⟩

def layers : List (Text × Nat) :=
  [("NVMe".toList, 0), ("RocksDB".toList, 1), ("VFS".toList, 2), ("F2FS".toList, 3),
    ("MM".toList, 4)]

def setMetadataEvents (timeline : List Entry) : List Entry :=
  timeline ++ (layers.map (fun layer => processName layer.1 layer.2) ++ tidMap.map threadName ++
    [processSortIndex 1 0, processSortIndex 2 1, processSortIndex 3 2, processSortIndex 4 3,
      processSortIndex 0 4]).map Entry.metadata

structure DataFile where
  name : Text
  lines : Lines

def parseFile (watchInodes : List (Text × Datum)) (timeline : List Entry) (file : DataFile) :
    Except ReadError (List Entry) :=
  if "timeline".toList <:+: file.name then .ok timeline
  else if "inodes".toList <:+: file.name then .ok timeline
  else if "f2fs".toList <:+: file.name ∨ "vfs".toList <:+: file.name ∨
      "mm".toList <:+: file.name then
    parseF2fsAndVfsProbeData watchInodes file.lines timeline
  else if "nvme".toList <:+: file.name then parseNvmeLines file.lines timeline
  else if "rocksdb".toList <:+: file.name then parseRocksdbLines file.lines timeline
  else .ok timeline

-- The files are in the order in which glob lists them.
def tracegen (files : List DataFile) : Except ReadError (List Entry) := do
  match files.find? fun file => file.name = "inodes.json".toList with
  | none => .error .fileNotFoundError
  | some inodes => do
    let watchInodes ← parseInodes inodes.lines []
    files.foldlM (parseFile watchInodes) (setMetadataEvents [])

section Appends

open Appending

variable {parseItem : Text → Text × Datum → Except ReadError (List Entry)}

theorem nothing_added (timeline : List Entry) : (.ok timeline : Except ReadError (List Entry)) =
    (Except.ok []).map (timeline ++ ·) := by
  rw [Except.map, List.append_nil]

theorem addItem_appends (parseItem : Text × Datum → Except ReadError (List Entry)) :
    Appends (addItem parseItem) := by
  intro timeline item
  rw [addItem, addItem]
  cases parseItem item with
  | error e => rfl
  | ok events => rfl

theorem addMap_appends (lost : Bool) : Appends (addMap lost parseItem) := by
  intro timeline map
  unfold addMap
  split
  · exact nothing_added timeline
  · split
    · rfl
    · cases map.2 with
      | number n => rfl
      | items entries => exact (addItem_appends _).run timeline entries

theorem addLine_appends (lost : Bool) : Appends (addLine lost parseItem) :=
  (addMap_appends lost).run

theorem ite_appends {c : Prop} [Decidable c] {timeline : List Entry}
    {first first' second second' : Except ReadError (List Entry)}
    (left : first = first'.map (timeline ++ ·)) (right : second = second'.map (timeline ++ ·)) :
    (if c then first else second) = (if c then first' else second').map (timeline ++ ·) := by
  split
  · exact left
  · exact right

theorem parseFile_appends (watchInodes : List (Text × Datum)) :
    Appends (parseFile watchInodes) := by
  intro timeline file
  have f2fsAndVfs : parseF2fsAndVfsProbeData watchInodes file.lines timeline =
      (parseF2fsAndVfsProbeData watchInodes file.lines []).map (timeline ++ ·) :=
    (addLine_appends true).run timeline file.lines
  have nvme : parseNvmeLines file.lines timeline =
      (parseNvmeLines file.lines []).map (timeline ++ ·) :=
    (addLine_appends true).run timeline file.lines
  have rocksdb : parseRocksdbLines file.lines timeline =
      (parseRocksdbLines file.lines []).map (timeline ++ ·) :=
    (addLine_appends false).run timeline file.lines
  unfold parseFile
  apply ite_appends (nothing_added timeline)
  apply ite_appends (nothing_added timeline)
  apply ite_appends f2fsAndVfs
  apply ite_appends nvme
  apply ite_appends rocksdb
  exact nothing_added timeline

end Appends

end ZnsTools.Tracegen
