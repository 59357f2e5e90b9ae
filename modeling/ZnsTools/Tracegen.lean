import ZnsTools.Shared.KeyedObject
import ZnsTools.Shared.PyNumber
import ZnsTools.Shared.Runs

set_option autoImplicit false

namespace ZnsTools.Tracegen

open PyText

def tidMap : List (Text × Nat) :=
  [("nvme_cmd_write".toList, 0), ("nvme_cmd_read".toList, 1), ("nvme_zone_reset".toList, 2),
    ("compaction".toList, 3), ("flush".toList, 4), ("f2fs_move_data".toList, 5),
    ("f2fs_submit_page_write".toList, 6), ("vfs_open".toList, 7), ("vfs_create".toList, 8),
    ("vfs_fsync".toList, 9), ("vfs_rename".toList, 10), ("vfs_unlink".toList, 11),
    ("fcntl_set_rw_hint".toList, 12), ("mm_do_writepages".toList, 13)]

-- 0 is the lowest process in the timeline.
def getPid (name : Text) : Option Nat :=
  if "nvme".toList <:+: name then some 0
  else if "compaction".toList <:+: name ∨ "flush".toList <:+: name then some 1
  else if "vfs".toList <:+: name ∨ "rw_hint".toList <:+: name then some 2
  else if "f2fs".toList <:+: name then some 3
  else if "mm".toList <:+: name then some 4
  else none

def getCat (name : Text) : Option Text :=
  if "vfs".toList <:+: name ∨ "rw_hint".toList <:+: name then some "VFS".toList
  else if "nvme".toList <:+: name then some "NVMe".toList
  else if "f2fs".toList <:+: name then some "F2FS".toList
  else if "mm".toList <:+: name then some "MM".toList
  else if "compaction".toList <:+: name ∨ "flush".toList <:+: name then some "RocksDB".toList
  else none

inductive Value where
  | number (n : Int)
  | text (t : Text)
  deriving DecidableEq

def Value.str : Value → Text
  | .number n => printInt n
  | .text t => t

def Value.int : Value → Except PyError Int
  | .number n => .ok n
  | .text t => pyInt t

def Value.times (k : Nat) : Value → Value
  | .number n => .number (n * k)
  | .text t => .text (List.replicate k t).flatten

-- `kib` is str(size) + "KiB".
inductive Arg where
  | value (v : Value)
  | kib (size : ℚ)
  deriving DecidableEq

structure Event where
  name : Text
  cat : Option Text
  ph : Char
  ts : ℚ
  pid : Option Nat
  tid : Nat
  args : List (Text × Arg)
  deriving DecidableEq

-- The timestamp is in nanoseconds, `ts` in microseconds.
def newEvent (name : Text) (timestamp : Int) (phase : Char) : Except PyError Event := do
  let ts ← trueDiv timestamp 1000
  match KeyedObject.find tidMap name with
  | none => .error .keyError
  | some tid => pure ⟨name, getCat name, phase, ts, getPid name, tid, []⟩

inductive MapData where
  | number (n : Int)
  | items (entries : List (Text × Int))

-- re.sub("@", "", map_name)
def dropAt (mapName : Text) : Text :=
  mapName.filter (· != '@')

def parseItem (mapName : Text) (timeline : List Event) (item : Text × Int) :
    Except PyError (List Event) := do
  let items := item.1.splitOn ','
  let timestamp ← index items 0
  let _pid ← index items 1
  let _tid ← index items 2
  let starttime ← pyInt timestamp
  let event ← newEvent (dropAt mapName) starttime 'B'
  let eventEnd ← newEvent (dropAt mapName) (starttime + item.2) 'E'
  pure (timeline ++ [event, eventEnd])

def parseMap (timeline : List Event) (map : Text × MapData) : Except PyError (List Event) :=
  if "probes".toList <:+: map.1 then .ok timeline
  else
    match map.2 with
    | .number _ => .error .attributeError
    | .items entries => entries.foldlM (parseItem map.1) timeline

-- The objects under "data" in the lines of the file, and the timeline they are added to.
def parseRocksdbProbeData (file : List (List (Text × MapData))) (timeline : List Event) :
    Except PyError (List Event) :=
  file.foldlM (fun timeline data => data.foldlM parseMap timeline) timeline

def getCmd (cmd : Value) : Text :=
  if cmd.str = "0".toList then "nvme_cmd_read".toList
  else if cmd.str = "1".toList then "nvme_cmd_write".toList
  else if cmd.str = "2".toList then "nvme_cmd_flush".toList
  else if cmd.str = "15".toList then "nvme_zone_reset".toList
  else if cmd.str = "7d".toList then "nvme_cmd_zone_append".toList
  else "UNKNOWN".toList

def valueAt (vals : List Value) (i : Nat) : Except PyError Value :=
  match vals[i]? with
  | some value => .ok value
  | none => .error .indexError

inductive NvmeData where
  | number (n : Int)
  | items (entries : List (Text × List Value))

-- Maps of requests have the data length in front of the completion time.
def nvmeArgs (mapName : Text) (vals : List Value) :
    Except PyError (List (Text × Arg) × Value) := do
  let zone ← valueAt vals 1
  let lba ← valueAt vals 2
  let args := [("zone".toList, .value zone), ("LBA".toList, .value lba)]
  if "nvme_rq".toList <:+: dropAt mapName then do
    let size ← valueAt vals 3
    let bytes ← (size.times 512).int
    let kib ← trueDiv bytes 1024
    let time ← valueAt vals 4
    pure (args ++ [("size".toList, .kib kib)], time)
  else do
    let time ← valueAt vals 3
    pure (args, time)

def parseNvmeItem (mapName : Text) (timeline : List Event) (item : Text × List Value) :
    Except PyError (List Event) := do
  let items := item.1.splitOn ','
  let timestamp ← index items 0
  let _pid ← index items 1
  let _tid ← index items 2
  let cmd ← valueAt item.2 0
  let (args, time) ← nvmeArgs mapName item.2
  let submitted ← pyInt timestamp
  let event ← newEvent (getCmd cmd) submitted 'B'
  let completed ← time.int
  let eventEnd ← newEvent (getCmd cmd) completed 'E'
  pure (timeline ++ [{ event with args := args }, { eventEnd with args := args }])

def parseNvmeMap (timeline : List Event) (map : Text × NvmeData) : Except PyError (List Event) :=
  if "probes".toList <:+: map.1 then .ok timeline
  else if "events".toList <:+: map.1 then .error .systemExit
  else
    match map.2 with
    | .number _ => .error .attributeError
    | .items entries => entries.foldlM (parseNvmeItem map.1) timeline

def parseNvmeProbeData (file : List (List (Text × NvmeData))) (timeline : List Event) :
    Except PyError (List Event) :=
  file.foldlM (fun timeline data => data.foldlM parseNvmeMap timeline) timeline

end ZnsTools.Tracegen
