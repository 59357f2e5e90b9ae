import ZnsTools.F2fsProbes
import ZnsTools.JobTimeline
import ZnsTools.Shared.Flushed
import ZnsTools.TracegenMain

set_option autoImplicit false

namespace ZnsTools.InodeProbes

open Flushed KeyedObject PyText
open Tracegen (Data Datum Entry Instant Lines)

-- The maps that are printed and cleared at every interval.
inductive MapName where
  | vfsOpen
  | vfsCreate
  | fcntlSetRwHint
  | vfsFsync
  | vfsRename
  | vfsUnlink
  | mmDoWritepages
  | f2fsSubmitPageWrite
  | f2fsMoveData
  deriving DecidableEq, Repr

def MapName.text : MapName → Text
  | .vfsOpen => "vfs_open".toList
  | .vfsCreate => "vfs_create".toList
  | .fcntlSetRwHint => "fcntl_set_rw_hint".toList
  | .vfsFsync => "vfs_fsync".toList
  | .vfsRename => "vfs_rename".toList
  | .vfsUnlink => "vfs_unlink".toList
  | .mmDoWritepages => "mm_do_writepages".toList
  | .f2fsSubmitPageWrite => "f2fs_submit_page_write".toList
  | .f2fsMoveData => "f2fs_move_data".toList

structure Call where
  nsecs : UInt64
  pid : UInt64
  tid : UInt64
  deriving DecidableEq, Repr

inductive Key where
  | call (call : Call)
  | pageWrite (call : Call) (ino : UInt32)
  deriving DecidableEq

inductive Recorded where
  | ino (ino : UInt64)
  | hint (ino : UInt64) (hint : Int64)
  | page (page : PageWrite)
  deriving DecidableEq

abbrev Probed := Step MapName Key Recorded

-- vfs-probes.bt

inductive VfsEvent where
  | vfsOpen (call : Call) (ino : UInt64)
  | vfsCreate (call : Call) (ino : UInt64)
  | doFcntl (call : Call) (cmd : Int64) (argp : Int64) (ino : UInt64)
  | vfsFsync (call : Call) (ino : UInt64)
  | vfsRename (call : Call) (ino : UInt64)
  | vfsUnlink (call : Call) (ino : UInt64)
  | interval

-- F_SET_RW_HINT of linux/fcntl.h.
def fSetRwHint : Int64 := 1036

def vfsProbes : VfsEvent → Option Probed
  | .vfsOpen call ino => some (.write .vfsOpen (.call call) (.ino ino))
  | .vfsCreate call ino => some (.write .vfsCreate (.call call) (.ino ino))
  | .doFcntl call cmd argp ino =>
    if cmd = fSetRwHint then
      -- invalid hints are ignored
      if 0 ≤ argp ∧ argp < 6 then some (.write .fcntlSetRwHint (.call call) (.hint ino argp))
      else none
    else none
  | .vfsFsync call ino => some (.write .vfsFsync (.call call) (.ino ino))
  | .vfsRename call ino => some (.write .vfsRename (.call call) (.ino ino))
  | .vfsUnlink call ino => some (.write .vfsUnlink (.call call) (.ino ino))
  | .interval => some .flush

def vfsPrints : List MapName :=
  [.vfsOpen, .vfsCreate, .fcntlSetRwHint, .vfsFsync, .vfsRename, .vfsUnlink]

-- mm-probes.bt

inductive MmEvent where
  | doWritepages (call : Call) (ino : UInt64)
  | interval

def mmProbes : MmEvent → Option Probed
  | .doWritepages call ino => some (.write .mmDoWritepages (.call call) (.ino ino))
  | .interval => some .flush

def mmPrints : List MapName := [.mmDoWritepages]

-- f2fs-probes.bt

inductive F2fsEvent where
  | moveDataPage (call : Call) (ino : UInt64)
  | moveDataBlock (call : Call) (ino : UInt64)
  | f2fsSubmitPageWrite (call : Call) (fio : F2fsIoInfo)
  | interval

def f2fsProbes (zoneSize : UInt64) : F2fsEvent → Option Probed
  | .moveDataPage call ino => some (.write .f2fsMoveData (.call call) (.ino ino))
  | .moveDataBlock call ino => some (.write .f2fsMoveData (.call call) (.ino ino))
  | .f2fsSubmitPageWrite call fio =>
    some (.write .f2fsSubmitPageWrite (.pageWrite call fio.ino)
      (.page (f2fsSubmitPageWrite zoneSize fio)))
  | .interval => some .flush

def f2fsPrints : List MapName := [.f2fsSubmitPageWrite, .f2fsMoveData]

-- inode-probes.bt: f2fs_init_inode_metadata names an inode.
structure InodeEvent where
  ino : UInt64
  name : Text

def inodes (events : List InodeEvent) : List (UInt64 × Text) :=
  addAll [] (events.map fun event => (event.ino, event.name))

section Print

def Call.print (c : Call) : Text :=
  Rocksdb.printKey (c.nsecs, c.pid, c.tid)

def Key.print : Key → Text
  | .call c => c.print
  | .pageWrite c i => c.print ++ ',' :: printInt i.toNat

def Recorded.print : Recorded → Datum
  | .ino i => .number i.toNat
  | .hint i h => .tuple [i.toNat, h.toInt]
  | .page p => .tuple [p.newBlkaddr.toNat, p.zone.toNat, p.temp.toInt, p.type.toInt]

-- {"type": "map", "data": {"@name": {"nsecs,pid,tid": value, ...}}}
def printMap (printout : MapName × List (Key × Recorded)) : List (Text × Data) :=
  [('@' :: printout.1.text,
    .items (printout.2.map fun entry => (entry.1.print, entry.2.print)))]

-- {"type": "attached_probes", "data": {"probes": n}}
def printProbes (n : Int) : List (Text × Data) :=
  [("probes".toList, .number n)]

/-- The maps come in any order and the entries of a map too; an empty map is printed or not. -/
def PrintedAs (printouts : List (MapName × List (Key × Recorded))) (file : Lines) : Prop :=
  ∃ (probes : Int) (shown : List (MapName × List (Key × Recorded))),
    (shown.flatMap tag).Perm (printouts.flatMap tag) ∧
    file = printProbes probes :: shown.map printMap

-- {"type": "map", "data": {"@inodes": {"ino": "name", ...}}}
def printInodes (entries : List (UInt64 × Text)) : List (Text × Data) :=
  [("@inodes".toList,
    .items (entries.map fun entry => (printInt entry.1.toNat, .text entry.2)))]

def InodesPrintedAs (map : List (UInt64 × Text)) (file : Lines) : Prop :=
  ∃ probes entries, entries.Perm map ∧ file = [printProbes probes, printInodes entries]

end Print

end ZnsTools.InodeProbes
