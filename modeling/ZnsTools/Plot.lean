import ZnsTools.Shared.KeyedObject
import ZnsTools.Shared.PyNumber
import ZnsTools.Shared.Runs
import ZnsTools.Trace

set_option autoImplicit false

namespace ZnsTools.Plot

open KeyedObject PyText
open Trace (Op)

-- An operation that a zone never saw keeps the integer 0; the others have the text that was read.
inductive Entry where
  | initial
  | text (value : Text)
  deriving DecidableEq, Repr

structure OpEntries where
  read : Entry
  write : Entry
  deriving DecidableEq, Repr

def OpEntries.get (entries : OpEntries) : Op → Entry
  | .read => entries.read
  | .write => entries.write

def OpEntries.set (entries : OpEntries) (op : Op) (entry : Entry) : OpEntries :=
  match op with
  | .read => { entries with read := entry }
  | .write => { entries with write := entry }

abbrev OpDict := List (Int × OpEntries)

structure Data where
  zDataMap : OpDict
  zRwCtrMap : OpDict
  zResetCtrMap : List (Int × Text)
  zResetLatMap : List (Int × List (Text × Int))
  resetAllCtr : Option Int
  zCounter : Int

def Data.empty : Data := ⟨[], [], [], [], none, 0⟩

-- math.floor(int(text)/ZONE_SIZE)
def zoneIndex (zoneSize : Int) (text : Text) : Except PyError Int := do
  let lba ← pyInt text
  let quotient ← trueDiv lba zoneSize
  pure ⌊quotient⌋

def operationOf (operation : Int) : Except PyError Op :=
  if operation = 1 then .ok .write
  else if operation = 2 then .ok .read
  else .error .systemExit

def update (dict : OpDict) (zone : Int) (op : Op) (value : Text) : OpDict :=
  let entries := (find dict zone).getD ⟨.initial, .initial⟩
  add dict zone (entries.set op (.text value))

-- z_data_map and z_rw_ctr_map, once their names are cut off the line
def parseOpLine (zoneSize : Int) (line : Text) (dict : OpDict) : Except PyError OpDict := do
  let parts := line.splitOn ','
  let zone ← zoneIndex zoneSize (← index parts 0)
  let second ← index parts 1
  let operation ← pyInt (strip (← index (second.splitOn ']') 0))
  let op ← operationOf operation
  let value ← index (second.splitOn ' ') 2
  pure (update dict zone op (strip value))

def parseResetCtrLine (zoneSize : Int) (line : Text) (data : Data) : Except PyError Data := do
  let first ← index (line.splitOn ',') 0
  let zone ← zoneIndex zoneSize (← index (first.splitOn ']') 0)
  let resets := strip (← index (first.splitOn ' ') 1)
  let count ← pyInt resets
  pure { data with
    zResetCtrMap := add data.zResetCtrMap zone resets
    zCounter := data.zCounter + count }

def parseResetLatLine (zoneSize : Int) (line : Text) (data : Data) : Except PyError Data := do
  let parts := line.splitOn ','
  let zone ← zoneIndex zoneSize (← index ((← index parts 0).splitOn ']') 0)
  let second ← index parts 1
  let resetCnt := strip (← index (second.splitOn ']') 0)
  let lat ← pyInt (strip (← index (second.splitOn ':') 1))
  let latencies := (find data.zResetLatMap zone).getD []
  pure { data with zResetLatMap := add data.zResetLatMap zone (add latencies resetCnt lat) }

def loggingName : Text := "logging".toList
def resetAllCtrName : Text := "reset_all_ctr".toList
def zDataMapName : Text := "z_data_map".toList
def zRwCtrMapName : Text := "z_rw_ctr_map".toList
def zResetCtrMapName : Text := "z_reset_ctr_map".toList
def zResetLatMapName : Text := "z_reset_lat_map".toList

def parseEntry (zoneSize : Int) (data : Data) (line : Text) : Except PyError Data :=
  if loggingName <:+: line then .ok data
  else if resetAllCtrName <:+: line then do
    let total ← pyInt (← index (line.splitOn ' ').reverse 0)
    pure { data with resetAllCtr := some total }
  else if zDataMapName <:+: line then do
    let dict ← parseOpLine zoneSize (line.drop 11) data.zDataMap
    pure { data with zDataMap := dict }
  else if zRwCtrMapName <:+: line then do
    let dict ← parseOpLine zoneSize (line.drop 13) data.zRwCtrMap
    pure { data with zRwCtrMap := dict }
  else if zResetCtrMapName <:+: line then parseResetCtrLine zoneSize (line.drop 16) data
  else if zResetLatMapName <:+: line then parseResetLatLine zoneSize (line.drop 16) data
  else .ok data

def parseLine (zoneSize : Int) (data : Data) (line : Text) : Except PyError Data :=
  parseEntry zoneSize data (line.drop 1)

def parse (zoneSize : Int) (lines : List Text) : Except PyError Data :=
  lines.foldlM (parseLine zoneSize) Data.empty

def Entry.int : Entry → Except PyError Int
  | .initial => .ok 0
  | .text value => pyInt value

-- A text is not equal to the integer 0, whatever it reads.
def average (entry : Entry) (counter : OpDict) (key : Int) (op : Op) :
    Except PyError (Option ℚ) :=
  match entry with
  | .initial => .ok none
  | .text value => do
    let total ← pyInt value
    match find counter key with
    | none => .error .keyError
    | some counts =>
      let count ← (counts.get op).int
      let quotient ← trueDiv total count
      pure (some quotient)

def plotAvgIoSize (dimension : Nat) (data counter : OpDict) :
    Except PyError (List (Int × Option ℚ × Option ℚ)) :=
  data.mapM fun (key, entry) =>
    if (dimension ^ 2 : Nat) ≤ key then .ok (key, none, none)
    else do
      let read ← average entry.read counter key .read
      let write ← average entry.write counter key .write
      pure (key, read, write)

-- '@name[k1, k2]: v', the value signed
def printLine (name : Text) (keys : List Int) (value : UInt64) : Text :=
  '@' :: name ++ '[' :: (", ".toList).intercalate (keys.map printInt) ++ "]: ".toList ++
    printInt value.toBitVec.toInt ++ ['\n']

def printOpMap (name : Text) (map : List ((UInt64 × UInt8) × UInt64)) : List Text :=
  map.map fun entry => printLine name [entry.1.1.toNat, entry.1.2.toNat] entry.2

-- What the END probe leaves is printed.
def printMaps (maps : Trace.Maps) : List Text :=
  printOpMap zDataMapName maps.zDataMap ++ printOpMap zRwCtrMapName maps.zRwCtrMap ++
    maps.zResetCtrMap.map (fun entry => printLine zResetCtrMapName [entry.1.toNat] entry.2) ++
    maps.zResetLatMap.map (fun entry =>
      printLine zResetLatMapName [entry.1.1.toNat, entry.1.2.toBitVec.toInt] entry.2) ++
    if maps.resetAllCtr = 0 then []
    else
      ['@' :: resetAllCtrName ++ ": ".toList ++ printInt maps.resetAllCtr.toBitVec.toInt ++ ['\n']]

end ZnsTools.Plot
