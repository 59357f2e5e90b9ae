import Mathlib.Data.List.Induction
import ZnsTools.IoCounts
import ZnsTools.PlotParse
import ZnsTools.Shared.Perms

set_option autoImplicit false

namespace ZnsTools.Plot

open KeyedObject PyText
open Trace (Op IoRequest Args)

abbrev MapEntry := (UInt64 × UInt8) × UInt64

def entryKey (size : Nat) (entry : MapEntry) : Int :=
  ⌊Binary64.toDouble (entry.1.1.toNat / size : Nat)⌋

def entryOp (entry : MapEntry) : Op :=
  if entry.1.2 = Trace.nvmeCmdWrite then .write else .read

def entryText (entry : MapEntry) : Text :=
  printInt entry.2.toBitVec.toInt

def readEntry (size : Nat) (dict : OpDict) (entry : MapEntry) : OpDict :=
  update dict (entryKey size entry) (entryOp entry) (entryText entry)

def printOpEntry (name : Text) (entry : MapEntry) : Text :=
  printLine name [entry.1.1.toNat, entry.1.2.toNat] entry.2

structure Aligned (size : Nat) (entry : MapEntry) : Prop where
  zone : size ∣ entry.1.1.toNat
  op : entry.1.2 = (entryOp entry).code

section Entry

variable {size : Nat} {entry : MapEntry}

theorem located (positive : 0 < size) (aligned : Aligned size entry) :
    zoneIndex size (printInt entry.1.1.toNat) = .ok (entryKey size entry) := by
  have small : entry.1.1.toNat / size * size < 2 ^ 64 :=
    Nat.lt_of_le_of_lt (Nat.div_mul_le_self _ _) entry.1.1.toNat_lt
  have index := zoneIndex_printInt positive small
  rwa [Nat.div_mul_cancel aligned.zone] at index

theorem parseLine_data (positive : 0 < size) (aligned : Aligned size entry) (data : Data) :
    parseLine size data (printOpEntry zDataMapName entry) =
      .ok { data with zDataMap := readEntry size data.zDataMap entry } := by
  rw [parseLine, printOpEntry, printLine_two, aligned.op]
  exact parseEntry_zDataMap (located positive aligned) (entryOp entry) _ data

theorem parseLine_ctr (positive : 0 < size) (aligned : Aligned size entry) (data : Data) :
    parseLine size data (printOpEntry zRwCtrMapName entry) =
      .ok { data with zRwCtrMap := readEntry size data.zRwCtrMap entry } := by
  rw [parseLine, printOpEntry, printLine_two, aligned.op]
  exact parseEntry_zRwCtrMap (located positive aligned) (entryOp entry) _ data

end Entry

def Ignored (line : Text) : Prop :=
  loggingName <:+: line.drop 1 ∨ ∀ name ∈ [resetAllCtrName, zDataMapName, zRwCtrMapName,
    zResetCtrMapName, zResetLatMapName], ¬ name <:+: line.drop 1

theorem parseLine_ignored {line : Text} (ignored : Ignored line) (zoneSize : Int) (data : Data) :
    parseLine zoneSize data line = .ok data := by
  rcases ignored with logging | none
  · exact if_pos logging
  · simp only [List.forall_mem_cons] at none
    have ⟨all, total, counts, resets, latencies, _⟩ := none
    rw [parseLine, parseEntry, if_neg all, if_neg total, if_neg counts, if_neg resets,
      if_neg latencies]
    exact ite_self _

inductive Item where
  | other (line : Text)
  | data (entry : MapEntry)
  | ctr (entry : MapEntry)

def Item.line : Item → Text
  | .other line => line
  | .data entry => printOpEntry zDataMapName entry
  | .ctr entry => printOpEntry zRwCtrMapName entry

def Item.Readable (size : Nat) : Item → Prop
  | .other line => Ignored line
  | .data entry => Aligned size entry
  | .ctr entry => Aligned size entry

def Item.dataEntry : Item → Option MapEntry
  | .data entry => some entry
  | _ => none

def Item.ctrEntry : Item → Option MapEntry
  | .ctr entry => some entry
  | _ => none

def dictOf (size : Nat) (entries : List MapEntry) : OpDict :=
  entries.foldl (readEntry size) []

section Items

variable {size : Nat}

theorem parse_items (positive : 0 < size) {items : List Item}
    (readable : ∀ item ∈ items, item.Readable size) (start : Data) :
    (items.map Item.line).foldlM (parseLine size) start =
      .ok { start with
        zDataMap := (items.filterMap Item.dataEntry).foldl (readEntry size) start.zDataMap
        zRwCtrMap := (items.filterMap Item.ctrEntry).foldl (readEntry size) start.zRwCtrMap } := by
  induction items generalizing start with
  | nil => rfl
  | cons item rest ih =>
    rw [List.forall_mem_cons] at readable
    rw [List.map_cons, List.foldlM_cons]
    cases item with
    | other line =>
      rw [Item.line, parseLine_ignored readable.1, Runs.ok_bind, ih readable.2]
      rfl
    | data entry =>
      rw [Item.line, parseLine_data positive readable.1, Runs.ok_bind, ih readable.2]
      rfl
    | ctr entry =>
      rw [Item.line, parseLine_ctr positive readable.1, Runs.ok_bind, ih readable.2]
      rfl

end Items

section Dict

variable {size : Nat}

theorem OpEntries.get_set (entries : OpEntries) (op other : Op) (entry : Entry) :
    (entries.set op entry).get other = if op = other then entry else entries.get other := by
  cases op <;> cases other <;> rfl

theorem get_initial (op : Op) : (OpEntries.mk .initial .initial).get op = .initial := by
  cases op <;> rfl

theorem find_update (dict : OpDict) (zone key : Int) (op : Op) (value : Text) :
    find (update dict zone op value) key =
      if zone = key then some (((find dict zone).getD ⟨.initial, .initial⟩).set op (.text value))
      else find dict key :=
  find_add dict zone key _

structure ReadFrom (size : Nat) (entries : List MapEntry) (dict : OpDict) : Prop where
  keys : ∀ key, (find dict key).isSome ↔ ∃ entry ∈ entries, entryKey size entry = key
  texts : ∀ key found op text, find dict key = some found → found.get op = .text text →
    ∃ entry ∈ entries, entryKey size entry = key ∧ entryOp entry = op ∧ entryText entry = text
  given : ∀ entry ∈ entries, ∀ found, find dict (entryKey size entry) = some found →
    found.get (entryOp entry) ≠ .initial
  distinct : (dict.map Prod.fst).Nodup

theorem readEntry_from {entries : List MapEntry} {dict : OpDict}
    (before : ReadFrom size entries dict) (entry : MapEntry) :
    ReadFrom size (entries ++ [entry]) (readEntry size dict entry) := by
  constructor
  · intro key
    rw [readEntry, find_update]
    by_cases here : entryKey size entry = key
    · simp [here]
    · simp [here, before.keys]
  · intro key found op text there value
    rw [readEntry, find_update] at there
    by_cases here : entryKey size entry = key
    · rw [if_pos here] at there
      rw [← Option.some.inj there, OpEntries.get_set] at value
      by_cases own : entryOp entry = op
      · rw [if_pos own] at value
        exact ⟨entry, by simp, here, own, Entry.text.inj value⟩
      · rw [if_neg own] at value
        cases old : find dict (entryKey size entry) with
        | none =>
          rw [old, Option.getD_none, get_initial] at value
          cases value
        | some entries =>
          rw [old, Option.getD_some] at value
          obtain ⟨listed, inside, same⟩ := before.texts _ _ op text old value
          exact ⟨listed, List.mem_append_left _ inside, same.1.trans here, same.2⟩
    · rw [if_neg here] at there
      obtain ⟨listed, inside, same⟩ := before.texts key found op text there value
      exact ⟨listed, List.mem_append_left _ inside, same⟩
  · intro listed inside found there
    rw [readEntry, find_update] at there
    by_cases here : entryKey size entry = entryKey size listed
    · rw [if_pos here] at there
      rw [← Option.some.inj there, OpEntries.get_set]
      by_cases own : entryOp entry = entryOp listed
      · rw [if_pos own]
        rintro ⟨⟩
      · rw [if_neg own]
        rw [List.mem_append, List.mem_singleton] at inside
        have earlier := inside.resolve_right fun last => own (by rw [last])
        have present := (before.keys (entryKey size entry)).mpr ⟨listed, earlier, here.symm⟩
        obtain ⟨old, known⟩ := Option.isSome_iff_exists.mp present
        rw [known, Option.getD_some]
        exact before.given listed earlier old (here ▸ known)
    · rw [if_neg here] at there
      rw [List.mem_append, List.mem_singleton] at inside
      have earlier := inside.resolve_right fun last => here (by rw [last])
      exact before.given listed earlier found there
  · exact nodup_add before.distinct _ _

theorem dictOf_from (size : Nat) (entries : List MapEntry) :
    ReadFrom size entries (dictOf size entries) := by
  induction entries using List.reverseRecOn with
  | nil =>
    constructor
    · intro key
      simp [dictOf, find]
    · intro key found op text there
      cases there
    · intro entry inside
      cases inside
    · exact .nil
  | append_singleton past entry ih =>
    have whole : dictOf size (past ++ [entry]) = readEntry size (dictOf size past) entry := by
      simp [dictOf]
    rw [whole]
    exact readEntry_from ih entry

end Dict

end ZnsTools.Plot
