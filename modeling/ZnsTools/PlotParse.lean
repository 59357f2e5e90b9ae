import ZnsTools.Plot

set_option autoImplicit false

namespace ZnsTools.Plot

open KeyedObject PyText
open Trace (Op)

section Text

def opText (lba code : Nat) (value : Int) : Text :=
  printInt lba ++ ',' :: ' ' :: (printInt code ++ ']' :: ':' :: ' ' :: (printInt value ++ ['\n']))

theorem printLine_two (name : Text) (lba code : Nat) (value : UInt64) :
    (printLine name [(lba : Int), (code : Int)] value).drop 1 =
      name ++ '[' :: opText lba code value.toBitVec.toInt := by
  simp [printLine, opText, List.intercalate]

end Text

section Line

variable {zoneSize : Int}

def valueText (code : Nat) (value : Int) : Text :=
  ' ' :: (printInt code ++ ']' :: ':' :: ' ' :: (printInt value ++ ['\n']))

theorem split_comma (lba code : Nat) (value : Int) :
    (opText lba code value).splitOn ',' = [printInt lba, valueText code value] := by
  have first : ',' ∉ printInt lba := not_mem_printInt (by decide) (by decide) lba
  have own : ',' ∉ printInt code := not_mem_printInt (by decide) (by decide) code
  have last : ',' ∉ printInt value := not_mem_printInt (by decide) (by decide) value
  rw [opText, List.splitOn_append_cons_self_of_not_mem first, List.splitOn_eq_singleton]
  · rfl
  · simp [own, last]

theorem split_bracket (code : Nat) (value : Int) :
    index ((valueText code value).splitOn ']') 0 = .ok (' ' :: printInt code) := by
  have own : ']' ∉ ' ' :: printInt code := by
    rw [List.mem_cons, not_or]
    exact ⟨by decide, not_mem_printInt (by decide) (by decide) code⟩
  rw [valueText, ← List.cons_append, List.splitOn_append_cons_self_of_not_mem own]
  rfl

theorem split_space (code : Nat) (value : Int) :
    index ((valueText code value).splitOn ' ') 2 = .ok (printInt value ++ ['\n']) := by
  have own : ' ' ∉ printInt code ++ [']', ':'] := by
    rw [List.mem_append, not_or]
    exact ⟨not_mem_printInt (by decide) (by decide) code, by decide⟩
  have last : ' ' ∉ printInt value ++ ['\n'] := by
    rw [List.mem_append, not_or]
    exact ⟨not_mem_printInt (by decide) (by decide) value, by decide⟩
  have whole : valueText code value =
      [] ++ ' ' :: ((printInt code ++ [']', ':']) ++ ' ' :: (printInt value ++ ['\n'])) := by
    simp [valueText]
  rw [whole, List.splitOn_append_cons_self_of_not_mem List.not_mem_nil,
    List.splitOn_append_cons_self_of_not_mem own, List.splitOn_eq_singleton last]
  rfl

theorem strip_code (code : Nat) : strip (' ' :: printInt code) = printInt code := by
  have padded : strip ([' '] ++ printInt code ++ []) = printInt code :=
    strip_padded (List.forall_mem_singleton.mpr (by decide)) (printInt_solid code)
      (List.forall_mem_nil _)
  rwa [List.append_nil] at padded

theorem strip_value (value : Int) : strip (printInt value ++ ['\n']) = printInt value := by
  have padded : strip ([] ++ printInt value ++ ['\n']) = printInt value :=
    strip_padded (List.forall_mem_nil _) (printInt_solid value)
      (List.forall_mem_singleton.mpr (by decide))
  rwa [List.nil_append] at padded

theorem operationOf_code (op : Op) : operationOf (op.code.toNat : Int) = .ok op := by
  cases op <;> decide

theorem parseOpLine_opText {lba : Nat} {zone : Int}
    (located : zoneIndex zoneSize (printInt lba) = .ok zone) (op : Op) (value : Int)
    (dict : OpDict) :
    parseOpLine zoneSize (opText lba op.code.toNat value) dict =
      .ok (update dict zone op (printInt value)) := by
  rw [parseOpLine, split_comma]
  simp only [index, List.getElem?_cons_zero, List.getElem?_cons_succ, Runs.ok_bind, located]
  have code := split_bracket op.code.toNat value
  have text := split_space op.code.toNat value
  rw [index] at code text
  rw [code, text]
  simp only [Runs.ok_bind, strip_code, pyInt_printInt, operationOf_code, strip_value]
  rfl

theorem not_mem_opText (c : Char) (other : ¬ c.isDigit)
    (plain : c ∉ ['-', ',', ' ', ']', ':', '\n']) (lba code : Nat) (value : Int) :
    c ∉ opText lba code value := by
  have unsigned : c ≠ '-' := fun same => plain (by rw [same]; decide)
  have absent := not_mem_printInt other unsigned
  simp only [List.mem_cons, List.not_mem_nil, or_false, not_or] at plain
  simp [opText, absent, plain]

theorem not_infix_opText {needle name : Text} (c : Char) (inside : c ∈ needle) (absent : c ∉ name)
    (plain : ¬ c.isDigit ∧ c ∉ ['[', '-', ',', ' ', ']', ':', '\n'])
    (lba code : Nat) (value : Int) :
    ¬ needle <:+: name ++ '[' :: opText lba code value := by
  apply not_infix_of_not_mem inside
  rw [List.mem_cons, not_or] at plain
  rw [List.mem_append, List.mem_cons, not_or, not_or]
  exact ⟨absent, plain.2.1, not_mem_opText c plain.1 plain.2.2 lba code value⟩

theorem parseEntry_zDataMap {lba : Nat} {zone : Int}
    (located : zoneIndex zoneSize (printInt lba) = .ok zone) (op : Op) (value : Int) (data : Data) :
    parseEntry zoneSize data (zDataMapName ++ '[' :: opText lba op.code.toNat value) =
      .ok { data with zDataMap := update data.zDataMap zone op (printInt value) } := by
  have logging : ¬ loggingName <:+: zDataMapName ++ '[' :: opText lba op.code.toNat value :=
    not_infix_opText 'l' (by decide) (by decide) (by decide) lba _ value
  have all : ¬ resetAllCtrName <:+: zDataMapName ++ '[' :: opText lba op.code.toNat value :=
    not_infix_opText 'l' (by decide) (by decide) (by decide) lba _ value
  have own : zDataMapName <:+: zDataMapName ++ '[' :: opText lba op.code.toNat value :=
    (List.prefix_append _ _).isInfix
  have cut : (zDataMapName ++ '[' :: opText lba op.code.toNat value).drop 11 =
      opText lba op.code.toNat value := rfl
  rw [parseEntry, if_neg logging, if_neg all, if_pos own, cut, parseOpLine_opText located,
    Runs.ok_bind]
  rfl

theorem parseEntry_zRwCtrMap {lba : Nat} {zone : Int}
    (located : zoneIndex zoneSize (printInt lba) = .ok zone) (op : Op) (value : Int) (data : Data) :
    parseEntry zoneSize data (zRwCtrMapName ++ '[' :: opText lba op.code.toNat value) =
      .ok { data with zRwCtrMap := update data.zRwCtrMap zone op (printInt value) } := by
  have logging : ¬ loggingName <:+: zRwCtrMapName ++ '[' :: opText lba op.code.toNat value :=
    not_infix_opText 'l' (by decide) (by decide) (by decide) lba _ value
  have all : ¬ resetAllCtrName <:+: zRwCtrMapName ++ '[' :: opText lba op.code.toNat value :=
    not_infix_opText 'l' (by decide) (by decide) (by decide) lba _ value
  have other : ¬ zDataMapName <:+: zRwCtrMapName ++ '[' :: opText lba op.code.toNat value :=
    not_infix_opText 'd' (by decide) (by decide) (by decide) lba _ value
  have own : zRwCtrMapName <:+: zRwCtrMapName ++ '[' :: opText lba op.code.toNat value :=
    (List.prefix_append _ _).isInfix
  have cut : (zRwCtrMapName ++ '[' :: opText lba op.code.toNat value).drop 13 =
      opText lba op.code.toNat value := rfl
  rw [parseEntry, if_neg logging, if_neg all, if_neg other, if_pos own, cut,
    parseOpLine_opText located, Runs.ok_bind]
  rfl

theorem zoneIndex_printInt {size zone : Nat} (positive : 0 < size) (small : zone * size < 2 ^ 64) :
    zoneIndex size (printInt (zone * size : Nat)) = .ok ⌊Binary64.toDouble zone⌋ := by
  have quotient : ((zone * size : Nat) : Int) / ((size : Int) : ℚ) = (zone : ℚ) := by
    push_cast
    exact mul_div_cancel_right₀ _ (by exact_mod_cast positive.ne')
  have bound : |((zone * size : Nat) : Int)| ≤ 2 ^ 64 := by
    rw [Nat.abs_cast]
    exact_mod_cast small.le
  rw [zoneIndex, pyInt_printInt, Runs.ok_bind, trueDiv_ok bound (by exact_mod_cast positive),
    Runs.ok_bind, quotient]
  rfl

end Line

end ZnsTools.Plot
