import ZnsTools.Shared.KeyedObject
import Mathlib.Data.List.Induction
import Mathlib.Data.List.Nodup

set_option autoImplicit false

namespace KeyedObject

-- An object of objects: an entry goes under its two keys.

variable {κ μ ν : Type}

section Members

variable [DecidableEq κ]

def membersOf (entries : List (κ × μ × ν)) (key : κ) : List (μ × ν) :=
  (entries.filter (·.1 = key)).map Prod.snd

theorem membersOf_snoc (entries : List (κ × μ × ν)) (entry : κ × μ × ν) (key : κ) :
    membersOf (entries ++ [entry]) key =
      membersOf entries key ++ if entry.1 = key then [entry.2] else [] := by
  rw [membersOf, List.filter_append, List.map_append, membersOf, List.filter_singleton]
  by_cases same : entry.1 = key <;> simp [same]

theorem membersOf_perm {first second : List (κ × μ × ν)} (perm : first.Perm second) (key : κ) :
    (membersOf first key).Perm (membersOf second key) :=
  (perm.filter _).map _

end Members

section Group

variable [DecidableEq κ] [DecidableEq μ]

def group (groups : List (κ × List (μ × ν))) (entry : κ × μ × ν) : List (κ × List (μ × ν)) :=
  add groups entry.1 (add ((find groups entry.1).getD []) entry.2.1 entry.2.2)

def groupAll (groups : List (κ × List (μ × ν))) (entries : List (κ × μ × ν)) :
    List (κ × List (μ × ν)) :=
  entries.foldl group groups

theorem groupAll_snoc (groups : List (κ × List (μ × ν))) (entries : List (κ × μ × ν))
    (entry : κ × μ × ν) :
    groupAll groups (entries ++ [entry]) = group (groupAll groups entries) entry := by
  simp [groupAll]

theorem nodup_groupAll (entries : List (κ × μ × ν)) :
    ((groupAll [] entries).map Prod.fst).Nodup := by
  induction entries using List.reverseRecOn with
  | nil => exact .nil
  | append_singleton past entry ih =>
    rw [groupAll_snoc]
    exact nodup_add ih _ _

theorem find_groupAll (entries : List (κ × μ × ν)) (key : κ) :
    find (groupAll [] entries) key =
      if membersOf entries key = [] then none else some (addAll [] (membersOf entries key)) := by
  induction entries using List.reverseRecOn with
  | nil => rfl
  | append_singleton past entry ih =>
    rw [groupAll_snoc, group, find_add, membersOf_snoc]
    by_cases same : entry.1 = key
    · subst same
      rw [if_pos rfl, if_pos rfl, if_neg (List.concat_ne_nil _ _), addAll_snoc, ih]
      by_cases first : membersOf past entry.1 = []
      · rw [if_pos first, first]
        rfl
      · rw [if_neg first]
        rfl
    · rw [if_neg same, if_neg same, List.append_nil, ih]

theorem find_groupAll_distinct {entries : List (κ × μ × ν)}
    (distinct : (entries.map fun entry => (entry.1, entry.2.1)).Nodup) (key : κ) :
    find (groupAll [] entries) key =
      if membersOf entries key = [] then none else some (membersOf entries key) := by
  have apart : ((membersOf entries key).map Prod.fst).Nodup := by
    rw [membersOf, List.map_map]
    have kept : ((entries.filter (·.1 = key)).map fun entry => (entry.1, entry.2.1)).Nodup :=
      distinct.sublist (List.filter_sublist.map _)
    have keyed : (entries.filter (·.1 = key)).map (fun entry => (entry.1, entry.2.1)) =
        ((entries.filter (·.1 = key)).map fun entry => entry.2.1).map (Prod.mk key) := by
      rw [List.map_map]
      refine List.map_congr_left fun entry inside => ?_
      have own : entry.1 = key := of_decide_eq_true (List.mem_filter.mp inside).2
      rw [own, Function.comp_apply]
    rw [keyed] at kept
    exact kept.of_map
  rw [find_groupAll, addAll_distinct (by simpa using apart), List.nil_append]

end Group

end KeyedObject
