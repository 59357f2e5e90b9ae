import Mathlib.Data.List.Basic
import Mathlib.Logic.Function.Basic
import ZnsTools.Shared.CursorLoop

set_option autoImplicit false

namespace Changes

-- What is done only where a key differs from the one remembered last.

variable {α κ : Type} [DecidableEq κ] {key : α → κ}

def heads (key : α → κ) : κ → List α → List α
  | _, [] => []
  | last, item :: rest =>
    if last = key item then heads key last rest else item :: heads key (key item) rest

theorem mem_heads {last : κ} {items : List α} {item : α} (inside : item ∈ heads key last items) :
    item ∈ items := by
  induction items generalizing last with
  | nil => cases inside
  | cons first rest ih =>
    rw [heads] at inside
    split at inside
    · exact List.mem_cons_of_mem _ (ih inside)
    · rcases List.mem_cons.mp inside with rfl | later
      · exact List.mem_cons_self
      · exact List.mem_cons_of_mem _ (ih later)

theorem heads_same {last : κ} {items : List α} (same : ∀ item ∈ items, key item = last)
    (rest : List α) : heads key last (items ++ rest) = heads key last rest := by
  induction items with
  | nil => rfl
  | cons item items ih =>
    rw [List.cons_append, heads, if_pos (same item List.mem_cons_self).symm,
      ih fun other inside => same other (List.mem_cons_of_mem _ inside)]

theorem heads_groups {groups : List (List α)}
    (uniform : ∀ group ∈ groups, ∀ a ∈ group, ∀ b ∈ group, key a = key b)
    (apart : groups.Pairwise fun first second => ∀ a ∈ first, ∀ b ∈ second, key a ≠ key b) {last : κ}
    (other : ∀ group ∈ groups, ∀ a ∈ group, key a ≠ last) :
    heads key last groups.flatten = groups.filterMap List.head? := by
  induction groups generalizing last with
  | nil => rfl
  | cons group rest ih =>
    have ⟨behind, later⟩ := List.pairwise_cons.mp apart
    have inner : ∀ group ∈ rest, ∀ a ∈ group, ∀ b ∈ group, key a = key b :=
      fun group inside => uniform group (List.mem_cons_of_mem _ inside)
    cases group with
    | nil =>
      exact ih inner later fun group inside => other group (List.mem_cons_of_mem _ inside)
    | cons item items =>
      have new := other _ List.mem_cons_self item List.mem_cons_self
      have same : ∀ a ∈ items, key a = key item := fun a inside =>
        uniform _ List.mem_cons_self a (List.mem_cons_of_mem _ inside) item List.mem_cons_self
      have next : ∀ group ∈ rest, ∀ a ∈ group, key a ≠ key item := fun group inside a listed =>
        Ne.symm (behind group inside item List.mem_cons_self a listed)
      rw [List.flatten_cons, List.cons_append, heads, if_neg (Ne.symm new), heads_same same,
        ih inner later next]
      rfl

/-- Where the last key is kept for each group by itself, an item fails at a change of the key
exactly when one fails among the changes within a group. -/
theorem failsAt_iff {γ : Type} [DecidableEq γ] {group : α → γ} {fails : α → Prop} {last : γ → κ}
    {items : List α} :
    CursorLoop.FailsAt (fun last item => last (group item) ≠ key item ∧ fails item)
        (fun last item => Function.update last (group item) (key item)) last items ↔
      ∃ own, ∃ item ∈ heads key (last own) (items.filter fun item => group item = own),
        fails item := by
  induction items generalizing last with
  | nil => simp [CursorLoop.FailsAt, heads]
  | cons item rest ih =>
    have here (own : γ) (same : group item = own) : heads key (last own)
        ((item :: rest).filter fun item => group item = own) =
          (if last own = key item then [] else [item]) ++
            heads key (key item) (rest.filter fun item => group item = own) := by
      simp only [List.filter_cons, same, decide_true, if_true, heads]
      split
      · next equal => simp [equal]
      · simp
    have elsewhere (own : γ) (apart : group item ≠ own) :
        (item :: rest).filter (fun item => group item = own) =
          rest.filter fun item => group item = own := by
      simp [apart]
    rw [CursorLoop.FailsAt, ih]
    constructor
    · rintro (⟨changed, failed⟩ | ⟨own, other, inside, failed⟩)
      · refine ⟨group item, item, ?_, failed⟩
        rw [here _ rfl, if_neg changed]
        exact List.mem_append_left _ (List.mem_singleton_self item)
      · by_cases same : group item = own
        · rw [← same, Function.update_self] at inside
          refine ⟨group item, other, ?_, failed⟩
          rw [here _ rfl]
          exact List.mem_append_right _ inside
        · rw [Function.update_of_ne (Ne.symm same)] at inside
          exact ⟨own, other, by rw [elsewhere own same]; exact inside, failed⟩
    · rintro ⟨own, other, inside, failed⟩
      by_cases same : group item = own
      · rw [here own same] at inside
        rcases List.mem_append.mp inside with first | later
        · by_cases equal : last own = key item
          · simp [equal] at first
          · obtain rfl : other = item := by simpa [equal] using first
            exact .inl ⟨same ▸ equal, failed⟩
        · exact .inr ⟨own, other, by rw [← same, Function.update_self, same]; exact later, failed⟩
      · rw [elsewhere own same] at inside
        exact .inr ⟨own, other, by rw [Function.update_of_ne (Ne.symm same)]; exact inside, failed⟩

end Changes
