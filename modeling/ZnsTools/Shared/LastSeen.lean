import Mathlib.Data.List.Basic

set_option autoImplicit false

namespace LastSeen

-- What was seen last in front of some of the items of a list.

variable {α σ : Type}

def statesAt (after : σ → α → σ) (chosen : α → Bool) : σ → List α → List σ
  | _, [] => []
  | state, item :: rest =>
    if chosen item then state :: statesAt after chosen (after state item) rest
    else statesAt after chosen (after state item) rest

variable {after : σ → α → σ} {chosen : α → Bool}

theorem statesAt_append (state : σ) (front back : List α) :
    statesAt after chosen state (front ++ back) =
      statesAt after chosen state front ++
        statesAt after chosen (front.foldl after state) back := by
  induction front generalizing state with
  | nil => rfl
  | cons item rest ih =>
    rw [List.cons_append, statesAt, statesAt, List.foldl_cons, ih]
    split
    · rfl
    · rfl

theorem mem_statesAt {state seen : σ} {items : List α}
    (inside : seen ∈ statesAt after chosen state items) :
    ∃ front item back, items = front ++ item :: back ∧ front.foldl after state = seen := by
  induction items generalizing state with
  | nil => cases inside
  | cons item rest ih =>
    have later : seen ∈ statesAt after chosen (after state item) rest →
        ∃ front other back, item :: rest = front ++ other :: back ∧
          front.foldl after state = seen := by
      intro behind
      obtain ⟨front, other, back, rfl, same⟩ := ih behind
      exact ⟨item :: front, other, back, rfl, same⟩
    rw [statesAt] at inside
    split at inside
    · rcases List.mem_cons.mp inside with rfl | behind
      · exact ⟨[], item, rest, rfl, rfl⟩
      · exact later behind
    · exact later inside

end LastSeen
