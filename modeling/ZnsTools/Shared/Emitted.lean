import Mathlib.Data.List.Forall2
import Mathlib.Data.List.Induction
import Mathlib.Data.Option.Defs

set_option autoImplicit false

namespace Emitted

-- What the events of a run give out, each by what happened before it.

variable {ι β : Type}

def emitted (emit : List ι → ι → Option β) : List ι → List ι → List β
  | _, [] => []
  | past, event :: rest => (emit past event).toList ++ emitted emit (past ++ [event]) rest

variable {emit : List ι → ι → Option β}

theorem emitted_append (past first second : List ι) :
    emitted emit past (first ++ second) =
      emitted emit past first ++ emitted emit (past ++ first) second := by
  induction first generalizing past with
  | nil => simp [emitted]
  | cons event rest ih =>
    rw [List.cons_append, emitted, emitted, ih, List.append_assoc, List.append_assoc,
      List.singleton_append]

theorem emitted_snoc (past events : List ι) (event : ι) :
    emitted emit past (events ++ [event]) =
      emitted emit past events ++ (emit (past ++ events) event).toList := by
  rw [emitted_append, emitted, emitted, List.append_nil]

theorem emitted_silent {past events : List ι} {event : ι}
    (silent : emit (past ++ events) event = none) :
    emitted emit past (events ++ [event]) = emitted emit past events := by
  rw [emitted_snoc, silent, Option.toList_none, List.append_nil]

theorem mem_emitted {past events : List ι} {b : β} : b ∈ emitted emit past events ↔
    ∃ before event after, events = before ++ event :: after ∧
      emit (past ++ before) event = some b := by
  induction events generalizing past with
  | nil => simp [emitted]
  | cons event rest ih =>
    rw [emitted, List.mem_append, Option.mem_toList, ih]
    constructor
    · rintro (here | ⟨before, later, after, rfl, out⟩)
      · exact ⟨[], event, rest, rfl, by rwa [List.append_nil]⟩
      · exact ⟨event :: before, later, after, rfl, by rwa [List.append_cons]⟩
    · rintro ⟨before, later, after, split, out⟩
      cases before with
      | nil =>
        cases split
        exact .inl (by rwa [List.append_nil] at out)
      | cons head others =>
        cases split
        exact .inr ⟨others, later, after, rfl, by rwa [← List.append_cons]⟩

theorem pairwise_emitted {R : β → β → Prop} {past events : List ι} :
    (emitted emit past events).Pairwise R ↔
      ∀ before first between second after b c,
        events = before ++ first :: (between ++ second :: after) →
        emit (past ++ before) first = some b →
        emit (past ++ before ++ first :: between) second = some c → R b c := by
  induction events generalizing past with
  | nil => simp [emitted]
  | cons event rest ih =>
    rw [emitted, List.pairwise_append, ih]
    have single : (emit past event).toList.Pairwise R := by
      cases emit past event <;> simp
    constructor
    · intro ⟨_, later, across⟩ before first between second after b c split out next
      cases before with
      | nil =>
        cases split
        rw [List.append_nil] at out
        refine across b (by rw [out]; exact List.mem_singleton_self b) c ?_
        refine mem_emitted.mpr ⟨between, second, after, rfl, ?_⟩
        rwa [List.append_nil, List.append_cons] at next
      | cons head others =>
        cases split
        refine later others first between second after b c rfl ?_ ?_
        · rwa [← List.append_cons]
        · rwa [← List.append_cons]
    · intro all
      refine ⟨single, ?_, ?_⟩
      · intro before first between second after b c split out next
        refine all (event :: before) first between second after b c (by rw [split]; rfl) ?_ ?_
        · rwa [List.append_cons]
        · rwa [List.append_cons past event before]
      · intro b here c later
        have ⟨between, second, after, split, next⟩ := mem_emitted.mp later
        refine all [] event between second after b c (by rw [split]; rfl) ?_ ?_
        · rwa [List.append_nil, ← Option.mem_toList]
        · rwa [List.append_nil, List.append_cons]

section Throughout

variable {holds : List ι → ι → Prop}

def Throughout (holds : List ι → ι → Prop) : List ι → List ι → Prop
  | _, [] => True
  | past, event :: rest => holds past event ∧ Throughout holds (past ++ [event]) rest

instance decidableThroughout [decide : ∀ past event, Decidable (holds past event)] :
    (past events : List ι) → Decidable (Throughout holds past events)
  | _, [] => inferInstanceAs (Decidable True)
  | past, event :: rest =>
    have := decidableThroughout (past ++ [event]) rest
    inferInstanceAs (Decidable (holds past event ∧ Throughout holds (past ++ [event]) rest))

theorem Throughout.here {past before after : List ι} {event : ι}
    (all : Throughout holds past (before ++ event :: after)) : holds (past ++ before) event := by
  induction before generalizing past with
  | nil =>
    rw [List.append_nil]
    exact all.1
  | cons head rest ih =>
    rw [List.append_cons]
    exact ih all.2

end Throughout

section Pairs

variable {γ : Type} {f : List ι → ι → Option β} {g : List ι → ι → Option γ} {R : β → γ → Prop}

theorem forall₂_emitted {past events : List ι}
    (each : ∀ before event after, events = before ++ event :: after →
      Option.Rel R (f (past ++ before) event) (g (past ++ before) event)) :
    List.Forall₂ R (emitted f past events) (emitted g past events) := by
  induction events generalizing past with
  | nil => exact .nil
  | cons event rest ih =>
    have later : List.Forall₂ R (emitted f (past ++ [event]) rest)
        (emitted g (past ++ [event]) rest) := by
      apply ih
      intro before next after split
      have step := each (event :: before) next after (by rw [split]; rfl)
      rwa [List.append_cons] at step
    have first := each [] event rest rfl
    rw [List.append_nil] at first
    rw [emitted, emitted]
    generalize f past event = left, g past event = right at first
    cases first with
    | some related => exact .cons related later
    | none => exact later

theorem related_of_forall₂ {past events : List ι}
    (same : ∀ before event after, events = before ++ event :: after →
      (f (past ++ before) event).isSome = (g (past ++ before) event).isSome)
    (all : List.Forall₂ R (emitted f past events) (emitted g past events))
    {before : List ι} {event : ι} {after : List ι} (split : events = before ++ event :: after)
    {b : β} {c : γ} (first : f (past ++ before) event = some b)
    (second : g (past ++ before) event = some c) : R b c := by
  induction events generalizing past before with
  | nil => simp at split
  | cons head rest ih =>
    have alike := same [] head rest rfl
    rw [List.append_nil] at alike
    have tail : List.Forall₂ R (emitted f (past ++ [head]) rest)
        (emitted g (past ++ [head]) rest) := by
      rw [emitted, emitted] at all
      cases left : f past head with
      | none =>
        have right : g past head = none := by simpa [left] using alike
        rwa [left, right] at all
      | some x =>
        rw [left] at alike
        have ⟨y, right⟩ := Option.isSome_iff_exists.mp alike.symm
        rw [left, right] at all
        exact (List.forall₂_cons.mp all).2
    cases before with
    | nil =>
      cases split
      rw [List.append_nil] at first second
      rw [emitted, emitted, first, second] at all
      exact (List.forall₂_cons.mp all).1
    | cons other others =>
      cases split
      refine ih ?_ tail rfl ?_ ?_
      · intro before next after later
        have step := same (head :: before) next after (by rw [later]; rfl)
        rwa [List.append_cons] at step
      · rwa [← List.append_cons]
      · rwa [← List.append_cons]

end Pairs

section Latest

variable {f : ι → Option β}

def latest (f : ι → Option β) (past : List ι) : Option β :=
  (past.filterMap f).getLast?

theorem latest_snoc (f : ι → Option β) (past : List ι) (event : ι) :
    latest f (past ++ [event]) = (f event).or (latest f past) := by
  rw [latest, List.filterMap_append, latest]
  cases given : f event with
  | none => simp [given]
  | some b => simp [given]

theorem latest_append (f : ι → Option β) (first second : List ι) :
    latest f (first ++ second) = (latest f second).or (latest f first) := by
  rw [latest, List.filterMap_append, List.getLast?_append, latest, latest]

theorem latest_eq_some {past : List ι} {b : β} : latest f past = some b ↔
    ∃ before event after, past = before ++ event :: after ∧ f event = some b ∧
      ∀ later ∈ after, f later = none := by
  constructor
  · intro found
    induction past using List.reverseRecOn with
    | nil => cases found
    | append_singleton past event ih =>
      rw [latest_snoc] at found
      cases given : f event with
      | some c =>
        rw [given, Option.some_or] at found
        exact ⟨past, event, [], rfl, given.trans found, by simp⟩
      | none =>
        rw [given, Option.none_or] at found
        have ⟨before, last, after, split, out, nothing⟩ := ih found
        refine ⟨before, last, after ++ [event], by rw [split]; simp, out, ?_⟩
        intro later inside
        rw [List.mem_append, List.mem_singleton] at inside
        rcases inside with earlier | rfl
        · exact nothing later earlier
        · exact given
  · rintro ⟨before, event, after, rfl, out, nothing⟩
    have empty : after.filterMap f = [] := List.filterMap_eq_nil_iff.mpr nothing
    simp [latest, out, empty]

end Latest

end Emitted
