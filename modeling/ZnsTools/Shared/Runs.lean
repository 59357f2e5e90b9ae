import Mathlib.Logic.Basic

set_option autoImplicit false

namespace Runs

-- A run of a step function that may fail, over a list of events.

variable {σ ι ε α β : Type}

theorem bind_ok {result : Except ε α} {next : α → Except ε β} {value : β}
    (done : result >>= next = .ok value) : ∃ a, result = .ok a ∧ next a = .ok value := by
  cases result with
  | error e => cases done
  | ok a => exact ⟨a, rfl, done⟩

theorem bind_error_iff {result : Except ε α} {next : α → Except ε β} {e : ε} :
    result >>= next = .error e ↔
      result = .error e ∨ ∃ a, result = .ok a ∧ next a = .error e := by
  cases result with
  | error other =>
    constructor
    · intro failed
      cases failed
      exact .inl rfl
    · rintro (failed | ⟨_, done, _⟩)
      · cases failed
        rfl
      · cases done
  | ok a =>
    constructor
    · intro failed
      exact .inr ⟨a, rfl, failed⟩
    · rintro (failed | ⟨_, done, failed⟩)
      · cases failed
      · cases done
        exact failed

theorem ok_bind (a : α) (next : α → Except ε β) : (.ok a : Except ε α) >>= next = next a :=
  rfl

theorem bind_map {γ : Type} (result : Except ε α) (next : α → Except ε β) (f : β → γ) :
    (result >>= next).map f = result >>= fun a => (next a).map f := by
  cases result with
  | error e => rfl
  | ok a => rfl

theorem map_ok {result : Except ε α} {f : α → β} {value : β}
    (computed : result.map f = .ok value) : ∃ a, result = .ok a ∧ f a = value := by
  cases result with
  | error e => cases computed
  | ok a => exact ⟨a, rfl, Except.ok.inj computed⟩

theorem mapError_ok {ε' : Type} {result : Except ε α} {f : ε → ε'} {value : α}
    (computed : result.mapError f = .ok value) : result = .ok value := by
  cases result with
  | error e => cases computed
  | ok a => exact congrArg Except.ok (Except.ok.inj computed)

theorem some_map_ok {result : Option (Except ε α)} {f : α → β} {value : β}
    (computed : result.map (·.map f) = some (.ok value)) :
    ∃ a, result = some (.ok a) ∧ f a = value := by
  cases result with
  | none => cases computed
  | some outcome =>
    obtain ⟨a, rfl, same⟩ := map_ok (Option.some.inj computed)
    exact ⟨a, rfl, same⟩

theorem foldlM_invariant {step : σ → ι → Except ε σ} (P : σ → Prop) {events : List ι}
    (kept : ∀ state, ∀ event ∈ events, ∀ next, P state → step state event = .ok next → P next)
    {first last : σ} (run : events.foldlM step first = .ok last) (start : P first) : P last := by
  induction events generalizing first with
  | nil => exact (show first = last from Except.ok.inj run) ▸ start
  | cons event rest ih =>
    obtain ⟨next, moved, tail⟩ := bind_ok (by simpa only [List.foldlM_cons] using run)
    exact ih (fun state other inside => kept state other (by simp [inside])) tail
      (kept first event (by simp) next start moved)

theorem ok_avoids {a : α} {e : ε} : (.ok a : Except ε α) ≠ .error e := by
  rintro ⟨⟩

theorem bind_avoids {result : Except ε α} {next : α → Except ε β} {e : ε} (first : result ≠ .error e)
    (later : ∀ a, result = .ok a → next a ≠ .error e) : result >>= next ≠ .error e := by
  intro failed
  rcases bind_error_iff.mp failed with failed | ⟨a, done, failed⟩
  · exact first failed
  · exact later a done failed

theorem foldlM_avoids {step : σ → ι → Except ε σ} {events : List ι} {e : ε}
    (each : ∀ state, ∀ event ∈ events, step state event ≠ .error e) (first : σ) :
    events.foldlM step first ≠ .error e := by
  induction events generalizing first with
  | nil => exact ok_avoids
  | cons event rest ih =>
    rw [List.foldlM_cons]
    exact bind_avoids (each first event (by simp)) fun next _ =>
      ih (fun state other inside => each state other (by simp [inside])) next

theorem foldlM_cons_exists {step : σ → ι → Except ε σ} {event : ι} {rest : List ι} {first : σ} :
    (∃ last, (event :: rest).foldlM step first = .ok last) ↔
      ∃ next, step first event = .ok next ∧ ∃ last, rest.foldlM step next = .ok last := by
  rw [List.foldlM_cons]
  constructor
  · intro ⟨last, run⟩
    have ⟨next, moved, later⟩ := bind_ok run
    exact ⟨next, moved, last, later⟩
  · intro ⟨next, moved, last, later⟩
    exact ⟨last, by rw [moved, ok_bind, later]⟩

theorem foldlM_simulates {σ' ι' ε' : Type} {step : σ → ι → Except ε σ}
    {step' : σ' → ι' → Except ε' σ'} {f : σ → σ'} {g : ι → ι'} {h : ε → ε'} {events : List ι}
    (each : ∀ state, ∀ event ∈ events,
      step' (f state) (g event) = ((step state event).mapError h).map f) (first : σ) :
    (events.map g).foldlM step' (f first) = ((events.foldlM step first).mapError h).map f := by
  induction events generalizing first with
  | nil => rfl
  | cons event rest ih =>
    rw [List.map_cons, List.foldlM_cons, List.foldlM_cons, each first event (by simp)]
    cases step first event with
    | error e => rfl
    | ok next => exact ih (fun state other inside => each state other (by simp [inside])) next

theorem mapM_exists {f : α → Except ε β} {list : List α} (each : ∀ a ∈ list, ∃ b, f a = .ok b) :
    ∃ bs, list.mapM f = .ok bs := by
  induction list with
  | nil => exact ⟨[], rfl⟩
  | cons a rest ih =>
    rw [List.forall_mem_cons] at each
    have ⟨b, first⟩ := each.1
    have ⟨bs, later⟩ := ih each.2
    exact ⟨b :: bs, by rw [List.mapM_cons, first, ok_bind, later, ok_bind]; rfl⟩

end Runs
