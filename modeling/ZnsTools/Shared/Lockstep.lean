import ZnsTools.Shared.CursorLoop

set_option autoImplicit false

namespace Lockstep

-- Two runs side by side that keep their states related and do the same.

open CursorLoop

variable {α β γ δ σ τ ω ε : Type}

inductive Agree (P : α → β → Prop) : Except ε α → Except ε β → Prop
  | error (e : ε) : Agree P (.error e) (.error e)
  | ok {a : α} {b : β} (related : P a b) : Agree P (.ok a) (.ok b)

theorem Agree.refl {P : α → α → Prop} (same : ∀ a, P a a) (result : Except ε α) :
    Agree P result result := by
  cases result with
  | error e => exact .error e
  | ok a => exact .ok (same a)

theorem Agree.bind {P : α → β → Prop} {Q : γ → δ → Prop} {first : Except ε α}
    {second : Except ε β} {next : α → Except ε γ} {later : β → Except ε δ}
    (both : Agree P first second) (rest : ∀ a b, P a b → Agree Q (next a) (later b)) :
    Agree Q (first >>= next) (second >>= later) := by
  cases both with
  | error e => exact .error e
  | ok related => exact rest _ _ related

theorem Agree.imp {P Q : α → β → Prop} {first : Except ε α} {second : Except ε β}
    (both : Agree P first second) (weaker : ∀ a b, P a b → Q a b) : Agree Q first second := by
  cases both with
  | error e => exact .error e
  | ok related => exact .ok (weaker _ _ related)

theorem Agree.mapError {ε' : Type} {P : α → β → Prop} {first : Except ε α} {second : Except ε β}
    (both : Agree P first second) (f : ε → ε') :
    Agree P (first.mapError f) (second.mapError f) := by
  cases both with
  | error e => exact .error (f e)
  | ok related => exact .ok related

-- Both are still running, or both have ended and agree.
inductive Together (P : α → β → Prop) : Option (Except ε α) → Option (Except ε β) → Prop
  | running : Together P none none
  | ended {first : Except ε α} {second : Except ε β} (both : Agree P first second) :
      Together P (some first) (some second)

theorem Together.map {P : α → β → Prop} {Q : γ → δ → Prop} {first : Option (Except ε α)}
    {second : Option (Except ε β)} {f : Except ε α → Except ε γ} {g : Except ε β → Except ε δ}
    (both : Together P first second) (next : ∀ a b, Agree P a b → Agree Q (f a) (g b)) :
    Together Q (first.map f) (second.map g) := by
  cases both with
  | running => exact .running
  | ended both => exact .ended (next _ _ both)

inductive Alike (R : σ → τ → Prop) : Flow σ ω → Flow τ ω → Prop
  | advance {next : σ} {later : τ} (out : ω) (related : R next later) :
      Alike R (.advance next out) (.advance later out)
  | again {next : σ} {later : τ} (related : R next later) : Alike R (.again next) (.again later)
  | leave {next : σ} {later : τ} (related : R next later) : Alike R (.leave next) (.leave later)

def SameOutput (R : σ → τ → Prop) (run : σ × List (Pass α σ ω)) (twin : τ × List (Pass β τ ω)) :
    Prop :=
  R run.1 twin.1 ∧ run.2.map Pass.out = twin.2.map Pass.out

section Loops

variable {R : σ → τ → Prop} {S : α → β → Prop} {body : α → σ → Except ε (Flow σ ω)}
  {other : β → τ → Except ε (Flow τ ω)}

theorem scan_together
    (pass : ∀ item twin, S item twin → ∀ state mirror, R state mirror →
      Agree (Alike R) (body item state) (other twin mirror))
    (fuel : Nat) {items : List α} {twins : List β} (lists : List.Forall₂ S items twins)
    {state : σ} {mirror : τ} (related : R state mirror) :
    Together (SameOutput R) (scan body fuel items state) (scan other fuel twins mirror) := by
  induction fuel generalizing items twins state mirror with
  | zero =>
    cases lists with
    | nil => exact .ended (.ok ⟨related, rfl⟩)
    | cons _ _ => exact .running
  | succ fuel ih =>
    cases lists with
    | nil => exact .ended (.ok ⟨related, rfl⟩)
    | @cons item twin rest others here later =>
      have here' := pass item twin here state mirror related
      rw [scan, scan]
      generalize body item state = result at here'
      generalize other twin mirror = outcome at here'
      cases here' with
      | error e => exact .ended (.error e)
      | ok alike =>
        cases alike with
        | leave next => exact .ended (.ok ⟨next, rfl⟩)
        | again next => exact ih (.cons here later) next
        | @advance after behind out next =>
          have tails := ih later next
          dsimp only
          generalize scan body fuel rest after = tail at tails
          generalize scan other fuel others behind = back at tails
          cases tails with
          | running => exact .running
          | ended both =>
            cases both with
            | error e => exact .ended (.error e)
            | @ok run ran final =>
              refine .ended (.ok ⟨final.1, ?_⟩)
              rw [List.map_cons, List.map_cons, final.2]

theorem scans_together {enter : σ → σ} {enters : τ → τ} {close : σ → Except ε σ}
    {closes : τ → Except ε τ}
    (entered : ∀ state mirror, R state mirror → R (enter state) (enters mirror))
    (closed : ∀ state mirror, R state mirror → Agree R (close state) (closes mirror))
    (pass : ∀ item twin, S item twin → ∀ state mirror, R state mirror →
      Agree (Alike R) (body item state) (other twin mirror))
    {fuel : List α → Nat} {turns : List β → Nat}
    (enough : ∀ items twins, List.Forall₂ S items twins → fuel items = turns twins)
    {lists : List (List α)} {groups : List (List β)}
    (related : List.Forall₂ (List.Forall₂ S) lists groups) {state : σ} {mirror : τ}
    (start : R state mirror) :
    Together (SameOutput R) (scans body enter close fuel lists state)
      (scans other enters closes turns groups mirror) := by
  induction related generalizing state mirror with
  | nil => exact .ended (.ok ⟨start, rfl⟩)
  | @cons items twins rest others here later ih =>
    have inner := scan_together pass (fuel items) here (entered state mirror start)
    rw [scans, scans, ← enough items twins here]
    generalize scan body (fuel items) items (enter state) = result at inner
    generalize scan other (fuel items) twins (enters mirror) = outcome at inner
    cases inner with
    | running => exact .running
    | ended both =>
      cases both with
      | error e => exact .ended (.error e)
      | @ok run ran done =>
        have ends := closed run.1 ran.1 done.1
        dsimp only
        generalize close run.1 = left at ends
        generalize closes ran.1 = gone at ends
        cases ends with
        | error e => exact .ended (.error e)
        | @ok next after kept =>
          have tails := ih kept
          dsimp only
          generalize scans body enter close fuel rest next = tail at tails
          generalize scans other enters closes turns others after = back at tails
          cases tails with
          | running => exact .running
          | ended both =>
            cases both with
            | error e => exact .ended (.error e)
            | ok final =>
              refine .ended (.ok ⟨final.1, ?_⟩)
              rw [List.map_append, List.map_append, done.2, final.2]

end Loops

end Lockstep
