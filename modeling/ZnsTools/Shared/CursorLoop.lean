import Mathlib.Data.List.Basic
import Mathlib.Data.List.Forall2

set_option autoImplicit false

namespace CursorLoop

-- A `while` loop over a list cursor. A pass may fall through to the statement that moves the
-- cursor, skip that statement with `continue`, or leave the loop with `break`.

inductive Flow (σ ω : Type) where
  | advance (next : σ) (out : ω)
  | again (next : σ)
  | leave (next : σ)

def Flow.state {σ ω : Type} : Flow σ ω → σ
  | advance next _ => next
  | again next => next
  | leave next => next

structure Pass (α σ ω : Type) where
  item : α
  before : σ
  after : σ
  out : ω

variable {α σ ω ε : Type}

/-- Run the loop for at most `fuel` passes; `none` means that it is still running then. -/
def scan (body : α → σ → Except ε (Flow σ ω)) :
    Nat → List α → σ → Option (Except ε (σ × List (Pass α σ ω)))
  | _, [], state => some (.ok (state, []))
  | 0, _ :: _, _ => none
  | fuel + 1, item :: rest, state =>
    match body item state with
    | .error e => some (.error e)
    | .ok (.leave next) => some (.ok (next, []))
    | .ok (.again next) => scan body fuel (item :: rest) next
    | .ok (.advance next out) =>
      match scan body fuel rest next with
      | some (.ok (final, passes)) => some (.ok (final, ⟨item, state, next, out⟩ :: passes))
      | some (.error e) => some (.error e)
      | none => none

variable {body : α → σ → Except ε (Flow σ ω)}

theorem scan_nil (fuel : Nat) (state : σ) : scan body fuel [] state = some (.ok (state, [])) := by
  cases fuel <;> rfl

theorem scan_advance {fuel : Nat} {item : α} {rest : List α} {state next final : σ} {out : ω}
    {passes : List (Pass α σ ω)} (pass : body item state = .ok (.advance next out))
    (tail : scan body fuel rest next = some (.ok (final, passes))) :
    scan body (fuel + 1) (item :: rest) state =
      some (.ok (final, ⟨item, state, next, out⟩ :: passes)) := by
  simp [scan, pass, tail]

/-- A run that ends, pass by pass and without the fuel. -/
inductive Ran (body : α → σ → Except ε (Flow σ ω)) :
    List α → σ → σ → List (Pass α σ ω) → Prop
  | done (state : σ) : Ran body [] state state []
  | leave {item : α} {rest : List α} {state next : σ}
      (pass : body item state = .ok (.leave next)) : Ran body (item :: rest) state next []
  | again {item : α} {rest : List α} {state next final : σ} {passes : List (Pass α σ ω)}
      (pass : body item state = .ok (.again next))
      (later : Ran body (item :: rest) next final passes) :
      Ran body (item :: rest) state final passes
  | advance {item : α} {rest : List α} {state next final : σ} {out : ω}
      {passes : List (Pass α σ ω)} (pass : body item state = .ok (.advance next out))
      (later : Ran body rest next final passes) :
      Ran body (item :: rest) state final (⟨item, state, next, out⟩ :: passes)

theorem scan_ran {fuel : Nat} {items : List α} {state final : σ} {passes : List (Pass α σ ω)}
    (result : scan body fuel items state = some (.ok (final, passes))) :
    Ran body items state final passes := by
  induction fuel generalizing items state passes with
  | zero =>
    cases items with
    | nil =>
      cases result
      exact .done _
    | cons item rest => cases result
  | succ fuel ih =>
    cases items with
    | nil =>
      cases result
      exact .done _
    | cons item rest =>
      rw [scan] at result
      split at result
      · cases result
      · next next outcome =>
        cases result
        exact .leave outcome
      · next next outcome => exact .again outcome (ih result)
      · next next out outcome =>
        split at result <;> cases result
        next tail => exact .advance outcome (ih tail)

theorem scan_shows (P : List (Pass α σ ω) → σ → Prop) (items : List α)
    (step : ∀ done item rest, items = done.map Pass.item ++ item :: rest → ∀ state flow,
      P done state → body item state = .ok flow →
        ∃ next out, flow = .advance next out ∧ P (done ++ [⟨item, state, next, out⟩]) next)
    {fuel : Nat} {state final : σ} {passes : List (Pass α σ ω)}
    (result : scan body fuel items state = some (.ok (final, passes))) (start : P [] state) :
    P passes final ∧ passes.map Pass.item = items := by
  suffices general : ∀ {rest : List α} {state final : σ} {passes : List (Pass α σ ω)},
      Ran body rest state final passes → ∀ done, items = done.map Pass.item ++ rest →
        P done state → P (done ++ passes) final ∧ passes.map Pass.item = rest by
    exact general (scan_ran result) [] rfl start
  intro rest state final passes ran
  induction ran with
  | done state =>
    intro done split holds
    exact ⟨by rwa [List.append_nil], rfl⟩
  | leave pass =>
    intro done split holds
    obtain ⟨next, out, moved, -⟩ := step done _ _ split _ _ holds pass
    cases moved
  | again pass later ih =>
    intro done split holds
    obtain ⟨next, out, moved, -⟩ := step done _ _ split _ _ holds pass
    cases moved
  | @advance item rest state next final out passes pass later ih =>
    intro done split holds
    obtain ⟨_, _, moved, kept⟩ := step done item rest split state _ holds pass
    cases moved
    have ⟨reached, visited⟩ := ih (done ++ [⟨item, state, next, out⟩]) (by simpa using split) kept
    exact ⟨by simpa using reached, by rw [List.map_cons, visited]⟩

def Each (Q : List α → Pass α σ ω → Prop) (passes : List (Pass α σ ω)) : Prop :=
  ∀ (index : Nat) (pass : Pass α σ ω), passes[index]? = some pass →
    Q ((passes.map Pass.item).take index) pass

theorem Each.snoc {Q : List α → Pass α σ ω → Prop} {passes : List (Pass α σ ω)}
    {pass : Pass α σ ω} (each : Each Q passes) (last : Q (passes.map Pass.item) pass) :
    Each Q (passes ++ [pass]) := by
  intro index other found
  rw [List.map_append]
  by_cases early : index < passes.length
  · rw [List.getElem?_append_left early] at found
    rw [List.take_append_of_le_length (by rw [List.length_map]; omega)]
    exact each index other found
  · rw [List.getElem?_append_right (by omega)] at found
    obtain ⟨here, same⟩ := List.getElem?_eq_some_iff.mp found
    have at_end : index = (passes.map Pass.item).length := by
      rw [List.length_singleton] at here
      rw [List.length_map]
      omega
    rw [at_end, List.take_left]
    rw [← same, List.getElem_singleton]
    exact last

theorem scan_exhausts (P : List α → σ → Prop) (Q : List α → Pass α σ ω → Prop)
    (items : List α)
    (step : ∀ done item rest, items = done ++ item :: rest → ∀ state flow, P done state →
      body item state = .ok flow →
        ∃ next out, flow = .advance next out ∧ P (done ++ [item]) next ∧
          Q done ⟨item, state, next, out⟩)
    {fuel : Nat} {state final : σ} {passes : List (Pass α σ ω)}
    (result : scan body fuel items state = some (.ok (final, passes))) (start : P [] state) :
    P items final ∧ passes.map Pass.item = items ∧
      ∀ index pass, passes[index]? = some pass → Q (items.take index) pass := by
  obtain ⟨⟨last, each⟩, visited⟩ := scan_shows
    (fun done state => P (done.map Pass.item) state ∧ Each Q done) items
    (by
      intro done item rest split state flow holds pass
      obtain ⟨next, out, moved, kept, made⟩ := step _ item rest split state flow holds.1 pass
      exact ⟨next, out, moved, by simpa using kept, holds.2.snoc made⟩)
    result ⟨start, fun index pass found => by cases found⟩
  rw [Each, visited] at each
  exact ⟨visited ▸ last, visited, each⟩

theorem scan_returns (P : σ → Prop) (items : List α)
    (step : ∀ item ∈ items, ∀ state, P state →
      (∃ next out, body item state = .ok (.advance next out) ∧ P next) ∨
        ∃ next, body item state = .ok (.leave next) ∧ P next)
    {fuel : Nat} {state : σ} (enough : items.length ≤ fuel) (start : P state) :
    ∃ final passes, scan body fuel items state = some (.ok (final, passes)) ∧ P final := by
  induction items generalizing fuel state with
  | nil => exact ⟨state, [], scan_nil fuel state, start⟩
  | cons item rest ih =>
    obtain ⟨fuel, rfl⟩ : ∃ n, fuel = n + 1 := ⟨fuel - 1, by simp at enough; omega⟩
    rcases step item (by simp) state start with ⟨next, out, pass, kept⟩ | ⟨next, pass, kept⟩
    · obtain ⟨final, passes, tail, last⟩ :=
        ih (fun item inside => step item (by simp [inside])) (by simpa using enough) kept
      exact ⟨final, _, scan_advance pass tail, last⟩
    · exact ⟨next, [], by simp [scan, pass], kept⟩

theorem scan_fails (P : σ → Prop) (items : List α)
    (kept : ∀ item ∈ items, ∀ state flow, P state → body item state = .ok flow → P flow.state)
    {fuel : Nat} {state : σ} {e : ε} (result : scan body fuel items state = some (.error e))
    (start : P state) : ∃ item ∈ items, ∃ state, P state ∧ body item state = .error e := by
  induction fuel generalizing items state with
  | zero => cases items <;> simp [scan] at result
  | succ fuel ih =>
    cases items with
    | nil => simp [scan] at result
    | cons item rest =>
      have own := kept item (by simp) state
      rw [scan] at result
      split at result
      · next failed =>
        cases result
        exact ⟨item, by simp, state, start, failed⟩
      · cases result
      · next next outcome => exact ih _ kept result (own _ start outcome)
      · next next out outcome =>
        split at result <;> cases result
        next tail =>
          obtain ⟨other, inside, found⟩ := ih rest
            (fun item inside => kept item (by simp [inside])) tail (own _ start outcome)
          exact ⟨other, by simp [inside], found⟩

theorem scan_keeps (P : σ → Prop) (items : List α)
    (kept : ∀ item ∈ items, ∀ state flow, P state → body item state = .ok flow → P flow.state)
    {fuel : Nat} {state final : σ} {passes : List (Pass α σ ω)}
    (result : scan body fuel items state = some (.ok (final, passes))) (start : P state) :
    P final ∧ ∀ pass ∈ passes, pass.item ∈ items ∧
      body pass.item pass.before = .ok (.advance pass.after pass.out) := by
  have ran := scan_ran result
  clear result
  induction ran with
  | done state => exact ⟨start, fun pass taken => by cases taken⟩
  | leave pass =>
    exact ⟨kept _ List.mem_cons_self _ _ start pass, fun pass taken => by cases taken⟩
  | again pass later ih => exact ih kept (kept _ List.mem_cons_self _ _ start pass)
  | advance pass later ih =>
    obtain ⟨last, each⟩ := ih (fun item inside => kept item (List.mem_cons_of_mem _ inside))
      (kept _ List.mem_cons_self _ _ start pass)
    refine ⟨last, List.forall_mem_cons.mpr ⟨⟨List.mem_cons_self, pass⟩, ?_⟩⟩
    exact fun pass taken => ⟨List.mem_cons_of_mem _ (each pass taken).1, (each pass taken).2⟩

theorem scan_passed {items : List α} {fuel : Nat} {state final : σ} {passes : List (Pass α σ ω)}
    (result : scan body fuel items state = some (.ok (final, passes))) (front : List α)
    (item : α) (back : List α) (split : items = front ++ item :: back) :
    (∃ pass ∈ passes, pass.item = item ∧
        body item pass.before = .ok (.advance pass.after pass.out)) ∨
      ∃ other ∈ front ++ [item], ∃ state next, body other state = .ok (.leave next) := by
  have ran := scan_ran result
  clear result
  induction ran generalizing front with
  | done state => simp at split
  | @leave head rest state next pass =>
    refine .inr ⟨head, ?_, state, next, pass⟩
    cases front <;> simp_all
  | again pass later ih => exact ih front split
  | @advance head rest state next final out passes pass later ih =>
    cases front with
    | nil =>
      obtain ⟨rfl, -⟩ := List.cons.inj split
      exact .inl ⟨_, List.mem_cons_self, rfl, pass⟩
    | cons first front =>
      obtain ⟨-, tail⟩ := List.cons.inj split
      rcases ih front tail with ⟨other, taken, moved⟩ | ⟨other, inside, left⟩
      · exact .inl ⟨other, List.mem_cons_of_mem _ taken, moved⟩
      · exact .inr ⟨other, List.mem_cons_of_mem _ inside, left⟩

theorem scan_traces (P : List (Pass α σ ω) → σ → Prop) (items : List α)
    (advance : ∀ done, ∀ item ∈ items, ∀ state next out, P done state →
      body item state = .ok (.advance next out) → P (done ++ [⟨item, state, next, out⟩]) next)
    (again : ∀ done, ∀ item ∈ items, ∀ state next, P done state →
      body item state = .ok (.again next) → P done next)
    (leave : ∀ done, ∀ item ∈ items, ∀ state next, P done state →
      body item state = .ok (.leave next) → P done next)
    {fuel : Nat} {state final : σ} {done passes : List (Pass α σ ω)}
    (result : scan body fuel items state = some (.ok (final, passes))) (start : P done state) :
    P (done ++ passes) final := by
  have ran := scan_ran result
  clear result
  induction ran generalizing done with
  | done state => rwa [List.append_nil]
  | leave pass =>
    rw [List.append_nil]
    exact leave done _ List.mem_cons_self _ _ start pass
  | again pass later ih =>
    exact ih advance again leave (again done _ List.mem_cons_self _ _ start pass)
  | advance pass later ih =>
    have next := ih
      (fun done item inside => advance done item (List.mem_cons_of_mem _ inside))
      (fun done item inside => again done item (List.mem_cons_of_mem _ inside))
      (fun done item inside => leave done item (List.mem_cons_of_mem _ inside))
      (advance done _ List.mem_cons_self _ _ _ start pass)
    simpa using next

theorem scan_congr {other : α → σ → Except ε (Flow σ ω)} {items : List α}
    (same : ∀ item ∈ items, ∀ state, body item state = other item state) (fuel : Nat) (state : σ) :
    scan body fuel items state = scan other fuel items state := by
  induction fuel generalizing items state with
  | zero => cases items <;> rfl
  | succ fuel ih =>
    cases items with
    | nil => rfl
    | cons item rest =>
      have own := same item List.mem_cons_self state
      have stays : ∀ next, scan body fuel (item :: rest) next = scan other fuel (item :: rest) next :=
        ih same
      have moves : ∀ next, scan body fuel rest next = scan other fuel rest next :=
        ih fun item inside => same item (List.mem_cons_of_mem _ inside)
      simp only [scan, own, stays, moves]

section Lists

variable {enter : σ → σ} {close : σ → Except ε σ}

/-- A loop over lists around the loop over the items of one; `enter` is what it does in front of
that loop and `close` what it does after it. -/
def scans (body : α → σ → Except ε (Flow σ ω)) (enter : σ → σ) (close : σ → Except ε σ)
    (fuel : List α → Nat) : List (List α) → σ → Option (Except ε (σ × List (Pass α σ ω)))
  | [], state => some (.ok (state, []))
  | items :: rest, state =>
    match scan body (fuel items) items (enter state) with
    | none => none
    | some (.error e) => some (.error e)
    | some (.ok (left, passes)) =>
      match close left with
      | .error e => some (.error e)
      | .ok next =>
        match scans body enter close fuel rest next with
        | none => none
        | some (.error e) => some (.error e)
        | some (.ok (final, more)) => some (.ok (final, passes ++ more))

theorem scans_cons {fuel : List α → Nat} {items : List α} {rest : List (List α)}
    {state left next final : σ} {front back : List (Pass α σ ω)}
    (inner : scan body (fuel items) items (enter state) = some (.ok (left, front)))
    (closed : close left = .ok next)
    (tail : scans body enter close fuel rest next = some (.ok (final, back))) :
    scans body enter close fuel (items :: rest) state = some (.ok (final, front ++ back)) := by
  simp [scans, inner, closed, tail]

theorem scans_ok {fuel : List α → Nat} {items : List α} {rest : List (List α)} {state final : σ}
    {passes : List (Pass α σ ω)}
    (result : scans body enter close fuel (items :: rest) state = some (.ok (final, passes))) :
    ∃ left next front back, passes = front ++ back ∧
      scan body (fuel items) items (enter state) = some (.ok (left, front)) ∧
      close left = .ok next ∧
      scans body enter close fuel rest next = some (.ok (final, back)) := by
  rw [scans] at result
  split at result
  · cases result
  · cases result
  · next left front inner =>
    split at result
    · cases result
    · next next closed =>
      split at result <;> cases result
      next back tail => exact ⟨left, next, front, back, rfl, inner, closed, tail⟩

theorem scans_append {fuel : List α → Nat} {front back : List (List α)} {state middle final : σ}
    {first second : List (Pass α σ ω)}
    (run : scans body enter close fuel front state = some (.ok (middle, first)))
    (rest : scans body enter close fuel back middle = some (.ok (final, second))) :
    scans body enter close fuel (front ++ back) state = some (.ok (final, first ++ second)) := by
  induction front generalizing state first with
  | nil =>
    obtain ⟨rfl, rfl⟩ : state = middle ∧ [] = first := by simpa [scans] using run
    exact rest
  | cons items front ih =>
    obtain ⟨left, next, own, others, rfl, inner, closed, tail⟩ := scans_ok run
    rw [List.append_assoc]
    exact scans_cons inner closed (ih tail)

theorem scans_congr {other : α → σ → Except ε (Flow σ ω)} {lists : List (List α)}
    (same : ∀ items ∈ lists, ∀ item ∈ items, ∀ state, body item state = other item state)
    (fuel : List α → Nat) (state : σ) :
    scans body enter close fuel lists state = scans other enter close fuel lists state := by
  induction lists generalizing state with
  | nil => rfl
  | cons items rest ih =>
    have own := scan_congr (same items List.mem_cons_self) (fuel items) (enter state)
    have later := ih fun items listed => same items (List.mem_cons_of_mem _ listed)
    simp only [scans, own, later]

theorem scans_leaves {lists : List (List α)}
    (leaves : ∀ items ∈ lists, ∀ item ∈ items, ∀ state, body item state = .ok (.leave state))
    (unchanged : ∀ state, close (enter state) = .ok state) {fuel : List α → Nat}
    (enough : ∀ items, items.length ≤ fuel items) (state : σ) :
    scans body enter close fuel lists state = some (.ok (state, [])) := by
  induction lists with
  | nil => rfl
  | cons items rest ih =>
    have inner : scan body (fuel items) items (enter state) = some (.ok (enter state, [])) := by
      cases items with
      | nil => exact scan_nil _ _
      | cons item more =>
        obtain ⟨passes, some_pass⟩ : ∃ passes, fuel (item :: more) = passes + 1 :=
          Nat.exists_eq_add_one.mpr (Nat.lt_of_lt_of_le (Nat.succ_pos _) (enough (item :: more)))
        rw [some_pass, scan, leaves _ List.mem_cons_self item List.mem_cons_self]
    have later := ih fun items listed => leaves items (List.mem_cons_of_mem _ listed)
    exact scans_cons inner (unchanged state) later

theorem scans_returns (P : σ → Prop) (lists : List (List α))
    (step : ∀ items ∈ lists, ∀ item ∈ items, ∀ state, P state →
      (∃ next out, body item state = .ok (.advance next out) ∧ P next) ∨
        ∃ next, body item state = .ok (.leave next) ∧ P next)
    (entered : ∀ state, P state → P (enter state))
    (closed : ∀ state, P state → ∃ next, close state = .ok next ∧ P next)
    {fuel : List α → Nat} (enough : ∀ items, items.length ≤ fuel items) {state : σ}
    (start : P state) :
    ∃ final passes, scans body enter close fuel lists state = some (.ok (final, passes)) ∧
      P final := by
  induction lists generalizing state with
  | nil => exact ⟨state, [], rfl, start⟩
  | cons items rest ih =>
    obtain ⟨left, front, inner, kept⟩ :=
      scan_returns P items (step items (by simp)) (enough items) (entered state start)
    obtain ⟨next, done, holds⟩ := closed left kept
    obtain ⟨final, back, tail, last⟩ := ih (fun items inside => step items (by simp [inside])) holds
    exact ⟨final, front ++ back, scans_cons inner done tail, last⟩

/-- `Outside` holds between the loops over one list and `Inside` in each of them. -/
theorem scans_keeps (Outside Inside : σ → Prop) (lists : List (List α))
    (kept : ∀ items ∈ lists, ∀ item ∈ items, ∀ state flow, Inside state →
      body item state = .ok flow → Inside flow.state)
    (entered : ∀ state, Outside state → Inside (enter state))
    (closed : ∀ state next, Inside state → close state = .ok next → Outside next)
    {fuel : List α → Nat} {state final : σ} {passes : List (Pass α σ ω)}
    (result : scans body enter close fuel lists state = some (.ok (final, passes)))
    (start : Outside state) :
    Outside final ∧ ∀ pass ∈ passes, (∃ items ∈ lists, pass.item ∈ items) ∧
      body pass.item pass.before = .ok (.advance pass.after pass.out) := by
  induction lists generalizing state passes with
  | nil => simp_all [scans]
  | cons items rest ih =>
    obtain ⟨left, next, front, back, rfl, inner, done, tail⟩ := scans_ok result
    obtain ⟨reached, first⟩ := scan_keeps Inside items (kept items (by simp)) inner
      (entered state start)
    obtain ⟨last, others⟩ := ih (fun items inside => kept items (by simp [inside])) tail
      (closed left next reached done)
    refine ⟨last, List.forall_mem_append.mpr ⟨?_, ?_⟩⟩
    · exact fun pass inside => ⟨⟨items, by simp, (first pass inside).1⟩, (first pass inside).2⟩
    · intro pass inside
      obtain ⟨⟨list, listed, found⟩, turn⟩ := others pass inside
      exact ⟨⟨list, by simp [listed], found⟩, turn⟩

theorem scans_fails (P : σ → Prop) (lists : List (List α))
    (kept : ∀ items ∈ lists, ∀ item ∈ items, ∀ state flow, P state →
      body item state = .ok flow → P flow.state)
    (entered : ∀ state, P state → P (enter state))
    (closed : ∀ state, P state → ∃ next, close state = .ok next ∧ P next)
    {fuel : List α → Nat} {state : σ} {e : ε}
    (result : scans body enter close fuel lists state = some (.error e)) (start : P state) :
    ∃ items ∈ lists, ∃ item ∈ items, ∃ state, P state ∧ body item state = .error e := by
  induction lists generalizing state with
  | nil => simp [scans] at result
  | cons items rest ih =>
    have own := kept items (by simp)
    rw [scans] at result
    split at result
    · cases result
    · next failed =>
      cases result
      exact ⟨items, by simp, scan_fails P items own failed (entered state start)⟩
    · next left front inner =>
      have reached := (scan_keeps P items own inner (entered state start)).1
      obtain ⟨next, done, holds⟩ := closed left reached
      rw [done] at result
      dsimp only at result
      split at result <;> cases result
      next tail =>
        obtain ⟨list, listed, found⟩ := ih (fun items inside => kept items (by simp [inside])) tail
          holds
        exact ⟨list, by simp [listed], found⟩

theorem scans_passed {lists : List (List α)} {fuel : List α → Nat} {state final : σ}
    {passes : List (Pass α σ ω)}
    (result : scans body enter close fuel lists state = some (.ok (final, passes)))
    {items : List α} (listed : items ∈ lists) (front : List α) (item : α) (back : List α)
    (split : items = front ++ item :: back) :
    (∃ pass ∈ passes, pass.item = item ∧
        body item pass.before = .ok (.advance pass.after pass.out)) ∨
      ∃ other ∈ front ++ [item], ∃ state next, body other state = .ok (.leave next) := by
  induction lists generalizing state passes with
  | nil => cases listed
  | cons list rest ih =>
    obtain ⟨left, next, first, others, rfl, inner, -, tail⟩ := scans_ok result
    rcases List.mem_cons.mp listed with rfl | later
    · rcases scan_passed inner front item back split with ⟨pass, taken, moved⟩ | left
      · exact .inl ⟨pass, List.mem_append_left _ taken, moved⟩
      · exact .inr left
    · rcases ih tail later with ⟨pass, taken, moved⟩ | left
      · exact .inl ⟨pass, List.mem_append_right _ taken, moved⟩
      · exact .inr left

theorem scans_shows (Outside Inside : List (Pass α σ ω) → σ → Prop) (lists : List (List α))
    (step : ∀ done item rest, lists.flatten = done.map Pass.item ++ item :: rest → ∀ state flow,
      Inside done state → body item state = .ok flow →
        ∃ next out, flow = .advance next out ∧ Inside (done ++ [⟨item, state, next, out⟩]) next)
    (entered : ∀ done state, Outside done state → Inside done (enter state))
    (closed : ∀ done state next, Inside done state → close state = .ok next → Outside done next)
    {fuel : List α → Nat} {state final : σ} {passes : List (Pass α σ ω)}
    (result : scans body enter close fuel lists state = some (.ok (final, passes)))
    (start : Outside [] state) :
    Outside passes final ∧ passes.map Pass.item = lists.flatten := by
  suffices general : ∀ (rest : List (List α)) (done : List (Pass α σ ω)) (state : σ)
      (passes : List (Pass α σ ω)), lists.flatten = done.map Pass.item ++ rest.flatten →
      Outside done state → scans body enter close fuel rest state = some (.ok (final, passes)) →
        Outside (done ++ passes) final ∧ passes.map Pass.item = rest.flatten by
    simpa using general lists [] state passes rfl start result
  intro rest
  induction rest with
  | nil =>
    intro done state passes split holds result
    simp only [scans, Option.some.injEq, Except.ok.injEq, Prod.mk.injEq] at result
    obtain ⟨rfl, rfl⟩ := result
    simpa using holds
  | cons items rest ih =>
    intro done state passes split holds result
    obtain ⟨left, next, front, back, rfl, inner, ended, tail⟩ := scans_ok result
    rw [List.flatten_cons] at split
    have inside : ∀ seen item left, items = seen.map Pass.item ++ item :: left → ∀ state flow,
        Inside (done ++ seen) state → body item state = .ok flow →
          ∃ next out, flow = .advance next out ∧
            Inside (done ++ (seen ++ [⟨item, state, next, out⟩])) next := by
      intro seen item left same state flow holds outcome
      have := step (done ++ seen) item (left ++ rest.flatten) (by simp [split, same]) state flow
        holds outcome
      simpa using this
    obtain ⟨kept, visited⟩ := scan_shows (fun seen => Inside (done ++ seen)) items inside inner
      (by simpa using entered done state holds)
    obtain ⟨reached, later⟩ := ih (done ++ front) next back (by simp [split, visited])
      (closed _ left next kept ended) tail
    exact ⟨by simpa using reached, by simp [visited, later]⟩

theorem scans_exhausts (Outside Inside : List α → σ → Prop) (Q : List α → Pass α σ ω → Prop)
    (lists : List (List α))
    (step : ∀ done item rest, lists.flatten = done ++ item :: rest → ∀ state flow,
      Inside done state → body item state = .ok flow →
        ∃ next out, flow = .advance next out ∧ Inside (done ++ [item]) next ∧
          Q done ⟨item, state, next, out⟩)
    (entered : ∀ done state, Outside done state → Inside done (enter state))
    (closed : ∀ done state next, Inside done state → close state = .ok next → Outside done next)
    {fuel : List α → Nat} {state final : σ} {passes : List (Pass α σ ω)}
    (result : scans body enter close fuel lists state = some (.ok (final, passes)))
    (start : Outside [] state) :
    Outside lists.flatten final ∧ passes.map Pass.item = lists.flatten ∧
      ∀ index pass, passes[index]? = some pass → Q (lists.flatten.take index) pass := by
  obtain ⟨⟨last, each⟩, visited⟩ := scans_shows
    (fun done state => Outside (done.map Pass.item) state ∧ Each Q done)
    (fun done state => Inside (done.map Pass.item) state ∧ Each Q done) lists
    (by
      intro done item rest split state flow holds pass
      obtain ⟨next, out, moved, kept, made⟩ := step _ item rest split state flow holds.1 pass
      exact ⟨next, out, moved, by simpa using kept, holds.2.snoc made⟩)
    (fun done state holds => ⟨entered _ state holds.1, holds.2⟩)
    (fun done state next holds ended => ⟨closed _ state next holds.1 ended, holds.2⟩)
    result ⟨start, fun index pass found => by cases found⟩
  rw [Each, visited] at each
  exact ⟨visited ▸ last, visited, each⟩

-- `passes` are those of a loop over `items`, whatever state it starts from.
def Scanned (body : α → σ → Except ε (Flow σ ω)) (fuel : List α → Nat) (items : List α)
    (passes : List (Pass α σ ω)) : Prop :=
  ∃ state left, scan body (fuel items) items state = some (.ok (left, passes))

theorem Scanned.pass {fuel : List α → Nat} {items : List α} {passes : List (Pass α σ ω)}
    (scanned : Scanned body fuel items passes) {pass : Pass α σ ω} (taken : pass ∈ passes) :
    pass.item ∈ items ∧ body pass.item pass.before = .ok (.advance pass.after pass.out) := by
  obtain ⟨state, left, run⟩ := scanned
  exact (scan_keeps (fun _ => True) items (fun _ _ _ _ _ _ => trivial) run trivial).2 pass taken

/-- The same over lists: `Outside` speaks of the passes over the lists done, one group for each, and
`Inside` moreover of those over the present list. -/
theorem scans_traces (Outside : List (List (Pass α σ ω)) → σ → Prop)
    (Inside : List (List (Pass α σ ω)) → List (Pass α σ ω) → σ → Prop) (lists : List (List α))
    (advance : ∀ groups done, ∀ items ∈ lists, ∀ item ∈ items, ∀ state next out,
      Inside groups done state → body item state = .ok (.advance next out) →
        Inside groups (done ++ [⟨item, state, next, out⟩]) next)
    (again : ∀ groups done, ∀ items ∈ lists, ∀ item ∈ items, ∀ state next,
      Inside groups done state → body item state = .ok (.again next) → Inside groups done next)
    (leave : ∀ groups done, ∀ items ∈ lists, ∀ item ∈ items, ∀ state next,
      Inside groups done state → body item state = .ok (.leave next) → Inside groups done next)
    (entered : ∀ groups state, Outside groups state → Inside groups [] (enter state))
    (closed : ∀ groups done state next, Inside groups done state → close state = .ok next →
      Outside (groups ++ [done]) next)
    {fuel : List α → Nat} {state final : σ} {passes : List (Pass α σ ω)}
    (result : scans body enter close fuel lists state = some (.ok (final, passes)))
    (start : Outside [] state) :
    ∃ groups, groups.flatten = passes ∧ List.Forall₂ (Scanned body fuel) lists groups ∧
      Outside groups final := by
  suffices general : ∀ done : List (List (Pass α σ ω)), Outside done state →
      ∃ groups, groups.flatten = passes ∧ List.Forall₂ (Scanned body fuel) lists groups ∧
        Outside (done ++ groups) final by
    simpa using general [] start
  clear start
  induction lists generalizing state passes with
  | nil =>
    intro done holds
    simp only [scans, Option.some.injEq, Except.ok.injEq, Prod.mk.injEq] at result
    obtain ⟨rfl, rfl⟩ := result
    exact ⟨[], rfl, .nil, by simpa using holds⟩
  | cons items rest ih =>
    intro done holds
    obtain ⟨left, next, front, back, rfl, inner, ended, tail⟩ := scans_ok result
    have reached := scan_traces (Inside done) items (fun seen => advance done seen items (by simp))
      (fun seen => again done seen items (by simp)) (fun seen => leave done seen items (by simp))
      inner (entered done state holds)
    obtain ⟨groups, same, others, last⟩ := ih
      (fun groups seen list listed => advance groups seen list (by simp [listed]))
      (fun groups seen list listed => again groups seen list (by simp [listed]))
      (fun groups seen list listed => leave groups seen list (by simp [listed])) tail
      (done ++ [front]) (closed done front left next (by simpa using reached) ended)
    exact ⟨front :: groups, by simp [same], .cons ⟨_, left, inner⟩ others, by simpa using last⟩

end Lists

section Failures

inductive Reaches (body : α → σ → Except ε (Flow σ ω)) : List α → σ → α → σ → Prop
  | here (item : α) (rest : List α) (state : σ) : Reaches body (item :: rest) state item state
  | again {item other : α} {rest : List α} {state next there : σ}
      (pass : body item state = .ok (.again next))
      (later : Reaches body (item :: rest) next other there) :
      Reaches body (item :: rest) state other there
  | advance {item other : α} {rest : List α} {state next there : σ} {out : ω}
      (pass : body item state = .ok (.advance next out))
      (later : Reaches body rest next other there) : Reaches body (item :: rest) state other there

theorem scan_error {fuel : Nat} {items : List α} {state : σ} {e : ε}
    (result : scan body fuel items state = some (.error e)) :
    ∃ item there, Reaches body items state item there ∧ body item there = .error e := by
  induction fuel generalizing items state with
  | zero => cases items <;> cases result
  | succ fuel ih =>
    cases items with
    | nil => cases result
    | cons item rest =>
      rw [scan] at result
      split at result
      · next failed =>
        cases result
        exact ⟨item, state, .here item rest state, failed⟩
      · cases result
      · next next pass =>
        obtain ⟨other, there, later, failed⟩ := ih result
        exact ⟨other, there, .again pass later, failed⟩
      · next next out pass =>
        split at result <;> cases result
        next tail =>
          obtain ⟨other, there, later, failed⟩ := ih tail
          exact ⟨other, there, .advance pass later, failed⟩

theorem fuel_succ {enough fuel : Nat} (least : enough + 1 ≤ fuel) :
    ∃ left, fuel = left + 1 ∧ enough ≤ left :=
  ⟨fuel - 1, by omega, by omega⟩

theorem Reaches.scan {items : List α} {state there : σ} {item : α} {e : ε}
    (reaches : Reaches body items state item there) (failed : body item there = .error e) :
    ∃ enough, ∀ fuel, enough ≤ fuel → scan body fuel items state = some (.error e) := by
  induction reaches with
  | here item rest state =>
    refine ⟨1, fun fuel least => ?_⟩
    obtain ⟨left, rfl, -⟩ := fuel_succ least
    rw [CursorLoop.scan, failed]
  | again pass later ih =>
    obtain ⟨enough, runs⟩ := ih failed
    refine ⟨enough + 1, fun fuel least => ?_⟩
    obtain ⟨left, rfl, rest⟩ := fuel_succ least
    rw [CursorLoop.scan, pass]
    exact runs left rest
  | advance pass later ih =>
    obtain ⟨enough, runs⟩ := ih failed
    refine ⟨enough + 1, fun fuel least => ?_⟩
    obtain ⟨left, rfl, rest⟩ := fuel_succ least
    rw [CursorLoop.scan, pass]
    dsimp only
    rw [runs left rest]

theorem Ran.scan {items : List α} {state final : σ} {passes : List (Pass α σ ω)}
    (ran : Ran body items state final passes) :
    ∃ enough, ∀ fuel, enough ≤ fuel → scan body fuel items state = some (.ok (final, passes)) := by
  induction ran with
  | done state => exact ⟨0, fun fuel _ => scan_nil fuel state⟩
  | leave pass =>
    refine ⟨1, fun fuel least => ?_⟩
    obtain ⟨left, rfl, -⟩ := fuel_succ least
    rw [CursorLoop.scan, pass]
  | again pass later ih =>
    obtain ⟨enough, runs⟩ := ih
    refine ⟨enough + 1, fun fuel least => ?_⟩
    obtain ⟨left, rfl, rest⟩ := fuel_succ least
    rw [CursorLoop.scan, pass]
    exact runs left rest
  | advance pass later ih =>
    obtain ⟨enough, runs⟩ := ih
    refine ⟨enough + 1, fun fuel least => ?_⟩
    obtain ⟨left, rfl, rest⟩ := fuel_succ least
    exact scan_advance pass (runs left rest)

variable {enter : σ → σ} {close : σ → Except ε σ}

inductive ReachesIn (body : α → σ → Except ε (Flow σ ω)) (enter : σ → σ) (close : σ → Except ε σ) :
    List (List α) → σ → α → σ → Prop
  | inside {items : List α} {rest : List (List α)} {state there : σ} {item : α}
      (reaches : Reaches body items (enter state) item there) :
      ReachesIn body enter close (items :: rest) state item there
  | later {items : List α} {rest : List (List α)} {state left next there : σ} {item : α}
      {passes : List (Pass α σ ω)} (ran : Ran body items (enter state) left passes)
      (closed : close left = .ok next) (reaches : ReachesIn body enter close rest next item there) :
      ReachesIn body enter close (items :: rest) state item there

theorem scans_error_iff (closes : ∀ state, ∃ next, close state = .ok next) {lists : List (List α)}
    {state : σ} {e : ε} :
    (∃ fuel, scans body enter close fuel lists state = some (.error e)) ↔
      ∃ item there, ReachesIn body enter close lists state item there ∧
        body item there = .error e := by
  constructor
  · rintro ⟨fuel, result⟩
    induction lists generalizing state with
    | nil => cases result
    | cons items rest ih =>
      rw [scans] at result
      split at result
      · cases result
      · next failed =>
        cases result
        obtain ⟨item, there, reaches, failed⟩ := scan_error failed
        exact ⟨item, there, .inside reaches, failed⟩
      · next left passes inner =>
        obtain ⟨next, closed⟩ := closes left
        rw [closed] at result
        dsimp only at result
        split at result <;> cases result
        next tail =>
          obtain ⟨item, there, reaches, failed⟩ := ih tail
          exact ⟨item, there, .later (scan_ran inner) closed reaches, failed⟩
  · rintro ⟨item, there, reaches, failed⟩
    suffices runs : ∃ enough, ∀ fuel : List α → Nat, (∀ items, enough ≤ fuel items) →
        scans body enter close fuel lists state = some (.error e) by
      obtain ⟨enough, runs⟩ := runs
      exact ⟨fun _ => enough, runs _ fun _ => Nat.le_refl _⟩
    induction reaches with
    | inside reaches =>
      obtain ⟨enough, runs⟩ := reaches.scan failed
      refine ⟨enough, fun fuel least => ?_⟩
      rw [scans, runs _ (least _)]
    | later ran closed later ih =>
      obtain ⟨enough, runs⟩ := ran.scan
      obtain ⟨more, tail⟩ := ih failed
      refine ⟨max enough more, fun fuel least => ?_⟩
      rw [scans, runs _ (Nat.le_trans (Nat.le_max_left _ _) (least _))]
      dsimp only
      rw [closed]
      dsimp only
      rw [tail fuel fun items => Nat.le_trans (Nat.le_max_right _ _) (least items)]

end Failures

section Kinds

-- How a loop takes an item where that does not depend on its state. It does not get beyond an item
-- that it stays at.
inductive Kind where
  | advances
  | leaves
  | stays
  deriving DecidableEq, Repr

def taken (kind : α → Kind) : List α → List α × Bool
  | [] => ([], true)
  | item :: rest =>
    match kind item with
    | .advances => (item :: (taken kind rest).1, (taken kind rest).2)
    | .leaves => ([], true)
    | .stays => ([], false)

def takenIn (kind : α → Kind) : List (List α) → List α
  | [] => []
  | items :: rest =>
    (taken kind items).1 ++ if (taken kind items).2 then takenIn kind rest else []

theorem mem_taken {kind : α → Kind} {items : List α} {item : α}
    (inside : item ∈ (taken kind items).1) : item ∈ items ∧ kind item = .advances := by
  induction items with
  | nil => simp [taken] at inside
  | cons first rest ih =>
    cases own : kind first with
    | advances =>
      simp only [taken, own, List.mem_cons] at inside
      rcases inside with rfl | later
      · exact ⟨List.mem_cons_self, own⟩
      · exact ⟨List.mem_cons_of_mem _ (ih later).1, (ih later).2⟩
    | leaves => simp [taken, own] at inside
    | stays => simp [taken, own] at inside

theorem mem_takenIn {kind : α → Kind} {lists : List (List α)} {item : α}
    (inside : item ∈ takenIn kind lists) : item ∈ lists.flatten ∧ kind item = .advances := by
  induction lists with
  | nil => simp [takenIn] at inside
  | cons items rest ih =>
    rw [takenIn, List.mem_append] at inside
    rcases inside with here | later
    · have ⟨listed, own⟩ := mem_taken here
      exact ⟨by simp [listed], own⟩
    · split at later
      · have ⟨listed, own⟩ := ih later
        exact ⟨by simpa using .inr (by simpa using listed), own⟩
      · cases later

-- `view` is what an item fails by, and `put` what an item does to it.
def FailsAt {κ : Type} (fails : κ → α → Prop) (put : κ → α → κ) : κ → List α → Prop
  | _, [] => False
  | view, item :: rest => fails view item ∨ FailsAt fails put (put view item) rest

structure Kinded {κ : Type} (body : α → σ → Except ε (Flow σ ω)) (e : ε) (kind : α → Kind)
    (Inv : List α → σ → Prop) (view : σ → κ) (fails : κ → α → Prop) (put : κ → α → κ) : Prop where
  drop : ∀ {item rest state}, Inv (item :: rest) state → Inv rest state
  leaves : ∀ {item rest state}, Inv (item :: rest) state → kind item = .leaves →
    body item state = .ok (.leave state)
  stays : ∀ {item rest state}, Inv (item :: rest) state → kind item = .stays →
    body item state = .ok (.again state) ∨ ∃ other, other ≠ e ∧ body item state = .error other
  ends : ∀ {item rest state}, Inv (item :: rest) state → kind item = .advances →
    fails (view state) item → body item state = .error e
  advances : ∀ {item rest state}, Inv (item :: rest) state → kind item = .advances →
    ¬ fails (view state) item → ∃ next out, body item state = .ok (.advance next out) ∧
      view next = put (view state) item ∧ Inv rest next

variable {κ : Type} {e : ε} {kind : α → Kind} {Inv : List α → σ → Prop} {view : σ → κ}
  {fails : κ → α → Prop} {put : κ → α → κ}

theorem failsAt_append (start : κ) (front back : List α) :
    FailsAt fails put start (front ++ back) ↔
      FailsAt fails put start front ∨ FailsAt fails put (front.foldl put start) back := by
  induction front generalizing start with
  | nil => simp [FailsAt]
  | cons item rest ih => simp [FailsAt, ih, or_assoc]

theorem reaches_cons {item : α} {rest : List α} {state : σ} :
    (∃ other there, Reaches body (item :: rest) state other there ∧ body other there = .error e) ↔
      body item state = .error e ∨
      (∃ next, body item state = .ok (.again next) ∧ ∃ other there,
        Reaches body (item :: rest) next other there ∧ body other there = .error e) ∨
      ∃ next out, body item state = .ok (.advance next out) ∧ ∃ other there,
        Reaches body rest next other there ∧ body other there = .error e := by
  constructor
  · rintro ⟨other, there, reaches, failed⟩
    cases reaches with
    | here => exact .inl failed
    | again pass later => exact .inr (.inl ⟨_, pass, other, there, later, failed⟩)
    | advance pass later => exact .inr (.inr ⟨_, _, pass, other, there, later, failed⟩)
  · rintro (failed | ⟨next, pass, other, there, later, failed⟩ |
      ⟨next, out, pass, other, there, later, failed⟩)
    · exact ⟨item, state, .here item rest state, failed⟩
    · exact ⟨other, there, .again pass later, failed⟩
    · exact ⟨other, there, .advance pass later, failed⟩

theorem reaches_again {item other : α} {rest : List α} {state there : σ}
    (pass : body item state = .ok (.again state))
    (reaches : Reaches body (item :: rest) state other there) : other = item ∧ there = state := by
  generalize listed : item :: rest = items at reaches
  generalize started : state = first at reaches
  induction reaches with
  | here head tail now =>
    cases listed
    cases started
    exact ⟨rfl, rfl⟩
  | again moved later ih =>
    cases listed
    cases started
    rw [pass] at moved
    cases moved
    exact ih rfl rfl
  | advance moved later ih =>
    cases listed
    cases started
    rw [pass] at moved
    cases moved

namespace Kinded

theorem drops (kinded : Kinded body e kind Inv view fails put) (front : List α) {later : List α}
    {state : σ} (holds : Inv (front ++ later) state) : Inv later state := by
  induction front with
  | nil => exact holds
  | cons item rest ih => exact ih (kinded.drop holds)

theorem reaches_iff (kinded : Kinded body e kind Inv view fails put) (items later : List α)
    {state : σ} (holds : Inv (items ++ later) state) :
    (∃ item there, Reaches body items state item there ∧ body item there = .error e) ↔
      FailsAt fails put (view state) (taken kind items).1 := by
  induction items generalizing state with
  | nil =>
    simp only [taken, FailsAt, iff_false]
    rintro ⟨item, there, reaches, -⟩
    cases reaches
  | cons item rest ih =>
    rw [List.cons_append] at holds
    cases own : kind item with
    | leaves =>
      have pass := kinded.leaves holds own
      rw [reaches_cons]
      simp [taken, own, FailsAt, pass]
    | stays =>
      simp only [taken, own, FailsAt, iff_false]
      rintro ⟨other, there, reaches, failed⟩
      rcases kinded.stays holds own with pass | ⟨different, apart, pass⟩
      · obtain ⟨rfl, rfl⟩ := reaches_again pass reaches
        simp [pass] at failed
      · cases reaches with
        | here => exact apart (by simpa [pass] using failed)
        | again moved => simp [pass] at moved
        | advance moved => simp [pass] at moved
    | advances =>
      rw [reaches_cons]
      by_cases failing : fails (view state) item
      · have pass := kinded.ends holds own failing
        simp [taken, own, FailsAt, failing, pass]
      · obtain ⟨next, out, pass, seen, kept⟩ := kinded.advances holds own failing
        have rest_fails := ih kept
        simp [taken, own, FailsAt, failing, pass, rest_fails, seen]

theorem ran_iff (kinded : Kinded body e kind Inv view fails put) (items later : List α)
    {state : σ} (holds : Inv (items ++ later) state) :
    (∃ left passes, Ran body items state left passes) ↔
      (taken kind items).2 = true ∧ ¬ FailsAt fails put (view state) (taken kind items).1 := by
  induction items generalizing state with
  | nil => simpa [taken, FailsAt] using ⟨state, [], .done state⟩
  | cons item rest ih =>
    rw [List.cons_append] at holds
    cases own : kind item with
    | leaves =>
      simpa [taken, own, FailsAt] using ⟨state, [], .leave (kinded.leaves holds own)⟩
    | stays =>
      simp only [taken, own, FailsAt, Bool.false_eq_true, false_and, iff_false]
      rintro ⟨left, passes, ran⟩
      rcases kinded.stays holds own with pass | ⟨different, -, pass⟩
      · generalize listed : item :: rest = all at ran
        generalize started : state = first at ran
        induction ran with
        | done => cases listed
        | leave moved => cases listed; cases started; simp [pass] at moved
        | again moved _ ih =>
          cases listed
          cases started
          rw [pass] at moved
          cases moved
          exact ih rfl rfl
        | advance moved => cases listed; cases started; simp [pass] at moved
      · cases ran with
        | leave moved => simp [pass] at moved
        | again moved => simp [pass] at moved
        | advance moved => simp [pass] at moved
    | advances =>
      by_cases failing : fails (view state) item
      · have pass := kinded.ends holds own failing
        simp only [taken, own, FailsAt, failing, true_or, not_true_eq_false, and_false, iff_false]
        rintro ⟨left, passes, ran⟩
        cases ran with
        | leave moved => simp [pass] at moved
        | again moved => simp [pass] at moved
        | advance moved => simp [pass] at moved
      · obtain ⟨next, out, pass, seen, kept⟩ := kinded.advances holds own failing
        have rest_ends := ih kept
        simp only [taken, own, FailsAt, failing, false_or, ← seen, ← rest_ends]
        constructor
        · rintro ⟨left, passes, ran⟩
          cases ran with
          | leave moved => simp [pass] at moved
          | again moved => simp [pass] at moved
          | advance moved ran =>
            rw [pass] at moved
            cases moved
            exact ⟨_, _, ran⟩
        · rintro ⟨left, passes, ran⟩
          exact ⟨left, _, .advance pass ran⟩

theorem ran_keeps (kinded : Kinded body e kind Inv view fails put) (items later : List α)
    {state left : σ} {passes : List (Pass α σ ω)} (ran : Ran body items state left passes)
    (holds : Inv (items ++ later) state) :
    Inv later left ∧ view left = (taken kind items).1.foldl put (view state) := by
  induction items generalizing state passes with
  | nil =>
    cases ran
    exact ⟨holds, rfl⟩
  | cons item rest ih =>
    have ends := (kinded.ran_iff (item :: rest) later holds).mp ⟨left, passes, ran⟩
    have gone := kinded.drops _ holds
    rw [List.cons_append] at holds
    cases own : kind item with
    | leaves =>
      have pass := kinded.leaves holds own
      cases ran with
      | leave moved =>
        rw [pass] at moved
        cases moved
        exact ⟨gone, by simp [taken, own]⟩
      | again moved => simp [pass] at moved
      | advance moved => simp [pass] at moved
    | stays => simp [taken, own] at ends
    | advances =>
      have passes_on : ¬ fails (view state) item := by
        intro failing
        simp [taken, own, FailsAt, failing] at ends
      obtain ⟨next, out, pass, seen, kept⟩ := kinded.advances holds own passes_on
      cases ran with
      | leave moved => simp [pass] at moved
      | again moved => simp [pass] at moved
      | advance moved ran =>
        rw [pass] at moved
        cases moved
        have inner := ih ran kept
        simpa [taken, own, seen] using inner

theorem reachesIn_iff (kinded : Kinded body e kind Inv view fails put) (lists : List (List α))
    {state : σ} (holds : Inv lists.flatten state) :
    (∃ item there, ReachesIn body id .ok lists state item there ∧ body item there = .error e) ↔
      FailsAt fails put (view state) (takenIn kind lists) := by
  induction lists generalizing state with
  | nil =>
    simp only [takenIn, FailsAt, iff_false]
    rintro ⟨item, there, reaches, -⟩
    cases reaches
  | cons items rest ih =>
    rw [List.flatten_cons] at holds
    have inner := kinded.reaches_iff items rest.flatten holds
    have ends := kinded.ran_iff items rest.flatten holds
    rw [takenIn, failsAt_append, ← inner]
    constructor
    · rintro ⟨item, there, reaches, failed⟩
      cases reaches with
      | inside reaches => exact .inl ⟨item, there, reaches, failed⟩
      | later ran closed reaches =>
        cases closed
        obtain ⟨kept, seen⟩ := kinded.ran_keeps items rest.flatten ran holds
        have all := (ends.mp ⟨_, _, ran⟩).1
        have behind := (ih kept).mp ⟨item, there, reaches, failed⟩
        rw [seen] at behind
        right
        simpa [all] using behind
    · rintro (⟨item, there, reaches, failed⟩ | behind)
      · exact ⟨item, there, .inside reaches, failed⟩
      · by_cases failing : FailsAt fails put (view state) (taken kind items).1
        · obtain ⟨item, there, reaches, failed⟩ := inner.mpr failing
          exact ⟨item, there, .inside reaches, failed⟩
        · by_cases all : (taken kind items).2 = true
          · obtain ⟨left, passes, ran⟩ := ends.mpr ⟨all, failing⟩
            obtain ⟨kept, seen⟩ := kinded.ran_keeps items rest.flatten ran holds
            rw [if_pos all, ← seen, ← ih kept] at behind
            obtain ⟨item, there, reaches, failed⟩ := behind
            exact ⟨item, there, .later ran rfl reaches, failed⟩
          · rw [if_neg all] at behind
            cases behind

end Kinded

end Kinds

end CursorLoop
