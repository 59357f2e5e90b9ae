import Mathlib.Data.List.Perm.Basic
import Mathlib.Order.Lattice

set_option autoImplicit false

namespace Brackets

-- Spans whose two ends are the brackets of one word: a closing bracket closes the bracket that was
-- opened last among those that are still open.

variable {α κ : Type}

-- Each closing bracket with what it closes; `stack` has what is open, the latest first.
def closed (opens : α → Bool) : List α → List α → List (Option α × α)
  | _, [] => []
  | stack, a :: rest =>
    if opens a then closed opens (a :: stack) rest
    else (stack.head?, a) :: closed opens stack.tail rest

def ends (spans : List (α × α)) : List α :=
  spans.flatMap fun span => [span.1, span.2]

structure Nested [LinearOrder κ] (key : α → κ) (spans : List (α × α)) : Prop where
  ordered : ∀ p ∈ spans, key p.1 < key p.2
  uncrossed : ∀ p ∈ spans, ∀ q ∈ spans,
    ¬ (key p.1 < key q.1 ∧ key q.1 < key p.2 ∧ key p.2 < key q.2)

theorem mem_ends {spans : List (α × α)} {a : α} :
    a ∈ ends spans ↔ ∃ span ∈ spans, a = span.1 ∨ a = span.2 := by
  simp [ends]

theorem closed_mem {opens : α → Bool} {stack word : List α} {c : Option α × α}
    (inside : c ∈ closed opens stack word) : c.2 ∈ word := by
  induction word generalizing stack with
  | nil => cases inside
  | cons a rest ih =>
    rw [closed] at inside
    split at inside
    · exact List.mem_cons_of_mem _ (ih inside)
    · rcases List.mem_cons.mp inside with rfl | later
      · exact List.mem_cons_self
      · exact List.mem_cons_of_mem _ (ih later)

theorem ends_cons (span : α × α) (spans : List (α × α)) :
    ends (span :: spans) = span.1 :: span.2 :: ends spans :=
  rfl

theorem ends_perm {spans others : List (α × α)} (perm : spans.Perm others) :
    (ends spans).Perm (ends others) :=
  perm.flatMap_right _

theorem filter_ends {P : α → Bool} {spans : List (α × α)} (same : ∀ p ∈ spans, P p.2 = P p.1) :
    (ends spans).filter P = ends (spans.filter fun p => P p.1) := by
  induction spans with
  | nil => rfl
  | cons p rest ih =>
    obtain ⟨here, later⟩ := List.forall_mem_cons.mp same
    rw [ends_cons, List.filter_cons, List.filter_cons, List.filter_cons, here, ih later]
    split <;> rfl

theorem snd_unique {spans : List (α × α)} (distinct : (ends spans).Nodup) {p q : α × α}
    (left : p ∈ spans) (right : q ∈ spans) (same : p.2 = q.2) : p = q := by
  induction spans with
  | nil => cases left
  | cons span rest ih =>
    rw [ends_cons, List.nodup_cons, List.nodup_cons] at distinct
    obtain ⟨-, absent, later⟩ := distinct
    have other : ∀ r ∈ rest, span.2 ≠ r.2 :=
      fun r inside equal => absent (equal ▸ mem_ends.mpr ⟨r, inside, .inr rfl⟩)
    rcases List.mem_cons.mp left with first | left <;>
      rcases List.mem_cons.mp right with second | right
    · rw [first, second]
    · exact absurd (first ▸ same) (other q right)
    · exact absurd (second ▸ same.symm) (other p left)
    · exact ih later left right

theorem closed_others_iff {before after : List (α × α)} {p : α × α}
    {rest : List (Option α × α)} (apart : ∀ q ∈ before ++ after, q.2 ≠ p.2) :
    (∀ q ∈ before ++ p :: after, (some q.1, q.2) ∈ (some p.1, p.2) :: rest) ↔
      ∀ q ∈ before ++ after, (some q.1, q.2) ∈ rest := by
  have split : (before ++ p :: after).Perm (p :: (before ++ after)) := List.perm_middle
  constructor
  · intro each q inside
    have listed := split.mem_iff.mpr (List.mem_cons_of_mem _ inside)
    rcases List.mem_cons.mp (each q listed) with same | later
    · exact absurd (Prod.mk.inj same).2 (apart q inside)
    · exact later
  · intro each q inside
    rcases List.mem_cons.mp (split.mem_iff.mp inside) with rfl | other
    · exact List.mem_cons_self
    · exact List.mem_cons_of_mem _ (each q other)

section Match

variable [LinearOrder κ] {key : α → κ} {opens : α → Bool}

theorem Nested.cons_iff {front rest : List α} {spans : List (α × α)} {a b : α}
    (sorted : (front ++ a :: b :: rest).Pairwise fun x y => key x < key y)
    (others : ∀ x ∈ ends spans, x ∈ front ∨ x ∈ rest) :
    Nested key ((a, b) :: spans) ↔ Nested key spans := by
  rw [List.pairwise_append, List.pairwise_cons, List.pairwise_cons] at sorted
  obtain ⟨-, ⟨first, second, -⟩, across⟩ := sorted
  have next : key a < key b := first b List.mem_cons_self
  have aside : ∀ x ∈ ends spans, key x < key a ∨ key b < key x := by
    intro x inside
    rcases others x inside with before | after
    · exact .inl (across x before a List.mem_cons_self)
    · exact .inr (second x after)
  constructor
  · intro nested
    exact ⟨fun p inside => nested.ordered p (List.mem_cons_of_mem _ inside), fun p left q right =>
      nested.uncrossed p (List.mem_cons_of_mem _ left) q (List.mem_cons_of_mem _ right)⟩
  · intro nested
    refine ⟨List.forall_mem_cons.mpr ⟨next, nested.ordered⟩, ?_⟩
    rintro p left q right ⟨start, middle, finish⟩
    rcases List.mem_cons.mp left with rfl | left <;> rcases List.mem_cons.mp right with rfl | right
    · exact lt_irrefl _ start
    · rcases aside q.1 (mem_ends.mpr ⟨q, right, .inl rfl⟩) with less | more
      · exact lt_asymm less start
      · exact lt_asymm more middle
    · rcases aside p.2 (mem_ends.mpr ⟨p, left, .inr rfl⟩) with less | more
      · exact lt_asymm less middle
      · exact lt_asymm more finish
    · exact nested.uncrossed p left q right ⟨start, middle, finish⟩

theorem Nested.perm {spans others : List (α × α)} (perm : spans.Perm others)
    (nested : Nested key spans) : Nested key others where
  ordered p inside := nested.ordered p (perm.mem_iff.mpr inside)
  uncrossed p left q right :=
    nested.uncrossed p (perm.mem_iff.mpr left) q (perm.mem_iff.mpr right)

-- The word at a closing bracket `p.2`: `stack` is what is open in front of it.
section Closing

variable {stack rest : List α} {spans : List (α × α)} {p : α × α}

theorem Nested.head? (nested : Nested key spans)
    (perm : (stack.reverse ++ p.2 :: rest).Perm (ends spans))
    (sorted : (stack.reverse ++ p.2 :: rest).Pairwise fun a b => key a < key b)
    (opened : ∀ a ∈ stack, opens a) (kinds : ∀ q ∈ spans, opens q.1 ∧ ¬ opens q.2)
    (listed : p ∈ spans) : stack.head? = some p.1 := by
  have distinct : (ends spans).Nodup :=
    perm.nodup_iff.mp (sorted.imp fun less same => absurd (same ▸ less) (lt_irrefl _))
  have placed : ∀ a ∈ ends spans, a ∈ stack ∨ a = p.2 ∨ a ∈ rest := by
    intro a inside
    simpa using perm.mem_iff.mpr inside
  rw [List.pairwise_append, List.pairwise_cons] at sorted
  obtain ⟨inner, ⟨after, -⟩, across⟩ := sorted
  have start : p.1 ∈ stack := by
    have less := nested.ordered p listed
    rcases placed p.1 (mem_ends.mpr ⟨p, listed, .inl rfl⟩) with before | same | later
    · exact before
    · exact absurd (same ▸ less) (lt_irrefl _)
    · exact absurd less (lt_asymm (after _ later))
  cases stack with
  | nil => cases start
  | cons top below =>
    rcases List.mem_cons.mp start with same | deeper
    · rw [same, List.head?_cons]
    · exfalso
      have above : key p.1 < key top := by
        rw [List.reverse_cons, List.pairwise_append] at inner
        exact inner.2.2 _ (List.mem_reverse.mpr deeper) _ (List.mem_singleton.mpr rfl)
      have front : key top < key p.2 := across _ (by simp) _ List.mem_cons_self
      obtain ⟨q, other, here⟩ := mem_ends.mp (perm.mem_iff.mp (by simp : top ∈ _))
      have first : top = q.1 :=
        here.resolve_right fun same => (kinds q other).2 (same ▸ opened top List.mem_cons_self)
      have finish : key p.2 < key q.2 := by
        rcases placed q.2 (mem_ends.mpr ⟨q, other, .inr rfl⟩) with before | same | later
        · exact absurd (opened _ before) (kinds q other).2
        · rw [snd_unique distinct other listed same] at first
          exact absurd (first ▸ above) (lt_irrefl _)
        · exact after _ later
      exact nested.uncrossed p listed q other ⟨first ▸ above, first ▸ front, finish⟩

end Closing

theorem close_perm {below rest : List α} {before after : List (α × α)} {p : α × α}
    (perm : (below.reverse ++ p.1 :: p.2 :: rest).Perm (ends (before ++ p :: after))) :
    (below.reverse ++ rest).Perm (ends (before ++ after)) := by
  have swap : (below.reverse ++ p.1 :: p.2 :: rest).Perm
      (p.1 :: p.2 :: (below.reverse ++ rest)) :=
    List.perm_middle.trans (List.perm_middle.cons _)
  exact (swap.symm.trans (perm.trans (ends_perm List.perm_middle))).cons_inv.cons_inv

theorem ends_apart {word : List α} {before after : List (α × α)} {p : α × α}
    (perm : word.Perm (ends (before ++ p :: after))) (distinct : word.Nodup) :
    ∀ q ∈ before ++ after, q.2 ≠ p.2 := by
  have apart := (perm.trans (ends_perm List.perm_middle)).nodup_iff.mp distinct
  rw [ends_cons, List.nodup_cons, List.nodup_cons] at apart
  intro q inside same
  exact apart.2.1 (same ▸ mem_ends.mpr ⟨q, inside, .inr rfl⟩)

/-- In a sorted word every span is closed by its own end exactly when no two spans cross. The
induction is on the word; the brackets that are open stay a part of it. -/
theorem closed_iff_of_stack {word stack : List α} {spans : List (α × α)}
    (perm : (stack.reverse ++ word).Perm (ends spans))
    (sorted : (stack.reverse ++ word).Pairwise fun a b => key a < key b)
    (opened : ∀ a ∈ stack, opens a) (kinds : ∀ p ∈ spans, opens p.1 ∧ ¬ opens p.2) :
    (∀ p ∈ spans, (some p.1, p.2) ∈ closed opens stack word) ↔ Nested key spans := by
  induction word generalizing stack spans with
  | nil =>
    cases spans with
    | nil => exact ⟨fun _ => ⟨by simp, by simp⟩, by simp⟩
    | cons p rest =>
      have inside : p.2 ∈ stack := by
        simpa using perm.mem_iff.mpr (mem_ends.mpr ⟨p, List.mem_cons_self, .inr rfl⟩)
      exact absurd (opened _ inside) (kinds p List.mem_cons_self).2
  | cons a rest ih =>
    by_cases opening : opens a
    · rw [closed, if_pos opening]
      have moved : (a :: stack).reverse ++ rest = stack.reverse ++ a :: rest := by simp
      exact ih (moved ▸ perm) (moved ▸ sorted) (List.forall_mem_cons.mpr ⟨opening, opened⟩) kinds
    · rw [closed, if_neg opening]
      obtain ⟨p, listed, here⟩ := mem_ends.mp (perm.mem_iff.mp (by simp : a ∈ _))
      obtain rfl : a = p.2 :=
        here.resolve_left fun same => opening (same ▸ (kinds p listed).1)
      have absent : p.2 ∉ rest := by
        intro inside
        have less := (List.pairwise_cons.mp (List.pairwise_append.mp sorted).2.1).1 _ inside
        exact lt_irrefl _ less
      by_cases own : stack.head? = some p.1
      · obtain ⟨below, rfl⟩ : ∃ below, stack = p.1 :: below := by
          cases stack with
          | nil => cases own
          | cons top below => exact ⟨below, by rw [Option.some.inj own]⟩
        obtain ⟨before, after, rfl⟩ := List.append_of_mem listed
        have split : (before ++ p :: after).Perm (p :: (before ++ after)) := List.perm_middle
        have joined : (p.1 :: below).reverse ++ p.2 :: rest = below.reverse ++ p.1 :: p.2 :: rest := by
          simp
        rw [joined] at perm sorted
        have remaining := close_perm perm
        have apart := ends_apart perm
          (sorted.imp fun less same => absurd (same ▸ less) (lt_irrefl _))
        have shorter : (below.reverse ++ rest).Pairwise fun a b => key a < key b :=
          sorted.sublist ((List.Sublist.refl _).append ((List.sublist_cons_self _ _).cons _))
        have inner := ih remaining shorter (fun a inside => opened a (List.mem_cons_of_mem _ inside))
          (fun q inside => kinds q (split.mem_iff.mpr (List.mem_cons_of_mem _ inside)))
        calc (∀ q ∈ before ++ p :: after, (some q.1, q.2) ∈
              (some p.1, p.2) :: closed opens below rest) ↔
            ∀ q ∈ before ++ after, (some q.1, q.2) ∈ closed opens below rest :=
              closed_others_iff apart
          _ ↔ Nested key (before ++ after) := inner
          _ ↔ Nested key (p :: (before ++ after)) :=
            (Nested.cons_iff sorted fun x inside => by
              simpa using remaining.mem_iff.mpr inside).symm
          _ ↔ Nested key (before ++ p :: after) := ⟨.perm split.symm, .perm split⟩
      · refine iff_of_false ?_ fun nested => own (nested.head? perm sorted opened kinds listed)
        intro each
        rcases List.mem_cons.mp (each p listed) with same | later
        · exact own (Prod.mk.inj same).1.symm
        · exact absent (closed_mem later)

theorem closed_iff {word : List α} {spans : List (α × α)} (perm : word.Perm (ends spans))
    (sorted : word.Pairwise fun a b => key a < key b)
    (kinds : ∀ p ∈ spans, opens p.1 ∧ ¬ opens p.2) :
    (∀ p ∈ spans, (some p.1, p.2) ∈ closed opens [] word) ↔ Nested key spans :=
  closed_iff_of_stack perm sorted (by simp) kinds

end Match

end Brackets
