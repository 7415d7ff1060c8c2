import AxVision.TransitionRuns
import Mathlib.Data.Nat.Find

/-!
# Infinite runs and weak fairness

A run takes a labelled step or stutters at every instant. Fairness is stated
for a set of labels; the two rules below turn it into an eventuality, the
second one with a rank that no step raises.
-/

namespace FairRuns

open TransitionRuns

universe u v

variable {S : Type u} {L : Type v} {M : Machine S L}

/-- What happens at one instant: a step, or nothing. -/
def Instant (M : Machine S L) (s : S) (l : Option L) (t : S) : Prop :=
  match l with
  | some l => M.step s l = some t
  | none => t = s

structure Run (M : Machine S L) where
  state : Nat → S
  label : Nat → Option L
  start : state 0 = M.start
  next : ∀ n, Instant M (state n) (label n) (state (n + 1))

/-- What holds now and after the step of this instant, if there is one, holds next. -/
theorem Run.advance (run : Run M) {P : S → Prop} {n : Nat} (here : P (run.state n))
    (step : ∀ l, run.label n = some l → M.step (run.state n) l = some (run.state (n + 1)) →
      P (run.state (n + 1))) : P (run.state (n + 1)) := by
  have next := run.next n
  cases label : run.label n with
  | none =>
    rw [label] at next
    have same : run.state (n + 1) = run.state n := next
    exact same.symm ▸ here
  | some l =>
    rw [label] at next
    exact step l label next

theorem Run.reachable (run : Run M) (n : Nat) : Reachable M (run.state n) := by
  induction n with
  | zero =>
    rw [run.start]
    exact .refl _
  | succ n ih => exact run.advance (P := Reachable M) ih fun l _ step => .snoc ih trivial step

/-- A label of `A` is taken at instant `n`. -/
def Run.Takes (run : Run M) (A : L → Prop) (n : Nat) : Prop := ∃ l, run.label n = some l ∧ A l

def Enabled (M : Machine S L) (A : L → Prop) (s : S) : Prop := ∃ l t, A l ∧ M.step s l = some t

/-- If `A` stays enabled from some instant on, it is taken at a later one. -/
def Run.WeaklyFair (run : Run M) (A : L → Prop) : Prop :=
  ∀ n, (∀ m, n ≤ m → Enabled M A (run.state m)) → ∃ m, n ≤ m ∧ run.Takes A m

/-- A property that every instant keeps up to `until` holds there. -/
theorem Run.keeps_until (run : Run M) {P : S → Prop} {n m : Nat} (le : n ≤ m)
    (keeps : ∀ k, n ≤ k → k < m → P (run.state k) → P (run.state (k + 1)))
    (here : P (run.state n)) : P (run.state m) := by
  induction m, le using Nat.le_induction with
  | base => exact here
  | succ m le ih =>
    have before : P (run.state m) := ih fun k hk lt => keeps k hk (by omega)
    exact keeps m le (by omega) before

/-- What every step keeps holds at all later instants. -/
theorem Run.keeps (run : Run M) {P : S → Prop} {n m : Nat} (le : n ≤ m)
    (keeps : ∀ s l t, Reachable M s → P s → M.step s l = some t → P t)
    (here : P (run.state n)) : P (run.state m) := by
  refine run.keeps_until le ?_ here
  intro k _ _ hk
  exact run.advance hk fun l _ step => keeps _ l _ (run.reachable k) hk step

/-- A property that enables `A` and is only ended by it: `A` is taken, and the
property holds up to that instant. -/
theorem Run.taken (run : Run M) {A : L → Prop} (fair : run.WeaklyFair A) {P : S → Prop}
    (enabled : ∀ s, Reachable M s → P s → Enabled M A s)
    (keeps : ∀ s l t, Reachable M s → P s → ¬A l → M.step s l = some t → P t)
    {n : Nat} (here : P (run.state n)) : ∃ m, n ≤ m ∧ P (run.state m) ∧ run.Takes A m := by
  classical
  have next : ∀ k, ¬run.Takes A k → P (run.state k) → P (run.state (k + 1)) := by
    intro k untaken hk
    refine run.advance hk fun l label step => ?_
    have other : ¬A l := fun inA => untaken ⟨l, label, inA⟩
    exact keeps _ l _ (run.reachable k) hk other step
  have some_instant : ∃ m, n ≤ m ∧ run.Takes A m := by
    by_contra never
    have untaken : ∀ k, n ≤ k → ¬run.Takes A k := fun k le taken => never ⟨k, le, taken⟩
    have always : ∀ k, n ≤ k → P (run.state k) := by
      intro k le
      refine run.keeps_until le ?_ here
      intro i hi _
      exact next i (untaken i hi)
    obtain ⟨m, le, taken⟩ := fair n fun k le => enabled _ (run.reachable k) (always k le)
    exact untaken m le taken
  -- the first instant at which `A` is taken
  obtain ⟨le, taken⟩ := Nat.find_spec some_instant
  refine ⟨Nat.find some_instant, le, ?_, taken⟩
  refine run.keeps_until le ?_ here
  intro k hk lt
  exact next k fun early => Nat.find_min some_instant lt ⟨hk, early⟩

/-- `P` leads to `Q` when no step before `Q` raises the rank and some later one
lowers it. -/
theorem Run.settles (run : Run M) {P Q : S → Prop} (rank : S → Nat) {lowers : L → Prop}
    (keeps : ∀ s l t, Reachable M s → P s → M.step s l = some t →
      Q t ∨ P t ∧ rank t ≤ rank s ∧ (lowers l → rank t < rank s))
    (onward : ∀ n, P (run.state n) →
      (∃ m, n ≤ m ∧ Q (run.state m)) ∨ ∃ m, n ≤ m ∧ run.Takes lowers m)
    {n : Nat} (here : P (run.state n)) : ∃ m, n ≤ m ∧ Q (run.state m) := by
  induction bound : rank (run.state n) using Nat.strongRecOn generalizing n with
  | ind r ih =>
    rcases onward n here with done | ⟨m, le, l, label, lowering⟩
    · exact done
    · by_contra never
      have later : ∀ k, n ≤ k → ¬Q (run.state k) := fun k hk hQ => never ⟨k, hk, hQ⟩
      have upTo : P (run.state m) ∧ rank (run.state m) ≤ r := by
        refine run.keeps_until (P := fun s => P s ∧ rank s ≤ r) le ?_ ⟨here, Nat.le_of_eq bound⟩
        rintro k hk - ⟨hP, low⟩
        refine run.advance (P := fun s => P s ∧ rank s ≤ r) ⟨hP, low⟩ fun l _ step => ?_
        rcases keeps _ l _ (run.reachable k) hP step with hQ | ⟨hP', less, -⟩
        · exact absurd hQ (later (k + 1) (by omega))
        · exact ⟨hP', Nat.le_trans less low⟩
      have next := run.next m
      rw [label] at next
      rcases keeps _ l _ (run.reachable m) upTo.1 next with hQ | ⟨hP, -, less⟩
      · exact later (m + 1) (by omega) hQ
      · have lower : rank (run.state (m + 1)) < r := Nat.lt_of_lt_of_le (less lowering) upTo.2
        obtain ⟨k, hk, hQ⟩ := ih _ lower hP rfl
        exact later k (by omega) hQ

/-- The state after `n` instants of a schedule, which is then left alone. -/
def stateAt (M : Machine S L) : S → List L → Nat → S
  | s, _, 0 => s
  | s, [], _ + 1 => s
  | s, l :: rest, n + 1 =>
    match M.step s l with
    | some t => stateAt M t rest n
    | none => s

theorem stateAt_next {s t : S} {schedule : List L} (h : M.exec s schedule = some t) (n : Nat) :
    Instant M (stateAt M s schedule n) schedule[n]? (stateAt M s schedule (n + 1)) := by
  induction schedule generalizing s n with
  | nil => cases n <;> rfl
  | cons l rest ih =>
    obtain ⟨mid, step, run⟩ := Option.bind_eq_some_iff.mp h
    cases n with
    | zero =>
      have first : stateAt M s (l :: rest) 1 = mid := by
        simp only [stateAt, step]
      rw [first]
      exact step
    | succ n =>
      simp only [stateAt, step, List.getElem?_cons_succ]
      exact ih run n

theorem stateAt_end {s t : S} {schedule : List L} (h : M.exec s schedule = some t) {n : Nat}
    (beyond : schedule.length ≤ n) : stateAt M s schedule n = t := by
  induction schedule generalizing s n with
  | nil =>
    have same : s = t := Option.some.inj h
    cases n with
    | zero => exact same
    | succ n => exact same
  | cons l rest ih =>
    obtain ⟨mid, step, run⟩ := Option.bind_eq_some_iff.mp h
    cases n with
    | zero => cases beyond
    | succ n =>
      simp only [stateAt, step]
      exact ih run (Nat.le_of_succ_le_succ beyond)

def Run.ofSchedule {schedule : List L} {t : S} (h : M.exec M.start schedule = some t) : Run M where
  state := stateAt M M.start schedule
  label n := schedule[n]?
  start := by cases schedule <;> rfl
  next := stateAt_next h

/-- A schedule that ends with `A` disabled is fair to it. -/
theorem Run.ofSchedule_fair {schedule : List L} {t : S} (h : M.exec M.start schedule = some t)
    {A : L → Prop} (quiet : ¬Enabled M A t) : (Run.ofSchedule h).WeaklyFair A := by
  intro n stays
  have last := stays (max n schedule.length) (Nat.le_max_left _ _)
  have same : (Run.ofSchedule h).state (max n schedule.length) = t :=
    stateAt_end h (Nat.le_max_right _ _)
  rw [same] at last
  exact absurd last quiet

end FairRuns
