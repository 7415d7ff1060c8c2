import Mathlib.Data.List.Basic

/-!
# Runs of a labelled machine

A machine has one start state and a partial step function: a label names the
thread and the action, and a disabled action has no successor. A run may be
restricted to steps that meet a condition on the state before the step and
the label. Every safety result of this development is an invariant carried
by `Steps.preserves`.
-/

namespace TransitionRuns

universe u v

structure Machine (S : Type u) (L : Type v) where
  start : S
  step : S → L → Option S

variable {S : Type u} {L : Type v}

/-- Execute a whole schedule, failing at the first disabled label. -/
def Machine.exec (M : Machine S L) : S → List L → Option S
  | s, [] => some s
  | s, l :: rest => (M.step s l).bind fun t => M.exec t rest

/-- Finite executions all of whose steps meet `ok`. -/
inductive Steps (M : Machine S L) (ok : S → L → Prop) : S → S → Prop where
  | refl (s : S) : Steps M ok s s
  | snoc {s t u : S} {l : L} : Steps M ok s t → ok t l → M.step t l = some u → Steps M ok s u

def ReachableBy (M : Machine S L) (ok : S → L → Prop) (s : S) : Prop :=
  Steps M ok M.start s

def Reachable (M : Machine S L) (s : S) : Prop :=
  ReachableBy M (fun _ _ => True) s

theorem Steps.preserves {M : Machine S L} {ok : S → L → Prop} {I : S → Prop}
    (keeps : ∀ s l t, I s → ok s l → M.step s l = some t → I t)
    {s t : S} (run : Steps M ok s t) (hs : I s) : I t := by
  induction run with
  | refl => exact hs
  | snoc _ hok hstep ih => exact keeps _ _ _ ih hok hstep

theorem ReachableBy.invariant {M : Machine S L} {ok : S → L → Prop} {I : S → Prop}
    (start : I M.start) (keeps : ∀ s l t, I s → ok s l → M.step s l = some t → I t)
    {s : S} (h : ReachableBy M ok s) : I s :=
  Steps.preserves keeps h start

theorem Reachable.invariant {M : Machine S L} {I : S → Prop}
    (start : I M.start) (keeps : ∀ s l t, I s → M.step s l = some t → I t)
    {s : S} (h : Reachable M s) : I s :=
  ReachableBy.invariant start (fun s l t hs _ => keeps s l t hs) h

theorem Steps.trans {M : Machine S L} {ok : S → L → Prop} {s t u : S}
    (first : Steps M ok s t) (second : Steps M ok t u) : Steps M ok s u := by
  induction second with
  | refl => exact first
  | snoc _ hok hstep ih => exact .snoc ih hok hstep

theorem Steps.single {M : Machine S L} {ok : S → L → Prop} {s t : S} {l : L}
    (hok : ok s l) (hstep : M.step s l = some t) : Steps M ok s t :=
  .snoc (.refl s) hok hstep

theorem Steps.mono {M : Machine S L} {ok weaker : S → L → Prop}
    (imp : ∀ s l, ok s l → weaker s l) {s t : S} (run : Steps M ok s t) :
    Steps M weaker s t := by
  induction run with
  | refl => exact .refl _
  | snoc _ hok hstep ih => exact .snoc ih (imp _ _ hok) hstep

theorem ReachableBy.reachable {M : Machine S L} {ok : S → L → Prop} {s : S}
    (h : ReachableBy M ok s) : Reachable M s :=
  Steps.mono (fun _ _ _ => trivial) h

theorem ReachableBy.extend {M : Machine S L} {ok : S → L → Prop} {s t : S}
    (h : ReachableBy M ok s) (run : Steps M ok s t) : ReachableBy M ok t :=
  Steps.trans h run

theorem Machine.exec_append (M : Machine S L) (s : S) (first second : List L) :
    M.exec s (first ++ second) = (M.exec s first).bind fun t => M.exec t second := by
  induction first generalizing s with
  | nil => rfl
  | cons l rest ih =>
    rw [List.cons_append, Machine.exec, Machine.exec, Option.bind_assoc]
    exact congrArg _ (funext fun t => ih t)

theorem Machine.exec_trans {M : Machine S L} {s t u : S} {first second : List L}
    (before : M.exec s first = some t) (after : M.exec t second = some u) :
    M.exec s (first ++ second) = some u := by
  rw [Machine.exec_append, before]
  exact after

/-- An executed schedule is an execution, so concrete runs reach their last state. -/
theorem Machine.exec_steps {M : Machine S L} {ok : S → L → Prop} (all : ∀ s l, ok s l)
    {schedule : List L} {s t : S} (h : M.exec s schedule = some t) : Steps M ok s t := by
  induction schedule generalizing s with
  | nil =>
    have hst : s = t := Option.some.inj h
    exact hst ▸ .refl s
  | cons l rest ih =>
    rw [Machine.exec, Option.bind_eq_some_iff] at h
    obtain ⟨mid, hmid, hrest⟩ := h
    exact (Steps.single (all s l) hmid).trans (ih hrest)

theorem Machine.exec_reachable {M : Machine S L} {schedule : List L} {t : S}
    (h : M.exec M.start schedule = some t) : Reachable M t :=
  Machine.exec_steps (fun _ _ => trivial) h

/-- Execute a schedule whose every step passes a check. -/
def Machine.execWhile (M : Machine S L) (check : S → L → Bool) : S → List L → Option S
  | s, [] => some s
  | s, l :: rest =>
    if check s l then (M.step s l).bind fun t => M.execWhile check t rest else none

theorem Machine.execWhile_steps {M : Machine S L} {check : S → L → Bool}
    {schedule : List L} {s t : S} (h : M.execWhile check s schedule = some t) :
    Steps M (fun s l => check s l = true) s t := by
  induction schedule generalizing s with
  | nil =>
    have hst : s = t := Option.some.inj h
    exact hst ▸ .refl s
  | cons l rest ih =>
    by_cases passes : check s l = true
    · simp only [Machine.execWhile, passes, if_true] at h
      obtain ⟨mid, hmid, hrest⟩ := Option.bind_eq_some_iff.mp h
      have first : Steps M (fun s l => check s l = true) s mid := Steps.single passes hmid
      exact first.trans (ih hrest)
    · simp only [Machine.execWhile, passes] at h
      cases h

end TransitionRuns
