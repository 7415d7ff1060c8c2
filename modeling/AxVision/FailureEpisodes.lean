import AxVision.FailureLimits
import Mathlib.Data.List.Infix
import Mathlib.Data.List.Pairwise

/-!
# The failure reports of an episode

The limiter keeps five numbers. Its reports are compared with the history of
its calls, the latest call first: an episode is the failures in front of the
last recovery, and a report tells their number, their codes and their time.
-/

namespace FailureEpisodes

open FailureLimits

abbrev Call := Outcome × Int

variable {interval now : Int} {history calls : List Call} {call : Call} {f : FailureRateLimiter}

def report (f : FailureRateLimiter) (call : Call) : FailureReport :=
  match call.1 with
  | .failed code => (f.onFailure code call.2).2
  | .recovered => (f.onRecovery call.2).2

def after (interval : Int) (history : List Call) : FailureRateLimiter :=
  history.foldr (fun call f => f.observe call) { interval := interval }

/-- The failures since the last recovery, each with its code and its time. -/
def failures : List Call → List (Int × Int)
  | [] => []
  | (.failed code, now) :: earlier => (code, now) :: failures earlier
  | (.recovered, _) :: _ => []

/-- The failures that a report of a call is about. -/
def eventsOf (call : Call) (history : List Call) : List (Int × Int) :=
  match call.1 with
  | .failed code => (code, call.2) :: failures history
  | .recovered => failures history

/-- The times in the current episode at which the limiter has reported something. -/
def reportTimes (interval : Int) : List Call → List Int
  | [] => []
  | (.failed code, now) :: earlier =>
    if (report (after interval earlier) (.failed code, now)).event = .none then
      reportTimes interval earlier
    else now :: reportTimes interval earlier
  | (.recovered, _) :: _ => []

/-- How often a code differs from the one before it. -/
def changes : List Int → Nat
  | [] => 0
  | [_] => 0
  | code :: previous :: rest => (if previous ≠ code then 1 else 0) + changes (previous :: rest)

def Chronological (calls : List Call) : Prop :=
  calls.Pairwise fun later earlier => earlier.2 ≤ later.2

/-- The numbers of a report are those of the events of one episode. -/
structure Computed (r : FailureReport) (now : Int) (events : List (Int × Int)) : Prop where
  failures : r.episodeFailures = events.length
  changes : r.codeChanges = changes (events.map Prod.fst)
  latest : ∀ e ∈ events.head?, r.latestCode = e.1
  duration : ∀ e ∈ events.getLast?, r.durationSeconds = (now - e.2) / nanoseconds

/-- What the limiter reports of a call against the calls before it. -/
structure Faithful (interval : Int) (history : List Call) (call : Call) : Prop where
  first : (report (after interval history) call).event = .first ↔
    (∃ code, call.1 = .failed code) ∧ failures history = []
  sustained : ∀ code, call.1 = .failed code → failures history ≠ [] →
    ∃ t, (reportTimes interval history).head? = some t ∧
      (report (after interval history) call).event =
        if interval * nanoseconds ≤ call.2 - t then .summary else .none
  recovery : (report (after interval history) call).event = .recovery ↔
    call.1 = .recovered ∧ failures history ≠ []
  computed : eventsOf call history ≠ [] →
    Computed (report (after interval history) call) call.2 (eventsOf call history)
  quiet : eventsOf call history = [] → report (after interval history) call = {}

/-- The numbers of the limiter against the events of the current episode. -/
structure Counts (events : List (Int × Int)) (f : FailureRateLimiter) : Prop where
  failures : f.episodeFailures = events.length
  changes : f.codeChanges = changes (events.map Prod.fst)
  latest : ∀ e ∈ events.head?, f.latestCode = e.1
  started : ∀ e ∈ events.getLast?, f.started = e.2

theorem Counts.idle_iff {events : List (Int × Int)} (counts : Counts events f) :
    f.episodeFailures = 0 ↔ events = [] := by
  rw [counts.failures, List.length_eq_zero_iff]

/-- A further failure counted, before the limiter decides about a report. -/
def counted (f : FailureRateLimiter) (code : Int) : FailureRateLimiter :=
  { f with
    episodeFailures := f.episodeFailures + 1
    codeChanges := (if f.latestCode ≠ code then 1 else 0) + f.codeChanges
    latestCode := code }

theorem onFailure_idle (idle : f.episodeFailures = 0) (code now : Int) :
    let g := { f with started := now, lastReport := now, latestCode := code, episodeFailures := 1 }
    f.onFailure code now = (g, g.snapshot .first now) := by
  rw [FailureRateLimiter.onFailure, if_pos idle]

theorem onFailure_ongoing (ongoing : f.episodeFailures ≠ 0) (code now : Int) :
    f.onFailure code now =
      if f.interval * nanoseconds ≤ now - f.lastReport then
        let g := { counted f code with lastReport := now }
        (g, g.snapshot .summary now)
      else (counted f code, (counted f code).snapshot .none now) := by
  rw [FailureRateLimiter.onFailure, if_neg ongoing]
  by_cases changed : f.latestCode ≠ code
  · simp only [counted, if_pos changed, Nat.add_comm 1]
  · have same : f.latestCode = code := not_not.mp changed
    simp only [counted, same, ne_eq, not_true_eq_false, if_false, Nat.zero_add]

theorem mem_failures {e : Int × Int} (mem : e ∈ failures history) :
    (Outcome.failed e.1, e.2) ∈ history := by
  induction history with
  | nil => cases mem
  | cons call earlier ih =>
    obtain ⟨outcome, now⟩ := call
    cases outcome with
    | failed code =>
      rcases List.mem_cons.mp mem with rfl | later
      · exact List.mem_cons_self
      · exact List.mem_cons_of_mem _ (ih later)
    | recovered => cases mem

/-- A failure of an open episode is counted as one more event. -/
theorem Counts.counted {events : List (Int × Int)} (counts : Counts events f)
    (ongoing : events ≠ []) (code now : Int) :
    Counts ((code, now) :: events) (counted f code) := by
  obtain ⟨⟨previous, before⟩, rest, rfl⟩ := List.exists_cons_of_ne_nil ongoing
  have latest : f.latestCode = previous := counts.latest _ rfl
  refine ⟨?_, ?_, ?_, ?_⟩
  · exact congrArg (· + 1) counts.failures
  · rw [FailureEpisodes.counted, counts.changes, latest]
    rfl
  · intro e head
    cases head
    rfl
  · intro e first
    rw [List.getLast?_cons_cons] at first
    exact counts.started e first

/-- What the limiter tells when its numbers are those of the events. -/
theorem Counts.computed {events : List (Int × Int)} (counts : Counts events f)
    (past : ∀ e ∈ events, e.2 ≤ now) (event : FailureReportEvent) :
    Computed (f.snapshot event now) now events := by
  refine ⟨counts.failures, counts.changes, counts.latest, ?_⟩
  intro e first
  have begun : e.2 ≤ now := past e (List.mem_of_getLast? first)
  rw [FailureRateLimiter.snapshot, counts.started e first]
  exact Int.tdiv_eq_ediv_of_nonneg (by omega)

/-- The state of the limiter against the history of its calls. -/
structure Tracks (interval : Int) (history : List Call) : Prop where
  interval_eq : (after interval history).interval = interval
  counts : Counts (failures history) (after interval history)
  reported : failures history ≠ [] →
    (reportTimes interval history).head? = some (after interval history).lastReport

/-- What the limiter answers to a failure is its next state and its report. -/
theorem failed_step {code : Int} {r : FailureReport}
    (step : (after interval history).onFailure code now = (f, r)) :
    after interval ((.failed code, now) :: history) = f ∧
      report (after interval history) (.failed code, now) = r :=
  ⟨congrArg Prod.fst step, congrArg Prod.snd step⟩

/-- A failure that opens an episode is reported, and the episode is this failure. -/
theorem Tracks.opened (tracks : Tracks interval history) (idle : failures history = [])
    (code now : Int) :
    Tracks interval ((.failed code, now) :: history) ∧
      report (after interval history) (.failed code, now) =
        (after interval ((.failed code, now) :: history)).snapshot .first now := by
  obtain ⟨later, reported⟩ :=
    failed_step (onFailure_idle (tracks.counts.idle_iff.mpr idle) code now)
  have changed := tracks.counts.changes
  rw [idle] at changed
  refine ⟨⟨?_, ?_, ?_⟩, ?_⟩
  · rw [later]
    exact tracks.interval_eq
  · rw [later, failures, idle]
    exact ⟨rfl, changed, by simp, by simp⟩
  · intro some
    rw [reportTimes, reported, later]
    rfl
  · rw [reported, later]

/-- A failure of an open episode is one more event, and the time since the last report decides. -/
theorem Tracks.sustained (tracks : Tracks interval history) (ongoing : failures history ≠ [])
    (code now : Int) :
    Tracks interval ((.failed code, now) :: history) ∧
      report (after interval history) (.failed code, now) =
        (after interval ((.failed code, now) :: history)).snapshot
          (if interval * nanoseconds ≤ now - (after interval history).lastReport
            then .summary else .none) now := by
  have step := onFailure_ongoing (fun idle => ongoing (tracks.counts.idle_iff.mp idle)) code now
  have counts := tracks.counts.counted ongoing code now
  rw [tracks.interval_eq] at step
  by_cases due : interval * nanoseconds ≤ now - (after interval history).lastReport
  · rw [if_pos due] at step ⊢
    obtain ⟨later, reported⟩ := failed_step step
    refine ⟨⟨?_, ?_, ?_⟩, ?_⟩
    · rw [later]
      exact tracks.interval_eq
    · rw [later]
      exact ⟨counts.failures, counts.changes, counts.latest, counts.started⟩
    · intro some
      rw [reportTimes, reported, later]
      rfl
    · rw [reported, later]
  · rw [if_neg due] at step ⊢
    obtain ⟨later, reported⟩ := failed_step step
    refine ⟨⟨?_, ?_, ?_⟩, ?_⟩
    · rw [later]
      exact tracks.interval_eq
    · rw [later]
      exact counts
    · intro some
      have silent : (report (after interval history) (.failed code, now)).event = .none := by
        rw [reported]
        rfl
      rw [reportTimes, if_pos silent, later]
      exact tracks.reported ongoing
    · rw [reported, later]

theorem onRecovery_idle (idle : f.episodeFailures = 0) (now : Int) :
    f.onRecovery now = (f, {}) := by
  rw [FailureRateLimiter.onRecovery, if_pos idle]

theorem onRecovery_ongoing (ongoing : f.episodeFailures ≠ 0) (now : Int) :
    f.onRecovery now =
      ({ f with episodeFailures := 0, codeChanges := 0, latestCode := 0 },
        f.snapshot .recovery now) := by
  rw [FailureRateLimiter.onRecovery, if_neg ongoing]

/-- After a recovery no episode is open. -/
theorem Tracks.recovered (tracks : Tracks interval history) (now : Int) :
    Tracks interval ((.recovered, now) :: history) := by
  have later : after interval ((.recovered, now) :: history) =
      ((after interval history).onRecovery now).1 := rfl
  by_cases idle : failures history = []
  · have counts := tracks.counts
    rw [onRecovery_idle (counts.idle_iff.mpr idle)] at later
    rw [idle] at counts
    refine ⟨?_, ?_, fun some => absurd rfl some⟩
    · rw [later]
      exact tracks.interval_eq
    · rw [later]
      exact counts
  · rw [onRecovery_ongoing fun zero => idle (tracks.counts.idle_iff.mp zero)] at later
    refine ⟨?_, ?_, fun some => absurd rfl some⟩
    · rw [later]
      exact tracks.interval_eq
    · rw [later]
      exact ⟨rfl, rfl, by simp [failures], by simp [failures]⟩

theorem tracks_after (interval : Int) (history : List Call) : Tracks interval history := by
  induction history with
  | nil => exact ⟨rfl, ⟨rfl, rfl, by simp [failures], by simp [failures]⟩, fun some => absurd rfl some⟩
  | cons call earlier ih =>
    obtain ⟨outcome, now⟩ := call
    cases outcome with
    | failed code =>
      by_cases idle : failures earlier = []
      · exact (ih.opened idle code now).1
      · exact (ih.sustained idle code now).1
    | recovered => exact ih.recovered now

theorem past_failures (ordered : Chronological (call :: history)) :
    ∀ e ∈ failures history, e.2 ≤ call.2 := by
  intro e mem
  exact (List.pairwise_cons.mp ordered).1 _ (mem_failures mem)

theorem failed_faithful (tracks : Tracks interval history) {code : Int}
    (ordered : Chronological ((.failed code, now) :: history)) :
    Faithful interval history (.failed code, now) := by
  have past : ∀ e ∈ (code, now) :: failures history, e.2 ≤ now := by
    intro e mem
    rcases List.mem_cons.mp mem with rfl | mem
    · exact Int.le_refl _
    · exact past_failures ordered e mem
  by_cases idle : failures history = []
  · obtain ⟨later, told⟩ := tracks.opened idle code now
    have event : (report (after interval history) (.failed code, now)).event = .first := by
      rw [told]
      rfl
    refine ⟨?_, ?_, ?_, ?_, ?_⟩
    · exact iff_of_true event ⟨⟨code, rfl⟩, idle⟩
    · exact fun _ _ some => absurd idle some
    · rw [event]
      exact iff_of_false (by decide) (fun h => absurd h.2 (not_not.mpr idle))
    · intro some
      rw [told]
      exact later.counts.computed past _
    · intro none_left
      cases none_left
  · obtain ⟨later, told⟩ := tracks.sustained idle code now
    have event : (report (after interval history) (.failed code, now)).event =
        if interval * nanoseconds ≤ now - (after interval history).lastReport
          then .summary else .none := by
      rw [told]
      rfl
    refine ⟨?_, ?_, ?_, ?_, ?_⟩
    · rw [event]
      exact iff_of_false (by split <;> decide) (fun h => idle h.2)
    · intro _ _ _
      exact ⟨_, tracks.reported idle, event⟩
    · rw [event]
      exact iff_of_false (by split <;> decide) (fun h => nomatch h.1)
    · intro some
      rw [told]
      exact later.counts.computed past _
    · intro none_left
      cases none_left

theorem recovered_faithful (tracks : Tracks interval history)
    (ordered : Chronological ((.recovered, now) :: history)) :
    Faithful interval history (.recovered, now) := by
  have told : report (after interval history) (.recovered, now) =
      ((after interval history).onRecovery now).2 := rfl
  by_cases idle : failures history = []
  · rw [onRecovery_idle (tracks.counts.idle_iff.mpr idle)] at told
    refine ⟨?_, ?_, ?_, ?_, ?_⟩
    · rw [told]
      exact iff_of_false (fun h => nomatch h) (fun h => nomatch h.1)
    · exact fun _ failed => nomatch failed
    · rw [told]
      exact iff_of_false (fun h => nomatch h) (fun h => absurd idle h.2)
    · exact fun some => absurd idle some
    · exact fun _ => told
  · rw [onRecovery_ongoing fun zero => idle (tracks.counts.idle_iff.mp zero)] at told
    refine ⟨?_, ?_, ?_, ?_, ?_⟩
    · rw [told]
      exact iff_of_false (fun h => nomatch h) (fun h => nomatch h.1)
    · exact fun _ failed => nomatch failed
    · rw [told]
      exact iff_of_true rfl ⟨rfl, idle⟩
    · intro some
      rw [told]
      exact tracks.counts.computed (past_failures ordered) _
    · exact fun none_left => absurd none_left idle

/-- In every run of calls at times that do not decrease, what the limiter reports
of a call is what the episode of the call tells. -/
theorem reports_faithful (interval : Int) {calls : List Call} (ordered : Chronological calls)
    {call : Call} {history : List Call} (made : call :: history <:+ calls) :
    Faithful interval history call := by
  have tracks := tracks_after interval history
  have here : Chronological (call :: history) := ordered.sublist made.sublist
  obtain ⟨outcome, now⟩ := call
  cases outcome with
  | failed code => exact failed_faithful tracks here
  | recovered => exact recovered_faithful tracks here

theorem recovery_of_twoFailures :
    Faithful 5 [(.failed (-1), 2000000000), (.failed (-2), 1000000000)] (.recovered, 9000000000) :=
  have ordered : Chronological [(.recovered, 9000000000), (.failed (-1), 2000000000),
      (.failed (-2), 1000000000)] := by simp [Chronological]
  reports_faithful 5 ordered (List.suffix_refl _)

end FailureEpisodes
