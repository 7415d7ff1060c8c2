import Mathlib.Data.List.Basic

/-!
# Rate-limited failure reports

A maximal run of failures without a recovery is an episode. The limiter counts
its failures and the changes of the failure code, and says when to report.
Times are nanoseconds of the steady clock. Counts and times are whole numbers:
the counters have 64 bits, and so have the readings of the clock, whose
differences stay in range for 292 years.
-/

namespace FailureLimits

inductive FailureReportEvent where
  | none
  | first
  | summary
  | recovery
  deriving DecidableEq, Repr

structure FailureReport where
  event : FailureReportEvent := .none
  episodeFailures : Nat := 0
  codeChanges : Nat := 0
  latestCode : Int := 0
  durationSeconds : Int := 0
  deriving DecidableEq, Repr

def nanoseconds : Int := 1000000000

structure FailureRateLimiter where
  /-- in seconds -/
  interval : Int
  started : Int := 0
  lastReport : Int := 0
  episodeFailures : Nat := 0
  codeChanges : Nat := 0
  latestCode : Int := 0
  deriving DecidableEq, Repr

namespace FailureRateLimiter

/-- `Snapshot`; `duration_cast` truncates. -/
def snapshot (f : FailureRateLimiter) (event : FailureReportEvent) (now : Int) : FailureReport where
  event := event
  episodeFailures := f.episodeFailures
  codeChanges := f.codeChanges
  latestCode := f.latestCode
  durationSeconds := (now - f.started).tdiv nanoseconds

def onFailure (f : FailureRateLimiter) (code now : Int) : FailureRateLimiter × FailureReport :=
  if f.episodeFailures = 0 then
    let g := { f with started := now, lastReport := now, latestCode := code, episodeFailures := 1 }
    (g, g.snapshot .first now)
  else
    let counted := { f with episodeFailures := f.episodeFailures + 1 }
    let g :=
      if counted.latestCode ≠ code then
        { counted with latestCode := code, codeChanges := counted.codeChanges + 1 }
      else counted
    if g.interval * nanoseconds ≤ now - g.lastReport then
      let reported := { g with lastReport := now }
      (reported, reported.snapshot .summary now)
    else (g, g.snapshot .none now)

def onRecovery (f : FailureRateLimiter) (now : Int) : FailureRateLimiter × FailureReport :=
  if f.episodeFailures = 0 then (f, {})
  else
    ({ f with episodeFailures := 0, codeChanges := 0, latestCode := 0 }, f.snapshot .recovery now)

end FailureRateLimiter

inductive Outcome where
  | failed (code : Int)
  | recovered
  deriving DecidableEq, Repr

/-- One call of the limiter at a clock reading. -/
def FailureRateLimiter.observe (f : FailureRateLimiter) (call : Outcome × Int) :
    FailureRateLimiter :=
  match call.1 with
  | .failed code => (f.onFailure code call.2).1
  | .recovered => (f.onRecovery call.2).1

end FailureLimits
