import AxVision.TransitionRuns

/-!
# Asynchronous jobs of the host: thread pool, in-flight gates, quiescence

`SubmitAsync` raises the gate of a plugin name, hands a closure to the worker
pool and lowers the gate again on rejection; the closure lowers it after the
user function, and `WaitQuiesce` blocks until the gate reads zero. A label is
one shared access of one thread: an atomic update, or a critical section of the
pool mutex or of a gate mutex. A function that throws leaves the closure
before its decrement; `std::packaged_task` stores the exception.

The lookups of `gates_` are guarded by their own mutex and are single steps.
`GetOrCreateGate` is merged with the `fetch_add` that follows it: a gate that
exists with count zero and a gate that does not exist are answered alike by
`WaitQuiesce`.
-/

namespace HostServices

open TransitionRuns

/-- Where the closure of an accepted call stands. -/
inductive JobPhase where
  | queued
  | running
  /-- the closure took the gate from one to zero and has to notify -/
  | notifying
  /-- the call is over, the worker still owns the function object -/
  | ended (threw : Bool)
  /-- the worker's function object has been destroyed -/
  | released (threw : Bool)
  deriving DecidableEq, Repr

/-- What the thread of an accepted call holds of the packaged task, whose shared state the
closure is stored in. -/
inductive Caller where
  /-- its pointer to the task object and the future -/
  | inSubmit
  /-- the future, which owns the shared state together with the task object -/
  | inSubmitAsync
  | returned
  deriving DecidableEq, Repr

/-- Where a call of `SubmitAsync` stands. -/
inductive CallPhase where
  /-- the gate is raised, `push_pool_->Submit` has not taken the pool mutex yet -/
  | submitting
  /-- `Submit` returned `nullopt`, its task object is gone, the gate is still raised -/
  | refused
  /-- the rollback took the gate from one to zero and has to notify -/
  | rollbackNotify
  | rejected
  | accepted (caller : Caller) (job : JobPhase)
  deriving DecidableEq, Repr

structure Call where
  name : String
  phase : CallPhase
  deriving DecidableEq, Repr

/-- Where a call of `WaitQuiesce` stands. `final` is set once a timed wait has
run out: the predicate is then read a last time and its value returned. -/
inductive WaitPhase where
  | lookup
  | locking (final : Bool)
  | checking (final : Bool)
  /-- the predicate read false under `gate->mu`; blocking releases it atomically -/
  | dozing
  | asleep
  | returned (drained : Bool)
  deriving DecidableEq, Repr

structure Waiter where
  name : String
  /-- `timeout_ms >= 0` -/
  timed : Bool
  phase : WaitPhase
  deriving DecidableEq, Repr

inductive Worker where
  | idle
  | owning (call : Nat)
  | exited
  deriving DecidableEq, Repr

structure State where
  /-- `gates_`: the atomic count of every gate that exists -/
  gates : String → Option Int
  /-- `gate->mu`: the waiter holding it; notifiers hold it within one step only -/
  mutex : String → Option Nat
  calls : List Call
  waiters : List Waiter
  /-- `tasks_` of the pool, front first -/
  tasks : List Nat
  workers : List Worker
  stop : Bool

inductive Label where
  | submitAsync (name : String)
  | poolSubmit (call : Nat)
  | leaveSubmit (call : Nat)
  | leaveSubmitAsync (call : Nat)
  | rollback (call : Nat)
  | rollbackNotify (call : Nat)
  | dequeue (worker : Nat)
  | finish (worker : Nat) (threw : Bool)
  | notify (worker : Nat)
  | release (worker : Nat)
  | exit (worker : Nat)
  | poolStop
  | waitQuiesce (name : String) (timed : Bool)
  | lookup (waiter : Nat)
  | lock (waiter : Nat)
  | check (waiter : Nat)
  | sleep (waiter : Nat)
  | timeout (waiter : Nat)
  | spurious (waiter : Nat)
  deriving DecidableEq, Repr

def State.count (s : State) (name : String) : Int := (s.gates name).getD 0

def State.addCount (s : State) (name : String) (d : Int) : State :=
  { s with gates := fun n => if n = name then some (s.count name + d) else s.gates n }

def State.setCall (s : State) (i : Nat) (c : Call) : State :=
  { s with calls := s.calls.set i c }

def State.setWaiter (s : State) (i : Nat) (w : Waiter) : State :=
  { s with waiters := s.waiters.set i w }

def State.setWorker (s : State) (i : Nat) (w : Worker) : State :=
  { s with workers := s.workers.set i w }

def State.setMutex (s : State) (name : String) (owner : Option Nat) : State :=
  { s with mutex := fun n => if n = name then owner else s.mutex n }

def wake (name : String) (w : Waiter) : Waiter :=
  if w.name = name ∧ w.phase = .asleep then { w with phase := .locking false } else w

/-- `gate->cv.notify_all()`, run under the gate mutex. -/
def State.notifyAll (s : State) (name : String) : State :=
  { s with waiters := s.waiters.map (wake name) }

/-- `HostServices::SubmitAsync` up to its `fetch_add`. -/
def submitAsync (s : State) (name : String) : State :=
  { s.addCount name 1 with calls := s.calls ++ [⟨name, .submitting⟩] }

/-- The critical section of `ThreadPool::Submit`. -/
def poolSubmit (maxQueue : Nat) (s : State) (i : Nat) : Option State :=
  match s.calls[i]? with
  | some ⟨name, .submitting⟩ =>
    if s.stop ∨ maxQueue ≤ s.tasks.length then
      some (s.setCall i ⟨name, .refused⟩)
    else
      some { s.setCall i ⟨name, .accepted .inSubmit .queued⟩ with tasks := s.tasks ++ [i] }
  | _ => none

/-- Leaving `Submit` after acceptance drops the caller's pointer to the task object; the
future is returned. -/
def leaveSubmit (s : State) (i : Nat) : Option State :=
  match s.calls[i]? with
  | some ⟨name, .accepted .inSubmit job⟩ =>
    some (s.setCall i ⟨name, .accepted .inSubmitAsync job⟩)
  | _ => none

/-- The return of `SubmitAsync` drops the future. -/
def leaveSubmitAsync (s : State) (i : Nat) : Option State :=
  match s.calls[i]? with
  | some ⟨name, .accepted .inSubmitAsync job⟩ => some (s.setCall i ⟨name, .accepted .returned job⟩)
  | _ => none

/-- The `fetch_sub` of the rejected branch. -/
def rollback (s : State) (i : Nat) : Option State :=
  match s.calls[i]? with
  | some ⟨name, .refused⟩ =>
    let prev := s.count name
    let phase := if prev = 1 then CallPhase.rollbackNotify else .rejected
    some ((s.addCount name (-1)).setCall i ⟨name, phase⟩)
  | _ => none

def rollbackNotify (s : State) (i : Nat) : Option State :=
  match s.calls[i]? with
  | some ⟨name, .rollbackNotify⟩ =>
    if s.mutex name = none then
      some ((s.notifyAll name).setCall i ⟨name, .rejected⟩)
    else none
  | _ => none

/-- The critical section of `WorkerLoop` that takes a task. -/
def dequeue (s : State) (w : Nat) : Option State :=
  match s.workers[w]?, s.tasks with
  | some .idle, i :: rest =>
    match s.calls[i]? with
    | some ⟨name, .accepted caller .queued⟩ =>
      some { (s.setCall i ⟨name, .accepted caller .running⟩).setWorker w (.owning i) with
        tasks := rest }
    | _ => none
  | _, _ => none

/-- The user function ends. By return the closure goes on to its `fetch_sub`; by
a throw the packaged task swallows the exception and the closure is left. -/
def finish (s : State) (w : Nat) (threw : Bool) : Option State :=
  match s.workers[w]? with
  | some (.owning i) =>
    match s.calls[i]? with
    | some ⟨name, .accepted caller .running⟩ =>
      if threw then
        some (s.setCall i ⟨name, .accepted caller (.ended true)⟩)
      else
        let prev := s.count name
        let job := if prev = 1 then JobPhase.notifying else .ended false
        some ((s.addCount name (-1)).setCall i ⟨name, .accepted caller job⟩)
    | _ => none
  | _ => none

def notify (s : State) (w : Nat) : Option State :=
  match s.workers[w]? with
  | some (.owning i) =>
    match s.calls[i]? with
    | some ⟨name, .accepted caller .notifying⟩ =>
      if s.mutex name = none then
        some ((s.notifyAll name).setCall i ⟨name, .accepted caller (.ended false)⟩)
      else none
    | _ => none
  | _ => none

/-- The end of the worker's loop body destroys its `job` function object. -/
def release (s : State) (w : Nat) : Option State :=
  match s.workers[w]? with
  | some (.owning i) =>
    match s.calls[i]? with
    | some ⟨name, .accepted caller (.ended threw)⟩ =>
      some ((s.setCall i ⟨name, .accepted caller (.released threw)⟩).setWorker w .idle)
    | _ => none
  | _ => none

def exit (s : State) (w : Nat) : Option State :=
  match s.workers[w]? with
  | some .idle => if s.stop ∧ s.tasks = [] then some (s.setWorker w .exited) else none
  | _ => none

/-- `WaitQuiesce` returns at once when the name has no gate. -/
def lookup (s : State) (i : Nat) : Option State :=
  match s.waiters[i]? with
  | some ⟨name, timed, .lookup⟩ =>
    match s.gates name with
    | none => some (s.setWaiter i ⟨name, timed, .returned true⟩)
    | some _ => some (s.setWaiter i ⟨name, timed, .locking false⟩)
  | _ => none

def lock (s : State) (i : Nat) : Option State :=
  match s.waiters[i]? with
  | some ⟨name, timed, .locking final⟩ =>
    if s.mutex name = none then
      some ((s.setWaiter i ⟨name, timed, .checking final⟩).setMutex name (some i))
    else none
  | _ => none

/-- The predicate of the wait, read under `gate->mu`. -/
def check (s : State) (i : Nat) : Option State :=
  match s.waiters[i]? with
  | some ⟨name, timed, .checking final⟩ =>
    if s.count name = 0 then
      some ((s.setWaiter i ⟨name, timed, .returned true⟩).setMutex name none)
    else if final then
      some ((s.setWaiter i ⟨name, timed, .returned false⟩).setMutex name none)
    else some (s.setWaiter i ⟨name, timed, .dozing⟩)
  | _ => none

def sleep (s : State) (i : Nat) : Option State :=
  match s.waiters[i]? with
  | some ⟨name, timed, .dozing⟩ =>
    some ((s.setWaiter i ⟨name, timed, .asleep⟩).setMutex name none)
  | _ => none

def timeout (s : State) (i : Nat) : Option State :=
  match s.waiters[i]? with
  | some ⟨name, true, .asleep⟩ => some (s.setWaiter i ⟨name, true, .locking true⟩)
  | _ => none

def spurious (s : State) (i : Nat) : Option State :=
  match s.waiters[i]? with
  | some ⟨name, timed, .asleep⟩ => some (s.setWaiter i ⟨name, timed, .locking false⟩)
  | _ => none

def step (maxQueue : Nat) (s : State) : Label → Option State
  | .submitAsync name => some (submitAsync s name)
  | .poolSubmit i => poolSubmit maxQueue s i
  | .leaveSubmit i => leaveSubmit s i
  | .leaveSubmitAsync i => leaveSubmitAsync s i
  | .rollback i => rollback s i
  | .rollbackNotify i => rollbackNotify s i
  | .dequeue w => dequeue s w
  | .finish w threw => finish s w threw
  | .notify w => notify s w
  | .release w => release s w
  | .exit w => exit s w
  | .poolStop => some { s with stop := true }
  | .waitQuiesce name timed => some { s with waiters := s.waiters ++ [⟨name, timed, .lookup⟩] }
  | .lookup i => lookup s i
  | .lock i => lock s i
  | .check i => check s i
  | .sleep i => sleep s i
  | .timeout i => timeout s i
  | .spurious i => spurious s i

/-- The pool constructor raises zero threads and a zero queue to one. -/
def machine (threadCount maxQueue : Nat) : Machine State Label where
  start :=
    { gates := fun _ => none
      mutex := fun _ => none
      calls := []
      waiters := []
      tasks := []
      workers := List.replicate (max 1 threadCount) .idle
      stop := false }
  step := step (max 1 maxQueue)

/-! What one step can do: every invariant below is derived from `step_effect`. -/

/-- Moves of a call that leave the gate alone. -/
inductive CallMove : CallPhase → CallPhase → Prop where
  | accept : CallMove .submitting (.accepted .inSubmit .queued)
  | refuse : CallMove .submitting .refused
  | leave (c d : Caller) (job : JobPhase) : CallMove (.accepted c job) (.accepted d job)
  | start (c : Caller) : CallMove (.accepted c .queued) (.accepted c .running)
  | throws (c : Caller) : CallMove (.accepted c .running) (.accepted c (.ended true))
  | release (c : Caller) (threw : Bool) :
      CallMove (.accepted c (.ended threw)) (.accepted c (.released threw))

/-- A worker is inside this closure or still owns its function object. -/
def busy : CallPhase → Bool
  | .accepted _ .running => true
  | .accepted _ .notifying => true
  | .accepted _ (.ended _) => true
  | _ => false

/-- Every other call keeps its worker, and a busy call has one or keeps the one it had. -/
def KeepsOwners (s : State) (i : Nat) (p q : CallPhase) (workers : List Worker) : Prop :=
  (∀ k, k ≠ i → .owning k ∈ s.workers → .owning k ∈ workers) ∧
  (busy q = true → .owning i ∈ workers ∨ busy p = true ∧ workers = s.workers)

/-- Moves of a call that lower its gate; `last` says that the count was one. -/
inductive Lowering (last : Prop) [Decidable last] : CallPhase → CallPhase → Prop where
  | rollback : Lowering last .refused (if last then .rollbackNotify else .rejected)
  | finish (c : Caller) :
      Lowering last (.accepted c .running) (.accepted c (if last then .notifying else .ended false))

/-- Moves of a call that notify the waiters of its gate. -/
inductive Notifying : CallPhase → CallPhase → Prop where
  | rollback : Notifying .rollbackNotify .rejected
  | finish (c : Caller) : Notifying (.accepted c .notifying) (.accepted c (.ended false))

/-- Moves of waiter `i` on `name`, with the holder of the gate mutex afterwards. -/
inductive WaitMove (s : State) (i : Nat) (name : String) (timed : Bool) :
    WaitPhase → WaitPhase → Option Nat → Prop where
  | noGate : s.gates name = none → WaitMove s i name timed .lookup (.returned true) (s.mutex name)
  | foundGate : WaitMove s i name timed .lookup (.locking false) (s.mutex name)
  | acquire (final : Bool) : s.mutex name = none →
      WaitMove s i name timed (.locking final) (.checking final) (some i)
  | drained (final : Bool) : s.count name = 0 →
      WaitMove s i name timed (.checking final) (.returned true) none
  | expired : s.count name ≠ 0 → WaitMove s i name timed (.checking true) (.returned false) none
  | doze : s.count name ≠ 0 →
      WaitMove s i name timed (.checking false) .dozing (s.mutex name)
  | block : WaitMove s i name timed .dozing .asleep none
  | timeout : timed = true → WaitMove s i name timed .asleep (.locking true) (s.mutex name)
  | spurious : WaitMove s i name timed .asleep (.locking false) (s.mutex name)

/-- The first index is the plugin name of a new `SubmitAsync` call. -/
inductive Effect (s : State) : Option String → State → Prop where
  | submit (name : String) : Effect s (some name) (submitAsync s name)
  | move (i : Nat) (name : String) (p q : CallPhase) (tasks : List Nat) (workers : List Worker) :
      s.calls[i]? = some ⟨name, p⟩ → CallMove p q → KeepsOwners s i p q workers →
      Effect s none { s.setCall i ⟨name, q⟩ with tasks := tasks, workers := workers }
  | lower (i : Nat) (name : String) (p q : CallPhase) :
      s.calls[i]? = some ⟨name, p⟩ → Lowering (s.count name = 1) p q →
      Effect s none ((s.addCount name (-1)).setCall i ⟨name, q⟩)
  | notify (i : Nat) (name : String) (p q : CallPhase) :
      s.calls[i]? = some ⟨name, p⟩ → Notifying p q → s.mutex name = none →
      Effect s none ((s.notifyAll name).setCall i ⟨name, q⟩)
  | pool (workers : List Worker) (stop : Bool) :
      (∀ k, .owning k ∈ s.workers → .owning k ∈ workers) →
      Effect s none { s with workers := workers, stop := stop }
  | await (name : String) (timed : Bool) :
      Effect s none { s with waiters := s.waiters ++ [⟨name, timed, .lookup⟩] }
  | wait (i : Nat) (name : String) (timed : Bool) (p q : WaitPhase) (owner : Option Nat) :
      s.waiters[i]? = some ⟨name, timed, p⟩ → WaitMove s i name timed p q owner →
      Effect s none ((s.setWaiter i ⟨name, timed, q⟩).setMutex name owner)

theorem setMutex_self (s : State) (name : String) : s.setMutex name (s.mutex name) = s := by
  have h : (fun n => if n = name then s.mutex name else s.mutex n) = s.mutex := by
    funext n
    by_cases hn : n = name
    · simp [hn]
    · simp [hn]
  simp only [State.setMutex, h]

theorem wait_unlocked {s : State} {i : Nat} {name : String} {timed : Bool} {p q : WaitPhase}
    (held : s.waiters[i]? = some ⟨name, timed, p⟩)
    (move : WaitMove s i name timed p q (s.mutex name)) :
    Effect s none (s.setWaiter i ⟨name, timed, q⟩) := by
  have h := Effect.wait i name timed p q (s.mutex name) held move
  rwa [show (s.setWaiter i ⟨name, timed, q⟩).setMutex name (s.mutex name) =
    s.setWaiter i ⟨name, timed, q⟩ from setMutex_self _ name] at h

theorem keepsOwners_same {s : State} {i : Nat} {p q : CallPhase}
    (h : busy q = true → busy p = true) : KeepsOwners s i p q s.workers :=
  ⟨fun _ _ hk => hk, fun hq => Or.inr ⟨h hq, rfl⟩⟩

/-- Reassigning a worker that owns at most call `i` takes no other call its worker. -/
theorem owning_set {s : State} {w i k : Nat} {old new : Worker} (held : s.workers[w]? = some old)
    (only : old = .owning k → k = i) (hk : k ≠ i) (h : .owning k ∈ s.workers) :
    .owning k ∈ s.workers.set w new := by
  obtain ⟨v, hv⟩ := List.mem_iff_getElem?.mp h
  have hne : w ≠ v := by
    intro e
    subst e
    exact hk (only (Option.some.inj (held.symm.trans hv)))
  exact List.mem_iff_getElem?.mpr ⟨v, by rw [List.getElem?_set_ne hne, hv]⟩

theorem set_owning {s : State} {w i : Nat} {old : Worker} (held : s.workers[w]? = some old) :
    .owning i ∈ s.workers.set w (.owning i) := by
  obtain ⟨hw, -⟩ := List.getElem?_eq_some_iff.mp held
  exact List.mem_iff_getElem?.mpr ⟨w, List.getElem?_set_self hw⟩

theorem poolSubmit_effect {m : Nat} {s t : State} {i : Nat} (h : poolSubmit m s i = some t) :
    Effect s none t := by
  rw [poolSubmit] at h
  split at h
  · rename_i name held
    split at h
    · cases h
      exact .move i name _ _ s.tasks s.workers held .refuse (keepsOwners_same (by simp [busy]))
    · cases h
      exact .move i name _ _ _ s.workers held .accept (keepsOwners_same (by simp [busy]))
  · cases h

theorem leave_effect {s : State} {i : Nat} {name : String} {job : JobPhase} {c : Caller}
    (held : s.calls[i]? = some ⟨name, .accepted c job⟩) (d : Caller) :
    Effect s none (s.setCall i ⟨name, .accepted d job⟩) :=
  .move i name _ _ s.tasks s.workers held (.leave c d job)
    (keepsOwners_same fun h => by cases job <;> exact h)

theorem leaveSubmit_effect {s t : State} {i : Nat} (h : leaveSubmit s i = some t) :
    Effect s none t := by
  rw [leaveSubmit] at h
  split at h
  · rename_i held
    cases h
    exact leave_effect held .inSubmitAsync
  · cases h

theorem leaveSubmitAsync_effect {s t : State} {i : Nat} (h : leaveSubmitAsync s i = some t) :
    Effect s none t := by
  rw [leaveSubmitAsync] at h
  split at h
  · rename_i held
    cases h
    exact leave_effect held .returned
  · cases h

theorem rollback_effect {s t : State} {i : Nat} (h : rollback s i = some t) : Effect s none t := by
  rw [rollback] at h
  split at h
  · rename_i name held
    cases h
    exact .lower i name _ _ held .rollback
  · cases h

theorem rollbackNotify_effect {s t : State} {i : Nat} (h : rollbackNotify s i = some t) :
    Effect s none t := by
  rw [rollbackNotify] at h
  split at h
  · rename_i name held
    split at h
    · rename_i free
      cases h
      exact .notify i name _ _ held .rollback free
    · cases h
  · cases h

theorem dequeue_effect {s t : State} {w : Nat} (h : dequeue s w = some t) : Effect s none t := by
  rw [dequeue] at h
  split at h
  · rename_i i rest idle _
    split at h
    · rename_i name caller held
      cases h
      refine .move i name _ _ rest _ held (.start caller) ⟨?_, fun _ => Or.inl (set_owning idle)⟩
      intro k hk hmem
      exact owning_set idle (by simp) hk hmem
    · cases h
  · cases h

theorem finish_effect {s t : State} {w : Nat} {b : Bool} (h : finish s w b = some t) :
    Effect s none t := by
  rw [finish] at h
  split at h
  · split at h
    · rename_i i _ _ name caller held
      split at h
      · cases h
        exact .move i name _ _ s.tasks s.workers held (.throws caller)
          (keepsOwners_same fun _ => rfl)
      · cases h
        exact .lower i name _ _ held (.finish caller)
    · cases h
  · cases h

theorem notify_effect {s t : State} {w : Nat} (h : notify s w = some t) : Effect s none t := by
  rw [notify] at h
  split at h
  · split at h
    · rename_i i _ _ name caller held
      split at h
      · rename_i free
        cases h
        exact .notify i name _ _ held (.finish caller) free
      · cases h
    · cases h
  · cases h

theorem release_effect {s t : State} {w : Nat} (h : release s w = some t) : Effect s none t := by
  rw [release] at h
  split at h
  · rename_i i owner
    split at h
    · rename_i name caller threw held
      cases h
      refine .move i name _ _ s.tasks _ held (.release caller threw) ⟨?_, by simp [busy]⟩
      intro k hk hmem
      exact owning_set owner (fun e => Worker.owning.inj e.symm) hk hmem
    · cases h
  · cases h

theorem exit_effect {s t : State} {w : Nat} (h : exit s w = some t) : Effect s none t := by
  rw [exit] at h
  split at h
  · rename_i idle
    split at h
    · cases h
      refine .pool _ s.stop fun k hk => ?_
      exact owning_set (i := k + 1) idle (by simp) (by omega) hk
    · cases h
  · cases h

theorem lookup_effect {s t : State} {i : Nat} (h : lookup s i = some t) : Effect s none t := by
  rw [lookup] at h
  split at h
  · rename_i name timed held
    split at h
    · rename_i absent
      cases h
      exact wait_unlocked held (.noGate absent)
    · cases h
      exact wait_unlocked held .foundGate
  · cases h

theorem lock_effect {s t : State} {i : Nat} (h : lock s i = some t) : Effect s none t := by
  rw [lock] at h
  split at h
  · rename_i name timed final held
    split at h
    · rename_i free
      cases h
      exact .wait i name timed _ _ _ held (.acquire final free)
    · cases h
  · cases h

theorem check_effect {s t : State} {i : Nat} (h : check s i = some t) : Effect s none t := by
  rw [check] at h
  split at h
  · rename_i name timed final held
    split at h
    · rename_i zero
      cases h
      exact .wait i name timed _ _ _ held (.drained final zero)
    · rename_i above
      cases final with
      | true =>
        cases h
        exact .wait i name timed _ _ _ held (.expired above)
      | false =>
        cases h
        exact wait_unlocked held (.doze above)
  · cases h

theorem sleep_effect {s t : State} {i : Nat} (h : sleep s i = some t) : Effect s none t := by
  rw [sleep] at h
  split at h
  · rename_i name timed held
    cases h
    exact .wait i name timed _ _ _ held .block
  · cases h

theorem timeout_effect {s t : State} {i : Nat} (h : timeout s i = some t) : Effect s none t := by
  rw [timeout] at h
  split at h
  · rename_i name held
    cases h
    exact wait_unlocked held (.timeout rfl)
  · cases h

theorem spurious_effect {s t : State} {i : Nat} (h : spurious s i = some t) : Effect s none t := by
  rw [spurious] at h
  split at h
  · rename_i name timed held
    cases h
    exact wait_unlocked held .spurious
  · cases h

def Label.submits : Label → Option String
  | .submitAsync name => some name
  | _ => none

theorem step_effect {m : Nat} {s t : State} {l : Label} (h : step m s l = some t) :
    Effect s l.submits t := by
  cases l with
  | submitAsync name => exact Option.some.inj h ▸ .submit name
  | poolSubmit i => exact poolSubmit_effect h
  | leaveSubmit i => exact leaveSubmit_effect h
  | leaveSubmitAsync i => exact leaveSubmitAsync_effect h
  | rollback i => exact rollback_effect h
  | rollbackNotify i => exact rollbackNotify_effect h
  | dequeue w => exact dequeue_effect h
  | finish w threw => exact finish_effect h
  | notify w => exact notify_effect h
  | release w => exact release_effect h
  | exit w => exact exit_effect h
  | poolStop => exact Option.some.inj h ▸ .pool s.workers true (fun _ hk => hk)
  | waitQuiesce name timed => exact Option.some.inj h ▸ .await name timed
  | lookup i => exact lookup_effect h
  | lock i => exact lock_effect h
  | check i => exact check_effect h
  | sleep i => exact sleep_effect h
  | timeout i => exact timeout_effect h
  | spurious i => exact spurious_effect h

end HostServices
