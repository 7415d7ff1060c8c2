import AxVision.TransitionRuns
import AxVision.ReplacedEntries

/-!
# The worker pool

`Submit`, `Shutdown` and the worker loop of `ThreadPool`, each critical section
and each call into the condition variable one step. A task is known by the
number of the `Submit` call it came with; a waiting worker may wake for no
reason. The pool starts with its workers created.
-/

namespace ThreadPools

open TransitionRuns ReplacedEntries

inductive Worker where
  /-- about to take the lock and test the condition -/
  | entering
  /-- asleep in `cv_.wait` -/
  | waiting
  | running (task : Nat)
  | exited
  deriving DecidableEq, Repr

/-- `returned true` stands for a future, `returned false` for `nullopt`. -/
inductive Submit where
  | pushing
  | notifying
  | returned (accepted : Bool)
  deriving DecidableEq, Repr

/-- `returned true`: this call set `stop_`. -/
inductive Shutdown where
  | locking
  | notifying
  | joining (i : Nat)
  | returned (performed : Bool)
  deriving DecidableEq, Repr

structure State where
  stop : Bool := false
  tasks : List Nat := []
  workers : List Worker
  submits : List Submit := []
  shutdowns : List Shutdown := []
  /-- the tasks put into the queue, in order -/
  accepted : List Nat := []
  /-- the tasks taken from the queue, in order -/
  dequeued : List Nat := []
  /-- the tasks whose run has ended -/
  executed : List Nat := []
  deriving DecidableEq, Repr

inductive Label where
  | submit
  | push (j : Nat)
  /-- `notify_one`: a waiting worker, or none if none waits -/
  | notifyOne (j : Nat) (woken : Option Nat)
  | shutdown
  | lockStop (k : Nat)
  | notifyAll (k : Nat)
  | join (k : Nat)
  | enter (i : Nat)
  | finish (i : Nat)
  /-- a spurious wakeup -/
  | wake (i : Nat)
  deriving DecidableEq, Repr

def State.setWorker (s : State) (i : Nat) (worker : Worker) : State :=
  { s with workers := s.workers.set i worker }

def State.setSubmit (s : State) (j : Nat) (submit : Submit) : State :=
  { s with submits := s.submits.set j submit }

def State.setShutdown (s : State) (k : Nat) (shutdown : Shutdown) : State :=
  { s with shutdowns := s.shutdowns.set k shutdown }

def Worker.notified : Worker → Worker
  | .waiting => .entering
  | worker => worker

def Worker.task : Worker → Option Nat
  | .running task => some task
  | _ => none

/-- The critical section of `Submit`. -/
def State.push (s : State) (maxQueue : Nat) (j : Nat) : State :=
  if s.stop = true ∨ maxQueue ≤ s.tasks.length then s.setSubmit j (.returned false)
  else
    { s.setSubmit j .notifying with
      tasks := s.tasks ++ [j]
      accepted := s.accepted ++ [j] }

/-- The critical section of `WorkerLoop`: wait, leave or take a task. -/
def State.enter (s : State) (i : Nat) : State :=
  match s.tasks with
  | [] => s.setWorker i (if s.stop then .exited else .waiting)
  | task :: rest =>
    { s.setWorker i (.running task) with
      tasks := rest
      dequeued := s.dequeued ++ [task] }

def step (maxQueue : Nat) (s : State) : Label → Option State
  | .submit => some { s with submits := s.submits ++ [.pushing] }
  | .push j => if s.submits[j]? = some .pushing then some (s.push maxQueue j) else none
  | .notifyOne j woken =>
    if s.submits[j]? = some .notifying then
      match woken with
      | some i =>
        if s.workers[i]? = some .waiting then
          some ((s.setSubmit j (.returned true)).setWorker i .entering)
        else none
      | none =>
        if .waiting ∈ s.workers then none else some (s.setSubmit j (.returned true))
    else none
  | .shutdown => some { s with shutdowns := s.shutdowns ++ [.locking] }
  | .lockStop k =>
    if s.shutdowns[k]? = some .locking then
      if s.stop then some (s.setShutdown k (.returned false))
      else some { s.setShutdown k .notifying with stop := true }
    else none
  | .notifyAll k =>
    if s.shutdowns[k]? = some .notifying then
      some { s.setShutdown k (.joining 0) with workers := s.workers.map Worker.notified }
    else none
  | .join k =>
    match s.shutdowns[k]? with
    | some (.joining i) =>
      match s.workers[i]? with
      | some worker =>
        if worker = .exited then some (s.setShutdown k (.joining (i + 1))) else none
      | none => some (s.setShutdown k (.returned true))
    | _ => none
  | .enter i => if s.workers[i]? = some .entering then some (s.enter i) else none
  | .finish i =>
    match s.workers[i]? with
    | some (.running task) =>
      some { s.setWorker i .entering with executed := s.executed ++ [task] }
    | _ => none
  | .wake i => if s.workers[i]? = some .waiting then some (s.setWorker i .entering) else none

/-- The bounds the constructor takes for its arguments. -/
def atLeastOne (n : Nat) : Nat := if n = 0 then 1 else n

def threadPool (threadCount maxQueue : Nat) : Machine State Label where
  start := { workers := List.replicate (atLeastOne threadCount) .entering }
  step := step (atLeastOne maxQueue)

/-- What one step does to the shared data, call by call. -/
inductive Move (maxQueue : Nat) (s : State) : Label → State → Prop where
  | submit : Move maxQueue s .submit { s with submits := s.submits ++ [.pushing] }
  | refused {j : Nat} (here : s.submits[j]? = some .pushing)
      (closed : s.stop = true ∨ maxQueue ≤ s.tasks.length) :
      Move maxQueue s (.push j) (s.setSubmit j (.returned false))
  | accepted {j : Nat} (here : s.submits[j]? = some .pushing) (running : s.stop = false)
      (room : s.tasks.length < maxQueue) :
      Move maxQueue s (.push j)
        { s.setSubmit j .notifying with
          tasks := s.tasks ++ [j]
          accepted := s.accepted ++ [j] }
  | woken {j i : Nat} (here : s.submits[j]? = some .notifying)
      (asleep : s.workers[i]? = some .waiting) :
      Move maxQueue s (.notifyOne j (some i))
        ((s.setSubmit j (.returned true)).setWorker i .entering)
  | unheard {j : Nat} (here : s.submits[j]? = some .notifying) (awake : .waiting ∉ s.workers) :
      Move maxQueue s (.notifyOne j none) (s.setSubmit j (.returned true))
  | shutdown : Move maxQueue s .shutdown { s with shutdowns := s.shutdowns ++ [.locking] }
  | again {k : Nat} (here : s.shutdowns[k]? = some .locking) (stopped : s.stop = true) :
      Move maxQueue s (.lockStop k) (s.setShutdown k (.returned false))
  | stops {k : Nat} (here : s.shutdowns[k]? = some .locking) (running : s.stop = false) :
      Move maxQueue s (.lockStop k) { s.setShutdown k .notifying with stop := true }
  | notifyAll {k : Nat} (here : s.shutdowns[k]? = some .notifying) :
      Move maxQueue s (.notifyAll k)
        { s.setShutdown k (.joining 0) with workers := s.workers.map Worker.notified }
  | joined {k i : Nat} (here : s.shutdowns[k]? = some (.joining i))
      (exited : s.workers[i]? = some .exited) :
      Move maxQueue s (.join k) (s.setShutdown k (.joining (i + 1)))
  | cleared {k i : Nat} (here : s.shutdowns[k]? = some (.joining i))
      (beyond : s.workers[i]? = none) : Move maxQueue s (.join k) (s.setShutdown k (.returned true))
  | sleeps {i : Nat} (here : s.workers[i]? = some .entering) (empty : s.tasks = [])
      (running : s.stop = false) : Move maxQueue s (.enter i) (s.setWorker i .waiting)
  | exits {i : Nat} (here : s.workers[i]? = some .entering) (empty : s.tasks = [])
      (stopped : s.stop = true) : Move maxQueue s (.enter i) (s.setWorker i .exited)
  | takes {i task : Nat} {rest : List Nat} (here : s.workers[i]? = some .entering)
      (front : s.tasks = task :: rest) :
      Move maxQueue s (.enter i)
        { s.setWorker i (.running task) with
          tasks := rest
          dequeued := s.dequeued ++ [task] }
  | finishes {i task : Nat} (here : s.workers[i]? = some (.running task)) :
      Move maxQueue s (.finish i)
        { s.setWorker i .entering with executed := s.executed ++ [task] }
  | wakes {i : Nat} (here : s.workers[i]? = some .waiting) :
      Move maxQueue s (.wake i) (s.setWorker i .entering)

theorem step_move {maxQueue : Nat} {s t : State} {l : Label} (h : step maxQueue s l = some t) :
    Move maxQueue s l t := by
  cases l with
  | submit =>
    cases h
    exact .submit
  | push j =>
    simp only [step] at h
    split at h
    · rename_i here
      cases h
      simp only [State.push]
      split
      · exact .refused here ‹_›
      · rename_i isOpen
        obtain ⟨running, room⟩ := not_or.mp isOpen
        exact .accepted here (Bool.eq_false_iff.mpr running) (Nat.lt_of_not_le room)
    · cases h
  | notifyOne j woken =>
    simp only [step] at h
    split at h
    · rename_i here
      cases woken with
      | some i =>
        simp only [] at h
        split at h
        · cases h
          exact .woken here ‹_›
        · cases h
      | none =>
        simp only [] at h
        split at h
        · cases h
        · cases h
          exact .unheard here ‹_›
    · cases h
  | shutdown =>
    cases h
    exact .shutdown
  | lockStop k =>
    simp only [step] at h
    split at h
    · rename_i here
      split at h
      · cases h
        exact .again here ‹_›
      · cases h
        exact .stops here (Bool.eq_false_iff.mpr ‹_›)
    · cases h
  | notifyAll k =>
    simp only [step] at h
    split at h
    · cases h
      exact .notifyAll ‹_›
    · cases h
  | join k =>
    simp only [step] at h
    split at h
    · rename_i i here
      split at h
      · rename_i worker hworker
        split at h
        · rename_i exited
          cases h
          exact .joined here (exited ▸ hworker)
        · cases h
      · cases h
        exact .cleared here ‹_›
    · cases h
  | enter i =>
    simp only [step] at h
    split at h
    · rename_i here
      cases h
      simp only [State.enter]
      split
      · rename_i empty
        cases stop : s.stop with
        | true => exact .exits here empty stop
        | false => exact .sleeps here empty stop
      · exact .takes here ‹_›
    · cases h
  | finish i =>
    simp only [step] at h
    split at h
    · cases h
      exact .finishes ‹_›
    · cases h
  | wake i =>
    simp only [step] at h
    split at h
    · cases h
      exact .wakes ‹_›
    · cases h

theorem pool_move {threadCount maxQueue : Nat} {s t : State} {l : Label}
    (h : (threadPool threadCount maxQueue).step s l = some t) :
    Move (atLeastOne maxQueue) s l t := step_move h

/-- The task of this call has been put into the queue. -/
def Submit.queued : Submit → Bool
  | .notifying => true
  | .returned accepted => accepted
  | .pushing => false

def Queued (submits : List Submit) (j : Nat) : Prop :=
  ∃ submit, submits[j]? = some submit ∧ submit.queued = true

theorem queued_replaced {submits : List Submit} {j k : Nat} {old new : Submit}
    (here : submits[j]? = some old) (same : new.queued = old.queued) :
    Queued (submits.set j new) k ↔ Queued submits k := by
  constructor
  · rintro ⟨submit, h, queued⟩
    rcases replaced_cases here h with ⟨rfl, rfl⟩ | ⟨-, before⟩
    · exact ⟨old, here, same ▸ queued⟩
    · exact ⟨submit, before, queued⟩
  · rintro ⟨submit, h, queued⟩
    by_cases other : j = k
    · subst other
      have mine : submit = old := Option.some.inj (h.symm.trans here)
      exact ⟨new, replaced_self here, same.trans (mine ▸ queued)⟩
    · exact ⟨submit, (List.getElem?_set_ne other).trans h, queued⟩

def State.running (s : State) : List Nat := s.workers.filterMap Worker.task

theorem running_replaced {workers : List Worker} {i : Nat} {old : Worker} (new : Worker)
    (here : workers[i]? = some old) :
    (old.task.toList ++ (workers.set i new).filterMap Worker.task).Perm
      (new.task.toList ++ workers.filterMap Worker.task) := by
  have same := (replaced_perm new here).filterMap Worker.task
  cases ho : old.task <;> cases hn : new.task <;> simpa [List.filterMap_cons, ho, hn] using same

theorem running_idle {workers : List Worker} {i : Nat} {old new : Worker}
    (here : workers[i]? = some old) (before : old.task = none) (after : new.task = none) :
    ((workers.set i new).filterMap Worker.task).Perm (workers.filterMap Worker.task) := by
  have same := running_replaced new here
  simpa only [before, after, Option.toList_none, List.nil_append] using same

theorem running_notified (workers : List Worker) :
    (workers.map Worker.notified).filterMap Worker.task = workers.filterMap Worker.task := by
  rw [List.filterMap_map]
  refine List.filterMap_congr ?_
  intro worker _
  cases worker <;> rfl

/-- Where the accepted tasks are: queued in order, with one worker each, or done. -/
structure Placed (maxQueue : Nat) (s : State) : Prop where
  order : s.dequeued ++ s.tasks = s.accepted
  once : s.accepted.Nodup
  kept : ∀ j, j ∈ s.accepted ↔ Queued s.submits j
  held : (s.executed ++ s.running).Perm s.dequeued
  bounded : s.tasks.length ≤ maxQueue

theorem start_placed (threadCount maxQueue : Nat) :
    Placed (atLeastOne maxQueue) (threadPool threadCount maxQueue).start where
  order := rfl
  once := List.nodup_nil
  kept j := by
    constructor
    · intro h
      cases h
    · rintro ⟨submit, h, -⟩
      cases h
  held := by
    have idle : ∀ n, (List.replicate n Worker.entering).filterMap Worker.task = [] := by
      intro n
      exact List.filterMap_eq_nil_iff.mpr fun worker h => (List.eq_of_mem_replicate h) ▸ rfl
    have none : (threadPool threadCount maxQueue).start.running = [] := idle _
    rw [none]
    exact .refl _
  bounded := Nat.zero_le _

/-- A call of `Submit` moves on after its critical section, or refuses. -/
theorem Placed.answered {maxQueue : Nat} {s : State} (inv : Placed maxQueue s) {j : Nat}
    {old new : Submit} (here : s.submits[j]? = some old) (same : new.queued = old.queued) :
    Placed maxQueue (s.setSubmit j new) where
  order := inv.order
  once := inv.once
  kept k := (inv.kept k).trans (queued_replaced here same).symm
  held := inv.held
  bounded := inv.bounded

/-- A worker that has no task changes its place. -/
theorem Placed.idle {maxQueue : Nat} {s : State} (inv : Placed maxQueue s) {i : Nat}
    {old new : Worker} (here : s.workers[i]? = some old) (before : old.task = none)
    (after : new.task = none) : Placed maxQueue (s.setWorker i new) where
  order := inv.order
  once := inv.once
  kept := inv.kept
  held := ((running_idle here before after).append_left s.executed).trans inv.held
  bounded := inv.bounded

theorem Placed.not_accepted {maxQueue : Nat} {s : State} (inv : Placed maxQueue s) {j : Nat}
    (here : s.submits[j]? = some .pushing) : j ∉ s.accepted := by
  intro h
  obtain ⟨submit, found, queued⟩ := (inv.kept j).mp h
  rw [here] at found
  cases found
  cases queued

theorem move_placed {maxQueue : Nat} {s t : State} {l : Label} (inv : Placed maxQueue s)
    (move : Move maxQueue s l t) : Placed maxQueue t := by
  cases move with
  | submit =>
    refine ⟨inv.order, inv.once, fun j => (inv.kept j).trans ?_, inv.held, inv.bounded⟩
    constructor
    · rintro ⟨submit, h, queued⟩
      exact ⟨submit, appended_old h, queued⟩
    · rintro ⟨submit, h, queued⟩
      have appended : (s.submits ++ [Submit.pushing])[j]? = some submit := h
      rcases appended_cases appended with old | ⟨-, rfl⟩
      · exact ⟨submit, old, queued⟩
      · cases queued
  | refused here closed => exact inv.answered here rfl
  | @accepted j here running room =>
    have fresh := inv.not_accepted here
    constructor
    · simp only [State.setSubmit, ← List.append_assoc, inv.order]
    · exact List.nodup_append.mpr ⟨inv.once, by simp, fun k hk l hl same => by
        cases List.mem_singleton.mp hl
        exact fresh (same ▸ hk)⟩
    · intro k
      have member : k ∈ s.accepted ++ [j] ↔ k ∈ s.accepted ∨ k = j := by simp
      refine member.trans ?_
      constructor
      · rintro (old | rfl)
        · have other : j ≠ k := by
            rintro rfl
            exact fresh old
          obtain ⟨submit, h, queued⟩ := (inv.kept k).mp old
          exact ⟨submit, (List.getElem?_set_ne other).trans h, queued⟩
        · exact ⟨.notifying, replaced_self here, rfl⟩
      · rintro ⟨submit, h, queued⟩
        rcases replaced_cases here h with ⟨rfl, -⟩ | ⟨-, before⟩
        · exact Or.inr rfl
        · exact Or.inl ((inv.kept k).mpr ⟨submit, before, queued⟩)
    · exact inv.held
    · simp only [List.length_append, List.length_singleton]
      omega
  | @woken j i here asleep =>
    have told : Placed maxQueue (s.setSubmit j (.returned true)) := inv.answered here rfl
    exact told.idle asleep rfl rfl
  | unheard here awake => exact inv.answered here rfl
  | notifyAll here =>
    refine ⟨inv.order, inv.once, inv.kept, ?_, inv.bounded⟩
    have same : State.running { s with workers := s.workers.map Worker.notified } = s.running :=
      running_notified s.workers
    exact same ▸ inv.held
  | sleeps here empty running => exact inv.idle here rfl rfl
  | exits here empty stopped => exact inv.idle here rfl rfl
  | wakes here => exact inv.idle here rfl rfl
  | @takes i task rest here front =>
    have taken := running_replaced (.running task) here
    constructor
    · have order := inv.order
      rw [front] at order
      simpa [State.setWorker] using order
    · exact inv.once
    · exact inv.kept
    · have more : (s.executed ++ (s.workers.set i (.running task)).filterMap Worker.task).Perm
          (s.executed ++ (task :: s.running)) := taken.append_left s.executed
      have last : (s.executed ++ (task :: s.running)).Perm ((s.executed ++ s.running) ++ [task]) :=
        List.perm_middle.trans (List.perm_append_singleton task _).symm
      exact (more.trans last).trans (inv.held.append_right [task])
    · have bounded := inv.bounded
      rw [front, List.length_cons] at bounded
      exact Nat.le_of_succ_le bounded
  | @finishes i task here =>
    have done := running_replaced .entering here
    refine ⟨inv.order, inv.once, inv.kept, ?_, inv.bounded⟩
    have back : (s.executed ++ (task :: (s.workers.set i .entering).filterMap Worker.task)).Perm
        (s.executed ++ s.running) := done.append_left s.executed
    simpa [State.running, State.setWorker] using back.trans inv.held
  | shutdown => exact ⟨inv.order, inv.once, inv.kept, inv.held, inv.bounded⟩
  | again here stopped => exact ⟨inv.order, inv.once, inv.kept, inv.held, inv.bounded⟩
  | stops here running => exact ⟨inv.order, inv.once, inv.kept, inv.held, inv.bounded⟩
  | joined here exited => exact ⟨inv.order, inv.once, inv.kept, inv.held, inv.bounded⟩
  | cleared here beyond => exact ⟨inv.order, inv.once, inv.kept, inv.held, inv.bounded⟩

/-- `stop_` stays set, no worker comes or goes, and one that has left is gone. -/
structure Keeps (s t : State) : Prop where
  stop : s.stop = true → t.stop = true
  size : t.workers.length = s.workers.length
  gone : ∀ i : Nat, s.workers[i]? = some .exited → t.workers[i]? = some .exited

theorem keeps_setWorker {s : State} {i : Nat} {old new : Worker} (here : s.workers[i]? = some old)
    (alive : .exited ≠ old) : Keeps s (s.setWorker i new) where
  stop := id
  size := List.length_set
  gone _ gone := replaced_other here gone alive

theorem move_keeps {maxQueue : Nat} {s t : State} {l : Label} (move : Move maxQueue s l t) :
    Keeps s t := by
  cases move with
  | stops here running => exact ⟨fun _ => rfl, rfl, fun _ => id⟩
  | @woken j i here asleep =>
    have kept : Keeps s (s.setWorker i .entering) := keeps_setWorker asleep (by simp)
    exact ⟨kept.stop, kept.size, kept.gone⟩
  | notifyAll here =>
    refine ⟨id, List.length_map _, fun i gone => ?_⟩
    simp only [List.getElem?_map, gone, Option.map_some]
    rfl
  | sleeps here empty running => exact keeps_setWorker here (by simp)
  | exits here empty stopped => exact keeps_setWorker here (by simp)
  | @takes i task rest here front =>
    have kept : Keeps s (s.setWorker i (.running task)) := keeps_setWorker here (by simp)
    exact ⟨kept.stop, kept.size, kept.gone⟩
  | @finishes i task here =>
    have kept : Keeps s (s.setWorker i .entering) := keeps_setWorker here (by simp)
    exact ⟨kept.stop, kept.size, kept.gone⟩
  | wakes here => exact keeps_setWorker here (by simp)
  | _ => exact ⟨id, rfl, fun _ => id⟩

/-- What a `Shutdown` that set `stop_` knows at each of its stages. -/
def Shutdown.Holds (s : State) : Shutdown → Prop
  | .locking => True
  | .notifying => s.stop = true
  | .joining i => s.stop = true ∧ ∀ i' : Nat, i' < i → s.workers[i']? = some .exited
  | .returned performed => performed = true →
    s.stop = true ∧ ∀ i : Nat, i < s.workers.length → s.workers[i]? = some .exited

theorem Shutdown.Holds.kept {s t : State} {stage : Shutdown} (h : stage.Holds s)
    (kept : Keeps s t) : stage.Holds t := by
  cases stage with
  | locking => trivial
  | notifying => exact kept.stop h
  | joining i => exact ⟨kept.stop h.1, fun i' lt => kept.gone i' (h.2 i' lt)⟩
  | returned performed =>
    intro performed
    obtain ⟨stopped, gone⟩ := h performed
    exact ⟨kept.stop stopped, fun i lt => kept.gone i (gone i (kept.size ▸ lt))⟩

/-- A worker leaves a stopped pool with an empty queue, and a `Shutdown` that
set `stop_` counts off the workers that have left. -/
structure Halting (s : State) : Prop where
  size : 0 < s.workers.length
  exited : .exited ∈ s.workers → s.stop = true ∧ s.tasks = []
  stages : ∀ stage ∈ s.shutdowns, stage.Holds s

theorem start_halting (threadCount maxQueue : Nat) :
    Halting (threadPool threadCount maxQueue).start where
  size := by
    simp only [threadPool, List.length_replicate, atLeastOne]
    split <;> omega
  exited h := by cases List.eq_of_mem_replicate h
  stages _ h := absurd h List.not_mem_nil

theorem Halting.stepped {s t : State} (inv : Halting s) (kept : Keeps s t)
    (exited : .exited ∈ t.workers → t.stop = true ∧ t.tasks = [])
    (stages : ∀ stage ∈ t.shutdowns, stage ∈ s.shutdowns ∨ stage.Holds t) : Halting t where
  size := kept.size ▸ inv.size
  exited := exited
  stages stage h := by
    rcases stages stage h with old | new
    · exact (inv.stages stage old).kept kept
    · exact new

theorem not_exited_replaced {workers : List Worker} {i : Nat} {new : Worker} (alive : .exited ≠ new)
    (h : .exited ∈ workers.set i new) : .exited ∈ workers :=
  (mem_replaced h).resolve_right alive

theorem move_halting {maxQueue : Nat} {s t : State} {l : Label} (inv : Halting s)
    (move : Move maxQueue s l t) : Halting t := by
  have kept := move_keeps move
  cases move with
  | submit => exact inv.stepped kept inv.exited fun _ => Or.inl
  | refused here closed => exact inv.stepped kept inv.exited fun _ => Or.inl
  | accepted here running room =>
    refine inv.stepped kept (fun gone => ?_) fun _ => Or.inl
    have stopped := (inv.exited gone).1
    rw [running] at stopped
    cases stopped
  | woken here asleep =>
    exact inv.stepped kept (fun gone => inv.exited (not_exited_replaced (by simp) gone))
      fun _ => Or.inl
  | unheard here awake => exact inv.stepped kept inv.exited fun _ => Or.inl
  | shutdown =>
    refine inv.stepped kept inv.exited fun stage h => ?_
    rcases List.mem_append.mp h with old | last
    · exact Or.inl old
    · cases List.mem_singleton.mp last
      exact Or.inr trivial
  | again here stopped =>
    refine inv.stepped kept inv.exited fun stage h => ?_
    rcases mem_replaced h with old | rfl
    · exact Or.inl old
    · exact Or.inr fun performed => by cases performed
  | stops here running =>
    refine inv.stepped kept (fun gone => ⟨rfl, (inv.exited gone).2⟩) fun stage h => ?_
    rcases mem_replaced h with old | rfl
    · exact Or.inl old
    · exact Or.inr rfl
  | notifyAll here =>
    refine inv.stepped kept (fun gone => ?_) fun stage h => ?_
    · obtain ⟨worker, mem, same⟩ := List.mem_map.mp gone
      cases worker with
      | exited => exact inv.exited mem
      | _ => cases same
    · rcases mem_replaced h with old | rfl
      · exact Or.inl old
      · have stopped := inv.stages .notifying (List.mem_of_getElem? here)
        exact Or.inr ⟨stopped, fun i' lt => by omega⟩
  | @joined k i here gone =>
    refine inv.stepped kept inv.exited fun stage h => ?_
    rcases mem_replaced h with old | rfl
    · exact Or.inl old
    · obtain ⟨stopped, before⟩ := inv.stages (.joining i) (List.mem_of_getElem? here)
      refine Or.inr ⟨stopped, fun i' lt => ?_⟩
      rcases Nat.lt_succ_iff_lt_or_eq.mp lt with less | rfl
      · exact before i' less
      · exact gone
  | @cleared k i here beyond =>
    refine inv.stepped kept inv.exited fun stage h => ?_
    rcases mem_replaced h with old | rfl
    · exact Or.inl old
    · obtain ⟨stopped, before⟩ := inv.stages (.joining i) (List.mem_of_getElem? here)
      have all : s.workers.length ≤ i := List.getElem?_eq_none_iff.mp beyond
      exact Or.inr fun _ => ⟨stopped, fun i' lt => before i' (Nat.lt_of_lt_of_le lt all)⟩
  | sleeps here empty running =>
    exact inv.stepped kept (fun gone => inv.exited (not_exited_replaced (by simp) gone))
      fun _ => Or.inl
  | exits here empty stopped =>
    exact inv.stepped kept (fun _ => ⟨stopped, empty⟩) fun _ => Or.inl
  | takes here front =>
    refine inv.stepped kept (fun gone => ?_) fun _ => Or.inl
    have empty := (inv.exited (not_exited_replaced (by simp) gone)).2
    rw [front] at empty
    cases empty
  | finishes here =>
    exact inv.stepped kept (fun gone => inv.exited (not_exited_replaced (by simp) gone))
      fun _ => Or.inl
  | wakes here =>
    exact inv.stepped kept (fun gone => inv.exited (not_exited_replaced (by simp) gone))
      fun _ => Or.inl

def Worker.awake : Worker → Bool
  | .entering => true
  | .running _ => true
  | _ => false

/-- No wakeup is lost: while tasks are queued, some worker is awake or some
call is about to notify. -/
def Attended (s : State) : Prop :=
  s.tasks ≠ [] →
    (∃ worker ∈ s.workers, worker.awake = true) ∨ .notifying ∈ s.submits ∨
      .notifying ∈ s.shutdowns

theorem awake_replaced {workers : List Worker} {i : Nat} {old new : Worker}
    (here : workers[i]? = some old) (awake : new.awake = true) :
    ∃ worker ∈ workers.set i new, worker.awake = true :=
  ⟨new, List.mem_of_getElem? (replaced_self here), awake⟩

/-- A pool with tasks and no sleeping worker has one awake. -/
theorem Halting.some_awake {s : State} (inv : Halting s) (busy : s.tasks ≠ [])
    (none : .waiting ∉ s.workers) : ∃ worker ∈ s.workers, worker.awake = true := by
  obtain ⟨worker, mem⟩ := List.exists_mem_of_length_pos inv.size
  refine ⟨worker, mem, ?_⟩
  cases worker with
  | entering => rfl
  | running task => rfl
  | waiting => exact absurd mem none
  | exited => exact absurd (inv.exited mem).2 busy

/-- A call of `Shutdown` that is not about to notify moves on. -/
theorem Attended.advanced {s : State} (inv : Attended s) {k : Nat} {old new : Shutdown}
    (here : s.shutdowns[k]? = some old) (quiet : .notifying ≠ old) :
    Attended (s.setShutdown k new) := by
  intro busy
  rcases inv busy with awake | submit | shutdown
  · exact Or.inl awake
  · exact Or.inr (Or.inl submit)
  · exact Or.inr (Or.inr (mem_replaced_other here shutdown quiet))

def Notifies (l : Label) : Prop := (∃ j woken, l = .notifyOne j woken) ∨ ∃ k, l = .notifyAll k

/-- A notification leaves no pool with tasks asleep. -/
theorem move_wakes {maxQueue : Nat} {s t : State} {l : Label} (halting : Halting s)
    (notifies : Notifies l) (move : Move maxQueue s l t) (busy : t.tasks ≠ []) :
    ∃ worker ∈ t.workers, worker.awake = true := by
  have after := move_halting halting move
  cases move with
  | woken here asleep => exact awake_replaced asleep rfl
  | unheard here awake => exact halting.some_awake busy awake
  | notifyAll here =>
    refine after.some_awake busy ?_
    intro mem
    obtain ⟨worker, -, same⟩ := List.mem_map.mp mem
    cases worker <;> cases same
  | _ => rcases notifies with ⟨j, woken, h⟩ | ⟨k, h⟩ <;> cases h

theorem move_attended {maxQueue : Nat} {s t : State} {l : Label} (halting : Halting s)
    (inv : Attended s) (move : Move maxQueue s l t) : Attended t := by
  by_cases notifies : Notifies l
  · exact fun busy => Or.inl (move_wakes halting notifies move busy)
  cases move with
  | submit =>
    intro busy
    rcases inv busy with awake | submit | shutdown
    · exact Or.inl awake
    · exact Or.inr (Or.inl (List.mem_append_left _ submit))
    · exact Or.inr (Or.inr shutdown)
  | refused here closed =>
    intro busy
    rcases inv busy with awake | submit | shutdown
    · exact Or.inl awake
    · exact Or.inr (Or.inl (mem_replaced_other here submit (by simp)))
    · exact Or.inr (Or.inr shutdown)
  | accepted here running room =>
    exact fun _ => Or.inr (Or.inl (List.mem_of_getElem? (replaced_self here)))
  | @woken j i here asleep => exact absurd (Or.inl ⟨j, some i, rfl⟩) notifies
  | @unheard j here awake => exact absurd (Or.inl ⟨j, none, rfl⟩) notifies
  | shutdown =>
    intro busy
    rcases inv busy with awake | submit | shutdown
    · exact Or.inl awake
    · exact Or.inr (Or.inl submit)
    · exact Or.inr (Or.inr (List.mem_append_left _ shutdown))
  | stops here running =>
    exact fun _ => Or.inr (Or.inr (List.mem_of_getElem? (replaced_self here)))
  | @notifyAll k here => exact absurd (Or.inr ⟨k, rfl⟩) notifies
  | again here stopped => exact inv.advanced here (by simp)
  | joined here gone => exact inv.advanced here (by simp)
  | cleared here beyond => exact inv.advanced here (by simp)
  | sleeps here empty running => exact fun busy => absurd empty busy
  | exits here empty stopped => exact fun busy => absurd empty busy
  | takes here front => exact fun _ => Or.inl (awake_replaced here rfl)
  | finishes here => exact fun _ => Or.inl (awake_replaced here rfl)
  | wakes here => exact fun _ => Or.inl (awake_replaced here rfl)

structure Sound (maxQueue : Nat) (s : State) : Prop where
  placed : Placed maxQueue s
  halting : Halting s
  attended : Attended s

theorem run_sound {threadCount maxQueue : Nat} {s : State}
    (run : Reachable (threadPool threadCount maxQueue) s) : Sound (atLeastOne maxQueue) s := by
  have start : Sound (atLeastOne maxQueue) (threadPool threadCount maxQueue).start :=
    ⟨start_placed threadCount maxQueue, start_halting threadCount maxQueue,
      fun busy => absurd rfl busy⟩
  refine run.invariant start ?_
  intro s l t inv h
  have move := pool_move h
  exact ⟨move_placed inv.placed move, move_halting inv.halting move,
    move_attended inv.halting inv.attended move⟩

end ThreadPools
