import AxVision.ThreadPools
import AxVision.FairRuns

/-!
# Every accepted task is executed

While a task is queued no step moves it away from its turn and every step of a
worker brings it nearer, whatever else is submitted, woken or stopped; no
wakeup is lost, so some worker always has such a step to take.
-/

namespace PoolDeliveries

open TransitionRuns FairRuns ReplacedEntries ThreadPools

/-- How far a worker is from its next take, while there are tasks. -/
def distance : Worker → Nat
  | .entering => 1
  | .running _ => 2
  | .waiting => 3
  | .exited => 0

def rank (j : Nat) (s : State) : Nat := 2 * s.tasks.idxOf j + (s.workers.map distance).sum

/-- The worker `i` tests the condition, or its task returns. -/
def OfWorker (i : Nat) (l : Label) : Prop := l = .enter i ∨ l = .finish i

theorem rank_nearer {j i : Nat} {s : State} {old new : Worker} (here : s.workers[i]? = some old)
    (nearer : distance new < distance old) : rank j (s.setWorker i new) < rank j s := by
  have sum := sum_replaced distance new here
  simp only [rank, State.setWorker]
  omega

theorem rank_notified (workers : List Worker) :
    ((workers.map Worker.notified).map distance).sum ≤ (workers.map distance).sum := by
  induction workers with
  | nil => exact Nat.le_refl _
  | cons worker rest ih =>
    have less : distance worker.notified ≤ distance worker := by
      cases worker <;> simp [Worker.notified, distance]
    simp only [List.map_cons, List.sum_cons]
    omega

theorem move_rank {maxQueue j : Nat} {s t : State} {l : Label} (here : j ∈ s.tasks)
    (move : Move maxQueue s l t) :
    j ∈ t.dequeued ∨ j ∈ t.tasks ∧ rank j t ≤ rank j s ∧
      ((∃ i, OfWorker i l) → rank j t < rank j s) := by
  have busy : s.tasks ≠ [] := List.ne_nil_of_mem here
  cases move with
  | accepted _ running room =>
    refine Or.inr ⟨List.mem_append_left _ here, ?_, ?_⟩
    · simp only [rank, State.setSubmit, List.idxOf_append_of_mem here]
      exact Nat.le_refl _
    · rintro ⟨i, h | h⟩ <;> cases h
  | @woken k i _ asleep =>
    have nearer : rank j (s.setWorker i .entering) < rank j s :=
      rank_nearer asleep (by simp [distance])
    exact Or.inr ⟨here, Nat.le_of_lt nearer, fun _ => nearer⟩
  | notifyAll _ =>
    refine Or.inr ⟨here, ?_, ?_⟩
    · have less := rank_notified s.workers
      simp only [rank, State.setShutdown]
      omega
    · rintro ⟨i, h | h⟩ <;> cases h
  | sleeps _ empty _ => exact absurd empty busy
  | exits _ empty _ => exact absurd empty busy
  | @takes i task rest entering front =>
    by_cases mine : task = j
    · subst mine
      exact Or.inl (List.mem_append_right _ (List.mem_singleton_self _))
    · have later : j ∈ rest := by
        rw [front] at here
        exact (List.mem_cons.mp here).resolve_left (Ne.symm mine)
      have sum := sum_replaced distance (.running task) entering
      have nearer : rank j
          { s.setWorker i (.running task) with
            tasks := rest
            dequeued := s.dequeued ++ [task] } < rank j s := by
        simp only [distance] at sum
        simp only [rank, State.setWorker, front, List.idxOf_cons_ne rest mine]
        omega
      exact Or.inr ⟨later, Nat.le_of_lt nearer, fun _ => nearer⟩
  | @finishes i task running =>
    have nearer : rank j (s.setWorker i .entering) < rank j s :=
      rank_nearer running (by simp [distance])
    exact Or.inr ⟨here, Nat.le_of_lt nearer, fun _ => nearer⟩
  | @wakes i asleep =>
    have nearer : rank j (s.setWorker i .entering) < rank j s :=
      rank_nearer asleep (by simp [distance])
    exact Or.inr ⟨here, Nat.le_of_lt nearer, fun _ => nearer⟩
  | _ =>
    refine Or.inr ⟨here, Nat.le_refl _, ?_⟩
    rintro ⟨i, h | h⟩ <;> cases h

/-- Only its own steps change a worker that is awake. -/
theorem move_awake {maxQueue i : Nat} {s t : State} {l : Label} {worker : Worker}
    (here : s.workers[i]? = some worker) (awake : worker.awake = true) (other : ¬OfWorker i l)
    (move : Move maxQueue s l t) : t.workers[i]? = some worker := by
  have notWaiting : worker ≠ .waiting := by
    rintro rfl
    cases awake
  have elsewhere : ∀ (i' : Nat) (new : Worker), i' ≠ i →
      (s.workers.set i' new)[i]? = some worker := by
    intro i' new apart
    exact (List.getElem?_set_ne apart).trans here
  cases move with
  | woken _ asleep => exact replaced_other asleep here notWaiting
  | notifyAll _ =>
    simp only [List.getElem?_map, here, Option.map_some]
    cases worker <;> first | rfl | exact absurd rfl notWaiting
  | @sleeps i' entering empty running =>
    exact elsewhere i' _ fun same => other (Or.inl (same ▸ rfl))
  | @exits i' entering empty stopped =>
    exact elsewhere i' _ fun same => other (Or.inl (same ▸ rfl))
  | @takes i' task rest entering front =>
    exact elsewhere i' _ fun same => other (Or.inl (same ▸ rfl))
  | @finishes i' task running => exact elsewhere i' _ fun same => other (Or.inr (same ▸ rfl))
  | @wakes i' asleep => exact replaced_other asleep here notWaiting
  | _ => exact here

theorem awake_enabled {threadCount maxQueue i : Nat} {s : State} {worker : Worker}
    (here : s.workers[i]? = some worker) (awake : worker.awake = true) :
    Enabled (threadPool threadCount maxQueue) (OfWorker i) s := by
  cases worker with
  | entering => exact ⟨.enter i, _, Or.inl rfl, if_pos here⟩
  | running task =>
    refine ⟨.finish i, { s.setWorker i .entering with executed := s.executed ++ [task] },
      Or.inr rfl, ?_⟩
    simp only [threadPool, step, here]
  | waiting => cases awake
  | exited => cases awake

/-- Workers that are awake get to run, tasks return, and the calls that have
changed the shared data get to notify. -/
structure Fair {threadCount maxQueue : Nat} (run : Run (threadPool threadCount maxQueue)) :
    Prop where
  worker : ∀ i, run.WeaklyFair (OfWorker i)
  notifyOne : ∀ j, run.WeaklyFair fun l => ∃ woken, l = .notifyOne j woken
  notifyAll : ∀ k, run.WeaklyFair fun l => l = .notifyAll k

section Runs

variable {threadCount maxQueue : Nat} {run : Run (threadPool threadCount maxQueue)}

theorem next_move {n : Nat} {l : Label} (label : run.label n = some l) :
    Move (atLeastOne maxQueue) (run.state n) l (run.state (n + 1)) := by
  have next := run.next n
  rw [label] at next
  exact step_move next

/-- An awake worker takes a step of its own, from the place where it stands. -/
theorem worker_steps (fair : Fair run) {n i : Nat} {worker : Worker}
    (here : (run.state n).workers[i]? = some worker) (awake : worker.awake = true) :
    ∃ m, n ≤ m ∧ (run.state m).workers[i]? = some worker ∧ run.Takes (OfWorker i) m :=
  run.taken (fair.worker i) (P := fun s => s.workers[i]? = some worker)
    (fun _ _ there => awake_enabled there awake)
    (fun _ _ _ _ there other h => move_awake there awake other (step_move h)) here

theorem notifyOne_enabled {j : Nat} {s : State} (here : s.submits[j]? = some .notifying) :
    Enabled (threadPool threadCount maxQueue) (fun l => ∃ woken, l = .notifyOne j woken) s := by
  by_cases asleep : .waiting ∈ s.workers
  · obtain ⟨i, hi⟩ := List.mem_iff_getElem?.mp asleep
    refine ⟨.notifyOne j (some i), (s.setSubmit j (.returned true)).setWorker i .entering,
      ⟨some i, rfl⟩, ?_⟩
    simp only [threadPool, step, here, hi, if_true]
  · refine ⟨.notifyOne j none, s.setSubmit j (.returned true), ⟨none, rfl⟩, ?_⟩
    simp only [threadPool, step, here, asleep, if_true, if_false]

theorem move_notifying_submit {limit j : Nat} {s t : State} {l : Label}
    (here : s.submits[j]? = some .notifying) (other : ¬∃ woken, l = .notifyOne j woken)
    (move : Move limit s l t) : t.submits[j]? = some .notifying := by
  have elsewhere : ∀ (j' : Nat) (new : Submit), j' ≠ j →
      (s.submits.set j' new)[j]? = some .notifying := by
    intro j' new apart
    exact (List.getElem?_set_ne apart).trans here
  cases move with
  | submit => exact appended_old here
  | refused pushing _ => exact replaced_other pushing here (by simp)
  | accepted pushing _ _ => exact replaced_other pushing here (by simp)
  | @woken j' i _ _ => exact elsewhere j' _ fun same => other ⟨some i, same ▸ rfl⟩
  | @unheard j' _ _ => exact elsewhere j' _ fun same => other ⟨none, same ▸ rfl⟩
  | _ => exact here

theorem move_notifying_shutdown {limit k : Nat} {s t : State} {l : Label}
    (here : s.shutdowns[k]? = some .notifying) (other : l ≠ .notifyAll k)
    (move : Move limit s l t) : t.shutdowns[k]? = some .notifying := by
  cases move with
  | shutdown => exact appended_old here
  | again locking _ => exact replaced_other locking here (by simp)
  | stops locking _ => exact replaced_other locking here (by simp)
  | @notifyAll k' _ =>
    have apart : k' ≠ k := fun same => other (same ▸ rfl)
    exact (List.getElem?_set_ne apart).trans here
  | joined joining _ => exact replaced_other joining here (by simp)
  | cleared joining _ => exact replaced_other joining here (by simp)
  | _ => exact here

theorem submit_notifies (fair : Fair run) {n j : Nat}
    (here : (run.state n).submits[j]? = some .notifying) :
    ∃ m woken, n ≤ m ∧ run.label m = some (.notifyOne j woken) := by
  obtain ⟨m, le, -, l, label, woken, rfl⟩ :=
    run.taken (fair.notifyOne j) (P := fun s => s.submits[j]? = some .notifying)
      (fun _ _ there => notifyOne_enabled there)
      (fun _ _ _ _ there other h => move_notifying_submit there other (step_move h)) here
  exact ⟨m, woken, le, label⟩

theorem shutdown_notifies (fair : Fair run) {n k : Nat}
    (here : (run.state n).shutdowns[k]? = some .notifying) :
    ∃ m, n ≤ m ∧ run.label m = some (.notifyAll k) := by
  have enabled : ∀ s, s.shutdowns[k]? = some .notifying →
      Enabled (threadPool threadCount maxQueue) (fun l => l = .notifyAll k) s := by
    intro s there
    refine ⟨.notifyAll k,
      { s.setShutdown k (.joining 0) with workers := s.workers.map Worker.notified }, rfl, ?_⟩
    simp only [threadPool, step, there, if_true]
  obtain ⟨m, le, -, l, label, rfl⟩ :=
    run.taken (fair.notifyAll k) (P := fun s => s.shutdowns[k]? = some .notifying)
      (fun s _ there => enabled s there)
      (fun _ _ _ _ there other h => move_notifying_shutdown there other (step_move h)) here
  exact ⟨m, le, label⟩

theorem accepted_kept {n m j : Nat} (le : n ≤ m) (here : j ∈ (run.state n).accepted) :
    j ∈ (run.state m).accepted := by
  refine run.keeps (P := fun s => j ∈ s.accepted) le ?_ here
  intro s l t _ mem h
  have move := pool_move h
  cases move with
  | accepted _ _ _ => exact List.mem_append_left _ mem
  | _ => exact mem

theorem sound_at (run : Run (threadPool threadCount maxQueue)) (n : Nat) :
    Sound (atLeastOne maxQueue) (run.state n) := run_sound (run.reachable n)

/-- A queued task is taken, or a worker takes a step while it waits. -/
theorem worker_comes (fair : Fair run) {n j : Nat} (here : j ∈ (run.state n).tasks) :
    (∃ m, n ≤ m ∧ j ∈ (run.state m).dequeued) ∨
      ∃ m, n ≤ m ∧ run.Takes (fun l => ∃ i, OfWorker i l) m := by
  have fromAwake : ∀ k, (∃ worker ∈ (run.state k).workers, worker.awake = true) →
      ∃ m, k ≤ m ∧ run.Takes (fun l => ∃ i, OfWorker i l) m := by
    rintro k ⟨worker, mem, awake⟩
    obtain ⟨i, hi⟩ := List.mem_iff_getElem?.mp mem
    obtain ⟨m, le, -, l, label, own⟩ := worker_steps fair hi awake
    exact ⟨m, le, l, label, i, own⟩
  have accepted : j ∈ (run.state n).accepted := by
    rw [← (sound_at run n).placed.order]
    exact List.mem_append_right _ here
  -- after a pending notification the task is gone or somebody is awake
  have fromNotice : ∀ k l, n ≤ k → run.label k = some l → Notifies l →
      (∃ m, n ≤ m ∧ j ∈ (run.state m).dequeued) ∨
        ∃ m, n ≤ m ∧ run.Takes (fun l => ∃ i, OfWorker i l) m := by
    intro k l le label notifies
    by_cases empty : (run.state (k + 1)).tasks = []
    · have gone := accepted_kept (Nat.le_succ_of_le le) accepted
      rw [← (sound_at run (k + 1)).placed.order, empty, List.append_nil] at gone
      exact Or.inl ⟨k + 1, by omega, gone⟩
    · have awake := move_wakes (sound_at run k).halting notifies (next_move label) empty
      obtain ⟨m, later, takes⟩ := fromAwake (k + 1) awake
      exact Or.inr ⟨m, by omega, takes⟩
  rcases (sound_at run n).attended (List.ne_nil_of_mem here) with awake | submit | shutdown
  · exact Or.inr (fromAwake n awake)
  · obtain ⟨k, hk⟩ := List.mem_iff_getElem?.mp submit
    obtain ⟨m, woken, le, label⟩ := submit_notifies fair hk
    exact fromNotice m _ le label (Or.inl ⟨k, woken, rfl⟩)
  · obtain ⟨k, hk⟩ := List.mem_iff_getElem?.mp shutdown
    obtain ⟨m, le, label⟩ := shutdown_notifies fair hk
    exact fromNotice m _ le label (Or.inr ⟨k, rfl⟩)

theorem eventually_dequeued (fair : Fair run) {n j : Nat} (here : j ∈ (run.state n).accepted) :
    ∃ m, n ≤ m ∧ j ∈ (run.state m).dequeued := by
  rw [← (sound_at run n).placed.order] at here
  rcases List.mem_append.mp here with dequeued | queued
  · exact ⟨n, Nat.le_refl n, dequeued⟩
  · exact run.settles (P := fun s => j ∈ s.tasks) (Q := fun s => j ∈ s.dequeued) (rank j)
      (fun _ _ _ _ there h => move_rank there (step_move h)) (fun _ there => worker_comes fair there)
      queued

/-- The worker that has taken a task runs it to its end. -/
theorem eventually_executed (fair : Fair run) {n j : Nat} (here : j ∈ (run.state n).accepted) :
    ∃ m, n ≤ m ∧ j ∈ (run.state m).executed := by
  obtain ⟨k, le, dequeued⟩ := eventually_dequeued fair here
  have held := (sound_at run k).placed.held.mem_iff.mpr dequeued
  rcases List.mem_append.mp held with done | running
  · exact ⟨k, le, done⟩
  · obtain ⟨worker, mem, task⟩ := List.mem_filterMap.mp running
    obtain ⟨i, hi⟩ := List.mem_iff_getElem?.mp mem
    have mine : worker = .running j := by
      cases worker with
      | running task' =>
        cases task
        rfl
      | _ => cases task
    subst mine
    obtain ⟨m, later, there, l, label, own⟩ := worker_steps fair hi rfl
    have move := next_move label
    rcases own with rfl | rfl
    · -- a running worker does not enter
      generalize run.state (m + 1) = t at move
      cases move with
      | sleeps entering _ _ => rw [there] at entering; cases entering
      | exits entering _ _ => rw [there] at entering; cases entering
      | takes entering _ => rw [there] at entering; cases entering
    · refine ⟨m + 1, by omega, ?_⟩
      generalize run.state (m + 1) = t at move
      cases move with
      | finishes running =>
        rw [there] at running
        cases running
        exact List.mem_append_right _ (List.mem_singleton_self _)

end Runs

/-- A worker leaves in one kind of step only. -/
theorem move_leaves {limit i : Nat} {s t : State} {l : Label} (move : Move limit s l t)
    (before : s.workers[i]? ≠ some .exited) (after : t.workers[i]? = some .exited) :
    s.stop = true ∧ s.tasks = [] := by
  have kept : ∀ (i' : Nat) (old new : Worker), s.workers[i']? = some old → .exited ≠ new →
      (s.workers.set i' new)[i]? = some .exited → False := by
    intro i' old new here alive gone
    rcases replaced_cases here gone with ⟨-, same⟩ | ⟨-, already⟩
    · exact alive same
    · exact before already
  cases move with
  | woken _ asleep => exact absurd after (kept _ _ _ asleep (by simp))
  | notifyAll _ =>
    simp only [List.getElem?_map, Option.map_eq_some_iff] at after
    obtain ⟨worker, here, same⟩ := after
    cases worker with
    | exited => exact absurd here before
    | _ => cases same
  | sleeps here _ _ => exact absurd after (kept _ _ _ here (by simp))
  | exits _ empty stopped => exact ⟨stopped, empty⟩
  | takes here _ => exact absurd after (kept _ _ _ here (by simp))
  | finishes here => exact absurd after (kept _ _ _ here (by simp))
  | wakes here => exact absurd after (kept _ _ _ here (by simp))
  | _ => exact absurd after before

/-- `Submit` refuses exactly a stopped or full pool, and then queues nothing. -/
theorem push_answers {limit j : Nat} {s t : State} (h : step limit s (.push j) = some t) :
    (t.submits[j]? = some (.returned false) ↔ s.stop = true ∨ limit ≤ s.tasks.length) ∧
      (t.submits[j]? = some (.returned false) → t.tasks = s.tasks) := by
  have move := step_move h
  cases move with
  | refused here closed =>
    have answer : (s.submits.set j (.returned false))[j]? = some (.returned false) :=
      replaced_self here
    exact ⟨⟨fun _ => closed, fun _ => answer⟩, fun _ => rfl⟩
  | accepted here running room =>
    have answer : (s.submits.set j .notifying)[j]? = some .notifying := replaced_self here
    refine ⟨⟨fun refused => ?_, fun closed => ?_⟩, fun refused => ?_⟩
    · have same := answer.symm.trans refused
      cases same
    · rcases closed with stopped | full
      · rw [running] at stopped
        cases stopped
      · omega
    · have same := answer.symm.trans refused
      cases same

/-- When the `Shutdown` that set `stop_` has returned, every accepted task has run. -/
theorem shutdown_drains {limit k : Nat} {s : State} (sound : Sound limit s)
    (here : s.shutdowns[k]? = some (.returned true)) : s.executed.Perm s.accepted := by
  obtain ⟨-, gone⟩ := sound.halting.stages _ (List.mem_of_getElem? here) rfl
  have first : .exited ∈ s.workers := List.mem_of_getElem? (gone 0 sound.halting.size)
  have empty : s.tasks = [] := (sound.halting.exited first).2
  have idle : s.running = [] := by
    refine List.filterMap_eq_nil_iff.mpr ?_
    intro worker mem
    obtain ⟨i, hi⟩ := List.mem_iff_getElem?.mp mem
    have left := gone i (lt_of_entry hi)
    rw [hi] at left
    cases left
    rfl
  have held := sound.placed.held
  rw [idle, List.append_nil] at held
  have order := sound.placed.order
  rw [empty, List.append_nil] at order
  exact order ▸ held

theorem queued_iff {submits : List Submit} {j : Nat} :
    Queued submits j ↔
      submits[j]? = some .notifying ∨ submits[j]? = some (.returned true) := by
  constructor
  · rintro ⟨submit, here, queued⟩
    cases submit with
    | pushing => cases queued
    | notifying => exact Or.inl here
    | returned accepted =>
      have yes : accepted = true := queued
      exact Or.inr (yes ▸ here)
  · rintro (here | here)
    · exact ⟨_, here, rfl⟩
    · exact ⟨_, here, rfl⟩

theorem atLeastOne_eq (n : Nat) : atLeastOne n = max 1 n := by
  unfold atLeastOne
  split <;> omega

/-- In every state of every run: tasks are taken in the order they were
accepted; an accepted task is queued, with one worker, or done, each once; at
most `max 1 max_queue` are queued; `Submit` refuses exactly when the pool is
stopped or full and then leaves the queue alone; a worker leaves only a stopped
pool with an empty queue; and a `Shutdown` that set `stop_` returns when every
accepted task has run. In every fair run each accepted task is executed. -/
theorem pool_delivers (threadCount maxQueue : Nat) :
    (∀ s, Reachable (threadPool threadCount maxQueue) s →
      (s.dequeued ++ s.tasks = s.accepted ∧ s.accepted.Nodup ∧
        (s.executed ++ s.running).Perm s.dequeued) ∧
      (∀ j, j ∈ s.accepted ↔
        s.submits[j]? = some .notifying ∨ s.submits[j]? = some (.returned true)) ∧
      s.tasks.length ≤ max 1 maxQueue ∧
      (∀ j t, (threadPool threadCount maxQueue).step s (.push j) = some t →
        (t.submits[j]? = some (.returned false) ↔
          s.stop = true ∨ max 1 maxQueue ≤ s.tasks.length) ∧
        (t.submits[j]? = some (.returned false) → t.tasks = s.tasks)) ∧
      (∀ (i : Nat) l t, (threadPool threadCount maxQueue).step s l = some t →
        s.workers[i]? ≠ some .exited → t.workers[i]? = some .exited →
        s.stop = true ∧ s.tasks = []) ∧
      ∀ k : Nat, s.shutdowns[k]? = some (.returned true) → s.executed.Perm s.accepted) ∧
    ∀ run : Run (threadPool threadCount maxQueue), Fair run →
      ∀ n j, j ∈ (run.state n).accepted → ∃ m, n ≤ m ∧ j ∈ (run.state m).executed := by
  constructor
  · intro s run
    have sound := run_sound run
    refine ⟨⟨sound.placed.order, sound.placed.once, sound.placed.held⟩, ?_, ?_, ?_, ?_, ?_⟩
    · exact fun j => (sound.placed.kept j).trans queued_iff
    · exact atLeastOne_eq maxQueue ▸ sound.placed.bounded
    · intro j t h
      rw [← atLeastOne_eq maxQueue]
      exact push_answers h
    · exact fun i l t h before after => move_leaves (step_move h) before after
    · exact fun k here => shutdown_drains sound here
  · exact fun run fair n j accepted => eventually_executed fair accepted

/-- The only worker sleeps, is woken for a task, runs it and sleeps again. -/
def oneTask : List Label :=
  [.enter 0, .submit, .push 0, .notifyOne 0 (some 0), .enter 0, .finish 0, .enter 0]

theorem one_task_executed :
    ∃ run : Run (threadPool 1 0), Fair run ∧ ∃ m, 0 ∈ (run.state m).executed := by
  obtain ⟨last, h, workers, submits, shutdowns⟩ : ∃ last,
      (threadPool 1 0).exec (threadPool 1 0).start oneTask = some last ∧
      last.workers = [.waiting] ∧ last.submits = [.returned true] ∧ last.shutdowns = [] :=
    ⟨_, rfl, rfl, rfl, rfl⟩
  have asleep : ∀ (i : Nat) (worker : Worker), last.workers[i]? = some worker →
      worker = .waiting := by
    intro i worker here
    have mem := List.mem_of_getElem? here
    rw [workers] at mem
    exact List.mem_singleton.mp mem
  have fair : Fair (Run.ofSchedule h) := by
    constructor
    · intro i
      refine Run.ofSchedule_fair h ?_
      rintro ⟨l, t, rfl | rfl, step⟩
      · cases pool_move step with
        | sleeps here _ _ => cases asleep i _ here
        | exits here _ _ => cases asleep i _ here
        | takes here _ => cases asleep i _ here
      · cases pool_move step with
        | finishes here => cases asleep i _ here
    · intro j
      refine Run.ofSchedule_fair h ?_
      have answered : ∀ here : last.submits[j]? = some .notifying, False := by
        intro here
        have mem := List.mem_of_getElem? here
        rw [submits] at mem
        cases List.mem_singleton.mp mem
      rintro ⟨l, t, ⟨woken, rfl⟩, step⟩
      cases pool_move step with
      | woken here _ => exact answered here
      | unheard here _ => exact answered here
    · intro k
      refine Run.ofSchedule_fair h ?_
      rintro ⟨l, t, rfl, step⟩
      cases pool_move step with
      | notifyAll here =>
        rw [shutdowns] at here
        cases here
  have accepted : 0 ∈ ((Run.ofSchedule h).state 3).accepted := List.mem_singleton_self 0
  obtain ⟨m, -, executed⟩ := (pool_delivers 1 0).2 (Run.ofSchedule h) fair 3 0 accepted
  exact ⟨Run.ofSchedule h, fair, m, executed⟩

end PoolDeliveries
