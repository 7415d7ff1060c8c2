import AxVision.GateAccounting

/-!
# Closing a plugin library under running workers

`PluginManager::Unload` and the cleanup after a failed `Init` wait for the
plugin's gate, shut the instance down, destroy it and close the library. The
gate is lowered inside the closure, and the closure object dies later: at the
end of the worker's loop body, or when the submitting thread, which holds the
future of the job, returns from `SubmitAsync`.
The unloading thread is one more thread beside those of the host; calls under
the plugin's name are made before it begins.
-/

namespace PluginUnload

open TransitionRuns HostServices GateAccounting Ledgers ReplacedEntries

inductive TeardownOp where
  | waitQuiesce
  | shutdown
  | destroy
  | dlclose
  deriving DecidableEq, Repr

/-- `PluginManager::Unload`; the flags are its null checks. -/
def unload (plugin host soHandle : Bool) : List TeardownOp :=
  (if plugin then (if host then [.waitQuiesce] else []) ++ [.shutdown, .destroy] else []) ++
    (if soHandle then [.dlclose] else [])

/-- `DestroyUnloaded` of the plugin loader. -/
def destroyUnloaded (plugin destroy handle host initInvoked : Bool) : List TeardownOp :=
  (if plugin && destroy then
    (if initInvoked then (if host then [.waitQuiesce] else []) ++ [.shutdown] else []) ++ [.destroy]
   else []) ++ (if handle then [.dlclose] else [])

inductive Cleanup where
  | unload
  | failedInit
  deriving DecidableEq, Repr

/-- Both run with every pointer set: `Load` has checked host, symbols and instance. -/
def Cleanup.ops : Cleanup → List TeardownOp
  | .unload => PluginUnload.unload true true true
  | .failedInit => destroyUnloaded true true true true true

/-- `waiter` is the unloading thread's own call of `WaitQuiesce`, once made. -/
inductive Unloading where
  | notBegun
  | running (waiter : Option Nat) (ops : List TeardownOp)
  deriving DecidableEq, Repr

structure System where
  host : State
  unloading : Unloading

inductive Action where
  | host (l : Label)
  | begin (cleanup : Cleanup)
  | await
  | proceed
  deriving DecidableEq, Repr

def isReturned : WaitPhase → Bool
  | .returned _ => true
  | _ => false

def step (maxQueue : Nat) (name : String) (s : System) : Action → Option System
  | .host l =>
    if s.unloading ≠ .notBegun ∧ l.submits = some name then none
    else (HostServices.step maxQueue s.host l).map fun host => { s with host := host }
  | .begin cleanup =>
    if s.unloading = .notBegun then some { s with unloading := .running none cleanup.ops } else none
  | .await =>
    match s.unloading with
    | .running none (.waitQuiesce :: rest) =>
      some
        { host := { s.host with waiters := s.host.waiters ++ [⟨name, false, .lookup⟩] }
          unloading := .running (some s.host.waiters.length) (.waitQuiesce :: rest) }
    | _ => none
  | .proceed =>
    match s.unloading with
    | .running (some i) (.waitQuiesce :: rest) =>
      match s.host.waiters[i]? with
      | some w => if isReturned w.phase then some { s with unloading := .running none rest } else none
      | none => none
    | .running none (.shutdown :: rest) => some { s with unloading := .running none rest }
    | .running none (.destroy :: rest) => some { s with unloading := .running none rest }
    | .running none (.dlclose :: rest) => some { s with unloading := .running none rest }
    | _ => none

def system (threadCount maxQueue : Nat) (name : String) : Machine System Action where
  start := { host := (machine threadCount maxQueue).start, unloading := .notBegun }
  step := step (max 1 maxQueue) name

/-- The closure of the call neither runs nor will run. -/
def finished : CallPhase → Bool
  | .submitting => false
  | .accepted _ .queued => false
  | .accepted _ .running => false
  | _ => true

/-- The closure object is gone: no caller inside `SubmitAsync` and no queue entry or
worker owns it. A refused call destroys it before its rollback. -/
def destroyed : CallPhase → Bool
  | .refused => true
  | .rollbackNotify => true
  | .rejected => true
  | .accepted .returned (.released _) => true
  | _ => false

/-- The closure has lowered its gate, but a worker that has not come to the end
of its loop body, or a caller still inside `SubmitAsync`, owns it. -/
def inWindow : CallPhase → Bool
  | .accepted _ .notifying => true
  | .accepted _ (.ended false) => true
  | .accepted .inSubmit (.released false) => true
  | .accepted .inSubmitAsync (.released false) => true
  | _ => false

theorem gone_iff_outside_window {p : CallPhase} (lowered : raised p = false) :
    (finished p = true ∧ destroyed p = true) ↔ inWindow p = false := by
  rcases p with _ | _ | _ | _ | ⟨_ | _ | _, _ | _ | _ | ⟨_ | _⟩ | ⟨_ | _⟩⟩ <;>
    simp_all [raised, undecided, unfinished, threw, finished, destroyed, inWindow]

/-- An untimed wait never reads its predicate a last time. -/
def Untimed (s : State) : Prop :=
  ∀ (i : Nat) (name : String) (p : WaitPhase), s.waiters[i]? = some ⟨name, false, p⟩ →
    p ≠ .locking true ∧ p ≠ .checking true ∧ p ≠ .returned false

/-- A waiter keeps its name and its kind, and changes phase by its own moves or a wake-up. -/
theorem waiter_forward {s t : State} {new : Option String} (h : Effect s new t) {i : Nat}
    {name : String} {timed : Bool} {p : WaitPhase}
    (held : s.waiters[i]? = some ⟨name, timed, p⟩) :
    ∃ q, t.waiters[i]? = some ⟨name, timed, q⟩ ∧
      (q = p ∨ q = .locking false ∨ ∃ o, WaitMove s i name timed p q o) := by
  obtain ⟨hi, -⟩ := List.getElem?_eq_some_iff.mp held
  cases h with
  | submit _ => exact ⟨p, held, Or.inl rfl⟩
  | move _ _ _ _ _ _ _ _ _ => exact ⟨p, held, Or.inl rfl⟩
  | lower _ _ _ _ _ _ => exact ⟨p, held, Or.inl rfl⟩
  | pool _ _ _ => exact ⟨p, held, Or.inl rfl⟩
  | notify j n _ _ _ _ _ =>
    have woken : (s.waiters.map (wake n))[i]? = some (wake n ⟨name, timed, p⟩) := by
      rw [List.getElem?_map, held, Option.map_some]
    by_cases asleep : name = n ∧ p = .asleep
    · rw [wake, if_pos asleep] at woken
      exact ⟨_, woken, Or.inr (Or.inl rfl)⟩
    · rw [wake, if_neg asleep] at woken
      exact ⟨p, woken, Or.inl rfl⟩
  | await n tm => exact ⟨p, (List.getElem?_append_left hi).trans held, Or.inl rfl⟩
  | wait j n tm r q o before move =>
    by_cases hij : j = i
    · subst hij
      rw [held] at before
      cases before
      exact ⟨q, List.getElem?_set_self hi, Or.inr (Or.inr ⟨o, move⟩)⟩
    · exact ⟨p, (List.getElem?_set_ne hij).trans held, Or.inl rfl⟩

theorem waiter_new {s t : State} {new : Option String} (h : Effect s new t) {i : Nat}
    (absent : s.waiters[i]? = none) {w : Waiter} (held : t.waiters[i]? = some w) :
    w.phase = .lookup := by
  have same : ∀ l : List Waiter, l.length = s.waiters.length → l[i]? = none := by
    intro l hl
    rw [List.getElem?_eq_none_iff] at absent ⊢
    omega
  cases h with
  | notify j n _ _ _ _ _ =>
    exact absurd (held.symm.trans (same _ (List.length_map _))) nofun
  | await n tm =>
    change (s.waiters ++ [⟨n, tm, .lookup⟩])[i]? = some w at held
    rcases appended_cases held with old | ⟨-, rfl⟩
    · exact absurd (old.symm.trans absent) nofun
    · rfl
  | wait j n tm r q o _ _ =>
    exact absurd (held.symm.trans (same _ List.length_set)) nofun
  | _ => exact absurd (held.symm.trans absent) nofun

theorem effect_untimed {s t : State} {new : Option String} (h : Effect s new t)
    (hs : Untimed s) : Untimed t := by
  intro i name q held
  cases before : s.waiters[i]? with
  | none =>
    obtain rfl : q = .lookup := waiter_new h before held
    exact ⟨nofun, nofun, nofun⟩
  | some w =>
    obtain ⟨n, timed, p⟩ := w
    obtain ⟨r, after, how⟩ := waiter_forward h before
    rw [held] at after
    cases after
    have old := hs i name p before
    rcases how with rfl | rfl | ⟨o, move⟩
    · exact old
    · exact ⟨nofun, nofun, nofun⟩
    · cases move with
      | acquire final free =>
        refine ⟨nofun, ?_, nofun⟩
        intro e
        cases e
        exact old.1 rfl
      | expired above => exact absurd rfl old.2.1
      | timeout ht => cases ht
      | _ => exact ⟨nofun, nofun, nofun⟩

/-- A wait that has just returned saw a gate at zero, or none. -/
theorem returned_zero {s : State} {i : Nat} {name : String} {timed : Bool} {p : WaitPhase}
    {o : Option Nat} (h : WaitMove s i name timed p (.returned true) o) : s.count name = 0 := by
  cases h with
  | noGate none => simp [State.count, none]
  | drained _ zero => exact zero

/-- Without a new call under the name its gate only goes down. -/
theorem effect_count_le {s t : State} {new : Option String} (h : Effect s new t) {name : String}
    (hnew : new ≠ some name) : t.count name ≤ s.count name := by
  cases h with
  | submit n =>
    have hn : ¬ n = name := fun e => hnew (congrArg some e)
    have hcount := count_addCount s n name 1
    rw [if_neg hn] at hcount
    change (s.addCount n 1).count name ≤ s.count name
    omega
  | lower i n p q held hlow =>
    have hcount := count_addCount s n name (-1)
    change (s.addCount n (-1)).count name ≤ s.count name
    split at hcount <;> omega
  | _ => exact Int.le_refl _

theorem zero_kept {s t : State} {new : Option String} (h : Effect s new t) (balanced : Balanced s)
    {name : String} (hnew : new ≠ some name) (zero : s.count name = 0) : t.count name = 0 := by
  have le := effect_count_le h hnew
  have nonneg := effect_balanced h balanced name
  omega

/-- Where the unloading thread stands, and what it has learnt about the gate. -/
inductive Learnt (name : String) (s : State) : Unloading → Prop where
  | notBegun : Learnt name s .notBegun
  | begun (rest : List TeardownOp) : .waitQuiesce ∉ rest →
      Learnt name s (.running none (.waitQuiesce :: rest))
  | waiting (i : Nat) (p : WaitPhase) (rest : List TeardownOp) : .waitQuiesce ∉ rest →
      s.waiters[i]? = some ⟨name, false, p⟩ → (isReturned p = true → s.count name = 0) →
      Learnt name s (.running (some i) (.waitQuiesce :: rest))
  | quiet (ops : List TeardownOp) : .waitQuiesce ∉ ops → s.count name = 0 →
      Learnt name s (.running none ops)

structure Valid (name : String) (s : System) : Prop where
  balanced : Balanced s.host
  untimed : Untimed s.host
  learnt : Learnt name s.host s.unloading

theorem host_learnt {name : String} {s t : State} {new : Option String} {u : Unloading}
    (h : Effect s new t) (balanced : Balanced s) (untimed : Untimed s)
    (noNew : u ≠ .notBegun → new ≠ some name) (hs : Learnt name s u) : Learnt name t u := by
  cases hs with
  | notBegun => exact .notBegun
  | begun rest hrest => exact .begun rest hrest
  | quiet ops hops zero => exact .quiet ops hops (zero_kept h balanced (noNew nofun) zero)
  | waiting i p rest hrest held done =>
    have keep := zero_kept h balanced (noNew nofun)
    obtain ⟨q, after, how⟩ := waiter_forward h held
    refine .waiting i q rest hrest after fun hq => keep ?_
    rcases how with rfl | rfl | ⟨o, move⟩
    · exact done hq
    · cases hq
    · match q, hq with
      | .returned true, _ => exact returned_zero move
      | .returned false, _ =>
        have fresh := effect_untimed h untimed i name _ after
        exact absurd rfl fresh.2.2

theorem cleanup_ops (c : Cleanup) :
    c.ops = [.waitQuiesce, .shutdown, .destroy, .dlclose] := by
  cases c <;> rfl

theorem step_valid {maxQueue : Nat} {name : String} {s t : System} {a : Action}
    (h : step maxQueue name s a = some t) (hs : Valid name s) : Valid name t := by
  obtain ⟨balanced, untimed, learnt⟩ := hs
  cases a with
  | host l =>
    rw [step] at h
    split at h
    · cases h
    · rename_i allowed
      obtain ⟨host, hstep, rfl⟩ := Option.map_eq_some_iff.mp h
      have effect := step_effect hstep
      refine ⟨effect_balanced effect balanced, effect_untimed effect untimed, ?_⟩
      exact host_learnt effect balanced untimed (fun hb hn => allowed ⟨hb, hn⟩) learnt
  | begin c =>
    rw [step] at h
    split at h
    · cases h
      refine ⟨balanced, untimed, ?_⟩
      rw [cleanup_ops]
      exact .begun _ (by decide)
    · cases h
  | await =>
    rw [step] at h
    split at h
    · rename_i rest hu
      cases h
      have effect : Effect s.host none _ := .await name false
      refine ⟨balanced, effect_untimed effect untimed, ?_⟩
      rw [hu] at learnt
      cases learnt with
      | begun _ hrest => exact .waiting _ .lookup rest hrest (by simp) nofun
      | quiet _ hops _ => exact absurd List.mem_cons_self hops
    · cases h
  | proceed =>
    rw [step] at h
    split at h
    · rename_i i rest hu
      split at h
      · rename_i w held
        split at h
        · rename_i returned
          cases h
          rw [hu] at learnt
          cases learnt with
          | waiting _ p _ hrest held' done =>
            rw [held] at held'
            cases held'
            exact ⟨balanced, untimed, .quiet rest hrest (done returned)⟩
        · cases h
      · cases h
    all_goals first
      | cases h; done
      | rename_i rest hu
        cases h
        rw [hu] at learnt
        cases learnt with
        | quiet _ hops zero =>
          exact ⟨balanced, untimed, .quiet rest (fun e => hops (List.mem_cons_of_mem _ e)) zero⟩

theorem reachable_valid {threads maxQueue : Nat} {name : String} {s : System}
    (h : Reachable (system threads maxQueue name) s) : Valid name s := by
  refine Reachable.invariant (I := Valid name) ⟨fun _ => rfl, ?_, .notBegun⟩
    (fun _ _ _ hs hstep => step_valid hstep hs) h
  intro i n p held
  simp [system, machine] at held

/-- When `dlclose` is next, every closure of the plugin is finished and destroyed
exactly if no thread is between a closure's decrement of the gate and the end
of that closure's life. -/
theorem closures_gone_iff {threads maxQueue : Nat} {name : String} {s : System}
    (h : Reachable (system threads maxQueue name) s) {waiter : Option Nat}
    {rest : List TeardownOp} (next : s.unloading = .running waiter (.dlclose :: rest)) :
    (∀ c ∈ s.host.calls, c.name = name → finished c.phase = true ∧ destroyed c.phase = true) ↔
      ∀ c ∈ s.host.calls, c.name = name → inWindow c.phase = false := by
  obtain ⟨balanced, -, learnt⟩ := reachable_valid h
  have zero : s.host.count name = 0 := by
    rw [next] at learnt
    cases learnt with
    | quiet _ _ zero => exact zero
  have none : countCalls s.host name raised = 0 := by
    have := balanced name
    omega
  have lowered : ∀ c ∈ s.host.calls, c.name = name → raised c.phase = false := by
    intro c hc hn
    simpa [unit, hn] using total_eq_zero_iff.mp none c hc
  constructor
  · intro gone c hc hn
    exact (gone_iff_outside_window (lowered c hc hn)).mp (gone c hc hn)
  · intro outside c hc hn
    exact (gone_iff_outside_window (lowered c hc hn)).mpr (outside c hc hn)

/-- One job that returns, its caller gone, and the schedule up to its decrement of the gate. -/
def jobToDecrement : List Action :=
  [.host (.submitAsync "face_recognition"), .host (.poolSubmit 0), .host (.leaveSubmit 0),
    .host (.leaveSubmitAsync 0), .host (.dequeue 0), .host (.finish 0 false)]

/-- The unloading thread up to `dlclose`, its wait finding the gate at zero. -/
def unloadToClose : List Action :=
  [.begin .unload, .await, .host (.lookup 0), .host (.lock 0), .host (.check 0), .proceed,
    .proceed, .proceed]

/-- The worker reaches the end of its loop body before the library is closed. -/
theorem closure_gone_after_release :
    ∃ t, (system 2 128 "face_recognition").exec (system 2 128 "face_recognition").start
        (jobToDecrement ++ [.host (.notify 0), .host (.release 0)] ++ unloadToClose) = some t ∧
      ∀ c ∈ t.host.calls, c.name = "face_recognition" →
        finished c.phase = true ∧ destroyed c.phase = true := by
  obtain ⟨t, run, next, outside⟩ : ∃ t, (system 2 128 "face_recognition").exec
        (system 2 128 "face_recognition").start
        (jobToDecrement ++ [.host (.notify 0), .host (.release 0)] ++ unloadToClose) = some t ∧
      t.unloading = .running none [.dlclose] ∧
      ∀ c ∈ t.host.calls, c.name = "face_recognition" → inWindow c.phase = false :=
    ⟨_, rfl, rfl, by decide⟩
  exact ⟨t, run, (closures_gone_iff (Machine.exec_reachable run) next).mpr outside⟩

/-- The worker is preempted right after its decrement: the library is about to
be closed under a closure object the worker still owns. -/
theorem library_closed_under_closure :
    ¬ ∀ threads maxQueue name s, Reachable (system threads maxQueue name) s →
      ∀ waiter rest, s.unloading = .running waiter (.dlclose :: rest) →
        ∀ c ∈ s.host.calls, c.name = name → finished c.phase = true ∧ destroyed c.phase = true := by
  intro claim
  obtain ⟨t, run, next, alive⟩ : ∃ t, (system 2 128 "face_recognition").exec
        (system 2 128 "face_recognition").start (jobToDecrement ++ unloadToClose) = some t ∧
      t.unloading = .running none [.dlclose] ∧
      t.host.calls = [⟨"face_recognition", .accepted .returned .notifying⟩] := ⟨_, rfl, rfl, rfl⟩
  have gone := claim 2 128 _ t (Machine.exec_reachable run) _ _ next
    ⟨"face_recognition", .accepted .returned .notifying⟩ (by simp [alive]) rfl
  cases gone.2

end PluginUnload
