import AxVision.SchedulerRuns
import AxVision.ReplacedEntries
import Mathlib.Data.UInt

/-!
# The message queue of a node

Any number of producers call `SendMessage` or `PushMessage` of one manager
while its worker pops and anybody changes its status. The sections under the
queue lock and under the drop-log lock are single steps; a producer that finds
the queue full stands between the two updates of `ReportDroppedMessage` for as
long as the schedule likes. Counters are 64-bit.
-/

namespace MessageQueues

open TransitionRuns SchedulerRuns ReplacedEntries

universe u

variable {α : Type u}

def kMinQueueCapacity : Nat := 1

def kMaxQueueCapacity : Nat := 10000

def kDefaultQueueCapacity : Nat := 10

structure ThreadSafeQueue (α : Type u) where
  queue : List α
  queueCapacity : Nat
  bounded : queue.length ≤ queueCapacity
  deriving DecidableEq

def ThreadSafeQueue.make (capacity : Nat) : ThreadSafeQueue α where
  queue := []
  queueCapacity :=
    if kMinQueueCapacity ≤ capacity ∧ capacity ≤ kMaxQueueCapacity then capacity
    else kDefaultQueueCapacity
  bounded := Nat.zero_le _

def ThreadSafeQueue.push (q : ThreadSafeQueue α) (value : α) : Option (ThreadSafeQueue α) :=
  if room : q.queue.length < q.queueCapacity then
    some
      { queue := q.queue ++ [value]
        queueCapacity := q.queueCapacity
        bounded := by
          rw [List.length_append, List.length_singleton]
          exact room }
  else none

def ThreadSafeQueue.pop (q : ThreadSafeQueue α) : Option α × ThreadSafeQueue α :=
  match h : q.queue with
  | [] => (none, q)
  | front :: rest =>
    (some front,
      { queue := rest
        queueCapacity := q.queueCapacity
        bounded := by
          have full := q.bounded
          rw [h, List.length_cons] at full
          omega })

theorem ThreadSafeQueue.push_some {q r : ThreadSafeQueue α} {value : α}
    (h : q.push value = some r) :
    r.queue = q.queue ++ [value] ∧ r.queueCapacity = q.queueCapacity := by
  simp only [ThreadSafeQueue.push] at h
  split at h
  · cases h
    exact ⟨rfl, rfl⟩
  · cases h

theorem ThreadSafeQueue.push_none {q : ThreadSafeQueue α} {value : α} :
    q.push value = none ↔ q.queue.length = q.queueCapacity := by
  have full := q.bounded
  simp only [ThreadSafeQueue.push]
  split
  · simp only [reduceCtorEq, false_iff]
    omega
  · simp only [true_iff]
    omega

theorem ThreadSafeQueue.pop_some {q r : ThreadSafeQueue α} {front : α}
    (h : q.pop = (some front, r)) :
    q.queue = front :: r.queue ∧ r.queueCapacity = q.queueCapacity := by
  unfold ThreadSafeQueue.pop at h
  split at h
  · cases h
  · rename_i first rest hq
    cases h
    exact ⟨hq, rfl⟩

def kMsgQueueSize : Nat := 256

/-- Five seconds; clock readings are in nanoseconds. -/
def kDropLogInterval : Int := 5000000000

inductive DropReport where
  | first (msgId : Int) (capacity : Nat)
  | window (dropped : UInt64) (seconds : Int) (total : UInt64)
  deriving DecidableEq, Repr

/-- The count a summary line prints. -/
def DropReport.summarised : DropReport → UInt64
  | .first _ _ => 0
  | .window dropped _ _ => dropped

/-- The state under `drop_log_mutex_`; no window is open before the first
report. -/
structure DropLog where
  droppedInWindow : UInt64 := 0
  firstDropReported : Bool := false
  lastDropLog : Int := 0
  reports : List DropReport := []
  closed : firstDropReported = false → droppedInWindow = 0 := by intro _; rfl
  deriving DecidableEq

/-- The locked section of `ReportDroppedMessage`; `total` is what `fetch_add`
returned to this caller, plus one. -/
def DropLog.report (log : DropLog) (msgId : Int) (total : UInt64) (now : Int) : DropLog :=
  if log.firstDropReported = false then
    { droppedInWindow := 0
      firstDropReported := true
      lastDropLog := now
      reports := log.reports ++ [.first msgId kMsgQueueSize]
      closed := fun _ => rfl }
  else if kDropLogInterval ≤ now - log.lastDropLog then
    { droppedInWindow := 0
      firstDropReported := log.firstDropReported
      lastDropLog := now
      reports := log.reports ++
        [.window (log.droppedInWindow + 1) ((now - log.lastDropLog).tdiv 1000000000) total]
      closed := fun _ => rfl }
  else
    { droppedInWindow := log.droppedInWindow + 1
      firstDropReported := true
      lastDropLog := log.lastDropLog
      reports := log.reports
      closed := fun h => by cases h }

/-- What the report lines and the open window account for. -/
def DropLog.accounted (log : DropLog) : UInt64 :=
  (if log.firstDropReported then 1 else 0) + (log.reports.map DropReport.summarised).sum +
    log.droppedInWindow

/-- Every dropped message is accounted for once, on either side of a roll-over. -/
theorem DropLog.report_accounted (log : DropLog) (msgId : Int) (total : UInt64) (now : Int) :
    (log.report msgId total now).accounted = log.accounted + 1 := by
  simp only [DropLog.report]
  split
  · rename_i fresh
    have closed := log.closed fresh
    simp only [DropLog.accounted, List.map_append, List.sum_append, fresh, closed]
    simp [DropReport.summarised]
    grind
  · rename_i reported
    have flag : log.firstDropReported = true := by simpa using reported
    split
    · simp only [DropLog.accounted, List.map_append, List.sum_append, flag]
      simp [DropReport.summarised]
      grind
    · simp only [DropLog.accounted, flag]
      grind

structure TaskMessage (α : Type u) where
  dest : Int
  msgId : Int
  data : α
  deriving DecidableEq, Repr

def kOk : Int := 0

def kEnqueue : Int := 12

def kThreadAbnormal : Int := 14

/-- A producer in `PushMessage`; in `logging` it has added to `dropped_total_`
and not yet taken the drop-log lock. -/
inductive CallStage where
  | checking
  | pushing
  | counting
  | logging (total : UInt64)
  | returned (error : Int)
  deriving DecidableEq, Repr

structure Call (α : Type u) where
  message : TaskMessage α
  stage : CallStage := .checking
  deriving DecidableEq, Repr

structure State (α : Type u) where
  /-- the status and the thread of the manager -/
  slot : Slot
  msgQueue : ThreadSafeQueue (TaskMessage α) := .make kMsgQueueSize
  droppedTotal : UInt64 := 0
  dropLog : DropLog := {}
  calls : List (Call α) := []
  /-- the calls whose message was queued, in the order of their pushes -/
  accepted : List (Nat × TaskMessage α) := []
  /-- the messages handed to `Process` -/
  handed : List (TaskMessage α) := []
  deriving DecidableEq

inductive Label (α : Type u) where
  | pushMessage (message : TaskMessage α)
  /-- `SendMessage` with the size of `thread_list_` and the pointer it reads there -/
  | sendMessage (dest : Int) (size : Nat) (pointer : Bool) (msgId : Int) (data : α)
  /-- the next step of a producer, with its clock reading -/
  | advance (j : Nat) (now : Int)
  | worker (act : WorkerAct)
  | setStatus (status : TaskNodeStatus)
  deriving DecidableEq, Repr

def State.begin (s : State α) (call : Call α) : State α := { s with calls := s.calls ++ [call] }

def State.setCall (s : State α) (j : Nat) (call : Call α) : State α :=
  { s with calls := s.calls.set j call }

/-- `PushMessage` and `ReportDroppedMessage`, one access to shared data at a time. -/
def State.advance (s : State α) (j : Nat) (call : Call α) (now : Int) : Option (State α) :=
  match call.stage with
  | .checking =>
    some (s.setCall j
      { call with stage := if s.slot.status = .running then .pushing else .returned kThreadAbnormal })
  | .pushing =>
    match s.msgQueue.push call.message with
    | some queue =>
      some
        { s.setCall j { call with stage := .returned kOk } with
          msgQueue := queue
          accepted := s.accepted ++ [(j, call.message)] }
    | none => some (s.setCall j { call with stage := .counting })
  | .counting =>
    some
      { s.setCall j { call with stage := .logging (s.droppedTotal + 1) } with
        droppedTotal := s.droppedTotal + 1 }
  | .logging total =>
    some
      { s.setCall j { call with stage := .returned kEnqueue } with
        dropLog := s.dropLog.report call.message.msgId total now }
  | .returned _ => none

/-- `ThreadEntry`; a message that is popped is handed to `Process` at once. -/
def State.work (s : State α) : WorkerAct → Option (State α)
  | .pop found =>
    match s.slot.work false (.pop found), s.msgQueue.pop with
    | some slot, (some front, queue) =>
      if found then some { s with slot := slot, msgQueue := queue, handed := s.handed ++ [front] }
      else none
    | some slot, (none, _) => if found then none else some { s with slot := slot }
    | none, _ => none
  | act => (s.slot.work false act).map fun slot => { s with slot := slot }

def step (id : Nat) (s : State α) : Label α → Option (State α)
  | .pushMessage message => some (s.begin { message := message })
  | .sendMessage dest size pointer msgId data =>
    let message : TaskMessage α := { dest := dest, msgId := msgId, data := data }
    if dest < 0 ∨ (size : Int) ≤ dest then
      some (s.begin { message := message, stage := .returned kDestInvalid })
    else if dest ≠ id then none
    else if pointer then some (s.begin { message := message })
    else some (s.begin { message := message, stage := .returned kDestInvalid })
  | .advance j now =>
    match s.calls[j]? with
    | some call => s.advance j call now
    | none => none
  | .worker act => s.work act
  | .setStatus status => some { s with slot := { s.slot with status := status } }

/-- The manager of entry `id`, with its thread just created. -/
def taskNodeMgr (name : String) (id : Nat) : Machine (State α) (Label α) where
  start := { slot := { name := name, worker := .created } }
  step := step id

def Call.returns (error : Int) (call : Call α) : Bool := call.stage = .returned error

def Call.isLogging (call : Call α) : Bool :=
  match call.stage with
  | .logging _ => true
  | _ => false

def State.enqueueReturns (s : State α) : Nat := s.calls.countP (Call.returns kEnqueue)

def State.betweenUpdates (s : State α) : Nat := s.calls.countP Call.isLogging

/-- The invariant: what went in is in one place, and every drop is counted. -/
structure Conserved (s : State α) : Prop where
  flow : s.handed ++ s.msgQueue.queue = s.accepted.map Prod.snd
  once : (s.accepted.map Prod.fst).Nodup
  kept : ∀ j message, (j, message) ∈ s.accepted ↔
    s.calls[j]? = some { message := message, stage := .returned kOk }
  capacity : s.msgQueue.queueCapacity = kMsgQueueSize
  total : s.droppedTotal = UInt64.ofNat (s.enqueueReturns + s.betweenUpdates)
  accounted : s.dropLog.accounted = UInt64.ofNat s.enqueueReturns

theorem start_conserved (name : String) (id : Nat) :
    Conserved (taskNodeMgr (α := α) name id).start where
  flow := rfl
  once := List.nodup_nil
  kept j message := by
    constructor
    · intro h
      cases h
    · intro h
      cases h
  capacity := rfl
  total := rfl
  accounted := by
    have none : DropLog.accounted {} = 0 := by decide
    exact none

theorem begin_conserved {s : State α} {call : Call α} (inv : Conserved s)
    (fresh : call.stage = .checking ∨ call.stage = .returned kDestInvalid) :
    Conserved (s.begin call) := by
  have unreturned : call.returns kEnqueue = false := by
    rcases fresh with h | h <;> simp [Call.returns, h, kDestInvalid, kEnqueue]
  have quiet : call.isLogging = false := by
    rcases fresh with h | h <;> simp [Call.isLogging, h]
  have returns : (s.begin call).enqueueReturns = s.enqueueReturns := by
    simp [State.enqueueReturns, State.begin, unreturned]
  have between : (s.begin call).betweenUpdates = s.betweenUpdates := by
    simp [State.betweenUpdates, State.begin, quiet]
  constructor
  · exact inv.flow
  · exact inv.once
  · intro j message
    rw [show (s.begin call).accepted = s.accepted from rfl, inv.kept j message]
    constructor
    · intro h
      exact appended_old h
    · intro h
      have appended : (s.calls ++ [call])[j]? =
          some { message := message, stage := .returned kOk } := h
      rcases appended_cases appended with old | ⟨-, last⟩
      · exact old
      · rcases fresh with h | h
        · rw [← last] at h
          cases h
        · rw [← last] at h
          simp [kOk, kDestInvalid] at h
  · exact inv.capacity
  · rw [returns, between]
    exact inv.total
  · rw [returns]
    exact inv.accounted

/-- A call that has not put its message into the queue is not among the accepted. -/
theorem Conserved.not_accepted {s : State α} (inv : Conserved s) {j : Nat} {call : Call α}
    (here : s.calls[j]? = some call) (unaccepted : call.stage ≠ .returned kOk)
    (message : TaskMessage α) : (j, message) ∉ s.accepted := by
  intro h
  have same := (inv.kept j message).mp h
  rw [here] at same
  cases same
  exact unaccepted rfl

/-- The accepted calls after a step of a call that does not accept. -/
theorem Conserved.kept_setCall {s : State α} (inv : Conserved s) {j : Nat} {call new : Call α}
    (here : s.calls[j]? = some call) (before : call.stage ≠ .returned kOk)
    (after : new.stage ≠ .returned kOk) (k : Nat) (message : TaskMessage α) :
    (k, message) ∈ s.accepted ↔
      (s.calls.set j new)[k]? = some { message := message, stage := .returned kOk } := by
  constructor
  · intro h
    have other : j ≠ k := by
      rintro rfl
      exact inv.not_accepted here before message h
    rw [List.getElem?_set_ne other]
    exact (inv.kept k message).mp h
  · intro h
    rcases replaced_cases here h with ⟨-, rfl⟩ | ⟨-, old⟩
    · exact absurd rfl after
    · exact (inv.kept k message).mpr old

theorem enqueueReturns_setCall {s : State α} {j : Nat} {call : Call α} (new : Call α)
    (here : s.calls[j]? = some call) :
    (s.setCall j new).enqueueReturns + (if call.returns kEnqueue then 1 else 0) =
      s.enqueueReturns + if new.returns kEnqueue then 1 else 0 :=
  countP_replaced _ here

theorem betweenUpdates_setCall {s : State α} {j : Nat} {call : Call α} (new : Call α)
    (here : s.calls[j]? = some call) :
    (s.setCall j new).betweenUpdates + (if call.isLogging then 1 else 0) =
      s.betweenUpdates + if new.isLogging then 1 else 0 :=
  countP_replaced _ here

/-- A producer moves on without touching the queue or a counter. -/
theorem Conserved.moved {s : State α} (inv : Conserved s) {j : Nat} {call new : Call α}
    (here : s.calls[j]? = some call) (before : call.stage = .checking ∨ call.stage = .pushing)
    (after : new.stage = .pushing ∨ new.stage = .counting ∨
      new.stage = .returned kThreadAbnormal) : Conserved (s.setCall j new) := by
  have returns := enqueueReturns_setCall new here
  have between := betweenUpdates_setCall new here
  have returnsSame : (s.setCall j new).enqueueReturns = s.enqueueReturns := by
    rcases before with h | h <;> rcases after with k | k | k <;>
      simpa [Call.returns, h, k, kThreadAbnormal, kEnqueue] using returns
  have betweenSame : (s.setCall j new).betweenUpdates = s.betweenUpdates := by
    rcases before with h | h <;> rcases after with k | k | k <;>
      simpa [Call.isLogging, h, k] using between
  constructor
  · exact inv.flow
  · exact inv.once
  · refine inv.kept_setCall here ?_ ?_
    · rcases before with h | h <;> simp [h]
    · rcases after with h | h | h <;> simp [h, kThreadAbnormal, kOk]
  · exact inv.capacity
  · rw [returnsSame, betweenSame]
    exact inv.total
  · rw [returnsSame]
    exact inv.accounted

theorem Conserved.pushed {s : State α} (inv : Conserved s) {j : Nat} {call : Call α}
    {queue : ThreadSafeQueue (TaskMessage α)} (here : s.calls[j]? = some call)
    (before : call.stage = .pushing) (h : s.msgQueue.push call.message = some queue) :
    Conserved
      { s.setCall j { call with stage := .returned kOk } with
        msgQueue := queue
        accepted := s.accepted ++ [(j, call.message)] } := by
  obtain ⟨longer, capacity⟩ := ThreadSafeQueue.push_some h
  have returns := enqueueReturns_setCall { call with stage := .returned kOk } here
  have between := betweenUpdates_setCall { call with stage := .returned kOk } here
  have returnsSame :
      (s.setCall j { call with stage := .returned kOk }).enqueueReturns = s.enqueueReturns := by
    simpa [Call.returns, before, kOk, kEnqueue] using returns
  have betweenSame :
      (s.setCall j { call with stage := .returned kOk }).betweenUpdates = s.betweenUpdates := by
    simpa [Call.isLogging, before] using between
  have unaccepted : call.stage ≠ .returned kOk := by simp [before]
  constructor
  · simp only [longer, List.map_append, List.map_cons, List.map_nil, ← inv.flow, List.append_assoc,
      State.setCall]
  · simp only [List.map_append, List.map_cons, List.map_nil]
    refine List.nodup_append.mpr ⟨inv.once, by simp, ?_⟩
    intro k hk l hl same
    obtain ⟨⟨index, message⟩, hmem, rfl⟩ := List.mem_map.mp hk
    cases List.mem_singleton.mp hl
    exact inv.not_accepted here unaccepted message (same ▸ hmem)
  · intro k message
    constructor
    · intro hmem
      rcases List.mem_append.mp hmem with old | new
      · have other : j ≠ k := by
          rintro rfl
          exact inv.not_accepted here unaccepted message old
        exact (List.getElem?_set_ne other).trans ((inv.kept k message).mp old)
      · cases List.mem_singleton.mp new
        exact replaced_self here
    · intro hget
      rcases replaced_cases here hget with ⟨rfl, same⟩ | ⟨-, old⟩
      · cases same
        exact List.mem_append_right _ (List.mem_singleton_self _)
      · exact List.mem_append_left _ ((inv.kept k message).mpr old)
  · exact capacity.trans inv.capacity
  · exact inv.total.trans (by rw [← returnsSame, ← betweenSame]; rfl)
  · exact inv.accounted.trans (by rw [← returnsSame]; rfl)

theorem Conserved.counted {s : State α} (inv : Conserved s) {j : Nat} {call : Call α}
    {total : UInt64} (here : s.calls[j]? = some call) (before : call.stage = .counting) :
    Conserved
      { s.setCall j { call with stage := .logging total } with
        droppedTotal := s.droppedTotal + 1 } := by
  have returns := enqueueReturns_setCall { call with stage := .logging total } here
  have between := betweenUpdates_setCall { call with stage := .logging total } here
  have returnsSame :
      (s.setCall j { call with stage := .logging total }).enqueueReturns = s.enqueueReturns := by
    simpa [Call.returns, before] using returns
  have betweenMore :
      (s.setCall j { call with stage := .logging total }).betweenUpdates =
        s.betweenUpdates + 1 := by
    simpa [Call.isLogging, before] using between
  constructor
  · exact inv.flow
  · exact inv.once
  · exact inv.kept_setCall here (by simp [before]) (by simp)
  · exact inv.capacity
  · have more : s.droppedTotal + 1 =
        UInt64.ofNat (s.enqueueReturns + (s.betweenUpdates + 1)) := by
      rw [inv.total, ← Nat.add_assoc, UInt64.ofNat_add (s.enqueueReturns + s.betweenUpdates) 1]
      rfl
    exact more.trans (by rw [← returnsSame, ← betweenMore]; rfl)
  · exact inv.accounted.trans (by rw [← returnsSame]; rfl)

theorem Conserved.reported {s : State α} (inv : Conserved s) {j : Nat} {call : Call α}
    {total : UInt64} (now : Int) (here : s.calls[j]? = some call)
    (before : call.stage = .logging total) :
    Conserved
      { s.setCall j { call with stage := .returned kEnqueue } with
        dropLog := s.dropLog.report call.message.msgId total now } := by
  have returns := enqueueReturns_setCall { call with stage := .returned kEnqueue } here
  have between := betweenUpdates_setCall { call with stage := .returned kEnqueue } here
  have returnsMore :
      (s.setCall j { call with stage := .returned kEnqueue }).enqueueReturns =
        s.enqueueReturns + 1 := by
    simpa [Call.returns, before] using returns
  have betweenLess :
      (s.setCall j { call with stage := .returned kEnqueue }).betweenUpdates + 1 =
        s.betweenUpdates := by
    simpa [Call.isLogging, before] using between
  constructor
  · exact inv.flow
  · exact inv.once
  · exact inv.kept_setCall here (by simp [before]) (by simp [kEnqueue, kOk])
  · exact inv.capacity
  · have sum : s.enqueueReturns + s.betweenUpdates =
        (s.setCall j { call with stage := .returned kEnqueue }).enqueueReturns +
          (s.setCall j { call with stage := .returned kEnqueue }).betweenUpdates := by
      omega
    exact inv.total.trans (congrArg UInt64.ofNat sum)
  · have more : s.dropLog.accounted + 1 = UInt64.ofNat (s.enqueueReturns + 1) := by
      rw [inv.accounted, UInt64.ofNat_add s.enqueueReturns 1]
      rfl
    have reported := DropLog.report_accounted s.dropLog call.message.msgId total now
    exact (reported.trans more).trans (congrArg UInt64.ofNat returnsMore.symm)

theorem advance_conserved {s t : State α} {j : Nat} {call : Call α} {now : Int}
    (inv : Conserved s) (here : s.calls[j]? = some call) (h : s.advance j call now = some t) :
    Conserved t := by
  cases stage : call.stage with
  | checking =>
    simp only [State.advance, stage] at h
    cases h
    refine inv.moved here (Or.inl stage) ?_
    by_cases running : s.slot.status = .running
    · exact Or.inl (by simp [running])
    · exact Or.inr (Or.inr (by simp [running]))
  | pushing =>
    simp only [State.advance, stage] at h
    split at h
    · rename_i queue pushed
      cases h
      exact inv.pushed here stage pushed
    · cases h
      exact inv.moved here (Or.inr stage) (Or.inr (Or.inl rfl))
  | counting =>
    simp only [State.advance, stage] at h
    cases h
    exact inv.counted here stage
  | logging total =>
    simp only [State.advance, stage] at h
    cases h
    exact inv.reported now here stage
  | returned error =>
    simp only [State.advance, stage] at h
    cases h

/-- The worker changes the thread and the status only, or takes the first message. -/
theorem work_cases {s t : State α} {act : WorkerAct} (h : s.work act = some t) :
    (∃ slot, t = { s with slot := slot }) ∨
      ∃ slot front queue, s.msgQueue.pop = (some front, queue) ∧
        t = { s with slot := slot, msgQueue := queue, handed := s.handed ++ [front] } := by
  have elsewhere : (s.slot.work false act).map (fun slot => { s with slot := slot }) = some t →
      ∃ slot, t = { s with slot := slot } := by
    intro moved
    obtain ⟨slot, -, rfl⟩ := Option.map_eq_some_iff.mp moved
    exact ⟨slot, rfl⟩
  cases act with
  | pop found =>
    simp only [State.work] at h
    split at h
    · rename_i slot front queue hwork hpop
      split at h
      · cases h
        exact Or.inr ⟨slot, front, queue, hpop, rfl⟩
      · cases h
    · rename_i slot queue hwork hpop
      split at h
      · cases h
      · cases h
        exact Or.inl ⟨slot, rfl⟩
    · cases h
  | start => exact Or.inl (elsewhere h)
  | initReturn ok => exact Or.inl (elsewhere h)
  | settle => exact Or.inl (elsewhere h)
  | check => exact Or.inl (elsewhere h)
  | processReturn => exact Or.inl (elsewhere h)

theorem work_conserved {s t : State α} {act : WorkerAct} (inv : Conserved s)
    (h : s.work act = some t) : Conserved t := by
  rcases work_cases h with ⟨slot, rfl⟩ | ⟨slot, front, queue, popped, rfl⟩
  · exact ⟨inv.flow, inv.once, inv.kept, inv.capacity, inv.total, inv.accounted⟩
  · obtain ⟨first, capacity⟩ := ThreadSafeQueue.pop_some popped
    refine ⟨?_, inv.once, inv.kept, capacity.trans inv.capacity, inv.total, inv.accounted⟩
    have flow := inv.flow
    rw [first] at flow
    calc
      s.handed ++ [front] ++ queue.queue = s.handed ++ (front :: queue.queue) := by simp
      _ = s.accepted.map Prod.snd := flow

theorem step_conserved {id : Nat} {s t : State α} {l : Label α} (inv : Conserved s)
    (h : step id s l = some t) : Conserved t := by
  cases l with
  | pushMessage message =>
    cases h
    exact begin_conserved inv (Or.inl rfl)
  | sendMessage dest size pointer msgId data =>
    simp only [step] at h
    split at h
    · cases h
      exact begin_conserved inv (Or.inr rfl)
    · split at h
      · cases h
      · split at h
        · cases h
          exact begin_conserved inv (Or.inl rfl)
        · cases h
          exact begin_conserved inv (Or.inr rfl)
  | advance j now =>
    simp only [step] at h
    split at h
    · rename_i call here
      exact advance_conserved inv here h
    · cases h
  | worker act => exact work_conserved inv h
  | setStatus status =>
    cases h
    exact ⟨inv.flow, inv.once, inv.kept, inv.capacity, inv.total, inv.accounted⟩

theorem run_conserved {name : String} {id : Nat} {s : State α}
    (run : Reachable (taskNodeMgr name id) s) : Conserved s :=
  run.invariant (start_conserved name id) fun _ _ _ inv h => step_conserved inv h

/-- In every run of one manager: the messages handed to `Process`, then those
still queued, are those of the calls that returned `kOk`, each call once, in
the order of their pushes; at most 256 are queued; and whenever no producer is
between the two updates, `dropped_total_` is the number of `kEnqueue` returns
and the sum of what has been reported and what the open window holds. -/
theorem queue_conserves (name : String) (id : Nat) {s : State α}
    (run : Reachable (taskNodeMgr name id) s) :
    s.handed ++ s.msgQueue.queue = s.accepted.map Prod.snd ∧
      (s.accepted.map Prod.fst).Nodup ∧
      (∀ j message, (j, message) ∈ s.accepted ↔
        s.calls[j]? = some { message := message, stage := .returned kOk }) ∧
      s.msgQueue.queue.length ≤ 256 ∧
      ((∀ call ∈ s.calls, call.isLogging = false) →
        s.droppedTotal = UInt64.ofNat s.enqueueReturns ∧
        s.droppedTotal = (if s.dropLog.firstDropReported then 1 else 0) +
          (s.dropLog.reports.map DropReport.summarised).sum + s.dropLog.droppedInWindow ∧
        (s.enqueueReturns < 2 ^ 64 → s.droppedTotal.toNat = s.enqueueReturns)) := by
  have inv := run_conserved run
  refine ⟨inv.flow, inv.once, inv.kept, ?_, ?_⟩
  · have bounded := s.msgQueue.bounded
    rw [inv.capacity] at bounded
    exact bounded
  · intro quiet
    have between : s.betweenUpdates = 0 := by
      refine List.countP_eq_zero.mpr ?_
      intro call hcall
      simp [quiet call hcall]
    have total : s.droppedTotal = UInt64.ofNat s.enqueueReturns := by
      have sum := inv.total
      rw [between, Nat.add_zero] at sum
      exact sum
    refine ⟨total, total.trans inv.accounted.symm, ?_⟩
    intro small
    rw [total]
    exact UInt64.toNat_ofNat_of_lt' small

section Producers

variable (name : String) (id : Nat) {s : State α}

/-- A producer that is not interrupted, to its return from `PushMessage` of a running node
with room. -/
theorem exec_queued (running : s.slot.status = .running) {message : TaskMessage α}
    {queue : ThreadSafeQueue (TaskMessage α)} (pushed : s.msgQueue.push message = some queue) :
    (taskNodeMgr name id).exec s
        [.pushMessage message, .advance s.calls.length 0, .advance s.calls.length 0] =
      some
        { s with
          msgQueue := queue
          calls := s.calls ++ [{ message := message, stage := .returned kOk }]
          accepted := s.accepted ++ [(s.calls.length, message)] } := by
  simp [Machine.exec, taskNodeMgr, step, State.begin, State.setCall, State.advance, running, pushed]

/-- The same for a node whose queue is full. -/
theorem exec_dropped (running : s.slot.status = .running) {message : TaskMessage α}
    (full : s.msgQueue.push message = none) (now : Int) :
    (taskNodeMgr name id).exec s
        (.pushMessage message :: List.replicate 4 (.advance s.calls.length now)) =
      some
        { s with
          calls := s.calls ++ [{ message := message, stage := .returned kEnqueue }]
          droppedTotal := s.droppedTotal + 1
          dropLog := s.dropLog.report message.msgId (s.droppedTotal + 1) now } := by
  simp [Machine.exec, taskNodeMgr, step, State.begin, State.setCall, State.advance, running, full,
    List.replicate]

/-- Producers one after the other, from call `k` on. -/
def queueing : Nat → List (TaskMessage α) → List (Label α)
  | _, [] => []
  | k, message :: rest =>
    [.pushMessage message, .advance k 0, .advance k 0] ++ queueing (k + 1) rest

theorem exec_queueing (messages : List (TaskMessage α)) (running : s.slot.status = .running)
    (room : s.msgQueue.queue.length + messages.length ≤ s.msgQueue.queueCapacity) :
    ∃ t, (taskNodeMgr name id).exec s (queueing s.calls.length messages) = some t ∧
      t.slot = s.slot ∧ t.droppedTotal = s.droppedTotal ∧ t.dropLog = s.dropLog ∧
      t.msgQueue.queue = s.msgQueue.queue ++ messages ∧
      t.msgQueue.queueCapacity = s.msgQueue.queueCapacity ∧
      t.calls = s.calls ++ messages.map fun m => { message := m, stage := .returned kOk } := by
  induction messages generalizing s with
  | nil => exact ⟨s, rfl, rfl, rfl, rfl, by simp⟩
  | cons message rest ih =>
    rw [List.length_cons] at room
    obtain ⟨queue, pushed⟩ : ∃ queue, s.msgQueue.push message = some queue := by
      refine Option.ne_none_iff_exists'.mp fun full => ?_
      have length := ThreadSafeQueue.push_none.mp full
      omega
    obtain ⟨grown, capacity⟩ := ThreadSafeQueue.push_some pushed
    have first := exec_queued name id running pushed
    obtain ⟨t, later, slot, total, log, queued, kept, calls⟩ := ih (s :=
      { s with
        msgQueue := queue
        calls := s.calls ++ [{ message := message, stage := .returned kOk }]
        accepted := s.accepted ++ [(s.calls.length, message)] })
      running (by rw [grown, capacity, List.length_append, List.length_singleton]; omega)
    refine ⟨t, ?_, slot, total, log, ?_, kept.trans capacity, ?_⟩
    · rw [queueing, Machine.exec_append, first]
      simpa using later
    · simpa [grown] using queued
    · simpa using calls

end Producers

/-- Two producers overtake each other: the second call is queued first and its
message is in `Process` when the first one is queued. -/
def overtaking : List (Label Nat) :=
  [.worker .start, .worker (.initReturn true), .worker .settle,
    .pushMessage ⟨2, 1, 0⟩, .sendMessage 2 5 true 3 1, .advance 0 0, .advance 1 0,
    .advance 1 0, .worker .check, .worker (.pop true), .advance 0 0]

/-- The messages that fill the queue behind the one in it. -/
def crowd : List (TaskMessage Nat) := List.ofFn fun j : Fin 255 => ⟨2, 3, j + 2⟩

/-- Two more messages find the queue full, the second one six seconds later. -/
def crowding : List (Label Nat) :=
  overtaking ++ (queueing 2 crowd ++
    ((.pushMessage ⟨2, 3, 257⟩ :: List.replicate 4 (.advance 257 0)) ++
      (.pushMessage ⟨2, 3, 258⟩ :: List.replicate 4 (.advance 258 6000000000))))

/-- One message is in `Process`, 256 are queued and two are dropped, with a line for each. -/
theorem crowding_conserves :
    ∃ s, (taskNodeMgr "InfProcess" 2).exec (taskNodeMgr "InfProcess" 2).start crowding = some s ∧
      s.handed ++ s.msgQueue.queue = s.accepted.map Prod.snd ∧
      s.msgQueue.queue = ⟨2, 1, 0⟩ :: crowd ∧
      s.dropLog.reports = [.first 3 256, .window 1 6 2] ∧ s.enqueueReturns = 2 ∧
      s.droppedTotal = UInt64.ofNat s.enqueueReturns := by
  obtain ⟨s, overtaken, running, queue, capacity, calls, total, log⟩ : ∃ s,
      (taskNodeMgr "InfProcess" 2).exec (taskNodeMgr "InfProcess" 2).start overtaking = some s ∧
      s.slot.status = .running ∧ s.msgQueue.queue = [⟨2, 1, 0⟩] ∧
      s.msgQueue.queueCapacity = 256 ∧
      s.calls = [⟨⟨2, 1, 0⟩, .returned kOk⟩, ⟨⟨2, 3, 1⟩, .returned kOk⟩] ∧
      s.droppedTotal = 0 ∧ s.dropLog = {} := ⟨_, rfl, rfl, rfl, rfl, rfl, rfl, rfl⟩
  have length : crowd.length = 255 := List.length_ofFn
  obtain ⟨t, filled, slot, total', log', queue', capacity', calls'⟩ :=
    exec_queueing "InfProcess" 2 crowd running (by rw [queue, capacity, length]; decide)
  have full (message : TaskMessage Nat) : t.msgQueue.push message = none := by
    rw [ThreadSafeQueue.push_none, queue', capacity', capacity, queue, List.length_append, length]
    rfl
  have many : t.calls.length = 257 := by
    rw [calls', calls, List.length_append, List.length_map, length]
    rfl
  have first := exec_dropped "InfProcess" 2 (slot ▸ running) (full ⟨2, 3, 257⟩) 0
  have second := exec_dropped "InfProcess" 2 (s :=
    { t with
      calls := t.calls ++ [{ message := ⟨2, 3, 257⟩, stage := .returned kEnqueue }]
      droppedTotal := t.droppedTotal + 1
      dropLog := t.dropLog.report 3 (t.droppedTotal + 1) 0 })
    (slot ▸ running) (full ⟨2, 3, 258⟩) 6000000000
  rw [many] at first
  rw [List.length_append, many] at second
  rw [calls] at filled
  have run := Machine.exec_trans overtaken (Machine.exec_trans filled (Machine.exec_trans first second))
  have conserved := queue_conserves "InfProcess" 2 (Machine.exec_reachable run)
  have settled : ∀ call ∈ t.calls, call.stage = .returned kOk := by
    intro call mem
    rw [calls', calls] at mem
    rcases List.mem_append.mp mem with early | later
    · rcases List.mem_pair.mp early with rfl | rfl
      · rfl
      · rfl
    · obtain ⟨message, -, rfl⟩ := List.mem_map.mp later
      rfl
  have returned : t.calls.countP (Call.returns kEnqueue) = 0 :=
    List.countP_eq_zero.mpr fun call mem => by
      simp [Call.returns, settled call mem, kOk, kEnqueue]
  have quiet : ∀ call ∈ t.calls ++ [{ message := ⟨2, 3, 257⟩, stage := .returned kEnqueue }] ++
      [{ message := ⟨2, 3, 258⟩, stage := .returned kEnqueue }], call.isLogging = false := by
    intro call mem
    simp only [List.mem_append, List.mem_singleton] at mem
    rcases mem with (old | rfl) | rfl
    · simp [Call.isLogging, settled call old]
    · rfl
    · rfl
  refine ⟨_, run, conserved.1, queue'.trans (by rw [queue, List.singleton_append]), ?_, ?_,
    (conserved.2.2.2.2 quiet).1⟩
  · simp only [log', log, total', total]
    rfl
  · simp [State.enqueueReturns, List.countP_append, returned, Call.returns]

end MessageQueues
