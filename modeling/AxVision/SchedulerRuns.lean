import AxVision.TransitionRuns
import AxVision.ReplacedEntries

/-!
# Threads of the task scheduler

The main thread starts the nodes and later releases them; every node has a
worker thread in `ThreadEntry`; operations on `thread_list_` are called by
workers from `Init` and `Process`, by the main thread before it releases, and
by threads the scheduler does not know. A label is one access to shared data.
Messages are left out: a pop finds one or it does not.
-/

namespace SchedulerRuns

open TransitionRuns ReplacedEntries

inductive TaskNodeStatus where
  | ready
  | running
  | exiting
  | exited
  | error
  deriving DecidableEq, Repr

/-- Where the thread of a manager stands in `ThreadEntry`. -/
inductive Worker where
  /-- `CreateThread` has not been called -/
  | absent
  | created
  | inInit
  /-- `Init` returned 0, the status is not set yet -/
  | initialised
  | initFailed
  /-- at the condition of the loop -/
  | loopHead
  /-- the condition held, the queue has not been read -/
  | popping
  | inProcess
  /-- the condition failed -/
  | leaving
  | ended
  deriving DecidableEq, Repr

/-- An entry of `thread_list_` and the manager it was made for. -/
structure Slot where
  name : String
  status : TaskNodeStatus := .ready
  /-- the entry is not null -/
  pointer : Bool := true
  /-- the manager has not been deleted -/
  live : Bool := true
  worker : Worker := .absent
  deriving DecidableEq, Repr

/-- The main thread in `Start`, between calls and in `ReleaseThreads`. -/
inductive MainPhase where
  | adding
  | creating (i : Nat)
  | waiting (i : Nat)
  | serving
  | failed
  | markMain
  | marking (i : Nat)
  /-- the status of entry `i` read `kRunning` -/
  | markSet (i : Nat)
  | joining (i : Nat)
  | deleting (i : Nat)
  | nulling (i : Nat)
  | deletingMain
  | nullingMain
  | released
  deriving DecidableEq, Repr

inductive Caller where
  | main
  | worker (i : Nat)
  | outside
  deriving DecidableEq, Repr

inductive Operation where
  | sendMessage (dest : Int)
  | taskNodeIdByName (name : String)
  | isNodeNameUnique (name : String)
  | isThreadAbnormal
  /-- `Wait` with a handler, up to the end of its loop -/
  | waitMessages
  /-- the last statement of both `Wait` -/
  | waitEnd
  deriving DecidableEq, Repr

/-- Before the read of an entry, between its read and the last use, or returned
(`none` where the scheduler's model does not settle the value: `PushMessage`
answers by the queue, and `Wait` returns nothing). -/
inductive Stage where
  | reading
  | holding (pointer : Bool)
  | returned (result : Option Int)
  deriving DecidableEq, Repr

structure Op where
  caller : Caller
  kind : Operation
  entry : Nat := 0
  stage : Stage := .reading
  deriving DecidableEq, Repr

/-- A use of entry `entry` through a null pointer or after the deletion. -/
structure Fault where
  entry : Nat
  null : Bool
  deriving DecidableEq, Repr

structure State where
  slots : List Slot
  main : MainPhase := .adding
  ops : List Op := []
  faults : List Fault := []
  deriving DecidableEq, Repr

inductive WorkerAct where
  | start
  | initReturn (ok : Bool)
  | settle
  | check
  | pop (found : Bool)
  | processReturn
  deriving DecidableEq, Repr

inductive Label where
  /-- `CreateTaskNodeMgr` for the next node, whose `BaseConfig` succeeds or not -/
  | add (configured : Bool)
  | main
  | exit
  | worker (i : Nat) (act : WorkerAct)
  | begin (caller : Caller) (kind : Operation)
  | read (j : Nat)
  | use (j : Nat) (last : Bool)
  deriving DecidableEq, Repr

def kInvalidInstanceId : Int := -1

def kDestInvalid : Int := 10

/-- One step of `ThreadEntry`; `busy` while an operation called from the node
has not returned. -/
def Slot.work (slot : Slot) (busy : Bool) : WorkerAct → Option Slot
  | .start => if slot.worker = .created then some { slot with worker := .inInit } else none
  | .initReturn ok =>
    if slot.worker = .inInit ∧ busy = false then
      some { slot with worker := if ok then .initialised else .initFailed }
    else none
  | .settle =>
    match slot.worker with
    | .initialised => some { slot with status := .running, worker := .loopHead }
    | .initFailed => some { slot with status := .error, worker := .ended }
    | .leaving => some { slot with status := .exited, worker := .ended }
    | _ => none
  | .check =>
    if slot.worker = .loopHead then
      some { slot with worker := if slot.status = .running then .popping else .leaving }
    else none
  | .pop found =>
    if slot.worker = .popping then
      some { slot with worker := if found then .inProcess else .loopHead }
    else none
  | .processReturn =>
    if slot.worker = .inProcess ∧ busy = false then some { slot with worker := .loopHead }
    else none

def Op.isOpen (op : Op) (caller : Caller) : Bool :=
  op.caller = caller && match op.stage with
    | .returned _ => false
    | _ => true

/-- The operation stands between its read of entry `i` and its last use of it. -/
def Op.holds (op : Op) (i : Nat) : Bool :=
  match op.stage with
  | .holding _ => op.entry = i
  | _ => false

def State.busy (s : State) (caller : Caller) : Bool := s.ops.any (·.isOpen caller)

def State.put (s : State) (i : Nat) (slot : Slot) : State := { s with slots := s.slots.set i slot }

/-- `std::thread::join` returns at once when there is no thread. -/
def Slot.joinable (slot : Slot) : Bool := slot.worker = .absent || slot.worker = .ended

/-- `TaskScheduler::Start` after the nodes have been added, and `ReleaseThreads`. -/
def State.mainStep (s : State) : Option State :=
  match s.main with
  | .creating i =>
    match s.slots[i]? with
    | some slot => some { s.put i { slot with worker := .created } with main := .creating (i + 1) }
    | none => some { s with main := .waiting 1 }
  | .waiting i =>
    match s.slots[i]? with
    | some slot =>
      if slot.status = .running then some { s with main := .waiting (i + 1) }
      else if slot.status = .ready then none
      else some { s with main := .failed }
    | none => some { s with main := .serving }
  | .markMain =>
    match s.slots[0]? with
    | some slot =>
      if slot.pointer then some { s.put 0 { slot with status := .exited } with main := .marking 1 }
      else some { s with main := .marking 1 }
    | none => some { s with main := .marking 1 }
  | .marking i =>
    match s.slots[i]? with
    | some slot =>
      if slot.pointer = true ∧ slot.status = .running then some { s with main := .markSet i }
      else some { s with main := .marking (i + 1) }
    | none => some { s with main := .joining 1 }
  | .markSet i =>
    match s.slots[i]? with
    | some slot => some { s.put i { slot with status := .exiting } with main := .marking (i + 1) }
    | none => none
  | .joining i =>
    match s.slots[i]? with
    | some slot =>
      if slot.pointer = false then some { s with main := .joining (i + 1) }
      else if slot.joinable then some { s with main := .deleting i }
      else none
    | none => some { s with main := .deletingMain }
  | .deleting i =>
    match s.slots[i]? with
    | some slot => some { s.put i { slot with live := false } with main := .nulling i }
    | none => none
  | .nulling i =>
    match s.slots[i]? with
    | some slot =>
      some { s.put i { slot with pointer := false } with main := .joining (i + 1) }
    | none => none
  | .deletingMain =>
    match s.slots[0]? with
    | some slot =>
      if slot.pointer then some { s.put 0 { slot with live := false } with main := .nullingMain }
      else some { s with main := .released }
    | none => some { s with main := .released }
  | .nullingMain =>
    match s.slots[0]? with
    | some slot => some { s.put 0 { slot with pointer := false } with main := .released }
    | none => none
  | _ => none

/-- `SendMessage` and the loop of `Wait` check the entry for null. -/
def Operation.guarded : Operation → Bool
  | .sendMessage _ => true
  | .waitMessages => true
  | _ => false

/-- The result of a guarded operation that finds a null entry. -/
def Operation.refused : Operation → Option Int
  | .sendMessage _ => some kDestInvalid
  | _ => none

/-- The result of an operation that runs past the last entry. -/
def Operation.exhausted : Operation → Int
  | .isNodeNameUnique _ => 1
  | .isThreadAbnormal => 0
  | _ => kInvalidInstanceId

/-- What an operation does before it reads an entry. -/
def Operation.enter (caller : Caller) (size : Nat) (kind : Operation) : Op :=
  match kind with
  | .sendMessage dest =>
    if dest < 0 ∨ (size : Int) ≤ dest then ⟨caller, kind, 0, .returned (some kDestInvalid)⟩
    else ⟨caller, kind, dest.toNat, .reading⟩
  | .taskNodeIdByName name =>
    if name = "" then ⟨caller, kind, 0, .returned (some kInvalidInstanceId)⟩
    else ⟨caller, kind, 0, .reading⟩
  | .isNodeNameUnique name =>
    if name = "" then ⟨caller, kind, 0, .returned (some 1)⟩
    else ⟨caller, kind, 0, .reading⟩
  | _ => ⟨caller, kind, 0, .reading⟩

/-- The read of `thread_list_[entry]`, with the bound of the loop before it. -/
def Op.readEntry (op : Op) (slots : List Slot) : Op :=
  match slots[op.entry]? with
  | none => { op with stage := .returned (some op.kind.exhausted) }
  | some slot =>
    if op.kind.guarded = true ∧ slot.pointer = false then
      { op with stage := .returned op.kind.refused }
    else { op with stage := .holding slot.pointer }

def Op.onward (op : Op) : Op := { op with entry := op.entry + 1, stage := .reading }

def Op.finish (op : Op) (result : Option Int) : Op := { op with stage := .returned result }

/-- What a use of the held manager leads to; `last` ends a sequence of uses. -/
def Op.useEntry (op : Op) (slot : Slot) (last : Bool) : Op × Slot :=
  match op.kind with
  | .sendMessage _ => (if last then op.finish none else op, slot)
  | .taskNodeIdByName name =>
    (if slot.name = name then op.finish (some op.entry) else op.onward, slot)
  | .isNodeNameUnique name => (if slot.name = name then op.finish (some 0) else op.onward, slot)
  | .isThreadAbnormal => (if slot.status = .error then op.finish (some 1) else op.onward, slot)
  | .waitMessages => (if last then { op with kind := .waitEnd, stage := .reading } else op, slot)
  | .waitEnd => (op.finish none, { slot with status := .exited })

/-- A caller may begin an operation when it has none open: a worker inside its
node, the main thread between `Start` and `ReleaseThreads`. -/
def State.mayCall (s : State) : Caller → Bool
  | .main => (s.main = .serving || s.main = .failed) && !s.busy .main
  | .worker i =>
    match s.slots[i]? with
    | some slot => (slot.worker = .inInit || slot.worker = .inProcess) && !s.busy (.worker i)
    | none => false
  | .outside => true

def State.setOp (s : State) (j : Nat) (op : Op) : State := { s with ops := s.ops.set j op }

def step (nodes : List String) (s : State) : Label → Option State
  | .add configured =>
    if s.main = .adding then
      match nodes[s.slots.length - 1]? with
      | none => some { s with main := .creating 1 }
      | some name =>
        if configured = true ∧ (name = "" ∨ ∀ slot ∈ s.slots, slot.name ≠ name) then
          some { s with slots := s.slots ++ [{ name := name }] }
        else some { s with main := .failed }
    else none
  | .main => s.mainStep
  | .exit =>
    if (s.main = .serving ∨ s.main = .failed) ∧ s.busy .main = false then
      some { s with main := .markMain }
    else none
  | .worker i act =>
    match s.slots[i]? with
    | some slot => (slot.work (s.busy (.worker i)) act).map (s.put i)
    | none => none
  | .begin caller kind =>
    if s.mayCall caller then
      some { s with ops := s.ops ++ [kind.enter caller s.slots.length] }
    else none
  | .read j =>
    match s.ops[j]? with
    | some op => if op.stage = .reading then some (s.setOp j (op.readEntry s.slots)) else none
    | none => none
  | .use j last =>
    match s.ops[j]? with
    | some op =>
      match op.stage, s.slots[op.entry]? with
      | .holding pointer, some slot =>
        if pointer = true ∧ slot.live = true then
          let used := op.useEntry slot last
          some ((s.setOp j used.1).put op.entry used.2)
        else
          -- undefined behaviour: the operation is not followed further
          some
            { s.setOp j (op.finish none) with
              faults := s.faults ++ [⟨op.entry, !pointer⟩] }
      | _, _ => none
    | none => none

/-- `TaskScheduler::Init` has made the manager of the main thread. -/
def scheduler (nodes : List String) : Machine State Label where
  start := { slots := [{ name := "main", status := .running }] }
  step := step nodes

/-- The operations of the main thread on its own entry stay there. -/
def OnMainEntry (s : State) : Prop :=
  ∀ op ∈ s.ops, op.kind = .waitMessages ∨ op.kind = .waitEnd → op.entry = 0

theorem useEntry_slot {op : Op} {slot : Slot} {last : Bool} (notEnd : op.kind ≠ .waitEnd) :
    (op.useEntry slot last).2 = slot := by
  unfold Op.useEntry
  split <;> first | rfl | exact absurd ‹_› notEnd

theorem useEntry_live (op : Op) (slot : Slot) (last : Bool) :
    (op.useEntry slot last).2.live = slot.live ∧
      (op.useEntry slot last).2.pointer = slot.pointer ∧
      (op.useEntry slot last).2.worker = slot.worker := by
  unfold Op.useEntry
  split <;> exact ⟨rfl, rfl, rfl⟩

theorem enter_onMain (caller : Caller) (size : Nat) (kind : Operation)
    (h : (kind.enter caller size).kind = .waitMessages ∨
      (kind.enter caller size).kind = .waitEnd) : (kind.enter caller size).entry = 0 := by
  cases kind with
  | sendMessage dest =>
    simp only [Operation.enter] at h
    split at h <;> rcases h with h | h <;> cases h
  | taskNodeIdByName name =>
    simp only [Operation.enter] at h
    split at h <;> rcases h with h | h <;> cases h
  | isNodeNameUnique name =>
    simp only [Operation.enter] at h
    split at h <;> rcases h with h | h <;> cases h
  | _ => rfl

theorem readEntry_kind (op : Op) (slots : List Slot) :
    (op.readEntry slots).kind = op.kind ∧ (op.readEntry slots).entry = op.entry := by
  unfold Op.readEntry
  split
  · exact ⟨rfl, rfl⟩
  · split <;> exact ⟨rfl, rfl⟩

theorem useEntry_onMain {op : Op} {slot : Slot} {last : Bool}
    (before : op.kind = .waitMessages ∨ op.kind = .waitEnd → op.entry = 0)
    (after : (op.useEntry slot last).1.kind = .waitMessages ∨
      (op.useEntry slot last).1.kind = .waitEnd) : (op.useEntry slot last).1.entry = 0 := by
  cases kind : op.kind with
  | waitMessages =>
    simp only [Op.useEntry, kind]
    split <;> exact before (Or.inl kind)
  | waitEnd =>
    simp only [Op.useEntry, kind]
    exact before (Or.inr kind)
  | sendMessage dest =>
    simp only [Op.useEntry, kind] at after
    split at after <;> simp [Op.finish, kind] at after
  | taskNodeIdByName name =>
    simp only [Op.useEntry, kind] at after
    split at after <;> simp [Op.finish, Op.onward, kind] at after
  | isNodeNameUnique name =>
    simp only [Op.useEntry, kind] at after
    split at after <;> simp [Op.finish, Op.onward, kind] at after
  | isThreadAbnormal =>
    simp only [Op.useEntry, kind] at after
    split at after <;> simp [Op.finish, Op.onward, kind] at after

/-- What still holds after a use holds the same entry as before. -/
theorem useEntry_holding {op : Op} {slot : Slot} {last pointer : Bool}
    (h : (op.useEntry slot last).1.stage = .holding pointer) :
    op.stage = .holding pointer ∧ (op.useEntry slot last).1.entry = op.entry := by
  cases kind : op.kind with
  | sendMessage dest =>
    simp only [Op.useEntry, kind] at h ⊢
    cases last with
    | true => cases h
    | false => exact ⟨h, rfl⟩
  | waitMessages =>
    simp only [Op.useEntry, kind] at h ⊢
    cases last with
    | true => cases h
    | false => exact ⟨h, rfl⟩
  | waitEnd =>
    simp only [Op.useEntry, kind] at h
    cases h
  | _ =>
    simp only [Op.useEntry, kind] at h
    split at h <;> cases h

theorem mainStep_ops {s t : State} (h : s.mainStep = some t) :
    t.ops = s.ops ∧ t.faults = s.faults := by
  unfold State.mainStep at h
  repeat' split at h
  all_goals first | cases h; exact ⟨rfl, rfl⟩ | cases h

/-- What `use` can do to the state. -/
theorem use_cases {nodes : List String} {s t : State} {j : Nat} {last : Bool}
    (h : step nodes s (.use j last) = some t) :
    ∃ op pointer slot, s.ops[j]? = some op ∧ op.stage = .holding pointer ∧
      s.slots[op.entry]? = some slot ∧
      ((pointer = true ∧ slot.live = true ∧
          t = (s.setOp j (op.useEntry slot last).1).put op.entry (op.useEntry slot last).2) ∨
        (¬(pointer = true ∧ slot.live = true) ∧
          t = { s.setOp j (op.finish none) with
            faults := s.faults ++ [⟨op.entry, !pointer⟩] })) := by
  simp only [step] at h
  split at h
  · rename_i op hop
    split at h
    · rename_i pointer slot hstage hslot
      refine ⟨op, pointer, slot, hop, hstage, hslot, ?_⟩
      by_cases good : pointer = true ∧ slot.live = true
      · rw [if_pos good] at h
        exact Or.inl ⟨good.1, good.2, (Option.some.inj h).symm⟩
      · rw [if_neg good] at h
        exact Or.inr ⟨good, (Option.some.inj h).symm⟩
    · cases h
  · cases h

theorem read_cases {nodes : List String} {s t : State} {j : Nat}
    (h : step nodes s (.read j) = some t) :
    ∃ op, s.ops[j]? = some op ∧ op.stage = .reading ∧ t = s.setOp j (op.readEntry s.slots) := by
  simp only [step] at h
  split at h
  · rename_i op hop
    split at h
    · exact ⟨op, hop, ‹_›, (Option.some.inj h).symm⟩
    · cases h
  · cases h

theorem begin_cases {nodes : List String} {s t : State} {caller : Caller} {kind : Operation}
    (h : step nodes s (.begin caller kind) = some t) :
    s.mayCall caller = true ∧
      t = { s with ops := s.ops ++ [kind.enter caller s.slots.length] } := by
  simp only [step] at h
  split at h
  · exact ⟨‹_›, (Option.some.inj h).symm⟩
  · cases h

theorem worker_cases {nodes : List String} {s t : State} {i : Nat} {act : WorkerAct}
    (h : step nodes s (.worker i act) = some t) :
    ∃ slot new, s.slots[i]? = some slot ∧ slot.work (s.busy (.worker i)) act = some new ∧
      t = s.put i new := by
  simp only [step] at h
  split at h
  · rename_i slot hslot
    obtain ⟨new, hnew, ht⟩ := Option.map_eq_some_iff.mp h
    exact ⟨slot, new, hslot, hnew, ht.symm⟩
  · cases h

theorem add_cases {nodes : List String} {s t : State} {configured : Bool}
    (h : step nodes s (.add configured) = some t) :
    s.main = .adding ∧ (t = { s with main := .creating 1 } ∨ t = { s with main := .failed } ∨
      ∃ name, t = { s with slots := s.slots ++ [{ name := name }] }) := by
  simp only [step] at h
  split at h
  · refine ⟨‹_›, ?_⟩
    split at h
    · exact Or.inl (Option.some.inj h).symm
    · split at h
      · exact Or.inr (Or.inr ⟨_, (Option.some.inj h).symm⟩)
      · exact Or.inr (Or.inl (Option.some.inj h).symm)
  · cases h

theorem exit_cases {nodes : List String} {s t : State} (h : step nodes s .exit = some t) :
    (s.main = .serving ∨ s.main = .failed) ∧ t = { s with main := .markMain } := by
  simp only [step] at h
  split at h
  · rename_i allowed
    exact ⟨allowed.1, (Option.some.inj h).symm⟩
  · cases h

theorem mem_setOp {s : State} {j : Nat} {new op : Op} (h : op ∈ (s.setOp j new).ops) :
    op ∈ s.ops ∨ op = new :=
  List.mem_or_eq_of_mem_set h

theorem onMainEntry_step {nodes : List String} {s t : State} {l : Label} (inv : OnMainEntry s)
    (h : step nodes s l = some t) : OnMainEntry t := by
  cases l with
  | add configured =>
    obtain ⟨-, rfl | rfl | ⟨name, rfl⟩⟩ := add_cases h <;> exact inv
  | main =>
    have same := (mainStep_ops (s := s) h).1
    intro op hop
    exact inv op (same ▸ hop)
  | exit =>
    obtain ⟨-, rfl⟩ := exit_cases h
    exact inv
  | worker i act =>
    obtain ⟨slot, new, -, -, rfl⟩ := worker_cases h
    exact inv
  | begin caller kind =>
    obtain ⟨-, rfl⟩ := begin_cases h
    intro op hop kinds
    rcases List.mem_append.mp hop with old | new
    · exact inv op old kinds
    · cases List.mem_singleton.mp new
      exact enter_onMain caller _ kind kinds
  | read j =>
    obtain ⟨op, hop, -, rfl⟩ := read_cases h
    obtain ⟨kind, entry⟩ := readEntry_kind op s.slots
    intro other hother kinds
    rcases mem_setOp hother with old | rfl
    · exact inv other old kinds
    · rw [kind] at kinds
      rw [entry]
      exact inv op (List.mem_of_getElem? hop) kinds
  | use j last =>
    obtain ⟨op, pointer, slot, hop, -, -, ⟨-, -, rfl⟩ | ⟨-, rfl⟩⟩ := use_cases h
    · intro other hother kinds
      rcases mem_setOp hother with old | rfl
      · exact inv other old kinds
      · exact useEntry_onMain (inv op (List.mem_of_getElem? hop)) kinds
    · intro other hother kinds
      rcases mem_setOp hother with old | rfl
      · exact inv other old kinds
      · exact inv op (List.mem_of_getElem? hop) kinds

/-- Operations leave the entries of the nodes as they are. -/
theorem operation_keeps {nodes : List String} {s t : State} {l : Label} (inv : OnMainEntry s)
    (h : step nodes s l = some t)
    (operation : (∃ caller kind, l = .begin caller kind) ∨ (∃ j, l = .read j) ∨
      ∃ j last, l = .use j last) :
    t.main = s.main ∧ ∀ i, 1 ≤ i → t.slots[i]? = s.slots[i]? := by
  rcases operation with ⟨caller, kind, rfl⟩ | ⟨j, rfl⟩ | ⟨j, last, rfl⟩
  · obtain ⟨-, rfl⟩ := begin_cases h
    exact ⟨rfl, fun _ _ => rfl⟩
  · obtain ⟨op, -, -, rfl⟩ := read_cases h
    exact ⟨rfl, fun _ _ => rfl⟩
  · obtain ⟨op, pointer, slot, hop, -, hslot, ⟨-, -, rfl⟩ | ⟨-, rfl⟩⟩ := use_cases h
    · refine ⟨rfl, fun i hi => ?_⟩
      have here : ((s.setOp j (op.useEntry slot last).1).put op.entry
          (op.useEntry slot last).2).slots = s.slots.set op.entry (op.useEntry slot last).2 := rfl
      rw [here]
      by_cases ending : op.kind = .waitEnd
      · have zero := inv op (List.mem_of_getElem? hop) (Or.inr ending)
        exact List.getElem?_set_ne (by omega)
      · rw [useEntry_slot ending]
        by_cases same : op.entry = i
        · have bound := (List.getElem?_eq_some_iff.mp hslot).1
          rw [← same, List.getElem?_set_self bound, hslot]
        · exact List.getElem?_set_ne same
    · exact ⟨rfl, fun _ _ => rfl⟩

/-- What an operation leaves of every entry: only the status of the main one changes. -/
theorem operation_entry {nodes : List String} {s t : State} {l : Label}
    (h : step nodes s l = some t)
    (operation : (∃ caller kind, l = .begin caller kind) ∨ (∃ j, l = .read j) ∨
      ∃ j last, l = .use j last) :
    t.slots.length = s.slots.length ∧ ∀ (i : Nat) (slot : Slot), t.slots[i]? = some slot →
      ∃ old, s.slots[i]? = some old ∧ slot.live = old.live ∧ slot.pointer = old.pointer ∧
        slot.worker = old.worker := by
  rcases operation with ⟨caller, kind, rfl⟩ | ⟨j, rfl⟩ | ⟨j, last, rfl⟩
  · obtain ⟨-, rfl⟩ := begin_cases h
    exact ⟨rfl, fun i slot hslot => ⟨slot, hslot, rfl, rfl, rfl⟩⟩
  · obtain ⟨op, -, -, rfl⟩ := read_cases h
    exact ⟨rfl, fun i slot hslot => ⟨slot, hslot, rfl, rfl, rfl⟩⟩
  · obtain ⟨op, pointer, entry, -, -, hentry, ⟨-, -, rfl⟩ | ⟨-, rfl⟩⟩ := use_cases h
    · refine ⟨List.length_set, fun i slot hslot => ?_⟩
      rcases replaced_cases hentry hslot with ⟨rfl, rfl⟩ | ⟨-, before⟩
      · exact ⟨entry, hentry, useEntry_live op entry last⟩
      · exact ⟨slot, before, rfl, rfl, rfl⟩
    · exact ⟨rfl, fun i slot hslot => ⟨slot, hslot, rfl, rfl, rfl⟩⟩

end SchedulerRuns
