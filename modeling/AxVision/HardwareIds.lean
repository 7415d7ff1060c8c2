import AxVision.TransitionRuns
import AxVision.ReplacedEntries

/-!
# Hardware ids shared between processes

`HwIdAllocator` keeps one slot per hardware id in shared memory, under a robust
mutex, and writes the pid of the owning process into it. A component is a user
of the allocator with one id at a time; many components share the pid of their
process. A process that has terminated takes no more steps and leaves the mutex
to the next locker; `kill` finds it until it is reaped.
-/

namespace HardwareIds

open TransitionRuns ReplacedEntries

inductive HwIdKind where
  | kIvps
  | kVdec
  | kVenc
  deriving DecidableEq, Repr

def kIvpsMax : Nat := 256

def kVdecMax : Nat := 164

def kVencMax : Nat := 64

structure ShmLayout where
  ivpsPid : List Nat
  vdecPid : List Nat
  vencPid : List Nat
  deriving DecidableEq, Repr

/-- `InitLayout` clears the whole layout. -/
def initLayout : ShmLayout where
  ivpsPid := List.replicate kIvpsMax 0
  vdecPid := List.replicate kVdecMax 0
  vencPid := List.replicate kVencMax 0

def ShmLayout.slots (layout : ShmLayout) : HwIdKind → List Nat
  | .kIvps => layout.ivpsPid
  | .kVdec => layout.vdecPid
  | .kVenc => layout.vencPid

def ShmLayout.setSlot (layout : ShmLayout) (kind : HwIdKind) (i pid : Nat) : ShmLayout :=
  match kind with
  | .kIvps => { layout with ivpsPid := layout.ivpsPid.set i pid }
  | .kVdec => { layout with vdecPid := layout.vdecPid.set i pid }
  | .kVenc => { layout with vencPid := layout.vencPid.set i pid }

theorem slots_setSlot_self (layout : ShmLayout) (kind : HwIdKind) (i pid : Nat) :
    (layout.setSlot kind i pid).slots kind = (layout.slots kind).set i pid := by
  cases kind <;> rfl

theorem slots_setSlot_other (layout : ShmLayout) {kind other : HwIdKind} (i pid : Nat)
    (apart : other ≠ kind) : (layout.setSlot kind i pid).slots other = layout.slots other := by
  cases kind <;> cases other <;> first | rfl | exact absurd rfl apart

/-- Why `Acquire` returned -1; `full` tells whether every slot of the kind had a
live owner when the lock was taken. -/
inductive Refusal where
  | noShm
  | lockFailed
  | exhausted (full : Bool)
  deriving DecidableEq, Repr

/-- A component between its calls, in `Acquire` and in `Release`. -/
inductive Phase where
  | idle
  | acquireEnsure
  | acquireLock
  /-- the lock was taken over from a dead owner -/
  | acquireConsistent (full : Bool)
  | scanning (i : Nat) (full : Bool)
  /-- slot `i` was free, or its owner dead -/
  | claiming (i : Nat)
  | acquireUnlock (result : Option Nat) (full : Bool)
  | holding (id : Nat)
  | refused (reason : Refusal)
  | releaseEnsure (id : Nat)
  | releaseLock (id : Nat)
  | releaseConsistent (id : Nat)
  | testing (id : Nat)
  | clearing (id : Nat)
  | releaseUnlock
  deriving DecidableEq, Repr

structure Process where
  pid : Nat
  running : Bool := true
  reaped : Bool := false
  /-- the result of `EnsureShm`, once it has been called -/
  shm : Option Bool := none
  deriving DecidableEq, Repr

structure Component where
  process : Nat
  kind : HwIdKind
  phase : Phase := .idle
  deriving DecidableEq, Repr

structure State where
  layout : ShmLayout := initLayout
  /-- the component whose thread owns the mutex, dead or alive -/
  mutex : Option Nat := none
  processes : List Process := []
  components : List Component := []
  deriving DecidableEq, Repr

inductive Label where
  | spawn (pid : Nat)
  | create (p : Nat) (kind : HwIdKind)
  | die (p : Nat)
  | reap (p : Nat)
  | acquire (c : Nat)
  | release (c : Nat)
  /-- the next step inside a call; `ok`: `EnsureShm` or the lock succeeds -/
  | advance (c : Nat) (ok : Bool)
  deriving DecidableEq, Repr

/-- `PidAlive`: some process that has not been reaped has this pid. -/
def State.pidAlive (s : State) (pid : Nat) : Bool :=
  pid ≠ 0 && s.processes.any fun process => !process.reaped && process.pid = pid

def State.setPhase (s : State) (c : Nat) (component : Component) (phase : Phase) : State :=
  { s with components := s.components.set c { component with phase := phase } }

/-- The thread that owns the mutex can still unlock it. -/
def State.ownerRuns (s : State) (owner : Nat) : Bool :=
  match s.components[owner]? with
  | some component =>
    match s.processes[component.process]? with
    | some process => process.running
    | none => false
  | none => false

/-- `pthread_mutex_lock` of a robust mutex: free, abandoned (`EOWNERDEAD`) or blocked. -/
def State.lock (s : State) : Option Bool :=
  match s.mutex with
  | none => some false
  | some owner => if s.ownerRuns owner then none else some true

/-- Every slot of the kind has a live owner. -/
def State.full (s : State) (kind : HwIdKind) : Bool := (s.layout.slots kind).all s.pidAlive

/-- `EnsureShm` runs once in a process and keeps its result. -/
def State.ensureShm (s : State) (p : Nat) (process : Process) (ok : Bool) : State × Bool :=
  match process.shm with
  | some result => (s, result)
  | none => ({ s with processes := s.processes.set p { process with shm := some ok } }, ok)

def State.advance (s : State) (c : Nat) (component : Component) (process : Process) (ok : Bool) :
    Option State :=
  match component.phase with
  | .acquireEnsure =>
    let ensured := s.ensureShm component.process process ok
    some (ensured.1.setPhase c component (if ensured.2 then .acquireLock else .refused .noShm))
  | .acquireLock =>
    if ok then
      s.lock.map fun dead =>
        { s.setPhase c component
            (if dead then .acquireConsistent (s.full component.kind)
              else .scanning 0 (s.full component.kind)) with
          mutex := some c }
    else some (s.setPhase c component (.refused .lockFailed))
  | .acquireConsistent full => some (s.setPhase c component (.scanning 0 full))
  | .scanning i full =>
    match (s.layout.slots component.kind)[i]? with
    | some pid =>
      some (s.setPhase c component
        (if pid ≠ 0 ∧ s.pidAlive pid = true then .scanning (i + 1) full else .claiming i))
    | none => some (s.setPhase c component (.acquireUnlock none full))
  | .claiming i =>
    some
      { s.setPhase c component (.acquireUnlock (some i) false) with
        layout := s.layout.setSlot component.kind i process.pid }
  | .acquireUnlock result full =>
    some
      { s.setPhase c component
          (match result with
            | some id => .holding id
            | none => .refused (.exhausted full)) with
        mutex := none }
  | .releaseEnsure id =>
    let ensured := s.ensureShm component.process process ok
    some (ensured.1.setPhase c component
      (if ensured.2 = true ∧ id < (s.layout.slots component.kind).length then .releaseLock id
        else .idle))
  | .releaseLock id =>
    if ok then
      s.lock.map fun dead =>
        { s.setPhase c component (if dead then .releaseConsistent id else .testing id) with
          mutex := some c }
    else some (s.setPhase c component .idle)
  | .releaseConsistent id => some (s.setPhase c component (.testing id))
  | .testing id =>
    some (s.setPhase c component
      (if (s.layout.slots component.kind)[id]? = some process.pid then .clearing id
        else .releaseUnlock))
  | .clearing id =>
    some
      { s.setPhase c component .releaseUnlock with
        layout := s.layout.setSlot component.kind id 0 }
  | .releaseUnlock => some { s.setPhase c component .idle with mutex := none }
  | .idle => none
  | .holding _ => none
  | .refused _ => none

/-- The pid of a new process is none that `kill` finds and none left in a slot. -/
def State.fresh (s : State) (pid : Nat) : Bool :=
  pid ≠ 0 && (s.processes.all fun process => process.reaped || process.pid ≠ pid) &&
    pid ∉ s.layout.ivpsPid && pid ∉ s.layout.vdecPid && pid ∉ s.layout.vencPid

def step (s : State) : Label → Option State
  | .spawn pid =>
    if s.fresh pid then some { s with processes := s.processes ++ [{ pid := pid }] } else none
  | .create p kind =>
    if p < s.processes.length then
      some { s with components := s.components ++ [{ process := p, kind := kind }] }
    else none
  | .die p =>
    match s.processes[p]? with
    | some process => some { s with processes := s.processes.set p { process with running := false } }
    | none => none
  | .reap p =>
    match s.processes[p]? with
    | some process =>
      if process.running then none
      else some { s with processes := s.processes.set p { process with reaped := true } }
    | none => none
  | .acquire c =>
    match s.components[c]? with
    | some component =>
      match s.processes[component.process]?, component.phase with
      | some process, .idle =>
        if process.running then some (s.setPhase c component .acquireEnsure) else none
      | some process, .refused _ =>
        if process.running then some (s.setPhase c component .acquireEnsure) else none
      | _, _ => none
    | none => none
  | .release c =>
    match s.components[c]? with
    | some component =>
      match s.processes[component.process]?, component.phase with
      | some process, .holding id =>
        if process.running then some (s.setPhase c component (.releaseEnsure id)) else none
      | _, _ => none
    | none => none
  | .advance c ok =>
    match s.components[c]? with
    | some component =>
      match s.processes[component.process]? with
      | some process => if process.running then s.advance c component process ok else none
      | none => none
    | none => none

def hwIds : Machine State Label where
  start := {}
  step := step

/-- The component's thread is between the lock and the unlock. -/
def Phase.locked : Phase → Bool
  | .acquireConsistent _ => true
  | .scanning _ _ => true
  | .claiming _ => true
  | .acquireUnlock _ _ => true
  | .releaseConsistent _ => true
  | .testing _ => true
  | .clearing _ => true
  | .releaseUnlock => true
  | _ => false

attribute [simp] Phase.locked

/-- The id a component holds: from the write of its slot to the clearing. -/
def Phase.holds : Phase → Option Nat
  | .acquireUnlock result _ => result
  | .holding id => some id
  | .releaseEnsure id => some id
  | .releaseLock id => some id
  | .releaseConsistent id => some id
  | .testing id => some id
  | .clearing id => some id
  | _ => none

/-- Slot `i` is empty, or its owner is gone. -/
def Free (s : State) (kind : HwIdKind) (i : Nat) : Prop :=
  ∃ pid, (s.layout.slots kind)[i]? = some pid ∧ s.pidAlive pid = false

/-- What a thread inside the lock knows about the slots. -/
def Phase.Knows (s : State) (kind : HwIdKind) : Phase → Prop
  | .acquireConsistent full => full = true ∨ ∃ j, Free s kind j
  | .scanning i full => full = true ∨ ∃ j, i ≤ j ∧ Free s kind j
  | .claiming i => Free s kind i
  | .acquireUnlock none full => full = true
  | _ => True

/-- Component `c` of process `process`. -/
def At (s : State) (c : Nat) (component : Component) (process : Process) : Prop :=
  s.components[c]? = some component ∧ s.processes[component.process]? = some process

structure Exclusive (s : State) : Prop where
  live : ∀ process ∈ s.processes, process.running = true → process.reaped = false
  nonzero : ∀ process ∈ s.processes, process.pid ≠ 0
  distinct : ∀ (p q : Nat) (first second : Process), s.processes[p]? = some first →
    s.processes[q]? = some second → first.reaped = false → second.reaped = false →
    first.pid = second.pid → p = q
  known : ∀ component ∈ s.components, component.process < s.processes.length
  owner : ∀ c component process, At s c component process → process.running = true →
    component.phase.locked = true → s.mutex = some c
  knows : ∀ c component process, At s c component process → process.running = true →
    component.phase.Knows s component.kind
  full : ∀ component ∈ s.components, ∀ full, component.phase = .refused (.exhausted full) →
    full = true
  held : ∀ c component process id, At s c component process → process.reaped = false →
    component.phase.holds = some id → (s.layout.slots component.kind)[id]? = some process.pid
  unique : ∀ c c' component component' process process' id, At s c component process →
    At s c' component' process' → process.reaped = false → process'.reaped = false →
    component.kind = component'.kind → component.phase.holds = some id →
    component'.phase.holds = some id → c = c'

theorem start_exclusive : Exclusive hwIds.start where
  live _ h := absurd h List.not_mem_nil
  nonzero _ h := absurd h List.not_mem_nil
  distinct p q _ _ h := by cases h
  known _ h := absurd h List.not_mem_nil
  owner c _ _ h := by cases h.1
  knows c _ _ h := by cases h.1
  full _ h := absurd h List.not_mem_nil
  held c _ _ _ h := by cases h.1
  unique c _ _ _ _ _ _ h := by cases h.1

theorem pidAlive_iff {s : State} {pid : Nat} :
    s.pidAlive pid = true ↔
      pid ≠ 0 ∧ ∃ process ∈ s.processes, process.reaped = false ∧ process.pid = pid := by
  simp [State.pidAlive]

/-- The pid of a process that has not been reaped is found. -/
theorem Exclusive.found {s : State} (inv : Exclusive s) {process : Process}
    (mem : process ∈ s.processes) (unreaped : process.reaped = false) :
    s.pidAlive process.pid = true :=
  pidAlive_iff.mpr ⟨inv.nonzero process mem, process, mem, unreaped, rfl⟩

theorem At.mem {s : State} {c : Nat} {component : Component} {process : Process}
    (h : At s c component process) : component ∈ s.components ∧ process ∈ s.processes :=
  ⟨List.mem_of_getElem? h.1, List.mem_of_getElem? h.2⟩

/-- Knowledge about the slots outlives what frees further ones. -/
theorem Phase.Knows.kept {s t : State} {kind : HwIdKind} {phase : Phase}
    (h : phase.Knows s kind) (frees : ∀ j, Free s kind j → Free t kind j) :
    phase.Knows t kind := by
  cases phase with
  | acquireConsistent full => exact h.imp_right fun ⟨j, free⟩ => ⟨j, frees j free⟩
  | scanning i full => exact h.imp_right fun ⟨j, le, free⟩ => ⟨j, le, frees j free⟩
  | claiming i => exact frees i h
  | acquireUnlock result full =>
    cases result with
    | none => exact h
    | some id => trivial
  | _ => trivial

theorem knows_of_unlocked {s : State} {kind : HwIdKind} {phase : Phase}
    (outside : phase.locked = false) : phase.Knows s kind := by
  cases phase <;> trivial

/-- A process changes without coming back to life or changing its pid. -/
theorem Exclusive.process {s : State} (inv : Exclusive s) {p : Nat} {old new : Process}
    (here : s.processes[p]? = some old) (pid : new.pid = old.pid)
    (running : new.running = true → old.running = true ∧ new.reaped = false)
    (reaped : new.reaped = false → old.reaped = false) :
    Exclusive { s with processes := s.processes.set p new } := by
  have before : ∀ (q : Nat) (process : Process), (s.processes.set p new)[q]? = some process →
      ∃ was, s.processes[q]? = some was ∧ process.pid = was.pid ∧
        (process.running = true → was.running = true ∧ process.reaped = false) ∧
        (process.reaped = false → was.reaped = false) := by
    intro q process h
    rcases replaced_cases here h with ⟨rfl, rfl⟩ | ⟨-, same⟩
    · exact ⟨old, here, pid, running, reaped⟩
    · refine ⟨process, same, rfl, fun runs => ⟨runs, ?_⟩, id⟩
      exact inv.live process (List.mem_of_getElem? same) runs
  have atBefore : ∀ c component process,
      At { s with processes := s.processes.set p new } c component process →
      ∃ was, At s c component was ∧ process.pid = was.pid ∧
        (process.running = true → was.running = true ∧ process.reaped = false) ∧
        (process.reaped = false → was.reaped = false) := by
    intro c component process h
    obtain ⟨was, hwas, rest⟩ := before component.process process h.2
    exact ⟨was, ⟨h.1, hwas⟩, rest⟩
  have frees : ∀ kind j, Free s kind j →
      Free { s with processes := s.processes.set p new } kind j := by
    rintro kind j ⟨owner, slot, gone⟩
    refine ⟨owner, slot, ?_⟩
    by_contra found
    obtain ⟨nonzero, process, mem, unreaped, same⟩ :=
      pidAlive_iff.mp (by simpa using found)
    obtain ⟨q, hq⟩ := List.mem_iff_getElem?.mp mem
    obtain ⟨was, hwas, pid, -, reaped⟩ := before q process hq
    have alive := inv.found (List.mem_of_getElem? hwas) (reaped unreaped)
    rw [← pid, same, gone] at alive
    cases alive
  constructor
  · intro process mem runs
    obtain ⟨q, hq⟩ := List.mem_iff_getElem?.mp mem
    obtain ⟨was, -, -, live, -⟩ := before q process hq
    exact (live runs).2
  · intro process mem
    obtain ⟨q, hq⟩ := List.mem_iff_getElem?.mp mem
    obtain ⟨was, hwas, pid, -, -⟩ := before q process hq
    rw [pid]
    exact inv.nonzero was (List.mem_of_getElem? hwas)
  · intro q r first second hq hr unreaped unreaped' same
    obtain ⟨was, hwas, pid, -, reaped⟩ := before q first hq
    obtain ⟨was', hwas', pid', -, reaped'⟩ := before r second hr
    refine inv.distinct q r was was' hwas hwas' (reaped unreaped) (reaped' unreaped') ?_
    rw [← pid, ← pid', same]
  · intro component mem
    have bound := inv.known component mem
    simpa using bound
  · intro c component process h runs locked
    obtain ⟨was, hat, -, live, -⟩ := atBefore c component process h
    exact inv.owner c component was hat (live runs).1 locked
  · intro c component process h runs
    obtain ⟨was, hat, -, live, -⟩ := atBefore c component process h
    exact (inv.knows c component was hat (live runs).1).kept (frees component.kind)
  · exact inv.full
  · intro c component process id h unreaped holds
    obtain ⟨was, hat, pid, -, reaped⟩ := atBefore c component process h
    rw [pid]
    exact inv.held c component was id hat (reaped unreaped) holds
  · intro c c' component component' process process' id h h' unreaped unreaped'
    obtain ⟨was, hat, -, -, reaped⟩ := atBefore c component process h
    obtain ⟨was', hat', -, -, reaped'⟩ := atBefore c' component' process' h'
    exact inv.unique c c' component component' was was' id hat hat' (reaped unreaped)
      (reaped' unreaped')

theorem at_setPhase {s : State} {c c' : Nat} {component component' : Component} {phase : Phase}
    {process' : Process} (here : s.components[c]? = some component)
    (h : At (s.setPhase c component phase) c' component' process') :
    (c' = c ∧ component' = { component with phase := phase } ∧
        s.processes[component.process]? = some process') ∨
      (c' ≠ c ∧ At s c' component' process') := by
  rcases replaced_cases here h.1 with ⟨same, rfl⟩ | ⟨other, before⟩
  · exact Or.inl ⟨same, rfl, h.2⟩
  · exact Or.inr ⟨other, before, h.2⟩

/-- With a new phase, a component still runs in its process. -/
theorem Exclusive.known_setPhase {s : State} (inv : Exclusive s) {c : Nat} {component : Component}
    {process : Process} (here : At s c component process) (phase : Phase) :
    ∀ other ∈ (s.setPhase c component phase).components, other.process < s.processes.length := by
  intro other mem
  rcases mem_replaced mem with old | rfl
  · exact inv.known other old
  · exact inv.known component here.mem.1

/-- A new phase that refuses nothing wrongly leaves all refusals right. -/
theorem Exclusive.full_setPhase {s : State} (inv : Exclusive s) (c : Nat) (component : Component)
    {phase : Phase} (full : ∀ full, phase = .refused (.exhausted full) → full = true) :
    ∀ other ∈ (s.setPhase c component phase).components,
      ∀ full, other.phase = .refused (.exhausted full) → full = true := by
  intro other mem
  rcases mem_replaced mem with old | rfl
  · exact inv.full other old
  · exact full

/-- One component goes to its next phase, and no slot changes. -/
theorem Exclusive.moved {s : State} (inv : Exclusive s) {c : Nat} {component : Component}
    {process : Process} (here : At s c component process) {phase : Phase} {mutex : Option Nat}
    (locks : phase.locked = true → mutex = some c)
    (others : ∀ c' component' process', c' ≠ c → At s c' component' process' →
      process'.running = true → component'.phase.locked = true → mutex = some c')
    (knows : phase.Knows s component.kind)
    (full : ∀ full, phase = .refused (.exhausted full) → full = true)
    (holds : phase.holds = none ∨ phase.holds = component.phase.holds) :
    Exclusive { s.setPhase c component phase with mutex := mutex } := by
  have holding : ∀ id, phase.holds = some id → component.phase.holds = some id := by
    intro id h
    rcases holds with none | same
    · rw [none] at h
      cases h
    · exact same ▸ h
  constructor
  · exact inv.live
  · exact inv.nonzero
  · exact inv.distinct
  · exact inv.known_setPhase here phase
  · intro c' component' process' h runs locked
    rcases at_setPhase here.1 h with ⟨rfl, rfl, -⟩ | ⟨other, before⟩
    · exact locks locked
    · exact others c' component' process' other before runs locked
  · intro c' component' process' h runs
    rcases at_setPhase here.1 h with ⟨rfl, rfl, -⟩ | ⟨-, before⟩
    · exact knows
    · exact inv.knows c' component' process' before runs
  · exact inv.full_setPhase c component full
  · intro c' component' process' id h unreaped held
    rcases at_setPhase here.1 h with ⟨rfl, rfl, there⟩ | ⟨-, before⟩
    · exact inv.held c' component process' id ⟨here.1, there⟩ unreaped (holding id held)
    · exact inv.held c' component' process' id before unreaped held
  · intro c' d component' other process' process'' id h h' unreaped unreaped' kind held held'
    rcases at_setPhase here.1 h with ⟨rfl, rfl, there⟩ | ⟨ne, before⟩ <;>
      rcases at_setPhase here.1 h' with ⟨rfl, rfl, there'⟩ | ⟨ne', before'⟩
    · rfl
    · exact inv.unique c' d component other process' process'' id ⟨here.1, there⟩ before'
        unreaped unreaped' kind (holding id held) held'
    · exact inv.unique c' d component' component process' process'' id before ⟨here.1, there'⟩
        unreaped unreaped' kind held (holding id held')
    · exact inv.unique c' d component' other process' process'' id before before' unreaped
        unreaped' kind held held'

/-- The mutex does not change hands. -/
theorem Exclusive.stepped {s : State} (inv : Exclusive s) {c : Nat} {component : Component}
    {process : Process} (here : At s c component process) {phase : Phase}
    (locks : phase.locked = true → s.mutex = some c)
    (knows : phase.Knows s component.kind)
    (full : ∀ full, phase = .refused (.exhausted full) → full = true)
    (holds : phase.holds = none ∨ phase.holds = component.phase.holds) :
    Exclusive (s.setPhase c component phase) :=
  inv.moved here locks (fun c' component' process' _ => inv.owner c' component' process') knows full
    holds

theorem ownerRuns_of_at {s : State} {c : Nat} {component : Component} {process : Process}
    (here : At s c component process) : s.ownerRuns c = process.running := by
  simp only [State.ownerRuns, here.1, here.2]

theorem Exclusive.locked {s : State} (inv : Exclusive s) {c : Nat} {component : Component}
    {process : Process} (here : At s c component process) {phase : Phase} {dead : Bool}
    (free : s.lock = some dead) (knows : phase.Knows s component.kind)
    (full : ∀ full, phase = .refused (.exhausted full) → full = true)
    (holds : phase.holds = none ∨ phase.holds = component.phase.holds) :
    Exclusive { s.setPhase c component phase with mutex := some c } := by
  refine inv.moved here (fun _ => rfl) ?_ knows full holds
  intro c' component' process' _ there runs locked
  -- nobody else can be inside: the mutex is free or its owner is dead
  have owned := inv.owner c' component' process' there runs locked
  have alive : s.ownerRuns c' = true := (ownerRuns_of_at there).trans runs
  simp [State.lock, owned, alive] at free

theorem Exclusive.unlocked {s : State} (inv : Exclusive s) {c : Nat} {component : Component}
    {process : Process} (here : At s c component process) (runs : process.running = true)
    (inside : component.phase.locked = true) {phase : Phase} (outside : phase.locked = false)
    (full : ∀ full, phase = .refused (.exhausted full) → full = true)
    (holds : phase.holds = none ∨ phase.holds = component.phase.holds) :
    Exclusive { s.setPhase c component phase with mutex := none } := by
  refine inv.moved here ?_ ?_ (knows_of_unlocked outside) full holds
  · intro locked
    rw [outside] at locked
    cases locked
  · intro c' component' process' other there runs' locked
    have mine := inv.owner c component process here runs inside
    have theirs := inv.owner c' component' process' there runs' locked
    have same : c = c' := Option.some.inj (mine.symm.trans theirs)
    exact absurd same.symm other

/-- The thread inside the lock writes a slot: no other component loses its id by it. -/
theorem Exclusive.written {s : State} (inv : Exclusive s) {c : Nat} {component : Component}
    {process : Process} (here : At s c component process) (runs : process.running = true)
    (inside : component.phase.locked = true) {phase : Phase} {i pid : Nat}
    (knows : ∀ t : State, phase.Knows t component.kind)
    (full : ∀ full, phase = .refused (.exhausted full) → full = true)
    (held : ∀ id, phase.holds = some id → id = i ∧ pid = process.pid ∧
      i < (s.layout.slots component.kind).length)
    (unheld : ∀ c' component' process', c' ≠ c → At s c' component' process' →
      process'.reaped = false → component'.kind = component.kind →
      component'.phase.holds ≠ some i) :
    Exclusive
      { s.setPhase c component phase with layout := s.layout.setSlot component.kind i pid } := by
  have mine := inv.owner c component process here runs inside
  have outside : ∀ c' component' process', c' ≠ c → At s c' component' process' →
      process'.running = true → component'.phase.locked = false := by
    intro c' component' process' other there runs'
    by_contra locked
    have theirs := inv.owner c' component' process' there runs' (by simpa using locked)
    exact other (Option.some.inj (theirs.symm.trans mine))
  constructor
  · exact inv.live
  · exact inv.nonzero
  · exact inv.distinct
  · exact inv.known_setPhase here phase
  · intro c' component' process' h runs' locked
    rcases at_setPhase here.1 h with ⟨rfl, rfl, -⟩ | ⟨-, before⟩
    · exact mine
    · exact inv.owner c' component' process' before runs' locked
  · intro c' component' process' h runs'
    rcases at_setPhase here.1 h with ⟨rfl, rfl, -⟩ | ⟨other, before⟩
    · exact knows _
    · exact knows_of_unlocked (outside c' component' process' other before runs')
  · exact inv.full_setPhase c component full
  · intro c' component' process' id h unreaped holds
    rcases at_setPhase here.1 h with ⟨rfl, rfl, there⟩ | ⟨other, before⟩
    · obtain ⟨rfl, rfl, bound⟩ := held id holds
      have same : process' = process := Option.some.inj (there.symm.trans here.2)
      simp only [slots_setSlot_self, same]
      exact List.getElem?_set_self bound
    · have old := inv.held c' component' process' id before unreaped holds
      by_cases kind : component'.kind = component.kind
      · have apart : i ≠ id := by
          rintro rfl
          exact unheld c' component' process' other before unreaped kind holds
        simp only [kind, slots_setSlot_self, List.getElem?_set_ne apart]
        exact kind ▸ old
      · simp only [slots_setSlot_other _ _ _ kind]
        exact old
  · intro c' d component' other process' process'' id h h' unreaped unreaped' kind holds holds'
    rcases at_setPhase here.1 h with ⟨rfl, rfl, there⟩ | ⟨ne, before⟩ <;>
      rcases at_setPhase here.1 h' with ⟨rfl, rfl, there'⟩ | ⟨ne', before'⟩
    · rfl
    · obtain ⟨rfl, -, -⟩ := held id holds
      exact absurd holds' (unheld d other process'' ne' before' unreaped' kind.symm)
    · obtain ⟨rfl, -, -⟩ := held id holds'
      exact absurd holds (unheld c' component' process' ne before unreaped kind)
    · exact inv.unique c' d component' other process' process'' id before before' unreaped
        unreaped' kind holds holds'

theorem full_or_free (s : State) (kind : HwIdKind) : s.full kind = true ∨ ∃ j, Free s kind j := by
  by_cases full : s.full kind = true
  · exact Or.inl full
  · simp only [State.full, List.all_eq_true, not_forall] at full
    obtain ⟨pid, mem, gone⟩ := full
    obtain ⟨j, hj⟩ := List.mem_iff_getElem?.mp mem
    exact Or.inr ⟨j, pid, hj, by simpa using gone⟩

/-- `EnsureShm` leaves the component where it is. -/
theorem Exclusive.ensured {s : State} (inv : Exclusive s) {c : Nat} {component : Component}
    {process : Process} (here : At s c component process) (ok : Bool) :
    Exclusive (s.ensureShm component.process process ok).1 ∧
      ∃ now, At (s.ensureShm component.process process ok).1 c component now := by
  simp only [State.ensureShm]
  split
  · exact ⟨inv, process, here⟩
  · refine ⟨inv.process here.2 rfl (fun runs => ⟨runs, inv.live process here.mem.2 runs⟩) id, ?_⟩
    exact ⟨_, here.1, replaced_self here.2⟩

theorem acquireLock_exclusive {s t : State} {c : Nat} {component : Component} {process : Process}
    {ok : Bool} (inv : Exclusive s) (here : At s c component process)
    (phase : component.phase = .acquireLock)
    (h : s.advance c component process ok = some t) : Exclusive t := by
  simp only [State.advance, phase] at h
  split at h
  · obtain ⟨dead, free, rfl⟩ := Option.map_eq_some_iff.mp h
    refine inv.locked here free ?_ ?_ (Or.inl ?_)
    · rcases full_or_free s component.kind with full | ⟨j, free⟩
      · split <;> exact Or.inl full
      · split
        · exact Or.inr ⟨j, free⟩
        · exact Or.inr ⟨j, Nat.zero_le j, free⟩
    · split <;> simp
    · split <;> rfl
  · cases h
    exact inv.stepped here (by simp) trivial (by simp) (Or.inl rfl)

theorem acquireConsistent_exclusive {s t : State} {c : Nat} {component : Component}
    {process : Process} {ok full : Bool} (inv : Exclusive s) (here : At s c component process)
    (runs : process.running = true) (phase : component.phase = .acquireConsistent full)
    (h : s.advance c component process ok = some t) : Exclusive t := by
  have knows := inv.knows c component process here runs
  have mine := inv.owner c component process here runs (by simp [phase])
  simp only [State.advance, phase] at h
  cases h
  refine inv.stepped here (fun _ => mine) ?_ (by simp) (Or.inl rfl)
  rw [phase] at knows
  exact knows.imp_right fun ⟨j, free⟩ => ⟨j, Nat.zero_le j, free⟩

/-- The scan stops at a slot whose owner is gone, or finds the table full. -/
theorem scanning_exclusive {s t : State} {c : Nat} {component : Component} {process : Process}
    {ok full : Bool} {i : Nat} (inv : Exclusive s) (here : At s c component process)
    (runs : process.running = true) (phase : component.phase = .scanning i full)
    (h : s.advance c component process ok = some t) : Exclusive t := by
  have knows := inv.knows c component process here runs
  have mine := inv.owner c component process here runs (by simp [phase])
  rw [phase] at knows
  simp only [State.advance, phase] at h
  split at h
  · rename_i pid slot
    cases h
    split
    · rename_i taken
      -- a slot with a live owner is not the free one
      refine inv.stepped here (fun _ => mine) ?_ (by simp) (Or.inl rfl)
      refine knows.imp_right fun ⟨j, le, free⟩ => ⟨j, ?_, free⟩
      have apart : i ≠ j := by
        rintro rfl
        obtain ⟨owner, there, gone⟩ := free
        rw [slot] at there
        cases there
        rw [taken.2] at gone
        cases gone
      omega
    · rename_i unowned
      have gone : s.pidAlive pid = false := by
        by_contra found
        have alive : s.pidAlive pid = true := by simpa using found
        exact unowned ⟨(pidAlive_iff.mp alive).1, alive⟩
      exact inv.stepped here (fun _ => mine) ⟨pid, slot, gone⟩ (by simp) (Or.inl rfl)
  · rename_i beyond
    cases h
    refine inv.stepped here (fun _ => mine) ?_ (by simp) (Or.inl rfl)
    rcases knows with yes | ⟨j, le, pid, slot, -⟩
    · exact yes
    · have bound := lt_of_entry slot
      have past := List.getElem?_eq_none_iff.mp beyond
      omega

/-- The slot claimed is held by no other component. -/
theorem claiming_exclusive {s t : State} {c : Nat} {component : Component} {process : Process}
    {ok : Bool} {i : Nat} (inv : Exclusive s) (here : At s c component process)
    (runs : process.running = true) (phase : component.phase = .claiming i)
    (h : s.advance c component process ok = some t) : Exclusive t := by
  have knows := inv.knows c component process here runs
  have inside : component.phase.locked = true := by simp [phase]
  rw [phase] at knows
  obtain ⟨pid, slot, gone⟩ := knows
  simp only [State.advance, phase] at h
  cases h
  refine inv.written here runs inside (fun _ => trivial) (by simp) ?_ ?_
  · intro id holds
    cases holds
    exact ⟨rfl, rfl, lt_of_entry slot⟩
  · intro c' component' process' _ there unreaped kind holds
    -- the owner of a held id is still found
    have theirs := inv.held c' component' process' i there unreaped holds
    rw [kind, slot] at theirs
    cases theirs
    have found := inv.found there.mem.2 unreaped
    rw [gone] at found
    cases found

theorem acquireUnlock_exclusive {s t : State} {c : Nat} {component : Component} {process : Process}
    {ok full : Bool} {result : Option Nat} (inv : Exclusive s) (here : At s c component process)
    (runs : process.running = true) (phase : component.phase = .acquireUnlock result full)
    (h : s.advance c component process ok = some t) : Exclusive t := by
  have knows := inv.knows c component process here runs
  have inside : component.phase.locked = true := by simp [phase]
  rw [phase] at knows
  simp only [State.advance, phase] at h
  cases h
  cases result with
  | none =>
    have yes : full = true := knows
    refine inv.unlocked here runs inside rfl ?_ (Or.inl rfl)
    intro f same
    cases same
    exact yes
  | some id =>
    refine inv.unlocked here runs inside rfl (by simp) (Or.inr ?_)
    rw [phase]
    rfl

theorem releaseLock_exclusive {s t : State} {c : Nat} {component : Component} {process : Process}
    {ok : Bool} {id : Nat} (inv : Exclusive s) (here : At s c component process)
    (phase : component.phase = .releaseLock id)
    (h : s.advance c component process ok = some t) : Exclusive t := by
  simp only [State.advance, phase] at h
  split at h
  · obtain ⟨dead, free, rfl⟩ := Option.map_eq_some_iff.mp h
    refine inv.locked here free ?_ ?_ (Or.inr ?_)
    · split <;> trivial
    · split <;> simp
    · rw [phase]
      split <;> rfl
  · cases h
    exact inv.stepped here (by simp) trivial (by simp) (Or.inl rfl)

theorem testing_exclusive {s t : State} {c : Nat} {component : Component} {process : Process}
    {ok : Bool} {id : Nat} (inv : Exclusive s) (here : At s c component process)
    (runs : process.running = true) (phase : component.phase = .testing id)
    (h : s.advance c component process ok = some t) : Exclusive t := by
  have mine := inv.owner c component process here runs (by simp [phase])
  simp only [State.advance, phase] at h
  cases h
  split
  · exact inv.stepped here (fun _ => mine) trivial (by simp) (Or.inr (by rw [phase]; rfl))
  · exact inv.stepped here (fun _ => mine) trivial (by simp) (Or.inl rfl)

/-- A cleared slot was held by no other component. -/
theorem clearing_exclusive {s t : State} {c : Nat} {component : Component} {process : Process}
    {ok : Bool} {id : Nat} (inv : Exclusive s) (here : At s c component process)
    (runs : process.running = true) (phase : component.phase = .clearing id)
    (h : s.advance c component process ok = some t) : Exclusive t := by
  have inside : component.phase.locked = true := by simp [phase]
  simp only [State.advance, phase] at h
  cases h
  refine inv.written here runs inside (fun _ => trivial) (by simp) (by simp [Phase.holds]) ?_
  intro c' component' process' other there unreaped kind holds
  have live := inv.live process here.mem.2 runs
  have same := inv.unique c' c component' component process' process id there here unreaped live
    kind holds (by rw [phase]; rfl)
  exact other same

theorem advance_exclusive {s t : State} {c : Nat} {component : Component} {process : Process}
    {ok : Bool} (inv : Exclusive s) (here : At s c component process)
    (runs : process.running = true) (h : s.advance c component process ok = some t) :
    Exclusive t := by
  cases phase : component.phase with
  | acquireEnsure =>
    obtain ⟨ensured, now, there⟩ := inv.ensured here ok
    simp only [State.advance, phase] at h
    cases h
    refine ensured.stepped there ?_ ?_ ?_ (Or.inl ?_) <;> split <;> simp [Phase.Knows,
      Phase.holds]
  | acquireLock => exact acquireLock_exclusive inv here phase h
  | acquireConsistent full => exact acquireConsistent_exclusive inv here runs phase h
  | scanning i full => exact scanning_exclusive inv here runs phase h
  | claiming i => exact claiming_exclusive inv here runs phase h
  | acquireUnlock result full => exact acquireUnlock_exclusive inv here runs phase h
  | releaseEnsure id =>
    obtain ⟨ensured, now, there⟩ := inv.ensured here ok
    simp only [State.advance, phase] at h
    cases h
    split
    · exact ensured.stepped there (by simp) trivial (by simp)
        (Or.inr (by rw [phase]; rfl))
    · exact ensured.stepped there (by simp) trivial (by simp) (Or.inl rfl)
  | releaseLock id => exact releaseLock_exclusive inv here phase h
  | releaseConsistent id =>
    have mine := inv.owner c component process here runs (by simp [phase])
    simp only [State.advance, phase] at h
    cases h
    exact inv.stepped here (fun _ => mine) trivial (by simp) (Or.inr (by rw [phase]; rfl))
  | testing id => exact testing_exclusive inv here runs phase h
  | clearing id => exact clearing_exclusive inv here runs phase h
  | releaseUnlock =>
    have inside : component.phase.locked = true := by simp [phase]
    simp only [State.advance, phase] at h
    cases h
    exact inv.unlocked here runs inside rfl (by simp) (Or.inl rfl)
  | idle =>
    simp only [State.advance, phase] at h
    cases h
  | holding id =>
    simp only [State.advance, phase] at h
    cases h
  | refused reason =>
    simp only [State.advance, phase] at h
    cases h

theorem spawn_exclusive {s t : State} {pid : Nat} (inv : Exclusive s)
    (h : step s (.spawn pid) = some t) : Exclusive t := by
  simp only [step] at h
  split at h
  · rename_i fresh
    cases h
    obtain ⟨nonzero, others, unused⟩ : pid ≠ 0 ∧
        (∀ process ∈ s.processes, process.reaped = true ∨ process.pid ≠ pid) ∧
        ∀ kind, pid ∉ s.layout.slots kind := by
      simp only [State.fresh, Bool.and_eq_true, decide_eq_true_eq, List.all_eq_true,
        Bool.or_eq_true, and_assoc] at fresh
      obtain ⟨nonzero, others, ivps, vdec, venc⟩ := fresh
      refine ⟨nonzero, others, fun kind => ?_⟩
      cases kind
      · exact ivps
      · exact vdec
      · exact venc
    have atBefore : ∀ c component process,
        At { s with processes := s.processes ++ [{ pid := pid }] } c component process →
        At s c component process := by
      intro c component process there
      have bound := inv.known component (List.mem_of_getElem? there.1)
      exact ⟨there.1, (List.getElem?_append_left bound).symm.trans there.2⟩
    have frees : ∀ kind j, Free s kind j →
        Free { s with processes := s.processes ++ [{ pid := pid }] } kind j := by
      rintro kind j ⟨owner, slot, gone⟩
      refine ⟨owner, slot, ?_⟩
      by_contra found
      obtain ⟨nonzero, process, mem, unreaped, same⟩ := pidAlive_iff.mp (by simpa using found)
      rcases List.mem_append.mp mem with old | new
      · have alive : s.pidAlive owner = true :=
          pidAlive_iff.mpr ⟨nonzero, process, old, unreaped, same⟩
        rw [gone] at alive
        cases alive
      · cases List.mem_singleton.mp new
        have mine : pid = owner := same
        exact unused kind (mine ▸ List.mem_of_getElem? slot)
    constructor
    · intro process mem runs
      rcases List.mem_append.mp mem with old | new
      · exact inv.live process old runs
      · cases List.mem_singleton.mp new
        rfl
    · intro process mem
      rcases List.mem_append.mp mem with old | new
      · exact inv.nonzero process old
      · cases List.mem_singleton.mp new
        exact nonzero
    · intro p q first second hp hq unreaped unreaped' same
      have unlike : ∀ process ∈ s.processes, process.reaped = false → process.pid ≠ pid :=
        fun process mem kept => (others process mem).resolve_left (by simp [kept])
      rcases appended_cases hp with old | ⟨atEnd, rfl⟩ <;>
        rcases appended_cases hq with old' | ⟨atEnd', rfl⟩
      · exact inv.distinct p q first second old old' unreaped unreaped' same
      · exact absurd same (unlike first (List.mem_of_getElem? old) unreaped)
      · exact absurd same.symm (unlike second (List.mem_of_getElem? old') unreaped')
      · exact atEnd.trans atEnd'.symm
    · intro component mem
      have bound := inv.known component mem
      simp only [List.length_append, List.length_singleton]
      omega
    · exact fun c component process there => inv.owner c component process (atBefore _ _ _ there)
    · intro c component process there runs
      exact (inv.knows c component process (atBefore _ _ _ there) runs).kept (frees component.kind)
    · exact inv.full
    · exact fun c component process id there =>
        inv.held c component process id (atBefore _ _ _ there)
    · exact fun c c' component component' process process' id there there' =>
        inv.unique c c' component component' process process' id (atBefore _ _ _ there)
          (atBefore _ _ _ there')
  · cases h

theorem create_exclusive {s t : State} {p : Nat} {kind : HwIdKind} (inv : Exclusive s)
    (h : step s (.create p kind) = some t) : Exclusive t := by
  simp only [step] at h
  split at h
  · rename_i known
    cases h
    have atBefore : ∀ c component process,
        At { s with components := s.components ++ [{ process := p, kind := kind }] } c component
          process →
        At s c component process ∨ component = { process := p, kind := kind } := by
      rintro c component process ⟨there, owner⟩
      rcases appended_cases there with old | ⟨-, new⟩
      · exact Or.inl ⟨old, owner⟩
      · exact Or.inr new
    constructor
    · exact inv.live
    · exact inv.nonzero
    · exact inv.distinct
    · intro component mem
      rcases List.mem_append.mp mem with old | new
      · exact inv.known component old
      · cases List.mem_singleton.mp new
        exact known
    · intro c component process there runs locked
      rcases atBefore c component process there with before | rfl
      · exact inv.owner c component process before runs locked
      · cases locked
    · intro c component process there runs
      rcases atBefore c component process there with before | rfl
      · exact inv.knows c component process before runs
      · trivial
    · intro component mem
      rcases List.mem_append.mp mem with old | new
      · exact inv.full component old
      · cases List.mem_singleton.mp new
        simp
    · intro c component process id there unreaped holds
      rcases atBefore c component process there with before | rfl
      · exact inv.held c component process id before unreaped holds
      · cases holds
    · intro c c' component component' process process' id there there' unreaped unreaped' same
        holds holds'
      rcases atBefore c component process there with before | rfl
      · rcases atBefore c' component' process' there' with before' | rfl
        · exact inv.unique c c' component component' process process' id before before' unreaped
            unreaped' same holds holds'
        · cases holds'
      · cases holds
  · cases h

theorem step_exclusive {s t : State} {l : Label} (inv : Exclusive s) (h : step s l = some t) :
    Exclusive t := by
  cases l with
  | spawn pid => exact spawn_exclusive inv h
  | create p kind => exact create_exclusive inv h
  | die p =>
    simp only [step] at h
    split at h
    · rename_i process here
      cases h
      exact inv.process here rfl (fun runs => by cases runs) id
    · cases h
  | reap p =>
    simp only [step] at h
    split at h
    · rename_i process here
      split at h
      · cases h
      · rename_i ended
        cases h
        exact inv.process here rfl (fun runs => absurd runs ended) (fun kept => by cases kept)
    · cases h
  | acquire c =>
    simp only [step] at h
    repeat' split at h
    all_goals first
      | (cases h
         exact inv.stepped ⟨‹_›, ‹_›⟩ (by simp) trivial (by simp) (Or.inl rfl))
      | cases h
  | release c =>
    simp only [step] at h
    split at h
    · rename_i component here
      split at h
      · rename_i process id there phase
        split at h
        · cases h
          exact inv.stepped ⟨here, there⟩ (by simp) trivial (by simp)
            (Or.inr (by rw [phase]; rfl))
        · cases h
      · cases h
    · cases h
  | advance c ok =>
    simp only [step] at h
    split at h
    · rename_i component here
      split at h
      · rename_i process there
        split at h
        · exact advance_exclusive inv ⟨here, there⟩ ‹_› h
        · cases h
      · cases h
    · cases h

theorem run_exclusive {s : State} (run : Reachable hwIds s) : Exclusive s :=
  run.invariant start_exclusive fun _ _ _ inv h => step_exclusive inv h

theorem ensureShm_layout (s : State) (p : Nat) (process : Process) (ok : Bool) :
    (s.ensureShm p process ok).1.layout = s.layout := by
  simp only [State.ensureShm]
  split <;> rfl

theorem advance_layout {s t : State} {c : Nat} {component : Component} {process : Process}
    {ok : Bool} (h : s.advance c component process ok = some t) :
    t.layout = s.layout ∨
      (∃ i, component.phase = .claiming i ∧
        t.layout = s.layout.setSlot component.kind i process.pid) ∨
      ∃ id, component.phase = .clearing id ∧ t.layout = s.layout.setSlot component.kind id 0 := by
  cases phase : component.phase with
  | claiming i =>
    simp only [State.advance, phase] at h
    cases h
    exact Or.inr (Or.inl ⟨i, rfl, rfl⟩)
  | clearing id =>
    simp only [State.advance, phase] at h
    cases h
    exact Or.inr (Or.inr ⟨id, rfl, rfl⟩)
  | acquireEnsure =>
    simp only [State.advance, phase] at h
    cases h
    exact Or.inl (ensureShm_layout s _ process ok)
  | releaseEnsure id =>
    simp only [State.advance, phase] at h
    cases h
    exact Or.inl (ensureShm_layout s _ process ok)
  | acquireLock =>
    simp only [State.advance, phase] at h
    split at h
    · obtain ⟨dead, -, rfl⟩ := Option.map_eq_some_iff.mp h
      exact Or.inl rfl
    · cases h
      exact Or.inl rfl
  | releaseLock id =>
    simp only [State.advance, phase] at h
    split at h
    · obtain ⟨dead, -, rfl⟩ := Option.map_eq_some_iff.mp h
      exact Or.inl rfl
    · cases h
      exact Or.inl rfl
  | _ =>
    simp only [State.advance, phase] at h
    repeat' split at h
    all_goals first | (cases h; exact Or.inl rfl) | cases h

theorem setSlot_changed {layout : ShmLayout} {kind kind' : HwIdKind} {i j pid : Nat}
    (changed : ((layout.setSlot kind' j pid).slots kind)[i]? ≠ (layout.slots kind)[i]?) :
    kind' = kind ∧ j = i := by
  by_cases same : kind = kind'
  · subst same
    rw [slots_setSlot_self] at changed
    refine ⟨rfl, ?_⟩
    by_contra apart
    exact changed (List.getElem?_set_ne apart)
  · rw [slots_setSlot_other _ _ _ same] at changed
    exact absurd rfl changed

/-- Which step writes which slot. -/
theorem slot_written {s t : State} {l : Label} (h : step s l = some t) {kind : HwIdKind} {i : Nat}
    (changed : (t.layout.slots kind)[i]? ≠ (s.layout.slots kind)[i]?) :
    ∃ c component process, (∃ ok, l = .advance c ok) ∧ At s c component process ∧
      process.running = true ∧ component.kind = kind ∧
      (component.phase = .claiming i ∧ t.layout = s.layout.setSlot kind i process.pid ∨
        component.phase = .clearing i ∧ t.layout = s.layout.setSlot kind i 0) := by
  cases l with
  | advance c ok =>
    simp only [step] at h
    split at h
    · rename_i component here
      split at h
      · rename_i process there
        split at h
        · rename_i runs
          rcases advance_layout h with same | ⟨j, phase, layout⟩ | ⟨j, phase, layout⟩
          · rw [same] at changed
            exact absurd rfl changed
          · rw [layout] at changed
            obtain ⟨rfl, rfl⟩ := setSlot_changed changed
            exact ⟨c, component, process, ⟨ok, rfl⟩, ⟨here, there⟩, runs, rfl,
              Or.inl ⟨phase, layout⟩⟩
          · rw [layout] at changed
            obtain ⟨rfl, rfl⟩ := setSlot_changed changed
            exact ⟨c, component, process, ⟨ok, rfl⟩, ⟨here, there⟩, runs, rfl,
              Or.inr ⟨phase, layout⟩⟩
        · cases h
      · cases h
    · cases h
  | _ =>
    simp only [step] at h
    repeat' split at h
    all_goals first | (cases h; exact absurd rfl changed) | cases h

/-- In every run, with processes dying at any step: no two components of live
processes hold one id, and the slot of a held id has the holder's pid. A slot
changes in two ways only: `Acquire` writes its pid over an empty slot or that
of a dead process, and `Release` clears a slot that has its own pid, which no
other live process has. `Acquire` returns -1 only if the shared memory could
not be set up, the lock failed, or every slot had a live owner when it took
the lock. -/
theorem ids_exclusive {s : State} (run : Reachable hwIds s) :
    (∀ c c' component component' process process' id, At s c component process →
      At s c' component' process' → process.reaped = false → process'.reaped = false →
      component.kind = component'.kind → component.phase.holds = some id →
      component'.phase.holds = some id → c = c') ∧
    (∀ c component process id, At s c component process → process.reaped = false →
      component.phase.holds = some id →
      (s.layout.slots component.kind)[id]? = some process.pid) ∧
    (∀ l t kind i, hwIds.step s l = some t →
      (t.layout.slots kind)[i]? ≠ (s.layout.slots kind)[i]? →
      ∃ c component process, (∃ ok, l = .advance c ok) ∧ At s c component process ∧
        component.kind = kind ∧
        (component.phase = .claiming i ∧ Free s kind i ∧
          (t.layout.slots kind)[i]? = some process.pid ∨
        component.phase = .clearing i ∧ (s.layout.slots kind)[i]? = some process.pid ∧
          (t.layout.slots kind)[i]? = some 0 ∧
          ∀ (q : Nat) (other : Process), s.processes[q]? = some other → other.reaped = false →
            other.pid = process.pid → q = component.process)) ∧
    ∀ component ∈ s.components, ∀ reason, component.phase = .refused reason →
      reason = .noShm ∨ reason = .lockFailed ∨ reason = .exhausted true := by
  have inv := run_exclusive run
  refine ⟨inv.unique, inv.held, ?_, ?_⟩
  · intro l t kind i h changed
    obtain ⟨c, component, process, label, here, runs, rfl, ⟨phase, layout⟩ | ⟨phase, layout⟩⟩ :=
      slot_written h changed
    · have free : Free s component.kind i := by
        have knows := inv.knows c component process here runs
        rw [phase] at knows
        exact knows
      obtain ⟨pid, slot, gone⟩ := free
      refine ⟨c, component, process, label, here, rfl, Or.inl ⟨phase, ⟨pid, slot, gone⟩, ?_⟩⟩
      rw [layout, slots_setSlot_self]
      exact replaced_self slot
    · have unreaped := inv.live process here.mem.2 runs
      have slot := inv.held c component process i here unreaped (by rw [phase]; rfl)
      refine ⟨c, component, process, label, here, rfl, Or.inr ⟨phase, slot, ?_, ?_⟩⟩
      · rw [layout, slots_setSlot_self]
        exact replaced_self slot
      · intro q other there alive same
        exact inv.distinct q component.process other process there here.2 alive unreaped same
  · intro component mem reason phase
    cases reason with
    | noShm => exact Or.inl rfl
    | lockFailed => exact Or.inr (Or.inl rfl)
    | exhausted full => exact Or.inr (Or.inr (inv.full component mem full phase ▸ rfl))

/-- The first process dies after its write and before its unlock; a component of
the second one takes over the lock and the slot. -/
def takenOver : List Label :=
  [.spawn 11, .spawn 12, .create 0 .kVenc, .create 1 .kVenc, .acquire 0, .advance 0 true,
    .advance 0 true, .advance 0 true, .advance 0 true, .die 0, .reap 0, .acquire 1,
    .advance 1 true, .advance 1 true, .advance 1 true, .advance 1 true, .advance 1 true,
    .advance 1 true]

theorem slot_reclaimed :
    ∃ s, hwIds.exec hwIds.start takenOver = some s ∧
      At s 1 ⟨1, .kVenc, .holding 0⟩ ⟨12, true, false, some true⟩ ∧
      (s.layout.slots .kVenc)[0]? = some 12 := by
  obtain ⟨s, run, here⟩ : ∃ s, hwIds.exec hwIds.start takenOver = some s ∧
      At s 1 ⟨1, .kVenc, .holding 0⟩ ⟨12, true, false, some true⟩ := ⟨_, rfl, rfl, rfl⟩
  obtain ⟨-, held, -⟩ := ids_exclusive (Machine.exec_reachable run)
  exact ⟨s, run, here, held 1 _ _ 0 here rfl rfl⟩

/-- `shm_open` fails in the only process: `Acquire` returns -1, no lock has
failed and all slots are free. -/
theorem refused_without_shm :
    ¬∀ s, Reachable hwIds s → ∀ component ∈ s.components, ∀ reason,
      component.phase = .refused reason →
      reason = .lockFailed ∨ s.full component.kind = true := by
  intro claim
  obtain ⟨s, run, component, free⟩ : ∃ s,
      hwIds.exec hwIds.start [.spawn 11, .create 0 .kVdec, .acquire 0, .advance 0 false] =
        some s ∧
      s.components = [⟨0, .kVdec, .refused .noShm⟩] ∧ s.full .kVdec = false := ⟨_, rfl, rfl, rfl⟩
  have mem : (⟨0, .kVdec, .refused .noShm⟩ : Component) ∈ s.components := by simp [component]
  rcases claim s (Machine.exec_reachable run) _ mem .noShm rfl with locked | full
  · cases locked
  · rw [free] at full
    cases full

end HardwareIds
