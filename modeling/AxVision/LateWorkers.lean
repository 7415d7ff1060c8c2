import AxVision.SchedulerRuns

/-!
# Releasing the scheduler under late workers

`ReleaseThreads` asks every worker that runs to exit, then joins all of them.
The request is a status the worker itself writes: a worker still inside `Init`
when its entry is visited is not asked, and sets `kRunning` afterwards.
-/

namespace LateWorkers

open TransitionRuns ReplacedEntries SchedulerRuns

/-- The marking pass is over. -/
def marked : MainPhase → Bool
  | .joining _ => true
  | .deleting _ => true
  | .nulling _ => true
  | .deletingMain => true
  | .nullingMain => true
  | .released => true
  | _ => false

/-- The marking pass has passed entry `i`. -/
def passed (i : Nat) : MainPhase → Bool
  | .marking k => i < k
  | .markSet k => i < k
  | p => marked p

theorem passed_of_marked {p : MainPhase} (h : marked p = true) (i : Nat) : passed i p = true := by
  cases p <;> first | exact h | cases h

/-- Every worker whose `Init` succeeds has set `kRunning` before its entry is
visited: no visit falls between the return and the status, and no `Init`
returns 0 after the visit. -/
def onTime (s : State) : Label → Bool
  | .main =>
    match s.main with
    | .marking i =>
      match s.slots[i]? with
      | some slot => slot.worker ≠ .initialised
      | none => true
    | _ => true
  | .worker i (.initReturn true) => !passed i s.main
  | _ => true

def NoLateStart (s : State) (l : Label) : Prop := onTime s l = true

/-- What the status of a node can be, by where its thread stands. -/
def Fits (slot : Slot) : Prop :=
  match slot.worker with
  | .absent => slot.status = .ready
  | .created => slot.status = .ready
  | .inInit => slot.status = .ready
  | .initialised => slot.status = .ready
  | .initFailed => slot.status = .ready
  | .loopHead => slot.status = .running ∨ slot.status = .exiting
  | .popping => slot.status = .running ∨ slot.status = .exiting
  | .inProcess => slot.status = .running ∨ slot.status = .exiting
  | .leaving => slot.status = .exiting
  | .ended => slot.status = .exited ∨ slot.status = .error

/-- A node that can no longer run. -/
def Stopped (slot : Slot) : Prop := slot.status ≠ .running ∧ slot.worker ≠ .initialised

/-- What the main thread relies on where it stands. -/
def Focus (slots : List Slot) : MainPhase → Prop
  | .adding => ∀ slot ∈ slots, slot.worker = .absent
  | .creating k =>
    1 ≤ k ∧ ∀ i, k ≤ i → ∀ slot, slots[i]? = some slot → slot.worker = .absent
  | .marking k => 1 ≤ k
  | .markSet k => 1 ≤ k ∧ ∀ slot, slots[k]? = some slot → slot.status = .running
  | _ => True

structure Ordered (s : State) : Prop where
  onMain : OnMainEntry s
  fits : ∀ i, 1 ≤ i → ∀ slot, s.slots[i]? = some slot → Fits slot
  pointers : marked s.main = false → ∀ i, 1 ≤ i → ∀ slot, s.slots[i]? = some slot →
    slot.pointer = true
  stopped : ∀ i, 1 ≤ i → passed i s.main = true → ∀ slot, s.slots[i]? = some slot → Stopped slot
  focus : Focus s.slots s.main
  size : 1 ≤ s.slots.length

/-- A worker's own step, by what it does to status and standing. -/
theorem work_fits {slot new : Slot} {busy : Bool} {act : WorkerAct} (fits : Fits slot)
    (h : slot.work busy act = some new) :
    Fits new ∧ new.pointer = slot.pointer ∧ new.worker ≠ .absent ∧ slot.worker ≠ .absent := by
  obtain ⟨name, status, pointer, live, worker⟩ := slot
  cases act with
  | start =>
    simp only [Slot.work] at h
    split at h
    · cases h
      simp_all [Fits]
    · cases h
  | initReturn ok =>
    simp only [Slot.work] at h
    split at h
    · cases h
      cases ok <;> simp_all [Fits]
    · cases h
  | settle =>
    simp only [Slot.work] at h
    split at h <;> cases h <;> simp_all [Fits]
  | check =>
    simp only [Slot.work] at h
    split at h
    · cases h
      by_cases running : status = .running <;> simp_all [Fits]
    · cases h
  | pop found =>
    simp only [Slot.work] at h
    split at h
    · cases h
      cases found <;> simp_all [Fits]
    · cases h
  | processReturn =>
    simp only [Slot.work] at h
    split at h
    · cases h
      simp_all [Fits]
    · cases h

/-- A stopped node stays stopped unless its `Init` returns 0. -/
theorem work_stopped {slot new : Slot} {busy : Bool} {act : WorkerAct} (stopped : Stopped slot)
    (late : act ≠ .initReturn true) (h : slot.work busy act = some new) : Stopped new := by
  obtain ⟨name, status, pointer, live, worker⟩ := slot
  obtain ⟨quiet, notInit⟩ := stopped
  cases act with
  | start =>
    simp only [Slot.work] at h
    split at h
    · cases h
      exact ⟨quiet, by simp⟩
    · cases h
  | initReturn ok =>
    cases ok with
    | true => exact absurd rfl late
    | false =>
      simp only [Slot.work] at h
      split at h
      · cases h
        exact ⟨quiet, by simp⟩
      · cases h
  | settle =>
    simp only [Slot.work] at h
    split at h
    · exact absurd rfl notInit
    · cases h
      exact ⟨by simp, by simp⟩
    · cases h
      exact ⟨by simp, by simp⟩
    · cases h
  | check =>
    simp only [Slot.work] at h
    split at h
    · cases h
      refine ⟨quiet, ?_⟩
      by_cases running : status = .running
      · exact absurd running quiet
      · simp
    · cases h
  | pop found =>
    simp only [Slot.work] at h
    split at h
    · cases h
      cases found
      · exact ⟨quiet, by simp⟩
      · exact ⟨quiet, by simp⟩
    · cases h
  | processReturn =>
    simp only [Slot.work] at h
    split at h
    · cases h
      exact ⟨quiet, by simp⟩
    · cases h

/-- A running status is taken away by the main thread only. -/
theorem work_running {slot new : Slot} {busy : Bool} {act : WorkerAct} (fits : Fits slot)
    (running : slot.status = .running) (h : slot.work busy act = some new) :
    new.status = .running := by
  obtain ⟨name, status, pointer, live, worker⟩ := slot
  have status_running : status = .running := running
  cases act with
  | settle =>
    simp only [Slot.work] at h
    split at h <;> cases h <;> simp_all [Fits]
  | _ =>
    simp only [Slot.work] at h
    split at h <;> cases h
    exact running

theorem start_ordered (nodes : List String) : Ordered (scheduler nodes).start := by
  have alone : ∀ i, 1 ≤ i → ∀ slot, (scheduler nodes).start.slots[i]? ≠ some slot := by
    intro i hi slot h
    have bound := (List.getElem?_eq_some_iff.mp h).1
    simp only [scheduler, List.length_singleton] at bound
    omega
  constructor
  · exact fun op h => absurd h List.not_mem_nil
  · exact fun i hi slot h => absurd h (alone i hi slot)
  · exact fun _ i hi slot h => absurd h (alone i hi slot)
  · exact fun i hi _ slot h => absurd h (alone i hi slot)
  · intro slot h
    cases List.mem_singleton.mp h
    rfl
  · exact Nat.le_refl 1

/-- The main thread moves on without touching an entry. -/
theorem Ordered.moved {s : State} (inv : Ordered s) {p : MainPhase}
    (marks : marked s.main = true → marked p = true)
    (stopped : ∀ i, 1 ≤ i → passed i p = true → passed i s.main = true ∨
      ∀ slot, s.slots[i]? = some slot → Stopped slot)
    (focus : Focus s.slots p) : Ordered { s with main := p } where
  onMain := inv.onMain
  fits := inv.fits
  pointers unmarked := inv.pointers (by
    cases hm : marked s.main with
    | false => rfl
    | true => exact absurd (marks hm) (by rw [unmarked]; exact Bool.false_ne_true))
  stopped i hi hp slot h := by
    rcases stopped i hi hp with before | now
    · exact inv.stopped i hi before slot h
    · exact now slot h
  focus := focus
  size := inv.size

/-- The main thread changes one entry and moves on. -/
theorem Ordered.changed {s : State} (inv : Ordered s) {i : Nat} {old new : Slot} {p : MainPhase}
    (here : s.slots[i]? = some old) (marks : marked s.main = true → marked p = true)
    (fits : 1 ≤ i → Fits new) (pointer : marked p = true ∨ new.pointer = old.pointer)
    (stopped : ∀ j, 1 ≤ j → passed j p = true → j = i ∧ Stopped new ∨
      j ≠ i ∧ passed j s.main = true)
    (focus : Focus (s.slots.set i new) p) : Ordered { s.put i new with main := p } where
  onMain := inv.onMain
  fits j hj slot h := by
    rcases replaced_cases here h with ⟨rfl, rfl⟩ | ⟨-, before⟩
    · exact fits hj
    · exact inv.fits j hj slot before
  pointers unmarked j hj slot h := by
    have earlier : marked s.main = false := by
      cases hm : marked s.main with
      | false => rfl
      | true => exact absurd (marks hm) (by rw [unmarked]; exact Bool.false_ne_true)
    rcases replaced_cases here h with ⟨rfl, rfl⟩ | ⟨-, before⟩
    · rcases pointer with now | same
      · exact absurd now (by rw [unmarked]; exact Bool.false_ne_true)
      · exact same.trans (inv.pointers earlier j hj old here)
    · exact inv.pointers earlier j hj slot before
  stopped j hj hp slot h := by
    rcases replaced_cases here h with ⟨same, rfl⟩ | ⟨ne, before⟩
    · rcases stopped j hj hp with ⟨-, now⟩ | ⟨ne, -⟩
      · exact now
      · exact absurd same ne
    · rcases stopped j hj hp with ⟨same, -⟩ | ⟨-, earlier⟩
      · exact absurd same ne
      · exact inv.stopped j hj earlier slot before
  focus := focus
  size := by
    have same : ({ s.put i new with main := p } : State).slots.length = s.slots.length :=
      List.length_set
    rw [same]
    exact inv.size

/-- After the pass the main thread changes an entry that stays as stopped as it is. -/
theorem Ordered.cleared {s : State} (inv : Ordered s) {i : Nat} {old new : Slot} {p : MainPhase}
    (here : s.slots[i]? = some old) (done : marked s.main = true) (later : marked p = true)
    (fits : Fits old → Fits new) (still : Stopped old → Stopped new)
    (focus : Focus (s.slots.set i new) p) : Ordered { s.put i new with main := p } := by
  refine inv.changed here (fun _ => later) (fun hi => fits (inv.fits i hi old here))
    (Or.inl later) ?_ focus
  intro j hj _
  by_cases same : j = i
  · subst same
    exact Or.inl ⟨rfl, still (inv.stopped j hj (passed_of_marked done j) old here)⟩
  · exact Or.inr ⟨same, passed_of_marked done j⟩

theorem visited_on_time {s : State} {i : Nat} {slot : Slot} (late : NoLateStart s .main)
    (hm : s.main = .marking i) (hslot : s.slots[i]? = some slot) : slot.worker ≠ .initialised := by
  simpa [NoLateStart, onTime, hm, hslot] using late

theorem not_passed_on_time {s : State} {i : Nat}
    (late : NoLateStart s (.worker i (.initReturn true))) : passed i s.main = false := by
  simpa [NoLateStart, onTime] using late

/-- Any other step of a worker is on time. -/
theorem other_on_time (s : State) (i : Nat) {act : WorkerAct} (other : act ≠ .initReturn true) :
    NoLateStart s (.worker i act) := by
  cases act with
  | initReturn ok =>
    cases ok with
    | true => exact absurd rfl other
    | false => rfl
  | _ => rfl

/-- A thread is started on a slot that no thread has run. -/
theorem creating_ordered {s t : State} {i : Nat} (inv : Ordered s) (hm : s.main = .creating i)
    (h : s.mainStep = some t) : Ordered t := by
  have focus := inv.focus
  rw [hm] at focus
  obtain ⟨low, absent⟩ := focus
  simp only [State.mainStep, hm] at h
  split at h
  · rename_i slot hslot
    cases h
    have ready := inv.fits i low slot hslot
    have fresh := absent i (Nat.le_refl i) slot hslot
    refine inv.changed hslot (by simp [hm, marked]) ?_ (Or.inr rfl) (by simp [passed, marked]) ?_
    · intro _
      simp only [Fits, fresh] at ready
      exact ready
    · refine ⟨by omega, fun j hj other hother => ?_⟩
      rcases replaced_cases hslot hother with ⟨same, -⟩ | ⟨-, before⟩
      · omega
      · exact absent j (by omega) other before
  · cases h
    exact inv.moved (by simp [hm, marked]) (by simp [passed, marked]) trivial

theorem waiting_ordered {s t : State} {i : Nat} (inv : Ordered s) (hm : s.main = .waiting i)
    (h : s.mainStep = some t) : Ordered t := by
  simp only [State.mainStep, hm] at h
  split at h
  · split at h
    · cases h
      exact inv.moved (by simp [hm, marked]) (by simp [passed, marked]) trivial
    · split at h
      · cases h
      · cases h
        exact inv.moved (by simp [hm, marked]) (by simp [passed, marked]) trivial
  · cases h
    exact inv.moved (by simp [hm, marked]) (by simp [passed, marked]) trivial

/-- The mark of the main slot passes no other. -/
theorem markMain_ordered {s t : State} (inv : Ordered s) (hm : s.main = .markMain)
    (h : s.mainStep = some t) : Ordered t := by
  have low : Focus s.slots (.marking 1) := Nat.le_refl 1
  have none : ∀ j, 1 ≤ j → passed j (.marking 1) = true → False := by
    intro j hj hp
    simp only [passed, decide_eq_true_eq] at hp
    omega
  simp only [State.mainStep, hm] at h
  split at h
  · rename_i slot hslot
    split at h
    · cases h
      exact inv.changed hslot (by simp [hm, marked]) (by omega) (Or.inr rfl)
        (fun j hj hp => (none j hj hp).elim) (Nat.le_refl 1)
    · cases h
      exact inv.moved (by simp [hm, marked]) (fun j hj hp => (none j hj hp).elim) low
  · cases h
    exact inv.moved (by simp [hm, marked]) (fun j hj hp => (none j hj hp).elim) low

/-- A slot is passed unmarked only when its thread does not run. -/
theorem marking_ordered {s t : State} {i : Nat} (inv : Ordered s) (late : NoLateStart s .main)
    (hm : s.main = .marking i) (h : s.mainStep = some t) : Ordered t := by
  have focus := inv.focus
  rw [hm] at focus
  have low : 1 ≤ i := focus
  simp only [State.mainStep, hm] at h
  split at h
  · rename_i slot hslot
    split at h
    · rename_i asked
      cases h
      refine inv.moved (by simp [hm, marked]) ?_ ⟨low, ?_⟩
      · intro j _ hp
        left
        rw [hm]
        exact hp
      · intro other hother
        have same : slot = other := Option.some.inj (hslot.symm.trans hother)
        exact same ▸ asked.2
    · rename_i unasked
      cases h
      refine inv.moved (by simp [hm, marked]) ?_ ?_
      · intro j _ hp
        simp only [passed, decide_eq_true_eq] at hp
        by_cases same : j = i
        · right
          intro other hother
          have here : other = slot := Option.some.inj (hother.symm.trans (same ▸ hslot))
          have pointer := inv.pointers (by rw [hm]; rfl) i low slot hslot
          rw [here]
          exact ⟨fun running => unasked ⟨pointer, running⟩, visited_on_time late hm hslot⟩
        · left
          rw [hm]
          simp only [passed, decide_eq_true_eq]
          omega
      · exact Nat.le_succ_of_le low
  · rename_i beyond
    cases h
    refine inv.moved (by simp [hm, marked]) ?_ trivial
    intro j _ _
    by_cases inside : j < i
    · left
      rw [hm]
      simpa [passed] using inside
    · right
      intro other hother
      have bound := (List.getElem?_eq_some_iff.mp hother).1
      have length := List.getElem?_eq_none_iff.mp beyond
      omega

/-- A running thread that is marked stops at its next test. -/
theorem markSet_ordered {s t : State} {i : Nat} (inv : Ordered s) (hm : s.main = .markSet i)
    (h : s.mainStep = some t) : Ordered t := by
  have focus := inv.focus
  rw [hm] at focus
  obtain ⟨low, running⟩ := focus
  simp only [State.mainStep, hm] at h
  split at h
  · rename_i slot hslot
    cases h
    have fits := inv.fits i low slot hslot
    have asked := running slot hslot
    have looping : Fits { slot with status := .exiting } ∧
        Stopped { slot with status := .exiting } := by
      obtain ⟨name, status, pointer, live, worker⟩ := slot
      cases worker <;> simp_all [Fits, Stopped]
    refine inv.changed hslot (by simp [hm, marked]) (fun _ => looping.1) (Or.inr rfl) ?_
      (Nat.le_succ_of_le low)
    intro j _ hp
    simp only [passed, decide_eq_true_eq] at hp
    by_cases same : j = i
    · exact Or.inl ⟨same, looping.2⟩
    · right
      refine ⟨same, ?_⟩
      rw [hm]
      simp only [passed, decide_eq_true_eq]
      omega
  · cases h

theorem joining_ordered {s t : State} {i : Nat} (inv : Ordered s) (hm : s.main = .joining i)
    (h : s.mainStep = some t) : Ordered t := by
  have all : ∀ i, 1 ≤ i → ∀ slot, s.slots[i]? = some slot → Stopped slot :=
    fun i hi => inv.stopped i hi (passed_of_marked (by rw [hm]; rfl) i)
  simp only [State.mainStep, hm] at h
  split at h
  · split at h
    · cases h
      exact inv.moved (fun _ => rfl) (fun j hj _ => Or.inr (all j hj)) trivial
    · split at h
      · cases h
        exact inv.moved (fun _ => rfl) (fun j hj _ => Or.inr (all j hj)) trivial
      · cases h
  · cases h
    exact inv.moved (fun _ => rfl) (fun j hj _ => Or.inr (all j hj)) trivial

theorem deletingMain_ordered {s t : State} (inv : Ordered s) (hm : s.main = .deletingMain)
    (h : s.mainStep = some t) : Ordered t := by
  have all : ∀ i, 1 ≤ i → ∀ slot, s.slots[i]? = some slot → Stopped slot :=
    fun i hi => inv.stopped i hi (passed_of_marked (by rw [hm]; rfl) i)
  simp only [State.mainStep, hm] at h
  split at h
  · rename_i slot hslot
    split at h
    · cases h
      refine inv.changed hslot (fun _ => rfl) (by omega) (Or.inl rfl) ?_ trivial
      exact fun j hj _ => Or.inr ⟨by omega, by rw [hm]; rfl⟩
    · cases h
      exact inv.moved (fun _ => rfl) (fun j hj _ => Or.inr (all j hj)) trivial
  · cases h
    exact inv.moved (fun _ => rfl) (fun j hj _ => Or.inr (all j hj)) trivial

theorem main_ordered {s t : State} (inv : Ordered s) (late : NoLateStart s .main)
    (h : s.mainStep = some t) : Ordered t := by
  cases hm : s.main with
  | creating i => exact creating_ordered inv hm h
  | waiting i => exact waiting_ordered inv hm h
  | markMain => exact markMain_ordered inv hm h
  | marking i => exact marking_ordered inv late hm h
  | markSet i => exact markSet_ordered inv hm h
  | joining i => exact joining_ordered inv hm h
  | deleting i =>
    simp only [State.mainStep, hm] at h
    split at h
    · rename_i slot hslot
      cases h
      exact inv.cleared hslot (by rw [hm]; rfl) rfl id id trivial
    · cases h
  | nulling i =>
    simp only [State.mainStep, hm] at h
    split at h
    · rename_i slot hslot
      cases h
      exact inv.cleared hslot (by rw [hm]; rfl) rfl id id trivial
    · cases h
  | deletingMain => exact deletingMain_ordered inv hm h
  | nullingMain =>
    simp only [State.mainStep, hm] at h
    split at h
    · rename_i slot hslot
      cases h
      refine inv.changed hslot (fun _ => rfl) (by omega) (Or.inl rfl) ?_ trivial
      exact fun j hj _ => Or.inr ⟨by omega, by rw [hm]; rfl⟩
    · cases h
  | adding =>
    simp only [State.mainStep, hm] at h
    cases h
  | serving =>
    simp only [State.mainStep, hm] at h
    cases h
  | failed =>
    simp only [State.mainStep, hm] at h
    cases h
  | released =>
    simp only [State.mainStep, hm] at h
    cases h

theorem add_ordered {nodes : List String} {s t : State} {configured : Bool} (inv : Ordered s)
    (h : step nodes s (.add configured) = some t) : Ordered t := by
  obtain ⟨hm, rfl | rfl | ⟨name, rfl⟩⟩ := add_cases h
  · have focus := inv.focus
    rw [hm] at focus
    refine inv.moved (by simp [hm, marked]) (by simp [passed, marked]) ⟨Nat.le_refl 1, ?_⟩
    intro i _ slot hslot
    exact focus slot (List.mem_of_getElem? hslot)
  · exact inv.moved (by simp [hm, marked]) (by simp [passed, marked]) trivial
  · have focus := inv.focus
    rw [hm] at focus
    -- the new entry has its default status and no thread
    have entry : ∀ (i : Nat) (slot : Slot), (s.slots ++ [({ name := name } : Slot)])[i]? =
        some slot → s.slots[i]? = some slot ∨ slot = { name := name } := by
      intro i slot hslot
      rcases appended_cases hslot with old | ⟨-, last⟩
      · exact Or.inl old
      · exact Or.inr last
    constructor
    · exact inv.onMain
    · intro i hi slot hslot
      rcases entry i slot hslot with old | rfl
      · exact inv.fits i hi slot old
      · rfl
    · intro unmarked i hi slot hslot
      rcases entry i slot hslot with old | rfl
      · exact inv.pointers unmarked i hi slot old
      · rfl
    · intro i _ hp
      have early : passed i s.main = true := hp
      rw [hm] at early
      cases early
    · have keeps : Focus (s.slots ++ [{ name := name }]) .adding := by
        intro slot hslot
        rcases List.mem_append.mp hslot with old | new
        · exact focus slot old
        · cases List.mem_singleton.mp new
          rfl
      exact hm.symm ▸ keeps
    · have longer : (s.slots ++ [({ name := name } : Slot)]).length = s.slots.length + 1 := by simp
      have size := inv.size
      exact longer.symm ▸ Nat.le_succ_of_le size

theorem worker_ordered {nodes : List String} {s t : State} {i : Nat} {act : WorkerAct}
    (inv : Ordered s) (late : NoLateStart s (.worker i act))
    (h : step nodes s (.worker i act) = some t) : Ordered t := by
  obtain ⟨slot, new, hslot, hwork, rfl⟩ := worker_cases h
  have acts : slot.worker ≠ .absent := by
    intro absent
    cases act <;> simp [Slot.work, absent] at hwork
  have known : s.main ≠ .adding := by
    intro hm
    have focus := inv.focus
    rw [hm] at focus
    exact acts (focus slot (List.mem_of_getElem? hslot))
  constructor
  · exact inv.onMain
  · intro j hj other hother
    rcases replaced_cases hslot hother with ⟨rfl, rfl⟩ | ⟨-, before⟩
    · exact (work_fits (inv.fits j hj slot hslot) hwork).1
    · exact inv.fits j hj other before
  · intro unmarked j hj other hother
    rcases replaced_cases hslot hother with ⟨rfl, rfl⟩ | ⟨-, before⟩
    · exact (work_fits (inv.fits j hj slot hslot) hwork).2.1.trans
        (inv.pointers unmarked j hj slot hslot)
    · exact inv.pointers unmarked j hj other before
  · intro j hj hp other hother
    rcases replaced_cases hslot hother with ⟨rfl, rfl⟩ | ⟨-, before⟩
    · refine work_stopped (inv.stopped j hj hp slot hslot) ?_ hwork
      rintro rfl
      have early : passed j s.main = false := not_passed_on_time late
      have shut : passed j s.main = true := hp
      rw [early] at shut
      cases shut
    · exact inv.stopped j hj hp other before
  · have focus := inv.focus
    have main : (s.put i new).main = s.main := rfl
    rw [main]
    cases hm : s.main with
    | adding => exact absurd hm known
    | creating k =>
      rw [hm] at focus
      refine ⟨focus.1, fun j hj other hother => ?_⟩
      rcases replaced_cases hslot hother with ⟨rfl, rfl⟩ | ⟨-, before⟩
      · exact absurd (focus.2 j hj slot hslot) acts
      · exact focus.2 j hj other before
    | marking k =>
      rw [hm] at focus
      exact focus
    | markSet k =>
      rw [hm] at focus
      refine ⟨focus.1, fun other hother => ?_⟩
      rcases replaced_cases hslot hother with ⟨rfl, rfl⟩ | ⟨-, before⟩
      · exact work_running (inv.fits k focus.1 slot hslot) (focus.2 slot hslot) hwork
      · exact focus.2 other before
    | _ => trivial
  · have same : (s.put i new).slots.length = s.slots.length := List.length_set
    rw [same]
    exact inv.size

theorem operation_ordered {nodes : List String} {s t : State} {l : Label} (inv : Ordered s)
    (h : step nodes s l = some t)
    (operation : (∃ caller kind, l = .begin caller kind) ∨ (∃ j, l = .read j) ∨
      ∃ j last, l = .use j last) : Ordered t := by
  obtain ⟨main, nodes_kept⟩ := operation_keeps inv.onMain h operation
  obtain ⟨length, entries⟩ := operation_entry h operation
  constructor
  · exact onMainEntry_step inv.onMain h
  · intro i hi slot hslot
    exact inv.fits i hi slot (nodes_kept i hi ▸ hslot)
  · intro unmarked i hi slot hslot
    exact inv.pointers (main ▸ unmarked) i hi slot (nodes_kept i hi ▸ hslot)
  · intro i hi hp slot hslot
    exact inv.stopped i hi (main ▸ hp) slot (nodes_kept i hi ▸ hslot)
  · have focus := inv.focus
    rw [main]
    cases hm : s.main with
    | adding =>
      rw [hm] at focus
      intro slot hslot
      obtain ⟨i, hi⟩ := List.mem_iff_getElem?.mp hslot
      obtain ⟨old, hold, -, -, worker⟩ := entries i slot hi
      exact worker.trans (focus old (List.mem_of_getElem? hold))
    | creating k =>
      rw [hm] at focus
      refine ⟨focus.1, fun i hi slot hslot => ?_⟩
      obtain ⟨old, hold, -, -, worker⟩ := entries i slot hslot
      exact worker.trans (focus.2 i hi old hold)
    | marking k =>
      rw [hm] at focus
      exact focus
    | markSet k =>
      rw [hm] at focus
      exact ⟨focus.1, fun slot hslot => focus.2 slot (nodes_kept k focus.1 ▸ hslot)⟩
    | _ => trivial
  · exact length.symm ▸ inv.size

theorem step_ordered {nodes : List String} {s t : State} {l : Label} (inv : Ordered s)
    (late : NoLateStart s l) (h : step nodes s l = some t) : Ordered t := by
  cases l with
  | add configured => exact add_ordered inv h
  | main => exact main_ordered inv late h
  | exit =>
    obtain ⟨hm, rfl⟩ := exit_cases h
    have unmarked : marked s.main = false := by rcases hm with hm | hm <;> rw [hm] <;> rfl
    exact inv.moved (by simp [unmarked]) (by simp [passed, marked]) trivial
  | worker i act => exact worker_ordered inv late h
  | begin caller kind => exact operation_ordered inv h (Or.inl ⟨caller, kind, rfl⟩)
  | read j => exact operation_ordered inv h (Or.inr (Or.inl ⟨j, rfl⟩))
  | use j last => exact operation_ordered inv h (Or.inr (Or.inr ⟨j, last, rfl⟩))

theorem run_ordered {nodes : List String} {s : State}
    (run : ReachableBy (scheduler nodes) NoLateStart s) : Ordered s :=
  run.invariant (start_ordered nodes) fun _ _ _ inv late h => step_ordered inv late h

/-- The main thread does not go back behind the marking pass. -/
theorem marked_step {nodes : List String} {s t : State} {l : Label} (done : marked s.main = true)
    (h : step nodes s l = some t) : marked t.main = true := by
  cases l with
  | add configured =>
    obtain ⟨hm, -⟩ := add_cases h
    rw [hm] at done
    cases done
  | main =>
    have h : s.mainStep = some t := h
    cases hm : s.main <;> rw [hm] at done <;> first
      | exact absurd done Bool.false_ne_true
      | (simp only [State.mainStep, hm] at h
         repeat' split at h
         all_goals first | (cases h; rfl) | cases h)
  | exit =>
    obtain ⟨hm | hm, -⟩ := exit_cases h <;> rw [hm] at done <;> cases done
  | worker i act =>
    obtain ⟨slot, new, -, -, rfl⟩ := worker_cases h
    exact done
  | begin caller kind =>
    obtain ⟨-, rfl⟩ := begin_cases h
    exact done
  | read j =>
    obtain ⟨op, -, -, rfl⟩ := read_cases h
    exact done
  | use j last =>
    obtain ⟨op, pointer, slot, -, -, -, ⟨-, -, rfl⟩ | ⟨-, rfl⟩⟩ := use_cases h
    · exact done
    · exact done

/-- The steps a stopped node has left, calls included. -/
def remaining : Worker → Nat
  | .created => 3
  | .inInit => 2
  | .initFailed => 1
  | .popping => 4
  | .inProcess => 3
  | .loopHead => 2
  | .leaving => 1
  | _ => 0

/-- The thread is inside a call of its node. -/
def inCall (w : Worker) : Prop := w = .inInit ∨ w = .inProcess

theorem work_remaining {slot new : Slot} {busy : Bool} {act : WorkerAct} (stopped : Stopped slot)
    (late : act ≠ .initReturn true) (h : slot.work busy act = some new) :
    remaining new.worker < remaining slot.worker := by
  obtain ⟨name, status, pointer, live, worker⟩ := slot
  obtain ⟨quiet, notInit⟩ := stopped
  have quiet : ¬status = .running := quiet
  cases act with
  | initReturn ok =>
    cases ok with
    | true => exact absurd rfl late
    | false =>
      simp only [Slot.work] at h
      split at h <;> cases h
      simp_all [remaining]
  | settle =>
    simp only [Slot.work] at h
    split at h <;> cases h <;> simp_all [remaining]
  | pop found =>
    simp only [Slot.work] at h
    split at h <;> cases h
    cases found <;> simp_all [remaining]
  | _ =>
    simp only [Slot.work] at h
    split at h <;> cases h
    simp_all [remaining]

/-- Outside a call a thread that has not ended can always take its next step. -/
theorem work_enabled {slot : Slot} (busy : Bool) (present : slot.joinable = false)
    (outside : ¬inCall slot.worker) : ∃ act new, slot.work busy act = some new ∧
      act ≠ .initReturn true := by
  obtain ⟨name, status, pointer, live, worker⟩ := slot
  cases worker with
  | absent => cases present
  | ended => cases present
  | inInit => exact absurd (Or.inl rfl) outside
  | inProcess => exact absurd (Or.inr rfl) outside
  | created => exact ⟨.start, _, rfl, by simp⟩
  | initialised => exact ⟨.settle, _, rfl, by simp⟩
  | initFailed => exact ⟨.settle, _, rfl, by simp⟩
  | loopHead => exact ⟨.check, _, rfl, by simp⟩
  | popping => exact ⟨.pop false, _, rfl, by simp⟩
  | leaving => exact ⟨.settle, _, rfl, by simp⟩

/-- While no worker starts late: after the marking pass no node has status
`kRunning` now or at any later time; a thread outside a call of its node can go
on until it ends, and each of its steps brings it closer to its end. -/
theorem release_stops_workers (nodes : List String) {s t : State}
    (run : ReachableBy (scheduler nodes) NoLateStart s) (done : marked s.main = true)
    (later : Steps (scheduler nodes) NoLateStart s t) :
    ∀ i, 1 ≤ i → ∀ slot, t.slots[i]? = some slot →
      slot.status ≠ .running ∧
      (slot.joinable = false → ¬inCall slot.worker →
        ∃ act u, NoLateStart t (.worker i act) ∧ step nodes t (.worker i act) = some u) ∧
      (∀ act u, NoLateStart t (.worker i act) → step nodes t (.worker i act) = some u →
        ∃ new, u.slots[i]? = some new ∧ remaining new.worker < remaining slot.worker) := by
  have inv : Ordered t := run_ordered (run.extend later)
  have finished : marked t.main = true :=
    Steps.preserves (I := fun s => marked s.main = true) (fun _ _ _ h _ step => marked_step h step)
      later done
  intro i hi slot hslot
  have stopped := inv.stopped i hi (passed_of_marked finished i) slot hslot
  refine ⟨stopped.1, ?_, ?_⟩
  · intro present outside
    obtain ⟨act, new, hwork, late⟩ := work_enabled (t.busy (.worker i)) present outside
    refine ⟨act, t.put i new, other_on_time t i late, ?_⟩
    simp only [step, hslot, hwork, Option.map_some]
  · intro act u late h
    obtain ⟨old, new, hold, hwork, rfl⟩ := worker_cases h
    have same : old = slot := Option.some.inj (hold.symm.trans hslot)
    subst same
    refine ⟨new, List.getElem?_set_self (List.getElem?_eq_some_iff.mp hslot).1, ?_⟩
    refine work_remaining stopped ?_ hwork
    rintro rfl
    have early := not_passed_on_time late
    rw [passed_of_marked finished i] at early
    cases early

/-- The nodes of the application, by name. -/
def pipeline : List String := ["PreProcess", "InfProcess", "BusProcess", "EncProcess"]

def pipelineStart : List Label :=
  List.replicate 5 (.add true) ++ List.replicate 5 .main

/-- The first node's `Init` fails, `Start` returns, and `ReleaseThreads` marks
while the second node is inside `Init`. -/
def failedStart : List Label :=
  pipelineStart ++
    [.worker 2 .start, .worker 1 .start, .worker 1 (.initReturn false), .worker 1 .settle,
      .main, .exit] ++ List.replicate 6 .main

/-- If that `Init` fails too, its thread is on its way out. -/
theorem failing_worker_stops :
    ∃ mid s, (scheduler pipeline).execWhile onTime (scheduler pipeline).start failedStart =
        some mid ∧ marked mid.main = true ∧
      (scheduler pipeline).execWhile onTime mid [.worker 2 (.initReturn false)] = some s ∧
      ∃ slot, s.slots[2]? = some slot ∧ slot.status ≠ .running ∧
        ∃ act u, step pipeline s (.worker 2 act) = some u := by
  obtain ⟨mid, first, done, s, second, entry⟩ : ∃ mid,
      (scheduler pipeline).execWhile onTime (scheduler pipeline).start failedStart = some mid ∧
      marked mid.main = true ∧ ∃ s,
        (scheduler pipeline).execWhile onTime mid [.worker 2 (.initReturn false)] = some s ∧
        s.slots[2]? = some { name := "InfProcess", status := .ready, worker := .initFailed } :=
    ⟨_, rfl, rfl, _, rfl, rfl⟩
  obtain ⟨quiet, onward, -⟩ := release_stops_workers pipeline (Machine.execWhile_steps first) done
    (Machine.execWhile_steps second) 2 (by decide) _ entry
  have outside : ¬inCall .initFailed := by simp [inCall]
  obtain ⟨act, u, -, h⟩ := onward rfl outside
  exact ⟨mid, s, first, done, second, _, entry, quiet, act, u, h⟩

/-- That `Init` then succeeds. -/
def lateStart : List Label := failedStart ++ [.worker 2 (.initReturn true), .worker 2 .settle]

/-- After the marking pass a node has status `kRunning`. -/
theorem late_worker_runs :
    ¬∀ nodes s, Reachable (scheduler nodes) s → marked s.main = true →
      ∀ i, 1 ≤ i → ∀ slot, s.slots[i]? = some slot → slot.status ≠ .running := by
  intro claim
  obtain ⟨s, run, done, entry⟩ : ∃ s,
      (scheduler pipeline).exec (scheduler pipeline).start lateStart = some s ∧
      marked s.main = true ∧ s.slots[2]? = some
        { name := "InfProcess", status := .running, worker := .loopHead } :=
    ⟨_, rfl, rfl, rfl⟩
  exact claim pipeline s (Machine.exec_reachable run) done 2 (by decide) _ entry rfl

end LateWorkers
