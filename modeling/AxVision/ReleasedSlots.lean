import AxVision.LateWorkers

/-!
# Operations on a thread list that is being released

`ReleaseThreads` deletes the managers one by one and stores null in their
entries. Of the operations on the list only `SendMessage` and the loop of
`Wait` check an entry for null, and none keeps its manager from being deleted
between the read and the use.
-/

namespace ReleasedSlots

open TransitionRuns ReplacedEntries SchedulerRuns LateWorkers

/-- An entry is read before its manager is deleted, a checked one also after
null is stored; and no manager is deleted while an operation stands between
its read and its last use. -/
def inTime (s : State) : Label → Bool
  | .read j =>
    match s.ops[j]? with
    | some op =>
      match s.slots[op.entry]? with
      | some slot => slot.live || op.kind.guarded && !slot.pointer
      | none => true
    | none => true
  | .main =>
    match s.main with
    | .deleting i => s.ops.all fun op => !op.holds i
    | .deletingMain => s.ops.all fun op => !op.holds 0
    | _ => true
  | _ => true

def InTime (s : State) (l : Label) : Prop := inTime s l = true

structure Guarded (s : State) : Prop where
  faultless : s.faults = []
  pointers : ∀ (i : Nat) (slot : Slot), s.slots[i]? = some slot → slot.live = true →
    slot.pointer = true
  nulling : ∀ i, s.main = .nulling i → ∀ slot, s.slots[i]? = some slot → slot.live = false
  nullingMain : s.main = .nullingMain → ∀ slot, s.slots[0]? = some slot → slot.live = false
  held : ∀ op ∈ s.ops, ∀ p, op.stage = .holding p →
    ∃ slot, s.slots[op.entry]? = some slot ∧ p = true ∧ slot.live = true

theorem start_guarded (nodes : List String) : Guarded (scheduler nodes).start where
  faultless := rfl
  pointers i slot h _ := by
    have mem := List.mem_of_getElem? h
    cases List.mem_singleton.mp mem
    rfl
  nulling i h := by cases h
  nullingMain h := by cases h
  held op h := absurd h List.not_mem_nil

/-- The main thread moves on without touching an entry. -/
theorem Guarded.moved {s : State} (inv : Guarded s) {p : MainPhase}
    (notNulling : ∀ i, p ≠ .nulling i) (notNullingMain : p ≠ .nullingMain) :
    Guarded { s with main := p } where
  faultless := inv.faultless
  pointers := inv.pointers
  nulling i h := absurd h (notNulling i)
  nullingMain h := absurd h notNullingMain
  held := inv.held

/-- The main thread changes one entry and moves on: a manager still alive stays
as reachable as it was, and a manager held by an operation stays alive. -/
theorem Guarded.changed {s : State} (inv : Guarded s) {i : Nat} {old new : Slot} {p : MainPhase}
    (here : s.slots[i]? = some old) (pointer : new.live = true → new.pointer = true)
    (nulling : ∀ j, p = .nulling j → j = i ∧ new.live = false)
    (nullingMain : p = .nullingMain → 0 = i ∧ new.live = false)
    (held : new.live = old.live ∨ ∀ op ∈ s.ops, op.holds i = false) :
    Guarded { s.put i new with main := p } where
  faultless := inv.faultless
  pointers j slot h alive := by
    rcases replaced_cases here h with ⟨-, rfl⟩ | ⟨-, before⟩
    · exact pointer alive
    · exact inv.pointers j slot before alive
  nulling j h slot hslot := by
    obtain ⟨rfl, gone⟩ := nulling j h
    rcases replaced_cases here hslot with ⟨-, rfl⟩ | ⟨ne, -⟩
    · exact gone
    · exact absurd rfl ne
  nullingMain h slot hslot := by
    obtain ⟨rfl, gone⟩ := nullingMain h
    rcases replaced_cases here hslot with ⟨-, rfl⟩ | ⟨ne, -⟩
    · exact gone
    · exact absurd rfl ne
  held op hop q hq := by
    obtain ⟨slot, hslot, pointed, alive⟩ := inv.held op hop q hq
    by_cases same : op.entry = i
    · subst same
      have mine : slot = old := Option.some.inj (hslot.symm.trans here)
      rcases held with kept | free
      · refine ⟨new, List.getElem?_set_self (List.getElem?_eq_some_iff.mp here).1, pointed, ?_⟩
        rw [kept, ← mine]
        exact alive
      · have holding : op.holds op.entry = true := by
          unfold Op.holds
          rw [hq]
          exact decide_eq_true rfl
        rw [free op hop] at holding
        cases holding
    · exact ⟨slot, (List.getElem?_set_ne (Ne.symm same)).trans hslot, pointed, alive⟩

theorem main_guarded {s t : State} (inv : Guarded s) (inTime : InTime s .main)
    (h : s.mainStep = some t) : Guarded t := by
  cases hm : s.main with
  | creating i =>
    simp only [State.mainStep, hm] at h
    split at h
    · rename_i slot hslot
      cases h
      exact inv.changed hslot (inv.pointers i slot hslot) (by simp) (by simp) (Or.inl rfl)
    · cases h
      exact inv.moved (by simp) (by simp)
  | markMain =>
    simp only [State.mainStep, hm] at h
    split at h
    · rename_i slot hslot
      split at h
      · cases h
        exact inv.changed hslot (inv.pointers 0 slot hslot) (by simp) (by simp) (Or.inl rfl)
      · cases h
        exact inv.moved (by simp) (by simp)
    · cases h
      exact inv.moved (by simp) (by simp)
  | markSet i =>
    simp only [State.mainStep, hm] at h
    split at h
    · rename_i slot hslot
      cases h
      exact inv.changed hslot (inv.pointers i slot hslot) (by simp) (by simp) (Or.inl rfl)
    · cases h
  | deleting i =>
    have free : ∀ op ∈ s.ops, op.holds i = false := by
      simpa [InTime, ReleasedSlots.inTime, hm] using inTime
    simp only [State.mainStep, hm] at h
    split at h
    · rename_i slot hslot
      cases h
      refine inv.changed hslot (fun alive => ?_) ?_ (by simp) (Or.inr free)
      · cases alive
      · intro j hj
        cases hj
        exact ⟨rfl, rfl⟩
    · cases h
  | nulling i =>
    simp only [State.mainStep, hm] at h
    split at h
    · rename_i slot hslot
      cases h
      refine inv.changed hslot (fun alive => ?_) (by simp) (by simp) (Or.inl rfl)
      have gone := inv.nulling i hm slot hslot
      have here : slot.live = true := alive
      rw [gone] at here
      cases here
    · cases h
  | deletingMain =>
    have free : ∀ op ∈ s.ops, op.holds 0 = false := by
      simpa [InTime, ReleasedSlots.inTime, hm] using inTime
    simp only [State.mainStep, hm] at h
    split at h
    · rename_i slot hslot
      split at h
      · cases h
        refine inv.changed hslot (fun alive => ?_) (by simp) (fun _ => ⟨rfl, rfl⟩) (Or.inr free)
        cases alive
      · cases h
        exact inv.moved (by simp) (by simp)
    · cases h
      exact inv.moved (by simp) (by simp)
  | nullingMain =>
    simp only [State.mainStep, hm] at h
    split at h
    · rename_i slot hslot
      cases h
      refine inv.changed hslot (fun alive => ?_) (by simp) (by simp) (Or.inl rfl)
      have gone := inv.nullingMain hm slot hslot
      have here : slot.live = true := alive
      rw [gone] at here
      cases here
    · cases h
  | waiting i =>
    simp only [State.mainStep, hm] at h
    repeat' split at h
    all_goals first | (cases h; exact inv.moved (by simp) (by simp)) | cases h
  | marking i =>
    simp only [State.mainStep, hm] at h
    repeat' split at h
    all_goals
      cases h
      exact inv.moved (by simp) (by simp)
  | joining i =>
    simp only [State.mainStep, hm] at h
    repeat' split at h
    all_goals first | (cases h; exact inv.moved (by simp) (by simp)) | cases h
  | _ =>
    simp only [State.mainStep, hm] at h
    cases h

/-- A change of an entry that leaves its manager where it is. -/
theorem Guarded.kept {s : State} (inv : Guarded s) {i : Nat} {old new : Slot}
    (here : s.slots[i]? = some old) (live : new.live = old.live)
    (pointer : new.pointer = old.pointer) : Guarded (s.put i new) where
  faultless := inv.faultless
  pointers j slot h alive := by
    rcases replaced_cases here h with ⟨rfl, rfl⟩ | ⟨-, before⟩
    · exact pointer.trans (inv.pointers j old here (live ▸ alive))
    · exact inv.pointers j slot before alive
  nulling j hj slot h := by
    rcases replaced_cases here h with ⟨rfl, rfl⟩ | ⟨-, before⟩
    · exact live.trans (inv.nulling j hj old here)
    · exact inv.nulling j hj slot before
  nullingMain hm slot h := by
    rcases replaced_cases here h with ⟨same, rfl⟩ | ⟨-, before⟩
    · exact live.trans (inv.nullingMain hm old (same ▸ here))
    · exact inv.nullingMain hm slot before
  held op hop p hp := by
    obtain ⟨slot, hslot, pointed, alive⟩ := inv.held op hop p hp
    by_cases same : op.entry = i
    · subst same
      have mine : slot = old := Option.some.inj (hslot.symm.trans here)
      refine ⟨new, List.getElem?_set_self (List.getElem?_eq_some_iff.mp here).1, pointed, ?_⟩
      exact live.trans (mine ▸ alive)
    · exact ⟨slot, (List.getElem?_set_ne (Ne.symm same)).trans hslot, pointed, alive⟩

theorem work_kept {slot new : Slot} {busy : Bool} {act : WorkerAct}
    (h : slot.work busy act = some new) : new.live = slot.live ∧ new.pointer = slot.pointer := by
  cases act with
  | settle =>
    simp only [Slot.work] at h
    split at h <;> cases h <;> exact ⟨rfl, rfl⟩
  | _ =>
    simp only [Slot.work] at h
    split at h <;> cases h
    exact ⟨rfl, rfl⟩

/-- What the operations hold after one of them has changed. -/
theorem Guarded.setOp {s : State} (inv : Guarded s) {j : Nat} {new : Op}
    (good : ∀ p, new.stage = .holding p →
      ∃ slot, s.slots[new.entry]? = some slot ∧ p = true ∧ slot.live = true) :
    Guarded (s.setOp j new) where
  faultless := inv.faultless
  pointers := inv.pointers
  nulling := inv.nulling
  nullingMain := inv.nullingMain
  held op hop p hp := by
    rcases mem_setOp hop with old | rfl
    · exact inv.held op old p hp
    · exact good p hp

theorem read_guarded {nodes : List String} {s t : State} {j : Nat} (inv : Guarded s)
    (inTime : InTime s (.read j)) (h : step nodes s (.read j) = some t) : Guarded t := by
  obtain ⟨op, hop, -, rfl⟩ := read_cases h
  refine inv.setOp ?_
  intro p hp
  unfold Op.readEntry at hp ⊢
  cases hslot : s.slots[op.entry]? with
  | none =>
    rw [hslot] at hp
    cases hp
  | some slot =>
    have allowed : slot.live = true ∨ op.kind.guarded = true ∧ slot.pointer = false := by
      simpa [InTime, ReleasedSlots.inTime, hop, hslot] using inTime
    rw [hslot] at hp
    simp only [] at hp ⊢
    split at hp
    · cases hp
    · rename_i unchecked
      rcases allowed with alive | checked
      · have pointed := inv.pointers op.entry slot hslot alive
        have holds : slot.pointer = p := by
          injection hp
        rw [if_neg unchecked]
        exact ⟨slot, hslot, holds ▸ pointed, alive⟩
      · exact absurd checked unchecked

theorem use_guarded {nodes : List String} {s t : State} {j : Nat} {last : Bool} (inv : Guarded s)
    (h : step nodes s (.use j last) = some t) : Guarded t := by
  obtain ⟨op, pointer, slot, hop, hstage, hslot, ⟨-, alive, rfl⟩ | ⟨bad, rfl⟩⟩ := use_cases h
  · have mem := List.mem_of_getElem? hop
    have used : Guarded (s.setOp j (op.useEntry slot last).1) := by
      refine inv.setOp ?_
      intro p hp
      obtain ⟨before, entry⟩ := useEntry_holding hp
      rw [entry]
      exact inv.held op mem p before
    obtain ⟨live, kept, -⟩ := useEntry_live op slot last
    exact used.kept hslot live kept
  · -- an operation that holds a pointer holds a live manager
    obtain ⟨found, hfound, pointed, alive⟩ := inv.held op (List.mem_of_getElem? hop) pointer hstage
    have same : found = slot := Option.some.inj (hfound.symm.trans hslot)
    exact absurd ⟨pointed, same ▸ alive⟩ bad

theorem enter_reads (caller : Caller) (size : Nat) (kind : Operation) (p : Bool) :
    (kind.enter caller size).stage ≠ .holding p := by
  intro h
  cases kind with
  | sendMessage dest =>
    simp only [Operation.enter] at h
    split at h <;> cases h
  | taskNodeIdByName name =>
    simp only [Operation.enter] at h
    split at h <;> cases h
  | isNodeNameUnique name =>
    simp only [Operation.enter] at h
    split at h <;> cases h
  | _ => cases h

theorem add_guarded {nodes : List String} {s t : State} {configured : Bool} (inv : Guarded s)
    (h : step nodes s (.add configured) = some t) : Guarded t := by
  obtain ⟨hm, rfl | rfl | ⟨name, rfl⟩⟩ := add_cases h
  · exact inv.moved (by simp) (by simp)
  · exact inv.moved (by simp) (by simp)
  · constructor
    · exact inv.faultless
    · intro i slot hslot alive
      have appended : (s.slots ++ [({ name := name } : Slot)])[i]? = some slot := hslot
      rcases appended_cases appended with old | ⟨-, rfl⟩
      · exact inv.pointers i slot old alive
      · rfl
    · intro i hi
      exact absurd (hm.symm.trans hi) (by simp)
    · intro hi
      exact absurd (hm.symm.trans hi) (by simp)
    · intro op hop p hp
      obtain ⟨slot, hslot, rest⟩ := inv.held op hop p hp
      exact ⟨slot, appended_old hslot, rest⟩

theorem step_guarded {nodes : List String} {s t : State} {l : Label} (inv : Guarded s)
    (inTime : InTime s l) (h : step nodes s l = some t) : Guarded t := by
  cases l with
  | add configured => exact add_guarded inv h
  | main => exact main_guarded inv inTime h
  | exit =>
    obtain ⟨-, rfl⟩ := exit_cases h
    exact inv.moved (by simp) (by simp)
  | worker i act =>
    obtain ⟨slot, new, hslot, hwork, rfl⟩ := worker_cases h
    obtain ⟨live, pointer⟩ := work_kept hwork
    exact inv.kept hslot live pointer
  | begin caller kind =>
    obtain ⟨-, rfl⟩ := begin_cases h
    constructor
    · exact inv.faultless
    · exact inv.pointers
    · exact inv.nulling
    · exact inv.nullingMain
    · intro op hop p hp
      rcases List.mem_append.mp hop with old | new
      · exact inv.held op old p hp
      · cases List.mem_singleton.mp new
        exact absurd hp (enter_reads caller _ kind p)
  | read j => exact read_guarded inv inTime h
  | use j last => exact use_guarded inv h

/-- While no entry is read late and no manager is deleted under an operation:
no operation ever goes through a null pointer or to a deleted manager. -/
theorem operations_touch_live (nodes : List String) {s : State}
    (run : ReachableBy (scheduler nodes) InTime s) :
    s.faults = [] ∧ ∀ op ∈ s.ops, ∀ p, op.stage = .holding p →
      ∃ slot, s.slots[op.entry]? = some slot ∧ p = true ∧ slot.live = true := by
  have inv : Guarded s := ReachableBy.invariant (start_guarded nodes)
    (fun _ _ _ inv inTime h => step_guarded inv inTime h) run
  exact ⟨inv.faultless, inv.held⟩

/-- `Start` has failed and the first node is released, its entry null. -/
def firstReleased : List Label := failedStart ++ [.main, .main, .main]

/-- The thread of the third node gets to its `Init` and sends to the first node and to the fourth. -/
def sendsLate : List Label :=
  firstReleased ++
    [.worker 3 .start, .begin (.worker 3) (.sendMessage 1), .read 0,
      .begin (.worker 3) (.sendMessage 4), .read 1, .use 1 true]

/-- The null entry of the first node is answered by an error, the other message is pushed. -/
theorem sends_around_released :
    ∃ s, (scheduler pipeline).execWhile inTime (scheduler pipeline).start sendsLate = some s ∧
      (s.slots[1]?.map fun slot => (slot.pointer, slot.live)) = some (false, false) ∧
      s.ops = [⟨.worker 3, .sendMessage 1, 1, .returned (some kDestInvalid)⟩,
        ⟨.worker 3, .sendMessage 4, 4, .returned none⟩] ∧
      s.faults = [] := by
  obtain ⟨s, run, released, ops⟩ : ∃ s,
      (scheduler pipeline).execWhile inTime (scheduler pipeline).start sendsLate = some s ∧
      (s.slots[1]?.map fun slot => (slot.pointer, slot.live)) = some (false, false) ∧
      s.ops = [⟨.worker 3, .sendMessage 1, 1, .returned (some kDestInvalid)⟩,
        ⟨.worker 3, .sendMessage 4, 4, .returned none⟩] :=
    ⟨_, rfl, rfl, rfl⟩
  exact ⟨s, run, released, ops, (operations_touch_live pipeline (Machine.execWhile_steps run)).1⟩

/-- There the third node looks up the fourth instead. -/
def lookUpLate : List Label :=
  firstReleased ++
    [.worker 3 .start, .begin (.worker 3) (.taskNodeIdByName "EncProcess"), .read 0, .use 0 false,
      .read 0, .use 0 false]

/-- The lookup goes through the null entry of the first node. -/
theorem lookup_dereferences_null :
    ¬∀ nodes s, Reachable (scheduler nodes) s → s.faults = [] := by
  intro claim
  obtain ⟨s, run, fault⟩ : ∃ s,
      (scheduler pipeline).exec (scheduler pipeline).start lookUpLate = some s ∧
      s.faults = [⟨1, true⟩] := ⟨_, rfl, rfl⟩
  have none := claim pipeline s (Machine.exec_reachable run)
  rw [fault] at none
  cases none

end ReleasedSlots
