import AxVision.TransitionRuns
import AxVision.ReplacedEntries

/-!
# The pool of HTTP handles

Threads call `Acquire` and `Release` of one `HandlePool`. The sections under the
lock are single steps; `curl_easy_init` runs between two of them and may fail.
A waiting thread leaves the condition variable when it is notified or
spuriously, and looks at the free handles again once it has the lock.
-/

namespace HandlePools

open TransitionRuns ReplacedEntries

abbrev Handle := Nat

/-- A thread between its requests, in `Acquire`, and with what `Acquire` returned. -/
inductive Phase where
  | idle
  /-- counted and unlocked; `curl_easy_init` is to return this -/
  | creating (result : Option Handle)
  | waiting
  /-- out of the wait, by a notification or not, and without the lock -/
  | woken (notified : Bool)
  | holding (result : Option Handle)
  deriving DecidableEq, Repr

structure HandlePool where
  maxSize : Nat
  freeHandles : List Handle := []
  created : Nat := 0
  /-- the handles that `curl_easy_init` has made so far are the ones below -/
  made : Nat := 0
  threads : List Phase
  deriving DecidableEq, Repr

inductive Label where
  /-- `ok`: `curl_easy_init` succeeds, should it be called -/
  | acquire (t : Nat) (ok : Bool)
  | created (t : Nat)
  | wake (t : Nat)
  | resume (t : Nat)
  /-- `w` is the waiting thread that `notify_one` picks -/
  | release (t w : Nat)
  deriving DecidableEq, Repr

def HandlePool.setPhase (s : HandlePool) (t : Nat) (phase : Phase) : HandlePool :=
  { s with threads := s.threads.set t phase }

/-- `back` and `pop_back` of the free handles. -/
def HandlePool.popFree (s : HandlePool) : Option (Handle × HandlePool) :=
  s.freeHandles.getLast?.map fun h => (h, { s with freeHandles := s.freeHandles.dropLast })

/-- The locked part of `Acquire` up to its wait. -/
def HandlePool.acquire (s : HandlePool) (t : Nat) (ok : Bool) : HandlePool :=
  match s.popFree with
  | some (h, rest) => rest.setPhase t (.holding (some h))
  | none =>
    if s.created < s.maxSize then
      { s.setPhase t (.creating (if ok then some s.made else none)) with
        created := s.created + 1
        made := if ok then s.made + 1 else s.made }
    else s.setPhase t .waiting

/-- A thread that is out of the wait tests the predicate and goes on or back. -/
def HandlePool.resume (s : HandlePool) (t : Nat) : HandlePool :=
  match s.popFree with
  | some (h, rest) => rest.setPhase t (.holding (some h))
  | none => s.setPhase t .waiting

/-- `notify_one` wakes one of the waiting threads, if there is one. -/
def HandlePool.notifyOne (s : HandlePool) (w : Nat) : Option HandlePool :=
  if s.threads[w]? = some .waiting then some (s.setPhase w (.woken true))
  else if .waiting ∈ s.threads then none
  else some s

def HandlePool.release (s : HandlePool) (t w : Nat) : Option Handle → Option HandlePool
  | none => some { s.setPhase t .idle with created := s.created - 1 }
  | some h => { s.setPhase t .idle with freeHandles := s.freeHandles ++ [h] }.notifyOne w

def HandlePool.step (s : HandlePool) : Label → Option HandlePool
  | .acquire t ok => if s.threads[t]? = some .idle then some (s.acquire t ok) else none
  | .created t =>
    match s.threads[t]? with
    | some (.creating result) => some (s.setPhase t (.holding result))
    | _ => none
  | .wake t => if s.threads[t]? = some .waiting then some (s.setPhase t (.woken false)) else none
  | .resume t =>
    match s.threads[t]? with
    | some (.woken _) => some (s.resume t)
    | _ => none
  | .release t w =>
    match s.threads[t]? with
    | some (.holding result) => s.release t w result
    | _ => none

/-- The pool of a client with any number of threads. -/
def handlePool (maxSize threads : Nat) : Machine HandlePool Label where
  start :=
    { maxSize := if maxSize = 0 then 1 else maxSize, threads := List.replicate threads .idle }
  step := HandlePool.step

/-- An acquisition that has not been released. -/
def Phase.outstanding : Phase → Bool
  | .creating _ | .holding _ => true
  | _ => false

/-- The handle an outstanding acquisition has or is to get. -/
def Phase.handle : Phase → Option Handle
  | .creating result | .holding result => result
  | _ => none

def HandlePool.outstanding (s : HandlePool) : Nat := s.threads.countP Phase.outstanding

def HandlePool.held (s : HandlePool) : List Handle := s.threads.filterMap Phase.handle

/-- The counter covers the free handles and the outstanding acquisitions, and no
handle is in two places. -/
structure Accounted (s : HandlePool) : Prop where
  created : s.created = s.freeHandles.length + s.outstanding
  bounded : s.created ≤ s.maxSize
  nodup : (s.freeHandles ++ s.held).Nodup

/-- While a thread is blocked and no notification is on its way, somebody has a
handle whose release will notify. -/
def Supplied (s : HandlePool) : Prop :=
  .waiting ∈ s.threads → .woken true ∉ s.threads → ∃ h, h ∈ s.held

/-- `Acquire` does not come to its wait while `curl_easy_init` has never succeeded. -/
def WaitsForHandle (s : HandlePool) : Label → Prop
  | .acquire t _ =>
    s.threads[t]? = some .idle → s.freeHandles = [] → s.maxSize ≤ s.created → 0 < s.made
  | _ => True

/-- What a step does, with what it has found. -/
inductive Moved (s : HandlePool) : Label → HandlePool → Prop where
  | take {l : Label} {t : Nat} {old : Phase} {free : List Handle} {h : Handle} :
      s.threads[t]? = some old → old = .idle ∨ (∃ notified, old = .woken notified) →
      s.freeHandles = free ++ [h] →
      Moved s l { s with freeHandles := free, threads := s.threads.set t (.holding (some h)) }
  | create {t : Nat} {ok : Bool} :
      s.threads[t]? = some .idle → s.freeHandles = [] → s.created < s.maxSize →
      Moved s (.acquire t ok)
        { s with
          created := s.created + 1
          made := if ok then s.made + 1 else s.made
          threads := s.threads.set t (.creating (if ok then some s.made else none)) }
  | block {t : Nat} {ok : Bool} :
      s.threads[t]? = some .idle → s.freeHandles = [] → s.maxSize ≤ s.created →
      Moved s (.acquire t ok) (s.setPhase t .waiting)
  | blockAgain {t : Nat} {notified : Bool} :
      s.threads[t]? = some (.woken notified) → s.freeHandles = [] →
      Moved s (.resume t) (s.setPhase t .waiting)
  | created {t : Nat} {result : Option Handle} :
      s.threads[t]? = some (.creating result) →
      Moved s (.created t) (s.setPhase t (.holding result))
  | wake {t : Nat} :
      s.threads[t]? = some .waiting → Moved s (.wake t) (s.setPhase t (.woken false))
  | discard {t w : Nat} :
      s.threads[t]? = some (.holding none) →
      Moved s (.release t w) { s.setPhase t .idle with created := s.created - 1 }
  | handOn {t w : Nat} {h : Handle} :
      s.threads[t]? = some (.holding (some h)) → (s.threads.set t .idle)[w]? = some .waiting →
      Moved s (.release t w)
        { s with
          freeHandles := s.freeHandles ++ [h]
          threads := (s.threads.set t .idle).set w (.woken true) }
  | giveBack {t w : Nat} {h : Handle} :
      s.threads[t]? = some (.holding (some h)) → .waiting ∉ s.threads.set t .idle →
      Moved s (.release t w)
        { s with freeHandles := s.freeHandles ++ [h], threads := s.threads.set t .idle }

section Steps

variable {s r : HandlePool} {t : Nat} {l : Label} {old new : Phase}

theorem popFree_some {h : Handle} (pop : s.popFree = some (h, r)) :
    ∃ free, s.freeHandles = free ++ [h] ∧ r = { s with freeHandles := free } := by
  obtain ⟨last, back, same⟩ := Option.map_eq_some_iff.mp pop
  cases same
  exact ⟨_, (List.dropLast_append_getLast? h back).symm, rfl⟩

theorem popFree_none (pop : s.popFree = none) : s.freeHandles = [] :=
  List.getLast?_eq_none_iff.mp (Option.map_eq_none_iff.mp pop)

theorem acquire_moved {ok : Bool} (here : s.threads[t]? = some .idle) :
    Moved s (.acquire t ok) (s.acquire t ok) := by
  unfold HandlePool.acquire
  split
  · rename_i h rest pop
    obtain ⟨free, back, rfl⟩ := popFree_some pop
    exact .take here (.inl rfl) back
  · rename_i pop
    split
    · rename_i room
      exact .create here (popFree_none pop) room
    · rename_i full
      exact .block here (popFree_none pop) (Nat.le_of_not_lt full)

theorem resume_moved {notified : Bool} (here : s.threads[t]? = some (.woken notified)) :
    Moved s (.resume t) (s.resume t) := by
  unfold HandlePool.resume
  split
  · rename_i h rest pop
    obtain ⟨free, back, rfl⟩ := popFree_some pop
    exact .take here (.inr ⟨notified, rfl⟩) back
  · rename_i pop
    exact .blockAgain here (popFree_none pop)

theorem release_moved {w : Nat} {result : Option Handle}
    (here : s.threads[t]? = some (.holding result)) (step : s.release t w result = some r) :
    Moved s (.release t w) r := by
  cases result with
  | none =>
    cases step
    exact .discard here
  | some h =>
    simp only [HandlePool.release, HandlePool.notifyOne] at step
    split at step
    · rename_i picked
      cases step
      exact .handOn here picked
    · split at step
      · cases step
      · rename_i nobody
        cases step
        exact .giveBack here nobody

theorem step_moved (step : s.step l = some r) : Moved s l r := by
  cases l with
  | acquire t ok =>
    simp only [HandlePool.step] at step
    split at step
    · rename_i here
      cases step
      exact acquire_moved here
    · cases step
  | created t =>
    simp only [HandlePool.step] at step
    split at step
    · rename_i result here
      cases step
      exact .created here
    · cases step
  | wake t =>
    simp only [HandlePool.step] at step
    split at step
    · rename_i here
      cases step
      exact .wake here
    · cases step
  | resume t =>
    simp only [HandlePool.step] at step
    split at step
    · rename_i notified here
      cases step
      exact resume_moved here
    · cases step
  | release t w =>
    simp only [HandlePool.step] at step
    split at step
    · rename_i result here
      exact release_moved here step
    · cases step

end Steps

/-- A notification that its thread has not yet acted on. -/
def Phase.notified : Phase → Bool
  | .woken notified => notified
  | _ => false

def HandlePool.notified (s : HandlePool) : Nat := s.threads.countP Phase.notified

/-- The invariant of every run. Handles are never given up, so the made ones are
free or held; while a thread waits each free handle has been announced. -/
structure Inv (s : HandlePool) : Prop where
  created : s.created = s.freeHandles.length + s.outstanding
  bounded : s.created ≤ s.maxSize
  made : (s.freeHandles ++ s.held).Perm (List.range s.made)
  announced : .waiting ∈ s.threads → s.freeHandles.length ≤ s.notified
  notified : 0 < s.notified → 0 < s.made

section Counting

variable {threads : List Phase} {t : Nat} {old new : Phase}

/-- The handles of the threads when one of them moves on. -/
theorem handles_replaced (new : Phase) (here : threads[t]? = some old) :
    (old.handle.toList ++ (threads.set t new).filterMap Phase.handle).Perm
      (new.handle.toList ++ threads.filterMap Phase.handle) := by
  have perm := (replaced_perm new here).filterMap Phase.handle
  cases left : old.handle with
  | none => cases right : new.handle <;> simpa [left, right] using perm
  | some h => cases right : new.handle <;> simpa [left, right] using perm

theorem held_taken {h : Handle} (here : threads[t]? = some old) (before : old.handle = none)
    (after : new.handle = some h) :
    ((threads.set t new).filterMap Phase.handle).Perm (h :: threads.filterMap Phase.handle) := by
  simpa [before, after] using handles_replaced new here

theorem held_left {h : Handle} (here : threads[t]? = some old) (before : old.handle = some h)
    (after : new.handle = none) :
    (h :: (threads.set t new).filterMap Phase.handle).Perm (threads.filterMap Phase.handle) := by
  simpa [before, after] using handles_replaced new here

theorem held_same (new : Phase) (here : threads[t]? = some old) (same : new.handle = old.handle) :
    ((threads.set t new).filterMap Phase.handle).Perm (threads.filterMap Phase.handle) := by
  have perm := handles_replaced new here
  rw [same] at perm
  exact (List.perm_append_left_iff _).mp perm

theorem notified_le (here : threads[t]? = some old) (quiet : new.notified = false) :
    (threads.set t new).countP Phase.notified ≤ threads.countP Phase.notified := by
  cases raised : old.notified with
  | false =>
    have same := countP_replaced_same here (quiet.trans raised.symm)
    omega
  | true =>
    have less := countP_replaced_less here raised quiet
    omega

theorem le_notified (new : Phase) (here : threads[t]? = some old) :
    threads.countP Phase.notified ≤ (threads.set t new).countP Phase.notified + 1 := by
  have count : (threads.set t new).countP Phase.notified + (if old.notified then 1 else 0) =
      threads.countP Phase.notified + if new.notified then 1 else 0 :=
    countP_replaced Phase.notified here
  have most : (if old.notified then 1 else 0) ≤ 1 := by
    split
    · exact Nat.le_refl 1
    · exact Nat.zero_le 1
  omega

theorem still_waiting (awake : new ≠ .waiting) (mem : .waiting ∈ threads.set t new) :
    .waiting ∈ threads := by
  obtain mem | same := mem_replaced mem
  · exact mem
  · exact absurd same.symm awake

end Counting

section Invariant

variable {s r : HandlePool} {t : Nat} {l : Label} {old : Phase}

/-- A change of phase that moves no handle and raises no notification. -/
theorem Inv.setPhase (inv : Inv s) (new : Phase) (here : s.threads[t]? = some old)
    (handle : new.handle = old.handle) (counted : new.outstanding = old.outstanding)
    (quiet : new.notified = false)
    (announced : .waiting ∈ s.threads.set t new →
      s.freeHandles.length ≤ (s.threads.set t new).countP Phase.notified) :
    Inv (s.setPhase t new) := by
  constructor
  · have before := inv.created
    rw [HandlePool.outstanding, ← countP_replaced_same here counted] at before
    exact before
  · exact inv.bounded
  · exact ((held_same new here handle).append_left _).trans inv.made
  · exact announced
  · intro later
    exact inv.notified (Nat.lt_of_lt_of_le later (notified_le here quiet))

theorem Inv.announced_same (inv : Inv s) (new : Phase) (here : s.threads[t]? = some old)
    (awake : new ≠ .waiting) (same : new.notified = old.notified)
    (waits : .waiting ∈ s.threads.set t new) :
    s.freeHandles.length ≤ (s.threads.set t new).countP Phase.notified := by
  have before := inv.announced (still_waiting awake waits)
  rwa [HandlePool.notified, ← countP_replaced_same here same] at before

theorem take_inv {free : List Handle} {h : Handle} (inv : Inv s)
    (here : s.threads[t]? = some old) (out : old = .idle ∨ ∃ notified, old = .woken notified)
    (back : s.freeHandles = free ++ [h]) :
    Inv { s with freeHandles := free, threads := s.threads.set t (.holding (some h)) } := by
  obtain ⟨handle, counted⟩ : old.handle = none ∧ old.outstanding = false := by
    obtain rfl | ⟨notified, rfl⟩ := out
    · exact ⟨rfl, rfl⟩
    · exact ⟨rfl, rfl⟩
  have length : s.freeHandles.length = free.length + 1 := by
    rw [back, List.length_append, List.length_singleton]
  constructor
  · have count : (s.threads.set t (.holding (some h))).countP Phase.outstanding =
        s.threads.countP Phase.outstanding + 1 := countP_replaced_more here counted rfl
    have before := inv.created
    simp only [HandlePool.outstanding] at before ⊢
    omega
  · exact inv.bounded
  · have perm : ((s.threads.set t (.holding (some h))).filterMap Phase.handle).Perm
        (h :: s.threads.filterMap Phase.handle) := held_taken here handle rfl
    apply (perm.append_left free).trans
    have made := inv.made
    rw [back, List.append_assoc] at made
    exact made
  · intro waits
    have before := inv.announced (still_waiting (fun same => by cases same) waits)
    have after := le_notified (.holding (some h)) here
    simp only [HandlePool.notified] at before ⊢
    omega
  · intro later
    exact inv.notified (Nat.lt_of_lt_of_le later (notified_le here rfl))

theorem create_inv {result : Option Handle} {made : Nat} (inv : Inv s)
    (here : s.threads[t]? = some .idle) (empty : s.freeHandles = []) (room : s.created < s.maxSize)
    (next : result = none ∧ made = s.made ∨ result = some s.made ∧ made = s.made + 1) :
    Inv { s with
      created := s.created + 1
      made := made
      threads := s.threads.set t (.creating result) } := by
  constructor
  · have count : (s.threads.set t (.creating result)).countP Phase.outstanding =
        s.threads.countP Phase.outstanding + 1 := countP_replaced_more here rfl rfl
    have before := inv.created
    simp only [HandlePool.outstanding] at before ⊢
    omega
  · exact room
  · have before := inv.made
    rw [empty, List.nil_append] at before
    simp only [HandlePool.held, empty, List.nil_append]
    obtain ⟨rfl, rfl⟩ | ⟨rfl, rfl⟩ := next
    · exact (held_same (.creating none) here rfl).trans before
    · apply (held_taken here rfl rfl).trans
      rw [List.range_succ]
      exact (before.cons s.made).trans (List.perm_append_singleton s.made _).symm
  · intro waits
    rw [empty]
    exact Nat.zero_le _
  · intro later
    have before := inv.notified (Nat.lt_of_lt_of_le later (notified_le here rfl))
    obtain ⟨-, rfl⟩ | ⟨-, rfl⟩ := next
    · exact before
    · exact Nat.succ_pos _

theorem discard_inv (inv : Inv s) (here : s.threads[t]? = some (.holding none)) :
    Inv { s with created := s.created - 1, threads := s.threads.set t .idle } := by
  constructor
  · have count : (s.threads.set t .idle).countP Phase.outstanding + 1 =
        s.threads.countP Phase.outstanding := countP_replaced_less here rfl rfl
    have before := inv.created
    simp only [HandlePool.outstanding] at before ⊢
    omega
  · exact Nat.le_trans (Nat.sub_le _ _) inv.bounded
  · exact ((held_same .idle here rfl).append_left _).trans inv.made
  · exact inv.announced_same .idle here (fun same => by cases same) rfl
  · intro later
    exact inv.notified (Nat.lt_of_lt_of_le later (notified_le here rfl))

/-- The push of a handle, before anybody is notified. -/
theorem push_counts {h : Handle} (inv : Inv s) (here : s.threads[t]? = some (.holding (some h))) :
    s.created = (s.freeHandles ++ [h]).length + (s.threads.set t .idle).countP Phase.outstanding ∧
      ((s.freeHandles ++ [h]) ++ (s.threads.set t .idle).filterMap Phase.handle).Perm
        (List.range s.made) ∧
      (s.threads.set t .idle).countP Phase.notified = s.notified ∧ 0 < s.made := by
  have made : ((s.freeHandles ++ [h]) ++ (s.threads.set t .idle).filterMap Phase.handle).Perm
      (List.range s.made) := by
    have left : (h :: (s.threads.set t .idle).filterMap Phase.handle).Perm s.held :=
      held_left here rfl rfl
    rw [List.append_assoc]
    exact (left.append_left _).trans inv.made
  refine ⟨?_, made, countP_replaced_same here rfl, ?_⟩
  · have count : (s.threads.set t .idle).countP Phase.outstanding + 1 =
        s.threads.countP Phase.outstanding := countP_replaced_less here rfl rfl
    have before := inv.created
    rw [List.length_append, List.length_singleton]
    simp only [HandlePool.outstanding] at before
    omega
  · have length := made.length_eq
    simp only [List.length_append, List.length_singleton, List.length_range] at length
    omega

theorem handOn_inv {w : Nat} {h : Handle} (inv : Inv s)
    (here : s.threads[t]? = some (.holding (some h)))
    (picked : (s.threads.set t .idle)[w]? = some .waiting) :
    Inv { s with
      freeHandles := s.freeHandles ++ [h]
      threads := (s.threads.set t .idle).set w (.woken true) } := by
  obtain ⟨created, made, notices, some_made⟩ := push_counts inv here
  constructor
  · have count : ((s.threads.set t .idle).set w (.woken true)).countP Phase.outstanding =
        (s.threads.set t .idle).countP Phase.outstanding := countP_replaced_same picked rfl
    simp only [HandlePool.outstanding]
    omega
  · exact inv.bounded
  · exact ((held_same (.woken true) picked rfl).append_left _).trans made
  · intro _
    have waited : .waiting ∈ s.threads :=
      still_waiting (fun same => by cases same) (List.mem_of_getElem? picked)
    have before := inv.announced waited
    have raised : ((s.threads.set t .idle).set w (.woken true)).countP Phase.notified =
        (s.threads.set t .idle).countP Phase.notified + 1 := countP_replaced_more picked rfl rfl
    simp only [HandlePool.notified, List.length_append, List.length_singleton] at before notices ⊢
    omega
  · intro _
    exact some_made

theorem step_inv (inv : Inv s) (step : s.step l = some r) : Inv r := by
  cases step_moved step with
  | take here out back => exact take_inv inv here out back
  | @create t ok here empty room =>
    apply create_inv inv here empty room
    cases ok with
    | false => exact .inl ⟨rfl, rfl⟩
    | true => exact .inr ⟨rfl, rfl⟩
  | block here empty full =>
    apply inv.setPhase .waiting here rfl rfl rfl
    intro _
    rw [empty]
    exact Nat.zero_le _
  | blockAgain here empty =>
    apply inv.setPhase .waiting here rfl rfl rfl
    intro _
    rw [empty]
    exact Nat.zero_le _
  | @created t result here =>
    exact inv.setPhase (.holding result) here rfl rfl rfl
      (inv.announced_same (.holding result) here (fun same => by cases same) rfl)
  | wake here =>
    exact inv.setPhase (.woken false) here rfl rfl rfl
      (inv.announced_same (.woken false) here (fun same => by cases same) rfl)
  | discard here => exact discard_inv inv here
  | handOn here picked => exact handOn_inv inv here picked
  | giveBack here nobody =>
    obtain ⟨created, made, notices, some_made⟩ := push_counts inv here
    exact ⟨created, inv.bounded, made, fun waits => absurd waits nobody, fun _ => some_made⟩

/-- A thread that has come to its wait and not yet got a handle. -/
def Phase.asleep : Phase → Bool
  | .waiting | .woken _ => true
  | _ => false

/-- Nobody waits before a handle has been made. -/
def Guarded (s : HandlePool) : Prop := ∀ phase ∈ s.threads, phase.asleep = true → 0 < s.made

theorem Guarded.replaced (guarded : Guarded s) (new : Phase) {phase : Phase}
    (counts : new.asleep = true → 0 < s.made) (mem : phase ∈ s.threads.set t new)
    (asleep : phase.asleep = true) : 0 < s.made := by
  obtain mem | rfl := mem_replaced mem
  · exact guarded phase mem asleep
  · exact counts asleep

theorem step_guarded (inv : Inv s) (guarded : Guarded s) (waits : WaitsForHandle s l)
    (step : s.step l = some r) : Guarded r := by
  intro phase mem asleep
  cases step_moved step with
  | take here out back => exact guarded.replaced _ (fun sleeps => by cases sleeps) mem asleep
  | @create t ok here empty room =>
    have before := guarded.replaced _ (fun sleeps => by cases sleeps) mem asleep
    cases ok with
    | false => exact before
    | true => exact Nat.succ_pos _
  | block here empty full =>
    exact guarded.replaced .waiting (fun _ => waits here empty full) mem asleep
  | blockAgain here empty =>
    have made := guarded _ (List.mem_of_getElem? here) rfl
    exact guarded.replaced .waiting (fun _ => made) mem asleep
  | created here => exact guarded.replaced _ (fun sleeps => by cases sleeps) mem asleep
  | wake here =>
    have made := guarded _ (List.mem_of_getElem? here) rfl
    exact guarded.replaced (.woken false) (fun _ => made) mem asleep
  | discard here => exact guarded.replaced .idle (fun sleeps => by cases sleeps) mem asleep
  | handOn here picked => exact (push_counts inv here).2.2.2
  | giveBack here nobody => exact (push_counts inv here).2.2.2

theorem Inv.accounted (inv : Inv s) : Accounted s where
  created := inv.created
  bounded := inv.bounded
  nodup := inv.made.nodup_iff.mpr List.nodup_range

theorem Inv.supplied (inv : Inv s) (guarded : Guarded s) : Supplied s := by
  intro waits quiet
  have made := guarded _ waits rfl
  have none : s.notified = 0 := by
    apply List.countP_eq_zero.mpr
    intro phase mem notified
    cases phase with
    | woken raised =>
      have same : raised = true := notified
      exact quiet (same ▸ mem)
    | _ => cases notified
  have announced := inv.announced waits
  have length := inv.made.length_eq
  rw [List.length_append, List.length_range] at length
  have some_held : 0 < s.held.length := by omega
  exact List.exists_mem_of_length_pos some_held

/-- Coming to the wait before any handle has been made strands the thread. -/
theorem block_strands (inv : Inv s) (step : s.step l = some r) (early : ¬WaitsForHandle s l) :
    ¬Supplied r := by
  cases l with
  | acquire t ok =>
    simp only [WaitsForHandle, Classical.not_imp] at early
    obtain ⟨here, empty, full, none⟩ := early
    have pop : s.popFree = Option.none := by
      rw [HandlePool.popFree, empty]
      rfl
    have blocked : r = s.setPhase t .waiting := by
      simp only [HandlePool.step, if_pos here, HandlePool.acquire, pop,
        if_neg (Nat.not_lt_of_le full)] at step
      exact (Option.some.inj step).symm
    subst blocked
    have nothing : s.held = [] := by
      have made := inv.made
      rw [empty, Nat.eq_zero_of_not_pos none] at made
      exact made.eq_nil
    intro supplied
    obtain ⟨h, held⟩ := supplied (List.mem_of_getElem? (replaced_self here)) (by
      intro mem
      obtain mem | same := mem_replaced mem
      · exact none (inv.notified (List.countP_pos_iff.mpr ⟨_, mem, rfl⟩))
      · cases same)
    have still := (held_same .waiting here rfl).mem_iff.mp held
    change h ∈ s.held at still
    rw [nothing] at still
    cases still
  | created t => exact absurd trivial early
  | wake t => exact absurd trivial early
  | resume t => exact absurd trivial early
  | release t w => exact absurd trivial early

theorem start_inv (maxSize threads : Nat) : Inv (handlePool maxSize threads).start := by
  have none : ∀ p : Phase → Bool, p .idle = false →
      (List.replicate threads Phase.idle).countP p = 0 := by
    intro p idle
    apply List.countP_eq_zero.mpr
    intro phase mem
    rw [List.eq_of_mem_replicate mem, idle]
    exact Bool.false_ne_true
  have held : (List.replicate threads Phase.idle).filterMap Phase.handle = [] := by
    apply List.filterMap_eq_nil_iff.mpr
    intro phase mem
    rw [List.eq_of_mem_replicate mem]
    rfl
  constructor
  · exact ((Nat.zero_add _).trans (none Phase.outstanding rfl)).symm
  · exact Nat.zero_le _
  · exact List.Perm.of_eq held
  · intro _
    exact Nat.zero_le _
  · intro later
    rw [HandlePool.notified, handlePool, none Phase.notified rfl] at later
    cases later

theorem start_guarded (maxSize threads : Nat) : Guarded (handlePool maxSize threads).start := by
  intro phase mem asleep
  rw [List.eq_of_mem_replicate mem] at asleep
  cases asleep

end Invariant

theorem reachable_inv {maxSize threads : Nat} {s : HandlePool}
    (reached : Reachable (handlePool maxSize threads) s) : Inv s :=
  reached.invariant (start_inv maxSize threads) fun _ _ _ inv step => step_inv inv step

/-- In every run the counter is right and no handle is in two places. No waiter
is stranded in a run whose threads wait only once a handle has been made, and
the first wait before that strands its thread. -/
theorem waiters_supplied (maxSize threads : Nat) :
    (∀ s, Reachable (handlePool maxSize threads) s → Accounted s) ∧
      (∀ s, ReachableBy (handlePool maxSize threads) WaitsForHandle s → Supplied s) ∧
        ∀ s l r, Reachable (handlePool maxSize threads) s → s.step l = some r →
          ¬WaitsForHandle s l → ¬Supplied r := by
  refine ⟨?_, ?_, ?_⟩
  · intro s reached
    exact (reachable_inv reached).accounted
  · intro s reached
    have both : Inv s ∧ Guarded s := by
      refine ReachableBy.invariant (I := fun s => Inv s ∧ Guarded s)
        ⟨start_inv maxSize threads, start_guarded maxSize threads⟩ ?_ reached
      intro s l r both waits step
      exact ⟨step_inv both.1 step, step_guarded both.1 both.2 waits step⟩
    exact both.1.supplied both.2
  · intro s l r reached step early
    exact block_strands (reachable_inv reached) step early

/-- One handle, which thread 0 has while thread 1 waits for it. -/
def oneWaiter : HandlePool where
  maxSize := 1
  created := 1
  made := 1
  threads := [.holding (some 0), .waiting]

theorem oneWaiter_supplied : Accounted oneWaiter ∧ Supplied oneWaiter := by
  have reached : ReachableBy (handlePool 1 2) WaitsForHandle oneWaiter := by
    have first : Steps (handlePool 1 2) WaitsForHandle (handlePool 1 2).start
        { maxSize := 1, created := 1, made := 1, threads := [.creating (some 0), .idle] } :=
      Steps.single (l := .acquire 0 true) (fun _ _ full => absurd full (by decide)) rfl
    have second : Steps (handlePool 1 2) WaitsForHandle (handlePool 1 2).start
        { maxSize := 1, created := 1, made := 1, threads := [.holding (some 0), .idle] } :=
      first.snoc (l := .created 0) True.intro rfl
    exact second.snoc (l := .acquire 1 true) (fun _ _ _ => by decide) rfl
  exact ⟨(waiters_supplied 1 2).1 _ reached.reachable, (waiters_supplied 1 2).2.1 _ reached⟩

/-- `curl_easy_init` fails for thread 0, and its release leaves thread 1 waiting
at a pool with room for a handle. -/
theorem failed_init_strands :
    ¬∀ (maxSize threads : Nat) (s : HandlePool), Reachable (handlePool maxSize threads) s →
      Accounted s ∧ Supplied s := by
  intro always
  have reached : Reachable (handlePool 1 2) { maxSize := 1, threads := [.idle, .waiting] } :=
    have run : (handlePool 1 2).exec (handlePool 1 2).start
        [.acquire 0 false, .acquire 1 true, .created 0, .release 0 1] =
          some { maxSize := 1, threads := [.idle, .waiting] } := rfl
    Machine.exec_reachable run
  obtain ⟨h, held⟩ := (always 1 2 _ reached).2 (by decide) (by decide)
  cases held

end HandlePools
