import AxVision.HostServices
import AxVision.Ledgers
import AxVision.ReplacedEntries

/-!
# What an in-flight gate counts

A gate counts the calls that are still undecided, the accepted jobs that have
not finished, and, for good, the jobs that threw. Without a throw the count is
the in-flight number, and no thread stays in `WaitQuiesce` once the last job
of its name is over. The wake-up argument needs the order of the two waits: a
waiter dozes or sleeps only while the count is positive or a notifier is due.
-/

namespace GateAccounting

open TransitionRuns HostServices Ledgers ReplacedEntries

/-- Between the `fetch_add` of `SubmitAsync` and its acceptance or rejection. -/
def undecided : CallPhase → Bool
  | .submitting => true
  | .refused => true
  | _ => false

/-- Accepted, and neither returned nor thrown. -/
def unfinished : CallPhase → Bool
  | .accepted _ .queued => true
  | .accepted _ .running => true
  | _ => false

def threw : CallPhase → Bool
  | .accepted _ (.ended true) => true
  | .accepted _ (.released true) => true
  | _ => false

/-- The thread of this call still has to notify the waiters. -/
def notifies : CallPhase → Bool
  | .rollbackNotify => true
  | .accepted _ .notifying => true
  | _ => false

/-- The call holds a unit of its gate. -/
def raised (p : CallPhase) : Bool := undecided p || unfinished p || threw p

def unit (name : String) (kind : CallPhase → Bool) (c : Call) : Nat :=
  if c.name = name ∧ kind c.phase = true then 1 else 0

def countCalls (s : State) (name : String) (kind : CallPhase → Bool) : Nat :=
  total (unit name kind) s.calls

theorem raised_split (s : State) (name : String) :
    countCalls s name raised =
      countCalls s name undecided + countCalls s name unfinished + countCalls s name threw := by
  have parts : ∀ c ∈ s.calls, unit name raised c =
      unit name undecided c + unit name unfinished c + unit name threw c := by
    rintro ⟨n, p⟩ -
    by_cases hn : n = name
    · rcases p with _ | _ | _ | _ | ⟨b, _ | _ | _ | ⟨_ | _⟩ | ⟨_ | _⟩⟩ <;>
        simp [hn, unit, raised, undecided, unfinished, threw]
    · simp [hn, unit]
  unfold countCalls
  rw [total_congr parts, total_add, total_add]

theorem countCalls_set {s : State} {i : Nat} {name : String} {p : CallPhase}
    (held : s.calls[i]? = some ⟨name, p⟩) (q : CallPhase) (other : String)
    (kind : CallPhase → Bool) :
    countCalls (s.setCall i ⟨name, q⟩) other kind + unit other kind ⟨name, p⟩ =
      countCalls s other kind + unit other kind ⟨name, q⟩ :=
  total_set (unit other kind) held ⟨name, q⟩

/-- The exact reading of every gate, throwing jobs included. -/
def Balanced (s : State) : Prop :=
  ∀ name, s.count name = (countCalls s name raised : Int)

theorem count_addCount (s : State) (name other : String) (d : Int) :
    (s.addCount name d).count other = s.count other + (if name = other then d else 0) := by
  by_cases h : other = name
  · subst h
    simp [State.addCount, State.count]
  · have h' : ¬ name = other := fun e => h e.symm
    simp [State.addCount, State.count, h, h']

theorem move_raised {p q : CallPhase} (h : CallMove p q) : raised q = raised p := by
  cases h with
  | leave c d job => rcases job with _ | _ | _ | ⟨_ | _⟩ | ⟨_ | _⟩ <;> rfl
  | release b t => cases t <;> rfl
  | _ => rfl

theorem move_notifies {p q : CallPhase} (h : CallMove p q) : notifies q = notifies p := by
  cases h with
  | leave c d job => rcases job with _ | _ | _ | ⟨_ | _⟩ | ⟨_ | _⟩ <;> rfl
  | _ => rfl

theorem lowering_raised {last : Prop} [Decidable last] {p q : CallPhase}
    (h : Lowering last p q) :
    raised p = true ∧ raised q = false ∧ (notifies q = true ↔ last) ∧ notifies p = false := by
  cases h with
  | rollback => by_cases hl : last <;> simp [hl, raised, undecided, unfinished, threw, notifies]
  | finish b => by_cases hl : last <;> simp [hl, raised, undecided, unfinished, threw, notifies]

theorem notifying_raised {p q : CallPhase} (h : Notifying p q) :
    raised p = false ∧ raised q = false ∧ notifies p = true ∧ notifies q = false := by
  cases h <;> exact ⟨rfl, rfl, rfl, rfl⟩

theorem effect_balanced {s t : State} {new : Option String} (h : Effect s new t) (hs : Balanced s) : Balanced t := by
  intro name
  have before := hs name
  cases h with
  | submit n =>
    have hcount : (submitAsync s n).count name = s.count name + (if n = name then 1 else 0) :=
      count_addCount s n name 1
    have hcalls : countCalls (submitAsync s n) name raised =
        countCalls s name raised + (if n = name then 1 else 0) := by
      simp [countCalls, submitAsync, unit, raised, undecided]
    rw [hcount, hcalls, before]
    split <;> simp
  | move i n p q tasks workers held hmove =>
    have set := countCalls_set held q name raised
    simp only [unit, move_raised hmove] at set
    change s.count name = (countCalls (s.setCall i ⟨n, q⟩) name raised : Int)
    omega
  | lower i n p q held hlow =>
    obtain ⟨hp, hq, -, -⟩ := lowering_raised hlow
    have set := countCalls_set held q name raised
    simp only [unit, hp, hq, and_true, Bool.false_eq_true, and_false, if_false] at set
    have hcount := count_addCount s n name (-1)
    change (s.addCount n (-1)).count name = (countCalls (s.setCall i ⟨n, q⟩) name raised : Int)
    split at set
    · rename_i hn
      rw [if_pos hn] at hcount
      omega
    · rename_i hn
      rw [if_neg hn] at hcount
      omega
  | notify i n p q held hnot free =>
    obtain ⟨hp, hq, -, -⟩ := notifying_raised hnot
    have set := countCalls_set held q name raised
    simp only [unit, hp, hq, Bool.false_eq_true, and_false, if_false] at set
    change s.count name = (countCalls (s.setCall i ⟨n, q⟩) name raised : Int)
    omega
  | pool => exact before
  | await => exact before
  | wait => exact before

def critical : WaitPhase → Bool
  | .checking _ => true
  | .dozing => true
  | _ => false

/-- Past a reading of the predicate that was false, and not woken since. -/
def blocked : WaitPhase → Bool
  | .dozing => true
  | .asleep => true
  | _ => false

/-- A sleeper will hear of a count that is, or was, about to reach zero. -/
def Alert (s : State) (name : String) : Prop :=
  s.count name ≠ 0 ∨ 0 < countCalls s name notifies

structure Watched (s : State) : Prop where
  owner : ∀ name i, s.mutex name = some i ↔
    ∃ timed p, s.waiters[i]? = some (.mk name timed p) ∧ critical p = true
  alert : ∀ (i : Nat) name timed p, s.waiters[i]? = some (.mk name timed p) → blocked p = true →
    Alert s name
  owned : ∀ (i : Nat) (c : Call), s.calls[i]? = some c → busy c.phase = true →
    Worker.owning i ∈ s.workers

theorem lower_alert {s : State} {i : Nat} {n : String} {p q : CallPhase}
    (held : s.calls[i]? = some ⟨n, p⟩) (hlow : Lowering (s.count n = 1) p q) {name : String}
    (h : Alert s name) : Alert ((s.addCount n (-1)).setCall i ⟨n, q⟩) name := by
  obtain ⟨-, -, hlast, hp⟩ := lowering_raised hlow
  have set := countCalls_set held q name notifies
  have hcount := count_addCount s n name (-1)
  by_cases hn : n = name
  · subst hn
    by_cases hone : s.count n = 1
    · right
      have hq : notifies q = true := hlast.mpr hone
      simp only [unit, hp, hq, and_true, if_true, Bool.false_eq_true, and_false, if_false] at set
      change 0 < countCalls (s.setCall i ⟨n, q⟩) n notifies
      omega
    · left
      change (s.addCount n (-1)).count n ≠ 0
      rw [if_pos rfl] at hcount
      omega
  · simp only [unit, hn, false_and, if_false] at set
    rw [if_neg hn] at hcount
    rcases h with h | h
    · left
      change (s.addCount n (-1)).count name ≠ 0
      omega
    · right
      change 0 < countCalls (s.setCall i ⟨n, q⟩) name notifies
      omega

theorem move_alert {s : State} {i : Nat} {n : String} {p q : CallPhase}
    (held : s.calls[i]? = some ⟨n, p⟩) (hmove : CallMove p q) {name : String}
    (h : Alert s name) : Alert (s.setCall i ⟨n, q⟩) name := by
  have set := countCalls_set held q name notifies
  simp only [unit, move_notifies hmove] at set
  rcases h with h | h
  · exact Or.inl h
  · right
    omega

theorem submit_alert {s : State} (balanced : Balanced s) {n name : String}
    (h : Alert s name) : Alert (submitAsync s n) name := by
  have hcount : (submitAsync s n).count name = s.count name + (if n = name then 1 else 0) :=
    count_addCount s n name 1
  have hcalls : countCalls s name notifies ≤ countCalls (submitAsync s n) name notifies := by
    simp [countCalls, submitAsync]
  have nonneg := balanced name
  rcases h with h | h
  · left
    split at hcount <;> omega
  · right
    omega

theorem move_busy {s : State} {i : Nat} {name : String} {p q : CallPhase}
    {workers : List Worker} (hs : Watched s) (held : s.calls[i]? = some ⟨name, p⟩)
    (keep : KeepsOwners s i p q workers) (k : Nat) (c : Call)
    (hk : (s.calls.set i ⟨name, q⟩)[k]? = some c) (hbusy : busy c.phase = true) :
    Worker.owning k ∈ workers := by
  by_cases hik : i = k
  · subst hik
    obtain ⟨hi, -⟩ := List.getElem?_eq_some_iff.mp held
    rw [List.getElem?_set_self hi] at hk
    obtain rfl := Option.some.inj hk
    rcases keep.2 hbusy with h | ⟨hp, same⟩
    · exact h
    · exact same ▸ hs.owned i _ held hp
  · rw [List.getElem?_set_ne hik] at hk
    exact keep.1 k (fun e => hik e.symm) (hs.owned k c hk hbusy)

theorem lowering_busy {last : Prop} [Decidable last] {p q : CallPhase}
    (h : Lowering last p q) (hq : busy q = true) : busy p = true := by
  cases h with
  | rollback => by_cases hl : last <;> simp [hl, busy] at hq
  | finish b => rfl

theorem notifying_busy {p q : CallPhase} (h : Notifying p q) (hq : busy q = true) :
    busy p = true := by
  cases h with
  | rollback => cases hq
  | finish b => rfl

/-- The gate mutex follows the critical section of the waiter that moves. -/
theorem waitMove_owner {s : State} {i : Nat} {name : String} {timed : Bool} {p q : WaitPhase}
    {o : Option Nat} (h : WaitMove s i name timed p q o)
    (mine : critical p = true → s.mutex name = some i) :
    (critical q = true → o = some i ∧ (s.mutex name = some i ∨ s.mutex name = none)) ∧
    (critical q = false → critical p = true → o = none) ∧
    (critical q = false → critical p = false → o = s.mutex name) := by
  cases h with
  | noGate _ => exact ⟨nofun, nofun, fun _ _ => rfl⟩
  | foundGate => exact ⟨nofun, nofun, fun _ _ => rfl⟩
  | acquire final free => exact ⟨fun _ => ⟨rfl, Or.inr free⟩, nofun, nofun⟩
  | drained _ _ => exact ⟨nofun, fun _ _ => rfl, fun _ hp => by cases hp⟩
  | expired _ => exact ⟨nofun, fun _ _ => rfl, fun _ hp => by cases hp⟩
  | doze _ => exact ⟨fun _ => ⟨mine rfl, Or.inl (mine rfl)⟩, nofun, nofun⟩
  | block => exact ⟨nofun, fun _ _ => rfl, fun _ hp => by cases hp⟩
  | timeout _ => exact ⟨nofun, nofun, fun _ _ => rfl⟩
  | spurious => exact ⟨nofun, nofun, fun _ _ => rfl⟩

theorem waitMove_blocked {s : State} {i : Nat} {name : String} {timed : Bool} {p q : WaitPhase}
    {o : Option Nat} (h : WaitMove s i name timed p q o) (hq : blocked q = true) :
    s.count name ≠ 0 ∨ blocked p = true := by
  cases h with
  | doze above => exact Or.inl above
  | block => exact Or.inr rfl
  | _ => cases hq

theorem wait_owner_self {s : State} {i : Nat} {name : String} {timed : Bool} {p q : WaitPhase}
    {o : Option Nat} (held : s.waiters[i]? = some ⟨name, timed, p⟩)
    (move : WaitMove s i name timed p q o) (hs : Watched s) (n : String) :
    (if n = name then o else s.mutex n) = some i ↔
      ∃ tm r, some (⟨name, timed, q⟩ : Waiter) = some ⟨n, tm, r⟩ ∧ critical r = true := by
  have mine : critical p = true → s.mutex name = some i :=
    fun hp => (hs.owner name i).mpr ⟨timed, p, held, hp⟩
  obtain ⟨enter, leave, stay⟩ := waitMove_owner move mine
  simp only [Option.some.injEq, Waiter.mk.injEq]
  constructor
  · intro hm
    by_cases hn : n = name
    · rw [if_pos hn] at hm
      refine ⟨timed, q, ⟨hn.symm, rfl, rfl⟩, ?_⟩
      by_contra hq
      have hq' : critical q = false := by simpa using hq
      cases hp : critical p with
      | true => rw [leave hq' hp] at hm; cases hm
      | false =>
        rw [stay hq' hp] at hm
        obtain ⟨tm, r, hr, hcrit⟩ := (hs.owner name i).mp hm
        rw [held] at hr
        cases hr
        rw [hp] at hcrit
        cases hcrit
    · rw [if_neg hn] at hm
      obtain ⟨tm, r, hr, -⟩ := (hs.owner n i).mp hm
      rw [held] at hr
      cases hr
      exact absurd rfl hn
  · rintro ⟨tm, r, ⟨rfl, rfl, rfl⟩, hcrit⟩
    rw [if_pos rfl]
    exact (enter hcrit).1

theorem wait_owner_other {s : State} {i : Nat} {name : String} {timed : Bool} {p q : WaitPhase}
    {o : Option Nat} (held : s.waiters[i]? = some ⟨name, timed, p⟩)
    (move : WaitMove s i name timed p q o) (hs : Watched s) (n : String) {j : Nat}
    (hij : i ≠ j) :
    (if n = name then o else s.mutex n) = some j ↔
      ∃ tm r, s.waiters[j]? = some ⟨n, tm, r⟩ ∧ critical r = true := by
  have mine : critical p = true → s.mutex name = some i :=
    fun hp => (hs.owner name i).mpr ⟨timed, p, held, hp⟩
  obtain ⟨enter, leave, stay⟩ := waitMove_owner move mine
  by_cases hn : n = name
  · rw [if_pos hn]
    subst hn
    constructor
    · intro hm
      cases hq : critical q with
      | true =>
        rw [(enter hq).1] at hm
        exact absurd (Option.some.inj hm) hij
      | false =>
        cases hp : critical p with
        | true => rw [leave hq hp] at hm; cases hm
        | false => exact (hs.owner n j).mp (stay hq hp ▸ hm)
    · intro hj
      have hm := (hs.owner n j).mpr hj
      cases hq : critical q with
      | true =>
        rcases (enter hq).2 with h | h
        · exact absurd (Option.some.inj (h.symm.trans hm)) hij
        · rw [h] at hm; cases hm
      | false =>
        cases hp : critical p with
        | true => exact absurd (Option.some.inj ((mine hp).symm.trans hm)) hij
        | false => rw [stay hq hp]; exact hm
  · rw [if_neg hn]
    exact hs.owner n j

theorem wait_watched {s : State} {i : Nat} {name : String} {timed : Bool} {p q : WaitPhase}
    {o : Option Nat} (held : s.waiters[i]? = some ⟨name, timed, p⟩)
    (move : WaitMove s i name timed p q o) (hs : Watched s) :
    Watched ((s.setWaiter i ⟨name, timed, q⟩).setMutex name o) := by
  obtain ⟨hi, -⟩ := List.getElem?_eq_some_iff.mp held
  have self : (s.waiters.set i ⟨name, timed, q⟩)[i]? = some ⟨name, timed, q⟩ :=
    List.getElem?_set_self hi
  have other : ∀ j, i ≠ j → (s.waiters.set i ⟨name, timed, q⟩)[j]? = s.waiters[j]? :=
    fun j hj => List.getElem?_set_ne hj
  refine ⟨?_, ?_, hs.owned⟩
  · intro n j
    change (if n = name then o else s.mutex n) = some j ↔
      ∃ tm r, (s.waiters.set i ⟨name, timed, q⟩)[j]? = some ⟨n, tm, r⟩ ∧ critical r = true
    by_cases hij : i = j
    · subst hij
      rw [self]
      exact wait_owner_self held move hs n
    · rw [other j hij]
      exact wait_owner_other held move hs n hij
  · intro j n tm r hj hr
    change (s.waiters.set i ⟨name, timed, q⟩)[j]? = some ⟨n, tm, r⟩ at hj
    change Alert s n
    by_cases hij : i = j
    · subst hij
      rw [self] at hj
      cases hj
      rcases waitMove_blocked move hr with h | h
      · exact Or.inl h
      · exact hs.alert i _ _ _ held h
    · rw [other j hij] at hj
      exact hs.alert j n tm r hj hr

theorem wake_cases (n : String) (w : Waiter) :
    (wake n w).name = w.name ∧ critical (wake n w).phase = critical w.phase ∧
    (blocked (wake n w).phase = true → wake n w = w ∧ (w.name = n → w.phase = .dozing)) := by
  by_cases h : w.name = n ∧ w.phase = .asleep
  · simp [wake, h, critical, blocked]
  · rw [wake, if_neg h]
    refine ⟨rfl, rfl, fun hb => ⟨rfl, fun hn => ?_⟩⟩
    cases hp : w.phase with
    | dozing => rfl
    | asleep => exact absurd ⟨hn, hp⟩ h
    | _ => rw [hp] at hb; cases hb

theorem notify_watched {s : State} {i : Nat} {n : String} {p q : CallPhase}
    (held : s.calls[i]? = some ⟨n, p⟩) (hnot : Notifying p q) (free : s.mutex n = none)
    (hs : Watched s) : Watched ((s.notifyAll n).setCall i ⟨n, q⟩) := by
  refine ⟨?_, ?_, ?_⟩
  · intro name j
    change s.mutex name = some j ↔
      ∃ tm r, (s.waiters.map (wake n))[j]? = some (.mk name tm r) ∧ critical r = true
    rw [hs.owner name j, List.getElem?_map]
    constructor
    · rintro ⟨tm, r, hj, hr⟩
      obtain ⟨hname, hcrit, -⟩ := wake_cases n ⟨name, tm, r⟩
      cases hwake : wake n ⟨name, tm, r⟩ with
      | mk name' tm' r' =>
        rw [hwake] at hname hcrit
        obtain rfl : name' = name := hname
        exact ⟨tm', r', by rw [hj, Option.map_some, hwake], hcrit.trans hr⟩
    · rintro ⟨tm, r, hj, hr⟩
      obtain ⟨⟨name', tm', r'⟩, hw, hwake⟩ := Option.map_eq_some_iff.mp hj
      obtain ⟨hname, hcrit, -⟩ := wake_cases n ⟨name', tm', r'⟩
      rw [hwake] at hname hcrit
      obtain rfl : name = name' := hname
      exact ⟨tm', r', hw, hcrit ▸ hr⟩
  · intro j name tm r hj hr
    change (s.waiters.map (wake n))[j]? = some (.mk name tm r) at hj
    rw [List.getElem?_map] at hj
    obtain ⟨w, hw, hwake⟩ := Option.map_eq_some_iff.mp hj
    obtain ⟨-, -, hblocked⟩ := wake_cases n w
    rw [hwake] at hblocked
    obtain ⟨rfl, hdoze⟩ := hblocked hr
    by_cases hn : name = n
    · -- no waiter of this gate is dozing: the mutex is free
      have hr' : r = .dozing := hdoze hn
      subst hn hr'
      have := (hs.owner name j).mpr ⟨tm, .dozing, hw, rfl⟩
      rw [free] at this
      cases this
    · have set := countCalls_set held q name notifies
      have hne : ¬ n = name := fun e => hn e.symm
      simp only [unit, hne, false_and, if_false] at set
      rcases hs.alert j name tm r hw hr with h | h
      · exact Or.inl h
      · right
        change 0 < countCalls (s.setCall i ⟨n, q⟩) name notifies
        omega
  · exact move_busy (s := s) hs held (keepsOwners_same (s := s) (notifying_busy hnot))

theorem effect_watched {s t : State} {new : Option String} (h : Effect s new t) (balanced : Balanced s) (hs : Watched s) :
    Watched t := by
  cases h with
  | submit n =>
    refine ⟨hs.owner, fun j name tm r hj hr => submit_alert balanced (hs.alert j name tm r hj hr), ?_⟩
    intro k c hk hbusy
    change (s.calls ++ [⟨n, .submitting⟩])[k]? = some c at hk
    rcases appended_cases hk with old | ⟨-, rfl⟩
    · exact hs.owned k c old hbusy
    · cases hbusy
  | move i n p q tasks workers held hmove keep =>
    refine ⟨hs.owner, fun j name tm r hj hr => ?_, move_busy hs held keep⟩
    exact move_alert held hmove (hs.alert j name tm r hj hr)
  | lower i n p q held hlow =>
    refine ⟨hs.owner, fun j name tm r hj hr => lower_alert held hlow (hs.alert j name tm r hj hr), ?_⟩
    exact move_busy (s := s) hs held (keepsOwners_same (s := s) (lowering_busy hlow))
  | notify i n p q held hnot free => exact notify_watched held hnot free hs
  | pool workers stop keep =>
    exact ⟨hs.owner, hs.alert, fun k c hk hbusy => keep k (hs.owned k c hk hbusy)⟩
  | await n timed =>
    refine ⟨?_, ?_, hs.owned⟩
    · intro name j
      rw [hs.owner name j]
      change _ ↔ ∃ tm r, (s.waiters ++ [⟨n, timed, .lookup⟩])[j]? = some (.mk name tm r) ∧ _
      constructor
      · rintro ⟨tm, r, hj, hr⟩
        exact ⟨tm, r, appended_old hj, hr⟩
      · rintro ⟨tm, r, hj, hr⟩
        rcases appended_cases hj with old | ⟨-, last⟩
        · exact ⟨tm, r, old, hr⟩
        · cases last
          cases hr
    · intro j name tm r hj hr
      change (s.waiters ++ [⟨n, timed, .lookup⟩])[j]? = some (.mk name tm r) at hj
      rcases appended_cases hj with old | ⟨-, last⟩
      · exact hs.alert j name tm r old hr
      · cases last
        cases hr
  | wait i n timed p q o held move => exact wait_watched held move hs

theorem reachable_watched {threads maxQueue : Nat} {s : State}
    (h : Reachable (machine threads maxQueue) s) : Balanced s ∧ Watched s := by
  refine Reachable.invariant (I := fun s => Balanced s ∧ Watched s) ⟨fun _ => rfl, ?_⟩ ?_ h
  · exact ⟨fun name i => by simp [machine], by simp [machine], by simp [machine]⟩
  · rintro s l t ⟨balanced, watched⟩ hstep
    exact ⟨effect_balanced (step_effect hstep) balanced,
      effect_watched (step_effect hstep) balanced watched⟩

/-! No waiter is left behind: from a state with nothing unfinished the threads
that are already inside the host, and no new call, no timeout and no spurious
wake-up, bring every waiter of the gate home. -/

def continues : Label → Bool
  | .submitAsync _ => false
  | .waitQuiesce _ _ => false
  | .timeout _ => false
  | .spurious _ => false
  | .poolStop => false
  | _ => true

section Progress

variable (threads maxQueue : Nat)

def Goes (s t : State) : Prop :=
  Steps (machine threads maxQueue) (fun _ l => continues l = true) s t

/-- Waiter `i` can return, unless a job of the name is accepted first. -/
def Settles (s : State) (name : String) (i : Nat) : Prop :=
  ∃ t, Goes threads maxQueue s t ∧
    ((∃ timed, t.waiters[i]? = some (.mk name timed (.returned true))) ∨
      0 < countCalls t name unfinished)

variable {threads maxQueue}

theorem Goes.watched {s t : State} (run : Goes threads maxQueue s t)
    (hs : Balanced s ∧ Watched s) : Balanced t ∧ Watched t := by
  refine Steps.preserves (I := fun s => Balanced s ∧ Watched s) ?_ run hs
  rintro s l t ⟨balanced, watched⟩ - hstep
  exact ⟨effect_balanced (step_effect hstep) balanced,
    effect_watched (step_effect hstep) balanced watched⟩

theorem Goes.settles {s t : State} {name : String} {i : Nat} (run : Goes threads maxQueue s t)
    (h : Settles threads maxQueue t name i) : Settles threads maxQueue s name i := by
  obtain ⟨u, tail, hu⟩ := h
  exact ⟨u, run.trans tail, hu⟩

theorem checking_settles {s : State} {i : Nat} {name : String} {timed final : Bool}
    (held : s.waiters[i]? = some ⟨name, timed, .checking final⟩) (zero : s.count name = 0) :
    Settles threads maxQueue s name i := by
  obtain ⟨hi, -⟩ := List.getElem?_eq_some_iff.mp held
  have hstep : check s i =
      some ((s.setWaiter i ⟨name, timed, .returned true⟩).setMutex name none) := by
    simp [check, held, zero]
  exact ⟨_, Steps.single (l := .check i) rfl hstep, Or.inl ⟨timed, List.getElem?_set_self hi⟩⟩

theorem free_locking_settles {s : State} {i : Nat} {name : String} {timed final : Bool}
    (held : s.waiters[i]? = some ⟨name, timed, .locking final⟩) (free : s.mutex name = none)
    (zero : s.count name = 0) : Settles threads maxQueue s name i := by
  obtain ⟨hi, -⟩ := List.getElem?_eq_some_iff.mp held
  have hstep : lock s i =
      some ((s.setWaiter i ⟨name, timed, .checking final⟩).setMutex name (some i)) := by
    simp [lock, held, free]
  have first : Goes threads maxQueue s _ := Steps.single (l := .lock i) rfl hstep
  exact first.settles (checking_settles (List.getElem?_set_self hi) zero)

/-- Whoever holds the gate mutex can release it without touching another waiter. -/
theorem mutex_released (threads maxQueue : Nat) {s : State} (hs : Watched s) {name : String} {j : Nat}
    (owner : s.mutex name = some j) (zero : s.count name = 0) :
    ∃ t, Goes threads maxQueue s t ∧ t.mutex name = none ∧ t.gates = s.gates ∧
      t.calls = s.calls ∧ t.workers = s.workers ∧
      ∀ k, j ≠ k → t.waiters[k]? = s.waiters[k]? := by
  obtain ⟨timed, p, held, hp⟩ := (hs.owner name j).mp owner
  have others : ∀ (w : Waiter) (k : Nat), j ≠ k → (s.waiters.set j w)[k]? = s.waiters[k]? :=
    fun w k hk => List.getElem?_set_ne hk
  cases p with
  | checking final =>
    have hstep : check s j =
        some ((s.setWaiter j ⟨name, timed, .returned true⟩).setMutex name none) := by
      simp [check, held, zero]
    exact ⟨_, Steps.single (l := .check j) rfl hstep, if_pos rfl, rfl, rfl, rfl, others _⟩
  | dozing =>
    have hstep : sleep s j =
        some ((s.setWaiter j ⟨name, timed, .asleep⟩).setMutex name none) := by
      simp [sleep, held]
    exact ⟨_, Steps.single (l := .sleep j) rfl hstep, if_pos rfl, rfl, rfl, rfl, others _⟩
  | _ => cases hp

theorem count_congr {s t : State} (h : t.gates = s.gates) (name : String) :
    t.count name = s.count name := by
  rw [State.count, State.count, h]

theorem locking_settles {s : State} (hs : Watched s) {i : Nat} {name : String}
    {timed final : Bool} (held : s.waiters[i]? = some ⟨name, timed, .locking final⟩)
    (zero : s.count name = 0) : Settles threads maxQueue s name i := by
  cases hm : s.mutex name with
  | none => exact free_locking_settles held hm zero
  | some j =>
    obtain ⟨t, run, free, gates, -, -, others⟩ :=
      mutex_released threads maxQueue hs hm zero
    have hij : j ≠ i := by
      rintro rfl
      obtain ⟨_, _, h, hp⟩ := (hs.owner name j).mp hm
      rw [held] at h
      cases h
      cases hp
    exact run.settles (free_locking_settles ((others i hij).trans held) free
      ((count_congr gates name).trans zero))

/-- A notification that is due can be delivered once the gate mutex is free. -/
theorem notifier_fires (threads maxQueue : Nat) {s : State} (hs : Watched s) {name : String} (free : s.mutex name = none)
    (due : 0 < countCalls s name notifies) :
    ∃ t, Goes threads maxQueue s t ∧ t.mutex name = none ∧ t.gates = s.gates ∧
      t.waiters = s.waiters.map (wake name) := by
  obtain ⟨c, ⟨n, p⟩, held, hpos⟩ := exists_of_total_pos due
  obtain ⟨rfl, hp⟩ : n = name ∧ notifies p = true := by
    by_contra hn
    simp [unit, hn] at hpos
  match p, hp with
  | .rollbackNotify, _ =>
    have hstep : rollbackNotify s c = some ((s.notifyAll n).setCall c ⟨n, .rejected⟩) := by
      simp [rollbackNotify, held, free]
    exact ⟨_, Steps.single (l := .rollbackNotify c) rfl hstep, free, rfl, rfl⟩
  | .accepted b .notifying, _ =>
    obtain ⟨w, hw⟩ := List.mem_iff_getElem?.mp (hs.owned c _ held rfl)
    have hstep : notify s w =
        some ((s.notifyAll n).setCall c ⟨n, .accepted b (.ended false)⟩) := by
      simp [notify, hw, held, free]
    exact ⟨_, Steps.single (l := .notify w) rfl hstep, free, rfl, rfl⟩

theorem free_asleep_settles {s : State} (hs : Balanced s ∧ Watched s) {i : Nat} {name : String}
    {timed : Bool} (held : s.waiters[i]? = some ⟨name, timed, .asleep⟩)
    (free : s.mutex name = none) (zero : s.count name = 0) :
    Settles threads maxQueue s name i := by
  have due : 0 < countCalls s name notifies := by
    rcases hs.2.alert i name timed _ held rfl with h | h
    · exact absurd zero h
    · exact h
  obtain ⟨t, run, free', gates, waiters⟩ :=
    notifier_fires threads maxQueue hs.2 free due
  have woken : t.waiters[i]? = some ⟨name, timed, .locking false⟩ := by
    rw [waiters, List.getElem?_map, held]
    simp [wake]
  exact run.settles (free_locking_settles woken free' ((count_congr gates name).trans zero))

theorem asleep_settles {s : State} (hs : Balanced s ∧ Watched s) {i : Nat} {name : String}
    {timed : Bool} (held : s.waiters[i]? = some ⟨name, timed, .asleep⟩)
    (zero : s.count name = 0) : Settles threads maxQueue s name i := by
  cases hm : s.mutex name with
  | none => exact free_asleep_settles hs held hm zero
  | some j =>
    obtain ⟨t, run, free, gates, -, -, others⟩ :=
      mutex_released threads maxQueue hs.2 hm zero
    have hij : j ≠ i := by
      rintro rfl
      obtain ⟨_, _, h, hp⟩ := (hs.2.owner name j).mp hm
      rw [held] at h
      cases h
      cases hp
    exact run.settles (free_asleep_settles (run.watched hs) ((others i hij).trans held) free
      ((count_congr gates name).trans zero))

/-- With the gate at zero every waiter of it can return. -/
theorem zero_settles {s : State} (hs : Balanced s ∧ Watched s) {i : Nat} {name : String}
    {timed : Bool} {p : WaitPhase} (held : s.waiters[i]? = some ⟨name, timed, p⟩)
    (waiting : ∀ b, p ≠ .returned b) (zero : s.count name = 0) :
    Settles threads maxQueue s name i := by
  obtain ⟨hi, -⟩ := List.getElem?_eq_some_iff.mp held
  cases p with
  | lookup =>
    cases hg : s.gates name with
    | none =>
      have hstep : lookup s i = some (s.setWaiter i ⟨name, timed, .returned true⟩) := by
        simp [lookup, held, hg]
      exact ⟨_, Steps.single (l := .lookup i) rfl hstep,
        Or.inl ⟨timed, List.getElem?_set_self hi⟩⟩
    | some n =>
      have hstep : lookup s i = some (s.setWaiter i ⟨name, timed, .locking false⟩) := by
        simp [lookup, held, hg]
      have first : Goes threads maxQueue s _ := Steps.single (l := .lookup i) rfl hstep
      exact first.settles (locking_settles (first.watched hs).2 (List.getElem?_set_self hi) zero)
  | locking final => exact locking_settles hs.2 held zero
  | checking final => exact checking_settles held zero
  | dozing =>
    have hstep : sleep s i =
        some ((s.setWaiter i ⟨name, timed, .asleep⟩).setMutex name none) := by
      simp [sleep, held]
    have first : Goes threads maxQueue s _ := Steps.single (l := .sleep i) rfl hstep
    exact first.settles (asleep_settles (first.watched hs) (List.getElem?_set_self hi) zero)
  | asleep => exact asleep_settles hs held zero
  | returned b => exact absurd rfl (waiting b)

/-- Steps an undecided call still has to take before it is accepted or rolled back. -/
def remaining (name : String) (c : Call) : Nat :=
  unit name undecided c + unit name (fun p => decide (p = .submitting)) c

theorem remaining_zero {s : State} {name : String} (h : total (remaining name) s.calls = 0) :
    countCalls s name undecided = 0 := by
  unfold remaining at h
  rw [total_add] at h
  unfold countCalls
  omega

/-- Relabelling one call moves a count by the difference of the two phases. -/
theorem countCalls_same {s t : State} {c : Nat} {name : String} {p q : CallPhase}
    (held : s.calls[c]? = some ⟨name, p⟩) (calls : t.calls = s.calls.set c ⟨name, q⟩)
    {kind : CallPhase → Bool} (same : kind q = kind p) :
    countCalls t name kind = countCalls s name kind := by
  have set := countCalls_set held q name kind
  simp only [unit, same] at set
  unfold countCalls
  rw [calls]
  change countCalls (s.setCall c ⟨name, q⟩) name kind = countCalls s name kind
  omega

/-- A call that is still undecided can take its next step; it is then accepted
or one step nearer to the end of its rollback. -/
theorem undecided_advances (threads maxQueue : Nat) {s : State} {c : Nat} {name : String} {q : CallPhase}
    (held : s.calls[c]? = some ⟨name, q⟩) (hq : undecided q = true) :
    ∃ t, Goes threads maxQueue s t ∧ t.waiters = s.waiters ∧
      (0 < countCalls t name unfinished ∨
        countCalls t name unfinished = countCalls s name unfinished ∧
        countCalls t name threw = countCalls s name threw ∧
        total (remaining name) t.calls < total (remaining name) s.calls) := by
  have less := fun r => total_set (remaining name) held ⟨name, r⟩
  match q, hq with
  | .submitting, _ =>
    by_cases full : s.stop = true ∨ max 1 maxQueue ≤ s.tasks.length
    · have hstep : poolSubmit (max 1 maxQueue) s c = some (s.setCall c ⟨name, .refused⟩) := by
        simp only [poolSubmit, held, if_pos full]
      refine ⟨_, Steps.single (l := .poolSubmit c) rfl hstep, rfl, Or.inr ?_⟩
      refine ⟨countCalls_same (q := .refused) held rfl rfl,
        countCalls_same (q := .refused) held rfl rfl, ?_⟩
      have h := less .refused
      simp [remaining, unit, undecided] at h
      change total (remaining name) (s.calls.set c ⟨name, .refused⟩) < _
      omega
    · have hstep : poolSubmit (max 1 maxQueue) s c =
          some { s.setCall c ⟨name, .accepted .inSubmit .queued⟩ with tasks := s.tasks ++ [c] } := by
        simp only [poolSubmit, held, if_neg full]
      refine ⟨_, Steps.single (l := .poolSubmit c) rfl hstep, rfl, Or.inl ?_⟩
      have h := countCalls_set held (.accepted .inSubmit .queued) name unfinished
      simp [unit, unfinished] at h
      change 0 < countCalls (s.setCall c ⟨name, .accepted .inSubmit .queued⟩) name unfinished
      omega
  | .refused, _ =>
    obtain ⟨r, hr, last⟩ : ∃ r, (r = .rollbackNotify ∨ r = .rejected) ∧
        (if s.count name = 1 then CallPhase.rollbackNotify else .rejected) = r := by
      by_cases one : s.count name = 1
      · exact ⟨_, Or.inl rfl, if_pos one⟩
      · exact ⟨_, Or.inr rfl, if_neg one⟩
    have hstep : rollback s c = some ((s.addCount name (-1)).setCall c ⟨name, r⟩) := by
      simp only [rollback, held, last]
    refine ⟨_, Steps.single (l := .rollback c) rfl hstep, rfl, Or.inr ?_⟩
    have h := less r
    have decided : remaining name ⟨name, r⟩ = 0 := by
      rcases hr with rfl | rfl <;> simp [remaining, unit, undecided]
    have pending : remaining name ⟨name, .refused⟩ = 1 := by
      simp [remaining, unit, undecided]
    refine ⟨countCalls_same held rfl ?_, countCalls_same held rfl ?_, ?_⟩
    · rcases hr with rfl | rfl <;> rfl
    · rcases hr with rfl | rfl <;> rfl
    · change total (remaining name) (s.calls.set c ⟨name, r⟩) < _
      omega

/-- With nothing accepted unfinished and no throw, a waiter returns unless a
call that is still pending gets accepted. The induction is on the steps those
calls have left. -/
theorem finished_settles {s : State} (hs : Balanced s ∧ Watched s) {i : Nat} {name : String}
    {timed : Bool} {p : WaitPhase} (held : s.waiters[i]? = some ⟨name, timed, p⟩)
    (waiting : ∀ b, p ≠ .returned b) (finished : countCalls s name unfinished = 0)
    (clean : countCalls s name threw = 0) : Settles threads maxQueue s name i := by
  induction hn : total (remaining name) s.calls using Nat.strongRecOn generalizing s with
  | ind n ih =>
    by_cases hzero : n = 0
    · have none := remaining_zero (hn.trans hzero)
      have zero := hs.1 name
      rw [raised_split, none, finished, clean] at zero
      exact zero_settles hs held waiting (by simpa using zero)
    · obtain ⟨c, ⟨m, q⟩, hc, hpos⟩ :=
        exists_of_total_pos (show 0 < total (remaining name) s.calls by omega)
      obtain rfl : m = name := by
        by_contra hm
        simp [remaining, unit, hm] at hpos
      have hq : undecided q = true := by
        by_contra hq
        cases q <;> simp_all [remaining, unit, undecided]
      obtain ⟨t, run, waiters, h⟩ :=
        undecided_advances threads maxQueue hc hq
      rcases h with accepted | ⟨fin, thr, less⟩
      · exact ⟨t, run, Or.inr accepted⟩
      · exact run.settles (ih _ (hn ▸ less) (run.watched hs) (waiters ▸ held)
          (fin.trans finished) (thr.trans clean) rfl)

variable (threads maxQueue)

/-- The gate reads the in-flight number, and a thread in `WaitQuiesce(name, -1)`,
such as the one in `PluginManager::Unload`, gets out once nothing is unfinished. -/
def Accounted (s : State) (name : String) : Prop :=
  s.count name = countCalls s name undecided + countCalls s name unfinished ∧
  (countCalls s name unfinished = 0 → ∀ (i : Nat) (p : WaitPhase),
    s.waiters[i]? = some ⟨name, false, p⟩ → (∀ b, p ≠ .returned b) →
      Settles threads maxQueue s name i)

end Progress

/-- In every reachable state the accounting is right for exactly the names none
of whose jobs has thrown. -/
theorem accounted_iff_no_throw {threads maxQueue : Nat} {s : State}
    (h : Reachable (machine threads maxQueue) s) (name : String) :
    Accounted threads maxQueue s name ↔
      ∀ c ∈ s.calls, c.name = name → threw c.phase = false := by
  have inv := reachable_watched h
  have exact := inv.1 name
  rw [raised_split] at exact
  have clean_iff : countCalls s name threw = 0 ↔
      ∀ c ∈ s.calls, c.name = name → threw c.phase = false := by
    unfold countCalls
    rw [total_eq_zero_iff]
    constructor
    · intro zero c hc hn
      simpa [unit, hn] using zero c hc
    · intro none c hc
      by_cases hn : c.name = name
      · simp [unit, none c hc hn]
      · simp [unit, hn]
  rw [← clean_iff]
  constructor
  · rintro ⟨count, -⟩
    omega
  · intro clean
    refine ⟨by omega, fun finished i p held waiting => ?_⟩
    exact finished_settles inv held waiting finished clean

/-- A job runs to its end by return: the accounting holds afterwards. -/
theorem accounted_after_return :
    ∃ t, (machine 2 128).exec (machine 2 128).start
      [.submitAsync "face_recognition", .poolSubmit 0, .dequeue 1, .finish 1 false] = some t ∧
      Accounted 2 128 t "face_recognition" := by
  obtain ⟨t, run, clean⟩ : ∃ t, (machine 2 128).exec (machine 2 128).start
      [.submitAsync "face_recognition", .poolSubmit 0, .dequeue 1, .finish 1 false] = some t ∧
      ∀ c ∈ t.calls, c.name = "face_recognition" → threw c.phase = false :=
    ⟨_, rfl, by decide⟩
  exact ⟨t, run, (accounted_iff_no_throw (Machine.exec_reachable run) _).mpr clean⟩

/-- A single throwing job is counted for ever, though no job is unfinished. -/
theorem throwing_job_breaks_accounting :
    ¬ ∀ threads maxQueue s, Reachable (machine threads maxQueue) s →
      ∀ name, Accounted threads maxQueue s name := by
  intro claim
  obtain ⟨t, run, count, calls⟩ : ∃ t, (machine 2 128).exec (machine 2 128).start
      [.submitAsync "face_recognition", .poolSubmit 0, .leaveSubmit 0, .leaveSubmitAsync 0,
        .dequeue 0, .finish 0 true, .release 0] = some t ∧ t.count "face_recognition" = 1 ∧
      t.calls = [⟨"face_recognition", .accepted .returned (.released true)⟩] := ⟨_, rfl, rfl, rfl⟩
  have h := (claim 2 128 t (Machine.exec_reachable run) "face_recognition").1
  simp [count, countCalls, calls, unit, undecided, unfinished] at h

end GateAccounting
