import AxVision.TransitionRuns

/-!
# Lifelines and nesting in a trace of events

A component is opened, an instance is created from it, initialised, used, shut
down and destroyed, and the component is closed. The events of one component
in a trace form its lifeline. A trace is nested when a component is torn down
only while no component opened after it is still open.
-/

namespace LifecycleTraces

open TransitionRuns

universe u v

inductive Stage where
  | opening
  | creation
  | initialisation
  | work
  | shutdown
  | destruction
  | closing
  deriving DecidableEq, Repr

inductive Phase where
  | unopened
  | opened
  | created
  | ready
  | finished
  | destroyed
  | closed
  deriving DecidableEq, Repr

def Phase.next : Phase → Stage → Option Phase
  | .unopened, .opening => some .opened
  | .opened, .creation => some .created
  | .opened, .closing => some .closed
  | .created, .initialisation => some .ready
  | .created, .destruction => some .destroyed
  | .ready, .work => some .ready
  | .ready, .shutdown => some .finished
  | .finished, .destruction => some .destroyed
  | .destroyed, .closing => some .closed
  | _, _ => none

/-- What may happen to one component. -/
def lifecycle : Machine Phase Stage where
  start := .unopened
  step := Phase.next

/-- The whole life of a component, by how far its loading came. -/
inductive Whole : List Stage → Prop where
  | uncreated : Whole [.opening, .closing]
  | uninitialised : Whole [.opening, .creation, .destruction, .closing]
  | initialised (n : Nat) :
      Whole ([.opening, .creation, .initialisation] ++ List.replicate n .work ++
        [.shutdown, .destruction, .closing])

theorem exec_nil {p q : Phase} (h : lifecycle.exec p [] = some q) : p = q :=
  Option.some.inj h

theorem exec_cons {p q : Phase} {a : Stage} {l : List Stage}
    (h : lifecycle.exec p (a :: l) = some q) :
    ∃ r, p.next a = some r ∧ lifecycle.exec r l = some q :=
  Option.bind_eq_some_iff.mp h

theorem closed_final {l : List Stage} (h : lifecycle.exec .closed l = some .closed) : l = [] := by
  cases l with
  | nil => rfl
  | cons a rest =>
    obtain ⟨r, hr, -⟩ := exec_cons h
    cases a <;> cases hr

theorem destroyed_rest {l : List Stage} (h : lifecycle.exec .destroyed l = some .closed) :
    l = [.closing] := by
  cases l with
  | nil => cases h
  | cons a rest =>
    obtain ⟨r, hr, hrest⟩ := exec_cons h
    cases a <;> cases hr
    have done : rest = [] := closed_final hrest
    rw [done]

theorem finished_rest {l : List Stage} (h : lifecycle.exec .finished l = some .closed) :
    l = [.destruction, .closing] := by
  cases l with
  | nil => cases h
  | cons a rest =>
    obtain ⟨r, hr, hrest⟩ := exec_cons h
    cases a <;> cases hr
    have last : rest = [.closing] := destroyed_rest hrest
    rw [last]

theorem ready_rest {l : List Stage} (h : lifecycle.exec .ready l = some .closed) :
    ∃ n, l = List.replicate n .work ++ [.shutdown, .destruction, .closing] := by
  induction l with
  | nil => cases h
  | cons a rest ih =>
    obtain ⟨r, hr, hrest⟩ := exec_cons h
    cases a <;> cases hr
    · obtain ⟨n, hn⟩ := ih hrest
      refine ⟨n + 1, ?_⟩
      rw [hn]
      rfl
    · have last : rest = [.destruction, .closing] := finished_rest hrest
      exact ⟨0, by rw [last]; rfl⟩

theorem created_rest {l : List Stage} (h : lifecycle.exec .created l = some .closed) :
    l = [.destruction, .closing] ∨
      ∃ n, l = .initialisation :: List.replicate n .work ++ [.shutdown, .destruction, .closing] := by
  cases l with
  | nil => cases h
  | cons a rest =>
    obtain ⟨r, hr, hrest⟩ := exec_cons h
    cases a <;> cases hr
    · obtain ⟨n, hn⟩ := ready_rest hrest
      exact Or.inr ⟨n, by rw [hn]; rfl⟩
    · have last : rest = [.closing] := destroyed_rest hrest
      exact Or.inl (by rw [last])

/-- A component that ends closed has lived one of the three whole lives. -/
theorem whole_of_closed {l : List Stage} (h : lifecycle.exec .unopened l = some .closed) :
    Whole l := by
  cases l with
  | nil => cases h
  | cons a rest =>
    obtain ⟨r, hr, hrest⟩ := exec_cons h
    cases a <;> cases hr
    cases rest with
    | nil => cases hrest
    | cons b more =>
      obtain ⟨r, hr, hmore⟩ := exec_cons hrest
      cases b <;> cases hr
      · rcases created_rest hmore with short | ⟨n, long⟩
        · rw [short]
          exact .uninitialised
        · rw [long]
          exact .initialised n
      · have done : more = [] := closed_final hmore
        rw [done]
        exact .uncreated

theorem unopened_of_empty {l : List Stage} (h : lifecycle.exec .unopened l = some .unopened) :
    l = [] := by
  have never : ∀ (l : List Stage) (p : Phase), p ≠ .unopened →
      lifecycle.exec p l ≠ some .unopened := by
    intro l
    induction l with
    | nil =>
      intro p hp h
      exact hp (exec_nil h)
    | cons a rest ih =>
      intro p hp h
      obtain ⟨r, hr, hrest⟩ := exec_cons h
      refine ih r ?_ hrest
      rintro rfl
      cases p <;> cases a <;> cases hr
  cases l with
  | nil => rfl
  | cons a rest =>
    obtain ⟨r, hr, hrest⟩ := exec_cons h
    cases a <;> cases hr
    exact absurd hrest (never rest _ (by decide))

section Lifelines

variable {C : Type u} {E : Type v} [DecidableEq C]

/-- The stages of one component among the events of a trace. -/
def lifeline (subject : E → Option (C × Stage)) (c : C) (tr : List E) : List Stage :=
  tr.filterMap fun e => (subject e).bind fun s => if s.1 = c then some s.2 else none

def phase (subject : E → Option (C × Stage)) (c : C) (tr : List E) : Option Phase :=
  lifecycle.exec .unopened (lifeline subject c tr)

theorem lifeline_append (subject : E → Option (C × Stage)) (c : C) (tr es : List E) :
    lifeline subject c (tr ++ es) = lifeline subject c tr ++ lifeline subject c es :=
  List.filterMap_append

theorem phase_append {subject : E → Option (C × Stage)} {c : C} {tr es : List E} {p : Phase}
    (before : phase subject c tr = some p) :
    phase subject c (tr ++ es) = lifecycle.exec p (lifeline subject c es) := by
  unfold phase at before ⊢
  rw [lifeline_append, Machine.exec_append, before]
  rfl

theorem lifeline_eq_nil {subject : E → Option (C × Stage)} {c : C} {es : List E}
    (foreign : ∀ e ∈ es, ∀ s, subject e ≠ some (c, s)) : lifeline subject c es = [] := by
  refine List.filterMap_eq_nil_iff.mpr ?_
  intro e he
  cases hs : subject e with
  | none => rfl
  | some s =>
    have other : s.1 ≠ c := fun same => foreign e he s.2 (by rw [hs, ← same])
    exact if_neg other

theorem mem_lifeline {subject : E → Option (C × Stage)} {c : C} {tr : List E} {a : Stage} :
    a ∈ lifeline subject c tr ↔ ∃ e ∈ tr, subject e = some (c, a) := by
  unfold lifeline
  constructor
  · intro ha
    obtain ⟨e, he, hs⟩ := List.mem_filterMap.mp ha
    obtain ⟨⟨d, b⟩, hd, hb⟩ := Option.bind_eq_some_iff.mp hs
    by_cases same : d = c
    · have hab : b = a := by simpa [same] using hb
      exact ⟨e, he, by rw [hd, same, hab]⟩
    · simp [same] at hb
  · rintro ⟨e, he, hs⟩
    refine List.mem_filterMap.mpr ⟨e, he, ?_⟩
    rw [hs]
    exact if_pos rfl

/-- The held components are ready for work, every other one is closed or was never opened. -/
structure Accounted (subject : E → Option (C × Stage)) (held : C → Prop) (tr : List E) :
    Prop where
  ready : ∀ c, held c → phase subject c tr = some .ready
  settled : ∀ c, ¬held c → phase subject c tr = some .unopened ∨ phase subject c tr = some .closed

/-- Events about one component settle that component and leave the others as they were. -/
theorem Accounted.advance {subject : E → Option (C × Stage)} {held later : C → Prop}
    {tr es : List E} {c : C} (h : Accounted subject held tr)
    (own : ∀ e ∈ es, ∀ d s, subject e = some (d, s) → d = c)
    (others : ∀ d, d ≠ c → (later d ↔ held d))
    (ends : (later c ∧ phase subject c (tr ++ es) = some .ready) ∨
      (¬later c ∧ phase subject c (tr ++ es) = some .closed)) :
    Accounted subject later (tr ++ es) := by
  have same : ∀ d, d ≠ c → phase subject d (tr ++ es) = phase subject d tr := by
    intro d hd
    have none : lifeline subject d es = [] :=
      lifeline_eq_nil fun e he s hs => hd (own e he d s hs)
    unfold phase
    rw [lifeline_append, none, List.append_nil]
  constructor
  · intro d hd
    by_cases hdc : d = c
    · subst hdc
      rcases ends with ⟨-, ready⟩ | ⟨gone, -⟩
      · exact ready
      · exact absurd hd gone
    · rw [same d hdc]
      exact h.ready d ((others d hdc).mp hd)
  · intro d hd
    by_cases hdc : d = c
    · subst hdc
      rcases ends with ⟨kept, -⟩ | ⟨-, closed⟩
      · exact absurd kept hd
      · exact Or.inr closed
    · rw [same d hdc]
      exact h.settled d fun held => hd ((others d hdc).mpr held)

/-- Events about no component change nothing. -/
theorem Accounted.pass {subject : E → Option (C × Stage)} {held : C → Prop} {tr es : List E}
    (h : Accounted subject held tr) (silent : ∀ e ∈ es, subject e = none) :
    Accounted subject held (tr ++ es) := by
  have same : ∀ d, phase subject d (tr ++ es) = phase subject d tr := by
    intro d
    have none : lifeline subject d es = [] :=
      lifeline_eq_nil fun e he s hs => by rw [silent e he] at hs; cases hs
    unfold phase
    rw [lifeline_append, none, List.append_nil]
  constructor
  · intro d hd
    rw [same]
    exact h.ready d hd
  · intro d hd
    rw [same]
    exact h.settled d hd

theorem Accounted.congr {subject : E → Option (C × Stage)} {held other : C → Prop} {tr : List E}
    (h : Accounted subject held tr) (same : ∀ c, other c ↔ held c) :
    Accounted subject other tr :=
  ⟨fun c hc => h.ready c ((same c).mp hc), fun c hc => h.settled c fun k => hc ((same c).mpr k)⟩

/-- With nothing held, every component seen has lived a whole life. -/
theorem Accounted.whole {subject : E → Option (C × Stage)} {held : C → Prop} {tr : List E}
    (h : Accounted subject held tr) {c : C} (free : ¬held c) :
    lifeline subject c tr = [] ∨ Whole (lifeline subject c tr) := by
  rcases h.settled c free with unopened | closed
  · exact Or.inl (unopened_of_empty unopened)
  · exact Or.inr (whole_of_closed closed)

theorem Whole.closes {l : List Stage} (h : Whole l) : .closing ∈ l := by
  cases h <;> simp

theorem Whole.count_opening {l : List Stage} (h : Whole l) : l.count .opening = 1 := by
  cases h with
  | uncreated => rfl
  | uninitialised => rfl
  | initialised n =>
    have none : (List.replicate n Stage.work).count .opening = 0 := by
      refine List.count_eq_zero.mpr ?_
      intro held
      cases List.eq_of_mem_replicate held
    rw [List.count_append, List.count_append, none]
    rfl

/-- Whoever lived a whole life was opened once. -/
theorem opened_once {subject : E → Option (C × Stage)} {c : C} {before after : List E} {e : E}
    (opens : subject e = some (c, .opening)) (whole : Whole (lifeline subject c (before ++ e :: after))) :
    (∀ f ∈ before, subject f ≠ some (c, .opening)) ∧
      ∀ f ∈ after, subject f ≠ some (c, .opening) := by
  have one := whole.count_opening
  have here : lifeline subject c (e :: after) = .opening :: lifeline subject c after := by
    unfold lifeline
    rw [List.filterMap_cons_some (b := Stage.opening)]
    rw [opens]
    exact if_pos rfl
  rw [lifeline_append, here, List.count_append, List.count_cons_self] at one
  constructor
  · intro f hf hs
    have some := List.count_pos_iff.mpr (mem_lifeline.mpr ⟨f, hf, hs⟩)
    omega
  · intro f hf hs
    have some := List.count_pos_iff.mpr (mem_lifeline.mpr ⟨f, hf, hs⟩)
    omega

/-- A component that was opened and is not held has been closed. -/
theorem Accounted.closed {subject : E → Option (C × Stage)} {held : C → Prop} {tr : List E}
    (h : Accounted subject held tr) {c : C} (free : ¬held c)
    (opened : ∃ e ∈ tr, subject e = some (c, .opening)) :
    ∃ e ∈ tr, subject e = some (c, .closing) := by
  have present := mem_lifeline.mpr opened
  rcases h.whole free with empty | whole
  · rw [empty] at present
    cases present
  · exact mem_lifeline.mp whole.closes

end Lifelines

section Nesting

variable {C : Type u} [DecidableEq C]

inductive Turn (C : Type u) where
  | enter (c : C)
  | touch (c : C)
  | leave (c : C)

/-- Components enter on top if the stack admits them; only the top one is
touched, and it is the next to leave. -/
def Turn.apply (admits : List C → C → Bool) (stack : List C) : Turn C → Option (List C)
  | .enter c => if admits stack c then some (c :: stack) else none
  | .touch c => if stack.head? = some c then some stack else none
  | .leave c => if stack.head? = some c then some stack.tail else none

def nesting (admits : List C → C → Bool) : Machine (List C) (Turn C) where
  start := []
  step := Turn.apply admits

theorem nesting_cons {admits : List C → C → Bool} {stack later : List C} {t : Turn C}
    {l : List (Turn C)} (h : (nesting admits).exec stack (t :: l) = some later) :
    ∃ mid, Turn.apply admits stack t = some mid ∧ (nesting admits).exec mid l = some later :=
  Option.bind_eq_some_iff.mp h

theorem apply_enter {admits : List C → C → Bool} {stack later : List C} {c : C}
    (h : Turn.apply admits stack (.enter c) = some later) :
    admits stack c = true ∧ later = c :: stack := by
  by_cases admitted : admits stack c = true
  · simp only [Turn.apply, if_pos admitted] at h
    exact ⟨admitted, (Option.some.inj h).symm⟩
  · simp only [Turn.apply, if_neg admitted] at h
    cases h

theorem apply_touch {admits : List C → C → Bool} {stack later : List C} {c : C}
    (h : Turn.apply admits stack (.touch c) = some later) :
    stack.head? = some c ∧ later = stack := by
  by_cases top : stack.head? = some c
  · simp only [Turn.apply, if_pos top] at h
    exact ⟨top, (Option.some.inj h).symm⟩
  · simp only [Turn.apply, if_neg top] at h
    cases h

theorem apply_leave {admits : List C → C → Bool} {stack later : List C} {c : C}
    (h : Turn.apply admits stack (.leave c) = some later) : stack = c :: later := by
  by_cases top : stack.head? = some c
  · simp only [Turn.apply, if_pos top] at h
    cases stack with
    | nil => cases top
    | cons d rest =>
      have hd : d = c := Option.some.inj top
      have hrest : rest = later := Option.some.inj h
      rw [hd, hrest]
  · simp only [Turn.apply, if_neg top] at h
    cases h

/-- A component not on the stack gets there by entering only. -/
theorem enters_of_mem {admits : List C → C → Bool} {stack later : List C} {l : List (Turn C)}
    {c : C} (run : (nesting admits).exec stack l = some later) (held : c ∈ later)
    (absent : c ∉ stack) : Turn.enter c ∈ l := by
  induction l generalizing stack with
  | nil =>
    have same : stack = later := Option.some.inj run
    exact absurd (same ▸ held) absent
  | cons t rest ih =>
    obtain ⟨mid, ht, hrest⟩ := nesting_cons run
    cases t with
    | enter d =>
      obtain ⟨-, rfl⟩ := apply_enter ht
      by_cases hcd : c = d
      · exact hcd ▸ List.mem_cons_self
      · exact List.mem_cons_of_mem _ (ih hrest (by simp [hcd, absent]))
    | touch d =>
      obtain ⟨-, rfl⟩ := apply_touch ht
      exact List.mem_cons_of_mem _ (ih hrest absent)
    | leave d =>
      have popped := apply_leave ht
      exact List.mem_cons_of_mem _
        (ih hrest fun kept => absent (popped ▸ List.mem_cons_of_mem _ kept))

/-- What entered and did not leave is on the stack. -/
theorem mem_of_enters {admits : List C → C → Bool} {stack later : List C} {l : List (Turn C)}
    {c : C} (run : (nesting admits).exec stack l = some later)
    (entered : c ∈ stack ∨ Turn.enter c ∈ l) (stays : Turn.leave c ∉ l) : c ∈ later := by
  induction l generalizing stack with
  | nil =>
    have same : stack = later := Option.some.inj run
    rcases entered with held | never
    · exact same ▸ held
    · cases never
  | cons t rest ih =>
    obtain ⟨mid, ht, hrest⟩ := nesting_cons run
    have stays' : Turn.leave c ∉ rest := fun out => stays (List.mem_cons_of_mem _ out)
    have now : c ∈ mid ∨ Turn.enter c ∈ rest := by
      rcases entered with held | listed
      · left
        cases t with
        | enter d =>
          obtain ⟨-, rfl⟩ := apply_enter ht
          exact List.mem_cons_of_mem _ held
        | touch d =>
          obtain ⟨-, rfl⟩ := apply_touch ht
          exact held
        | leave d =>
          rw [apply_leave ht] at held
          rcases List.mem_cons.mp held with rfl | kept
          · exact absurd List.mem_cons_self stays
          · exact kept
      · rcases List.mem_cons.mp listed with rfl | later'
        · obtain ⟨-, rfl⟩ := apply_enter ht
          exact Or.inl List.mem_cons_self
        · exact Or.inr later'
    exact ih hrest now stays'

/-- When a component is on top again, all that came over it has left. The
induction follows the run, `above` is what lies over the component. -/
theorem left_above {admits : List C → C → Bool} {c : C} (above : List C) {below later : List C}
    {l : List (Turn C)} (run : (nesting admits).exec (above ++ c :: below) l = some later)
    (top : later.head? = some c) (notAbove : c ∉ above) (notBelow : c ∉ below)
    (once : Turn.enter c ∉ l) {d : C} (higher : d ∈ above ∨ Turn.enter d ∈ l) :
    Turn.leave d ∈ l := by
  induction l generalizing above with
  | nil =>
    have same : above ++ c :: below = later := Option.some.inj run
    cases above with
    | nil =>
      rcases higher with never | never
      · cases never
      · cases never
    | cons x xs =>
      rw [← same] at top
      have hx : x = c := Option.some.inj top
      exact absurd (hx ▸ List.mem_cons_self) notAbove
  | cons t rest ih =>
    obtain ⟨mid, ht, hrest⟩ := nesting_cons run
    have once' : Turn.enter c ∉ rest := fun again => once (List.mem_cons_of_mem _ again)
    cases t with
    | enter x =>
      obtain ⟨-, rfl⟩ := apply_enter ht
      have hx : c ≠ x := fun same => once (same ▸ List.mem_cons_self)
      refine List.mem_cons_of_mem _ (ih (x :: above) hrest (by simp [hx, notAbove]) once' ?_)
      rcases higher with held | listed
      · exact Or.inl (List.mem_cons_of_mem _ held)
      · rcases List.mem_cons.mp listed with same | later'
        · cases same
          exact Or.inl List.mem_cons_self
        · exact Or.inr later'
    | touch x =>
      obtain ⟨-, rfl⟩ := apply_touch ht
      refine List.mem_cons_of_mem _ (ih above hrest notAbove once' ?_)
      rcases higher with held | listed
      · exact Or.inl held
      · rcases List.mem_cons.mp listed with same | later'
        · cases same
        · exact Or.inr later'
    | leave x =>
      have popped := apply_leave ht
      cases above with
      | nil =>
        -- the component itself leaves and cannot come back
        have hmid : below = mid := (List.cons.inj popped).2
        rw [← hmid] at hrest
        have back : c ∈ later := List.mem_of_mem_head? top
        exact absurd (enters_of_mem hrest back notBelow) once'
      | cons y ys =>
        have hxy : y = x := (List.cons.inj popped).1
        have hmid : ys ++ c :: below = mid := (List.cons.inj popped).2
        rw [← hmid] at hrest
        have lower : c ∉ ys := fun kept => notAbove (List.mem_cons_of_mem _ kept)
        by_cases hdx : d = x
        · exact hdx ▸ List.mem_cons_self
        · refine List.mem_cons_of_mem _ (ih ys hrest lower once' ?_)
          rcases higher with held | listed
          · rcases List.mem_cons.mp held with same | kept
            · exact absurd (same.trans hxy) hdx
            · exact Or.inl kept
          · rcases List.mem_cons.mp listed with same | later'
            · cases same
            · exact Or.inr later'

/-- A turn that needs its component on top finds everything opened over it gone. -/
theorem nested_order {admits : List C → C → Bool} {c d : C} {before between : List (Turn C)}
    {stack : List C}
    (run : (nesting admits).exec [] (before ++ .enter c :: between) = some stack)
    (top : stack.head? = some c) (first : Turn.enter c ∉ before)
    (once : Turn.enter c ∉ between) (entered : Turn.enter d ∈ between) :
    Turn.leave d ∈ between := by
  rw [Machine.exec_append, Option.bind_eq_some_iff] at run
  obtain ⟨base, hbase, hrest⟩ := run
  obtain ⟨mid, hmid, hbetween⟩ := nesting_cons hrest
  obtain ⟨-, rfl⟩ := apply_enter hmid
  have absent : c ∉ base := fun held => first (enters_of_mem hbase held (by simp))
  exact left_above [] hbetween top (by simp) absent once (Or.inr entered)

/-- What may not lie under an entering component has left before. -/
theorem nested_admits {admits : List C → C → Bool} {c d : C} {before between : List (Turn C)}
    {stack : List C}
    (run : (nesting admits).exec [] (before ++ .enter c :: between) = some stack)
    (excluded : ∀ st, d ∈ st → admits st c = false) (entered : Turn.enter d ∈ before) :
    Turn.leave d ∈ before := by
  rw [Machine.exec_append, Option.bind_eq_some_iff] at run
  obtain ⟨base, hbase, hrest⟩ := run
  obtain ⟨mid, hmid, -⟩ := nesting_cons hrest
  obtain ⟨admitted, -⟩ := apply_enter hmid
  by_contra stays
  have held : d ∈ base := mem_of_enters hbase (Or.inr entered) stays
  rw [excluded base held] at admitted
  cases admitted

end Nesting

end LifecycleTraces
