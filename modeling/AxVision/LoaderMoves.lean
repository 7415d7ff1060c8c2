import AxVision.ComponentLoaders

/-!
# Loader operations as moves over the open components

Whatever answers a loader gets, its events are a sequence of moves: a component
passes through and is closed again, is opened for good, works, or is closed.
The held list has the latest component first. A strict move closes only the
first one; the operations of `SceneRuntime` are strict.
-/

namespace LoaderMoves

open TransitionRuns LifecycleTraces ComponentLoaders

universe u v

variable {I : Type u} {F : Type v}

def subject : Event I F → Option (Component × Stage)
  | .dlopenFailed _ _ => none
  | .dlopen c => some (c, .opening)
  | .create c => some (c, .creation)
  | .init c => some (c, .initialisation)
  | .process c _ => some (c, .work)
  | .onFrame c _ _ => some (c, .work)
  | .waitQuiesce _ => none
  | .shutdown c => some (c, .shutdown)
  | .destroy c => some (c, .destruction)
  | .dlclose c => some (c, .closing)

/-- `WaitQuiesce` is called for the business plugin only. -/
def notice (c : Component) : List (Event I F) :=
  if c.role = .business then [.waitQuiesce c.name] else []

def closing (c : Component) : List (Event I F) :=
  notice c ++ [.shutdown c, .destroy c, .dlclose c]

/-- A component that does not stay. -/
inductive Passing (c : Component) : List (Event I F) → Prop where
  | unopened (role : Role) (path : String) : Passing c [.dlopenFailed role path]
  | uncreated : Passing c [.dlopen c, .dlclose c]
  | unfit : Passing c [.dlopen c, .create c, .destroy c, .dlclose c]
  | uninitialised : Passing c ([.dlopen c, .create c, .init c] ++ closing c)

/-- A post-processor is not opened over a business plugin. -/
def admits (held : List Component) (c : Component) : Bool :=
  c.role = .business || held.all fun d => d.role ≠ .business

/-- `now` is the number of events before the move. -/
inductive Moves (strict : Bool) :
    Nat → List Component → List (Event I F) → List Component → Prop where
  | idle {now : Nat} {held : List Component} : Moves strict now held [] held
  | passing {now : Nat} {held : List Component} {c : Component} {es : List (Event I F)}
      (fresh : c.serial = now) (allowed : strict = true → admits held c = true)
      (passes : Passing c es) : Moves strict now held es held
  | opening {now : Nat} {held : List Component} {c : Component}
      (fresh : c.serial = now) (allowed : strict = true → admits held c = true) :
      Moves strict now held [.dlopen c, .create c, .init c] (c :: held)
  | working {now : Nat} {held : List Component} {c : Component} {e : Event I F}
      (mem : c ∈ held) (works : subject e = some (c, .work)) : Moves strict now held [e] held
  | closing {now : Nat} {held : List Component} {c : Component} :
      Moves strict now (c :: held) (closing c) held
  | reorder {now : Nat} {held other : List Component} (lax : strict = false)
      (same : held.Perm other) : Moves strict now held [] other
  | trans {now : Nat} {a b d : List Component} {es fs : List (Event I F)}
      (first : Moves strict now a es b) (second : Moves strict (now + es.length) b fs d) :
      Moves strict now a (es ++ fs) d

/-- No business plugin is shut down unless its name has just gone quiet. -/
def Quiesced (tr : List (Event I F)) : Prop :=
  ∀ (before after : List (Event I F)) (c : Component),
    tr = before ++ .shutdown c :: after → c.role = .business →
      ∃ earlier, before = earlier ++ [.waitQuiesce c.name]

theorem Quiesced.append {tr es : List (Event I F)} (h : Quiesced tr) (k : Quiesced es) :
    Quiesced (tr ++ es) := by
  intro before after c split role
  rcases List.append_eq_append_iff.mp split with ⟨mid, hb, hes⟩ | ⟨mid, htr, ha⟩
  · obtain ⟨earlier, hmid⟩ := k mid after c hes role
    exact ⟨tr ++ earlier, by rw [hb, hmid, List.append_assoc]⟩
  · cases mid with
    | nil =>
      have hes : es = [] ++ .shutdown c :: after := ha.symm
      obtain ⟨earlier, hmid⟩ := k [] after c hes role
      exact absurd hmid (by simp)
    | cons e rest =>
      have he : .shutdown c = e := (List.cons.inj ha).1
      rw [← he] at htr
      exact h before rest c htr role

theorem quiesced_of_none {es : List (Event I F)} (none : ∀ c, Event.shutdown c ∉ es) :
    Quiesced es := by
  intro before after c split _
  have present : Event.shutdown c ∈ es := by
    rw [split]
    simp
  exact absurd present (none c)

theorem quiesced_closing (c : Component) : Quiesced (closing c : List (Event I F)) := by
  intro before after d split role
  unfold closing notice at split
  cases hr : c.role with
  | postProcessor =>
    simp only [hr, reduceCtorEq, if_false, List.nil_append] at split
    cases before with
    | nil =>
      have hcd : c = d := by
        have heads := (List.cons.inj split).1
        injection heads
      rw [hcd, role] at hr
      cases hr
    | cons e rest =>
      have tails := (List.cons.inj split).2
      rcases rest with _ | ⟨x, _ | ⟨y, _ | ⟨z, w⟩⟩⟩ <;> simp at tails
  | business =>
    simp only [hr, if_true, List.singleton_append] at split
    rcases before with _ | ⟨e, _ | ⟨x, _ | ⟨y, _ | ⟨z, w⟩⟩⟩⟩
    · simp at split
    · have heads := List.cons.inj split
      have hcd : c = d := by
        have second := (List.cons.inj heads.2).1
        injection second
      exact ⟨[], by rw [← heads.1, hcd]; rfl⟩
    · simp at split
    · simp at split
    · simp at split

theorem Passing.quiesced {c : Component} {es : List (Event I F)} (h : Passing c es) :
    Quiesced es := by
  cases h with
  | unopened role path => exact quiesced_of_none (by simp)
  | uncreated => exact quiesced_of_none (by simp)
  | unfit => exact quiesced_of_none (by simp)
  | uninitialised => exact (quiesced_of_none (by simp)).append (quiesced_closing c)

/-- What a trace tells of the components held after it. -/
structure Books (held : List Component) (tr : List (Event I F)) : Prop where
  accounted : Accounted subject (· ∈ held) tr
  nodup : held.Nodup
  /-- serials are positions in the trace -/
  fresh : ∀ c, tr.length ≤ c.serial → lifeline subject c tr = []
  quiesced : Quiesced tr

theorem books_nil : Books [] ([] : List (Event I F)) where
  accounted := ⟨fun _ hc => absurd hc List.not_mem_nil, fun _ _ => Or.inl rfl⟩
  nodup := List.nodup_nil
  fresh c _ := rfl
  quiesced := quiesced_of_none (by simp)

theorem own_closing (c : Component) :
    ∀ e ∈ (closing c : List (Event I F)), ∀ d s, subject e = some (d, s) → d = c := by
  intro e he d s hs
  unfold closing notice at he
  split at he <;> simp at he <;> rcases he with rfl | rfl | rfl | rfl <;> cases hs <;> rfl

theorem lifeline_closing (c : Component) :
    lifeline subject c (closing c : List (Event I F)) = [.shutdown, .destruction, .closing] := by
  unfold closing notice
  split <;> simp [lifeline, subject]

theorem Passing.own {c : Component} {es : List (Event I F)} (h : Passing c es) :
    ∀ e ∈ es, ∀ d s, subject e = some (d, s) → d = c := by
  intro e he d s hs
  cases h with
  | unopened role path =>
    simp at he
    subst he
    cases hs
  | uncreated => simp at he; rcases he with rfl | rfl <;> cases hs <;> rfl
  | unfit => simp at he; rcases he with rfl | rfl | rfl | rfl <;> cases hs <;> rfl
  | uninitialised =>
    rcases List.mem_append.mp he with first | last
    · simp at first
      rcases first with rfl | rfl | rfl <;> cases hs <;> rfl
    · exact own_closing c e last d s hs

/-- A passing component is closed at the end, unless it was never opened. -/
theorem Passing.ends {c : Component} {es : List (Event I F)} (h : Passing c es) :
    (∀ e ∈ es, subject e = none) ∨
      lifecycle.exec .unopened (lifeline subject c es) = some .closed := by
  cases h with
  | unopened role path => exact Or.inl (by simp [subject])
  | uncreated => exact Or.inr (by simp [lifeline, subject]; rfl)
  | unfit => exact Or.inr (by simp [lifeline, subject]; rfl)
  | uninitialised =>
    right
    rw [lifeline_append, lifeline_closing]
    simp [lifeline, subject]
    rfl

theorem Passing.nonempty {c : Component} {es : List (Event I F)} (h : Passing c es) :
    0 < es.length := by
  cases h <;> simp

theorem Books.unheld {held : List Component} {tr : List (Event I F)} (h : Books held tr)
    {c : Component} (new : c.serial = tr.length) : c ∉ held := by
  intro hc
  have ready := h.accounted.ready c hc
  unfold phase at ready
  rw [h.fresh c (by omega)] at ready
  cases ready

theorem Books.phase_new {held : List Component} {tr : List (Event I F)} (h : Books held tr)
    {c : Component} (new : c.serial = tr.length) : phase subject c tr = some .unopened := by
  unfold phase
  rw [h.fresh c (by omega)]
  rfl

theorem Books.serial_lt {held : List Component} {tr : List (Event I F)} (h : Books held tr)
    {c : Component} (hc : c ∈ held) : c.serial < tr.length := by
  by_contra late
  have ready := h.accounted.ready c hc
  unfold phase at ready
  rw [h.fresh c (by omega)] at ready
  cases ready

/-- Fresh serials stay fresh when events are about an old or the newest component. -/
theorem Books.fresh_append {held : List Component} {tr es : List (Event I F)} (h : Books held tr)
    {c : Component} (own : ∀ e ∈ es, ∀ d s, subject e = some (d, s) → d = c)
    (small : c.serial < tr.length + es.length) :
    ∀ d : Component, (tr ++ es).length ≤ d.serial → lifeline subject d (tr ++ es) = [] := by
  intro d hd
  rw [List.length_append] at hd
  have other : d ≠ c := by
    rintro rfl
    omega
  rw [lifeline_append, h.fresh d (by omega), List.nil_append]
  exact lifeline_eq_nil fun e he s hs => other (own e he d s hs)

theorem Books.pass {held : List Component} {tr es : List (Event I F)} {c : Component}
    (h : Books held tr) (new : c.serial = tr.length) (passes : Passing c es) :
    Books held (tr ++ es) where
  accounted := by
    rcases passes.ends with silent | closed
    · exact h.accounted.pass silent
    · refine h.accounted.advance passes.own (fun d _ => Iff.rfl) (Or.inr ⟨h.unheld new, ?_⟩)
      rw [phase_append (h.phase_new new)]
      exact closed
  nodup := h.nodup
  fresh := h.fresh_append passes.own (by have := passes.nonempty; omega)
  quiesced := h.quiesced.append passes.quiesced

theorem Books.opened {held : List Component} {tr : List (Event I F)} {c : Component}
    (h : Books held tr) (new : c.serial = tr.length) :
    Books (c :: held) (tr ++ [.dlopen c, .create c, .init c]) := by
  have own : ∀ e ∈ ([.dlopen c, .create c, .init c] : List (Event I F)), ∀ d s,
      subject e = some (d, s) → d = c := by
    intro e he d s hs
    simp at he
    rcases he with rfl | rfl | rfl <;> cases hs <;> rfl
  constructor
  · refine h.accounted.advance own (fun d hd => by simp [hd]) (Or.inl ⟨List.mem_cons_self, ?_⟩)
    rw [phase_append (h.phase_new new)]
    simp [lifeline, subject]
    rfl
  · exact List.nodup_cons.mpr ⟨h.unheld new, h.nodup⟩
  · exact h.fresh_append own (by simp; omega)
  · exact h.quiesced.append (quiesced_of_none (by simp))

theorem Books.worked {held : List Component} {tr : List (Event I F)} {c : Component}
    {e : Event I F} (h : Books held tr) (hc : c ∈ held) (works : subject e = some (c, .work)) :
    Books held (tr ++ [e]) := by
  have own : ∀ f ∈ [e], ∀ d s, subject f = some (d, s) → d = c := by
    intro f hf d s hs
    rw [List.mem_singleton.mp hf, works] at hs
    cases hs
    rfl
  have notShutdown : ∀ d, Event.shutdown d ∉ [e] := by
    intro d hd
    rw [← List.mem_singleton.mp hd] at works
    cases works
  constructor
  · refine h.accounted.advance own (fun d _ => Iff.rfl) (Or.inl ⟨hc, ?_⟩)
    rw [phase_append (h.accounted.ready c hc)]
    simp [lifeline, works]
    rfl
  · exact h.nodup
  · exact h.fresh_append own (by have := h.serial_lt hc; simp; omega)
  · exact h.quiesced.append (quiesced_of_none notShutdown)

theorem Books.closed {held : List Component} {tr : List (Event I F)} {c : Component}
    (h : Books (c :: held) tr) : Books held (tr ++ closing c) := by
  have gone : c ∉ held := (List.nodup_cons.mp h.nodup).1
  have present : c ∈ c :: held := List.mem_cons_self
  constructor
  · refine h.accounted.advance (own_closing c) (fun d hd => by simp [hd]) (Or.inr ⟨gone, ?_⟩)
    rw [phase_append (h.accounted.ready c present), lifeline_closing]
    rfl
  · exact (List.nodup_cons.mp h.nodup).2
  · exact h.fresh_append (own_closing c) (by have := h.serial_lt present; omega)
  · exact h.quiesced.append (quiesced_closing c)

/-- Moves keep the books. -/
theorem Moves.books {strict : Bool} {now : Nat} {held later : List Component}
    {es : List (Event I F)} (moves : Moves strict now held es later) :
    ∀ tr : List (Event I F), tr.length = now → Books held tr → Books later (tr ++ es) := by
  induction moves with
  | idle =>
    intro tr _ h
    rw [List.append_nil]
    exact h
  | passing new _ passes =>
    intro tr htr h
    exact h.pass (new.trans htr.symm) passes
  | opening new _ =>
    intro tr htr h
    exact h.opened (new.trans htr.symm)
  | working mem works =>
    intro tr _ h
    exact h.worked mem works
  | closing =>
    intro tr _ h
    exact h.closed
  | reorder _ same =>
    intro tr _ h
    rw [List.append_nil]
    exact ⟨h.accounted.congr fun c => same.mem_iff.symm, same.nodup_iff.mp h.nodup, h.fresh,
      h.quiesced⟩
  | trans _ _ first second =>
    intro tr htr h
    have mid := first tr htr h
    rw [← List.append_assoc]
    exact second _ (by rw [List.length_append, htr]) mid

def turn : Event I F → Option (Turn Component)
  | .dlopen c => some (.enter c)
  | .shutdown c => some (.touch c)
  | .destroy c => some (.touch c)
  | .dlclose c => some (.leave c)
  | _ => none

def turns (tr : List (Event I F)) : List (Turn Component) := tr.filterMap turn

theorem turns_append (tr es : List (Event I F)) : turns (tr ++ es) = turns tr ++ turns es :=
  List.filterMap_append

theorem turns_closing (c : Component) :
    turns (closing c : List (Event I F)) = [.touch c, .touch c, .leave c] := by
  unfold closing notice
  split <;> rfl

theorem exec_closing (c : Component) (held : List Component) :
    (nesting admits).exec (c :: held) [.touch c, .touch c, .leave c] = some held := by
  simp [Machine.exec, nesting, Turn.apply]

theorem exec_enter {c : Component} {held : List Component} (allowed : admits held c = true)
    (rest : List (Turn Component)) :
    (nesting admits).exec held (.enter c :: rest) = (nesting admits).exec (c :: held) rest := by
  simp [Machine.exec, nesting, Turn.apply, allowed]

theorem Passing.nested {c : Component} {held : List Component} {es : List (Event I F)}
    (h : Passing c es) (allowed : admits held c = true) :
    (nesting admits).exec held (turns es) = some held := by
  cases h with
  | unopened role path => rfl
  | uncreated =>
    have named : turns ([.dlopen c, .dlclose c] : List (Event I F)) = [.enter c, .leave c] := rfl
    rw [named, exec_enter allowed]
    simp [Machine.exec, nesting, Turn.apply]
  | unfit =>
    have named : turns ([.dlopen c, .create c, .destroy c, .dlclose c] : List (Event I F)) =
        [.enter c, .touch c, .leave c] := rfl
    rw [named, exec_enter allowed]
    simp [Machine.exec, nesting, Turn.apply]
  | uninitialised =>
    have named : turns ([.dlopen c, .create c, .init c] : List (Event I F)) = [.enter c] := rfl
    rw [turns_append, turns_closing, named, List.singleton_append, exec_enter allowed]
    exact exec_closing c held

/-- Strict moves are nested. -/
theorem Moves.nested {now : Nat} {held later : List Component} {es : List (Event I F)}
    (moves : Moves true now held es later) :
    (nesting admits).exec held (turns es) = some later := by
  induction moves with
  | idle => rfl
  | passing _ allowed passes => exact passes.nested (allowed rfl)
  | opening _ allowed =>
    refine (exec_enter (allowed rfl) _).trans ?_
    rfl
  | @working now held c e mem works =>
    have quiet : turns [e] = [] := by cases e <;> cases works <;> rfl
    rw [quiet]
    rfl
  | closing =>
    rw [turns_closing]
    exact exec_closing _ _
  | reorder lax _ => cases lax
  | trans _ _ first second =>
    rw [turns_append, Machine.exec_append, first]
    exact second

end LoaderMoves
