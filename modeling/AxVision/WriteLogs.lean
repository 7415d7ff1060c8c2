import Mathlib.Data.Set.Lattice
import Mathlib.Logic.Function.Basic

/-!
# Logs of writes to a store

A program that writes to a store leaves a log, the first write first; replaying
the log gives the store it leaves. Where all writes to a place agree, the order
of the log does not matter, only the places it writes. An action writes a log
and carries a state of its own that may steer the values it writes.
-/

namespace WriteLogs

universe u v w

variable {κ : Type u} {ν : Type v} {σ : Type w}

/-- The places a log writes. -/
def written (log : List (κ × ν)) : Set κ := {k | ∃ v, (k, v) ∈ log}

theorem mem_written {log : List (κ × ν)} {k : κ} : k ∈ written log ↔ ∃ v, (k, v) ∈ log := Iff.rfl

@[simp] theorem written_nil : written ([] : List (κ × ν)) = ∅ := by
  ext k
  simp [mem_written]

@[simp] theorem written_cons (w : κ × ν) (log : List (κ × ν)) :
    written (w :: log) = insert w.1 (written log) := by
  ext k
  simp only [mem_written, List.mem_cons, Set.mem_insert_iff]
  constructor
  · rintro ⟨v, rfl | old⟩
    · exact Or.inl rfl
    · exact Or.inr ⟨v, old⟩
  · rintro (rfl | ⟨v, old⟩)
    · exact ⟨w.2, Or.inl rfl⟩
    · exact ⟨v, Or.inr old⟩

@[simp] theorem written_append (a b : List (κ × ν)) : written (a ++ b) = written a ∪ written b := by
  ext k
  simp only [mem_written, List.mem_append, Set.mem_union, exists_or]

/-- All writes of a log to a place write its one value. -/
def Uniform (value : κ → ν) (log : List (κ × ν)) : Prop := ∀ w ∈ log, w.2 = value w.1

theorem Uniform.append {value : κ → ν} {a b : List (κ × ν)} (ha : Uniform value a)
    (hb : Uniform value b) : Uniform value (a ++ b) := by
  intro w hw
  rcases List.mem_append.mp hw with h | h
  · exact ha w h
  · exact hb w h

section Replay

variable [DecidableEq κ] {value : κ → ν} {log a b : List (κ × ν)} {store : κ → ν} {k : κ}

def replay (log : List (κ × ν)) (store : κ → ν) : κ → ν :=
  log.foldl (fun store w => Function.update store w.1 w.2) store

@[simp] theorem replay_nil (store : κ → ν) : replay [] store = store := rfl

@[simp] theorem replay_cons (w : κ × ν) (log : List (κ × ν)) (store : κ → ν) :
    replay (w :: log) store = replay log (Function.update store w.1 w.2) := rfl

theorem replay_append (a b : List (κ × ν)) (store : κ → ν) :
    replay (a ++ b) store = replay b (replay a store) := List.foldl_append

theorem replay_unwritten (h : k ∉ written log) : replay log store k = store k := by
  induction log generalizing store with
  | nil => rfl
  | cons w rest ih =>
    rw [written_cons, Set.mem_insert_iff, not_or] at h
    rw [replay_cons, ih h.2, Function.update_of_ne h.1]

theorem replay_written (uniform : Uniform value log) (h : k ∈ written log) :
    replay log store k = value k := by
  induction log generalizing store with
  | nil => simp at h
  | cons w rest ih =>
    have later : Uniform value rest := fun w' hw' => uniform w' (List.mem_cons_of_mem w hw')
    rw [replay_cons]
    by_cases again : k ∈ written rest
    · exact ih later again
    · rw [written_cons, Set.mem_insert_iff] at h
      have here : k = w.1 := h.resolve_right again
      rw [replay_unwritten again, here, Function.update_self]
      exact uniform w List.mem_cons_self

/-- Two uniform logs leave the same store where they write the same places, and
elsewhere if the value was there before. -/
theorem replay_eq_iff (ha : Uniform value a) (hb : Uniform value b) :
    replay a store = replay b store ↔
      ∀ k, (k ∈ written a ↔ k ∈ written b) ∨ store k = value k := by
  rw [funext_iff]
  refine forall_congr' fun k => ?_
  by_cases inA : k ∈ written a
  · by_cases inB : k ∈ written b
    · simp [replay_written ha inA, replay_written hb inB, inA, inB]
    · simp [replay_written ha inA, replay_unwritten inB, inA, inB, eq_comm]
  · by_cases inB : k ∈ written b
    · simp [replay_unwritten inA, replay_written hb inB, inA, inB]
    · simp [replay_unwritten inA, replay_unwritten inB, inA, inB]

/-- The writes of a uniform log in any order, and any number of times each. -/
theorem replay_congr (ha : Uniform value a) (same : ∀ w, w ∈ a ↔ w ∈ b) :
    replay a store = replay b store := by
  have hb : Uniform value b := fun w hw => ha w ((same w).mpr hw)
  refine (replay_eq_iff ha hb).mpr fun k => Or.inl ?_
  exact exists_congr fun v => same (k, v)

end Replay

section Actions

/-- A piece of a program: from its state to what it writes and its next state. -/
abbrev Action (σ : Type w) (κ : Type u) (ν : Type v) := σ → List (κ × ν) × σ

def Action.nothing : Action σ κ ν := fun s => ([], s)

/-- Writes that neither read nor change the state. -/
def Action.log (writes : List (κ × ν)) : Action σ κ ν := fun s => (writes, s)

def Action.andThen (first second : Action σ κ ν) : Action σ κ ν := fun s =>
  let (log, s) := first s
  let (rest, s) := second s
  (log ++ rest, s)

def Action.sequence : List (Action σ κ ν) → Action σ κ ν
  | [] => .nothing
  | first :: rest => first.andThen (sequence rest)

theorem sequence_singleton (action : Action σ κ ν) : Action.sequence [action] = action := by
  funext s
  simp only [Action.sequence, Action.andThen, Action.nothing, List.append_nil]

theorem sequence_log {ι : Type*} (turns : List ι) (writes : ι → List (κ × ν)) :
    Action.sequence (turns.map fun i => (Action.log (writes i) : Action σ κ ν)) =
      .log (turns.flatMap writes) := by
  induction turns with
  | nil => rfl
  | cons first rest ih =>
    rw [List.map_cons, Action.sequence, ih]
    rfl

section Places

variable {region : Set κ} {first second action : Action σ κ ν} {p q : Set κ}

/-- Whatever its state, of the places of the region the action writes these. -/
def Covers (region : Set κ) (action : Action σ κ ν) (places : Set κ) : Prop :=
  ∀ s, ∀ k ∈ region, k ∈ written (action s).1 ↔ k ∈ places

/-- Whatever its state, the action writes no other places. -/
def Only (action : Action σ κ ν) (places : Set κ) : Prop := ∀ s, written (action s).1 ⊆ places

theorem covers_nothing : Covers region (.nothing : Action σ κ ν) ∅ := by
  intro s k _
  rw [Action.nothing, written_nil]

theorem Covers.andThen (hp : Covers region first p) (hq : Covers region second q) :
    Covers region (first.andThen second) (p ∪ q) := by
  intro s k hk
  have parts : written (first.andThen second s).1 =
      written (first s).1 ∪ written (second (first s).2).1 := written_append _ _
  rw [parts, Set.mem_union, Set.mem_union, hp s k hk, hq (first s).2 k hk]

theorem Covers.congr (hp : Covers region action p) (same : p = q) : Covers region action q :=
  same ▸ hp

/-- A loop covers what its turns cover. -/
theorem covers_sequence {ι : Type*} {turns : List ι} {turn : ι → Action σ κ ν}
    {places : ι → Set κ} (h : ∀ i ∈ turns, Covers region (turn i) (places i)) :
    Covers region (.sequence (turns.map turn)) {k | ∃ i ∈ turns, k ∈ places i} := by
  induction turns with
  | nil => exact covers_nothing.congr (by simp)
  | cons head rest ih =>
    have later := ih fun i hi => h i (List.mem_cons_of_mem head hi)
    refine ((h head List.mem_cons_self).andThen later).congr ?_
    ext k
    simp

theorem only_nothing : Only (.nothing : Action σ κ ν) p := by
  intro s
  rw [Action.nothing, written_nil]
  exact Set.empty_subset p

theorem Only.andThen (h : Only first p) (h' : Only second p) : Only (first.andThen second) p := by
  intro s
  have parts : written (first.andThen second s).1 =
      written (first s).1 ∪ written (second (first s).2).1 := written_append _ _
  rw [parts]
  exact Set.union_subset (h s) (h' (first s).2)

theorem only_sequence {actions : List (Action σ κ ν)} (h : ∀ action ∈ actions, Only action p) :
    Only (.sequence actions) p := by
  induction actions with
  | nil => exact only_nothing
  | cons head rest ih =>
    exact (h head List.mem_cons_self).andThen
      (ih fun action later => h action (List.mem_cons_of_mem head later))

end Places

end Actions

end WriteLogs
