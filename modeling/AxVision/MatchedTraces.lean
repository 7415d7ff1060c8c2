import Mathlib.Data.Multiset.AddSub
import Mathlib.Data.Multiset.Count

/-!
# Traces in which every release matches an acquisition

An event acquires a resource, releases one or does neither. `settle` plays a
trace against the multiset of held resources and fails at the first release of
one that is not held.
-/

namespace MatchedTraces

universe u v

variable {ε : Type u} {α : Type v} [DecidableEq α]

/-- What the events of a kind of trace acquire and release. -/
structure Ledger (ε : Type u) (α : Type v) where
  acquired : ε → Option α
  released : ε → Option α
  apart : ∀ e, released e ≠ none → acquired e = none

def Ledger.settle (L : Ledger ε α) : Multiset α → List ε → Option (Multiset α)
  | held, [] => some held
  | held, e :: rest =>
    match L.released e with
    | some a => if a ∈ held then L.settle (held.erase a) rest else none
    | none =>
      match L.acquired e with
      | some a => L.settle (a ::ₘ held) rest
      | none => L.settle held rest

def Ledger.acquisitions (L : Ledger ε α) (trace : List ε) : List α := trace.filterMap L.acquired

def Ledger.releases (L : Ledger ε α) (trace : List ε) : List α := trace.filterMap L.released

variable {L : Ledger ε α}

theorem settle_cons (L : Ledger ε α) (held : Multiset α) (e : ε) (rest : List ε) :
    L.settle held (e :: rest) =
      match L.released e with
      | some a => if a ∈ held then L.settle (held.erase a) rest else none
      | none =>
        match L.acquired e with
        | some a => L.settle (a ::ₘ held) rest
        | none => L.settle held rest :=
  rfl

theorem settle_append (held : Multiset α) (first second : List ε) :
    L.settle held (first ++ second) =
      (L.settle held first).bind fun mid => L.settle mid second := by
  induction first generalizing held with
  | nil => rfl
  | cons e rest ih =>
    rw [List.cons_append, settle_cons, settle_cons]
    split
    · split
      · exact ih _
      · rfl
    · split
      · exact ih _
      · exact ih _

/-- Events that neither acquire nor release change nothing. -/
theorem settle_neutral {held : Multiset α} {trace : List ε}
    (neutral : ∀ e ∈ trace, L.acquired e = none ∧ L.released e = none) :
    L.settle held trace = some held := by
  induction trace with
  | nil => rfl
  | cons e rest ih =>
    obtain ⟨acquires, releases⟩ := neutral e List.mem_cons_self
    simp only [settle_cons, acquires, releases]
    exact ih fun e' mem => neutral e' (List.mem_cons_of_mem e mem)

/-- A further event that acquires adds to what is held. -/
theorem settle_acquire {start held : Multiset α} {trace : List ε} {e : ε} {a : α}
    (h : L.settle start trace = some held) (acquires : L.acquired e = some a) :
    L.settle start (trace ++ [e]) = some (a ::ₘ held) := by
  have quiet : L.released e = none := by
    by_contra releases
    have none := L.apart e releases
    rw [acquires] at none
    cases none
  rw [settle_append, h, Option.bind_some]
  simp only [settle_cons, acquires, quiet]
  rfl

/-- A further event that releases a held resource takes it away. -/
theorem settle_release {start held : Multiset α} {trace : List ε} {e : ε} {a : α}
    (h : L.settle start trace = some held) (releases : L.released e = some a) (here : a ∈ held) :
    L.settle start (trace ++ [e]) = some (held.erase a) := by
  rw [settle_append, h, Option.bind_some]
  simp only [settle_cons, releases, if_pos here]
  rfl

/-- Further events that each release one resource of a list leave the rest. -/
theorem settle_release_all {β : Type*} {start held : Multiset α} {trace : List ε} {event : β → ε}
    {resource : β → α} (releases : ∀ b, L.released (event b) = some (resource b)) (l : List β)
    (h : L.settle start trace = some (↑(l.map resource) + held)) :
    L.settle start (trace ++ l.map event) = some held := by
  induction l generalizing trace with
  | nil =>
    rw [List.map_nil, Multiset.coe_nil, Multiset.zero_add] at h
    rw [List.map_nil, List.append_nil]
    exact h
  | cons b rest ih =>
    rw [List.map_cons, ← Multiset.cons_coe, Multiset.cons_add] at h
    have release := settle_release h (releases b) (Multiset.mem_cons_self _ _)
    rw [Multiset.erase_cons_head] at release
    have after := ih release
    rw [List.append_assoc, List.singleton_append] at after
    exact after

/-- Further neutral events keep what is held. -/
theorem settle_idle {start held : Multiset α} {trace more : List ε}
    (h : L.settle start trace = some held)
    (neutral : ∀ e ∈ more, L.acquired e = none ∧ L.released e = none) :
    L.settle start (trace ++ more) = some held := by
  rw [settle_append, h, Option.bind_some]
  exact settle_neutral neutral

/-- What was held and acquired is what was released and is held. -/
theorem settle_conserves {held later : Multiset α} {trace : List ε}
    (h : L.settle held trace = some later) :
    held + (L.acquisitions trace : Multiset α) = later + (L.releases trace : Multiset α) := by
  induction trace generalizing held with
  | nil =>
    cases h
    rfl
  | cons e rest ih =>
    rw [settle_cons] at h
    split at h
    · rename_i a released
      split at h
      · rename_i here
        have conserved := ih h
        have none := L.apart e (by simp [released])
        have same : a ::ₘ held.erase a = held := Multiset.cons_erase here
        simp only [Ledger.acquisitions, Ledger.releases, List.filterMap_cons, none, released,
          ← Multiset.cons_coe, Multiset.add_cons] at conserved ⊢
        rw [← conserved, ← Multiset.cons_add, same]
      · cases h
    · rename_i released
      split at h
      · rename_i a acquired
        have conserved := ih h
        simp only [Ledger.acquisitions, Ledger.releases, List.filterMap_cons, acquired, released,
          ← Multiset.cons_coe, Multiset.add_cons, Multiset.cons_add] at conserved ⊢
        exact conserved
      · rename_i acquired
        have conserved := ih h
        simp only [Ledger.acquisitions, Ledger.releases, List.filterMap_cons, acquired, released]
          at conserved ⊢
        exact conserved

/-- A trace that ends with nothing held releases exactly what it acquires. -/
theorem settled_perm {trace : List ε} (h : L.settle 0 trace = some 0) :
    (L.releases trace).Perm (L.acquisitions trace) := by
  have conserved := settle_conserves h
  rw [Multiset.zero_add, Multiset.zero_add] at conserved
  exact (Multiset.coe_eq_coe.mp conserved).symm

/-- No prefix releases more than it acquires. -/
theorem settled_prefix {trace start rest : List ε} {later : Multiset α}
    (h : L.settle 0 trace = some later) (split : start ++ rest = trace) (a : α) :
    (L.releases start).count a ≤ (L.acquisitions start).count a := by
  subst split
  rw [settle_append] at h
  obtain ⟨mid, first, -⟩ := Option.bind_eq_some_iff.mp h
  have conserved := congrArg (Multiset.count a) (settle_conserves first)
  simp only [Multiset.zero_add, Multiset.count_add, Multiset.coe_count] at conserved
  omega

end MatchedTraces
