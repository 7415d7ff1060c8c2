import Mathlib.Data.Prod.Lex
import Mathlib.Data.Set.Finite.Basic
import Mathlib.Logic.Relation
import Mathlib.Order.Preorder.Finite

/-!
# Survivors of pairwise conflicts

Conflicts that are decided pair by pair, without a look at who has already
lost. A key that every winner has greater than its loser leaves a survivor
above everybody, however large the connected parts of the conflict graph are.
-/

namespace ConflictGraphs

universe u v w

section Beaten

variable {V : Type u} {K : Type v} [Preorder K] (beats : V → V → Prop)

def Survives (v : V) : Prop := ∀ w, ¬beats w v

/-- From the beaten to a winner. -/
def Yields (v w : V) : Prop := beats w v

/-- Winners come from a finite set and have the greater key: a chain of winners
ends at a survivor. -/
theorem exists_survivor (key : V → K) {S : Set V} (finite : S.Finite)
    (inside : ∀ w v, beats w v → w ∈ S) (rises : ∀ w v, beats w v → key v < key w) (v : V) :
    ∃ w, Relation.ReflTransGen (Yields beats) v w ∧ Survives beats w := by
  have above : {w | Relation.ReflTransGen (Yields beats) v w} ⊆ insert v S := by
    intro w chain
    rcases chain.cases_tail with rfl | ⟨u, -, last⟩
    · exact Set.mem_insert _ _
    · exact Set.mem_insert_of_mem _ (inside w u last)
  obtain ⟨top, chain, greatest⟩ := Set.Finite.exists_maximalFor key _
    ((finite.insert v).subset above) ⟨v, .refl⟩
  refine ⟨top, chain, ?_⟩
  intro w beaten
  -- a winner over the top of the chain would be on the chain
  have back := greatest (chain.tail beaten) (le_of_lt (rises w top beaten))
  exact absurd (rises w top beaten) (not_lt_of_ge back)

end Beaten

section TwoSides

variable {α : Type u} {β : Type v} {L : Type w} [LinearOrder L] (clash : α → β → Prop)
  (rankLeft : α → L) (rankRight : β → L)

/-- The greater rank wins a clash, and the right side wins a tie. -/
inductive Beats : α ⊕ β → α ⊕ β → Prop
  | right {a : α} {b : β} (clashes : clash a b) (le : rankLeft a ≤ rankRight b) :
      Beats (.inr b) (.inl a)
  | left {a : α} {b : β} (clashes : clash a b) (lt : rankRight b < rankLeft a) :
      Beats (.inl a) (.inr b)

def key : α ⊕ β → Lex (L × Bool)
  | .inl a => toLex (rankLeft a, false)
  | .inr b => toLex (rankRight b, true)

variable {clash rankLeft rankRight}

theorem Beats.key_lt {v w : α ⊕ β} (beaten : Beats clash rankLeft rankRight w v) :
    key rankLeft rankRight v < key rankLeft rankRight w := by
  cases beaten with
  | right _ le =>
    rcases lt_or_eq_of_le le with lt | same
    · exact Prod.Lex.toLex_lt_toLex.mpr (Or.inl lt)
    · exact Prod.Lex.toLex_lt_toLex.mpr (Or.inr ⟨same, Bool.false_lt_true⟩)
  | left _ lt => exact Prod.Lex.toLex_lt_toLex.mpr (Or.inl lt)

theorem survives_left {a : α} :
    Survives (Beats clash rankLeft rankRight) (.inl a) ↔
      ∀ b, clash a b → rankRight b < rankLeft a := by
  constructor
  · intro survives b clashes
    by_contra le
    exact survives _ (.right clashes (not_lt.mp le))
  · intro older w beaten
    cases beaten with
    | right clashes le => exact absurd (older _ clashes) (not_lt.mpr le)

theorem survives_right {b : β} :
    Survives (Beats clash rankLeft rankRight) (.inr b) ↔
      ∀ a, clash a b → rankLeft a ≤ rankRight b := by
  constructor
  · intro survives a clashes
    by_contra lt
    exact survives _ (.left clashes (not_le.mp lt))
  · intro older w beaten
    cases beaten with
    | left clashes lt => exact absurd (older _ clashes) (not_le.mpr lt)

/-- Of two that clash one is beaten. -/
theorem not_both_survive {a : α} {b : β} (clashes : clash a b)
    (left : Survives (Beats clash rankLeft rankRight) (.inl a)) :
    ¬Survives (Beats clash rankLeft rankRight) (.inr b) := by
  intro right
  have lt := survives_left.mp left b clashes
  exact absurd lt (not_lt.mpr (survives_right.mp right a clashes))

end TwoSides

end ConflictGraphs
