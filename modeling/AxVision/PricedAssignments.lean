import AxVision.OptimalAssignments
import Mathlib.Algebra.BigOperators.Ring.Finset
import Mathlib.Tactic.Linarith

/-!
# Assignments with prices

Every column has a price. While each row that holds a column holds a cheapest
one after prices, a complete assignment is least; labels of a shortest path
search say how to lower the prices so that one more row can be seated.
-/

namespace PricedAssignments

open OptimalAssignments

universe u v

section Seats

variable {ι : Type u}

/-- `seat` names the column of every row that `owner` gives a column to. -/
def Seated (seat owner : ι → Option ι) : Prop := ∀ j i, owner j = some i → seat i = some j

def Held (owner : ι → Option ι) (i : ι) : Prop := ∃ j, owner j = some i

variable {seat owner : ι → Option ι} {i j k r : ι}

theorem Seated.column_eq (h : Seated seat owner) (hj : owner j = some i) (hk : owner k = some i) :
    j = k :=
  Option.some.inj ((h j i hj).symm.trans (h k i hk))

theorem held_iff_ne [DecidableEq ι] (h : Seated seat owner) (j : ι) :
    (∃ k, k ≠ j ∧ owner k = some r) ↔ Held owner r ∧ owner j ≠ some r := by
  constructor
  · rintro ⟨k, other, hk⟩
    exact ⟨⟨k, hk⟩, fun hj => other (h.column_eq hk hj)⟩
  · rintro ⟨⟨k, hk⟩, notHere⟩
    refine ⟨k, ?_, hk⟩
    rintro rfl
    exact notHere hk

section Moves

variable [DecidableEq ι]

/-- A row without a column takes one, whoever held it. -/
theorem Seated.give (h : Seated seat owner) (free : ¬Held owner i) (j : ι) :
    Seated (Function.update seat i (some j)) (Function.update owner j (some i)) := by
  intro k r hk
  by_cases here : k = j
  · subst here
    rw [Function.update_self] at hk
    cases hk
    rw [Function.update_self]
  · rw [Function.update_of_ne here] at hk
    have other : r ≠ i := by
      rintro rfl
      exact free ⟨k, hk⟩
    rw [Function.update_of_ne other]
    exact h k r hk

theorem held_give (h : Seated seat owner) (i j : ι) :
    Held (Function.update owner j (some i)) r ↔ r = i ∨ Held owner r ∧ owner j ≠ some r := by
  rw [← held_iff_ne h j]
  constructor
  · rintro ⟨k, hk⟩
    by_cases here : k = j
    · subst here
      rw [Function.update_self] at hk
      exact Or.inl (Option.some.inj hk).symm
    · rw [Function.update_of_ne here] at hk
      exact Or.inr ⟨k, here, hk⟩
  · rintro (rfl | ⟨k, other, hk⟩)
    · exact ⟨j, Function.update_self ..⟩
    · exact ⟨k, (Function.update_of_ne other _ _).trans hk⟩

end Moves

variable [Finite ι]

/-- A row without a column leaves a column without a row. -/
theorem Seated.exists_free (h : Seated seat owner) (free : ¬Held owner i) :
    ∃ j, owner j = none := by
  by_contra all
  have owned : ∀ j, ∃ r, owner j = some r := by
    intro j
    exact Option.ne_none_iff_exists'.mp fun none => all ⟨j, none⟩
  choose row hrow using owned
  have injective : Function.Injective row := by
    intro j k same
    exact h.column_eq (hrow j) (same ▸ hrow k)
  obtain ⟨j, rfl⟩ := Finite.surjective_of_injective injective i
  exact free ⟨j, hrow j⟩

/-- With all rows seated, the seats are a permutation and the owners its inverse. -/
theorem Seated.exists_perm (h : Seated seat owner) (all : ∀ i, Held owner i) :
    ∃ σ : Equiv.Perm ι, (∀ i, seat i = some (σ i)) ∧ ∀ j, owner j = some (σ⁻¹ j) := by
  choose column hcolumn using all
  have injective : Function.Injective column := by
    intro i r same
    have both := hcolumn i
    rw [same, hcolumn r] at both
    exact (Option.some.inj both).symm
  have bijective : Function.Bijective column :=
    ⟨injective, Finite.surjective_of_injective injective⟩
  refine ⟨Equiv.ofBijective column bijective, fun i => h _ _ (hcolumn i), ?_⟩
  intro j
  obtain ⟨i, rfl⟩ := bijective.2 j
  rw [hcolumn i]
  exact congrArg some (Equiv.ofBijective_symm_apply_apply column bijective i).symm

end Seats

variable {ι : Type u} {M : Type v} [CommRing M] [LinearOrder M] [IsStrictOrderedRing M]

/-- What a column costs a row after its price. -/
def reduced (cost : ι → ι → M) (price : ι → M) (i j : ι) : M := cost i j - price j

/-- Every row that holds a column holds one that is cheapest after prices. -/
def Priced (cost : ι → ι → M) (price : ι → M) (owner : ι → Option ι) : Prop :=
  ∀ j i, owner j = some i → ∀ k, reduced cost price i j ≤ reduced cost price i k

section Least

variable [Fintype ι] {cost : ι → ι → M} {price : ι → M} {σ : Equiv.Perm ι}

omit [LinearOrder M] [IsStrictOrderedRing M] in
theorem sum_reduced (cost : ι → ι → M) (price : ι → M) (σ : Equiv.Perm ι) :
    ∑ i, reduced cost price i (σ i) = totalCost cost σ - ∑ j, price j := by
  rw [totalCost, ← Equiv.sum_comp σ price, ← Finset.sum_sub_distrib]
  rfl

/-- A complete assignment with prices is least. -/
theorem Priced.optimal (h : Priced cost price fun j => some (σ⁻¹ j)) : Optimal cost σ := by
  intro τ
  have each : ∀ i ∈ Finset.univ, reduced cost price i (σ i) ≤ reduced cost price i (τ i) :=
    fun i _ => h (σ i) i (by simp) (τ i)
  have sum := Finset.sum_le_sum each
  rw [sum_reduced, sum_reduced] at sum
  linarith only [sum]

end Least

section Lowered

variable [DecidableEq ι] {cost : ι → ι → M} {price : ι → M} {owner : ι → Option ι}

/-- A row takes a column whose price falls until the row pays what it would pay
elsewhere. -/
theorem Priced.give (h : Priced cost price owner) {i j : ι} {new : M} (lower : new ≤ price j)
    (cheapest : ∀ k, cost i j - new ≤ reduced cost (Function.update price j new) i k) :
    Priced cost (Function.update price j new) (Function.update owner j (some i)) := by
  have falls : ∀ k, Function.update price j new k ≤ price k := by
    intro k
    by_cases here : k = j
    · subst here
      rwa [Function.update_self]
    · rw [Function.update_of_ne here]
  intro l r hl k
  by_cases here : l = j
  · subst here
    rw [Function.update_self] at hl
    cases hl
    have same : reduced cost (Function.update price l new) i l = cost i l - new := by
      rw [reduced, Function.update_self]
    rw [same]
    exact cheapest k
  · rw [Function.update_of_ne here] at hl
    have kept : reduced cost (Function.update price j new) r l = reduced cost price r l := by
      rw [reduced, reduced, Function.update_of_ne here]
    rw [kept]
    exact (h l r hl k).trans (sub_le_sub_left (falls k) _)

end Lowered

section Search

variable {cost : ι → ι → M} {price label : ι → M} {owner : ι → Option ι} {start : ι}
variable {done : ι → Prop} {level : M}

/-- The labels of a search from a row up to a level. A column is done when its
owner has passed the label on. -/
structure Labelled (cost : ι → ι → M) (price : ι → M) (owner : ι → Option ι) (start : ι)
    (done : ι → Prop) (label : ι → M) (level : M) : Prop where
  start_le : ∀ k, min (label k) level ≤ reduced cost price start k
  done_le : ∀ j, done j → ∀ r, owner j = some r → ∀ k,
    min (label k) level ≤ label j - reduced cost price r j + reduced cost price r k
  done_level : ∀ j, done j → label j ≤ level
  rest_level : ∀ j, ¬done j → level ≤ label j

/-- The label of a column is the one it gets over a row of the search. -/
def Via (cost : ι → ι → M) (price : ι → M) (owner : ι → Option ι) (start : ι) (done : ι → Prop)
    (label : ι → M) (j r : ι) : Prop :=
  r = start ∧ label j = reduced cost price start j ∨
    ∃ k, done k ∧ owner k = some r ∧
      label j = label k - reduced cost price r k + reduced cost price r j

/-- Columns nearer than the level lose the difference. -/
def lowered (price label : ι → M) (level : M) (j : ι) : M := price j + (min (label j) level - level)

theorem lowered_le (price label : ι → M) (level : M) (j : ι) :
    lowered price label level j ≤ price j := by
  have := min_le_right (label j) level
  rw [lowered]
  linarith

/-- After the prices are lowered every row may keep its column or move to one
that has its label over that row. -/
theorem Labelled.priced (h : Labelled cost price owner start done label level)
    (priced : Priced cost price owner) {owner' : ι → Option ι}
    (moved : ∀ j r, owner' j = some r → owner j = some r ∨
      label j ≤ level ∧ Via cost price owner start done label j r) :
    Priced cost (lowered price label level) owner' := by
  intro j r hj k
  rcases moved j r hj with kept | ⟨near, ⟨rfl, reached⟩ | ⟨l, hl, held, reached⟩⟩
  · by_cases inside : done j
    · have here := h.done_le j inside r kept k
      have near := min_eq_left (h.done_level j inside)
      simp only [reduced, lowered, near] at here ⊢
      linarith only [here]
    · have here := priced j r kept k
      have far := min_eq_right (h.rest_level j inside)
      have falls := lowered_le price label level k
      simp only [reduced] at here ⊢
      rw [lowered, far]
      linarith only [here, falls]
  · have here := h.start_le k
    rw [reduced, lowered, min_eq_left near, reached]
    simp only [reduced, lowered] at here ⊢
    linarith only [here]
  · have here := h.done_le l hl r held k
    rw [reduced, lowered, min_eq_left near, reached]
    simp only [reduced, lowered] at here ⊢
    linarith only [here]

end Search

end PricedAssignments
