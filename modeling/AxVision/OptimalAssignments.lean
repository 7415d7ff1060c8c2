import Mathlib.Algebra.Order.BigOperators.Group.Finset
import Mathlib.Data.Fintype.Perm
import Mathlib.Data.List.MinMax

/-!
# Assignments of least cost

A square assignment problem: every row gets a column of its own, and the sum of
the chosen entries is to be least.
-/

namespace OptimalAssignments

universe u v

variable {ι : Type u} {M : Type v} [Fintype ι] [AddCommMonoid M] [LinearOrder M]

def totalCost (cost : ι → ι → M) (σ : Equiv.Perm ι) : M := ∑ i, cost i (σ i)

def Optimal (cost : ι → ι → M) (σ : Equiv.Perm ι) : Prop :=
  ∀ τ, totalCost cost σ ≤ totalCost cost τ

/-- Where some assignment is free, a least one uses free entries only. -/
theorem Optimal.entry_eq_zero [IsOrderedAddMonoid M] {cost : ι → ι → M} {σ τ : Equiv.Perm ι}
    (h : Optimal cost σ) (nonneg : ∀ i j, 0 ≤ cost i j) (free : ∀ i, cost i (τ i) = 0) (i : ι) :
    cost i (σ i) = 0 := by
  have least : totalCost cost σ ≤ 0 := by
    refine (h τ).trans (le_of_eq ?_)
    exact Finset.sum_eq_zero fun j _ => free j
  have zero : totalCost cost σ = 0 :=
    le_antisymm least (Finset.sum_nonneg fun j _ => nonneg j (σ j))
  exact (Finset.sum_eq_zero_iff_of_nonneg fun j _ => nonneg j (σ j)).mp zero i (Finset.mem_univ i)

/-- The first least assignment in a list of all of them. -/
def bestPerm {n : Nat} (cost : Fin n → Fin n → M) : Equiv.Perm (Fin n) :=
  ((permsOfList (List.finRange n)).argmin (totalCost cost)).getD 1

theorem bestPerm_optimal {n : Nat} (cost : Fin n → Fin n → M) : Optimal cost (bestPerm cost) := by
  have all : ∀ τ : Equiv.Perm (Fin n), τ ∈ permsOfList (List.finRange n) :=
    fun τ => mem_permsOfList_of_mem fun i _ => List.mem_finRange i
  intro τ
  rw [bestPerm]
  cases best : (permsOfList (List.finRange n)).argmin (totalCost cost) with
  | none =>
    rw [List.argmin_eq_none] at best
    exact absurd (best ▸ all τ) List.not_mem_nil
  | some σ => exact List.le_of_mem_argmin (all τ) best

end OptimalAssignments
