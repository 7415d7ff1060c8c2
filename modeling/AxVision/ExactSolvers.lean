import AxVision.OptimalAssignments
import AxVision.ProperAssignments
import Mathlib.LinearAlgebra.Matrix.Adjugate

/-!
# Exact solvers

The two outside solvers over the rationals: what it means that the assignment
solver is optimal, and one pair of solvers that is.
-/

namespace ExactSolvers

open DetectionTypes KalmanFilter TrackAssociation ProperAssignments OptimalAssignments

/-- A permutation as the solver reports it. -/
def solution {n : Nat} (σ : Equiv.Perm (Fin n)) : List Int := List.ofFn fun i => ((σ i : Nat) : Int)

def costAt {n : Nat} (cost : List (List ℚ)) (i j : Fin n) : ℚ := entry cost i j 0

/-- The solver returns an assignment of least cost. -/
def OptimalSolver (backend : Backend ℚ) : Prop :=
  ∀ n cost, ∃ σ : Equiv.Perm (Fin n),
    backend.lapjvInternal n cost = some (solution σ, solution σ⁻¹) ∧ Optimal (costAt cost) σ

theorem entry_extendedCost (cost : List (List ℚ)) {n m i j : Nat} (limit : ℚ) (hi : i < n + m)
    (hj : j < n + m) :
    entry (extendedCost cost n m limit) i j 0 =
      if i < n ∧ j < m then entry cost i j (fillCost cost limit)
      else if n ≤ i ∧ m ≤ j then 0
      else fillCost cost limit := by
  rw [entry, extendedCost]
  simp [hi, hj]

theorem getElem?_solution {n : Nat} {σ : Equiv.Perm (Fin n)} {i : Nat} {v : Int} :
    (solution σ)[i]? = some v ↔ ∃ h : i < n, v = (σ ⟨i, h⟩ : Nat) := by
  rw [solution, List.getElem?_ofFn]
  by_cases h : i < n
  · simp [h, eq_comm]
  · simp [h]

theorem solution_inverse {n : Nat} (σ : Equiv.Perm (Fin n)) :
    InversePair n (solution σ) (solution σ⁻¹) := by
  have inverse : ∀ (σ : Equiv.Perm (Fin n)) (i : Nat) (v : Int), (solution σ)[i]? = some v →
      ∃ j : Nat, v = j ∧ j < n ∧ (solution σ⁻¹)[j]? = some (i : Int) := by
    intro σ i v h
    obtain ⟨hi, rfl⟩ := getElem?_solution.mp h
    exact ⟨σ ⟨i, hi⟩, rfl, (σ ⟨i, hi⟩).isLt, getElem?_solution.mpr ⟨(σ ⟨i, hi⟩).isLt, by simp⟩⟩
  refine ⟨by simp [solution], by simp [solution], inverse σ, ?_⟩
  simpa using inverse σ⁻¹

theorem OptimalSolver.valid {backend : Backend ℚ} (h : OptimalSolver backend) : Valid backend := by
  intro n cost x y returned
  obtain ⟨σ, solved, -⟩ := h n cost
  rw [returned] at solved
  cases solved
  exact solution_inverse σ

/-- Least assignments by search, linear systems by Cramer's rule. -/
def exactBackend : Backend ℚ where
  lapjvInternal n cost :=
    let σ := bestPerm (n := n) (costAt cost)
    some (solution σ, solution σ⁻¹)
  lltSolve s b := fun i j =>
    (Matrix.of s).adjugate.mulVec (fun k => b k j) i / (Matrix.of s).det

theorem exactBackend_optimal : OptimalSolver exactBackend :=
  fun _ cost => ⟨bestPerm (costAt cost), rfl, bestPerm_optimal _⟩

end ExactSolvers
