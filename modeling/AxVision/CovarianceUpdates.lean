import Mathlib.LinearAlgebra.Matrix.PosDef

/-!
# Covariances of linear estimates

What a prediction and a correction do to the covariance of a linear estimate.
A correction whose gain solves the normal equation leaves the inverse of a sum
of information matrices, so it stays positive definite.
-/

namespace CovarianceUpdates

open Matrix

variable {m n K : Type*} [Fintype m] [DecidableEq m] [Fintype n] [DecidableEq n]
  [Field K] [PartialOrder K] [StarRing K] [StarOrderedRing K]
  {P Q A : Matrix n n K} {R : Matrix m m K} {H : Matrix m n K} {G : Matrix n m K}

theorem predicted_posDef (hP : P.PosDef) (hA : IsUnit A) (hQ : Q.PosSemidef) :
    (A * P * Aᴴ + Q).PosDef :=
  (hP.mul_mul_conjTranspose_same (vecMul_injective_of_isUnit hA)).add_posSemidef hQ

/-- The covariance of what is observed. -/
def innovation (H : Matrix m n K) (P : Matrix n n K) (R : Matrix m m K) : Matrix m m K :=
  H * P * Hᴴ + R

omit [DecidableEq m] [DecidableEq n] in
theorem innovation_posDef (hP : P.PosSemidef) (hR : R.PosDef) : (innovation H P R).PosDef :=
  hR.posSemidef_add (hP.mul_mul_conjTranspose_same H)

/-- The equation that the gain of a correction solves. -/
def Gains (H : Matrix m n K) (P : Matrix n n K) (R : Matrix m m K) (G : Matrix n m K) : Prop :=
  innovation H P R * Gᴴ = H * P

/-- The covariance after a correction. -/
def corrected (H : Matrix m n K) (P : Matrix n n K) (R : Matrix m m K) (G : Matrix n m K) :
    Matrix n n K :=
  P - G * innovation H P R * Gᴴ

omit [Fintype n] [DecidableEq n] [StarOrderedRing K] in
theorem solution_unique {S : Matrix m m K} (hS : S.PosDef) (B : Matrix m n K) :
    ∃! X : Matrix m n K, S * X = B := by
  have inverse := (isUnit_iff_isUnit_det S).mp hS.isUnit
  refine ⟨S⁻¹ * B, mul_nonsing_inv_cancel_left S B inverse, fun X hX => ?_⟩
  rw [← hX, nonsing_inv_mul_cancel_left S X inverse]

omit [DecidableEq n] in
/-- The gain, written out. -/
theorem Gains.eq (hP : P.PosDef) (hR : R.PosDef) (gains : Gains H P R G) :
    G = P * Hᴴ * (innovation H P R)⁻¹ := by
  have hS : (innovation H P R).PosDef := innovation_posDef hP.posSemidef hR
  have inverse := (isUnit_iff_isUnit_det _).mp hS.isUnit
  have solved : Gᴴ = (innovation H P R)⁻¹ * (H * P) := by
    rw [← gains, nonsing_inv_mul_cancel_left _ _ inverse]
  rw [← conjTranspose_conjTranspose G, solved, conjTranspose_mul, conjTranspose_mul,
    hP.isHermitian.eq, hS.inv.isHermitian.eq]

/-- The correction adds the information of the observation. -/
theorem corrected_eq (hP : P.PosDef) (hR : R.PosDef) (gains : Gains H P R G) :
    corrected H P R G = (P⁻¹ + Hᴴ * R⁻¹ * H)⁻¹ := by
  have hS : (innovation H P R).PosDef := innovation_posDef hP.posSemidef hR
  have twice : P⁻¹⁻¹ = P := nonsing_inv_nonsing_inv P ((isUnit_iff_isUnit_det P).mp hP.isUnit)
  have noise : R⁻¹⁻¹ = R := nonsing_inv_nonsing_inv R ((isUnit_iff_isUnit_det R).mp hR.isUnit)
  have sum : R⁻¹⁻¹ + H * P⁻¹⁻¹ * Hᴴ = innovation H P R := by
    rw [twice, noise, add_comm, innovation]
  rw [add_mul_mul_inv_eq_sub _ _ _ _ hP.inv.isUnit hR.inv.isUnit (by rw [sum]; exact hS.isUnit),
    sum, twice, corrected, Matrix.mul_assoc G, gains, Gains.eq hP hR gains]
  simp only [Matrix.mul_assoc]

theorem corrected_posDef (hP : P.PosDef) (hR : R.PosDef) (gains : Gains H P R G) :
    (corrected H P R G).PosDef := by
  rw [corrected_eq hP hR gains]
  exact (hP.inv.add_posSemidef (hR.inv.posSemidef.conjTranspose_mul_mul_same H)).inv

omit [DecidableEq m] [DecidableEq n] in
/-- A correction makes no variance larger. -/
theorem corrected_diag_le (hP : P.PosSemidef) (hR : R.PosDef) (i : n) :
    corrected H P R G i i ≤ P i i := by
  have taken : (G * innovation H P R * Gᴴ).PosSemidef :=
    (innovation_posDef hP hR).posSemidef.mul_mul_conjTranspose_same G
  rw [corrected, Matrix.sub_apply]
  exact sub_le_self _ taken.diag_nonneg

end CovarianceUpdates
