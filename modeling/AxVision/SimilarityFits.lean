import Mathlib.Analysis.SpecialFunctions.Complex.Arg
import Mathlib.Data.Matrix.Mul
import Mathlib.LinearAlgebra.Matrix.Determinant.Basic
import Mathlib.LinearAlgebra.Matrix.Trace
import Mathlib.Tactic.FieldSimp
import Mathlib.Tactic.LinearCombination
import Mathlib.Tactic.Linarith

/-!
# Similarities that fit points of the plane

A similarity without a mirror is two numbers and a shift. How badly it takes one
family of points to another is a square that is completed: the best one is read
off the sums of products about the means. A singular value decomposition of
these sums turns as the best one does.
-/

namespace SimilarityFits

open Matrix

universe u v

variable {ι : Type u} {K : Type v}

/-- `(x, y)` goes to `(a x - b y + tx, b x + a y + ty)`. -/
structure Similarity (K : Type v) where
  a : K
  b : K
  tx : K
  ty : K

section Sums

variable [Fintype ι] [Field K]

def average (x : ι → K) : K := (∑ i, x i) / Fintype.card ι

/-- The sum of the products of the distances from the means. -/
def moment (x y : ι → K) : K := ∑ i, (x i - average x) * (y i - average y)

theorem sum_off_average (x : ι → K) (many : (Fintype.card ι : K) ≠ 0) :
    ∑ i, (x i - average x) = 0 := by
  rw [Finset.sum_sub_distrib, Finset.sum_const, Finset.card_univ, nsmul_eq_mul, average,
    mul_div_cancel₀ _ many, sub_self]

/-- A constant beside the distances counts alone. -/
theorem sum_sq_shifted {x : ι → K} (zero : ∑ i, x i = 0) (c : K) :
    ∑ i, (x i + c) ^ 2 = ∑ i, x i ^ 2 + Fintype.card ι * c ^ 2 := by
  have each : ∀ i, (x i + c) ^ 2 = x i ^ 2 + (2 * c * x i + c ^ 2) := fun i => by ring
  simp only [each, Finset.sum_add_distrib, ← Finset.mul_sum, zero, mul_zero, zero_add,
    Finset.sum_const, Finset.card_univ, nsmul_eq_mul]

end Sums

section Residuals

variable [Fintype ι] [Field K] (x y u v : ι → K) (T : Similarity K)

/-- The squared distances of the images of `(x, y)` from `(u, v)`. -/
def residual : K :=
  ∑ i, ((T.a * x i - T.b * y i + T.tx - u i) ^ 2 + (T.b * x i + T.a * y i + T.ty - v i) ^ 2)

def spread : K := moment x x + moment y y

def along : K := moment x u + moment y v

def across : K := moment x v - moment y u

/-- How far the image of the mean is from the mean, squared. -/
def offset : K :=
  (T.a * average x - T.b * average y + T.tx - average u) ^ 2 +
    (T.b * average x + T.a * average y + T.ty - average v) ^ 2

theorem residual_eq (many : (Fintype.card ι : K) ≠ 0) :
    residual x y u v T =
      Fintype.card ι * offset x y u v T + (T.a ^ 2 + T.b ^ 2) * spread x y -
        2 * (T.a * along x y u v + T.b * across x y u v) + spread u v := by
  have zero_x := sum_off_average x many
  have zero_y := sum_off_average y many
  have zero_u := sum_off_average u many
  have zero_v := sum_off_average v many
  have first :
      ∑ i, (T.a * (x i - average x) - T.b * (y i - average y) - (u i - average u)) = 0 := by
    simp only [Finset.sum_sub_distrib, ← Finset.mul_sum] at zero_x zero_y zero_u ⊢
    rw [zero_x, zero_y, zero_u]
    ring
  have second :
      ∑ i, (T.b * (x i - average x) + T.a * (y i - average y) - (v i - average v)) = 0 := by
    simp only [Finset.sum_sub_distrib, Finset.sum_add_distrib, ← Finset.mul_sum]
      at zero_x zero_y zero_v ⊢
    rw [zero_x, zero_y, zero_v]
    ring
  have shifted_x := sum_sq_shifted first
    (T.a * average x - T.b * average y + T.tx - average u)
  have shifted_y := sum_sq_shifted second
    (T.b * average x + T.a * average y + T.ty - average v)
  have expand_x : ∑ i, (T.a * (x i - average x) - T.b * (y i - average y) - (u i - average u)) ^ 2 =
      T.a ^ 2 * moment x x + T.b ^ 2 * moment y y + moment u u - 2 * T.a * T.b * moment x y -
        2 * T.a * moment x u + 2 * T.b * moment y u := by
    simp only [moment, Finset.mul_sum, ← Finset.sum_add_distrib, ← Finset.sum_sub_distrib]
    exact Finset.sum_congr rfl fun i _ => by ring
  have expand_y : ∑ i, (T.b * (x i - average x) + T.a * (y i - average y) - (v i - average v)) ^ 2 =
      T.b ^ 2 * moment x x + T.a ^ 2 * moment y y + moment v v + 2 * T.a * T.b * moment x y -
        2 * T.b * moment x v - 2 * T.a * moment y v := by
    simp only [moment, Finset.mul_sum, ← Finset.sum_add_distrib, ← Finset.sum_sub_distrib]
    exact Finset.sum_congr rfl fun i _ => by ring
  have split : residual x y u v T =
      (∑ i, (T.a * (x i - average x) - T.b * (y i - average y) - (u i - average u) +
          (T.a * average x - T.b * average y + T.tx - average u)) ^ 2) +
        ∑ i, (T.b * (x i - average x) + T.a * (y i - average y) - (v i - average v) +
          (T.b * average x + T.a * average y + T.ty - average v)) ^ 2 := by
    rw [← Finset.sum_add_distrib]
    exact Finset.sum_congr rfl fun i _ => by ring
  rw [split, shifted_x, shifted_y, expand_x, expand_y, offset, spread, spread, along, across]
  ring

/-- The residual of the best similarity. -/
def least : K :=
  spread u v - (along x y u v ^ 2 + across x y u v ^ 2) / spread x y

/-- The square is completed. -/
theorem residual_complete (many : (Fintype.card ι : K) ≠ 0) (wide : spread x y ≠ 0) :
    residual x y u v T =
      least x y u v + Fintype.card ι * offset x y u v T +
        spread x y * ((T.a - along x y u v / spread x y) ^ 2 +
          (T.b - across x y u v / spread x y) ^ 2) := by
  rw [residual_eq x y u v T many, least]
  field_simp
  ring

/-- The mean goes to the mean. -/
def through (a b : K) : Similarity K where
  a := a
  b := b
  tx := average u - (a * average x - b * average y)
  ty := average v - (b * average x + a * average y)

theorem offset_through (a b : K) : offset x y u v (through x y u v a b) = 0 := by
  rw [offset, through]
  ring

def best : Similarity K :=
  through x y u v (along x y u v / spread x y) (across x y u v / spread x y)

theorem residual_best (many : (Fintype.card ι : K) ≠ 0) (wide : spread x y ≠ 0) :
    residual x y u v (best x y u v) = least x y u v := by
  rw [residual_complete x y u v _ many wide, best, offset_through]
  simp only [through]
  ring

theorem best_least [LinearOrder K] [IsStrictOrderedRing K] (many : (Fintype.card ι : K) ≠ 0)
    (wide : 0 < spread x y) : residual x y u v (best x y u v) ≤ residual x y u v T := by
  rw [residual_best x y u v many wide.ne', residual_complete x y u v T many wide.ne', add_assoc]
  refine le_add_of_nonneg_right (add_nonneg ?_ ?_)
  · exact mul_nonneg (Nat.cast_nonneg _) (add_nonneg (sq_nonneg _) (sq_nonneg _))
  · exact mul_nonneg wide.le (add_nonneg (sq_nonneg _) (sq_nonneg _))

end Residuals

section Turns

variable [Field K] {cov u vt r : Matrix (Fin 2) (Fin 2) K}

/-- Rows of length 1 at right angles. -/
def Orthogonal (m : Matrix (Fin 2) (Fin 2) K) : Prop := m * mᵀ = 1 ∧ mᵀ * m = 1

theorem Orthogonal.turn (rows : Orthogonal vt) (columns : Orthogonal u) :
    Orthogonal (vtᵀ * uᵀ) := by
  constructor
  · rw [transpose_mul, transpose_transpose, transpose_transpose, Matrix.mul_assoc,
      ← Matrix.mul_assoc uᵀ, columns.2, Matrix.one_mul, rows.2]
  · rw [transpose_mul, transpose_transpose, transpose_transpose, Matrix.mul_assoc,
      ← Matrix.mul_assoc vt, rows.1, Matrix.one_mul, columns.1]

theorem Orthogonal.det_sq {m : Matrix (Fin 2) (Fin 2) K} (h : Orthogonal m) : m.det ^ 2 = 1 := by
  have product := congrArg Matrix.det h.1
  rwa [det_mul, det_transpose, det_one, ← sq] at product

/-- An orthogonal matrix that does not mirror turns. -/
theorem Orthogonal.turns (h : Orthogonal r) (det : r.det = 1) :
    r 1 1 = r 0 0 ∧ r 1 0 = -r 0 1 ∧ r 0 0 ^ 2 + r 1 0 ^ 2 = 1 := by
  have first := congrFun (congrFun h.1 0) 0
  have between := congrFun (congrFun h.1 0) 1
  simp only [mul_apply, Fin.sum_univ_two, transpose_apply, one_apply_eq,
    one_apply_ne (show (0 : Fin 2) ≠ 1 by decide)] at first between
  rw [det_fin_two] at det
  have diagonal : r 1 1 = r 0 0 := by
    linear_combination (-r 1 1) * first + r 0 0 * det + r 0 1 * between
  have beside : r 1 0 = -r 0 1 := by
    linear_combination (-r 1 0) * first - r 0 1 * det + r 0 0 * between
  refine ⟨diagonal, beside, ?_⟩
  rw [beside]
  linear_combination first

/-- The turn of a decomposition is the direction of the sums along and across. -/
theorem turn_direction {w₀ w₁ : K} (columns : Orthogonal u) (rows : Orthogonal vt)
    (parts : cov = u * diagonal ![w₀, w₁] * vt) (det : (vtᵀ * uᵀ).det = 1) :
    cov 0 0 + cov 1 1 = (w₀ + w₁) * (vtᵀ * uᵀ) 0 0 ∧
      cov 0 1 - cov 1 0 = (w₀ + w₁) * (vtᵀ * uᵀ) 1 0 := by
  obtain ⟨same, beside, unit⟩ := (rows.turn columns).turns det
  have product : vtᵀ * uᵀ * cov = vtᵀ * diagonal ![w₀, w₁] * vt := by
    rw [parts, Matrix.mul_assoc, Matrix.mul_assoc, ← Matrix.mul_assoc uᵀ, columns.2,
      Matrix.one_mul, Matrix.mul_assoc]
  have trace : (vtᵀ * uᵀ * cov).trace = w₀ + w₁ := by
    rw [product, trace_mul_comm, ← Matrix.mul_assoc, rows.1, Matrix.one_mul, trace_diagonal,
      Fin.sum_univ_two]
    rfl
  have symmetric : (vtᵀ * uᵀ * cov)ᵀ = vtᵀ * uᵀ * cov := by
    rw [product, transpose_mul, transpose_mul, transpose_transpose, diagonal_transpose,
      Matrix.mul_assoc]
  have level := congrFun (congrFun symmetric 0) 1
  rw [transpose_apply] at level
  generalize vtᵀ * uᵀ = r at *
  rw [trace_fin_two] at trace
  simp only [mul_apply, Fin.sum_univ_two] at trace level
  rw [same, beside] at trace level
  rw [beside] at unit ⊢
  constructor
  · linear_combination r 0 0 * trace - r 0 1 * level - (cov 0 0 + cov 1 1) * unit
  · linear_combination -r 0 1 * trace - r 0 0 * level - (cov 0 1 - cov 1 0) * unit

end Turns

section Decompositions

theorem exists_polar (x y : ℝ) : ∃ r θ, 0 ≤ r ∧ x = r * Real.cos θ ∧ y = r * Real.sin θ :=
  ⟨‖(⟨x, y⟩ : ℂ)‖, (⟨x, y⟩ : ℂ).arg, norm_nonneg _, (Complex.norm_mul_cos_arg ⟨x, y⟩).symm,
    (Complex.norm_mul_sin_arg ⟨x, y⟩).symm⟩

noncomputable def turnBy (θ : ℝ) : Matrix (Fin 2) (Fin 2) ℝ :=
  !![Real.cos θ, -Real.sin θ; Real.sin θ, Real.cos θ]

theorem turnBy_orthogonal (θ : ℝ) : Orthogonal (turnBy θ) := by
  have unit := Real.sin_sq_add_cos_sq θ
  constructor <;> ext i j <;> fin_cases i <;> fin_cases j <;>
    simp [turnBy, mul_apply, Fin.sum_univ_two] <;> linarith

/-- A matrix is a turn and a mirror together; each half of the angles is a side of the
decomposition. -/
theorem exists_parts (m : Matrix (Fin 2) (Fin 2) ℝ) :
    ∃ u vt : Matrix (Fin 2) (Fin 2) ℝ, ∃ w₀ w₁ : ℝ, Orthogonal u ∧ Orthogonal vt ∧
      m = u * diagonal ![w₀, w₁] * vt ∧ w₁ ≤ w₀ ∧ 0 ≤ w₁ := by
  obtain ⟨q, θ, hq, turn_x, turn_y⟩ := exists_polar ((m 0 0 + m 1 1) / 2) ((m 1 0 - m 0 1) / 2)
  obtain ⟨r, φ, hr, flip_x, flip_y⟩ := exists_polar ((m 0 0 - m 1 1) / 2) ((m 1 0 + m 0 1) / 2)
  have angles : (φ + θ) / 2 - (φ - θ) / 2 = θ ∧ (φ + θ) / 2 + (φ - θ) / 2 = φ := by
    constructor <;> ring
  rw [← angles.1, Real.cos_sub] at turn_x
  rw [← angles.1, Real.sin_sub] at turn_y
  rw [← angles.2, Real.cos_add] at flip_x
  rw [← angles.2, Real.sin_add] at flip_y
  obtain ⟨sign, square, size⟩ : ∃ e : ℝ, e * e = 1 ∧ e * |q - r| = q - r := by
    rcases abs_cases (q - r) with ⟨same, -⟩ | ⟨opposite, -⟩
    · exact ⟨1, one_mul 1, by rw [same, one_mul]⟩
    · exact ⟨-1, by norm_num, by rw [opposite]; ring⟩
  have signed : Orthogonal (diagonal ![1, sign] * (turnBy ((φ - θ) / 2))ᵀ) := by
    have rows := turnBy_orthogonal ((φ - θ) / 2)
    constructor
    · rw [transpose_mul, transpose_transpose, diagonal_transpose, Matrix.mul_assoc,
        ← Matrix.mul_assoc _ (turnBy _), rows.2, Matrix.one_mul, diagonal_mul_diagonal]
      ext i j
      fin_cases i <;> fin_cases j <;> simp [square]
    · rw [transpose_mul, transpose_transpose, diagonal_transpose, Matrix.mul_assoc,
        ← Matrix.mul_assoc (diagonal _), diagonal_mul_diagonal]
      have whole : diagonal (fun i => (![1, sign] : Fin 2 → ℝ) i * ![1, sign] i) = 1 := by
        ext i j
        fin_cases i <;> fin_cases j <;> simp [square]
      rw [whole, Matrix.one_mul, rows.1]
  refine ⟨turnBy ((φ + θ) / 2), diagonal ![1, sign] * (turnBy ((φ - θ) / 2))ᵀ, q + r, |q - r|,
    turnBy_orthogonal _, signed, ?_, ?_, abs_nonneg _⟩
  · rw [← Matrix.mul_assoc, Matrix.mul_assoc (turnBy _), diagonal_mul_diagonal]
    have second : |q - r| * sign = q - r := (mul_comm _ _).trans size
    ext i j
    fin_cases i <;> fin_cases j <;>
      simp [turnBy, mul_apply, Fin.sum_univ_two, vecMul_diagonal, second]
    · linear_combination turn_x + flip_x
    · linear_combination flip_y - turn_y
    · linear_combination flip_y + turn_y
    · linear_combination turn_x - flip_x
  · rw [abs_le]
    constructor <;> linarith

end Decompositions

end SimilarityFits
