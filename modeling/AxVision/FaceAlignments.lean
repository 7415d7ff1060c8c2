import AxVision.KalmanCovariances
import AxVision.SimilarityFits

/-!
# The similarity that aligns a face

`estimateSimilarity` takes landmarks to a template by their covariance and its
singular value decomposition, which is that of OpenCV. In exact arithmetic it is
compared with all similarities.
-/

namespace FaceAlignments

open DetectionTypes KalmanFilter SimilarityFits
open scoped RealArithmetic

universe u

-- The literals of the axes and of the landmarks.
scoped instance axisBound : NeZero 2 := ⟨by decide⟩
scoped instance landmarkBound : NeZero 5 := ⟨by decide⟩

/-- The results of `cv::SVDecomp` for a 2x2 matrix. -/
structure SVDecomp (F : Type u) where
  w : Vec F 2
  u : Mat F 2 2
  vt : Mat F 2 2

/-- A 2x3 matrix: `(x, y)` goes to `(a x + b y + tx, c x + d y + ty)`. -/
structure Affine (F : Type u) where
  a : F
  b : F
  tx : F
  c : F
  d : F
  ty : F

section Estimates

variable {F : Type u} [Scalar F] {n : Nat}

/-- Where `cv::warpAffine` takes a point of the image to. -/
def Affine.apply (M : Affine F) (p : Point2f F) : Point2f F :=
  ⟨M.a * p.x + M.b * p.y + M.tx, M.c * p.x + M.d * p.y + M.ty⟩

def total (f : Fin n → F) : F :=
  (List.finRange n).foldl (fun acc i => acc + f i) (Scalar.ofRat 0)

def meanOf (f : Fin n → F) : F := total f / ofInt n

def pointX (points : Fin n → Point2f F) : Fin n → F := fun i => (points i).x

def pointY (points : Fin n → Point2f F) : Fin n → F := fun i => (points i).y

/-- `cov00` and the others: the mean product of the distances from the means. -/
def covOf (f g : Fin n → F) : F :=
  total (fun i => (f i - meanOf f) * (g i - meanOf g)) / ofInt n

def varOf (points : Fin n → Point2f F) : F :=
  let x := pointX points
  let y := pointY points
  total (fun i => (x i - meanOf x) * (x i - meanOf x) + (y i - meanOf y) * (y i - meanOf y)) /
    ofInt n

def cov (src dst : Fin n → Point2f F) : Mat F 2 2
  | 0, 0 => covOf (pointX src) (pointX dst)
  | 0, 1 => covOf (pointX src) (pointY dst)
  | 1, 0 => covOf (pointY src) (pointX dst)
  | 1, 1 => covOf (pointY src) (pointY dst)

/-- `cv::determinant` -/
def determinant (m : Mat F 2 2) : F := m 0 0 * m 1 1 - m 0 1 * m 1 0

/-- The second row of `vt` times -1. -/
def mirrored (vt : Mat F 2 2) : Mat F 2 2
  | 0, j => vt 0 j
  | 1, j => vt 1 j * Scalar.ofRat (-1)

/-- `r`: the product of the transposes, but never a mirror. -/
def rotation (s : SVDecomp F) : Mat F 2 2 :=
  let r := matMul (transpose s.vt) (transpose s.u)
  if Scalar.lt (determinant r) (Scalar.ofRat 0) then
    matMul (transpose (mirrored s.vt)) (transpose s.u)
  else r

def scaleOf (s : SVDecomp F) (var : F) : F :=
  if Scalar.lt (Scalar.ofRat (1 / 1000000000000)) var then (s.w 0 + s.w 1) / var
  else Scalar.ofRat 1

def estimateSimilarity (svDecomp : Mat F 2 2 → SVDecomp F) (src dst : Option (Fin n → Point2f F)) :
    Option (Affine F) :=
  match src, dst with
  | some src, some dst =>
    if n < 2 then none
    else
      let s := svDecomp (cov src dst)
      let r := rotation s
      let scale := scaleOf s (varOf src)
      let a := scale * r 0 0
      let b := scale * r 0 1
      let c := scale * r 1 0
      let d := scale * r 1 1
      let tx := meanOf (pointX dst) - (a * meanOf (pointX src) + b * meanOf (pointY src))
      let ty := meanOf (pointY dst) - (c * meanOf (pointX src) + d * meanOf (pointY src))
      some ⟨a, b, tx, c, d, ty⟩
  | _, _ => none

/-- `kArcfaceDst112` -/
def kArcfaceDst112 : Fin 5 → Point2f F
  | 0 => ⟨Scalar.ofRat (382946 / 10000), Scalar.ofRat (516963 / 10000)⟩
  | 1 => ⟨Scalar.ofRat (735318 / 10000), Scalar.ofRat (515014 / 10000)⟩
  | 2 => ⟨Scalar.ofRat (560252 / 10000), Scalar.ofRat (717366 / 10000)⟩
  | 3 => ⟨Scalar.ofRat (415493 / 10000), Scalar.ofRat (923655 / 10000)⟩
  | 4 => ⟨Scalar.ofRat (707299 / 10000), Scalar.ofRat (922041 / 10000)⟩

/-- The template for an image of this size. -/
def template (imageSize : Int) : Fin 5 → Point2f F := fun i =>
  let ratio := ofInt imageSize / Scalar.ofRat 112
  ⟨(kArcfaceDst112 i).x * ratio, (kArcfaceDst112 i).y * ratio⟩

def estimateNorm (svDecomp : Mat F 2 2 → SVDecomp F) (landmark : Option (Fin 5 → Point2f F))
    (imageSize : Int) : Option (Affine F) :=
  match landmark with
  | none => none
  | some points =>
    if imageSize ≤ 0 then none
    else estimateSimilarity svDecomp (some points) (some (template imageSize))

end Estimates

section Sums

variable {n : Nat}

theorem total_eq (f : Fin n → ℝ) : total f = ∑ i, f i := by
  rw [total, foldl_sum, Fin.sum_univ_def, RealArithmetic.ofRat_real, Rat.cast_zero, zero_add]

theorem meanOf_eq (f : Fin n → ℝ) : meanOf f = average f := by
  rw [meanOf, total_eq, average, Fintype.card_fin]
  rfl

theorem covOf_eq (f g : Fin n → ℝ) : covOf f g = moment f g / n := by
  rw [covOf, total_eq, moment, meanOf_eq, meanOf_eq]
  rfl

theorem varOf_eq (points : Fin n → Point2f ℝ) :
    varOf points = spread (pointX points) (pointY points) / n := by
  rw [varOf, total_eq, spread, moment, moment, meanOf_eq, meanOf_eq, ← Finset.sum_add_distrib]
  rfl

end Sums

section Turns

open Matrix

/-- What OpenCV documents of `SVDecomp`: the product of the three is the matrix, and the
singular values are in descending order. -/
structure Decomposes (m : Mat ℝ 2 2) (s : SVDecomp ℝ) : Prop where
  columns : Orthogonal (of s.u)
  rows : Orthogonal (of s.vt)
  parts : of m = of s.u * diagonal s.w * of s.vt
  ordered : s.w 1 ≤ s.w 0
  nonneg : 0 ≤ s.w 1

variable {m : Mat ℝ 2 2} {s : SVDecomp ℝ}

theorem determinant_eq (m : Mat ℝ 2 2) : determinant m = (of m).det := by
  rw [det_fin_two]
  rfl

theorem of_turn (vt u : Mat ℝ 2 2) :
    of (matMul (KalmanFilter.transpose vt) (KalmanFilter.transpose u)) =
      Matrix.transpose (of vt) * Matrix.transpose (of u) :=
  KalmanCovariances.of_matMul _ _

/-- The second value gets the sign of the mirror. -/
theorem mirrored_eq (vt : Mat ℝ 2 2) : of (mirrored vt) = diagonal ![1, -1] * of vt := by
  ext i j
  fin_cases i <;> simp [mirrored, RealArithmetic.ofRat_real, diagonal_mul]

theorem flip_orthogonal : Orthogonal (diagonal ![(1 : ℝ), -1]) := by
  constructor <;> rw [diagonal_transpose, diagonal_mul_diagonal] <;> ext i j <;>
    fin_cases i <;> fin_cases j <;> simp

theorem Orthogonal.product {a b : Matrix (Fin 2) (Fin 2) ℝ} (ha : Orthogonal a)
    (hb : Orthogonal b) : Orthogonal (a * b) := by
  constructor
  · rw [transpose_mul, Matrix.mul_assoc, ← Matrix.mul_assoc b, hb.1, Matrix.one_mul, ha.1]
  · rw [transpose_mul, Matrix.mul_assoc, ← Matrix.mul_assoc (Matrix.transpose a), ha.2,
      Matrix.one_mul, hb.2]

/-- A mirror of the decomposition is a decomposition with the second value negative. -/
theorem mirrored_parts (h : Decomposes m s) :
    of m = of s.u * diagonal ![s.w 0, -s.w 1] * of (mirrored s.vt) := by
  have signs : diagonal s.w = diagonal ![s.w 0, -s.w 1] * diagonal ![1, -1] := by
    rw [diagonal_mul_diagonal]
    congr 1
    ext i
    fin_cases i <;> simp
  rw [h.parts, signs, mirrored_eq]
  simp only [Matrix.mul_assoc]

theorem turn_det (h : Decomposes m s) :
    determinant m = determinant (matMul (KalmanFilter.transpose s.vt)
      (KalmanFilter.transpose s.u)) * (s.w 0 * s.w 1) := by
  rw [determinant_eq, determinant_eq, of_turn, h.parts, det_mul, det_mul, det_mul, det_transpose,
    det_transpose, det_diagonal, Fin.prod_univ_two]
  ring

theorem det_turn_sq (h : Decomposes m s) :
    determinant (matMul (KalmanFilter.transpose s.vt) (KalmanFilter.transpose s.u)) ^ 2 = 1 := by
  rw [determinant_eq, of_turn]
  exact (h.rows.turn h.columns).det_sq

/-- The rotation has the direction of the sums along and across. The first is as long as
the values together; where the matrix mirrors, as they are apart. -/
theorem rotation_direction (h : Decomposes m s) :
    ∃ w, (w = s.w 1 ∧ 0 ≤ determinant m ∨ w = -s.w 1 ∧ (determinant m < 0 ∨ s.w 1 = 0)) ∧
      rotation s 1 1 = rotation s 0 0 ∧ rotation s 1 0 = -rotation s 0 1 ∧
      rotation s 0 0 ^ 2 + rotation s 1 0 ^ 2 = 1 ∧
      m 0 0 + m 1 1 = (s.w 0 + w) * rotation s 0 0 ∧
      m 0 1 - m 1 0 = (s.w 0 + w) * rotation s 1 0 := by
  have unit := det_turn_sq h
  have product := turn_det h
  have sides : 0 ≤ s.w 0 * s.w 1 := mul_nonneg (h.nonneg.trans h.ordered) h.nonneg
  have whole : diagonal s.w = diagonal ![s.w 0, s.w 1] := by
    congr 1
    ext i
    fin_cases i <;> rfl
  by_cases mirrors :
      determinant (matMul (KalmanFilter.transpose s.vt) (KalmanFilter.transpose s.u)) < 0
  · have det : determinant
        (matMul (KalmanFilter.transpose s.vt) (KalmanFilter.transpose s.u)) = -1 := by
      nlinarith
    have turned : of (rotation s) =
        Matrix.transpose (of (mirrored s.vt)) * Matrix.transpose (of s.u) := by
      rw [← of_turn]
      exact congrArg of (if_pos (by simpa [Scalar.lt, RealArithmetic.ofRat_real] using mirrors))
    have rows : Orthogonal (of (mirrored s.vt)) := by
      rw [mirrored_eq]
      exact Orthogonal.product flip_orthogonal h.rows
    have proper : (Matrix.transpose (of (mirrored s.vt)) * Matrix.transpose (of s.u)).det = 1 := by
      rw [determinant_eq, of_turn, det_mul, det_transpose, det_transpose] at det
      rw [det_mul, det_transpose, det_transpose, mirrored_eq, det_mul, det_diagonal,
        Fin.prod_univ_two]
      simp only [Matrix.cons_val_zero, Matrix.cons_val_one]
      linarith
    obtain ⟨along, across⟩ := turn_direction h.columns rows (mirrored_parts h) proper
    obtain ⟨same, beside, length⟩ := (rows.turn h.columns).turns proper
    rw [← turned] at along across same beside length
    refine ⟨-s.w 1, Or.inr ⟨rfl, ?_⟩, same, beside, length, along, across⟩
    rcases sides.lt_or_eq with positive | zero
    · rw [product, det]
      exact Or.inl (by linarith)
    · refine Or.inr (pow_eq_zero_iff two_ne_zero |>.mp (le_antisymm ?_ (sq_nonneg _)))
      nlinarith [h.nonneg, h.ordered]
  · have det : determinant
        (matMul (KalmanFilter.transpose s.vt) (KalmanFilter.transpose s.u)) = 1 := by
      nlinarith
    have turned : of (rotation s) = Matrix.transpose (of s.vt) * Matrix.transpose (of s.u) := by
      rw [← of_turn]
      exact congrArg of (if_neg (by simpa [Scalar.lt, RealArithmetic.ofRat_real] using mirrors))
    have proper : (Matrix.transpose (of s.vt) * Matrix.transpose (of s.u)).det = 1 := by
      rw [← of_turn, ← determinant_eq, det]
    obtain ⟨along, across⟩ := turn_direction h.columns h.rows (whole ▸ h.parts) proper
    obtain ⟨same, beside, length⟩ := (h.rows.turn h.columns).turns proper
    rw [← turned] at along across same beside length
    refine ⟨s.w 1, Or.inl ⟨rfl, ?_⟩, same, beside, length, along, across⟩
    rw [product, det, one_mul]
    exact sides

end Turns

section Fits

variable {n : Nat} {src dst : Fin n → Point2f ℝ}

/-- A similarity as the code writes it. -/
def Affine.Similar (M : Affine ℝ) : Prop := M.d = M.a ∧ M.c = -M.b

/-- The squared distances of the images of the first points from the second. -/
noncomputable def misfit (M : Affine ℝ) (src dst : Fin n → Point2f ℝ) : ℝ :=
  ∑ i, (((M.apply (src i)).x - (dst i).x) ^ 2 + ((M.apply (src i)).y - (dst i).y) ^ 2)

def ofSimilarity (T : Similarity ℝ) : Affine ℝ := ⟨T.a, -T.b, T.tx, T.b, T.a, T.ty⟩

theorem misfit_ofSimilarity (T : Similarity ℝ) :
    misfit (ofSimilarity T) src dst =
      residual (pointX src) (pointY src) (pointX dst) (pointY dst) T := by
  refine Finset.sum_congr rfl fun i _ => ?_
  simp only [Affine.apply, ofSimilarity, pointX, pointY]
  ring

theorem Affine.Similar.eq {M : Affine ℝ} (h : M.Similar) :
    M = ofSimilarity ⟨M.a, M.c, M.tx, M.ty⟩ := by
  obtain ⟨a, b, tx, c, d, ty⟩ := M
  obtain ⟨same, beside⟩ := h
  simp only at same beside
  simp [ofSimilarity, same, beside]

/-- What the similarity misses the best one by: nothing, unless the points are mirrored. -/
noncomputable def excess (s : SVDecomp ℝ) (src dst : Fin n → Point2f ℝ) : ℝ :=
  if determinant (cov src dst) < 0 then n * (s.w 1 + s.w 1) ^ 2 / varOf src else 0

/-- `estimateSimilarity` is a similarity with the mean of the first points over that of the
second, and no mirror. -/
theorem estimateSimilarity_eq {svDecomp : Mat ℝ 2 2 → SVDecomp ℝ} (many : 2 ≤ n)
    (wide : 1 / 1000000000000 < varOf src)
    (same : rotation (svDecomp (cov src dst)) 1 1 = rotation (svDecomp (cov src dst)) 0 0)
    (beside : rotation (svDecomp (cov src dst)) 1 0 = -rotation (svDecomp (cov src dst)) 0 1) :
    estimateSimilarity svDecomp (some src) (some dst) =
      let s := svDecomp (cov src dst)
      let scale := (s.w 0 + s.w 1) / varOf src
      some (ofSimilarity (through (pointX src) (pointY src) (pointX dst) (pointY dst)
        (scale * rotation s 0 0) (scale * rotation s 1 0))) := by
  have scale : scaleOf (svDecomp (cov src dst)) (varOf src) =
      ((svDecomp (cov src dst)).w 0 + (svDecomp (cov src dst)).w 1) / varOf src := by
    refine if_pos ?_
    simpa [Scalar.lt, RealArithmetic.ofRat_real] using wide
  simp only [estimateSimilarity, if_neg (show ¬n < 2 by omega), scale, same, meanOf_eq,
    ofSimilarity, through]
  rw [show rotation (svDecomp (cov src dst)) 0 1 = -rotation (svDecomp (cov src dst)) 1 0 by
    rw [beside, neg_neg]]
  congr 2
  · ring
  · ring

/-- In exact arithmetic the result is the similarity of least squares, if the points are not
mirrored; if they are, its turn is the best and its scale is too large by twice the second
singular value over the variance. -/
theorem estimateSimilarity_fits {svDecomp : Mat ℝ 2 2 → SVDecomp ℝ} (many : 2 ≤ n)
    (wide : 1 / 1000000000000 < varOf src)
    (decomposes : Decomposes (cov src dst) (svDecomp (cov src dst))) :
    ∃ M best : Affine ℝ, estimateSimilarity svDecomp (some src) (some dst) = some M ∧ M.Similar ∧
      best.Similar ∧ (∀ T : Affine ℝ, T.Similar → misfit best src dst ≤ misfit T src dst) ∧
      misfit M src dst = misfit best src dst + excess (svDecomp (cov src dst)) src dst := by
  obtain ⟨w, sign, same, beside, unit, along, across⟩ := rotation_direction decomposes
  have count : (0 : ℝ) < n := Nat.cast_pos.mpr (by omega)
  have card : (Fintype.card (Fin n) : ℝ) ≠ 0 := by rw [Fintype.card_fin]; exact count.ne'
  have var : varOf src = spread (pointX src) (pointY src) / n := varOf_eq src
  have positive : 0 < spread (pointX src) (pointY src) := by
    rw [var] at wide
    have half : 0 < spread (pointX src) (pointY src) / n := lt_trans (by norm_num) wide
    exact (div_pos_iff_of_pos_right count).mp half
  have run := @estimateSimilarity_eq n src dst svDecomp many wide same beside
  dsimp only at run
  generalize svDecomp (cov src dst) = s at *
  generalize rotation s 0 0 = c at *
  generalize rotation s 1 0 = t at *
  have direction : SimilarityFits.along (pointX src) (pointY src) (pointX dst) (pointY dst) =
      n * ((s.w 0 + w) * c) := by
    rw [← along, show cov src dst 0 0 = _ from covOf_eq _ _,
      show cov src dst 1 1 = _ from covOf_eq _ _, SimilarityFits.along]
    field_simp
  have turn : SimilarityFits.across (pointX src) (pointY src) (pointX dst) (pointY dst) =
      n * ((s.w 0 + w) * t) := by
    rw [← across, show cov src dst 0 1 = _ from covOf_eq _ _,
      show cov src dst 1 0 = _ from covOf_eq _ _, SimilarityFits.across]
    field_simp
  refine ⟨_, ofSimilarity (best (pointX src) (pointY src) (pointX dst) (pointY dst)), run,
    ⟨rfl, (neg_neg _).symm⟩, ⟨rfl, (neg_neg _).symm⟩, ?_, ?_⟩
  · intro T similar
    rw [similar.eq, misfit_ofSimilarity, misfit_ofSimilarity]
    exact best_least _ _ _ _ _ card positive
  · rw [misfit_ofSimilarity, misfit_ofSimilarity, residual_best _ _ _ _ card positive.ne',
      residual_complete _ _ _ _ _ card positive.ne', offset_through, direction, turn, excess, var]
    simp only [through]
    have off : spread (pointX src) (pointY src) *
        (((s.w 0 + s.w 1) / (spread (pointX src) (pointY src) / n) * c -
            n * ((s.w 0 + w) * c) / spread (pointX src) (pointY src)) ^ 2 +
          ((s.w 0 + s.w 1) / (spread (pointX src) (pointY src) / n) * t -
            n * ((s.w 0 + w) * t) / spread (pointX src) (pointY src)) ^ 2) =
        n * (s.w 1 - w) ^ 2 / (spread (pointX src) (pointY src) / n) := by
      field_simp
      linear_combination (s.w 1 - w) ^ 2 * unit
    rw [mul_zero, add_zero, off]
    rcases sign with ⟨rfl, upright⟩ | ⟨rfl, mirrors⟩
    · rw [if_neg (not_lt.mpr upright), sub_self]
      ring
    · split_ifs with negative
      · ring
      · rw [mirrors.resolve_left negative]
        ring

/-- Only the image itself has no misfit. -/
theorem apply_eq_of_misfit {M : Affine ℝ} (zero : misfit M src dst = 0) (i : Fin n) :
    M.apply (src i) = dst i := by
  have squares : ∀ j, 0 ≤ ((M.apply (src j)).x - (dst j).x) ^ 2 +
      ((M.apply (src j)).y - (dst j).y) ^ 2 := fun j => add_nonneg (sq_nonneg _) (sq_nonneg _)
  have each := (Finset.sum_eq_zero_iff_of_nonneg fun j _ => squares j).mp zero i (Finset.mem_univ i)
  obtain ⟨x, y⟩ := (add_eq_zero_iff_of_nonneg (sq_nonneg _) (sq_nonneg _)).mp each
  have left := sub_eq_zero.mp (pow_eq_zero_iff two_ne_zero |>.mp x)
  have right := sub_eq_zero.mp (pow_eq_zero_iff two_ne_zero |>.mp y)
  calc M.apply (src i) = ⟨(M.apply (src i)).x, (M.apply (src i)).y⟩ := rfl
    _ = dst i := by rw [left, right]

/-- Images under a similarity are not mirrored. -/
theorem cov_of_image {T : Affine ℝ} (similar : T.Similar) (shown : ∀ i, T.apply (src i) = dst i) :
    0 ≤ determinant (cov src dst) := by
  have many : ∀ f : Fin n → ℝ, ∀ a b t : ℝ, ∀ x y : Fin n → ℝ,
      moment f (fun i => a * x i + b * y i + t) = a * moment f x + b * moment f y := by
    intro f a b t x y
    rcases Nat.eq_zero_or_pos n with rfl | positive
    · simp [moment]
    · have count : (n : ℝ) ≠ 0 := Nat.cast_ne_zero.mpr positive.ne'
      have mean : average (fun i => a * x i + b * y i + t) =
          a * average x + b * average y + t := by
        simp only [average, Finset.sum_add_distrib, ← Finset.mul_sum, Finset.sum_const,
          Finset.card_univ, Fintype.card_fin, nsmul_eq_mul]
        field_simp
      simp only [moment, mean, Finset.mul_sum, ← Finset.sum_add_distrib]
      exact Finset.sum_congr rfl fun i _ => by ring
  have images : pointX dst = (fun i => T.a * pointX src i + T.b * pointY src i + T.tx) ∧
      pointY dst = fun i => T.c * pointX src i + T.d * pointY src i + T.ty := by
    constructor <;> funext i <;> simp only [pointX, pointY, ← shown i] <;> rfl
  have schwarz : moment (pointX src) (pointY src) ^ 2 ≤
      moment (pointX src) (pointX src) * moment (pointY src) (pointY src) := by
    have general := Finset.sum_mul_sq_le_sq_mul_sq Finset.univ
      (fun i => pointX src i - average (pointX src)) fun i => pointY src i - average (pointY src)
    simp only [moment, ← sq]
    exact general
  have swap : moment (pointY src) (pointX src) = moment (pointX src) (pointY src) :=
    Finset.sum_congr rfl fun i _ => mul_comm _ _
  have product : determinant (cov src dst) =
      (T.a ^ 2 + T.b ^ 2) * (moment (pointX src) (pointX src) * moment (pointY src) (pointY src) -
        moment (pointX src) (pointY src) ^ 2) / (n : ℝ) ^ 2 := by
    change covOf _ _ * covOf _ _ - covOf _ _ * covOf _ _ = _
    rw [covOf_eq, covOf_eq, covOf_eq, covOf_eq, images.1, images.2, many, many, many, many, swap,
      similar.1, similar.2]
    ring
  rw [product]
  exact div_nonneg (mul_nonneg (add_nonneg (sq_nonneg _) (sq_nonneg _)) (sub_nonneg.mpr schwarz))
    (sq_nonneg _)

/-- Points that a similarity takes to the others are taken there. -/
theorem estimateSimilarity_exact {svDecomp : Mat ℝ 2 2 → SVDecomp ℝ} (many : 2 ≤ n)
    (wide : 1 / 1000000000000 < varOf src)
    (decomposes : Decomposes (cov src dst) (svDecomp (cov src dst)))
    {T : Affine ℝ} (similar : T.Similar) (shown : ∀ i, T.apply (src i) = dst i) :
    ∃ M, estimateSimilarity svDecomp (some src) (some dst) = some M ∧ M.Similar ∧
      ∀ i, M.apply (src i) = dst i := by
  obtain ⟨M, best, run, similarM, -, least, missed⟩ :=
    estimateSimilarity_fits many wide decomposes
  have met : misfit T src dst = 0 := Finset.sum_eq_zero fun i _ => by rw [shown i]; ring
  have none : misfit best src dst = 0 :=
    le_antisymm (met ▸ least T similar)
      (Finset.sum_nonneg fun i _ => add_nonneg (sq_nonneg _) (sq_nonneg _))
  rw [none, excess, if_neg (not_lt.mpr (cov_of_image similar shown)), add_zero] at missed
  exact ⟨M, run, similarM, apply_eq_of_misfit missed⟩

/-- The matrix of `NormCrop` is the similarity of least squares, but for the excess of mirrored
landmarks. However large, turned and wherever a face is, of which the landmarks are a picture
of the template without a mirror, they come to lie on the template. -/
theorem estimateNorm_fits {svDecomp : Mat ℝ 2 2 → SVDecomp ℝ} {points : Fin 5 → Point2f ℝ}
    {imageSize : Int} (size : 0 < imageSize) (wide : 1 / 1000000000000 < varOf points)
    (decomposes : Decomposes (cov points (template imageSize))
      (svDecomp (cov points (template imageSize)))) :
    ∃ M best : Affine ℝ, estimateNorm svDecomp (some points) imageSize = some M ∧ M.Similar ∧
      best.Similar ∧
      (∀ T : Affine ℝ, T.Similar →
        misfit best points (template imageSize) ≤ misfit T points (template imageSize)) ∧
      misfit M points (template imageSize) = misfit best points (template imageSize) +
        excess (svDecomp (cov points (template imageSize))) points (template imageSize) ∧
      ∀ T : Affine ℝ, T.Similar → (∀ i, T.apply (points i) = template imageSize i) →
        ∀ i, M.apply (points i) = template imageSize i := by
  obtain ⟨M, best, run, similar, similarBest, least, missed⟩ :=
    @estimateSimilarity_fits 5 points (template imageSize) svDecomp (by decide) wide decomposes
  refine ⟨M, best, ?_, similar, similarBest, least, missed, ?_⟩
  · rw [← run]
    exact if_neg (not_le.mpr size)
  · intro T similarT shown
    obtain ⟨found, run', -, exact'⟩ :=
      @estimateSimilarity_exact 5 points (template imageSize) svDecomp (by decide) wide decomposes T
        similarT shown
    cases run.symm.trans run'
    exact exact'

theorem exists_decomposes (m : Mat ℝ 2 2) : ∃ s, Decomposes m s := by
  obtain ⟨u, vt, w₀, w₁, columns, rows, parts, ordered, nonneg⟩ := exists_parts (Matrix.of m)
  exact ⟨⟨![w₀, w₁], u, vt⟩, columns, rows, parts, ordered, nonneg⟩

/-- A decomposition of each matrix. -/
noncomputable def someSVDecomp (m : Mat ℝ 2 2) : SVDecomp ℝ := (exists_decomposes m).choose

theorem someSVDecomp_decomposes (m : Mat ℝ 2 2) : Decomposes m (someSVDecomp m) :=
  (exists_decomposes m).choose_spec

/-- A face that is already where the template is. -/
theorem alignedFace_fits :
    ∃ M best : Affine ℝ, estimateNorm someSVDecomp (some (template 112)) 112 = some M ∧
      M.Similar ∧ best.Similar ∧
      (∀ T : Affine ℝ, T.Similar →
        misfit best (template 112) (template 112) ≤ misfit T (template 112) (template 112)) ∧
      misfit M (template 112) (template 112) = misfit best (template 112) (template 112) +
        excess (someSVDecomp (cov (template 112) (template 112))) (template 112) (template 112) ∧
      ∀ T : Affine ℝ, T.Similar → (∀ i, T.apply (template 112 i) = template 112 i) →
        ∀ i, M.apply (template 112 i) = template 112 i := by
  refine estimateNorm_fits (by decide) ?_ (someSVDecomp_decomposes _)
  rw [varOf_eq, spread, moment, moment, average, average]
  norm_num [Fin.sum_univ_five, pointX, pointY, template, kArcfaceDst112, ofInt,
    RealArithmetic.ofRat_real]

end Fits

end FaceAlignments
