import AxVision.CovarianceUpdates
import AxVision.RealArithmetic
import AxVision.STracks
import AxVision.TransitionRuns
import Mathlib.Algebra.Order.Star.Real
import Mathlib.LinearAlgebra.Matrix.Block

/-!
# The covariances of the Kalman filter

In exact arithmetic the covariance of a track stays positive definite from
`initiate` on, whatever is measured, as long as no box of height 0 is corrected.
-/

namespace KalmanCovariances

open DetectionTypes RealArithmetic KalmanFilter STracks CovarianceUpdates Matrix TransitionRuns

section Products

variable {k m n : Nat}

theorem dot_eq (a b : Vec ℝ (n + 1)) : dot a b = a ⬝ᵥ b := by
  rw [dotProduct, Fin.sum_univ_succ, Fin.sum_univ_def]
  exact foldl_sum (fun i : Fin n => a i.succ * b i.succ) _ _

theorem of_matMul (a : Mat ℝ m (n + 1)) (b : Mat ℝ (n + 1) k) :
    of (matMul a b) = of a * of b := by
  ext i j
  rw [mul_apply']
  exact dot_eq (a i) fun l => b l j

theorem of_matAdd (a b : Mat ℝ m n) : of (matAdd a b) = of a + of b := rfl

theorem of_matSub (a b : Mat ℝ m n) : of (matSub a b) = of a - of b := rfl

theorem of_transpose (a : Mat ℝ m n) : of (KalmanFilter.transpose a) = (of a)ᴴ := rfl

theorem of_squaredDiagonal (std : Vec ℝ n) :
    of (squaredDiagonal std) = diagonal fun i => std i * std i := by
  ext i j
  rw [of_apply, squaredDiagonal, diagonal_apply, ofRat_real, Rat.cast_zero]

theorem squaredDiagonal_posSemidef (std : Vec ℝ n) : (of (squaredDiagonal std)).PosSemidef := by
  rw [of_squaredDiagonal]
  exact .diagonal fun i => mul_self_nonneg (std i)

theorem squaredDiagonal_posDef {std : Vec ℝ n} (nonzero : ∀ i, std i ≠ 0) :
    (of (squaredDiagonal std)).PosDef := by
  rw [of_squaredDiagonal]
  exact .diagonal fun i => mul_self_pos.mpr (nonzero i)

end Products

section Filter

/-- The time step of the motion has a unit diagonal and nothing below it. -/
theorem motionMat_isUnit : IsUnit (of (motionMat : Mat ℝ 8 8)) := by
  have upper : (of (motionMat : Mat ℝ 8 8)).BlockTriangular id := by
    intro i j below
    have lt : j.val < i.val := below
    rw [of_apply, motionMat, if_neg (by omega), identity, if_neg (by omega), ofRat_real,
      Rat.cast_zero]
  have unit (i : Fin 8) : of (motionMat : Mat ℝ 8 8) i i = 1 := by
    rw [of_apply, motionMat, if_neg (by omega), identity, if_pos rfl, ofRat_real, Rat.cast_one]
  rw [isUnit_iff_isUnit_det, det_of_isUpperTriangular upper]
  simp only [unit, Finset.prod_const_one, isUnit_one]

theorem weights_ne_zero {height : ℝ} (h : height ≠ 0) :
    stdWeightPosition * height ≠ 0 ∧ stdWeightVelocity * height ≠ 0 := by
  rw [stdWeightPosition, stdWeightVelocity, ofRat_real, ofRat_real]
  exact ⟨mul_ne_zero (by norm_num) h, mul_ne_zero (by norm_num) h⟩

theorem initiate_posDef {z : DetectBox ℝ} (height : z 3 ≠ 0) : (of (initiate z).2).PosDef := by
  obtain ⟨position, velocity⟩ := weights_ne_zero height
  have wide : Scalar.ofRat 2 * stdWeightPosition * z 3 ≠ 0 := by
    rw [mul_assoc]
    exact mul_ne_zero (by norm_num [ofRat_real]) position
  have fast : Scalar.ofRat 10 * stdWeightVelocity * z 3 ≠ 0 := by
    rw [mul_assoc]
    exact mul_ne_zero (by norm_num [ofRat_real]) velocity
  have aspect : (Scalar.ofRat (1 / 100) : ℝ) ≠ 0 := by norm_num [ofRat_real]
  have turning : (Scalar.ofRat (1 / 100000) : ℝ) ≠ 0 := by norm_num [ofRat_real]
  refine squaredDiagonal_posDef ?_
  simp only [Fin.forall_fin_succ]
  exact ⟨wide, wide, aspect, wide, fast, fast, turning, fast, nofun⟩

theorem predict_posDef {mean : KalMean ℝ} {covariance : KalCova ℝ}
    (posDef : (of covariance).PosDef) : (of (KalmanFilter.predict mean covariance).2).PosDef := by
  rw [KalmanFilter.predict, of_matAdd, of_matMul, of_matMul, of_transpose]
  exact predicted_posDef posDef motionMat_isUnit (squaredDiagonal_posSemidef _)

/-- The covariance of the measurement noise. -/
noncomputable def noise (mean : KalMean ℝ) : Mat ℝ 4 4 :=
  let position := stdWeightPosition * mean 3
  squaredDiagonal ![position, position, Scalar.ofRat (1 / 10), position]

theorem noise_posDef {mean : KalMean ℝ} (height : mean 3 ≠ 0) : (of (noise mean)).PosDef := by
  obtain ⟨position, -⟩ := weights_ne_zero height
  have aspect : (Scalar.ofRat (1 / 10) : ℝ) ≠ 0 := by norm_num [ofRat_real]
  refine squaredDiagonal_posDef ?_
  simp only [Fin.forall_fin_succ]
  exact ⟨position, position, aspect, position, nofun⟩

theorem project_eq (mean : KalMean ℝ) (covariance : KalCova ℝ) :
    of (project mean covariance).2 =
      innovation (of updateMat) (of covariance) (of (noise mean)) := by
  rw [project, of_matAdd, of_matMul, of_matMul, of_transpose]
  rfl

/-- The Cholesky solve solves every system whose matrix is positive definite. -/
def Solves (lltSolve : Mat ℝ 4 4 → Mat ℝ 4 8 → Mat ℝ 4 8) : Prop :=
  ∀ s b, (of s).PosDef → of s * of (lltSolve s b) = of b

/-- `kalman_gain` in `update`. -/
noncomputable def kalmanGain (lltSolve : Mat ℝ 4 4 → Mat ℝ 4 8 → Mat ℝ 4 8) (mean : KalMean ℝ)
    (covariance : KalCova ℝ) : Mat ℝ 8 4 :=
  KalmanFilter.transpose (lltSolve (project mean covariance).2
    (KalmanFilter.transpose (matMul covariance (KalmanFilter.transpose updateMat))))

variable {lltSolve : Mat ℝ 4 4 → Mat ℝ 4 8 → Mat ℝ 4 8} {mean : KalMean ℝ} {covariance : KalCova ℝ}

theorem project_posDef (posDef : (of covariance).PosDef) (height : mean 3 ≠ 0) :
    (of (project mean covariance).2).PosDef := by
  rw [project_eq]
  exact innovation_posDef posDef.posSemidef (noise_posDef height)

theorem kalmanGain_gains (solves : Solves lltSolve) (posDef : (of covariance).PosDef)
    (height : mean 3 ≠ 0) :
    Gains (of updateMat) (of covariance) (of (noise mean))
      (of (kalmanGain lltSolve mean covariance)) := by
  have solved := solves _ (KalmanFilter.transpose (matMul covariance
    (KalmanFilter.transpose updateMat))) (project_posDef posDef height)
  rw [Gains, ← project_eq, kalmanGain, of_transpose, conjTranspose_conjTranspose, solved,
    of_transpose, of_matMul, of_transpose, conjTranspose_mul, conjTranspose_conjTranspose,
    posDef.isHermitian.eq]

theorem update_eq (lltSolve : Mat ℝ 4 4 → Mat ℝ 4 8 → Mat ℝ 4 8) (mean : KalMean ℝ)
    (covariance : KalCova ℝ) (z : DetectBox ℝ) :
    of (KalmanFilter.update lltSolve mean covariance z).2 =
      corrected (of updateMat) (of covariance) (of (noise mean))
        (of (kalmanGain lltSolve mean covariance)) := by
  rw [KalmanFilter.update, of_matSub, of_matMul, of_matMul, project_eq, of_transpose]
  rfl

theorem update_posDef (solves : Solves lltSolve) (posDef : (of covariance).PosDef)
    (height : mean 3 ≠ 0) (z : DetectBox ℝ) :
    (of (KalmanFilter.update lltSolve mean covariance z).2).PosDef := by
  rw [update_eq]
  exact corrected_posDef posDef (noise_posDef height) (kalmanGain_gains solves posDef height)

theorem update_diag_le (lltSolve : Mat ℝ 4 4 → Mat ℝ 4 8 → Mat ℝ 4 8)
    (posDef : (of covariance).PosDef) (height : mean 3 ≠ 0) (z : DetectBox ℝ) (i : Fin 8) :
    (KalmanFilter.update lltSolve mean covariance z).2 i i ≤ covariance i i := by
  have le := corrected_diag_le (H := of updateMat)
    (G := of (kalmanGain lltSolve mean covariance)) posDef.posSemidef (noise_posDef height) i
  rw [← update_eq lltSolve mean covariance z] at le
  exact le

end Filter

section Runs

/-- What the tracker asks of the filter between two frames. The height velocity
of a track that is not tracked is set to 0 before the prediction. -/
inductive Call where
  | predict (zeroed : Bool)
  | update (measurement : DetectBox ℝ)

abbrev Estimate := KalMean ℝ × KalCova ℝ

noncomputable def apply (lltSolve : Mat ℝ 4 4 → Mat ℝ 4 8 → Mat ℝ 4 8) (s : Estimate) :
    Call → Estimate
  | .predict zeroed =>
    KalmanFilter.predict (if zeroed then Function.update s.1 7 (Scalar.ofRat 0) else s.1) s.2
  | .update z => KalmanFilter.update lltSolve s.1 s.2 z

/-- The filter from its first measurement on. -/
noncomputable def filter (lltSolve : Mat ℝ 4 4 → Mat ℝ 4 8 → Mat ℝ 4 8) (z : DetectBox ℝ) :
    Machine Estimate Call where
  start := initiate z
  step s call := some (apply lltSolve s call)

/-- A measurement comes only while the height of the mean is not 0. -/
def HasHeight (s : Estimate) : Call → Prop
  | .predict _ => True
  | .update _ => s.1 3 ≠ 0

theorem apply_posDef {lltSolve : Mat ℝ 4 4 → Mat ℝ 4 8 → Mat ℝ 4 8} (solves : Solves lltSolve)
    {s : Estimate} {call : Call} (posDef : (of s.2).PosDef) (ok : HasHeight s call) :
    (of (apply lltSolve s call).2).PosDef := by
  cases call with
  | predict zeroed => exact predict_posDef posDef
  | update z => exact update_posDef solves posDef ok z

theorem reached_posDef {lltSolve : Mat ℝ 4 4 → Mat ℝ 4 8 → Mat ℝ 4 8} (solves : Solves lltSolve)
    {z : DetectBox ℝ} (height : z 3 ≠ 0) {s : Estimate}
    (reached : ReachableBy (filter lltSolve z) HasHeight s) : (of s.2).PosDef := by
  refine reached.invariant (I := fun s => (of s.2).PosDef) (initiate_posDef height) ?_
  intro s call t posDef ok step
  obtain rfl := Option.some.inj step
  exact apply_posDef solves posDef ok

/-- In every run the covariance is positive definite, and where a correction is
due so is the matrix it solves with; no variance is made larger by it. -/
theorem covariance_posDef {lltSolve : Mat ℝ 4 4 → Mat ℝ 4 8 → Mat ℝ 4 8}
    (solves : Solves lltSolve) {z : DetectBox ℝ} (height : z 3 ≠ 0) {s : Estimate}
    (reached : ReachableBy (filter lltSolve z) HasHeight s) :
    (of s.2).PosDef ∧
      (s.1 3 ≠ 0 →
        (of (project s.1 s.2).2).PosDef ∧
          (∀ b, ∃! gain : Matrix (Fin 4) (Fin 8) ℝ, of (project s.1 s.2).2 * gain = b) ∧
          ∀ z i, (KalmanFilter.update lltSolve s.1 s.2 z).2 i i ≤ s.2 i i) := by
  have posDef := reached_posDef solves height reached
  refine ⟨posDef, fun height => ?_⟩
  have projected := project_posDef posDef height
  exact ⟨projected, solution_unique projected, update_diag_le lltSolve posDef height⟩

theorem inverse_solves : Solves fun s b => (of s)⁻¹ * of b :=
  fun s b posDef => mul_nonsing_inv_cancel_left (of s) (of b)
    ((isUnit_iff_isUnit_det (of s)).mp posDef.isUnit)

/-- A correction and a prediction after a first box of height 1. -/
noncomputable def correctedOnce : Estimate :=
  apply (fun s b => (of s)⁻¹ * of b)
    (apply (fun s b => (of s)⁻¹ * of b) (initiate ![1, 1, 1, 1]) (.update ![0, 1, 1, 1]))
    (.predict true)

theorem correctedOnce_reached :
    ReachableBy (filter (fun s b => (of s)⁻¹ * of b) ![1, 1, 1, 1]) HasHeight
      correctedOnce := by
  have height : (1 : ℝ) ≠ 0 := one_ne_zero
  exact ((Steps.refl _).snoc (l := .update ![0, 1, 1, 1]) height rfl).snoc
    (l := .predict true) trivial rfl

theorem correctedOnce_posDef :
    (of correctedOnce.2).PosDef ∧
      (correctedOnce.1 3 ≠ 0 →
        (of (project correctedOnce.1 correctedOnce.2).2).PosDef ∧
          (∀ b, ∃! gain : Matrix (Fin 4) (Fin 8) ℝ,
            of (project correctedOnce.1 correctedOnce.2).2 * gain = b) ∧
          ∀ z i, (KalmanFilter.update (fun s b => (of s)⁻¹ * of b) correctedOnce.1
            correctedOnce.2 z).2 i i ≤ correctedOnce.2 i i) := by
  have height : (![1, 1, 1, 1] : DetectBox ℝ) 3 ≠ 0 := by
    change (1 : ℝ) ≠ 0
    exact one_ne_zero
  exact covariance_posDef inverse_solves height correctedOnce_reached

end Runs

section Tracks

variable {lltSolve : Mat ℝ 4 4 → Mat ℝ 4 8 → Mat ℝ 4 8}

def estimate (t : STrack ℝ) : Estimate := (t.mean, t.covariance)

theorem activate_estimate (t : STrack ℝ) (frameId trackId : Int) :
    estimate (t.activate frameId trackId) = initiate (tlwhToXyah t.rawTlwh) := by
  simp only [estimate, STrack.activate, STrack.staticTlbr, STrack.staticTlwh]
  split <;> rfl

theorem predict_estimate (lltSolve : Mat ℝ 4 4 → Mat ℝ 4 8 → Mat ℝ 4 8) (t : STrack ℝ) :
    estimate t.predict = apply lltSolve (estimate t) (.predict (decide (t.state ≠ .tracked))) := by
  rw [STrack.predict, apply]
  by_cases tracked : t.state = .tracked
  · rw [if_pos tracked, decide_eq_false (not_not.mpr tracked)]
    rfl
  · rw [if_neg tracked, decide_eq_true tracked]
    rfl

theorem update_estimate (lltSolve : Mat ℝ 4 4 → Mat ℝ 4 8 → Mat ℝ 4 8) (t det : STrack ℝ)
    (frameId : Int) :
    estimate (t.update lltSolve det frameId) =
      apply lltSolve (estimate t) (.update (tlwhToXyah det.tlwh)) := by
  simp only [estimate, STrack.update, STrack.staticTlbr, STrack.staticTlwh, apply]
  split <;> rfl

theorem reActivate_estimate (lltSolve : Mat ℝ 4 4 → Mat ℝ 4 8 → Mat ℝ 4 8) (t det : STrack ℝ)
    (frameId : Int) :
    estimate (t.reActivate lltSolve det frameId) =
      apply lltSolve (estimate t) (.update (tlwhToXyah det.tlwh)) := by
  simp only [estimate, STrack.reActivate, STrack.staticTlbr, STrack.staticTlwh, apply]
  split <;> rfl

/-- The tracks that come from boxes with a height and are corrected only while
their mean has one. -/
inductive Upright (lltSolve : Mat ℝ 4 4 → Mat ℝ 4 8 → Mat ℝ 4 8) : STrack ℝ → Prop where
  | activated (t : STrack ℝ) (frameId trackId : Int) (height : t.rawTlwh.height ≠ 0) :
    Upright lltSolve (t.activate frameId trackId)
  | predicted {t : STrack ℝ} : Upright lltSolve t → Upright lltSolve t.predict
  | updated {t : STrack ℝ} (det : STrack ℝ) (frameId : Int) :
    Upright lltSolve t → t.mean 3 ≠ 0 → Upright lltSolve (t.update lltSolve det frameId)
  | reActivated {t : STrack ℝ} (det : STrack ℝ) (frameId : Int) :
    Upright lltSolve t → t.mean 3 ≠ 0 → Upright lltSolve (t.reActivate lltSolve det frameId)
  | lost {t : STrack ℝ} : Upright lltSolve t → Upright lltSolve t.markLost
  | removed {t : STrack ℝ} : Upright lltSolve t → Upright lltSolve t.markRemoved

/-- What a track does to its estimate is a run of the filter. -/
theorem upright_reached {t : STrack ℝ} (upright : Upright lltSolve t) :
    ∃ z, z 3 ≠ 0 ∧ ReachableBy (filter lltSolve z) HasHeight (estimate t) := by
  induction upright with
  | activated t frameId trackId height =>
    rw [activate_estimate]
    exact ⟨tlwhToXyah t.rawTlwh, height, .refl _⟩
  | @predicted t _ ih =>
    obtain ⟨z, height, reached⟩ := ih
    rw [predict_estimate lltSolve]
    exact ⟨z, height, reached.snoc (l := .predict (decide (t.state ≠ .tracked))) trivial rfl⟩
  | updated det frameId _ some_height ih =>
    obtain ⟨z, height, reached⟩ := ih
    rw [update_estimate]
    exact ⟨z, height, reached.snoc (l := .update (tlwhToXyah det.tlwh)) some_height rfl⟩
  | reActivated det frameId _ some_height ih =>
    obtain ⟨z, height, reached⟩ := ih
    rw [reActivate_estimate]
    exact ⟨z, height, reached.snoc (l := .update (tlwhToXyah det.tlwh)) some_height rfl⟩
  | lost _ ih => exact ih
  | removed _ ih => exact ih

theorem upright_posDef (solves : Solves lltSolve) {t : STrack ℝ} (upright : Upright lltSolve t) :
    (of t.covariance).PosDef := by
  obtain ⟨z, height, reached⟩ := upright_reached upright
  exact reached_posDef solves height reached

end Tracks

end KalmanCovariances
