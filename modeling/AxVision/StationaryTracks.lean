import AxVision.ExactSolvers
import AxVision.GreedyAssignments
import AxVision.TrackerUpdates
import Mathlib.Tactic.FieldSimp
import Mathlib.Tactic.Linarith
import Mathlib.Tactic.Ring

/-!
# Tracks that stand still

In exact arithmetic a track whose mean is the measurement itself, with no
velocity, is not moved by the filter whatever its gain is. Its box then stays the
detected box, at overlap one with it and overlap zero with every box apart.
-/

namespace StationaryTracks

open DetectionTypes KalmanFilter STracks TrackAssociation ByteTracker TrackerProcessor
open ProperAssignments ExactSolvers OptimalAssignments TrackerSteps

section Filter

theorem dot_rat {n : Nat} (a b : Vec ℚ (n + 1)) : dot a b = ∑ i, a i * b i := by
  rw [Fin.sum_univ_succ, Fin.sum_univ_def]
  exact foldl_sum (fun i : Fin n => a i.succ * b i.succ) _ _

variable (m : DetectBox ℚ) (covariance : KalCova ℚ)

/-- The mean of a track that stands at a measurement. -/
def restingMean : KalMean ℚ := (initiate m).1

theorem restingMean_low {i : Fin 8} (h : i.val < 4) : restingMean m i = m ⟨i.val, h⟩ := by
  simp [restingMean, initiate, h]

theorem restingMean_high {i : Fin 8} (h : ¬i.val < 4) : restingMean m i = 0 := by
  simp [restingMean, initiate, h]

theorem predict_resting : (predict (restingMean m) covariance).1 = restingMean m := by
  funext i
  change matVec motionMat (restingMean m) i = restingMean m i
  rw [matVec, dot_rat, Finset.sum_eq_single i]
  · have diagonal : (motionMat : Mat ℚ 8 8) i i = 1 := by simp [motionMat, identity]
    rw [diagonal, one_mul]
  · intro j _ hj
    by_cases low : j.val < 4
    · have zero : (motionMat : Mat ℚ 8 8) i j = 0 := by
        have apart : i.val ≠ j.val := fun h => hj (Fin.ext h.symm)
        have below : j.val ≠ i.val + 4 := by omega
        simp [motionMat, identity, apart, below]
      rw [zero, zero_mul]
    · rw [restingMean_high m low, mul_zero]
  · exact fun h => absurd (Finset.mem_univ i) h

theorem project_resting (i : Fin 4) :
    (project (restingMean m) covariance).1 i = m i := by
  change matVec updateMat (restingMean m) i = m i
  have bound : i.val < 8 := by omega
  rw [matVec, dot_rat, Finset.sum_eq_single ⟨i.val, bound⟩]
  · rw [restingMean_low m (i := ⟨i.val, bound⟩) i.isLt]
    simp [updateMat, identity]
  · intro j _ hj
    have apart : i.val ≠ j.val := fun h => hj (Fin.ext h.symm)
    simp [updateMat, identity, apart]
  · exact fun h => absurd (Finset.mem_univ _) h

/-- Without innovation the gain does not matter. -/
theorem update_resting (lltSolve : Mat ℚ 4 4 → Mat ℚ 4 8 → Mat ℚ 4 8) :
    (KalmanFilter.update lltSolve (restingMean m) covariance m).1 = restingMean m := by
  funext i
  simp only [KalmanFilter.update, project_resting, sub_self, dot_rat, zero_mul,
    Finset.sum_const_zero, add_zero]

end Filter

section Track

def boxTlwh (o : Object ℚ) : Tlwh ℚ := ⟨o.rect.x, o.rect.y, o.rect.width, o.rect.height⟩

def boxTlbr (o : Object ℚ) : Tlbr ℚ :=
  ⟨o.rect.x, o.rect.y, o.rect.x + o.rect.width, o.rect.y + o.rect.height⟩

/-- A track that stands at the box of an object. -/
structure Resting (o : Object ℚ) (s : STrack ℚ) : Prop where
  mean : s.mean = restingMean (tlwhToXyah (boxTlwh o))
  tlbr : s.tlbr = boxTlbr o

@[simp] theorem newDetection_tlwh (o : Object ℚ) : (newDetection o).tlwh = boxTlwh o := by
  simp [newDetection, STrack.ofTlwh, STrack.staticTlwh, STrack.staticTlbr, tlbrToTlwh, boxTlwh]

@[simp] theorem newDetection_rawTlwh (o : Object ℚ) : (newDetection o).rawTlwh = boxTlwh o := by
  simp [newDetection, STrack.ofTlwh, STrack.staticTlwh, STrack.staticTlbr, tlbrToTlwh, boxTlwh]

@[simp] theorem newDetection_tlbr (o : Object ℚ) : (newDetection o).tlbr = boxTlbr o := by
  simp [newDetection, STrack.ofTlwh, STrack.staticTlwh, STrack.staticTlbr, tlbrToTlwh, boxTlbr,
    add_comm]

@[simp] theorem newDetection_score (o : Object ℚ) : (newDetection o).score = o.prob := by
  simp [newDetection, STrack.ofTlwh, STrack.staticTlwh, STrack.staticTlbr]

theorem newDetection_state (o : Object ℚ) : (newDetection o).state = .new := by
  simp [newDetection, STrack.ofTlwh, STrack.staticTlwh, STrack.staticTlbr]

theorem activate_resting (o : Object ℚ) (frameId trackId : Int) :
    Resting o ((newDetection o).activate frameId trackId) := by
  refine ⟨?_, ?_⟩ <;>
    simp [STrack.activate, STrack.staticTlwh, STrack.staticTlbr, newDetection_state, restingMean,
      boxTlwh, boxTlbr, add_comm]

/-- Prediction leaves a resting track where it is; the lost ones have no height velocity to lose. -/
theorem predict_rests {o : Object ℚ} {s : STrack ℚ} (h : Resting o s) : Resting o s.predict := by
  refine ⟨?_, h.tlbr⟩
  have still : (if s.state = .tracked then s.mean
      else Function.update s.mean 7 (Scalar.ofRat 0)) = s.mean := by
    split
    · rfl
    · have zero : s.mean 7 = 0 := by
        rw [h.mean]
        exact restingMean_high _ (by decide)
      rw [ofRat_rat, ← zero, Function.update_eq_self]
  change (predict (if s.state = .tracked then s.mean
      else Function.update s.mean 7 (Scalar.ofRat 0)) s.covariance).1 = _
  rw [still, h.mean, predict_resting]

/-- The box of a resting mean is the box it was measured at. -/
theorem static_resting {o : Object ℚ} (height : o.rect.height ≠ 0) {s : STrack ℚ}
    (mean : s.mean = restingMean (tlwhToXyah (boxTlwh o))) (state : s.state ≠ .new) :
    s.staticTlwh.staticTlbr.tlbr = boxTlbr o := by
  have centre : ∀ i : Fin 4, s.mean (i.castLE (by decide)) = tlwhToXyah (boxTlwh o) i := by
    intro i
    rw [mean]
    exact restingMean_low _ (i := i.castLE (by decide)) i.isLt
  have h0 : s.mean 0 = o.rect.x + o.rect.width / 2 := centre 0
  have h1 : s.mean 1 = o.rect.y + o.rect.height / 2 := centre 1
  have h2 : s.mean 2 = o.rect.width / o.rect.height := centre 2
  have h3 : s.mean 3 = o.rect.height := centre 3
  have width : s.mean 2 * o.rect.height = o.rect.width := by
    rw [h2, div_mul_cancel₀ _ height]
  simp only [STrack.staticTlwh, if_neg state, STrack.staticTlbr, width, h0, h1, h3, boxTlbr,
    ofRat_rat, Tlbr.mk.injEq]
  exact ⟨by ring, by ring, by ring, by ring⟩

/-- A hit by the detection a track stands at leaves it where it is. -/
theorem hitBy_rests {o : Object ℚ} (height : o.rect.height ≠ 0) {s : STrack ℚ} (h : Resting o s)
    (state : s.state ≠ .new) (backend : Backend ℚ) (frameId : Int) :
    Resting o (hitBy backend frameId (newDetection o) s) := by
  have stays := update_resting (tlwhToXyah (boxTlwh o)) s.covariance backend.lltSolve
  rw [hitBy]
  split
  · refine ⟨?_, ?_⟩
    · simp only [STrack.update, newDetection_tlwh, STrack.staticTlbr, STrack.staticTlwh, h.mean]
      split <;> exact stays
    · simp only [STrack.update, newDetection_tlwh]
      refine static_resting height ?_ state
      simp only [h.mean]
      exact stays
  · refine ⟨?_, ?_⟩
    · simp only [STrack.reActivate, newDetection_tlwh, STrack.staticTlbr, STrack.staticTlwh, h.mean]
      split <;> exact stays
    · simp only [STrack.reActivate, newDetection_tlwh]
      refine static_resting height ?_ state
      simp only [h.mean]
      exact stays

end Track

section Overlap

/-- More than one pixel between two boxes on some axis. -/
def Separated (a b : Object ℚ) : Prop :=
  a.rect.x + a.rect.width + 1 < b.rect.x ∨ b.rect.x + b.rect.width + 1 < a.rect.x ∨
    a.rect.y + a.rect.height + 1 < b.rect.y ∨ b.rect.y + b.rect.height + 1 < a.rect.y

theorem Separated.symm {a b : Object ℚ} (h : Separated a b) : Separated b a := by
  rcases h with h | h | h | h
  · exact Or.inr (Or.inl h)
  · exact Or.inl h
  · exact Or.inr (Or.inr (Or.inr h))
  · exact Or.inr (Or.inr (Or.inl h))

/-- On the axis that separates two boxes their overlap is below minus one pixel. -/
theorem Separated.overlap {a b : Object ℚ} (h : Separated a b) :
    min (a.rect.x + a.rect.width) (b.rect.x + b.rect.width) - max a.rect.x b.rect.x < -1 ∨
      min (a.rect.y + a.rect.height) (b.rect.y + b.rect.height) - max a.rect.y b.rect.y < -1 := by
  have right := min_le_left (a.rect.x + a.rect.width) (b.rect.x + b.rect.width)
  have right' := min_le_right (a.rect.x + a.rect.width) (b.rect.x + b.rect.width)
  have left := le_max_left a.rect.x b.rect.x
  have left' := le_max_right a.rect.x b.rect.x
  have bottom := min_le_left (a.rect.y + a.rect.height) (b.rect.y + b.rect.height)
  have bottom' := min_le_right (a.rect.y + a.rect.height) (b.rect.y + b.rect.height)
  have top := le_max_left a.rect.y b.rect.y
  have top' := le_max_right a.rect.y b.rect.y
  rcases h with h | h | h | h
  · left
    linarith
  · left
    linarith
  · right
    linarith
  · right
    linarith

theorem iou_self {o : Object ℚ} (width : 0 < o.rect.width) (height : 0 < o.rect.height) :
    iou (boxTlbr o) (boxTlbr o) = 1 := by
  have hw : (0 : ℚ) < o.rect.x + o.rect.width - o.rect.x + 1 := by linarith
  have hh : (0 : ℚ) < o.rect.y + o.rect.height - o.rect.y + 1 := by linarith
  have area := mul_pos hw hh
  simp only [iou, boxTlbr, stdMin_rat, stdMax_rat, min_self, max_self, lt_rat, ofRat_rat,
    decide_eq_true_eq, if_pos hw, if_pos hh, add_sub_cancel_right]
  exact div_self area.ne'

theorem iou_separated {a b : Object ℚ} (h : Separated a b) : iou (boxTlbr a) (boxTlbr b) = 0 := by
  simp only [iou, boxTlbr, stdMin_rat, stdMax_rat, lt_rat, ofRat_rat, decide_eq_true_eq]
  split
  · next hw =>
    split
    · next hh =>
      exfalso
      rcases h.overlap with gap | gap
      · linarith
      · linarith
    · rfl
  · rfl

theorem intersectionOverUnion_self {o : Object ℚ} (width : 0 < o.rect.width)
    (height : 0 < o.rect.height) : intersectionOverUnion o.rect (boxTlbr o) = 1 := by
  have area : 0 < o.rect.width * o.rect.height := mul_pos width height
  simp only [intersectionOverUnion, boxTlbr, stdMin_rat, stdMax_rat, min_self, max_self,
    add_sub_cancel_left, ofRat_rat, lt_rat, Rect.area, max_eq_right width.le,
    max_eq_right height.le, decide_eq_true_eq, if_pos area]
  exact div_self area.ne'

theorem intersectionOverUnion_separated {a b : Object ℚ} (h : Separated a b) :
    intersectionOverUnion a.rect (boxTlbr b) = 0 := by
  have disjoint : max 0 (min (a.rect.x + a.rect.width) (b.rect.x + b.rect.width) -
      max a.rect.x b.rect.x) *
      max 0 (min (a.rect.y + a.rect.height) (b.rect.y + b.rect.height) -
        max a.rect.y b.rect.y) = 0 := by
    rcases h.overlap with gap | gap
    · rw [max_eq_left (by linarith), zero_mul]
    · rw [mul_comm, max_eq_left (by linarith), zero_mul]
  simp only [intersectionOverUnion, boxTlbr, stdMin_rat, stdMax_rat, ofRat_rat, lt_rat, disjoint,
    zero_div, ite_self]

end Overlap

end StationaryTracks
