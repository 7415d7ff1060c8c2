import AxVision.FaceRegions
import Mathlib.Tactic.Linarith
import Mathlib.Tactic.NormNum

/-!
# What the expanded region of a face keeps

`computeExpandedRoi` scales a box about its centre, grows it to a least side,
shifts it back into the frame and rounds its ends outwards. In exact arithmetic
no step loses a pixel that the box has in the frame.
-/

namespace ExpandedRegions

open DetectionTypes FaceRegions

section Axes

variable {low high size start side expandRatio p : ℚ} {frameSide minSide : Int}

/-- The shift keeps every point of an interval that lies in the frame. -/
theorem shiftIntoFrame_keeps (within : low ≤ p ∧ p ≤ high) (inFrame : 0 ≤ p ∧ p ≤ size) :
    (shiftIntoFrame low high size).1 ≤ p ∧ p ≤ (shiftIntoFrame low high size).2 := by
  obtain ⟨left, right⟩ := within
  obtain ⟨corner, border⟩ := inFrame
  simp only [shiftIntoFrame, lt_rat, decide_eq_true_eq, stdMax_rat, stdMin_rat, ofRat_rat,
    max_le_iff, le_min_iff]
  split
  · split
    · exact ⟨⟨corner, by linarith⟩, border, border⟩
    · exact ⟨⟨corner, corner⟩, border, by linarith⟩
  · split
    · exact ⟨⟨corner, by linarith⟩, border, border⟩
    · exact ⟨⟨corner, left⟩, border, right⟩

/-- The shift keeps the length of an interval as far as the frame has it. -/
theorem shiftIntoFrame_length (low high size : ℚ) :
    min (high - low) size ≤
      (shiftIntoFrame low high size).2 - (shiftIntoFrame low high size).1 := by
  have shorter := min_le_left (high - low) size
  have narrower := min_le_right (high - low) size
  simp only [shiftIntoFrame, lt_rat, decide_eq_true_eq, stdMax_rat, stdMin_rat, ofRat_rat]
  split
  · split
    · rw [min_self]
      rcases max_cases 0 (0 - (high - low - size)) with ⟨same, -⟩ | ⟨same, -⟩ <;>
        rw [same] <;> linarith
    · rw [max_self]
      rcases min_cases size (high - low) with ⟨same, -⟩ | ⟨same, -⟩ <;>
        rw [same] <;> linarith
  · split
    · rw [min_self]
      rcases max_cases 0 (low - (high - size)) with ⟨same, -⟩ | ⟨same, -⟩ <;>
        rw [same] <;> linarith
    · have right : high ≤ size := not_lt.mp ‹¬size < high›
      rw [max_eq_right (not_lt.mp ‹¬low < 0›), min_eq_right right]
      exact shorter

/-- The wanted side is no shorter than the scaled one, nor than the least side. -/
theorem le_expandedSide (side expandRatio : ℚ) (frameSide minSide : Int) :
    side * expandRatio ≤ expandedSide side expandRatio frameSide minSide ∧
      (0 < minSide → ((min minSide frameSide : Int) : ℚ) ≤
        expandedSide side expandRatio frameSide minSide) := by
  simp only [expandedSide]
  split
  · rw [stdMax_rat]
    exact ⟨le_max_left _ _, fun _ => le_max_right _ _⟩
  · exact ⟨le_rfl, fun positive => absurd positive ‹¬_›⟩

/-- The ends of the wanted interval before the shift. -/
def wantedEnds (start side expandRatio : ℚ) (frameSide minSide : Int) : ℚ × ℚ :=
  let centre := start + side * (1 / 2)
  let wanted := expandedSide side expandRatio frameSide minSide
  (centre - wanted * (1 / 2), centre + wanted * (1 / 2))

/-- One axis of the region before it is rounded. -/
def shiftedEnds (start side expandRatio : ℚ) (frameSide minSide : Int) : ℚ × ℚ :=
  shiftIntoFrame (wantedEnds start side expandRatio frameSide minSide).1
    (wantedEnds start side expandRatio frameSide minSide).2 frameSide

/-- Rounding moves the ends outwards. -/
theorem expandedAxis_rounds (start side expandRatio : ℚ) (frameSide minSide : Int) :
    let axis := expandedAxis start side expandRatio frameSide minSide
    let ends := shiftedEnds start side expandRatio frameSide minSide
    (axis.1 : ℚ) ≤ ends.1 ∧ ends.2 ≤ axis.1 + axis.2 := by
  have first : (expandedAxis start side expandRatio frameSide minSide).1 =
      ⌊(shiftedEnds start side expandRatio frameSide minSide).1⌋ := by
    simp only [expandedAxis, ofRat_rat, Rounding.ofInt, Rounding.floor, toInt_whole, shiftedEnds,
      wantedEnds]
  have last : (expandedAxis start side expandRatio frameSide minSide).1 +
      (expandedAxis start side expandRatio frameSide minSide).2 =
        ⌈(shiftedEnds start side expandRatio frameSide minSide).2⌉ := by
    simp only [expandedAxis, ofRat_rat, Rounding.ofInt, Rounding.floor, Rounding.ceil, toInt_whole,
      ← Int.cast_sub, shiftedEnds, wantedEnds]
    omega
  simp only [← Int.cast_add]
  rw [last, first]
  exact ⟨Int.floor_le _, Int.le_ceil _⟩

/-- No point of the box in the frame is lost on an axis, and the least side is reached. -/
theorem expandedAxis_keeps (wide : 0 < side) (ratio : 1 ≤ expandRatio) (frame : 0 < frameSide)
    (start : ℚ) (minSide : Int) :
    let axis := expandedAxis start side expandRatio frameSide minSide
    (∀ p : ℚ, start ≤ p ∧ p ≤ start + side → 0 ≤ p ∧ p ≤ frameSide →
        (axis.1 : ℚ) ≤ p ∧ p ≤ axis.1 + axis.2) ∧
      min minSide frameSide ≤ axis.2 := by
  have positive : 0 < expandRatio := lt_of_lt_of_le one_pos ratio
  obtain ⟨scaled, grown⟩ := le_expandedSide side expandRatio frameSide minSide
  have wanted := expandedSide_pos wide positive frameSide minSide
  have spread : side ≤ expandedSide side expandRatio frameSide minSide :=
    (le_mul_of_one_le_right wide.le ratio).trans scaled
  obtain ⟨before, behind⟩ := expandedAxis_rounds start side expandRatio frameSide minSide
  refine ⟨?_, ?_⟩
  · intro p inBox inFrame
    have inWanted : (wantedEnds start side expandRatio frameSide minSide).1 ≤ p ∧
        p ≤ (wantedEnds start side expandRatio frameSide minSide).2 := by
      simp only [wantedEnds]
      exact ⟨by linarith [inBox.1], by linarith [inBox.2]⟩
    have kept := shiftIntoFrame_keeps inWanted inFrame
    exact ⟨before.trans kept.1, kept.2.trans behind⟩
  · by_cases least : 0 < minSide
    · have length := shiftIntoFrame_length (wantedEnds start side expandRatio frameSide minSide).1
        (wantedEnds start side expandRatio frameSide minSide).2 frameSide
      have whole : ((min minSide frameSide : Int) : ℚ) ≤
          min ((wantedEnds start side expandRatio frameSide minSide).2 -
            (wantedEnds start side expandRatio frameSide minSide).1) frameSide := by
        refine le_min ?_ (Int.cast_le.mpr (min_le_right _ _))
        simp only [wantedEnds]
        linarith [grown least]
      have reached := whole.trans length
      have axis : ((min minSide frameSide : Int) : ℚ) ≤
          (expandedAxis start side expandRatio frameSide minSide).2 := by
        simp only [shiftedEnds] at before behind
        linarith
      exact Int.cast_le.mp axis
    · have pixel := (expandedAxis_inside wide positive frame start minSide).2.1
      omega

end Axes

section Regions

/-- The points of a rectangle, its edges with it. -/
def points (r : Rect ℚ) : Set (ℚ × ℚ) :=
  {p | (r.x ≤ p.1 ∧ p.1 ≤ r.x + r.width) ∧ r.y ≤ p.2 ∧ p.2 ≤ r.y + r.height}

/-- A rectangle of whole pixels. -/
def ofPixels (r : Rect Int) : Rect ℚ := ⟨r.x, r.y, r.width, r.height⟩

/-- The region has a pixel, lies in the frame, keeps what the frame shows of the
box, and has the least side where the frame has it. -/
structure KeepsFace (box : Rect ℚ) (frameW frameH minSide : Int) (roi : Rect Int) : Prop where
  some : 0 < roi.width ∧ 0 < roi.height
  inside : points (ofPixels roi) ⊆ points (ofPixels ⟨0, 0, frameW, frameH⟩)
  keeps : points box ∩ points (ofPixels ⟨0, 0, frameW, frameH⟩) ⊆ points (ofPixels roi)
  least : min minSide frameW ≤ roi.width ∧ min minSide frameH ≤ roi.height

/-- The expanded region of a box with an extent keeps the face. -/
theorem computeExpandedRoi_keeps {box : Rect ℚ} {expandRatio : ℚ} {frameW frameH : Int}
    (extent : 0 < box.width ∧ 0 < box.height) (ratio : 1 ≤ expandRatio)
    (frame : 0 < frameW ∧ 0 < frameH) (minSide : Int) :
    KeepsFace box frameW frameH minSide
      (computeExpandedRoi box expandRatio frameW frameH minSide) := by
  have positive : 0 < expandRatio := lt_of_lt_of_le one_pos ratio
  have possible : ¬(frameW ≤ 0 ∨ frameH ≤ 0 ∨ Scalar.le expandRatio (Scalar.ofRat 0) = true) := by
    simp only [le_rat, ofRat_rat, decide_eq_true_eq, not_or, not_le]
    exact ⟨frame.1, frame.2, positive⟩
  have across := expandedAxis_inside extent.1 positive frame.1 box.x minSide
  have down := expandedAxis_inside extent.2 positive frame.2 box.y minSide
  obtain ⟨keepsX, leastX⟩ := expandedAxis_keeps extent.1 ratio frame.1 box.x minSide
  obtain ⟨keepsY, leastY⟩ := expandedAxis_keeps extent.2 ratio frame.2 box.y minSide
  -- both axes end inside the frame, so that nothing is cut off
  rw [computeExpandedRoi, if_neg possible, hasExtent_iff.mpr extent, if_neg (by decide)]
  simp only
  rw [if_neg (by omega), if_neg (by omega), if_neg (by omega)]
  refine ⟨⟨across.2.1, down.2.1⟩, ?_, ?_, leastX, leastY⟩
  · rintro ⟨px, py⟩ ⟨⟨left, right⟩, top, bottom⟩
    simp only [ofPixels, ← Int.cast_add] at left right top bottom
    refine ⟨⟨?_, ?_⟩, ?_, ?_⟩
    · exact (Int.cast_le.mpr across.1).trans left
    · refine right.trans ?_
      simp only [ofPixels, Int.cast_zero, zero_add]
      exact Int.cast_le.mpr across.2.2
    · exact (Int.cast_le.mpr down.1).trans top
    · refine bottom.trans ?_
      simp only [ofPixels, Int.cast_zero, zero_add]
      exact Int.cast_le.mpr down.2.2
  · rintro ⟨px, py⟩ ⟨⟨inBoxX, inBoxY⟩, inFrameX, inFrameY⟩
    simp only [ofPixels, Int.cast_zero, zero_add] at inFrameX inFrameY
    exact ⟨keepsX px inBoxX inFrameX, keepsY py inBoxY inFrameY⟩

/-- A small face that hangs over the corner of the frame. -/
theorem cornerFace_kept :
    KeepsFace ⟨-5, -3, 20, 30⟩ 1920 1080 112
      (computeExpandedRoi (⟨-5, -3, 20, 30⟩ : Rect ℚ) (3 / 2) 1920 1080 112) :=
  computeExpandedRoi_keeps ⟨by norm_num, by norm_num⟩ (by norm_num) ⟨by decide, by decide⟩ 112

end Regions

end ExpandedRegions
