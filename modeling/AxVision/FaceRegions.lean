import AxVision.DetectionTypes
import AxVision.FrameDrawing
import Mathlib.Data.Rat.Floor

/-!
# The region of a face that the hardware crops

`computeExpandedRoi` grows the box of a face and clamps it to the frame;
`alignRoiForIvps` makes the result even for the hardware. A rejected box is an
empty rectangle between the two.
-/

namespace FaceRegions

open DetectionTypes FrameDrawing PlaneLayouts

universe u

/-- The conversions between `float` and `int` that regions need. -/
class Rounding (F : Type u) extends Scalar F where
  ofInt : Int → F
  floor : F → F
  ceil : F → F

instance rationalRounding : Rounding ℚ where
  ofInt n := n
  floor q := (⌊q⌋ : ℤ)
  ceil q := (⌈q⌉ : ℤ)

/-- `cv::Rect()`. -/
def emptyRect : Rect Int := ⟨0, 0, 0, 0⟩

def isEmpty (r : Rect Int) : Bool := r.width ≤ 0 ∨ r.height ≤ 0

/-- `ALIGN_UP(n, 2)`. -/
def alignUp (n : Int) : Int := roundDown (n + 1)

/-- The even length that the frame leaves of a side. -/
def cutSide (start side frameSide : Int) : Int :=
  if start + side > frameSide then roundDown (frameSide - start) else side

def alignRoiForIvps (roi : Rect Int) (frameW frameH : Int) : Rect Int :=
  let x := alignUp (max 0 roi.x)
  let y := alignUp (max 0 roi.y)
  let w := alignUp (max 2 roi.width)
  let h := alignUp (max 2 roi.height)
  let w := cutSide x w frameW
  let h := cutSide y h frameH
  if w < 2 ∨ h < 2 then emptyRect else ⟨x, y, w, h⟩

section Regions

variable {F : Type u} [Rounding F]

/-- One axis of the expanded box: its ends after the shift back into the frame. -/
def shiftIntoFrame (low high size : F) : F × F :=
  let zero := Scalar.ofRat 0
  let (low, high) := if Scalar.lt low zero then (zero, high - low) else (low, high)
  let (low, high) := if Scalar.lt size high then (low - (high - size), size) else (low, high)
  (stdMax zero low, stdMin size high)

/-- The length of one axis: at least `minSide` pixels, where the frame has them. -/
def expandedSide (side expandRatio : F) (frameSide minSide : Int) : F :=
  let expanded := side * expandRatio
  if minSide > 0 then stdMax expanded (Rounding.ofInt (min minSide frameSide)) else expanded

/-- One axis of the region: its first pixel and its length before it is cut off. -/
def expandedAxis (start side expandRatio : F) (frameSide minSide : Int) : Int × Int :=
  let half := Scalar.ofRat (1 / 2)
  let centre := start + side * half
  let wanted := expandedSide side expandRatio frameSide minSide
  let (low, high) := shiftIntoFrame (centre - wanted * half) (centre + wanted * half)
    (Rounding.ofInt frameSide)
  let first := Scalar.toInt (Rounding.floor low)
  (first, Scalar.toInt (Rounding.ceil high - Rounding.ofInt first))

/-- `ComputeExpandedRoi` rejects a box without extent. -/
def hasExtent (box : Rect F) : Bool :=
  !Scalar.le box.width (Scalar.ofRat 0) && !Scalar.le box.height (Scalar.ofRat 0)

def computeExpandedRoi (box : Rect F) (expandRatio : F) (frameW frameH minSide : Int) :
    Rect Int :=
  if frameW ≤ 0 ∨ frameH ≤ 0 ∨ Scalar.le expandRatio (Scalar.ofRat 0) then emptyRect
  else if !hasExtent box then emptyRect
  else
    let (ix, iw) := expandedAxis box.x box.width expandRatio frameW minSide
    let (iy, ih) := expandedAxis box.y box.height expandRatio frameH minSide
    if iw < 1 ∨ ih < 1 then emptyRect
    else
      let iw := if ix + iw > frameW then frameW - ix else iw
      let ih := if iy + ih > frameH then frameH - iy else ih
      ⟨ix, iy, iw, ih⟩

/-- What `HwRoiNormCrop` reads of a frame that has data and frame information. -/
structure HwFrame where
  width : UInt32
  height : UInt32
  vframe : VideoFrame

def HwFrame.size (frame : HwFrame) : Int × Int :=
  ((if frame.width > 0 then frame.width else frame.vframe.width).toInt32.toInt,
    (if frame.height > 0 then frame.height else frame.vframe.height).toInt32.toInt)

/-- The arguments of `CropAndCSC`. -/
structure CropRequest where
  x : UInt16
  y : UInt16
  width : UInt16
  height : UInt16
  deriving DecidableEq

/-- `HwRoiNormCrop` up to its call of `CropAndCSC`, if it comes to it. -/
def hwRoiCrop (frame : Option HwFrame) (box : Rect F) (expandRatio : F) (imageSize : Int) :
    Option CropRequest :=
  match frame with
  | none => none
  | some frame =>
    if imageSize ≤ 0 then none
    else
      let (frameW, frameH) := frame.size
      if frameW ≤ 0 ∨ frameH ≤ 0 then none
      else
        let roi := computeExpandedRoi box expandRatio frameW frameH imageSize
        let roi := alignRoiForIvps roi frameW frameH
        if isEmpty roi then none
        else some ⟨.ofInt roi.x, .ofInt roi.y, .ofInt roi.width, .ofInt roi.height⟩

end Regions

section Alignment

variable {frameW frameH size : Int}

/-- What the hardware can crop: even, at least two by two, and inside the frame. -/
structure Legal (frameW frameH : Int) (r : Rect Int) : Prop where
  even : r.x % 2 = 0 ∧ r.y % 2 = 0 ∧ r.width % 2 = 0 ∧ r.height % 2 = 0
  least : 2 ≤ r.width ∧ 2 ≤ r.height
  corner : 0 ≤ r.x ∧ 0 ≤ r.y
  inside : r.x + r.width ≤ frameW ∧ r.y + r.height ≤ frameH

theorem alignUp_even (n : Int) : alignUp n % 2 = 0 := by
  unfold alignUp roundDown
  omega

theorem le_alignUp (n : Int) : n ≤ alignUp n := by
  unfold alignUp roundDown
  omega

theorem alignUp_start (n : Int) : 0 ≤ alignUp (max 0 n) :=
  (Int.le_max_left 0 n).trans (le_alignUp _)

theorem cutSide_even {start side : Int} (even : side % 2 = 0) :
    cutSide start side size % 2 = 0 := by
  unfold cutSide roundDown
  split
  · omega
  · exact even

theorem cutSide_inside (start side size : Int) : start + cutSide start side size ≤ size := by
  unfold cutSide roundDown
  split
  · omega
  · exact Int.not_lt.mp ‹¬_›

/-- Whatever the region, its alignment is empty or legal. -/
theorem alignRoiForIvps_legal (roi : Rect Int) (frameW frameH : Int) :
    alignRoiForIvps roi frameW frameH = emptyRect ∨
      Legal frameW frameH (alignRoiForIvps roi frameW frameH) := by
  simp only [alignRoiForIvps]
  split
  · left
    rfl
  · rename_i wide
    obtain ⟨wideW, wideH⟩ := not_or.mp wide
    right
    refine ⟨⟨alignUp_even _, alignUp_even _, ?_, ?_⟩, ⟨Int.not_lt.mp wideW, Int.not_lt.mp wideH⟩,
      ⟨alignUp_start _, alignUp_start _⟩, ⟨cutSide_inside _ _ _, cutSide_inside _ _ _⟩⟩
    · exact cutSide_even (alignUp_even _)
    · exact cutSide_even (alignUp_even _)

theorem cutSide_two : cutSide 0 2 size < 2 ↔ size < 2 := by
  unfold cutSide roundDown
  split
  · omega
  · omega

/-- The empty rectangle becomes the first two by two pixels of a frame that has them. -/
theorem alignRoiForIvps_empty :
    alignRoiForIvps emptyRect frameW frameH = emptyRect ↔ frameW < 2 ∨ frameH < 2 := by
  have start : alignUp (max 0 0) = 0 := by decide
  have least : alignUp (max 2 0) = 2 := by decide
  simp only [alignRoiForIvps, emptyRect, start, least, cutSide_two]
  constructor
  · intro same
    by_contra large
    rw [if_neg large] at same
    have none_left : cutSide 0 2 frameW = 0 := congrArg Rect.width same
    have narrow : frameW < 2 := cutSide_two.mp (by omega)
    exact large (Or.inl narrow)
  · intro small
    rw [if_pos small]

end Alignment

section Boxes

variable {F : Type u} [Rounding F]

/-- The region of a box as the hardware gets it. -/
def hardwareRoi (box : Rect F) (expandRatio : F) (frameW frameH minSide : Int) : Rect Int :=
  alignRoiForIvps (computeExpandedRoi box expandRatio frameW frameH minSide) frameW frameH

/-- The boxes that `ComputeExpandedRoi` rejects whatever the frame. -/
def Rejected (box : Rect F) (expandRatio : F) : Prop :=
  hasExtent box = false ∨ Scalar.le expandRatio (Scalar.ofRat 0) = true

/-- The region is empty or legal, and nothing is cropped for a rejected box. -/
structure RoiSafe (rejected : Prop) (box : Rect F) (expandRatio : F) (frameW frameH minSide : Int) :
    Prop where
  legal : hardwareRoi box expandRatio frameW frameH minSide = emptyRect ∨
    Legal frameW frameH (hardwareRoi box expandRatio frameW frameH minSide)
  empty : rejected → hardwareRoi box expandRatio frameW frameH minSide = emptyRect
  uncropped : rejected → ∀ frame : HwFrame, frame.size = (frameW, frameH) →
    hwRoiCrop (some frame) box expandRatio minSide = none

theorem computeExpandedRoi_rejected {box : Rect F} {expandRatio : F}
    (rejected : Rejected box expandRatio) (frameW frameH minSide : Int) :
    computeExpandedRoi box expandRatio frameW frameH minSide = emptyRect := by
  rw [computeExpandedRoi]
  rcases rejected with flat | shrunk
  · rw [flat]
    split
    · rfl
    · rfl
  · rw [if_pos (Or.inr (Or.inr shrunk))]

/-- Nothing is cropped of a frame where the region of the box is empty. -/
theorem hwRoiCrop_empty {box : Rect F} {expandRatio : F} {frameW frameH minSide : Int}
    (empty : hardwareRoi box expandRatio frameW frameH minSide = emptyRect) {frame : HwFrame}
    (sized : frame.size = (frameW, frameH)) :
    hwRoiCrop (some frame) box expandRatio minSide = none := by
  have none_left : isEmpty emptyRect = true := by decide
  rw [hardwareRoi] at empty
  simp only [hwRoiCrop, sized, empty, none_left, if_true, ite_self]

theorem safe_iff {rejected : Prop} {box : Rect F} {expandRatio : F}
    (rejects : rejected → Rejected box expandRatio) (frameW frameH minSide : Int) :
    RoiSafe rejected box expandRatio frameW frameH minSide ↔
      ¬rejected ∨ frameW < 2 ∨ frameH < 2 := by
  have region (h : rejected) : hardwareRoi box expandRatio frameW frameH minSide = emptyRect ↔
      frameW < 2 ∨ frameH < 2 := by
    rw [hardwareRoi, computeExpandedRoi_rejected (rejects h)]
    exact alignRoiForIvps_empty
  constructor
  · intro safe
    by_cases h : rejected
    · exact Or.inr ((region h).mp (safe.empty h))
    · exact Or.inl h
  · intro cond
    have empty (h : rejected) : hardwareRoi box expandRatio frameW frameH minSide = emptyRect :=
      (region h).mpr (cond.resolve_left fun kept => kept h)
    exact ⟨alignRoiForIvps_legal _ _ _, empty, fun h _ sized => hwRoiCrop_empty (empty h) sized⟩

/-- The region of a box is safe if and only if the box has an extent or the frame
is too small for any region; where a ratio that is not positive counts as a rejection too,
the ratio is to be positive as well. -/
theorem roi_safe_iff (box : Rect F) (expandRatio : F) (frameW frameH minSide : Int) :
    (RoiSafe (hasExtent box = false) box expandRatio frameW frameH minSide ↔
      hasExtent box = true ∨ frameW < 2 ∨ frameH < 2) ∧
    (RoiSafe (Rejected box expandRatio) box expandRatio frameW frameH minSide ↔
      hasExtent box = true ∧ Scalar.le expandRatio (Scalar.ofRat 0) = false ∨
        frameW < 2 ∨ frameH < 2) := by
  constructor
  · rw [safe_iff Or.inl, Bool.not_eq_false]
  · rw [safe_iff id, Rejected, not_or, Bool.not_eq_false, Bool.not_eq_true]

/-- A box of no width crops the corner of the frame. -/
theorem flatBox_cropped :
    ¬∀ (box : Rect ℚ) (expandRatio : ℚ) (frameW frameH minSide : Int), 0 < frameW → 0 < frameH →
      RoiSafe (hasExtent box = false) box expandRatio frameW frameH minSide := by
  intro safe
  have flat : hasExtent (⟨50, 50, 0, 8⟩ : Rect ℚ) = false := by decide
  have empty := (safe ⟨50, 50, 0, 8⟩ (3 / 2) 100 100 112 (by decide) (by decide)).empty flat
  rw [hardwareRoi, computeExpandedRoi_rejected (Or.inl flat), alignRoiForIvps_empty] at empty
  exact absurd empty (by decide)

end Boxes

section Exact

variable {low high size start side expandRatio : ℚ} {frameSide frameW frameH : Int}

theorem expandedSide_pos (wide : 0 < side) (ratio : 0 < expandRatio) (frameSide minSide : Int) :
    0 < expandedSide side expandRatio frameSide minSide := by
  have expanded : 0 < side * expandRatio := mul_pos wide ratio
  simp only [expandedSide]
  split
  · rw [stdMax_rat]
    exact lt_max_of_lt_left expanded
  · exact expanded

/-- An interval that is not empty is not empty after the shift, and inside the frame. -/
theorem shiftIntoFrame_inside (some : low < high) (frame : 0 < size) :
    0 ≤ (shiftIntoFrame low high size).1 ∧
      (shiftIntoFrame low high size).1 < (shiftIntoFrame low high size).2 ∧
      (shiftIntoFrame low high size).2 ≤ size := by
  simp only [shiftIntoFrame, lt_rat, decide_eq_true_eq, stdMax_rat, stdMin_rat, ofRat_rat]
  have between {l h : ℚ} (some : l < h) (pos : 0 < h) (left : l < size) :
      max 0 l < min size h := max_lt (lt_min frame pos) (lt_min left some)
  refine ⟨le_max_left _ _, ?_, min_le_left _ _⟩
  split
  · have pos : 0 < high - low := sub_pos.mpr some
    split
    · exact between (by linarith) frame (by linarith)
    · exact between pos pos frame
  · have pos : 0 < high := by linarith
    split
    · exact between (by linarith) frame (by linarith)
    · exact between some pos (by linarith)

theorem toInt_whole (n : Int) : Scalar.toInt (n : ℚ) = n := by
  simp only [Scalar.toInt, Rat.num_intCast, Rat.den_intCast, Nat.cast_one, Int.tdiv_one]

/-- In exact arithmetic one axis of the region of an accepted box has a pixel, and
all its pixels are in the frame. -/
theorem expandedAxis_inside (wide : 0 < side) (ratio : 0 < expandRatio) (frame : 0 < frameSide)
    (start : ℚ) (minSide : Int) :
    0 ≤ (expandedAxis start side expandRatio frameSide minSide).1 ∧
      1 ≤ (expandedAxis start side expandRatio frameSide minSide).2 ∧
      (expandedAxis start side expandRatio frameSide minSide).1 +
        (expandedAxis start side expandRatio frameSide minSide).2 ≤ frameSide := by
  have wanted := expandedSide_pos wide ratio frameSide minSide
  have spread : start + side * (1 / 2) - expandedSide side expandRatio frameSide minSide * (1 / 2) <
      start + side * (1 / 2) + expandedSide side expandRatio frameSide minSide * (1 / 2) := by
    linarith
  have sized : (0 : ℚ) < frameSide := Int.cast_pos.mpr frame
  obtain ⟨corner, some, inside⟩ := shiftIntoFrame_inside spread sized
  simp only [expandedAxis, ofRat_rat, Rounding.ofInt, Rounding.floor, Rounding.ceil, toInt_whole,
    ← Int.cast_sub]
  have first := Int.floor_nonneg.mpr corner
  have last := Int.ceil_le.mpr inside
  have length := Int.cast_lt.mp ((Int.floor_le _).trans_lt (some.trans_le (Int.le_ceil _)))
  omega

theorem hasExtent_iff {box : Rect ℚ} : hasExtent box = true ↔ 0 < box.width ∧ 0 < box.height := by
  simp only [hasExtent, le_rat, ofRat_rat, Bool.and_eq_true, Bool.not_eq_true',
    decide_eq_false_iff_not, not_le]

end Exact

end FaceRegions
