import AxVision.DetectionSorts
import AxVision.GreedySuppression
import Mathlib.Data.List.FinRange
import Mathlib.Data.Rat.Floor
import Mathlib.Tactic.FieldSimp
import Mathlib.Tactic.Linarith

/-!
# The boxes of a frame

`get_out_bbox` ends the decoding of the detectors: it sorts the proposals, drops
those that overlap a better one, and moves the boxes from the letterboxed picture
back into the frame.
-/

namespace DetectionBoxes

open DetectionTypes DetectionSorts GreedySuppression RangePermutations

universe u v

/-- OpenCV's `a & b` on float rectangles and the conversion to `float`. -/
structure Platform (F : Type u) (D : Type v) where
  intersection : Rect F → Rect F → Rect F
  narrow : D → F

section Boxes

variable {F : Type} {D : Type v} [Scalar F] (platform : Platform F D) {n : Nat}

def intersectionArea (a b : Object F) : F := (platform.intersection a.rect b.rect).area

/-- Does the object `b` that is picked suppress `a`? -/
def overlaps (nmsThreshold : F) (b a : Object F) : Bool :=
  let interArea := intersectionArea platform a b
  let unionArea := a.rect.area + b.rect.area - interArea
  Scalar.lt nmsThreshold (interArea / unionArea)

/-- `nms_sorted_bboxes` -/
def nmsSortedBboxes (nmsThreshold : F) (faceobjects : Fin n → Object F) : List (Fin n) :=
  (List.finRange n).foldl
    (fun picked i =>
      if picked.any fun j => overlaps platform nmsThreshold (faceobjects j) (faceobjects i) then
        picked
      else picked ++ [i])
    []

/-- The place of the picture in the letterbox, and the factors back. -/
structure Letterbox (F : Type u) where
  resizeRows : Int
  resizeCols : Int
  tmpH : Int
  tmpW : Int
  ratioX : F
  ratioY : F

variable [Scalar D]

def scaleLetterbox (letterboxRows letterboxCols srcRows srcCols : Int) : F :=
  let rows : D := ofInt letterboxRows * Scalar.ofRat 1 / ofInt srcRows
  let cols : D := ofInt letterboxCols * Scalar.ofRat 1 / ofInt srcCols
  if Scalar.lt rows cols then platform.narrow rows else platform.narrow cols

def letterbox (letterboxRows letterboxCols srcRows srcCols : Int) : Letterbox F :=
  let scale := scaleLetterbox platform letterboxRows letterboxCols srcRows srcCols
  let resizeCols := Scalar.toInt (scale * ofInt srcCols)
  let resizeRows := Scalar.toInt (scale * ofInt srcRows)
  { resizeRows := resizeRows
    resizeCols := resizeCols
    tmpH := (letterboxRows - resizeRows).tdiv 2
    tmpW := (letterboxCols - resizeCols).tdiv 2
    ratioX := ofInt srcRows / ofInt resizeRows
    ratioY := ofInt srcCols / ofInt resizeCols }

def clamp (side : Int) (x : F) : F := stdMax (stdMin x (ofInt (side - 1))) (Scalar.ofRat 0)

def backX (l : Letterbox F) (x : F) : F := (x - ofInt l.tmpW) * l.ratioX

def backY (l : Letterbox F) (y : F) : F := (y - ofInt l.tmpH) * l.ratioY

/-- One turn of the loop over the picked objects. -/
def toSource (l : Letterbox F) (srcRows srcCols : Int) (o : Object F) : Object F :=
  let x0 := clamp srcCols (backX l o.rect.x)
  let y0 := clamp srcRows (backY l o.rect.y)
  let x1 := clamp srcCols (backX l (o.rect.x + o.rect.width))
  let y1 := clamp srcRows (backY l (o.rect.y + o.rect.height))
  { o with
    rect := ⟨x0, y0, x1 - x0, y1 - y0⟩
    landmark := o.landmark.map fun p => ⟨backX l p.x, backY l p.y⟩ }

/-- `get_out_bbox` -/
def getOutBbox (leftFirst : Int → Int → Bool) (proposals : Fin n → Object F) (nmsThreshold : F)
    (letterboxRows letterboxCols srcRows srcCols : Int) : Option (List (Object F)) :=
  (qsortDescentInplace Object.prob leftFirst proposals).map fun sorted =>
    let l := letterbox platform letterboxRows letterboxCols srcRows srcCols
    (nmsSortedBboxes platform nmsThreshold sorted).map fun i =>
      toSource l srcRows srcCols (sorted i)

end Boxes

section Suppression

variable {F : Type} {D : Type v} [Scalar F] {platform : Platform F D} {n : Nat}

theorem nmsSortedBboxes_eq (thresh : F) (objects : Fin n → Object F) :
    nmsSortedBboxes platform thresh objects =
      survivors (fun i j => overlaps platform thresh (objects i) (objects j)) []
        (List.finRange n) := by
  have walk : ∀ (l kept : List (Fin n)),
      l.foldl (fun picked i =>
          if picked.any fun j => overlaps platform thresh (objects j) (objects i) then picked
          else picked ++ [i]) kept =
        survivors (fun i j => overlaps platform thresh (objects i) (objects j)) kept l := by
    intro l
    induction l with
    | nil => exact fun _ => rfl
    | cons i rest ih =>
      intro kept
      rw [List.foldl_cons, ih, survivors]
      split
      · rfl
      · rfl
  exact walk (List.finRange n) []

/-- The boxes that a frame keeps of its proposals, the best one first. -/
structure Selected (platform : Platform F D) (thresh : F) (proposals : Fin n → Object F)
    (picked : List (Fin n)) : Prop where
  nodup : picked.Nodup
  descending : picked.Pairwise fun i j =>
    Scalar.lt (proposals i).prob (proposals j).prob = false
  apart : picked.Pairwise fun i j => overlaps platform thresh (proposals i) (proposals j) = false
  covered : ∀ i, i ∉ picked → ∃ k ∈ picked,
    overlaps platform thresh (proposals k) (proposals i) = true ∧
      Scalar.lt (proposals k).prob (proposals i).prob = false

/-- On sorted objects the picked ones are a greedy choice. -/
theorem nmsSortedBboxes_selected (thresh : F) {proposals : Fin n → Object F}
    {σ : Equiv.Perm (Fin n)}
    (sorted : ∀ k l : Fin n, k < l →
      Scalar.lt (proposals (σ k)).prob (proposals (σ l)).prob = false) :
    Selected platform thresh proposals
      ((nmsSortedBboxes platform thresh (proposals ∘ σ)).map σ) := by
  rw [nmsSortedBboxes_eq]
  have ordered : (List.finRange n).Pairwise fun k l =>
      Scalar.lt (proposals (σ k)).prob (proposals (σ l)).prob = false :=
    (List.pairwise_lt_finRange n).imp fun {k l} before => sorted k l before
  have sub := survivors_sublist
    (fun i j => overlaps platform thresh ((proposals ∘ σ) i) ((proposals ∘ σ) j)) []
    (List.finRange n)
  rw [List.nil_append] at sub
  refine ⟨?_, ?_, ?_, ?_⟩
  · exact (sub.nodup (List.nodup_finRange n)).map σ.injective
  · exact List.pairwise_map.mpr (ordered.sublist sub)
  · exact List.pairwise_map.mpr (survivors_apart List.Pairwise.nil _)
  · intro i dropped
    have gone : σ⁻¹ i ∉ survivors
        (fun i j => overlaps platform thresh ((proposals ∘ σ) i) ((proposals ∘ σ) j)) []
        (List.finRange n) := by
      intro kept
      exact dropped (List.mem_map.mpr ⟨σ⁻¹ i, kept, by simp⟩)
    obtain ⟨k, kept, hit, above⟩ :=
      survivors_cover (by simpa using ordered) (List.mem_finRange (σ⁻¹ i)) gone
    refine ⟨σ k, List.mem_map_of_mem kept, ?_, ?_⟩
    · simpa using hit
    · simpa using above

/-- The objects of a frame, whichever sections of the sort run first. -/
theorem getOutBbox_picks [Scalar D] (platform : Platform F D) (asymm : Asymmetric F)
    (proposals : Fin n → Object F)
    (thresh : F) (letterboxRows letterboxCols srcRows srcCols : Int) :
    ∃ picked : List (Fin n),
      (∀ leftFirst, getOutBbox platform leftFirst proposals thresh letterboxRows letterboxCols
        srcRows srcCols = some (picked.map fun i =>
          toSource (letterbox platform letterboxRows letterboxCols srcRows srcCols) srcRows srcCols
            (proposals i))) ∧
      (Ranked (Object.prob ∘ proposals) → Selected platform thresh proposals picked) := by
  obtain ⟨σ, run, sorted⟩ := qsort_vector Object.prob asymm proposals
  refine ⟨(nmsSortedBboxes platform thresh (proposals ∘ σ)).map σ, fun leftFirst => ?_,
    fun ranked => nmsSortedBboxes_selected thresh (sorted ranked)⟩
  rw [getOutBbox, run, Option.map_some, List.map_map]
  rfl

end Suppression

section Geometry

/-- A box of the frame. -/
structure InFrame (rows cols : Int) (r : Rect ℚ) : Prop where
  left : 0 ≤ r.x
  top : 0 ≤ r.y
  width : 0 ≤ r.width
  height : 0 ≤ r.height
  right : r.x + r.width ≤ cols - 1
  bottom : r.y + r.height ≤ rows - 1

theorem toInt_floor {q : ℚ} (nonneg : 0 ≤ q) : Scalar.toInt q = ⌊q⌋ := by
  change q.num.tdiv q.den = ⌊q⌋
  rw [Rat.floor_def', Int.tdiv_eq_ediv_of_nonneg (Rat.num_nonneg.mpr nonneg)]

theorem clamp_rat (side : Int) (x : ℚ) : clamp side x = max (min x (side - 1)) 0 := by
  simp [clamp, ofInt]

theorem clamp_mono {side : Int} {x y : ℚ} (le : x ≤ y) : clamp side x ≤ clamp side y := by
  rw [clamp_rat, clamp_rat]
  exact max_le_max_right 0 (min_le_min_right _ le)

theorem clamp_bounds {side : Int} (pos : 0 < side) (x : ℚ) :
    0 ≤ clamp side x ∧ clamp side x ≤ side - 1 := by
  have room : (0 : ℚ) ≤ side - 1 := by
    have : (1 : ℚ) ≤ side := by exact_mod_cast pos
    linarith
  rw [clamp_rat]
  exact ⟨le_max_right _ _, max_le (min_le_right _ _) room⟩

/-- Nothing in the frame is brought away from where it is by the bounds of the frame. -/
theorem clamp_near {side : Int} {x y error : ℚ} (lower : 0 ≤ y) (upper : y ≤ side - 1)
    (low : y ≤ x) (high : x ≤ y + error) : y ≤ clamp side x ∧ clamp side x ≤ y + error := by
  rw [clamp_rat]
  exact ⟨le_max_of_le_left (le_min low upper),
    max_le ((min_le_left _ _).trans high) (by linarith only [lower, low, high])⟩

/-- What is laid down by the exact scale and taken up by the rounded one comes back
a little further out. -/
theorem rescaled_near {scale side resize x : ℚ} (pos : 0 < resize) (lower : resize ≤ scale * side)
    (upper : scale * side ≤ resize + 1) (nonneg : 0 ≤ x) :
    x ≤ x * scale * (side / resize) ∧ x * scale * (side / resize) ≤ x + x / resize := by
  have whole : x * scale * (side / resize) = x * (scale * side) / resize := by ring
  have unit : x + x / resize = x * (resize + 1) / resize := by
    field_simp
  rw [whole, unit]
  constructor
  · rw [le_div_iff₀ pos]
    exact mul_le_mul_of_nonneg_left lower nonneg
  · exact div_le_div_of_nonneg_right (mul_le_mul_of_nonneg_left upper nonneg) pos.le

variable {platform : Platform ℚ ℚ} {letterboxRows letterboxCols srcRows srcCols : Int} {n : Nat}

/-- A frame with sides, of which none is so long that the letterbox loses the other. -/
structure Shaped (letterboxRows letterboxCols srcRows srcCols : Int) : Prop where
  rows : 0 < srcRows
  cols : 0 < srcCols
  wide : srcCols ≤ letterboxCols * srcRows
  high : srcRows ≤ letterboxRows * srcCols

theorem scaleLetterbox_rat (exact : ∀ x, platform.narrow x = x) :
    scaleLetterbox platform letterboxRows letterboxCols srcRows srcCols =
      min ((letterboxRows : ℚ) / srcRows) ((letterboxCols : ℚ) / srcCols) := by
  simp only [scaleLetterbox, ofInt, ofRat_rat, mul_one, lt_rat, decide_eq_true_eq, exact]
  split
  · next lt => exact (min_eq_left lt.le).symm
  · next le => exact (min_eq_right (not_lt.mp le)).symm

/-- A scale whose rounded sides give the factors back. -/
structure Fitted (srcRows srcCols : Int) (scale : ℚ) (l : Letterbox ℚ) : Prop where
  rows : 0 < srcRows
  cols : 0 < srcCols
  rows_pos : 0 < (l.resizeRows : ℚ)
  rows_le : (l.resizeRows : ℚ) ≤ scale * srcRows
  le_rows : scale * srcRows ≤ l.resizeRows + 1
  cols_pos : 0 < (l.resizeCols : ℚ)
  cols_le : (l.resizeCols : ℚ) ≤ scale * srcCols
  le_cols : scale * srcCols ≤ l.resizeCols + 1
  ratioX : l.ratioX = srcRows / l.resizeRows
  ratioY : l.ratioY = srcCols / l.resizeCols

theorem letterbox_fitted (shaped : Shaped letterboxRows letterboxCols srcRows srcCols)
    (exact : ∀ x, platform.narrow x = x) :
    Fitted srcRows srcCols (scaleLetterbox platform letterboxRows letterboxCols srcRows srcCols)
      (letterbox platform letterboxRows letterboxCols srcRows srcCols) := by
  obtain ⟨rows, cols, wide, high⟩ := shaped
  have rows' : (0 : ℚ) < srcRows := by exact_mod_cast rows
  have cols' : (0 : ℚ) < srcCols := by exact_mod_cast cols
  have wide' : (srcCols : ℚ) ≤ letterboxCols * srcRows := by exact_mod_cast wide
  have high' : (srcRows : ℚ) ≤ letterboxRows * srcCols := by exact_mod_cast high
  have tall : 0 < letterboxRows := by
    by_contra none
    have := mul_nonpos_of_nonpos_of_nonneg (not_lt.mp none) cols.le
    omega
  have broad : 0 < letterboxCols := by
    by_contra none
    have := mul_nonpos_of_nonpos_of_nonneg (not_lt.mp none) rows.le
    omega
  have tall' : (1 : ℚ) ≤ letterboxRows := by exact_mod_cast tall
  have broad' : (1 : ℚ) ≤ letterboxCols := by exact_mod_cast broad
  have byRows : 1 / (srcRows : ℚ) ≤
      scaleLetterbox platform letterboxRows letterboxCols srcRows srcCols := by
    rw [scaleLetterbox_rat exact]
    refine le_min (div_le_div_of_nonneg_right tall' rows'.le) ?_
    rw [div_le_div_iff₀ rows' cols', one_mul]
    exact wide'
  have byCols : 1 / (srcCols : ℚ) ≤
      scaleLetterbox platform letterboxRows letterboxCols srcRows srcCols := by
    rw [scaleLetterbox_rat exact]
    refine le_min ?_ (div_le_div_of_nonneg_right broad' cols'.le)
    rw [div_le_div_iff₀ cols' rows', one_mul]
    exact high'
  have side : ∀ (scale : ℚ) (side : Int), 0 < (side : ℚ) → 1 / (side : ℚ) ≤ scale →
      0 < ((Scalar.toInt (scale * ofInt side) : Int) : ℚ) ∧
        ((Scalar.toInt (scale * ofInt side) : Int) : ℚ) ≤ scale * side ∧
        scale * side ≤ ((Scalar.toInt (scale * ofInt side) : Int) : ℚ) + 1 := by
    intro scale side pos least
    have one : 1 ≤ scale * side := (div_le_iff₀ pos).mp least
    have floor : Scalar.toInt (scale * ofInt side) = ⌊scale * (side : ℚ)⌋ :=
      toInt_floor (zero_le_one.trans one)
    have whole : (1 : Int) ≤ ⌊scale * (side : ℚ)⌋ := Int.le_floor.mpr (by simpa using one)
    rw [floor]
    exact ⟨by exact_mod_cast whole, Int.floor_le _, (Int.lt_floor_add_one _).le⟩
  obtain ⟨rows_pos, rows_le, le_rows⟩ := side _ srcRows rows' byRows
  obtain ⟨cols_pos, cols_le, le_cols⟩ := side _ srcCols cols' byCols
  exact ⟨rows, cols, rows_pos, rows_le, le_rows, cols_pos, cols_le, le_cols, rfl, rfl⟩

/-- A box of the frame where the letterbox shows it. -/
def placed (scale : ℚ) (l : Letterbox ℚ) (r : Rect ℚ) : Rect ℚ :=
  ⟨r.x * scale + l.tmpW, r.y * scale + l.tmpH, r.width * scale, r.height * scale⟩

/-- A box of the frame and what came back of it. Columns come back by the factor of
the rows, and rows by that of the columns. -/
structure Near (l : Letterbox ℚ) (r r' : Rect ℚ) : Prop where
  left : r.x ≤ r'.x ∧ r'.x ≤ r.x + r.x / l.resizeRows
  top : r.y ≤ r'.y ∧ r'.y ≤ r.y + r.y / l.resizeCols
  right : r.x + r.width ≤ r'.x + r'.width ∧
    r'.x + r'.width ≤ r.x + r.width + (r.x + r.width) / l.resizeRows
  bottom : r.y + r.height ≤ r'.y + r'.height ∧
    r'.y + r'.height ≤ r.y + r.height + (r.y + r.height) / l.resizeCols

section Fitted

variable {scale : ℚ} {l : Letterbox ℚ} {o : Object ℚ}

theorem toSource_inFrame (fitted : Fitted srcRows srcCols scale l) (width : 0 ≤ o.rect.width)
    (height : 0 ≤ o.rect.height) : InFrame srcRows srcCols (toSource l srcRows srcCols o).rect := by
  have rows : (0 : ℚ) ≤ srcRows := by exact_mod_cast fitted.rows.le
  have cols : (0 : ℚ) ≤ srcCols := by exact_mod_cast fitted.cols.le
  have across : backX l o.rect.x ≤ backX l (o.rect.x + o.rect.width) := by
    rw [backX, backX, fitted.ratioX]
    refine mul_le_mul_of_nonneg_right ?_ (div_nonneg rows fitted.rows_pos.le)
    linarith only [width]
  have down : backY l o.rect.y ≤ backY l (o.rect.y + o.rect.height) := by
    rw [backY, backY, fitted.ratioY]
    refine mul_le_mul_of_nonneg_right ?_ (div_nonneg cols fitted.cols_pos.le)
    linarith only [height]
  refine ⟨(clamp_bounds fitted.cols _).1, (clamp_bounds fitted.rows _).1,
    sub_nonneg.mpr (clamp_mono across), sub_nonneg.mpr (clamp_mono down), ?_, ?_⟩
  · exact (add_sub_cancel _ _).le.trans (clamp_bounds fitted.cols _).2
  · exact (add_sub_cancel _ _).le.trans (clamp_bounds fitted.rows _).2

theorem backX_near (fitted : Fitted srcRows srcCols scale l) {x : ℚ} (low : 0 ≤ x)
    (high : x ≤ srcCols - 1) :
    x ≤ clamp srcCols (backX l (x * scale + l.tmpW)) ∧
      clamp srcCols (backX l (x * scale + l.tmpW)) ≤ x + x / l.resizeRows := by
  obtain ⟨near, near'⟩ := rescaled_near fitted.rows_pos fitted.rows_le fitted.le_rows low
  rw [backX, ofInt, ofRat_rat, add_sub_cancel_right, fitted.ratioX]
  exact clamp_near low high near near'

theorem backY_near (fitted : Fitted srcRows srcCols scale l) {y : ℚ} (low : 0 ≤ y)
    (high : y ≤ srcRows - 1) :
    y ≤ clamp srcRows (backY l (y * scale + l.tmpH)) ∧
      clamp srcRows (backY l (y * scale + l.tmpH)) ≤ y + y / l.resizeCols := by
  obtain ⟨near, near'⟩ := rescaled_near fitted.cols_pos fitted.cols_le fitted.le_cols low
  rw [backY, ofInt, ofRat_rat, add_sub_cancel_right, fitted.ratioY]
  exact clamp_near low high near near'

theorem toSource_near (fitted : Fitted srcRows srcCols scale l) {r : Rect ℚ}
    (inside : InFrame srcRows srcCols r) (shown : o.rect = placed scale l r) :
    Near l r (toSource l srcRows srcCols o).rect := by
  obtain ⟨left, top, width, height, right, bottom⟩ := inside
  have right_eq : o.rect.x + o.rect.width = (r.x + r.width) * scale + l.tmpW := by
    rw [shown, placed]
    ring
  have bottom_eq : o.rect.y + o.rect.height = (r.y + r.height) * scale + l.tmpH := by
    rw [shown, placed]
    ring
  have x : o.rect.x = r.x * scale + l.tmpW := by rw [shown, placed]
  have y : o.rect.y = r.y * scale + l.tmpH := by rw [shown, placed]
  have farX := backX_near fitted (add_nonneg left width) right
  have farY := backY_near fitted (add_nonneg top height) bottom
  rw [← right_eq] at farX
  rw [← bottom_eq] at farY
  refine ⟨?_, ?_, ?_, ?_⟩
  · have nearX := backX_near fitted left ((le_add_of_nonneg_right width).trans right)
    rwa [← x] at nearX
  · have nearY := backY_near fitted top ((le_add_of_nonneg_right height).trans bottom)
    rwa [← y] at nearY
  · simpa only [toSource, add_sub_cancel] using farX
  · simpa only [toSource, add_sub_cancel] using farY

end Fitted

theorem ranked_rat (s : Fin n → ℚ) : Ranked s := by
  intro i j k lt
  simp only [lt_rat, decide_eq_true_eq] at lt ⊢
  exact (lt_or_ge (s i) (s j)).imp_right fun above => above.trans_lt lt

/-- The objects of a frame are a greedy choice of the proposals, the best first. Their
boxes are within the frame, and a box that was shown in the letterbox comes back
to where it was, but for what the rounded sides of the letterboxed picture cost. -/
theorem getOutBbox_frame (shaped : Shaped letterboxRows letterboxCols srcRows srcCols)
    (exact : ∀ x, platform.narrow x = x) (proposals : Fin n → Object ℚ) (thresh : ℚ)
    (sizes : ∀ i, 0 ≤ (proposals i).rect.width ∧ 0 ≤ (proposals i).rect.height) :
    let scale := scaleLetterbox platform letterboxRows letterboxCols srcRows srcCols
    let l := letterbox platform letterboxRows letterboxCols srcRows srcCols
    ∃ picked : List (Fin n), Selected platform thresh proposals picked ∧
      (∀ leftFirst, getOutBbox platform leftFirst proposals thresh letterboxRows letterboxCols
        srcRows srcCols = some (picked.map fun i => toSource l srcRows srcCols (proposals i))) ∧
      (∀ i, InFrame srcRows srcCols (toSource l srcRows srcCols (proposals i)).rect) ∧
      ∀ i r, InFrame srcRows srcCols r → (proposals i).rect = placed scale l r →
        Near l r (toSource l srcRows srcCols (proposals i)).rect := by
  intro scale l
  obtain ⟨picked, run, selected⟩ := getOutBbox_picks platform asymmetric_rat proposals thresh
    letterboxRows letterboxCols srcRows srcCols
  have fitted : Fitted srcRows srcCols scale l := letterbox_fitted shaped exact
  exact ⟨picked, selected (ranked_rat _), run,
    fun i => toSource_inFrame fitted (sizes i).1 (sizes i).2,
    fun i r inside shown => toSource_near fitted inside shown⟩

/-- `a & b` of float rectangles, in exact arithmetic. -/
def exactPlatform : Platform ℚ ℚ where
  intersection a b :=
    let x := max a.x b.x
    let y := max a.y b.y
    let width := min (a.x + a.width) (b.x + b.width) - x
    let height := min (a.y + a.height) (b.y + b.height) - y
    if width ≤ 0 ∨ height ≤ 0 then ⟨0, 0, 0, 0⟩ else ⟨x, y, width, height⟩
  narrow x := x

/-- Two faces that overlap, in the letterbox of a frame of 1920 columns and 1080 rows. -/
def twoFaces (i : Fin 2) : Object ℚ where
  rect := ⟨100 + 10 * (i : Nat), 200, 40, 40⟩
  label := 0
  prob := 3 / 4 + (i : Nat) / 10
  landmark := Vector.replicate 5 ⟨0, 0⟩
  mask := []
  maskFeat := []
  kpsFeat := []
  angle := 0
  modelName := ""
  labelName := "face"

theorem twoFaces_frame :
    let scale := scaleLetterbox exactPlatform 640 640 1080 1920
    let l := letterbox exactPlatform 640 640 1080 1920
    ∃ picked : List (Fin 2), Selected exactPlatform (9 / 20) twoFaces picked ∧
      (∀ leftFirst, getOutBbox exactPlatform leftFirst twoFaces (9 / 20) 640 640 1080 1920 =
        some (picked.map fun i => toSource l 1080 1920 (twoFaces i))) ∧
      (∀ i, InFrame 1080 1920 (toSource l 1080 1920 (twoFaces i)).rect) ∧
      ∀ i r, InFrame 1080 1920 r → (twoFaces i).rect = placed scale l r →
        Near l r (toSource l 1080 1920 (twoFaces i)).rect :=
  getOutBbox_frame ⟨by decide, by decide, by decide, by decide⟩ (fun _ => rfl) twoFaces (9 / 20)
    fun _ => by norm_num [twoFaces]

end Geometry

end DetectionBoxes
