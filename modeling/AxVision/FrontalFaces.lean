import AxVision.FaceAlignments

/-!
# How frontal a face is

The metrics are measured along the line of the eyes and divided by its length. The
decision compares them with a configuration, the score weighs them. In exact
arithmetic they are followed through a similarity of the picture.
-/

namespace FrontalFaces

open DetectionTypes FaceAlignments
open scoped RealArithmetic

universe u

-- The literal of a half.
scoped instance half : Nat.AtLeastTwo 2 := ⟨le_rfl⟩

/-- What is used of the mathematical library. -/
structure MathLibrary (F : Type u) where
  sqrt : F → F
  atan2 : F → F → F

structure FrontalConfig (F : Type u) where
  minEyeDist : F
  maxRollDeg : F
  maxYawProxy : F
  minSym : F
  minPitchProxy : F
  maxPitchProxy : F

structure FrontalScoreConfig (F : Type u) where
  yawRef : F
  rollRef : F
  eyeRef : F
  pitchLo : F
  pitchHi : F
  wYaw : F
  wRoll : F
  wSym : F
  wEye : F
  wPitch : F

/-- `valid` is also what `ComputeFrontalMetrics` returns. -/
structure FrontalMetrics (F : Type u) where
  eyeDist : F
  rollDeg : F
  yawProxy : F
  pitchProxy : F
  sym : F
  valid : Bool

section Metrics

variable {F : Type u} [Scalar F] (lib : MathLibrary F)

def zero : F := Scalar.ofRat 0

def one : F := Scalar.ofRat 1

/-- `std::abs` and `std::fabs` -/
def fabs (x : F) : F := if Scalar.lt x zero then zero - x else x

def clamp01 (x : F) : F := stdMax zero (stdMin one x)

/-- 1 within the interval, falling to 0 within half its length on either side. -/
def pitchGoodness (pitch lo hi : F) : F :=
  if Scalar.le hi lo then zero
  else if Scalar.le lo pitch && Scalar.le pitch hi then one
  else
    let half := Scalar.ofRat (1 / 2) * (hi - lo)
    if Scalar.lt half (Scalar.ofRat (1 / 1000000)) then zero
    else if Scalar.lt pitch lo then clamp01 (one - (lo - pitch) / half)
    else clamp01 (one - (pitch - hi) / half)

/-- `FrontalMetrics{}` -/
def noMetrics : FrontalMetrics F := ⟨zero, zero, zero, zero, zero, false⟩

def computeFrontalMetrics (landmark : Option (Fin 5 → Point2f F)) : FrontalMetrics F :=
  match landmark with
  | none => noMetrics
  | some p =>
    let half := Scalar.ofRat (1 / 2)
    let mouthX := ((p 3).x + (p 4).x) * half
    let mouthY := ((p 3).y + (p 4).y) * half
    let dx := (p 1).x - (p 0).x
    let dy := (p 1).y - (p 0).y
    let eyeDist := lib.sqrt (dx * dx + dy * dy)
    if Scalar.lt eyeDist (Scalar.ofRat (1 / 1000)) then noMetrics
    else
      let midX := half * ((p 0).x + (p 1).x)
      let midY := half * ((p 0).y + (p 1).y)
      let c := dx / eyeDist
      let s := dy / eyeDist
      let noseXEye := c * ((p 2).x - midX) + s * ((p 2).y - midY)
      let mouthYEye := (zero - s) * (mouthX - midX) + c * (mouthY - midY)
      let leftH := fabs (c * ((p 0).x - (p 2).x) + s * ((p 0).y - (p 2).y))
      let rightH := fabs (c * ((p 1).x - (p 2).x) + s * ((p 1).y - (p 2).y))
      let hMax := stdMax leftH rightH
      let sym :=
        if Scalar.lt hMax (Scalar.ofRat (1 / 1000)) then zero else stdMin leftH rightH / hMax
      { eyeDist := eyeDist
        rollDeg :=
          lib.atan2 dy dx * (Scalar.ofRat 180 / Scalar.ofRat (314159265358979323846 / 10 ^ 20))
        yawProxy := noseXEye / eyeDist
        pitchProxy := mouthYEye / eyeDist
        sym := sym
        valid := true }

/-- `usePitch` is `AX_FACE_FRONTAL_USE_PITCH`. -/
def isFrontalFace (usePitch : Bool) (cfg : FrontalConfig F)
    (landmark : Option (Fin 5 → Point2f F)) : Bool :=
  let m := computeFrontalMetrics lib landmark
  if !m.valid then false
  else if Scalar.lt m.eyeDist cfg.minEyeDist then false
  else if Scalar.lt cfg.maxRollDeg (fabs m.rollDeg) then false
  else if Scalar.lt cfg.maxYawProxy (fabs m.yawProxy) then false
  else if Scalar.lt m.sym cfg.minSym then false
  else if usePitch && (Scalar.lt m.pitchProxy cfg.minPitchProxy ||
      Scalar.lt cfg.maxPitchProxy m.pitchProxy) then false
  else true

def computeFrontalScore (cfg : FrontalScoreConfig F) (landmark : Option (Fin 5 → Point2f F)) : F :=
  let m := computeFrontalMetrics lib landmark
  if !m.valid then zero
  else
    let least := Scalar.ofRat (1 / 1000)
    let sYaw := clamp01 (one - fabs m.yawProxy / stdMax cfg.yawRef least)
    let sRoll := clamp01 (one - fabs m.rollDeg / stdMax cfg.rollRef least)
    let sSym := clamp01 m.sym
    let sEye := clamp01 (m.eyeDist / stdMax cfg.eyeRef least)
    let score := cfg.wYaw * sYaw + cfg.wRoll * sRoll + cfg.wSym * sSym + cfg.wEye * sEye
    if Scalar.lt zero cfg.wPitch then
      clamp01 (score + cfg.wPitch * pitchGoodness m.pitchProxy cfg.pitchLo cfg.pitchHi)
    else clamp01 score

end Metrics

section Reals

noncomputable def realLibrary : MathLibrary ℝ where
  sqrt := Real.sqrt
  atan2 y x := Complex.arg ⟨x, y⟩

@[simp] theorem zero_real : (zero : ℝ) = 0 := Rat.cast_zero

@[simp] theorem one_real : (one : ℝ) = 1 := Rat.cast_one

@[simp] theorem lt_real (a b : ℝ) : Scalar.lt a b = decide (a < b) := rfl

@[simp] theorem le_real (a b : ℝ) : Scalar.le a b = decide (a ≤ b) := rfl

@[simp] theorem fabs_real (x : ℝ) : fabs x = |x| := by
  simp only [fabs, lt_real, zero_real, zero_sub, decide_eq_true_eq]
  split_ifs with negative
  · exact (abs_of_neg negative).symm
  · exact (abs_of_nonneg (not_lt.mp negative)).symm

@[simp] theorem stdMax_real (a b : ℝ) : stdMax a b = max a b := by
  simp only [stdMax, lt_real, decide_eq_true_eq]
  split_ifs with less
  · exact (max_eq_right less.le).symm
  · exact (max_eq_left (not_lt.mp less)).symm

@[simp] theorem stdMin_real (a b : ℝ) : stdMin a b = min a b := by
  simp only [stdMin, lt_real, decide_eq_true_eq]
  split_ifs with less
  · exact (min_eq_right less.le).symm
  · exact (min_eq_left (not_lt.mp less)).symm

theorem clamp01_real (x : ℝ) : clamp01 x = max 0 (min 1 x) := by
  rw [clamp01, stdMax_real, stdMin_real, zero_real, one_real]

theorem clamp01_mono {x y : ℝ} (h : x ≤ y) : clamp01 x ≤ clamp01 y := by
  rw [clamp01_real, clamp01_real]
  gcongr

theorem clamp01_bounds (x : ℝ) : 0 ≤ clamp01 x ∧ clamp01 x ≤ 1 := by
  rw [clamp01_real]
  exact ⟨le_max_left _ _, max_le zero_le_one (min_le_left _ _)⟩

end Reals

section Faces

variable {p : Fin 5 → Point2f ℝ}

/-- From the left eye to the right one. -/
def eyeLine (p : Fin 5 → Point2f ℝ) : ℝ × ℝ := ((p 1).x - (p 0).x, (p 1).y - (p 0).y)

noncomputable def eyeDistance (p : Fin 5 → Point2f ℝ) : ℝ :=
  Real.sqrt ((eyeLine p).1 * (eyeLine p).1 + (eyeLine p).2 * (eyeLine p).2)

/-- How far a vector goes along the line of the eyes, and how far down from it. -/
noncomputable def alongEyes (p : Fin 5 → Point2f ℝ) (v : ℝ × ℝ) : ℝ :=
  (eyeLine p).1 / eyeDistance p * v.1 + (eyeLine p).2 / eyeDistance p * v.2

noncomputable def belowEyes (p : Fin 5 → Point2f ℝ) (v : ℝ × ℝ) : ℝ :=
  -((eyeLine p).2 / eyeDistance p) * v.1 + (eyeLine p).1 / eyeDistance p * v.2

def toNose (p : Fin 5 → Point2f ℝ) (i : Fin 5) : ℝ × ℝ := ((p i).x - (p 2).x, (p i).y - (p 2).y)

noncomputable def noseOff (p : Fin 5 → Point2f ℝ) : ℝ × ℝ :=
  ((p 2).x - 1 / 2 * ((p 0).x + (p 1).x), (p 2).y - 1 / 2 * ((p 0).y + (p 1).y))

noncomputable def mouthOff (p : Fin 5 → Point2f ℝ) : ℝ × ℝ :=
  (((p 3).x + (p 4).x) * (1 / 2) - 1 / 2 * ((p 0).x + (p 1).x),
    ((p 3).y + (p 4).y) * (1 / 2) - 1 / 2 * ((p 0).y + (p 1).y))

/-- The smaller of two lengths over the larger, 0 when both are too short. -/
noncomputable def balance (left right : ℝ) : ℝ :=
  if max left right < 1 / 1000 then 0 else min left right / max left right

theorem metrics_eq (far : 1 / 1000 ≤ eyeDistance p) :
    computeFrontalMetrics realLibrary (some p) =
      { eyeDist := eyeDistance p
        rollDeg := Complex.arg ⟨(eyeLine p).1, (eyeLine p).2⟩ *
          (Scalar.ofRat 180 / Scalar.ofRat (314159265358979323846 / 10 ^ 20))
        yawProxy := alongEyes p (noseOff p) / eyeDistance p
        pitchProxy := belowEyes p (mouthOff p) / eyeDistance p
        sym := balance |alongEyes p (toNose p 0)| |alongEyes p (toNose p 1)|
        valid := true } := by
  have least : (Scalar.ofRat (1 / 1000) : ℝ) = 1 / 1000 := by
    norm_num [RealArithmetic.ofRat_real]
  have half : (Scalar.ofRat (1 / 2) : ℝ) = 1 / 2 := by norm_num [RealArithmetic.ofRat_real]
  simp only [computeFrontalMetrics, lt_real, least, half, fabs_real, stdMax_real, stdMin_real,
    zero_real, zero_sub]
  change (if decide (eyeDistance p < 1 / 1000) = true then noMetrics else _) = _
  rw [if_neg (by simpa using far)]
  simp only [balance, alongEyes, belowEyes, toNose, noseOff, mouthOff, eyeLine, decide_eq_true_eq]
  rfl

theorem metrics_near (near : eyeDistance p < 1 / 1000) :
    computeFrontalMetrics realLibrary (some p) = noMetrics := by
  have least : (Scalar.ofRat (1 / 1000) : ℝ) = 1 / 1000 := by
    norm_num [RealArithmetic.ofRat_real]
  simp only [computeFrontalMetrics, lt_real, least]
  exact if_pos (decide_eq_true near)

theorem metrics_valid_iff :
    (computeFrontalMetrics realLibrary (some p)).valid = true ↔ 1 / 1000 ≤ eyeDistance p := by
  by_cases far : 1 / 1000 ≤ eyeDistance p
  · rw [metrics_eq far]
    exact iff_of_true rfl far
  · rw [metrics_near (not_le.mp far)]
    exact iff_of_false Bool.false_ne_true far

end Faces

section Moves

variable {p : Fin 5 → Point2f ℝ} {T : Affine ℝ} {k : ℝ}

/-- A picture of the landmarks. -/
noncomputable def moved (T : Affine ℝ) (p : Fin 5 → Point2f ℝ) : Fin 5 → Point2f ℝ :=
  fun i => T.apply (p i)

/-- Vectors are turned and scaled. -/
noncomputable def turned (T : Affine ℝ) (v : ℝ × ℝ) : ℝ × ℝ :=
  (T.a * v.1 + T.b * v.2, T.c * v.1 + T.d * v.2)

theorem eyeLine_moved : eyeLine (moved T p) = turned T (eyeLine p) := by
  simp only [eyeLine, moved, Affine.apply, turned, Prod.mk.injEq]
  constructor <;> ring

theorem toNose_moved (i : Fin 5) : toNose (moved T p) i = turned T (toNose p i) := by
  simp only [toNose, moved, Affine.apply, turned, Prod.mk.injEq]
  constructor <;> ring

theorem noseOff_moved : noseOff (moved T p) = turned T (noseOff p) := by
  simp only [noseOff, moved, Affine.apply, turned, Prod.mk.injEq]
  constructor <;> ring

theorem mouthOff_moved : mouthOff (moved T p) = turned T (mouthOff p) := by
  simp only [mouthOff, moved, Affine.apply, turned, Prod.mk.injEq]
  constructor <;> ring

section Scaled

variable (similar : T.Similar) (pos : 0 < k) (scale : T.a ^ 2 + T.c ^ 2 = k ^ 2)

include similar pos scale

theorem eyeDistance_moved : eyeDistance (moved T p) = k * eyeDistance p := by
  have square : (turned T (eyeLine p)).1 * (turned T (eyeLine p)).1 +
      (turned T (eyeLine p)).2 * (turned T (eyeLine p)).2 =
        k ^ 2 * ((eyeLine p).1 * (eyeLine p).1 + (eyeLine p).2 * (eyeLine p).2) := by
    have b : T.b = -T.c := by rw [similar.2, neg_neg]
    rw [turned, similar.1, b, ← scale]
    ring
  rw [eyeDistance, eyeLine_moved, square, Real.sqrt_mul (sq_nonneg k), Real.sqrt_sq pos.le,
    eyeDistance]

/-- What is measured along the eyes grows with the picture. -/
theorem alongEyes_moved (far : eyeDistance p ≠ 0) (v : ℝ × ℝ) :
    alongEyes (moved T p) (turned T v) = k * alongEyes p v := by
  have b : T.b = -T.c := by rw [similar.2, neg_neg]
  have nonzero := pos.ne'
  rw [alongEyes, alongEyes, eyeDistance_moved similar pos scale, eyeLine_moved, turned, turned,
    similar.1, b]
  field_simp
  rw [← scale]
  ring

theorem belowEyes_moved (far : eyeDistance p ≠ 0) (v : ℝ × ℝ) :
    belowEyes (moved T p) (turned T v) = k * belowEyes p v := by
  have b : T.b = -T.c := by rw [similar.2, neg_neg]
  have nonzero := pos.ne'
  rw [belowEyes, belowEyes, eyeDistance_moved similar pos scale, eyeLine_moved, turned, turned,
    similar.1, b]
  field_simp
  rw [← scale]
  ring

end Scaled

theorem balance_scaled (larger : 1 ≤ k) {left right : ℝ} (hl : 0 ≤ left) (hr : 0 ≤ right) :
    balance left right ≤ balance (k * left) (k * right) ∧
      (balance left right ≠ 0 → balance (k * left) (k * right) = balance left right) := by
  have pos : 0 < k := lt_of_lt_of_le one_pos larger
  have longer : max left right ≤ max (k * left) (k * right) := by
    gcongr
    · exact le_mul_of_one_le_left hl larger
    · exact le_mul_of_one_le_left hr larger
  have ratio : min (k * left) (k * right) / max (k * left) (k * right) =
      min left right / max left right := by
    rw [← mul_min_of_nonneg _ _ pos.le, ← mul_max_of_nonneg _ _ pos.le,
      mul_div_mul_left _ _ pos.ne']
  have nonneg : 0 ≤ min left right / max left right :=
    div_nonneg (le_min hl hr) (le_max_of_le_left hl)
  rw [balance, balance, ratio]
  split_ifs with short short'
  · exact ⟨le_rfl, fun _ => rfl⟩
  · exact ⟨nonneg, fun absurd => (absurd rfl).elim⟩
  · linarith
  · exact ⟨le_rfl, fun _ => rfl⟩

theorem levelLine_moved (pos : 0 < k) (level : T.c = 0) (scaled : T.a = k)
    (similar : T.Similar) :
    Complex.arg ⟨(eyeLine (moved T p)).1, (eyeLine (moved T p)).2⟩ =
      Complex.arg ⟨(eyeLine p).1, (eyeLine p).2⟩ := by
  have b : T.b = 0 := by rw [← neg_eq_zero, ← similar.2, level]
  have line : (⟨(eyeLine (moved T p)).1, (eyeLine (moved T p)).2⟩ : ℂ) =
      (k : ℂ) * ⟨(eyeLine p).1, (eyeLine p).2⟩ := by
    rw [eyeLine_moved, turned, similar.1, level, b, scaled]
    apply Complex.ext <;> simp
  rw [line, Complex.arg_real_mul _ pos]

/-- Of a picture `k` times as large the metrics are the same, but for the length of the eye
line; a symmetry that was too small to be measured may come up. Where the picture is not
turned, the roll is the same as well. -/
theorem metrics_moved (similar : T.Similar) (larger : 1 ≤ k) (scale : T.a ^ 2 + T.c ^ 2 = k ^ 2)
    (valid : (computeFrontalMetrics realLibrary (some p)).valid = true) :
    let m := computeFrontalMetrics realLibrary (some p)
    let m' := computeFrontalMetrics realLibrary (some (moved T p))
    m'.valid = true ∧ m'.eyeDist = k * m.eyeDist ∧ m'.yawProxy = m.yawProxy ∧
      m'.pitchProxy = m.pitchProxy ∧ m.sym ≤ m'.sym ∧ (m.sym ≠ 0 → m'.sym = m.sym) ∧
      (T.c = 0 → 0 < T.a → m'.rollDeg = m.rollDeg) := by
  have pos : 0 < k := lt_of_lt_of_le one_pos larger
  have far := metrics_valid_iff.mp valid
  have nonzero : eyeDistance p ≠ 0 := (lt_of_lt_of_le (by norm_num) far).ne'
  have distance := eyeDistance_moved (p := p) similar pos scale
  have far' : 1 / 1000 ≤ eyeDistance (moved T p) := by
    rw [distance]
    exact far.trans (le_mul_of_one_le_left ((by norm_num : (0 : ℝ) ≤ 1 / 1000).trans far) larger)
  have sides : ∀ i, |alongEyes (moved T p) (toNose (moved T p) i)| =
      k * |alongEyes p (toNose p i)| := by
    intro i
    rw [toNose_moved, alongEyes_moved similar pos scale nonzero, abs_mul, abs_of_pos pos]
  obtain ⟨more, equal⟩ := balance_scaled larger (abs_nonneg (alongEyes p (toNose p 0)))
    (abs_nonneg (alongEyes p (toNose p 1)))
  rw [metrics_eq far, metrics_eq far', sides, sides]
  dsimp only
  refine ⟨rfl, distance, ?_, ?_, more, equal, ?_⟩
  · rw [noseOff_moved, alongEyes_moved similar pos scale nonzero, distance,
      mul_div_mul_left _ _ pos.ne']
  · rw [mouthOff_moved, belowEyes_moved similar pos scale nonzero, distance,
      mul_div_mul_left _ _ pos.ne']
  · intro level upright
    have scaled : T.a = k := by
      rw [level] at scale
      exact (pow_left_inj₀ upright.le pos.le two_ne_zero).mp (by linarith)
    rw [levelLine_moved pos level scaled similar]

end Moves

section Decisions

variable {p : Fin 5 → Point2f ℝ} {T : Affine ℝ} {k : ℝ}

theorem score_bounds (cfg : FrontalScoreConfig ℝ) (landmark : Option (Fin 5 → Point2f ℝ)) :
    0 ≤ computeFrontalScore realLibrary cfg landmark ∧
      computeFrontalScore realLibrary cfg landmark ≤ 1 := by
  simp only [computeFrontalScore]
  split_ifs
  · rw [zero_real]
    exact ⟨le_rfl, zero_le_one⟩
  · exact clamp01_bounds _
  · exact clamp01_bounds _

/-- Metrics between which only the eyes and the symmetry differ, for the better. -/
structure Improves (m m' : FrontalMetrics ℝ) : Prop where
  valid : m'.valid = true
  eyes : m.eyeDist ≤ m'.eyeDist
  yaw : m'.yawProxy = m.yawProxy
  pitch : m'.pitchProxy = m.pitchProxy
  roll : m'.rollDeg = m.rollDeg
  sym : m.sym ≤ m'.sym

section Improved

variable {l l' : Option (Fin 5 → Point2f ℝ)}
  (valid : (computeFrontalMetrics realLibrary l).valid = true)
  (better : Improves (computeFrontalMetrics realLibrary l) (computeFrontalMetrics realLibrary l'))

include valid better

theorem Improves.frontal (usePitch : Bool) (cfg : FrontalConfig ℝ)
    (frontal : isFrontalFace realLibrary usePitch cfg l = true) :
    isFrontalFace realLibrary usePitch cfg l' = true := by
  simp only [isFrontalFace, valid, better.valid, better.roll, better.yaw, better.pitch, lt_real,
    Bool.not_true, Bool.false_eq_true, if_false, decide_eq_true_eq] at frontal ⊢
  split_ifs at frontal with small rolled turned uneven tilted
  rw [if_neg (not_lt.mpr ((not_lt.mp small).trans better.eyes)), if_neg rolled, if_neg turned,
    if_neg (not_lt.mpr ((not_lt.mp uneven).trans better.sym)), if_neg tilted]

theorem Improves.score (cfg : FrontalScoreConfig ℝ) (eyes : 0 ≤ cfg.wEye)
    (symmetry : 0 ≤ cfg.wSym) :
    computeFrontalScore realLibrary cfg l ≤ computeFrontalScore realLibrary cfg l' := by
  have reference : 0 < stdMax cfg.eyeRef (Scalar.ofRat (1 / 1000)) := by
    rw [stdMax_real]
    exact lt_max_of_lt_right (by norm_num [RealArithmetic.ofRat_real])
  have eye := clamp01_mono (div_le_div_of_nonneg_right better.eyes reference.le)
  have sym := clamp01_mono better.sym
  simp only [computeFrontalScore, valid, better.valid, better.roll, better.yaw, better.pitch,
    Bool.not_true, Bool.false_eq_true, if_false]
  split_ifs
  · refine clamp01_mono ?_
    gcongr
  · refine clamp01_mono ?_
    gcongr

end Improved

def levelFace : Fin 5 → Point2f ℝ
  | 0 => ⟨0, 0⟩
  | 1 => ⟨30, 0⟩
  | 2 => ⟨15, 10⟩
  | 3 => ⟨5, 20⟩
  | 4 => ⟨25, 20⟩

end Decisions

end FrontalFaces
