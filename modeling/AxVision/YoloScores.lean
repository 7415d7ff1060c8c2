import AxVision.RealArithmetic
import AxVision.YoloDecoding
import Mathlib.Analysis.SpecialFunctions.Log.Basic

/-!
# The scores of YOLOv5

The decoding skips a candidate whose raw box score is below the inverse sigmoid of the
threshold, and looks for the best class among the raw scores. In exact arithmetic this
gives what the confidences of all classes would.
-/

namespace YoloScores

open DetectionTypes YoloDecoding YoloConfigs
open scoped RealArithmetic

-- The literal of a half.
scoped instance half : Nat.AtLeastTwo 2 := ⟨le_rfl⟩

/-- The conversions and `<cmath>` in exact arithmetic. -/
structure Exact (platform : Platform ℝ ℝ) : Prop where
  widen : ∀ x, platform.widen x = x
  narrow : ∀ x, platform.narrow x = x
  exp : platform.exp = Real.exp
  log : platform.log = Real.log

section Sigmoid

variable {platform : Platform ℝ ℝ} (exact : Exact platform)

include exact

theorem sigmoid_eq (x : ℝ) : sigmoid platform x = 1 / (1 + Real.exp (-x)) := by
  rw [sigmoid, exact.widen, exact.narrow, exact.exp, RealArithmetic.ofRat_real,
    RealArithmetic.ofRat_real]
  norm_num

theorem sigmoid_bounds (x : ℝ) : 0 < sigmoid platform x ∧ sigmoid platform x < 1 := by
  rw [sigmoid_eq exact]
  have positive := Real.exp_pos (-x)
  refine ⟨by positivity, ?_⟩
  rw [div_lt_one (by positivity)]
  linarith

theorem sigmoid_lt {x y : ℝ} : sigmoid platform x < sigmoid platform y ↔ x < y := by
  rw [sigmoid_eq exact, sigmoid_eq exact,
    one_div_lt_one_div (by positivity) (by positivity), add_lt_add_iff_left, Real.exp_lt_exp,
    neg_lt_neg_iff]

/-- The raw score of the threshold. -/
theorem sigmoid_unsigmoid {config : Yolov5Config ℝ} (pos : 0 < config.probThreshold)
    (lt : config.probThreshold < 1) :
    sigmoid platform (probThresholdUSigmoid platform config) = config.probThreshold := by
  have odds : 0 < 1 / config.probThreshold - 1 := by
    rw [sub_pos, lt_div_iff₀ pos, one_mul]
    exact lt
  have raw : probThresholdUSigmoid platform config =
      -Real.log (1 / config.probThreshold - 1) := by
    rw [probThresholdUSigmoid, exact.log, RealArithmetic.ofRat_real]
    norm_num [ofInt, RealArithmetic.ofRat_real]
  rw [raw, sigmoid_eq exact, neg_neg, Real.exp_log odds, add_sub_cancel, one_div_one_div]

end Sigmoid

section Counts

variable {F : Type} {D : Type*} [Scalar F] [Scalar D] {platform : Platform F D}
  {config : Yolov5Config F} {io : Io F} {output : Int × Nat}

omit [Scalar D] in
/-- The loop over the classes, with indices that are natural numbers. -/
theorem bestClass_eq (feature : Int → F) (clsNum : Int) :
    bestClass platform feature clsNum = (List.range clsNum.toNat).foldl
      (fun best (s : Nat) =>
        if Scalar.lt best.2 (feature (s + 5)) then ((s : Int), feature (s + 5)) else best)
      (0, Scalar.ofRat (-1) * platform.floatMax) := by
  have indices : (do let s ← List.range clsNum.toNat; pure (s : Int)) =
      (List.range clsNum.toNat).map Nat.cast := by
    rw [List.bind_eq_flatMap, List.map_eq_flatMap]
    rfl
  rw [bestClass]
  dsimp only
  rw [indices, List.foldl_map]

/-- So few are counted by an `int`. -/
theorem bmod_small {n : Nat} (small : n < 2 ^ 31) : Int.bmod n (2 ^ 32) = n := by
  norm_num at small
  apply Int.bmod_eq_of_le
  · norm_num
  · norm_num
    omega

omit [Scalar F] in
theorem clsNum_eq (countable : config.labels.length < 2 ^ 31) :
    clsNum config = config.labels.length := bmod_small countable

end Counts

section Classes

/-- The first of the best scores. -/
def Leads (score : Nat → ℝ) (n s : Nat) : Prop :=
  s < n ∧ (∀ k < n, score k ≤ score s) ∧ ∀ k < s, score k < score s

variable {platform : Platform ℝ ℝ} {feature : Int → ℝ}

/-- The loop over the classes finds the first of the best raw scores. -/
theorem bestClass_leads {n : Nat} (some_class : 0 < n)
    (low : ∀ s : Nat, s < n → -platform.floatMax ≤ feature (s + 5)) :
    ∃ s, Leads (fun k => feature (k + 5)) n s ∧
      bestClass platform feature n = ((s : Int), feature (s + 5)) := by
  have start : (Scalar.ofRat (-1) * platform.floatMax : ℝ) = -platform.floatMax := by
    rw [RealArithmetic.ofRat_real]
    norm_num
  rw [bestClass_eq, Int.toNat_natCast, start]
  induction n with
  | zero => exact absurd some_class (lt_irrefl 0)
  | succ n ih =>
    rw [List.range_succ, List.foldl_append, List.foldl_cons, List.foldl_nil]
    rcases Nat.eq_zero_or_pos n with rfl | positive
    · have floor : -platform.floatMax ≤ feature (0 + 5) := low 0 (Nat.succ_pos 0)
      refine ⟨0, ⟨Nat.succ_pos 0, fun k bound => ?_, fun k before => ?_⟩, ?_⟩
      · rw [Nat.lt_one_iff.mp bound]
      · exact absurd before k.not_lt_zero
      · rw [List.range_zero, List.foldl_nil]
        dsimp only
        split_ifs with above
        · rfl
        · have same : -platform.floatMax = feature (0 + 5) :=
            le_antisymm floor (not_lt.mp (by simpa [Scalar.lt] using above))
          rw [same]
          rfl
    · obtain ⟨s, ⟨bound, most, first⟩, found⟩ :=
        ih positive fun s bound => low s (Nat.lt_succ_of_lt bound)
      rw [found]
      dsimp only
      split_ifs with above
      · have better : feature (s + 5) < feature (n + 5) := by simpa [Scalar.lt] using above
        refine ⟨n, ⟨Nat.lt_succ_self n, fun k inside => ?_, fun k before => ?_⟩, rfl⟩
        · rcases Nat.lt_succ_iff_lt_or_eq.mp inside with before | rfl
          · exact (most k before).trans better.le
          · exact le_rfl
        · exact (most k before).trans_lt better
      · have worse : feature (n + 5) ≤ feature (s + 5) :=
          not_lt.mp (by simpa [Scalar.lt] using above)
        refine ⟨s, ⟨Nat.lt_succ_of_lt bound, fun k inside => ?_, first⟩, rfl⟩
        rcases Nat.lt_succ_iff_lt_or_eq.mp inside with before | rfl
        · exact most k before
        · exact worse

/-- A monotone transformation keeps the first of the best. -/
theorem Leads.map {score : Nat → ℝ} {n s : Nat} {f : ℝ → ℝ} (h : Leads score n s)
    (mono : StrictMono f) : Leads (fun k => f (score k)) n s :=
  ⟨h.1, fun k bound => mono.monotone (h.2.1 k bound), fun k before => mono (h.2.2 k before)⟩

end Classes

section Candidates

variable {platform : Platform ℝ ℝ} {level : Level ℝ} {pos : Int} {c : Candidate} {n : Nat}

/-- The confidence of a candidate in a class. -/
noncomputable def confidence (platform : Platform ℝ ℝ) (level : Level ℝ) (pos : Int) (s : Nat) :
    ℝ :=
  sigmoid platform (level.feat (pos + 4)) * sigmoid platform (level.feat (pos + (s + 5)))

/-- The object of a candidate: the first of its best classes, and a box about a point near its
cell. -/
structure Detection (platform : Platform ℝ ℝ) (level : Level ℝ) (n : Nat) (pos : Int)
    (c : Candidate) (obj : Object ℝ) : Prop where
  best : ∃ s, Leads (confidence platform level pos) n s ∧ obj.label = s ∧
    obj.prob = confidence platform level pos s
  enough : level.probThreshold ≤ obj.prob
  width : obj.rect.width = 4 * sigmoid platform (level.feat (pos + 2)) ^ 2 *
    anchorAt platform level.anchors (anchorIndex platform level c)
  height : obj.rect.height = 4 * sigmoid platform (level.feat (pos + 3)) ^ 2 *
    anchorAt platform level.anchors (anchorIndex platform level c + 1)
  centreX : obj.rect.x + obj.rect.width / 2 =
    (2 * sigmoid platform (level.feat (pos + 0)) - 1 / 2 + c.w) * level.stride
  centreY : obj.rect.y + obj.rect.height / 2 =
    (2 * sigmoid platform (level.feat (pos + 1)) - 1 / 2 + c.h) * level.stride

/-- What a candidate gives: its detection, or nothing if no confidence is enough. -/
def Outcome (platform : Platform ℝ ℝ) (level : Level ℝ) (n : Nat) (pos : Int) (c : Candidate)
    (objects : List (Object ℝ)) : Prop :=
  (∃ obj, objects = [obj] ∧ Detection platform level n pos c obj) ∨
    objects = [] ∧ ∀ s < n, confidence platform level pos s < level.probThreshold

/-- The threshold of the raw box scores skips only what would fall through anyway. -/
theorem decodeCandidate_outcome (exact : Exact platform) (some_class : 0 < n)
    (classes : level.clsNum = n)
    (raw : sigmoid platform level.unsigmoid = level.probThreshold)
    (low : ∀ k, -platform.floatMax ≤ level.feat k) :
    Outcome platform level n pos c (decodeCandidate platform level pos c).proposals := by
  obtain ⟨s, leads, found⟩ := @bestClass_leads platform (fun k => level.feat (pos + k)) n some_class
    fun s _ => low _
  have box := sigmoid_bounds exact (level.feat (pos + 4))
  have lead : Leads (confidence platform level pos) n s := by
    refine leads.map (f := fun x => sigmoid platform (level.feat (pos + 4)) * sigmoid platform x) ?_
    intro x y less
    exact mul_lt_mul_of_pos_left ((sigmoid_lt exact).mpr less) box.1
  have score : finalScore platform level (fun k => level.feat (pos + k)) =
      confidence platform level pos s := by
    rw [finalScore, classes, found]
    rfl
  rw [decodeCandidate]
  dsimp only
  split_ifs with skipped enough
  · refine Or.inr ⟨rfl, fun t _ => ?_⟩
    have below : level.feat (pos + 4) < level.unsigmoid := by simpa [Scalar.lt] using skipped
    have certain := sigmoid_bounds exact (level.feat (pos + (t + 5)))
    calc confidence platform level pos t
        < sigmoid platform (level.feat (pos + 4)) * 1 := mul_lt_mul_of_pos_left certain.2 box.1
      _ < level.probThreshold := by
        rw [mul_one, ← raw]
        exact (sigmoid_lt exact).mpr below
  · refine Or.inl ⟨_, rfl, ?_⟩
    refine ⟨⟨s, lead, ?_, score⟩, ?_, ?_, ?_, ?_, ?_⟩
    · dsimp only
      rw [classes, found]
    · simpa [Scalar.le] using enough
    · dsimp only
      simp only [ofInt, RealArithmetic.ofRat_real]
      push_cast
      ring
    · dsimp only
      simp only [ofInt, RealArithmetic.ofRat_real]
      push_cast
      ring
    · dsimp only
      simp only [ofInt, RealArithmetic.ofRat_real]
      push_cast
      ring
    · dsimp only
      simp only [ofInt, RealArithmetic.ofRat_real]
      push_cast
      ring
  · refine Or.inr ⟨rfl, fun t bound => ?_⟩
    have missed : confidence platform level pos s < level.probThreshold := by
      rw [← score]
      exact not_le.mp (by simpa [Scalar.le] using enough)
    exact (lead.2.1 t bound).trans_lt missed

/-- The centre of a box is less than a stride from the centre of its cell. -/
def Near (level : Level ℝ) (c : Candidate) (obj : Object ℝ) : Prop :=
  |obj.rect.x + obj.rect.width / 2 - (c.w + 1 / 2) * level.stride| < level.stride ∧
    |obj.rect.y + obj.rect.height / 2 - (c.h + 1 / 2) * level.stride| < level.stride

theorem Detection.near (exact : Exact platform) (stride : 0 < level.stride) {obj : Object ℝ}
    (h : Detection platform level n pos c obj) : Near level c obj := by
  have positive : (0 : ℝ) < level.stride := Int.cast_pos.mpr stride
  have within : ∀ (x cell : ℝ),
      |(2 * sigmoid platform x - 1 / 2 + cell) * level.stride - (cell + 1 / 2) * level.stride| <
        level.stride := by
    intro x cell
    obtain ⟨low, high⟩ := sigmoid_bounds exact x
    have off : (2 * sigmoid platform x - 1 / 2 + cell) * level.stride -
        (cell + 1 / 2) * level.stride = (2 * sigmoid platform x - 1) * level.stride := by ring
    have unit : |2 * sigmoid platform x - 1| < 1 := abs_lt.mpr ⟨by linarith, by linarith⟩
    rw [off, abs_mul, abs_of_pos positive]
    exact mul_lt_of_lt_one_left positive unit
  rw [Near, h.centreX, h.centreY]
  exact ⟨within _ _, within _ _⟩

theorem decodeCandidates_outcomes (exact : Exact platform) (some_class : 0 < n)
    (classes : level.clsNum = n) (raw : sigmoid platform level.unsigmoid = level.probThreshold)
    (low : ∀ k, -platform.floatMax ≤ level.feat k) (cells : List Candidate) (start : Nat) :
    ∃ found : List (List (Object ℝ)),
      (decodeCandidates platform level (start * (n + 5)) cells).proposals = found.flatten ∧
        List.Forall₂
          (fun cell objects => Outcome platform level n (cell.2 * (n + 5)) cell.1 objects)
          (cells.zipIdx start) found := by
  induction cells generalizing start with
  | nil => exact ⟨[], rfl, .nil⟩
  | cons cell rest ih =>
    obtain ⟨found, others, each⟩ := ih (start + 1)
    have next : (start : Int) * (n + 5) + (level.clsNum + 5) = (start + 1 : Nat) * (n + 5) := by
      rw [classes]
      push_cast
      ring
    refine ⟨(decodeCandidate platform level (start * (n + 5)) cell).proposals :: found, ?_, ?_⟩
    · rw [decodeCandidates, next, List.flatten_cons, ← others]
      rfl
    · rw [List.zipIdx_cons]
      exact .cons (decodeCandidate_outcome exact some_class classes raw low) each

end Candidates

section Levels

variable {platform : Platform ℝ ℝ} {config : Yolov5Config ℝ} {io : Io ℝ} {output : Int × Nat}

/-- The proposals of an output, cell by cell and anchor by anchor: where the confidence of a
class reaches the threshold, one object with the first of the best classes, about a point
less than a stride from its cell; elsewhere nothing. -/
theorem generateProposals_exact (exact : Exact platform) (pos : 0 < config.probThreshold)
    (lt : config.probThreshold < 1) (some_label : config.labels ≠ [])
    (countable : config.labels.length < 2 ^ 31) (stride : 0 < output.1)
    (floats : ∀ k, -platform.floatMax ≤ (io.pOutputs output.2).floats k) :
    let level := levelOf platform config io output
    let n := config.labels.length
    ∃ found : List (List (Object ℝ)),
      (generateProposalsYolov5 platform level (letterboxCols config)
        (letterboxRows config)).proposals = found.flatten ∧
      List.Forall₂
        (fun cell objects => Outcome platform level n (cell.2 * (n + 5)) cell.1 objects ∧
          ∀ obj ∈ objects, Near level cell.1 obj)
        (candidates ((letterboxRows config).tdiv output.1)
          ((letterboxCols config).tdiv output.1)).zipIdx found := by
  intro level n
  have classes : (levelOf platform config io output).clsNum = config.labels.length :=
    levelOf_clsNum.trans (clsNum_eq countable)
  obtain ⟨found, all, each⟩ := decodeCandidates_outcomes exact
    (List.length_pos_iff.mpr some_label) classes (sigmoid_unsigmoid exact pos lt) floats
    (candidates ((letterboxRows config).tdiv output.1) ((letterboxCols config).tdiv output.1)) 0
  refine ⟨found, ?_, each.imp fun cell objects outcome => ⟨outcome, fun obj mem => ?_⟩⟩
  · rw [← all]
    simp only [Nat.cast_zero, zero_mul]
    rfl
  · rcases outcome with ⟨only, rfl, detection⟩ | ⟨rfl, -⟩
    · rw [List.mem_singleton.mp mem]
      exact detection.near exact stride
    · cases mem

/-- Exact arithmetic, with a new object that is empty. -/
noncomputable def realPlatform : Platform ℝ ℝ where
  widen x := x
  narrow x := x
  exp := Real.exp
  log := Real.log
  floatMax := 1
  unsetGroup := 0
  stray _ := 0
  blank :=
    { rect := ⟨0, 0, 0, 0⟩
      label := 0
      prob := 0
      landmark := Vector.replicate 5 ⟨0, 0⟩
      mask := []
      maskFeat := []
      kpsFeat := []
      angle := 0
      modelName := ""
      labelName := "" }

/-- All raw scores are 0. -/
noncomputable def flatIo : Io ℝ where
  nOutputSize := 3
  pOutputs _ := { null := false, nSize := 0, floats := fun _ => 0 }

theorem flat_exact :
    let level := levelOf realPlatform defaultConfig flatIo (32, 2)
    ∃ found : List (List (Object ℝ)),
      (generateProposalsYolov5 realPlatform level (letterboxCols (defaultConfig : Yolov5Config ℝ))
        (letterboxRows (defaultConfig : Yolov5Config ℝ))).proposals = found.flatten ∧
      List.Forall₂
        (fun cell objects =>
          Outcome realPlatform level 4 (cell.2 * ((4 : Nat) + 5)) cell.1 objects ∧
            ∀ obj ∈ objects, Near level cell.1 obj)
        (candidates ((letterboxRows (defaultConfig : Yolov5Config ℝ)).tdiv 32)
          ((letterboxCols (defaultConfig : Yolov5Config ℝ)).tdiv 32)).zipIdx found := by
  have exact : Exact realPlatform := ⟨fun _ => rfl, fun _ => rfl, rfl, rfl⟩
  have threshold : (defaultConfig : Yolov5Config ℝ).probThreshold = 1 / 5 := by
    change (Scalar.ofRat (1 / 5) : ℝ) = 1 / 5
    norm_num [RealArithmetic.ofRat_real]
  exact @generateProposals_exact realPlatform defaultConfig flatIo (32, 2) exact
    (by rw [threshold]; norm_num) (by rw [threshold]; norm_num) (List.cons_ne_nil _ _)
    (show 4 < 2 ^ 31 by norm_num) (by norm_num) fun _ => by norm_num [realPlatform, flatIo]

end Levels

end YoloScores
