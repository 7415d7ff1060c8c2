import AxVision.TensorReads
import AxVision.YoloConfigs
import Mathlib.Data.Int.ModEq
import Mathlib.Tactic.Ring

/-!
# Decoding of YOLOv5

`Postprocess` compares the size of each output tensor with the number of floats
that its decoding walks over, and lets a short list of anchors pass. The reads
of the tensors and of the anchors are recorded as they are made.
-/

namespace YoloDecoding

open DetectionTypes TensorReads YoloConfigs
open TrackerConfigs (Yaml YamlLibrary findKey)

universe v

variable {F : Type} {D : Type v} [Scalar F]

/-- What the code takes from elsewhere or leaves open: the conversions and
functions of `<cmath>`, the largest float, what a group that is never set holds,
what is behind the anchors in memory, and the fields of a new object. -/
structure Platform (F : Type) (D : Type v) where
  widen : F → D
  narrow : D → F
  exp : D → D
  log : F → F
  floatMax : F
  unsetGroup : Int
  stray : Int → F
  blank : Object F

/-- What a part of the decoding gives and reads. -/
structure Decoded (F : Type) where
  proposals : List (Object F)
  reads : List Read
  anchorReads : List Int

def Decoded.none : Decoded F := ⟨[], [], []⟩

def Decoded.append (first second : Decoded F) : Decoded F :=
  ⟨first.proposals ++ second.proposals, first.reads ++ second.reads,
    first.anchorReads ++ second.anchorReads⟩

/-- A cell of the feature map, with one of its anchors. -/
structure Candidate where
  h : Nat
  w : Nat
  a : Nat
  deriving DecidableEq

/-- The order of the three loops. -/
def candidates (featH featW : Int) : List Candidate :=
  (List.range featH.toNat).flatMap fun h => (List.range featW.toNat).flatMap fun w =>
    (List.range 3).map fun a => ⟨h, w, a⟩

section Generation

variable [Scalar D]

def sigmoid (platform : Platform F D) (x : F) : F :=
  platform.narrow (Scalar.ofRat 1 / (Scalar.ofRat 1 + platform.exp (platform.widen
    (Scalar.ofRat (-1) * x))))

/-- The class of the highest score, from a position on. -/
def bestClass (platform : Platform F D) (feature : Int → F) (clsNum : Int) : Int × F :=
  (List.range clsNum.toNat).foldl
    (fun best s =>
      let score := feature (s + 5)
      if Scalar.lt best.2 score then ((s : Int), score) else best)
    (0, Scalar.ofRat (-1) * platform.floatMax)

def anchorGroup (platform : Platform F D) (stride : Int) : Int :=
  if stride = 32 then 3 else if stride = 16 then 2 else if stride = 8 then 1
  else platform.unsetGroup

/-- An entry of the flattened anchors, or what is there beside them. -/
def anchorAt (platform : Platform F D) (anchors : List F) (index : Int) : F :=
  if index < 0 then platform.stray index
  else anchors.getD index.toNat (platform.stray index)

/-- What `generate_proposals_yolov5` is called with for a level. -/
structure Level (F : Type) where
  tensor : Nat
  stride : Int
  feat : Int → F
  anchors : List F
  clsNum : Int
  probThreshold : F
  unsigmoid : F

def finalScore (platform : Platform F D) (level : Level F) (feature : Int → F) : F :=
  sigmoid platform (feature 4) * sigmoid platform (bestClass platform feature level.clsNum).2

/-- The first index of the anchor of a candidate. -/
def anchorIndex (platform : Platform F D) (level : Level F) (c : Candidate) : Int :=
  (anchorGroup platform level.stride - 1) * 6 + c.a * 2

/-- The turn of one candidate, whose floats begin at `pos`. -/
def decodeCandidate (platform : Platform F D) (level : Level F) (pos : Int) (c : Candidate) :
    Decoded F :=
  let feature (k : Int) : F := level.feat (pos + k)
  if Scalar.lt (feature 4) level.unsigmoid then ⟨[], [⟨level.tensor, pos + 4⟩], []⟩
  else
    let classReads := ⟨level.tensor, pos + 4⟩ :: span level.tensor (pos + 5) level.clsNum.toNat
    let score := finalScore platform level feature
    if Scalar.le level.probThreshold score then
      let dx := sigmoid platform (feature 0)
      let dy := sigmoid platform (feature 1)
      let dw := sigmoid platform (feature 2)
      let dh := sigmoid platform (feature 3)
      let cx := (dx * ofInt 2 - Scalar.ofRat (1 / 2) + ofInt c.w) * ofInt level.stride
      let cy := (dy * ofInt 2 - Scalar.ofRat (1 / 2) + ofInt c.h) * ofInt level.stride
      let index := anchorIndex platform level c
      let width := dw * dw * ofInt 4 * anchorAt platform level.anchors index
      let height := dh * dh * ofInt 4 * anchorAt platform level.anchors (index + 1)
      let x0 := cx - width * Scalar.ofRat (1 / 2)
      let y0 := cy - height * Scalar.ofRat (1 / 2)
      let x1 := cx + width * Scalar.ofRat (1 / 2)
      let y1 := cy + height * Scalar.ofRat (1 / 2)
      let obj := { platform.blank with
        rect := ⟨x0, y0, x1 - x0, y1 - y0⟩
        label := (bestClass platform feature level.clsNum).1
        prob := score }
      ⟨[obj], classReads ++ span level.tensor pos 4, [index, index + 1]⟩
    else ⟨[], classReads, []⟩

/-- The loops, with `pos` the place of `feature_ptr`. -/
def decodeCandidates (platform : Platform F D) (level : Level F) (pos : Int) :
    List Candidate → Decoded F
  | [] => .none
  | c :: rest => (decodeCandidate platform level pos c).append
      (decodeCandidates platform level (pos + (level.clsNum + 5)) rest)

def generateProposalsYolov5 (platform : Platform F D) (level : Level F)
    (letterboxCols letterboxRows : Int) : Decoded F :=
  decodeCandidates platform level 0
    (candidates (letterboxRows.tdiv level.stride) (letterboxCols.tdiv level.stride))

end Generation

section Postprocess

variable [Scalar D]

/-- What `GetInfo` and `GetOutput` give. -/
structure Io (F : Type) where
  nOutputSize : UInt32
  pOutputs : Nat → Tensor F

def letterboxRows (config : Yolov5Config F) : Int := config.inputs.getD 2 0

def letterboxCols (config : Yolov5Config F) : Int := config.inputs.getD 3 0

/-- A number as a `size_t`. -/
def sizeT (i : Int) : Nat := (i % 2 ^ 64).toNat

/-- `int cls_num = labels.size()`. -/
def clsNum (config : Yolov5Config F) : Int := Int.bmod config.labels.length (2 ^ 32)

def countSize (config : Yolov5Config F) (stride : Int) : Nat :=
  sizeT ((letterboxCols config).tdiv stride) * sizeT ((letterboxRows config).tdiv stride) *
    (config.labels.length + 5) * 3 * 4 % 2 ^ 64

def probThresholdUSigmoid (platform : Platform F D) (config : Yolov5Config F) : F :=
  Scalar.ofRat (-1) * platform.log (ofInt 1 / config.probThreshold - ofInt 1)

/-- The call for an output, as `(stride, i)`. -/
def levelOf (platform : Platform F D) (config : Yolov5Config F) (io : Io F) (output : Int × Nat) :
    Level F where
  tensor := output.2
  stride := output.1
  feat := (io.pOutputs output.2).floats
  anchors := config.anchors.flatten
  clsNum := clsNum config
  probThreshold := config.probThreshold
  unsigmoid := probThresholdUSigmoid platform config

/-- The loop over the outputs, and whether it reached the end. -/
def decodeOutputs (platform : Platform F D) (config : Yolov5Config F) (io : Io F) :
    List (Int × Nat) → Decoded F × Bool
  | [] => (.none, true)
  | output :: rest =>
    if countSize config output.1 ≠ (io.pOutputs output.2).nSize.toNat then (.none, false)
    else
      let first := generateProposalsYolov5 platform (levelOf platform config io output)
        (letterboxCols config) (letterboxRows config)
      let (others, complete) := decodeOutputs platform config io rest
      (first.append others, complete)

/-- The checks of the strides and the numbers of anchors. -/
def supported (config : Yolov5Config F) : Bool :=
  config.strides.zipIdx.all fun (stride, i) =>
    (stride == 8 || stride == 16 || stride == 32) &&
      match config.numAnchors[i]? with
      | some n => n == 3
      | none => true

/-- `Yolov5::Postprocess` up to the suppression, which reads no tensor: the return
value if it stops before, and what is decoded. -/
def postprocess (platform : Platform F D) (config : Yolov5Config F) (io : Io F) :
    Option Int × Decoded F :=
  if io.nOutputSize.toNat ≠ config.strides.length then (some (-1), .none)
  else if !supported config then (some (-1), .none)
  else
    let (decoded, complete) := decodeOutputs platform config io config.strides.zipIdx
    (if complete then none else some (-2), decoded)

end Postprocess

section Candidates

variable [Scalar D] {platform : Platform F D} {level : Level F} {outs : Nat → Tensor F} {pos : Int}
  {c : Candidate}

/-- The scores of a candidate pass both thresholds. -/
def Passes (platform : Platform F D) (level : Level F) (pos : Int) : Prop :=
  Scalar.lt (level.feat (pos + 4)) level.unsigmoid = false ∧
    Scalar.le level.probThreshold (finalScore platform level fun k => level.feat (pos + k)) = true

/-- A candidate whose floats are all in the tensor is read inside it. -/
theorem decodeCandidate_inside (here : (outs level.tensor).null = false) (front : 0 ≤ pos)
    (classes : 0 ≤ level.clsNum)
    (bytes : 4 * (pos + (level.clsNum + 5)) ≤ (outs level.tensor).nSize.toNat) :
    Inside outs (decodeCandidate platform level pos c).reads := by
  have score : (outs level.tensor).Holds (pos + 4) := ⟨here, by omega, by omega⟩
  have scores : Inside outs (span level.tensor (pos + 5) level.clsNum.toNat) :=
    span_inside here (by omega) (by omega)
  have corners : Inside outs (span level.tensor pos 4) := span_inside here front (by omega)
  rw [decodeCandidate]
  dsimp only
  split
  · exact inside_cons.mpr ⟨score, inside_nil⟩
  · split
    · exact inside_append.mpr ⟨inside_cons.mpr ⟨score, scores⟩, corners⟩
    · exact inside_cons.mpr ⟨score, scores⟩

/-- The box score is read whatever it is. -/
theorem decodeCandidate_score (inside : Inside outs (decodeCandidate platform level pos c).reads) :
    (outs level.tensor).Holds (pos + 4) := by
  refine inside ⟨level.tensor, pos + 4⟩ ?_
  rw [decodeCandidate]
  dsimp only
  split
  · exact List.mem_cons_self
  · split
    · exact List.mem_append_left _ List.mem_cons_self
    · exact List.mem_cons_self

/-- The anchor of a candidate is read exactly if its scores pass. -/
theorem decodeCandidate_anchors {P : Int → Prop} :
    (∀ a ∈ (decodeCandidate platform level pos c).anchorReads, P a) ↔
      (Passes platform level pos →
        P (anchorIndex platform level c) ∧ P (anchorIndex platform level c + 1)) := by
  rw [decodeCandidate, Passes]
  dsimp only
  split
  · rename_i low
    rw [low]
    exact ⟨fun _ passes => absurd passes.1 Bool.noConfusion, fun _ _ mem => (nomatch mem)⟩
  · rename_i enough
    rw [Bool.eq_false_iff.mpr enough]
    split
    · rename_i passed
      rw [passed]
      simp
    · rename_i failed
      exact ⟨fun _ passes => absurd passes.2 failed, fun _ _ mem => (nomatch mem)⟩

/-- What holds of nothing and of two parts exactly if of both holds of the loops
exactly if it holds of every turn. -/
theorem decodeCandidates_iff {P : Decoded F → Prop} (nothing : P .none)
    (parts : ∀ first second, P (Decoded.append first second) ↔ P first ∧ P second) (pos : Int)
    (cells : List Candidate) :
    P (decodeCandidates platform level pos cells) ↔
      ∀ (k : Nat) (c : Candidate), cells[k]? = some c →
        P (decodeCandidate platform level (pos + k * (level.clsNum + 5)) c) := by
  induction cells generalizing pos with
  | nil => exact ⟨fun _ k c found => (nomatch found), fun _ => nothing⟩
  | cons cell rest ih =>
    rw [decodeCandidates, parts, ih]
    have next (k : Nat) : pos + (level.clsNum + 5) + k * (level.clsNum + 5) =
        pos + (k + 1 : Nat) * (level.clsNum + 5) := by
      push_cast
      ring
    have first : pos + (0 : Nat) * (level.clsNum + 5) = pos := by simp
    constructor
    · rintro ⟨here, others⟩ k c found
      cases k with
      | zero =>
        obtain rfl := Option.some.inj found
        rw [first]
        exact here
      | succ k =>
        rw [← next]
        exact others k c found
    · intro all
      refine ⟨?_, fun k c found => ?_⟩
      · have here := all 0 cell rfl
        rwa [first] at here
      · rw [next]
        exact all (k + 1) c found

omit [Scalar F] in
theorem inside_parts (outs : Nat → Tensor F) (first second : Decoded F) :
    Inside outs (first.append second).reads ↔ Inside outs first.reads ∧ Inside outs second.reads :=
  inside_append

omit [Scalar F] in
theorem anchors_parts {P : Int → Prop} (first second : Decoded F) :
    (∀ a ∈ (first.append second).anchorReads, P a) ↔
      (∀ a ∈ first.anchorReads, P a) ∧ ∀ a ∈ second.anchorReads, P a := List.forall_mem_append

end Candidates

section Sizes

/-- The places where scores are read tell the size: `n` runs of `c` floats, of
which the first and the last reach their fifth one, in `size` bytes that are what
the runs take up to a multiple of 2^34. -/
theorem size_of_scores {n c size q : Int} (some_cells : 3 ≤ n) (small : size < 2 ^ 32)
    (wrapped : size = 4 * (n * c) + 2 ^ 34 * q) (low : 0 ≤ (n - 1) * c + 4)
    (high : 4 * ((n - 1) * c + 5) ≤ size) : 5 ≤ c ∧ 4 * (n * c) ≤ size := by
  have total : n * c = (n - 1) * c + c := by ring
  rw [total] at wrapped ⊢
  obtain negative | positive := lt_or_ge c 0
  · have steep : (n - 1) * c ≤ 2 * c := mul_le_mul_of_nonpos_right (by omega) negative.le
    omega
  · have steep : 2 * c ≤ (n - 1) * c := mul_le_mul_of_nonneg_right (by omega) positive
    omega

theorem candidates_length (featH featW : Int) :
    (candidates featH featW).length = featH.toNat * featW.toNat * 3 := by
  simp [candidates, List.length_flatMap, Nat.mul_assoc]

theorem mem_candidates {featH featW : Int} {c : Candidate} (mem : c ∈ candidates featH featW) :
    c.a < 3 := by
  simp only [candidates, List.mem_flatMap, List.mem_map, List.mem_range] at mem
  obtain ⟨h, -, w, -, a, bound, rfl⟩ := mem
  exact bound

/-- The candidates of the level of a stride. -/
def cellsOf (config : Yolov5Config F) (stride : Int) : List Candidate :=
  candidates ((letterboxRows config).tdiv stride) ((letterboxCols config).tdiv stride)

omit [Scalar F] in
/-- A cell has three candidates. -/
theorem three_cells {config : Yolov5Config F} {stride : Int}
    (some_cells : cellsOf config stride ≠ []) :
    3 ≤ (cellsOf config stride).length := by
  have positive := List.length_pos_iff.mpr some_cells
  have count := candidates_length ((letterboxRows config).tdiv stride)
    ((letterboxCols config).tdiv stride)
  rw [cellsOf] at positive ⊢
  omega

theorem sizeT_modEq (i : Int) : sizeT i ≡ i [ZMOD 2 ^ 34] := by
  unfold sizeT Int.ModEq
  omega

omit [Scalar F] in
/-- Four floats for each class and the box, with the wrapped number of classes. -/
theorem clsNum_modEq (config : Yolov5Config F) :
    4 * ((config.labels.length : Int) + 5) ≡ 4 * (clsNum config + 5) [ZMOD 2 ^ 34] := by
  have wrapped : clsNum config =
      config.labels.length - (2 ^ 32 : Nat) * Int.bdiv config.labels.length (2 ^ 32) :=
    Int.bmod_eq_self_sub_mul_bdiv _ _
  unfold Int.ModEq
  omega

omit [Scalar F] in
/-- Where there are candidates, the size compared with is theirs, up to a multiple of 2^34. -/
theorem countSize_wrapped {config : Yolov5Config F} {stride : Int}
    (some_cells : cellsOf config stride ≠ []) :
    ∃ q : Int, (countSize config stride : Int) =
      4 * ((cellsOf config stride).length * (clsNum config + 5)) + 2 ^ 34 * q := by
  have count := candidates_length ((letterboxRows config).tdiv stride)
    ((letterboxCols config).tdiv stride)
  rw [← List.length_pos_iff] at some_cells
  rw [cellsOf, count] at some_cells ⊢
  rw [countSize]
  generalize (letterboxRows config).tdiv stride = h at some_cells ⊢
  generalize (letterboxCols config).tdiv stride = w at some_cells ⊢
  have positive : 0 < h.toNat ∧ 0 < w.toNat := by
    have product := Nat.pos_of_mul_pos_right some_cells
    exact ⟨Nat.pos_of_mul_pos_right product, Nat.pos_of_mul_pos_left product⟩
  have rows : (h.toNat : Int) = h := by omega
  have cols : (w.toNat : Int) = w := by omega
  have size : ((sizeT w * sizeT h * (config.labels.length + 5) * 3 * 4 % 2 ^ 64 : Nat) : Int) ≡
      (sizeT w * sizeT h * (config.labels.length + 5) * 3 * 4 : Nat) [ZMOD 2 ^ 34] := by
    unfold Int.ModEq
    omega
  have cells : ((sizeT w * sizeT h * (config.labels.length + 5) * 3 * 4 : Nat) : Int) ≡
      4 * ((h.toNat * w.toNat * 3 : Nat) * (clsNum config + 5)) [ZMOD 2 ^ 34] := by
    push_cast
    rw [rows, cols]
    calc (sizeT w * sizeT h * (config.labels.length + 5) * 3 * 4 : Int)
        = sizeT w * sizeT h * 3 * (4 * (config.labels.length + 5)) := by ring
      _ ≡ w * h * 3 * (4 * (clsNum config + 5)) [ZMOD 2 ^ 34] :=
        (((sizeT_modEq w).mul (sizeT_modEq h)).mul_right 3).mul (clsNum_modEq config)
      _ = 4 * (h * w * 3 * (clsNum config + 5)) := by ring
  obtain ⟨q, rest⟩ := (size.trans cells).symm.dvd
  exact ⟨q, by omega⟩

end Sizes

section Outputs

variable [Scalar D] {platform : Platform F D} {config : Yolov5Config F} {io : Io F}
  {output : Int × Nat}

/-- The tensor of an output has the bytes of its candidates, for a number of
classes that is not negative. -/
def TensorFits (config : Yolov5Config F) (io : Io F) (output : Int × Nat) : Prop :=
  cellsOf config output.1 = [] ∨
    (io.pOutputs output.2).null = false ∧ 0 ≤ clsNum config ∧
      4 * ((cellsOf config output.1).length * (clsNum config + 5)) ≤
        (io.pOutputs output.2).nSize.toNat

/-- There is a pair of anchors for every candidate of an output that passes. -/
def AnchorsFit (platform : Platform F D) (config : Yolov5Config F) (io : Io F)
    (output : Int × Nat) : Prop :=
  ∀ (k : Nat) (c : Candidate), (cellsOf config output.1)[k]? = some c →
    Passes platform (levelOf platform config io output) (k * (clsNum config + 5)) →
      anchorIndex platform (levelOf platform config io output) c + 2 ≤ config.anchors.flatten.length

def generated (platform : Platform F D) (config : Yolov5Config F) (io : Io F)
    (output : Int × Nat) : Decoded F :=
  generateProposalsYolov5 platform (levelOf platform config io output) (letterboxCols config)
    (letterboxRows config)

omit [Scalar D] in
@[simp] theorem levelOf_clsNum : (levelOf platform config io output).clsNum = clsNum config := by
  simp only [levelOf]

omit [Scalar D] in
@[simp] theorem levelOf_stride : (levelOf platform config io output).stride = output.1 := rfl

omit [Scalar D] in
@[simp] theorem levelOf_tensor : (levelOf platform config io output).tensor = output.2 := rfl

theorem generated_iff {P : Decoded F → Prop} (nothing : P .none)
    (parts : ∀ first second, P (Decoded.append first second) ↔ P first ∧ P second) :
    P (generated platform config io output) ↔
      ∀ (k : Nat) (c : Candidate), (cellsOf config output.1)[k]? = some c →
        P (decodeCandidate platform (levelOf platform config io output)
          (k * (clsNum config + 5)) c) := by
  rw [generated, generateProposalsYolov5, levelOf_stride, ← cellsOf,
    decodeCandidates_iff nothing parts]
  simp only [Int.zero_add, levelOf_clsNum]

/-- An output of the compared size is read inside exactly if its tensor fits. -/
theorem generated_inside (size : countSize config output.1 = (io.pOutputs output.2).nSize.toNat) :
    Inside io.pOutputs (generated platform config io output).reads ↔
      TensorFits config io output := by
  rw [generated_iff (P := fun d => Inside io.pOutputs d.reads) inside_nil
    (inside_parts io.pOutputs)]
  constructor
  · intro inside
    by_cases none : cellsOf config output.1 = []
    · exact .inl none
    · obtain ⟨q, wrapped⟩ := countSize_wrapped none
      have three := three_cells none
      -- the fifth floats of the first and the last candidate are in the tensor
      have score (k : Nat) (bound : k < (cellsOf config output.1).length) :=
        decodeCandidate_score (inside k _ (List.getElem?_eq_getElem bound))
      have first := score 0 (by omega)
      have last := score ((cellsOf config output.1).length - 1) (by omega)
      rw [Nat.cast_pred (by omega)] at last
      have small : (io.pOutputs output.2).nSize.toNat < 2 ^ 32 := UInt32.toNat_lt _
      rw [size] at wrapped
      obtain ⟨-, low, high⟩ := last
      rw [levelOf_tensor] at high
      have fits := size_of_scores (by omega) (by omega) wrapped low (by omega)
      exact .inr ⟨first.1, by omega, fits.2⟩
  · rintro (none | ⟨here, classes, bytes⟩) k c found
    · rw [none] at found
      cases found
    · have bound := (List.getElem?_eq_some_iff.mp found).1
      refine decodeCandidate_inside here ?_ ?_ ?_
      · exact mul_nonneg (by omega) (by omega)
      · rw [levelOf_clsNum]
        exact classes
      · have runs : ((k : Int) + 1) * (clsNum config + 5) ≤
            (cellsOf config output.1).length * (clsNum config + 5) :=
          mul_le_mul_of_nonneg_right (by omega) (by omega)
        rw [add_mul, one_mul] at runs
        rw [levelOf_clsNum, levelOf_tensor]
        omega

/-- The anchors of an output are read inside exactly if there are enough. -/
theorem generated_anchors (known : output.1 = 8 ∨ output.1 = 16 ∨ output.1 = 32) :
    (∀ a ∈ (generated platform config io output).anchorReads,
      0 ≤ a ∧ a < config.anchors.flatten.length) ↔ AnchorsFit platform config io output := by
  rw [generated_iff (P := fun d => ∀ a ∈ d.anchorReads, 0 ≤ a ∧ a < config.anchors.flatten.length)
    (fun _ mem => nomatch mem) anchors_parts, AnchorsFit]
  refine forall_congr' fun k => forall_congr' fun c => imp_congr_right fun _ => ?_
  rw [decodeCandidate_anchors]
  refine imp_congr_right fun _ => ?_
  have group : 1 ≤ anchorGroup platform output.1 := by
    unfold anchorGroup
    obtain same | same | same := known
    all_goals simp [same]
  have front : 0 ≤ anchorIndex platform (levelOf platform config io output) c := by
    rw [anchorIndex, levelOf_stride]
    omega
  omega

theorem decodeOutputs_iff {P : Decoded F → Prop} (nothing : P .none)
    (parts : ∀ first second, P (Decoded.append first second) ↔ P first ∧ P second)
    {outputs : List (Int × Nat)} (complete : (decodeOutputs platform config io outputs).2 = true) :
    (∀ output ∈ outputs,
        countSize config output.1 = (io.pOutputs output.2).nSize.toNat) ∧
      (P (decodeOutputs platform config io outputs).1 ↔
        ∀ output ∈ outputs, P (generated platform config io output)) := by
  induction outputs with
  | nil => exact ⟨fun _ mem => (nomatch mem), fun _ _ mem => (nomatch mem), fun _ => nothing⟩
  | cons output rest ih =>
    rw [decodeOutputs] at complete ⊢
    split at complete
    · cases complete
    · rename_i size
      obtain ⟨sizes, same⟩ := ih complete
      have size := not_not.mp size
      rw [if_neg (not_not_intro size)]
      dsimp only
      rw [parts, same, List.forall_mem_cons, List.forall_mem_cons]
      exact ⟨⟨size, sizes⟩, Iff.rfl⟩

omit [Scalar F] in
/-- The strides of a configuration that is let through. -/
theorem supported_strides (ok : supported config = true) :
    ∀ output ∈ config.strides.zipIdx, output.1 = 8 ∨ output.1 = 16 ∨ output.1 = 32 := by
  intro output mem
  have checks := List.all_eq_true.mp ok output mem
  simp only [Bool.and_eq_true, Bool.or_eq_true, beq_iff_eq] at checks
  omega

/-- What `Postprocess` decodes when no check stops it. -/
theorem postprocess_passed (passed : (postprocess platform config io).1 = none) :
    supported config = true ∧
      (decodeOutputs platform config io config.strides.zipIdx).2 = true ∧
      (postprocess platform config io).2 =
        (decodeOutputs platform config io config.strides.zipIdx).1 := by
  rw [postprocess] at passed ⊢
  split at passed
  · cases passed
  · rename_i outputs
    split at passed
    · cases passed
    · rename_i ok
      rw [if_neg outputs, if_neg ok]
      rw [Bool.not_eq_true', Bool.not_eq_false] at ok
      dsimp only at passed ⊢
      split at passed
      · rename_i complete
        exact ⟨ok, complete, rfl⟩
      · cases passed

/-- When its checks let a model through, the decoding stays inside the tensors and
the anchors exactly if every tensor fits its candidates and there is a pair of
anchors for every candidate that passes. -/
theorem yolov5_inside_iff (passed : (postprocess platform config io).1 = none) :
    (Inside io.pOutputs (postprocess platform config io).2.reads ∧
        ∀ a ∈ (postprocess platform config io).2.anchorReads,
          0 ≤ a ∧ a < config.anchors.flatten.length) ↔
      ∀ output ∈ config.strides.zipIdx,
        TensorFits config io output ∧ AnchorsFit platform config io output := by
  obtain ⟨ok, complete, decoded⟩ := postprocess_passed passed
  obtain ⟨sizes, tensors⟩ := decodeOutputs_iff (P := fun d => Inside io.pOutputs d.reads)
    inside_nil (inside_parts io.pOutputs) complete
  have anchors := (decodeOutputs_iff
    (P := fun d => ∀ a ∈ d.anchorReads, 0 ≤ a ∧ a < config.anchors.flatten.length)
    (fun _ mem => nomatch mem) anchors_parts complete).2
  rw [decoded, tensors, anchors, ← forall₂_and]
  refine forall_congr' fun output => forall_congr' fun mem => ?_
  rw [generated_inside (sizes output mem), generated_anchors (supported_strides ok output mem)]

/-- Nine pairs of anchors are enough for every model that is let through. -/
theorem anchorsFit_of_nine (ok : supported config = true) (nine : 18 ≤ config.anchors.flatten.length)
    (mem : output ∈ config.strides.zipIdx) : AnchorsFit platform config io output := by
  intro k c found _
  have third := mem_candidates (List.mem_of_getElem? found)
  have group : anchorGroup platform output.1 ≤ 3 := by
    unfold anchorGroup
    obtain same | same | same := supported_strides ok output mem
    all_goals simp [same]
  rw [anchorIndex, levelOf_stride]
  omega

/-- A created model that is let through never reads behind its anchors, if its file
gives no list of anchors or nine pairs at the front of one. -/
theorem created_anchorsFit {yaml : YamlLibrary F} {configPath : String} {entries : List (Yaml × Yaml)}
    (created : createYolov5 yaml configPath (.ok (.map entries)) = some config)
    (nine : ∀ items, findKey "anchors" entries = some (.sequence items) →
      9 ≤ (leadingPairs items).length)
    (ok : supported config = true) (mem : output ∈ config.strides.zipIdx) :
    AnchorsFit platform config io output := by
  refine anchorsFit_of_nine ok ?_ mem
  obtain standard | ⟨items, given, length⟩ := createYolov5_anchors created
  · rw [standard]
    exact Nat.le_refl 18
  · have enough := nine items given
    omega

end Outputs

section Models

/-- The functions are exact where the model below needs them: the exponential
where it is 0 in a `double` and at 0, the logarithm at 1. -/
def tinyPlatform : Platform ℚ ℚ where
  widen q := q
  narrow q := q
  exp q := if q < -746 then 0 else q + 1
  log q := q - 1
  floatMax := (2 ^ 24 - 1) * 2 ^ 104
  unsetGroup := 0
  stray _ := 0
  blank :=
    { rect := ⟨0, 0, 0, 0⟩, label := 0, prob := 0, landmark := Vector.replicate 5 ⟨0, 0⟩, mask := [],
      maskFeat := [], kpsFeat := [], angle := 0, modelName := "", labelName := "" }

/-- A library for the numbers in the files below. -/
def tinyYaml : YamlLibrary ℚ where
  load _ := .ok .null
  asString
    | .scalar text => .ok text
    | _ => .error "bad conversion"
  asInt
    | .scalar "1" => .ok 1
    | .scalar "3" => .ok 3
    | .scalar "8" => .ok 8
    | _ => .error "bad conversion"
  asFloat
    | .scalar "0.5" => .ok (1 / 2)
    | .scalar "10" => .ok 10
    | .scalar "13" => .ok 13
    | .scalar "16" => .ok 16
    | .scalar "30" => .ok 30
    | .scalar "33" => .ok 33
    | .scalar "23" => .ok 23
    | _ => .error "bad conversion"

def scalars (texts : List String) : Yaml := .sequence (texts.map .scalar)

/-- A detector of one cell and one class, with the anchors of its file. -/
def tinyFile (anchors : List (List String)) : Yaml :=
  .map [(.scalar "model_type", .scalar "yolov5"), (.scalar "model_file", .scalar "tiny.axmodel"),
    (.scalar "inputs", scalars ["1", "3", "8", "8"]), (.scalar "prob_threshold", .scalar "0.5"),
    (.scalar "strides", scalars ["8"]), (.scalar "num_anchors", scalars ["3"]),
    (.scalar "labels", scalars ["person"]), (.scalar "anchors", .sequence (anchors.map scalars))]

def tinyConfig (anchors : List (List ℚ)) : Yolov5Config ℚ where
  configPath := "tiny.yaml"
  modelFile := "tiny.axmodel"
  modelType := "yolov5"
  inputs := [1, 3, 8, 8]
  probThreshold := 1 / 2
  nmsThreshold := 9 / 20
  numAnchors := [3]
  anchors := anchors
  strides := [8]
  labels := ["person"]

/-- One tensor of 18 floats, each of which is 1000. -/
def tinyIo : Io ℚ := ⟨1, fun _ => ⟨false, 72, fun _ => 1000⟩⟩

/-- With one pair of anchors, the two other anchors of the cell are read behind them. -/
theorem tiny_outside :
    ∃ config, createYolov5 tinyYaml "tiny.yaml" (.ok (tinyFile [["10", "13"], ["16"]])) =
        some config ∧
      (postprocess tinyPlatform config tinyIo).1 = none ∧
      ¬(Inside tinyIo.pOutputs (postprocess tinyPlatform config tinyIo).2.reads ∧
        ∀ a ∈ (postprocess tinyPlatform config tinyIo).2.anchorReads,
          0 ≤ a ∧ a < config.anchors.flatten.length) := by
  refine ⟨tinyConfig [[10, 13]], rfl, ?_, ?_⟩
  · decide
  · decide +kernel

/-- With three pairs everything is read inside. -/
theorem tiny_inside :
    Inside tinyIo.pOutputs
        (postprocess tinyPlatform (tinyConfig [[10, 13], [16, 30], [33, 23]]) tinyIo).2.reads ∧
      ∀ a ∈
        (postprocess tinyPlatform (tinyConfig [[10, 13], [16, 30], [33, 23]]) tinyIo).2.anchorReads,
        0 ≤ a ∧ a < 6 := by
  refine (yolov5_inside_iff (by decide)).mpr fun output mem => ?_
  obtain rfl := List.mem_singleton.mp mem
  constructor
  · exact .inr (by decide)
  · intro k c found _
    have third := mem_candidates (List.mem_of_getElem? found)
    have group : anchorGroup tinyPlatform 8 = 1 := rfl
    have six : (tinyConfig [[10, 13], [16, 30], [33, 23]]).anchors.flatten.length = 6 := rfl
    rw [anchorIndex, levelOf_stride, group, six]
    omega

end Models

end YoloDecoding
