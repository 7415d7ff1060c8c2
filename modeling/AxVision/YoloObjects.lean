import AxVision.DetectionBoxes
import AxVision.YoloScores

/-!
# The objects of YOLOv5

`Postprocess` as a whole: what is decoded goes through the suppression and back to the
picture, and gets the names of its labels.
-/

namespace YoloObjects

open DetectionTypes DetectionSorts DetectionBoxes YoloDecoding YoloConfigs YoloScores
open scoped RealArithmetic

universe v

section Postprocess

variable {F : Type} {D : Type v} [Scalar F]

/-- `models::AssignLabelNames` -/
def assignLabelNames (labels : List String) (objects : List (Object F)) :
    Except String (List (Object F)) :=
  match objects.zipIdx.find? fun (o, _) => o.label < 0 || labels.length ≤ o.label.toNat with
  | some (o, i) =>
    .error s!"label index {o.label} at object {i} is out of range [0, {labels.length})"
  | none => .ok (objects.map fun o => { o with labelName := labels.getD o.label.toNat "" })

variable [Scalar D]

/-- `Yolov5::Postprocess`; `objects` is what the vector of the caller holds. -/
def detect (decoding : YoloDecoding.Platform F D) (boxes : DetectionBoxes.Platform F D)
    (leftFirst : Int → Int → Bool) (config : Yolov5Config F) (io : Io F)
    (picWidth picHeight : Int) (objects : List (Object F)) : Option (Int × List (Object F)) :=
  match postprocess decoding config io with
  | (some ret, _) => some (ret, objects)
  | (none, decoded) =>
    (getOutBbox boxes leftFirst (fun i : Fin decoded.proposals.length => decoded.proposals.get i)
      config.nmsThreshold (letterboxRows config) (letterboxCols config) picHeight picWidth).map
      fun found =>
        match assignLabelNames config.labels found with
        | .error _ => (-1, found)
        | .ok named => (0, named)

end Postprocess

section Labels

variable {F : Type} {D : Type v} [Scalar F] [Scalar D]
  {decoding : YoloDecoding.Platform F D} {config : Yolov5Config F} {io : Io F}

/-- An object with a label of the configuration and a probability that is enough. -/
def Fitting (config : Yolov5Config F) (o : Object F) : Prop :=
  0 ≤ o.label ∧ o.label < config.labels.length ∧ Scalar.le config.probThreshold o.prob = true

omit [Scalar F] in
theorem clsNum_le (config : Yolov5Config F) : clsNum config ≤ config.labels.length := by
  rcases lt_or_ge config.labels.length (2 ^ 31) with small | large
  · exact (clsNum_eq small).le
  · have below : clsNum config < (((2 ^ 32 : Nat) : Int) + 1) / 2 := Int.bmod_lt (by norm_num)
    have half : (((2 ^ 32 : Nat) : Int) + 1) / 2 = (2 ^ 31 : Nat) := by norm_num
    rw [half] at below
    exact below.le.trans (Int.ofNat_le.mpr large)

omit [Scalar D] in
/-- The best class is one of the classes, or the first. -/
theorem bestClass_bounds (feature : Int → F) {clsNum : Int} {n : Nat}
    (within : clsNum ≤ n) (pos : 0 < n) :
    0 ≤ (bestClass decoding feature clsNum).1 ∧ (bestClass decoding feature clsNum).1 < n := by
  rw [bestClass_eq]
  refine List.foldlRecOn (motive := fun best : Int × F => 0 ≤ best.1 ∧ best.1 < n) _ _
    ⟨le_rfl, Int.natCast_pos.mpr pos⟩ fun best bounds s mem => ?_
  have bound := List.mem_range.mp mem
  split_ifs
  · exact ⟨Int.natCast_nonneg s, by dsimp only; omega⟩
  · exact bounds

omit [Scalar F] in
theorem proposals_parts (P : Object F → Prop) (first second : Decoded F) :
    (∀ o ∈ (first.append second).proposals, P o) ↔
      (∀ o ∈ first.proposals, P o) ∧ ∀ o ∈ second.proposals, P o := List.forall_mem_append

theorem decodeCandidate_fitting {level : Level F} {n : Nat} (within : level.clsNum ≤ n)
    (pos : 0 < n) (start : Int) (c : Candidate) :
    ∀ o ∈ (decodeCandidate decoding level start c).proposals,
      0 ≤ o.label ∧ o.label < n ∧ Scalar.le level.probThreshold o.prob = true := by
  rw [decodeCandidate]
  dsimp only
  split_ifs with skipped enough
  · exact List.forall_mem_nil _
  · intro o mem
    rw [List.mem_singleton.mp mem]
    have bounds :=
      @bestClass_bounds F D _ decoding (fun j => level.feat (start + j)) _ _ within pos
    exact ⟨bounds.1, bounds.2, enough⟩
  · exact List.forall_mem_nil _

theorem generateProposals_fitting {level : Level F} {n : Nat} (within : level.clsNum ≤ n)
    (pos : 0 < n) (cols rows : Int) :
    ∀ o ∈ (generateProposalsYolov5 decoding level cols rows).proposals,
      0 ≤ o.label ∧ o.label < n ∧ Scalar.le level.probThreshold o.prob = true :=
  (decodeCandidates_iff
    (P := fun d => ∀ o ∈ d.proposals,
      0 ≤ o.label ∧ o.label < n ∧ Scalar.le level.probThreshold o.prob = true)
    (List.forall_mem_nil _) (proposals_parts _) _ _).mpr
    fun _ c _ => decodeCandidate_fitting within pos _ c

theorem decodeOutputs_fitting (some_label : config.labels ≠ []) (outputs : List (Int × Nat)) :
    ∀ o ∈ (decodeOutputs decoding config io outputs).1.proposals, Fitting config o := by
  induction outputs with
  | nil => exact List.forall_mem_nil _
  | cons output rest ih =>
    rw [decodeOutputs]
    split_ifs
    · exact List.forall_mem_nil _
    · refine (proposals_parts _ _ _).mpr ⟨?_, ih⟩
      have within : (levelOf decoding config io output).clsNum ≤ config.labels.length :=
        le_of_eq_of_le levelOf_clsNum (clsNum_le config)
      exact generateProposals_fitting within (List.length_pos_iff.mpr some_label) _ _

end Labels

section Results

variable {F : Type} {D : Type v} [Scalar F] [Scalar D]
  {decoding : YoloDecoding.Platform F D} {boxes : DetectionBoxes.Platform F D}
  {config : Yolov5Config F} {io : Io F}

theorem postprocess_fitting (some_label : config.labels ≠ []) :
    ∀ o ∈ (postprocess decoding config io).2.proposals, Fitting config o := by
  rw [postprocess]
  split_ifs
  · exact List.forall_mem_nil _
  · exact List.forall_mem_nil _
  · exact decodeOutputs_fitting some_label _

/-- Labels that fit are named. -/
theorem assignLabelNames_fitting {objects : List (Object F)}
    (fitting : ∀ o ∈ objects, Fitting config o) :
    assignLabelNames config.labels objects = .ok (objects.map fun o =>
      { o with labelName := config.labels.getD o.label.toNat "" }) := by
  have none : objects.zipIdx.find? (fun (o, _) =>
      o.label < 0 || config.labels.length ≤ o.label.toNat) = none := by
    refine List.find?_eq_none.mpr fun (o, i) mem => ?_
    obtain ⟨low, high, -⟩ := fitting o (List.fst_mem_of_mem_zipIdx mem)
    simp only [Bool.or_eq_true, decide_eq_true_eq, not_or, not_lt, not_le]
    exact ⟨low, by omega⟩
  rw [assignLabelNames, none]

/-- When the outputs pass the checks and there are labels, `Postprocess` succeeds, whichever
sections of the sort run first: its objects are proposals that the suppression keeps, taken
back to the picture. The probability of each is enough, and its name is that of its label. -/
theorem detect_objects (asymm : Asymmetric F) (some_label : config.labels ≠ [])
    (passed : (postprocess decoding config io).1 = none) (picWidth picHeight : Int) :
    let proposals := (postprocess decoding config io).2.proposals
    let l := letterbox boxes (letterboxRows config) (letterboxCols config) picHeight picWidth
    ∃ picked : List (Fin proposals.length),
      (Ranked (fun i : Fin proposals.length => (proposals.get i).prob) →
        Selected boxes config.nmsThreshold (fun i => proposals.get i) picked) ∧
      (∀ i ∈ picked, Fitting config (proposals.get i)) ∧
      ∀ leftFirst objects,
        detect decoding boxes leftFirst config io picWidth picHeight objects =
          some (0, picked.map fun i =>
            { toSource l picHeight picWidth (proposals.get i) with
              labelName := config.labels.getD (proposals.get i).label.toNat "" }) := by
  intro proposals l
  have fitting := @postprocess_fitting F D _ _ decoding config io some_label
  obtain ⟨picked, run, selected⟩ := getOutBbox_picks boxes asymm
    (fun i : Fin proposals.length => proposals.get i) config.nmsThreshold (letterboxRows config)
    (letterboxCols config) picHeight picWidth
  refine ⟨picked, selected, fun i _ => fitting _ (List.get_mem _ _), fun leftFirst objects => ?_⟩
  have stages : postprocess decoding config io = (none, (postprocess decoding config io).2) :=
    Prod.ext passed rfl
  rw [detect, stages]
  dsimp only
  rw [run leftFirst, Option.map_some, assignLabelNames_fitting]
  · rw [List.map_map]
    rfl
  · intro o mem
    obtain ⟨i, -, rfl⟩ := List.mem_map.mp mem
    exact show Fitting config (proposals.get i) from fitting _ (List.get_mem proposals i)

/-- The sizes that 640 by 640 with four labels takes. -/
noncomputable def flatOutputs : Io ℝ where
  nOutputSize := 3
  pOutputs k :=
    { null := false
      nSize := if k = 0 then 691200 else if k = 1 then 172800 else 43200
      floats := fun _ => 0 }

noncomputable def realBoxes : DetectionBoxes.Platform ℝ ℝ where
  intersection a b :=
    let x := max a.x b.x
    let y := max a.y b.y
    let width := min (a.x + a.width) (b.x + b.width) - x
    let height := min (a.y + a.height) (b.y + b.height) - y
    if width ≤ 0 ∨ height ≤ 0 then ⟨0, 0, 0, 0⟩ else ⟨x, y, width, height⟩
  narrow x := x

theorem flatOutputs_objects :
    let proposals := (postprocess realPlatform defaultConfig flatOutputs).2.proposals
    let l := letterbox realBoxes (letterboxRows (defaultConfig : Yolov5Config ℝ))
      (letterboxCols (defaultConfig : Yolov5Config ℝ)) 1080 1920
    ∃ picked : List (Fin proposals.length),
      (Ranked (fun i : Fin proposals.length => (proposals.get i).prob) →
        Selected realBoxes (defaultConfig : Yolov5Config ℝ).nmsThreshold
          (fun i => proposals.get i) picked) ∧
      (∀ i ∈ picked, Fitting defaultConfig (proposals.get i)) ∧
      ∀ leftFirst objects,
        detect realPlatform realBoxes leftFirst defaultConfig flatOutputs 1920 1080 objects =
          some (0, picked.map fun i =>
            { toSource l 1080 1920 (proposals.get i) with
              labelName := (defaultConfig : Yolov5Config ℝ).labels.getD
                (proposals.get i).label.toNat "" }) := by
  have asymm : Asymmetric ℝ := by
    intro a b lt
    simp only [Scalar.lt, decide_eq_true_eq, decide_eq_false_iff_not] at lt ⊢
    exact lt.asymm
  exact detect_objects asymm (List.cons_ne_nil _ _) rfl 1920 1080

end Results

end YoloObjects
