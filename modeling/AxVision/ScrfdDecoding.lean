import AxVision.ScrfdNms
import AxVision.TensorReads

/-!
# Decoding of the face detector

`Postprocess` reads the scores, boxes and keypoints of three levels by one
index. It compares the size of the score tensor with the number of anchors; the
tensors of boxes and keypoints are read for every score that passes, whatever
their sizes are.
-/

namespace ScrfdDecoding

open DetectionTypes ScrfdNms TensorReads

universe u v

variable {F : Type u} {D : Type v} [Scalar F]

/-- The strides of the three levels, each with its index. -/
def kStrides : List (Nat × Int) := [(0, 8), (1, 16), (2, 32)]

section Centers

structure CenterKey where
  h : Int
  w : Int
  stride : Int
  deriving DecidableEq

/-- The centre of every anchor, as two floats each. -/
def centersOf (key : CenterKey) : List F :=
  (List.range key.h.toNat).flatMap fun ay => (List.range key.w.toNat).flatMap fun ax =>
    let cx := ofInt ax * ofInt key.stride
    let cy := ofInt ay * ofInt key.stride
    [cx, cy, cx, cy]

/-- `centerCache_`: whatever is stored for a key are its centres. -/
structure CenterCache (F : Type u) [Scalar F] where
  entries : List (CenterKey × List F)
  valid : ∀ entry ∈ entries, entry.2 = centersOf entry.1

def CenterCache.find? (cache : CenterCache F) (key : CenterKey) : Option (CenterKey × List F) :=
  cache.entries.find? fun entry => entry.1 = key

def CenterCache.emplace (cache : CenterCache F) (key : CenterKey) : CenterCache F where
  entries := (key, centersOf key) :: cache.entries
  valid := List.forall_mem_cons.mpr ⟨rfl, cache.valid⟩

/-- The centres of a key, and the cache behind the lookup. -/
def CenterCache.centers (cache : CenterCache F) (key : CenterKey) : List F × CenterCache F :=
  match cache.find? key with
  | some entry => (entry.2, cache)
  | none => (centersOf key, cache.emplace key)

end Centers

structure ScrfdConfig (F : Type u) where
  modelType : String
  inputs : List Int
  probThreshold : F
  nmsThreshold : F
  labels : List String

/-- What `GetInfo` and `GetOutput` give; a null pointer is `none`. -/
structure Io (F : Type u) where
  nOutputSize : Option UInt32
  pOutputs : Option (Nat → Tensor F)

/-- The scale and the padding of the letterbox. -/
structure Letterbox (F : Type u) where
  detScale : F
  padW : F
  padH : F

def inputH (config : ScrfdConfig F) : Int := config.inputs.getD 2 0

def inputW (config : ScrfdConfig F) : Int := config.inputs.getD 3 0

def letterbox (config : ScrfdConfig F) (picWidth picHeight : Int) : Letterbox F :=
  let scaleW : F := ofInt (inputW config) / ofInt picWidth
  let scaleH : F := ofInt (inputH config) / ofInt picHeight
  let detScale := stdMin scaleW scaleH
  let resizedW := ofInt picWidth * detScale
  let resizedH := ofInt picHeight * detScale
  { detScale := detScale
    padW := (ofInt (inputW config) - resizedW) * Scalar.ofRat (1 / 2)
    padH := (ofInt (inputH config) - resizedH) * Scalar.ofRat (1 / 2) }

/-- `cv::Rect(x, y, width, height)` as a `cv::Rect_<float>`. -/
def wholeRect (x y width height : F) : Rect F :=
  ⟨ofInt (Scalar.toInt x), ofInt (Scalar.toInt y), ofInt (Scalar.toInt width),
    ofInt (Scalar.toInt height)⟩

/-- The objects of a part of the decoding, and what was read for them. -/
structure Decoded (F : Type u) where
  proposals : List (Object F)
  reads : List Read

section Decoding

/-- The turn of one anchor. A new object is `blank`, which holds the fields that
its construction leaves open. -/
def decodeAnchor (config : ScrfdConfig F) (box : Letterbox F) (blank : Object F)
    (outs : Nat → Tensor F) (idx : Nat) (stride : Int) (centers : List F) (i : Nat) : Decoded F :=
  let scores := (outs idx).floats
  let bboxes := (outs (idx + 3)).floats
  let kps := (outs (idx + 6)).floats
  let score := scores i
  if Scalar.lt score config.probThreshold then ⟨[], [⟨idx, i⟩]⟩
  else
    let cx := centers.getD (i * 2) (ofInt 0)
    let cy := centers.getD (i * 2 + 1) (ofInt 0)
    let l := bboxes (i * 4) * ofInt stride
    let t := bboxes (i * 4 + 1) * ofInt stride
    let r := bboxes (i * 4 + 2) * ofInt stride
    let b := bboxes (i * 4 + 3) * ofInt stride
    let x1 := (cx - l - box.padW) / box.detScale
    let y1 := (cy - t - box.padH) / box.detScale
    let x2 := (cx + r - box.padW) / box.detScale
    let y2 := (cy + b - box.padH) / box.detScale
    let face := { blank with
      label := 0
      prob := score
      rect := wholeRect x1 y1 (x2 - x1) (y2 - y1) }
    let boxReads := ⟨idx, i⟩ :: span (idx + 3) (i * 4) 4
    if (outs (idx + 6)).null then ⟨[face], boxReads⟩
    else
      let point (k : Fin 5) : Point2f F :=
        let px := cx + kps (i * 10 + k * 2) * ofInt stride
        let py := cy + kps (i * 10 + k * 2 + 1) * ofInt stride
        ⟨(px - box.padW) / box.detScale, (py - box.padH) / box.detScale⟩
      ⟨[{ face with landmark := Vector.ofFn point }], boxReads ++ span (idx + 6) (i * 10) 10⟩

def levelKey (config : ScrfdConfig F) (stride : Int) : CenterKey :=
  ⟨(inputH config).tdiv stride, (inputW config).tdiv stride, stride⟩

/-- The turn of one level, which is skipped if there are too few scores. -/
def decodeLevel (config : ScrfdConfig F) (box : Letterbox F) (blank : Object F)
    (outs : Nat → Tensor F) (cache : CenterCache F) (idx : Nat) (stride : Int) :
    Decoded F × CenterCache F :=
  let scoreCount := (outs idx).nSize.toNat / 4
  let (centers, cache) := cache.centers (levelKey config stride)
  let nAnchors := centers.length / 2
  if scoreCount < nAnchors then (⟨[], []⟩, cache)
  else
    let anchors := (List.range nAnchors).map
      (decodeAnchor config box blank outs idx stride centers)
    (⟨anchors.flatMap Decoded.proposals, anchors.flatMap Decoded.reads⟩, cache)

def decodeLevels (config : ScrfdConfig F) (box : Letterbox F) (blank : Object F)
    (outs : Nat → Tensor F) (cache : CenterCache F) :
    List (Nat × Int) → Decoded F × CenterCache F
  | [] => (⟨[], []⟩, cache)
  | (idx, stride) :: rest =>
    let (first, cache) := decodeLevel config box blank outs cache idx stride
    let (others, cache) := decodeLevels config box blank outs cache rest
    (⟨first.proposals ++ others.proposals, first.reads ++ others.reads⟩, cache)

end Decoding

section Postprocess

variable [Scalar D]

/-- `models::AssignLabelNames`. -/
def assignLabelNames (labels : List String) (objects : List (Object F)) :
    Except String (List (Object F)) :=
  match objects.findIdx? fun o => o.label < 0 ∨ (labels.length : Int) ≤ o.label with
  | some i =>
    let label := (objects[i]?.map Object.label).getD 0
    .error s!"label index {label} at object {i} is out of range [0, {labels.length})"
  | none => .ok (objects.map fun o => { o with labelName := labels.getD o.label.toNat "" })

/-- The return value and the objects, with what was read and the cache behind it. -/
structure Processed (F : Type u) [Scalar F] where
  ret : Int
  objects : List (Object F)
  reads : List Read
  cache : CenterCache F

/-- How `std::sort` orders each list of proposals. -/
def Sorting (F : Type u) [Scalar F] : Type u :=
  (dets : List (Object F)) → SortedOrder (Vector.mk (n := dets.length) dets.toArray rfl)

/-- The objects that a suppression keeps, in its order. -/
def suppressedObjects (boxes : Boxes F D) (sort : Sorting F) (thresh : F)
    (proposals : List (Object F)) : List (Object F) :=
  (nms boxes _ thresh (sort proposals)).map fun i => proposals[i]

/-- `Scrfd::Postprocess`. -/
def postprocess (boxes : Boxes F D) (sort : Sorting F) (blank : Object F) (config : ScrfdConfig F)
    (cache : CenterCache F) (io : Io F) (picWidth picHeight : Int) : Processed F :=
  if io.nOutputSize ≠ some 9 then ⟨-1, [], [], cache⟩
  else
    match io.pOutputs with
    | none => ⟨-1, [], [], cache⟩
    | some outs =>
      let box := letterbox config picWidth picHeight
      let (decoded, cache) := decodeLevels config box blank outs cache kStrides
      if decoded.proposals = [] then ⟨0, [], decoded.reads, cache⟩
      else
        let objects := suppressedObjects boxes sort config.nmsThreshold decoded.proposals
        match assignLabelNames config.labels objects with
        | .error _ => ⟨-1, objects, decoded.reads, cache⟩
        | .ok named => ⟨0, named, decoded.reads, cache⟩

end Postprocess

section Centers

theorem centers_eq (cache : CenterCache F) (key : CenterKey) :
    (cache.centers key).1 = centersOf key := by
  rw [CenterCache.centers]
  split
  · rename_i entry found
    have stored := cache.valid entry (List.mem_of_find?_eq_some found)
    rw [CenterCache.find?] at found
    have same : entry.1 = key := by simpa using List.find?_some found
    rw [← same]
    exact stored
  · rfl

/-- The anchors of a level: two for each cell. -/
def anchorCount (key : CenterKey) : Nat := key.h.toNat * key.w.toNat * 2

theorem centersOf_length (key : CenterKey) :
    (centersOf (F := F) key).length / 2 = anchorCount key := by
  have cells : (centersOf (F := F) key).length = key.h.toNat * (key.w.toNat * 4) := by
    simp [centersOf, List.length_flatMap]
  rw [cells, anchorCount, ← Nat.mul_assoc]
  omega

end Centers

section Room

variable {config : ScrfdConfig F} {box : Letterbox F} {blank : Object F} {outs : Nat → Tensor F}
  {idx i : Nat}

/-- The score of an anchor is not below the threshold. -/
def Passes (config : ScrfdConfig F) (outs : Nat → Tensor F) (idx i : Nat) : Prop :=
  Scalar.lt ((outs idx).floats i) config.probThreshold = false

/-- There is room for what an anchor with a passing score needs: four floats of
the box, and ten of the keypoints if there are keypoints. -/
def AnchorRoom (outs : Nat → Tensor F) (idx i : Nat) : Prop :=
  (outs (idx + 3)).null = false ∧ 16 * (i + 1) ≤ (outs (idx + 3)).nSize.toNat ∧
    ((outs (idx + 6)).null = false → 40 * (i + 1) ≤ (outs (idx + 6)).nSize.toNat)

theorem decodeAnchor_inside (box : Letterbox F) (blank : Object F) (stride : Int) (centers : List F) :
    Inside outs (decodeAnchor config box blank outs idx stride centers i).reads ↔
      (outs idx).Holds i ∧ (Passes config outs idx i → AnchorRoom outs idx i) := by
  have single : Inside outs [(⟨idx, i⟩ : Read)] ↔ (outs idx).Holds i := by simp
  have boxRoom : Inside outs (span (idx + 3) ((i : Int) * 4) 4) ↔
      (outs (idx + 3)).null = false ∧ 16 * (i + 1) ≤ (outs (idx + 3)).nSize.toNat := by
    rw [inside_span outs (idx + 3) (by omega) 3]
    exact and_congr_right fun _ => by omega
  have pointRoom : Inside outs (span (idx + 6) ((i : Int) * 10) 10) ↔
      (outs (idx + 6)).null = false ∧ 40 * (i + 1) ≤ (outs (idx + 6)).nSize.toNat := by
    rw [inside_span outs (idx + 6) (by omega) 9]
    exact and_congr_right fun _ => by omega
  rw [decodeAnchor, Passes, AnchorRoom]
  dsimp only
  cases passes : Scalar.lt ((outs idx).floats i) config.probThreshold
  · cases absent : (outs (idx + 6)).null
    · simp only [Bool.false_eq_true, if_false, inside_append, inside_cons, boxRoom, pointRoom,
        absent, true_and, forall_const, and_assoc]
    · simp only [Bool.false_eq_true, if_false, if_true, inside_cons, boxRoom, forall_const,
        Bool.true_eq_false, false_imp_iff, and_true]
  · simp only [if_true, single, Bool.true_eq_false, false_imp_iff, and_true]

/-- The level is decoded, and not skipped for its number of scores. -/
def Decodes (config : ScrfdConfig F) (outs : Nat → Tensor F) (level : Nat × Int) : Prop :=
  4 * anchorCount (levelKey config level.2) ≤ (outs level.1).nSize.toNat

/-- The tensors of a level have room for its anchors. -/
def LevelRoom (config : ScrfdConfig F) (outs : Nat → Tensor F) (level : Nat × Int) : Prop :=
  Decodes config outs level → ∀ i < anchorCount (levelKey config level.2),
    (outs level.1).null = false ∧ (Passes config outs level.1 i → AnchorRoom outs level.1 i)

theorem decodeLevel_inside (config : ScrfdConfig F) (box : Letterbox F) (blank : Object F)
    (outs : Nat → Tensor F) (cache : CenterCache F) (idx : Nat) (stride : Int) :
    Inside outs (decodeLevel config box blank outs cache idx stride).1.reads ↔
      LevelRoom config outs (idx, stride) := by
  rw [decodeLevel, LevelRoom, Decodes]
  dsimp only
  rw [centers_eq, centersOf_length]
  split
  · rename_i few
    exact ⟨fun _ enough => absurd enough (by omega), fun _ => inside_nil⟩
  · rename_i enough
    have enough : 4 * anchorCount (levelKey config stride) ≤ (outs idx).nSize.toNat := by omega
    have holds (i : Nat) (bound : i < anchorCount (levelKey config stride)) :
        (outs idx).Holds i ↔ (outs idx).null = false :=
      ⟨And.left, fun here => ⟨here, by omega, by omega⟩⟩
    rw [inside_flatMap, List.forall_mem_map, forall_prop_of_true enough]
    refine forall_congr' fun i => ?_
    rw [List.mem_range, decodeAnchor_inside]
    exact imp_congr_right fun bound => by rw [holds i bound]

/-- Whatever is cached, all reads are inside exactly if each level has the room. -/
theorem decodeLevels_inside (config : ScrfdConfig F) (box : Letterbox F) (blank : Object F)
    (outs : Nat → Tensor F) (levels : List (Nat × Int)) (cache : CenterCache F) :
    Inside outs (decodeLevels config box blank outs cache levels).1.reads ↔
      ∀ level ∈ levels, LevelRoom config outs level := by
  induction levels generalizing cache with
  | nil => exact ⟨fun _ _ mem => (nomatch mem), fun _ => inside_nil⟩
  | cons level levels ih =>
    obtain ⟨idx, stride⟩ := level
    rw [decodeLevels]
    dsimp only
    rw [inside_append, ih, decodeLevel_inside, List.forall_mem_cons]

end Room

section Results

variable [Scalar D] {boxes : Boxes F D} {sort : Sorting F} {blank : Object F}
  {config : ScrfdConfig F} {cache : CenterCache F} {io : Io F} {outs : Nat → Tensor F}

/-- What `Postprocess` reads once it goes on to decode. -/
theorem postprocess_reads (nine : io.nOutputSize = some 9) (present : io.pOutputs = some outs)
    (picWidth picHeight : Int) :
    (postprocess boxes sort blank config cache io picWidth picHeight).reads =
      (decodeLevels config (letterbox config picWidth picHeight) blank outs cache
        kStrides).1.reads := by
  rw [postprocess, if_neg (not_not_intro nine), present]
  dsimp only
  split
  · rfl
  · split
    · rfl
    · rfl

/-- Once it decodes, `Postprocess` stays inside the tensors exactly if each level
that it does not skip has room for the boxes and keypoints of passing scores. -/
theorem scrfd_inside_iff (nine : io.nOutputSize = some 9) (present : io.pOutputs = some outs)
    (picWidth picHeight : Int) :
    Inside outs (postprocess boxes sort blank config cache io picWidth picHeight).reads ↔
      ∀ level ∈ kStrides, LevelRoom config outs level := by
  rw [postprocess_reads nine present]
  exact decodeLevels_inside config _ blank outs kStrides cache

end Results

section Models

/-- A detector for pictures of 32 by 32, with 32, 8 and 2 anchors. -/
def smallDetector : ScrfdConfig ℚ where
  modelType := "scrfd"
  inputs := [1, 3, 32, 32]
  probThreshold := 1 / 2
  nmsThreshold := 2 / 5
  labels := ["face"]

/-- Its tensors, where every float is 1 and the boxes of the last level have `bytes`. -/
def smallTensors (bytes : UInt32) (k : Nat) : Tensor ℚ where
  null := false
  nSize := [128, 32, 8, 512, 128, bytes, 1280, 320, 80].getD k 0
  floats := fun _ => 1

def smallIo (bytes : UInt32) : Io ℚ := ⟨some 9, some (smallTensors bytes)⟩

def emptyCache : CenterCache ℚ := ⟨[], fun _ mem => nomatch mem⟩

/-- A sort by falling score. -/
def exactSort : Sorting ℚ := fun dets =>
  let falling (a b : Fin dets.length) : Bool := dets[b].prob ≤ dets[a].prob
  { order := (List.finRange dets.length).mergeSort falling
    perm := List.mergeSort_perm _ _
    sorted := by
      have trans (a b c : Fin dets.length) (first : falling a b = true)
          (second : falling b c = true) : falling a c = true :=
        decide_eq_true ((of_decide_eq_true second).trans (of_decide_eq_true first))
      have total (a b : Fin dets.length) : (falling a b || falling b a) = true := by
        rw [Bool.or_eq_true, decide_eq_true_iff, decide_eq_true_iff]
        exact le_total _ _
      refine (List.pairwise_mergeSort trans total _).imp fun {a b} ordered => ?_
      exact decide_eq_false (not_lt.mpr (of_decide_eq_true ordered)) }

/-- Four floats for each of the two last anchors are enough. -/
theorem smallDetector_inside :
    Inside (smallTensors 32) (postprocess exactBoxes exactSort (face 0 0) smallDetector emptyCache
      (smallIo 32) 32 32).reads := by
  refine (scrfd_inside_iff rfl rfl 32 32).mpr ?_
  unfold LevelRoom Decodes Passes AnchorRoom
  decide +kernel

/-- With one float for each of them, the first box is read behind its tensor. -/
theorem smallDetector_outside :
    (smallIo 8).nOutputSize = some 9 ∧
      ¬Inside (smallTensors 8) (postprocess exactBoxes exactSort (face 0 0) smallDetector emptyCache
        (smallIo 8) 32 32).reads := by
  refine ⟨rfl, ?_⟩
  rw [postprocess_reads rfl rfl, decodeLevels_inside]
  intro room
  have last := room (2, 32) (by decide) (by unfold Decodes; decide) 0 (by decide)
  have bytes := (last.2 (by unfold Passes; decide +kernel)).2.1
  exact absurd bytes (by decide)

end Models

end ScrfdDecoding
