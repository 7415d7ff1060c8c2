import AxVision.ScrfdDecoding
import Mathlib.Algebra.Order.Ring.Abs
import Mathlib.Data.List.Basic
import Mathlib.Tactic.Linarith

/-!
# The faces of the detector

In exact arithmetic, `Postprocess` is the way back of the letterbox and of the
distances from the anchors. Tensors that show faces of the picture in this way
give these faces again, less those that the suppression drops.
-/

namespace ScrfdFaces

open DetectionTypes ScrfdNms ScrfdDecoding TensorReads

universe u v

section Centers

variable {F : Type u} [Scalar F] {α : Type v}

/-- An element of a part, where all parts have one length. -/
theorem flatMap_part {part : Int → List α} {m n q r : Nat} (length : ∀ k, (part k).length = m)
    (below : q < n) (inside : r < m) :
    (List.flatMap part (do let k ← List.range n; pure (k : Int)))[q * m + r]? =
      (part q)[r]? := by
  have casts (n : Nat) : List.flatMap part (do let k ← List.range n; pure (k : Int)) =
      (List.range n).flatMap fun (k : Nat) => part k := by
    simp [List.flatMap_assoc]
  have total (n : Nat) : ((List.range n).flatMap fun (k : Nat) => part k).length = n * m := by
    simp [List.length_flatMap, length]
  rw [casts]
  induction n with
  | zero => omega
  | succ n ih =>
    rw [List.range_succ, List.flatMap_append, List.flatMap_singleton]
    obtain earlier | rfl := Nat.lt_succ_iff_lt_or_eq.mp below
    · have front : q * m + r < n * m := by
        have parts : (q + 1) * m ≤ n * m := Nat.mul_le_mul_right m earlier
        rw [Nat.succ_mul] at parts
        omega
      rw [List.getElem?_append_left (by rwa [total]), ih earlier]
    · rw [List.getElem?_append_right (by rw [total]; omega), total, Nat.add_sub_cancel_left]

/-- The centre of an anchor, of which a cell has two and a row as many cells as it is wide. -/
def centreOf (key : CenterKey) (i : Nat) : F × F :=
  (ofInt (i / 2 % key.w.toNat : Nat) * ofInt key.stride,
    ofInt (i / 2 / key.w.toNat : Nat) * ofInt key.stride)

theorem centers_get {key : CenterKey} {i : Nat} (bound : i < anchorCount key) (absent : F) :
    ((centersOf key).getD (i * 2) absent, (centersOf key).getD (i * 2 + 1) absent) =
      (centreOf key i : F × F) := by
  rw [anchorCount] at bound
  obtain ⟨h, w, stride⟩ := key
  dsimp only at bound
  have cells : i / 2 < h.toNat * w.toNat := by omega
  have wide : 0 < w.toNat := Nat.pos_of_ne_zero fun none => by simp [none] at cells
  have row : i / 2 / w.toNat < h.toNat := Nat.div_lt_of_lt_mul (by rwa [Nat.mul_comm])
  have column : i / 2 % w.toNat < w.toNat := Nat.mod_lt _ wide
  have place : i / 2 / w.toNat * (w.toNat * 4) + i / 2 % w.toNat * 4 = i / 2 * 4 := by
    rw [← Nat.mul_assoc, ← Nat.add_mul, Nat.div_add_mod']
  have at_place {r : Nat} (inside : r < 4) :
      (centersOf ⟨h, w, stride⟩ : List F)[i / 2 * 4 + r]? =
        let c : F × F := centreOf ⟨h, w, stride⟩ i
        [c.1, c.2, c.1, c.2][r]? := by
    rw [← place, Nat.add_assoc, centersOf, flatMap_part (by simp) row (by omega),
      flatMap_part (by simp) column inside]
    rfl
  obtain even | odd := Nat.mod_two_eq_zero_or_one i
  · have first : i * 2 = i / 2 * 4 + 0 := by omega
    have second : i * 2 + 1 = i / 2 * 4 + 1 := by omega
    rw [second, first, List.getD, List.getD, at_place (by omega), at_place (by omega)]
    rfl
  · have first : i * 2 = i / 2 * 4 + 2 := by omega
    have second : i * 2 + 1 = i / 2 * 4 + 3 := by omega
    rw [second, first, List.getD, List.getD, at_place (by omega), at_place (by omega)]
    rfl

end Centers

section Faces

/-- A face of the picture by its corners. -/
structure Face where
  x1 : ℚ
  y1 : ℚ
  x2 : ℚ
  y2 : ℚ
  prob : ℚ
  landmark : Fin 5 → Point2f ℚ

/-- The object of a face: the landmarks as they are, the box in whole numbers. -/
def faceObject (blank : Object ℚ) (f : Face) : Object ℚ :=
  { blank with
    label := 0
    prob := f.prob
    rect := wholeRect f.x1 f.y1 (f.x2 - f.x1) (f.y2 - f.y1)
    landmark := Vector.ofFn f.landmark }

/-- Where the letterbox shows a point of the picture. -/
def Letterbox.x (box : Letterbox ℚ) (x : ℚ) : ℚ := x * box.detScale + box.padW

def Letterbox.y (box : Letterbox ℚ) (y : ℚ) : ℚ := y * box.detScale + box.padH

/-- What the tensors hold at an anchor for a face: distances from the centre in strides. -/
structure ShowsFace (box : Letterbox ℚ) (outs : Nat → Tensor ℚ) (idx : Nat) (stride : Int)
    (centre : ℚ × ℚ) (i : Nat) (f : Face) : Prop where
  prob : (outs idx).floats i = f.prob
  left : (outs (idx + 3)).floats (i * 4) = (centre.1 - Letterbox.x box f.x1) / stride
  top : (outs (idx + 3)).floats (i * 4 + 1) = (centre.2 - Letterbox.y box f.y1) / stride
  right : (outs (idx + 3)).floats (i * 4 + 2) = (Letterbox.x box f.x2 - centre.1) / stride
  bottom : (outs (idx + 3)).floats (i * 4 + 3) = (Letterbox.y box f.y2 - centre.2) / stride
  pointX : ∀ k : Fin 5, (outs (idx + 6)).floats (i * 10 + k * 2) =
    (Letterbox.x box (f.landmark k).x - centre.1) / stride
  pointY : ∀ k : Fin 5, (outs (idx + 6)).floats (i * 10 + k * 2 + 1) =
    (Letterbox.y box (f.landmark k).y - centre.2) / stride

/-- The tensors show these faces, each at its anchor, and nothing else. -/
structure Shows (config : ScrfdConfig ℚ) (box : Letterbox ℚ) (outs : Nat → Tensor ℚ)
    (faces : Nat → Nat → Option Face) : Prop where
  counted : ∀ level ∈ kStrides, Decodes config outs level
  pointed : ∀ level ∈ kStrides, (outs (level.1 + 6)).null = false
  quiet : ∀ level ∈ kStrides, ∀ i < anchorCount (levelKey config level.2),
    faces level.1 i = none → (outs level.1).floats i < config.probThreshold
  found : ∀ level ∈ kStrides, ∀ i < anchorCount (levelKey config level.2), ∀ f,
    faces level.1 i = some f → config.probThreshold ≤ f.prob ∧
      ShowsFace box outs level.1 level.2 (centreOf (levelKey config level.2) i) i f

/-- The faces of some levels in the order of their anchors. -/
def facesOf (config : ScrfdConfig ℚ) (faces : Nat → Nat → Option Face)
    (levels : List (Nat × Int)) : List Face :=
  levels.flatMap fun level =>
    (List.range (anchorCount (levelKey config level.2))).filterMap (faces level.1)

variable {config : ScrfdConfig ℚ} {box : Letterbox ℚ} {blank : Object ℚ} {outs : Nat → Tensor ℚ}
  {faces : Nat → Nat → Option Face}

/-- The way out of the letterbox and back. -/
theorem shown_back {scale stride : ℚ} (scaled : scale ≠ 0) (strided : stride ≠ 0)
    (centre pad v : ℚ) :
    (centre - (centre - (v * scale + pad)) / stride * stride - pad) / scale = v ∧
      (centre + ((v * scale + pad) - centre) / stride * stride - pad) / scale = v := by
  rw [div_mul_cancel₀ _ strided, div_mul_cancel₀ _ strided]
  constructor
  · rw [sub_sub_cancel, add_sub_cancel_right, mul_div_cancel_right₀ _ scaled]
  · rw [add_sub_cancel, add_sub_cancel_right, mul_div_cancel_right₀ _ scaled]

theorem decodeAnchor_quiet {idx i : Nat} (low : (outs idx).floats i < config.probThreshold)
    (stride : Int) (centers : List ℚ) :
    (decodeAnchor config box blank outs idx stride centers i).proposals = [] := by
  rw [decodeAnchor]
  dsimp only
  rw [if_pos (by simpa using low)]

theorem decodeAnchor_face {idx i : Nat} {stride : Int} {centers : List ℚ} {f : Face}
    (scaled : box.detScale ≠ 0) (strided : (stride : ℚ) ≠ 0)
    (pointed : (outs (idx + 6)).null = false) (enough : config.probThreshold ≤ f.prob)
    (shown : ShowsFace box outs idx stride
      (centers.getD (i * 2) (ofInt 0), centers.getD (i * 2 + 1) (ofInt 0)) i f) :
    (decodeAnchor config box blank outs idx stride centers i).proposals = [faceObject blank f] := by
  have back := shown_back scaled strided
  have x1 := shown.left ▸ (back (centers.getD (i * 2) (ofInt 0)) box.padW f.x1).1
  have y1 := shown.top ▸ (back (centers.getD (i * 2 + 1) (ofInt 0)) box.padH f.y1).1
  have x2 := shown.right ▸ (back (centers.getD (i * 2) (ofInt 0)) box.padW f.x2).2
  have y2 := shown.bottom ▸ (back (centers.getD (i * 2 + 1) (ofInt 0)) box.padH f.y2).2
  have px (k : Fin 5) :=
    shown.pointX k ▸ (back (centers.getD (i * 2) (ofInt 0)) box.padW (f.landmark k).x).2
  have py (k : Fin 5) :=
    shown.pointY k ▸ (back (centers.getD (i * 2 + 1) (ofInt 0)) box.padH (f.landmark k).y).2
  rw [decodeAnchor]
  dsimp only
  rw [if_neg (by simpa [shown.prob] using enough), pointed, if_neg Bool.false_ne_true]
  simp only [ofInt, ofRat_rat] at x1 y1 x2 y2 px py ⊢
  simp only [x1, y1, x2, y2, px, py, shown.prob, faceObject]

theorem decodeLevel_faces (shows : Shows config box outs faces) (scaled : box.detScale ≠ 0)
    (cache : CenterCache ℚ) {level : Nat × Int} (mem : level ∈ kStrides) :
    (decodeLevel config box blank outs cache level.1 level.2).1.proposals =
      ((List.range (anchorCount (levelKey config level.2))).filterMap (faces level.1)).map
        (faceObject blank) := by
  have strided : (level.2 : ℚ) ≠ 0 := by
    obtain rfl | rfl | rfl : level = (0, 8) ∨ level = (1, 16) ∨ level = (2, 32) := by
      simpa [kStrides] using mem
    all_goals norm_num
  have enough := shows.counted level mem
  rw [Decodes] at enough
  rw [decodeLevel]
  dsimp only
  rw [centers_eq, centersOf_length, if_neg (by omega), List.map_filterMap, List.flatMap_map,
    List.filterMap_eq_flatMap_toList]
  refine List.flatMap_congr fun i anchor => ?_
  have bound := List.mem_range.mp anchor
  cases here : faces level.1 i with
  | none => rw [decodeAnchor_quiet (shows.quiet level mem i bound here)]; rfl
  | some f =>
    obtain ⟨passes, shown⟩ := shows.found level mem i bound f here
    rw [decodeAnchor_face scaled strided (shows.pointed level mem) passes]
    · rfl
    · rwa [centers_get bound]

theorem decodeLevels_faces (shows : Shows config box outs faces) (scaled : box.detScale ≠ 0)
    {levels : List (Nat × Int)} (mem : levels ⊆ kStrides) (cache : CenterCache ℚ) :
    (decodeLevels config box blank outs cache levels).1.proposals =
      (facesOf config faces levels).map (faceObject blank) := by
  induction levels generalizing cache with
  | nil => rfl
  | cons level rest ih =>
    obtain ⟨first, others⟩ := List.cons_subset.mp mem
    rw [decodeLevels, facesOf, List.flatMap_cons, List.map_append]
    dsimp only
    rw [decodeLevel_faces shows scaled cache first, ih others]
    rfl

end Faces

section Results

variable {D : Type v} [Scalar D] {boxes : Boxes ℚ D} {config : ScrfdConfig ℚ} {blank : Object ℚ}
  {io : Io ℚ} {outs : Nat → Tensor ℚ} {faces : Nat → Nat → Option Face}

/-- The object with the name of its label. -/
def named (config : ScrfdConfig ℚ) (o : Object ℚ) : Object ℚ :=
  { o with labelName := config.labels.getD o.label.toNat "" }

theorem assignLabelNames_first (some_label : config.labels ≠ []) {objects : List (Object ℚ)}
    (first : ∀ o ∈ objects, o.label = 0) :
    assignLabelNames config.labels objects = .ok (objects.map (named config)) := by
  have length : 0 < config.labels.length := List.length_pos_iff.mpr some_label
  have fits : (objects.findIdx? fun o => o.label < 0 ∨ (config.labels.length : Int) ≤ o.label) =
      none := by
    refine List.findIdx?_eq_none_iff.mpr fun o mem => ?_
    rw [first o mem]
    simpa using some_label
  rw [assignLabelNames, fits]
  rfl

/-- The proposals as `nms` takes them. -/
def listed (dets : List (Object ℚ)) : Vector (Object ℚ) dets.length := ⟨dets.toArray, rfl⟩

theorem suppressedObjects_nil (sort : Sorting ℚ) (thresh : ℚ) :
    suppressedObjects boxes sort thresh [] = [] := by
  rw [suppressedObjects]
  cases nms boxes _ thresh (sort []) with
  | nil => rfl
  | cons i _ => exact i.elim0

/-- Once it decodes objects of the first label, `Postprocess` names those that it keeps. -/
theorem postprocess_named (nine : io.nOutputSize = some 9) (present : io.pOutputs = some outs)
    (some_label : config.labels ≠ []) (sort : Sorting ℚ) (cache : CenterCache ℚ)
    (picWidth picHeight : Int) {dets : List (Object ℚ)} (first : ∀ o ∈ dets, o.label = 0)
    (decoded : (decodeLevels config (letterbox config picWidth picHeight) blank outs cache
      kStrides).1.proposals = dets) :
    let result := postprocess boxes sort blank config cache io picWidth picHeight
    result.ret = 0 ∧ result.objects =
      (suppressedObjects boxes sort config.nmsThreshold dets).map (named config) := by
  subst decoded
  intro result
  have kept_first : ∀ o ∈ suppressedObjects boxes sort config.nmsThreshold _, o.label = 0 :=
    List.forall_mem_map.mpr fun i _ => first _ (List.getElem_mem i.isLt)
  have run : result = postprocess boxes sort blank config cache io picWidth picHeight := rfl
  rw [postprocess, if_neg (not_not_intro nine), present] at run
  dsimp only at run
  split_ifs at run with empty
  · rw [run]
    refine ⟨rfl, ?_⟩
    rw [empty, suppressedObjects_nil]
    rfl
  · rw [assignLabelNames_first some_label kept_first] at run
    rw [run]
    exact ⟨rfl, rfl⟩

/-- Conversion to `int` moves by less than one. -/
theorem toInt_near (q : ℚ) : |((Scalar.toInt q : Int) : ℚ) - q| < 1 := by
  have pos : (0 : ℚ) < q.den := by exact_mod_cast q.den_pos
  have whole : ((q.num.tdiv q.den : Int) : ℚ) * q.den + (q.num.tmod q.den : Int) = q * q.den := by
    rw [Rat.mul_den_eq_num]
    exact_mod_cast Int.tdiv_mul_add_tmod q.num q.den
  have below : |((q.num.tmod q.den : Int) : ℚ)| < q.den := by
    rw [← Int.cast_abs, Int.abs_eq_natAbs, Int.natAbs_tmod]
    exact_mod_cast Nat.mod_lt _ q.den_pos
  have missed : (((q.num.tdiv q.den : Int) : ℚ) - q) * q.den = -((q.num.tmod q.den : Int) : ℚ) := by
    linarith
  rw [← abs_neg, ← missed, abs_mul, abs_of_pos pos] at below
  exact (mul_lt_iff_lt_one_left pos).mp below

/-- The object is the face, but for the whole numbers of its box. -/
structure Near (f : Face) (o : Object ℚ) : Prop where
  prob : o.prob = f.prob
  landmark : o.landmark = Vector.ofFn f.landmark
  x : |o.rect.x - f.x1| < 1
  y : |o.rect.y - f.y1| < 1
  width : |o.rect.width - (f.x2 - f.x1)| < 1
  height : |o.rect.height - (f.y2 - f.y1)| < 1

theorem faceObject_near (config : ScrfdConfig ℚ) (blank : Object ℚ) (f : Face) :
    Near f (named config (faceObject blank f)) where
  prob := rfl
  landmark := rfl
  x := toInt_near _
  y := toInt_near _
  width := toInt_near _
  height := toInt_near _

theorem letterbox_scaled {picWidth picHeight : Int} (wide : 0 < picWidth) (high : 0 < picHeight)
    (inputWide : 0 < inputW config) (inputHigh : 0 < inputH config) :
    (letterbox config picWidth picHeight).detScale ≠ 0 := by
  have scaleW : (0 : ℚ) < inputW config / picWidth :=
    div_pos (Int.cast_pos.mpr inputWide) (Int.cast_pos.mpr wide)
  have scaleH : (0 : ℚ) < inputH config / picHeight :=
    div_pos (Int.cast_pos.mpr inputHigh) (Int.cast_pos.mpr high)
  simp only [letterbox, ofInt, ofRat_rat, stdMin_rat]
  exact (lt_min scaleW scaleH).ne'

theorem head_label (some_label : config.labels ≠ []) :
    config.labels.head? = some (config.labels.getD (0 : Int).toNat "") := by
  cases labels : config.labels with
  | nil => exact absurd labels some_label
  | cons label rest => rfl

/-- No two of the proposals reach the threshold with each other. -/
def Apart (boxes : Boxes ℚ D) (dets : List (Object ℚ)) (thresh : ℚ) : Prop :=
  ∀ i j : Fin dets.length, i ≠ j → Scalar.le thresh (iou boxes (dets.get i) (dets.get j)) = false

/-- A suppression among proposals that are apart drops nothing. -/
theorem Suppressed.all {dets : List (Object ℚ)} {thresh : ℚ} (apart : Apart boxes dets thresh)
    {kept : List (Fin dets.length)} (suppressed : Suppressed boxes (listed dets) thresh kept) :
    (kept.map dets.get).Perm dets := by
  have everything : kept.Perm (List.finRange dets.length) := by
    refine (List.perm_ext_iff_of_nodup suppressed.distinct (List.nodup_finRange _)).mpr fun j => ?_
    refine iff_of_true ?_ (List.mem_finRange j)
    by_contra dropped
    obtain ⟨i, mem, hit, -⟩ := suppressed.covered j dropped
    have different : i ≠ j := fun same => dropped (same ▸ mem)
    exact Bool.false_ne_true ((apart i j different).symm.trans hit)
  refine (everything.map _).trans (List.Perm.of_eq ?_)
  exact List.map_get_finRange dets

/-- Tensors that show faces of a picture of any size give them back, whatever has been cached
and however scores that are equal are sorted: what `Postprocess` returns are the faces that a
suppression keeps, each with its landmarks, its box in whole numbers and the first label, and
all of the faces if no two of them overlap as much as the threshold. -/
theorem shown_faces_returned (laws : Laws boxes) (nine : io.nOutputSize = some 9)
    (present : io.pOutputs = some outs) (some_label : config.labels ≠ [])
    {picWidth picHeight : Int} (wide : 0 < picWidth) (high : 0 < picHeight)
    (inputWide : 0 < inputW config) (inputHigh : 0 < inputH config)
    (shows : Shows config (letterbox config picWidth picHeight) outs faces)
    (sort : Sorting ℚ) (cache : CenterCache ℚ) :
    let found := facesOf config faces kStrides
    let dets := found.map (faceObject blank)
    let result := postprocess boxes sort blank config cache io picWidth picHeight
    result.ret = 0 ∧
      (∃ kept, Suppressed boxes (listed dets) config.nmsThreshold kept ∧
        result.objects = kept.map fun i => named config dets[i]) ∧
      (∀ o ∈ result.objects, ∃ f ∈ found, Near f o ∧ some o.labelName = config.labels.head?) ∧
      (Apart boxes dets config.nmsThreshold → result.objects.Perm (dets.map (named config))) := by
  intro found dets result
  have scaled := letterbox_scaled wide high inputWide inputHigh
  have decoded : (decodeLevels config (letterbox config picWidth picHeight) blank outs cache
      kStrides).1.proposals = dets :=
    decodeLevels_faces shows scaled (List.Subset.refl kStrides) cache
  have first : ∀ o ∈ dets, o.label = 0 := List.forall_mem_map.mpr fun _ _ => rfl
  obtain ⟨ret, objects⟩ : result.ret = 0 ∧ result.objects =
      (suppressedObjects boxes sort config.nmsThreshold dets).map (named config) :=
    postprocess_named nine present some_label sort cache picWidth picHeight first decoded
  have suppressed : Suppressed boxes (listed dets) config.nmsThreshold _ :=
    nms_suppressed laws (proper_rat (listed dets)) (sort dets)
  rw [suppressedObjects, List.map_map] at objects
  refine ⟨ret, ⟨_, suppressed, objects⟩, fun o mem => ?_, fun apart => ?_⟩
  · rw [show result.objects = _ from objects] at mem
    obtain ⟨i, -, rfl⟩ := List.mem_map.mp mem
    have member : dets[i] ∈ dets := List.getElem_mem i.isLt
    obtain ⟨f, shown, same⟩ := List.mem_map.mp member
    refine ⟨f, shown, ?_, ?_⟩
    · rw [Function.comp_apply, ← same]
      exact faceObject_near config blank f
    · rw [Function.comp_apply, named, first _ member]
      exact (head_label some_label).symm
  · rw [show result.objects = _ from objects, ← List.map_map]
    exact (Suppressed.all apart suppressed).map _

end Results

section Models

/-- A face that starts `x` pixels from the left. -/
def faceFrom (x : ℚ) : Face where
  x1 := x
  y1 := 6
  x2 := x + 20
  y2 := 34
  prob := 3 / 4
  landmark k :=
    [⟨x + 5, 15⟩, ⟨x + 15, 15⟩, ⟨x + 10, 20⟩, ⟨x + 6, 27⟩, ⟨x + 14, 27⟩].getD k ⟨0, 0⟩

/-- Two faces of one score side by side, at the sixth and eighth anchors of the first level. -/
def twoFaces (idx i : Nat) : Option Face :=
  if idx = 0 ∧ i = 5 then some (faceFrom 10)
  else if idx = 0 ∧ i = 7 then some (faceFrom 42)
  else none

/-- The faces in a picture of 64 by 48, as 32 by 32 shows them. -/
def twoFacesTensors (k : Nat) : Tensor ℚ where
  null := false
  nSize := [128, 32, 8, 512, 128, 32, 1280, 320, 80].getD k 0
  floats j :=
    if k = 0 then if j = 5 ∨ j = 7 then 3 / 4 else 0
    else if k = 3 then
      [11 / 8, -7 / 8, -1 / 8, 21 / 8, 0, 0, 0, 0, 3 / 8, -7 / 8, 7 / 8, 21 / 8].getD
        (j - 20).toNat 0
    else if j < 60 then
      [-17 / 16, 23 / 16, -7 / 16, 23 / 16, -3 / 4, 7 / 4, -1, 35 / 16, -1 / 2, 35 / 16].getD
        (j - 50).toNat 0
    else
      [-1 / 16, 23 / 16, 9 / 16, 23 / 16, 1 / 4, 7 / 4, 0, 35 / 16, 1 / 2, 35 / 16].getD
        (j - 70).toNat 0

theorem twoFacesTensors_shows :
    Shows smallDetector (letterbox smallDetector 64 48) twoFacesTensors twoFaces where
  counted := by unfold Decodes; decide
  pointed _ _ := rfl
  quiet := by decide +kernel
  found level mem i bound f here := by
    obtain ⟨idx, stride⟩ := level
    rw [twoFaces] at here
    split_ifs at here with sixth eighth
    · obtain ⟨rfl, rfl⟩ : idx = 0 ∧ i = 5 := sixth
      obtain rfl : stride = 8 := by simpa [kStrides] using mem
      obtain rfl := Option.some.inj here
      refine ⟨by decide +kernel, ?_⟩
      exact ⟨by decide +kernel, by decide +kernel, by decide +kernel, by decide +kernel,
        by decide +kernel, by decide +kernel, by decide +kernel⟩
    · obtain ⟨rfl, rfl⟩ : idx = 0 ∧ i = 7 := eighth
      obtain rfl : stride = 8 := by simpa [kStrides] using mem
      obtain rfl := Option.some.inj here
      refine ⟨by decide +kernel, ?_⟩
      exact ⟨by decide +kernel, by decide +kernel, by decide +kernel, by decide +kernel,
        by decide +kernel, by decide +kernel, by decide +kernel⟩

/-- Both come back, in whichever order they are sorted. -/
theorem twoFaces_returned :
    let result := postprocess exactBoxes exactSort (ScrfdNms.face 0 0) smallDetector emptyCache
      ⟨some 9, some twoFacesTensors⟩ 64 48
    result.ret = 0 ∧
      result.objects.Perm
        [named smallDetector (faceObject (ScrfdNms.face 0 0) (faceFrom 10)),
          named smallDetector (faceObject (ScrfdNms.face 0 0) (faceFrom 42))] := by
  intro result
  have both : facesOf smallDetector twoFaces kStrides = [faceFrom 10, faceFrom 42] := rfl
  obtain ⟨ret, -, -, all⟩ := @shown_faces_returned ℚ _ exactBoxes smallDetector (ScrfdNms.face 0 0)
    ⟨some 9, some twoFacesTensors⟩ twoFacesTensors twoFaces exactBoxes_laws rfl rfl (by decide) 64 48
    (by decide) (by decide) (by decide) (by decide) twoFacesTensors_shows exactSort emptyCache
  rw [both] at all
  exact ⟨ret, all (by unfold Apart; decide +kernel)⟩

end Models

end ScrfdFaces
