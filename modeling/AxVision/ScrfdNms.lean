import AxVision.DetectionTypes
import AxVision.GreedySuppression
import Mathlib.Data.List.FinRange
import Mathlib.Order.Fin.Basic

/-!
# Non-maximum suppression of the face detector

`nms` sorts the proposals by score and walks the order with an array of marks:
a proposal that is not marked is kept and marks the later ones whose overlap
reaches the threshold. The kept ones are the survivors of a greedy suppression
by overlap.
-/

namespace ScrfdNms

open DetectionTypes GreedySuppression

universe u v

/-- `cv::Rect`. -/
structure CvRect where
  x : Int
  y : Int
  width : Int
  height : Int
  deriving DecidableEq

def CvRect.empty (r : CvRect) : Bool := r.width ≤ 0 || r.height ≤ 0

def CvRect.area (r : CvRect) : Int := r.width * r.height

/-- What `iou` takes from elsewhere: OpenCV's `a & b` as a `cv::Rect`, and the
conversions between `float`, `int` and `double`. -/
structure Boxes (F : Type u) (D : Type v) where
  intersection : Rect F → Rect F → CvRect
  widen : F → D
  ofInt : Int → D
  narrow : D → F

variable {F : Type u} {D : Type v} [Scalar F] [Scalar D]

def iou (boxes : Boxes F D) (a b : Object F) : F :=
  let intersection := boxes.intersection a.rect b.rect
  if intersection.empty then Scalar.ofRat 0
  else
    let intersectionArea := boxes.ofInt intersection.area
    let unionArea := boxes.widen (a.rect.area + b.rect.area) - intersectionArea
    boxes.narrow (intersectionArea / unionArea)

section Nms

variable {n : Nat}

/-- An order that `std::sort` may leave: all indices, none behind one of lower score. -/
structure SortedOrder (dets : Vector (Object F) n) where
  order : List (Fin n)
  perm : order.Perm (List.finRange n)
  sorted : order.Pairwise fun a b => Scalar.lt dets[a].prob dets[b].prob = false

/-- The inner loop of `nms`. -/
def suppress (boxes : Boxes F D) (dets : Vector (Object F) n) (thresh : F) (i : Fin n)
    (suppressed : Vector Bool n) : List (Fin n) → Vector Bool n
  | [] => suppressed
  | j :: rest =>
    if suppressed[j] then suppress boxes dets thresh i suppressed rest
    else if Scalar.le thresh (iou boxes dets[i] dets[j]) then
      suppress boxes dets thresh i (suppressed.set j true) rest
    else suppress boxes dets thresh i suppressed rest

/-- The outer loop of `nms`. -/
def nmsLoop (boxes : Boxes F D) (dets : Vector (Object F) n) (thresh : F) (keep : List (Fin n))
    (suppressed : Vector Bool n) : List (Fin n) → List (Fin n)
  | [] => keep
  | i :: rest =>
    if suppressed[i] then nmsLoop boxes dets thresh keep suppressed rest
    else
      nmsLoop boxes dets thresh (keep ++ [i]) (suppress boxes dets thresh i suppressed rest) rest

def nms (boxes : Boxes F D) (dets : Vector (Object F) n) (thresh : F) (order : SortedOrder dets) :
    List (Fin n) :=
  nmsLoop boxes dets thresh [] (Vector.replicate n false) order.order

end Nms

section Marks

variable {n : Nat} {boxes : Boxes F D} {dets : Vector (Object F) n} {thresh : F}

/-- One proposal reaches the threshold with another. -/
def hits (boxes : Boxes F D) (dets : Vector (Object F) n) (thresh : F) (i j : Fin n) : Bool :=
  Scalar.le thresh (iou boxes dets[i] dets[j])

/-- The marks behind the inner loop. -/
theorem suppress_get (i : Fin n) (suppressed : Vector Bool n) (later : List (Fin n)) (j : Fin n) :
    (suppress boxes dets thresh i suppressed later)[j] =
      (suppressed[j] || (decide (j ∈ later) && hits boxes dets thresh i j)) := by
  induction later generalizing suppressed with
  | nil => simp [suppress]
  | cons k rest ih =>
    rw [suppress]
    split
    · rename_i marked
      rw [ih]
      by_cases same : j = k
      · rw [same, marked, Bool.true_or, Bool.true_or]
      · simp [same]
    · split
      · rename_i hit
        rw [ih]
        by_cases same : j = k
        · have self : hits boxes dets thresh i k = true := hit
          simp [same, self]
        · have apart : (k : Nat) ≠ j := fun equal => same (Fin.ext equal.symm)
          simp [same, apart]
      · rename_i missed
        rw [ih]
        by_cases same : j = k
        · have self : hits boxes dets thresh i k = false := Bool.eq_false_iff.mpr missed
          simp [same, self]
        · simp [same]

/-- While the marks tell what is hit by a kept proposal, the loop keeps the survivors. -/
theorem nmsLoop_eq {keep order : List (Fin n)} {suppressed : Vector Bool n} (distinct : order.Nodup)
    (marks : ∀ j ∈ order, suppressed[j] = keep.any fun k => hits boxes dets thresh k j) :
    nmsLoop boxes dets thresh keep suppressed order =
      survivors (hits boxes dets thresh) keep order := by
  induction order generalizing keep suppressed with
  | nil => rfl
  | cons i rest ih =>
    obtain ⟨absent, distinct⟩ := List.nodup_cons.mp distinct
    rw [nmsLoop, survivors, marks i List.mem_cons_self]
    split
    · exact ih distinct fun j mem => marks j (List.mem_cons_of_mem _ mem)
    · refine ih distinct fun j mem => ?_
      rw [suppress_get, marks j (List.mem_cons_of_mem _ mem), List.any_append, List.any_cons,
        List.any_nil, Bool.or_false, decide_eq_true mem, Bool.true_and]

theorem nms_eq (order : SortedOrder dets) :
    nms boxes dets thresh order = survivors (hits boxes dets thresh) [] order.order := by
  refine nmsLoop_eq (order.perm.nodup_iff.mpr (List.nodup_finRange n)) fun j _ => ?_
  simp

theorem kept_sublist (order : SortedOrder dets) :
    (nms boxes dets thresh order).Sublist order.order := by
  rw [nms_eq]
  exact survivors_sublist (hits boxes dets thresh) [] order.order

end Marks

section Laws

/-- A NaN is not at most itself. -/
def IsNumber (a : F) : Prop := Scalar.le a a = true

structure Numbers (r : Rect F) : Prop where
  x : IsNumber r.x
  y : IsNumber r.y
  width : IsNumber r.width
  height : IsNumber r.height

/-- What holds of `float` and of OpenCV's intersection: numbers compare, and
neither a sum nor an intersection depends on the order of its two arguments. -/
structure Laws (boxes : Boxes F D) : Prop where
  compare : ∀ a b : F, IsNumber a → IsNumber b → (Scalar.lt a b = false ↔ Scalar.le b a = true)
  sum : ∀ a b : F, a + b = b + a
  intersection : ∀ r s, Numbers r → Numbers s → boxes.intersection r s = boxes.intersection s r

variable {boxes : Boxes F D} {a b : Object F}

theorem iou_comm (laws : Laws boxes) (ha : Numbers a.rect) (hb : Numbers b.rect) :
    iou boxes a b = iou boxes b a := by
  rw [iou, iou, laws.intersection _ _ ha hb, laws.sum]

end Laws

section Suppressed

variable {n : Nat} {boxes : Boxes F D} {dets : Vector (Object F) n} {thresh : F}

/-- Every proposal has a score and a box without a NaN. -/
structure Proper (dets : Vector (Object F) n) : Prop where
  prob : ∀ i : Fin n, IsNumber dets[i].prob
  rect : ∀ i : Fin n, Numbers dets[i].rect

/-- The result of a suppression: distinct indices by falling score, pairwise with
an overlap below the threshold, such that each other index reaches it with a kept
one of at least its score. -/
structure Suppressed (boxes : Boxes F D) (dets : Vector (Object F) n) (thresh : F)
    (kept : List (Fin n)) : Prop where
  distinct : kept.Nodup
  falling : kept.Pairwise fun i j => Scalar.le dets[j].prob dets[i].prob = true
  apart : ∀ i ∈ kept, ∀ j ∈ kept, i ≠ j → Scalar.le thresh (iou boxes dets[i] dets[j]) = false
  covered : ∀ j ∉ kept, ∃ i ∈ kept, Scalar.le thresh (iou boxes dets[i] dets[j]) = true ∧
    Scalar.le dets[j].prob dets[i].prob = true

omit [Scalar D] in
theorem SortedOrder.falling (order : SortedOrder dets) (laws : Laws boxes) (proper : Proper dets) :
    order.order.Pairwise fun i j => Scalar.le dets[j].prob dets[i].prob = true :=
  order.sorted.imp fun later => (laws.compare _ _ (proper.prob _) (proper.prob _)).mp later

theorem nms_suppressed (laws : Laws boxes) (proper : Proper dets) (order : SortedOrder dets) :
    Suppressed boxes dets thresh (nms boxes dets thresh order) := by
  have falling := order.falling laws proper
  refine ⟨?_, falling.sublist (kept_sublist order), ?_, fun j dropped => ?_⟩
  · exact (kept_sublist order).nodup (order.perm.nodup_iff.mpr (List.nodup_finRange n))
  · have apart : (survivors (hits boxes dets thresh) [] order.order).Pairwise
        fun i j => hits boxes dets thresh i j = false := survivors_apart .nil order.order
    rw [← nms_eq] at apart
    have symmetric : Std.Symm fun i j => hits boxes dets thresh i j = false :=
      ⟨fun i j missed => by rwa [hits, iou_comm laws (proper.rect j) (proper.rect i)]⟩
    exact fun i hi j hj => apart.forall hi hj
  · have mem : j ∈ order.order := order.perm.mem_iff.mpr (List.mem_finRange j)
    rw [nms_eq] at dropped ⊢
    exact survivors_cover falling mem dropped

/-- No two scores are equal. -/
def DistinctScores (dets : Vector (Object F) n) : Prop :=
  ∀ i j : Fin n, i ≠ j →
    Scalar.lt dets[i].prob dets[j].prob = true ∨ Scalar.lt dets[j].prob dets[i].prob = true

/-- The proposals with one more at an index. -/
def withProposal (dets : Vector (Object F) n) (k : Fin (n + 1)) (d : Object F) :
    Vector (Object F) (n + 1) := dets.insertIdx k d (Nat.le_of_lt_succ k.isLt)

omit [Scalar F] in
/-- The index of an old proposal behind the insertion. -/
theorem withProposal_get (dets : Vector (Object F) n) (k : Fin (n + 1)) (d : Object F) (i : Fin n) :
    (withProposal dets k d)[k.succAbove i] = dets[i] := by
  rw [withProposal, Fin.getElem_fin, Fin.getElem_fin]
  obtain before | behind := Nat.lt_or_ge i k
  · have place : k.succAbove i = i.castSucc := Fin.succAbove_of_castSucc_lt k i before
    simp only [place, Fin.val_castSucc]
    exact Vector.getElem_insertIdx_of_lt (Nat.le_of_lt_succ k.isLt) before
  · have place : k.succAbove i = i.succ := Fin.succAbove_of_le_castSucc k i behind
    simp only [place, Fin.val_succ]
    rw [Vector.getElem_insertIdx, dif_neg (by omega), dif_neg (by omega)]
    rfl

variable {k : Fin (n + 1)} {d : Object F}

/-- Where scores are distinct, the orders of both lists agree on the old proposals. -/
theorem order_without (order : SortedOrder dets) (wider : SortedOrder (withProposal dets k d))
    (distinct : DistinctScores (withProposal dets k d)) {front back : List (Fin (n + 1))}
    (split : wider.order = front ++ k :: back) :
    front ++ back = order.order.map k.succAbove := by
  have nodup : (front ++ k :: back).Nodup :=
    split ▸ wider.perm.nodup_iff.mpr (List.nodup_finRange _)
  have sorted := wider.sorted
  rw [split] at sorted
  obtain ⟨absent, others⟩ := List.nodup_cons.mp (List.nodup_middle.mp nodup)
  refine List.Perm.eq_of_pairwise (fun i j _ _ first second => ?_)
    (sorted.sublist ((List.sublist_cons_self k back).append_left front)) ?_ ?_
  · by_contra different
    obtain below | above := distinct i j different
    · exact Bool.false_ne_true (first.symm.trans below)
    · exact Bool.false_ne_true (second.symm.trans above)
  · rw [List.pairwise_map]
    refine order.sorted.imp fun {i j} later => ?_
    rw [withProposal_get, withProposal_get]
    exact later
  · have old := order.perm.nodup_iff.mpr (List.nodup_finRange n)
    rw [List.perm_ext_iff_of_nodup others (old.map Fin.succAbove_right_injective)]
    intro i
    have everywhere : i ∈ front ++ k :: back :=
      split ▸ wider.perm.mem_iff.mpr (List.mem_finRange i)
    rw [List.mem_map]
    constructor
    · intro mem
      obtain ⟨j, rfl⟩ := Fin.exists_succAbove_eq (fun same => absent (same ▸ mem) : i ≠ k)
      exact ⟨j, order.perm.mem_iff.mpr (List.mem_finRange j), rfl⟩
    · rintro ⟨j, -, rfl⟩
      obtain same | mem := List.mem_cons.mp (List.perm_middle.mem_iff.mp everywhere)
      · exact absurd same (Fin.succAbove_ne k j)
      · exact mem

/-- A proposal that is dropped leaves the others as they would be without it. -/
theorem nms_withProposal (order : SortedOrder dets) (wider : SortedOrder (withProposal dets k d))
    (distinct : DistinctScores (withProposal dets k d))
    (dropped : k ∉ nms boxes (withProposal dets k d) thresh wider) :
    nms boxes (withProposal dets k d) thresh wider =
      (nms boxes dets thresh order).map k.succAbove := by
  obtain ⟨front, back, split⟩ :=
    List.append_of_mem (wider.perm.mem_iff.mpr (List.mem_finRange k))
  have same : (fun i j => hits boxes (withProposal dets k d) thresh (k.succAbove i) (k.succAbove j)) =
      hits boxes dets thresh := by
    funext i j
    rw [hits, hits, withProposal_get, withProposal_get]
  rw [nms_eq, split] at dropped
  rw [nms_eq, nms_eq, split, survivors_without dropped, order_without order wider distinct split,
    ← List.map_nil (f := k.succAbove), survivors_map, same]

/-- What `nms` keeps is a suppression of the proposals, and it stays the same
under one more proposal that is dropped, if no two scores are equal. -/
theorem nms_greedy (laws : Laws boxes) (proper : Proper dets) (thresh : F)
    (order : SortedOrder dets) :
    Suppressed boxes dets thresh (nms boxes dets thresh order) ∧
      ∀ (k : Fin (n + 1)) (d : Object F) (wider : SortedOrder (withProposal dets k d)),
        DistinctScores (withProposal dets k d) →
        k ∉ nms boxes (withProposal dets k d) thresh wider →
        nms boxes (withProposal dets k d) thresh wider =
          (nms boxes dets thresh order).map k.succAbove :=
  ⟨nms_suppressed laws proper order, fun _ _ wider distinct dropped =>
    nms_withProposal order wider distinct dropped⟩

end Suppressed

section Faces

/-- The nearest integer, the even one of two. -/
def roundEven (q : ℚ) : Int :=
  if q - q.floor < 1 / 2 then q.floor
  else if 1 / 2 < q - q.floor then q.floor + 1
  else if 2 ∣ q.floor then q.floor
  else q.floor + 1

/-- Exact arithmetic, with the corners of an intersection rounded. -/
def exactBoxes : Boxes ℚ ℚ where
  intersection r s :=
    let x := max r.x s.x
    let y := max r.y s.y
    let width := min (r.x + r.width) (s.x + s.width) - x
    let height := min (r.y + r.height) (s.y + s.height) - y
    if width ≤ 0 ∨ height ≤ 0 then ⟨0, 0, 0, 0⟩
    else ⟨roundEven x, roundEven y, roundEven width, roundEven height⟩
  widen q := q
  ofInt i := i
  narrow q := q

theorem isNumber_rat (q : ℚ) : IsNumber q := decide_eq_true le_rfl

theorem numbers_rat (r : Rect ℚ) : Numbers r :=
  ⟨isNumber_rat _, isNumber_rat _, isNumber_rat _, isNumber_rat _⟩

theorem exactBoxes_laws : Laws exactBoxes where
  compare a b _ _ := by simp
  sum := add_comm
  intersection r s _ _ := by
    simp only [exactBoxes]
    rw [max_comm r.x, max_comm r.y, min_comm (r.x + r.width), min_comm (r.y + r.height)]

theorem proper_rat {n : Nat} (dets : Vector (Object ℚ) n) : Proper dets :=
  ⟨fun _ => isNumber_rat _, fun _ => numbers_rat _⟩

/-- A face with a box of ten by ten. -/
def face (x prob : ℚ) : Object ℚ where
  rect := ⟨x, 0, 10, 10⟩
  label := 0
  prob := prob
  landmark := Vector.replicate 5 ⟨0, 0⟩
  mask := []
  maskFeat := []
  kpsFeat := []
  angle := 0
  modelName := ""
  labelName := ""

def faces : Vector (Object ℚ) 2 := #v[face 0 2, face 50 3]

def facesOrder : SortedOrder faces where
  order := [1, 0]
  perm := by decide
  sorted := by decide

/-- The order of the faces with one beside the first, of lower score. -/
def moreFacesOrder : SortedOrder (withProposal faces 1 (face 1 1)) where
  order := [2, 0, 1]
  perm := by decide
  sorted := by decide +kernel

theorem faces_greedy :
    Suppressed exactBoxes faces (1 / 2) (nms exactBoxes faces (1 / 2) facesOrder) ∧
      nms exactBoxes (withProposal faces 1 (face 1 1)) (1 / 2) moreFacesOrder = [2, 0] := by
  have greedy := nms_greedy exactBoxes_laws (proper_rat faces) (1 / 2) facesOrder
  refine ⟨greedy.1, ?_⟩
  rw [greedy.2 1 (face 1 1) moreFacesOrder ?_ ?_]
  · decide +kernel
  · unfold DistinctScores
    decide +kernel
  · decide +kernel

end Faces

end ScrfdNms
