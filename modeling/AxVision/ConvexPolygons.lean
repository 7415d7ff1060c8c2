import AxVision.CyclicEdges
import Mathlib.Algebra.Order.Field.Basic
import Mathlib.Analysis.Convex.Segment
import Mathlib.Data.Finset.Max
import Mathlib.Tactic.FieldSimp
import Mathlib.Tactic.Linarith
import Mathlib.Tactic.Ring

/-!
# Convex polygons and the horizontal line through a point

A strictly convex polygon that is listed counterclockwise has every further
vertex on the left of every edge. The line at a height is entered by one edge
and left by one or crossed by none, and the points on the left of all edges
are the ones between the two.
-/

namespace ConvexPolygons

open CyclicEdges

variable {K : Type*}

section Lines

variable [Field K] {a b p : K × K} {e : (K × K) × (K × K)} {y : K}

/-- Positive where a point is on the left of the line from one point to another. -/
def cross (a b p : K × K) : K := (b.1 - a.1) * (p.2 - a.2) - (b.2 - a.2) * (p.1 - a.1)

/-- The weight of the second end at a height. -/
def weight (y : K) (e : (K × K) × (K × K)) : K := (y - e.1.2) / (e.2.2 - e.1.2)

/-- Where the line of an edge has a height. -/
def abscissa (y : K) (e : (K × K) × (K × K)) : K := e.1.1 + (e.2.1 - e.1.1) * weight y e

@[simp] theorem cross_left (a b : K × K) : cross a b a = 0 := by
  unfold cross
  ring

@[simp] theorem cross_right (a b : K × K) : cross a b b = 0 := by
  unfold cross
  ring

theorem cross_swap (a b p : K × K) : cross b a p = -cross a b p := by
  unfold cross
  ring

/-- The side of a point, by the place where the edge has its height. -/
theorem cross_eq_abscissa (level : e.2.2 ≠ e.1.2) (p : K × K) :
    cross e.1 e.2 p = (e.2.2 - e.1.2) * (abscissa p.2 e - p.1) := by
  have := sub_ne_zero.mpr level
  unfold cross abscissa weight
  field_simp
  ring

/-- The side of a point of an edge, by the sides of its ends. -/
theorem cross_abscissa (level : e.2.2 ≠ e.1.2) (a b : K × K) :
    cross a b (abscissa y e, y) =
      (1 - weight y e) * cross a b e.1 + weight y e * cross a b e.2 := by
  have := sub_ne_zero.mpr level
  unfold cross abscissa weight
  field_simp
  ring

/-- The side of a point between two points of its height. -/
theorem cross_between (a b p : K × K) (left right : K) :
    (right - left) * cross a b p =
      (p.1 - left) * cross a b (right, p.2) + (right - p.1) * cross a b (left, p.2) := by
  unfold cross
  ring

/-- The side is affine. -/
theorem cross_combination (a b p q : K × K) {s t : K} (whole : s + t = 1) :
    cross a b (s • p + t • q) = s * cross a b p + t * cross a b q := by
  obtain rfl : s = 1 - t := by rw [← whole, add_sub_cancel_right]
  simp only [cross, Prod.fst_add, Prod.snd_add, Prod.smul_fst, Prod.smul_snd, smul_eq_mul]
  ring

/-- A point against the two edges at a vertex. -/
theorem cross_corner (z v b p : K × K) :
    cross v b z * (p.2 - v.2) = cross v b p * (z.2 - v.2) + cross z v p * (b.2 - v.2) := by
  unfold cross
  ring

end Lines

section Heights

variable [LinearOrder K] {e : (K × K) × (K × K)} {y : K}

/-- The side of the line at a height: strictly above it. -/
def above (y : K) (v : K × K) : Bool := y < v.2

theorem enters_iff : enters (above y) e = true ↔ e.1.2 ≤ y ∧ y < e.2.2 := by
  simp [enters, above]

theorem leaves_iff : leaves (above y) e = true ↔ y < e.1.2 ∧ e.2.2 ≤ y := by
  simp [leaves, above]

/-- A height is entered where it is left. -/
theorem exists_leaves_iff (poly : List (K × K)) (y : K) :
    (∃ e ∈ edges poly, leaves (above y) e = true) ↔
      ∃ e ∈ edges poly, enters (above y) e = true := by
  rw [← List.countP_pos_iff, ← List.countP_pos_iff, enters_eq_leaves]

end Heights

variable [Field K] [LinearOrder K]

section Weights

variable [IsStrictOrderedRing K] {e : (K × K) × (K × K)} {y : K}

/-- An edge that has a height between its ends. -/
structure Meets (y : K) (e : (K × K) × (K × K)) : Prop where
  level : e.2.2 ≠ e.1.2
  low : 0 ≤ weight y e
  high : weight y e ≤ 1

theorem meets_of_enters (h : enters (above y) e = true) :
    Meets y e ∧ weight y e < 1 ∧ (weight y e = 0 → e.1.2 = y) := by
  obtain ⟨low, high⟩ := enters_iff.mp h
  have rise : 0 < e.2.2 - e.1.2 := by linarith
  have before : weight y e < 1 := (div_lt_one rise).mpr (by linarith)
  refine ⟨⟨by linarith, div_nonneg (by linarith) rise.le, before.le⟩, before, ?_⟩
  intro none
  obtain zero | flat := div_eq_zero_iff.mp none
  · linarith
  · linarith

theorem meets_of_leaves (h : leaves (above y) e = true) :
    Meets y e ∧ 0 < weight y e ∧ (weight y e = 1 → e.2.2 = y) := by
  obtain ⟨high, low⟩ := leaves_iff.mp h
  have fall : e.2.2 - e.1.2 < 0 := by linarith
  have behind : 0 < weight y e := div_pos_of_neg_of_neg (by linarith) fall
  refine ⟨⟨by linarith, behind.le, (div_le_one_of_neg fall).mpr (by linarith)⟩, behind, ?_⟩
  intro whole
  have same := (div_eq_one_iff_eq fall.ne).mp whole
  linarith

/-- The place of an edge at a height between its ends is on the edge. -/
theorem Meets.mem_segment (meets : Meets y e) : (abscissa y e, y) ∈ segment K e.1 e.2 := by
  refine ⟨1 - weight y e, weight y e, sub_nonneg.mpr meets.high, meets.low, sub_add_cancel _ _, ?_⟩
  have := sub_ne_zero.mpr meets.level
  refine Prod.ext ?_ ?_
  · simp only [Prod.fst_add, Prod.smul_fst, smul_eq_mul, abscissa]
    ring
  · simp only [Prod.snd_add, Prod.smul_snd, smul_eq_mul, weight]
    field_simp
    ring

/-- A point between two points of its height is on the segment from one to the other. -/
theorem mem_segment_of_between {p : K × K} {left right : K} (after : left ≤ p.1)
    (before : p.1 ≤ right) : p ∈ segment K (left, p.2) (right, p.2) := by
  have across : p.1 ∈ segment K left right := by
    rw [segment_eq_Icc (after.trans before)]
    exact ⟨after, before⟩
  obtain ⟨s, t, hs, ht, whole, same⟩ := across
  refine ⟨s, t, hs, ht, whole, Prod.ext same ?_⟩
  simp only [Prod.snd_add, Prod.smul_snd, smul_eq_mul]
  rw [← add_mul, whole, one_mul]

end Weights

/-- Counterclockwise, without a straight angle and without a vertex twice. -/
structure StrictlyConvex (poly : List (K × K)) : Prop where
  corners : 3 ≤ poly.length
  distinct : poly.Nodup
  left : ∀ e ∈ edges poly, ∀ v ∈ poly, v ≠ e.1 → v ≠ e.2 → 0 < cross e.1 e.2 v

/-- The points on the left of every edge. -/
def InnerPoint (poly : List (K × K)) (p : K × K) : Prop := ∀ e ∈ edges poly, 0 < cross e.1 e.2 p

def OnEdge (poly : List (K × K)) (p : K × K) : Prop := ∃ e ∈ edges poly, p ∈ segment K e.1 e.2

section Convex

variable {poly : List (K × K)} {e f g : (K × K) × (K × K)} {p v : K × K} {y : K}

theorem StrictlyConvex.cross_nonneg (convex : StrictlyConvex poly) (he : e ∈ edges poly)
    (hv : v ∈ poly) : 0 ≤ cross e.1 e.2 v := by
  by_cases first : v = e.1
  · rw [first, cross_left]
  · by_cases second : v = e.2
    · rw [second, cross_right]
    · exact (convex.left e he v hv first second).le

theorem StrictlyConvex.end_of_cross (convex : StrictlyConvex poly) (he : e ∈ edges poly)
    (hv : v ∈ poly) (zero : cross e.1 e.2 v = 0) : v = e.1 ∨ v = e.2 := by
  by_contra apart
  obtain ⟨first, second⟩ := not_or.mp apart
  exact (convex.left e he v hv first second).ne' zero

/-- A polygon with three corners has a vertex apart from two given ones. -/
theorem StrictlyConvex.exists_third (convex : StrictlyConvex poly) (a b : K × K) :
    ∃ v ∈ poly, v ≠ a ∧ v ≠ b := by
  by_contra none
  have only : poly ⊆ [a, b] := by
    intro v hv
    by_contra apart
    simp only [List.mem_cons, List.not_mem_nil, or_false, not_or] at apart
    exact none ⟨v, hv, apart⟩
  have few := (List.subperm_of_subset convex.distinct only).length_le
  have := convex.corners
  simp only [List.length_cons, List.length_nil] at few
  omega

theorem place_zero (meets : Meets y e) (same : abscissa y f = abscissa y e) :
    cross e.1 e.2 (abscissa y f, y) = 0 := by
  rw [cross_eq_abscissa meets.level, same, sub_self, mul_zero]

end Convex

section Levels

variable [IsStrictOrderedRing K] {poly : List (K × K)} {e f g : (K × K) × (K × K)} {p : K × K}
  {y : K}

/-- No edge is walked both ways. -/
theorem StrictlyConvex.one_way (convex : StrictlyConvex poly) (he : e ∈ edges poly) :
    e.swap ∉ edges poly := by
  intro back
  obtain ⟨v, hv, first, second⟩ := convex.exists_third e.1 e.2
  have there := convex.left e he v hv first second
  have again := convex.left e.swap back v hv second first
  rw [Prod.fst_swap, Prod.snd_swap, cross_swap] at again
  linarith

/-- An edge with the ends of another one is that edge. -/
theorem StrictlyConvex.eq_of_ends (convex : StrictlyConvex poly) (he : e ∈ edges poly)
    (hg : g ∈ edges poly) (apart : e.1 ≠ e.2) (first : e.1 = g.1 ∨ e.1 = g.2)
    (second : e.2 = g.1 ∨ e.2 = g.2) : g = e := by
  obtain first | first := first
  · obtain second | second := second
    · exact absurd (first.trans second.symm) apart
    · exact Prod.ext first.symm second.symm
  · obtain second | second := second
    · have back : g = e.swap := Prod.ext second.symm first.symm
      exact absurd (back ▸ hg) (convex.one_way he)
    · exact absurd (first.trans second.symm) apart

/-- The place of an edge at a height is on the left of every edge. -/
theorem StrictlyConvex.place_nonneg (convex : StrictlyConvex poly) (he : e ∈ edges poly)
    (hf : f ∈ edges poly) (meets : Meets y f) : 0 ≤ cross e.1 e.2 (abscissa y f, y) := by
  have start := convex.cross_nonneg he (mem_of_edge hf).1
  have goal := convex.cross_nonneg he (mem_of_edge hf).2
  rw [cross_abscissa meets.level]
  exact add_nonneg (mul_nonneg (sub_nonneg.mpr meets.high) start) (mul_nonneg meets.low goal)

/-- No edge has its place on the right of an edge that leads up. -/
theorem StrictlyConvex.le_of_enters (convex : StrictlyConvex poly) (he : e ∈ edges poly)
    (up : enters (above y) e = true) (hf : f ∈ edges poly) (meets : Meets y f) :
    abscissa y f ≤ abscissa y e := by
  obtain ⟨low, high⟩ := enters_iff.mp up
  have place := convex.place_nonneg he hf meets
  rw [cross_eq_abscissa (meets_of_enters up).1.level] at place
  exact sub_nonneg.mp (nonneg_of_mul_nonneg_right place (by linarith))

/-- No edge has its place on the left of an edge that leads down. -/
theorem StrictlyConvex.le_of_leaves (convex : StrictlyConvex poly) (he : e ∈ edges poly)
    (down : leaves (above y) e = true) (hf : f ∈ edges poly) (meets : Meets y f) :
    abscissa y e ≤ abscissa y f := by
  obtain ⟨high, low⟩ := leaves_iff.mp down
  have place := convex.place_nonneg he hf meets
  rw [cross_eq_abscissa (meets_of_leaves down).1.level] at place
  exact sub_nonpos.mp (nonpos_of_mul_nonneg_right place (by linarith))

/-- Where the place of an edge is on the line of another one, so are its ends, but
for one that is not involved. -/
theorem StrictlyConvex.ends_of_place (convex : StrictlyConvex poly) (he : e ∈ edges poly)
    (hf : f ∈ edges poly) (meets : Meets y f) (zero : cross e.1 e.2 (abscissa y f, y) = 0) :
    (weight y f < 1 → f.1 = e.1 ∨ f.1 = e.2) ∧ (0 < weight y f → f.2 = e.1 ∨ f.2 = e.2) := by
  obtain ⟨start, goal⟩ := mem_of_edge hf
  have first := mul_nonneg (sub_nonneg.mpr meets.high) (convex.cross_nonneg he start)
  have second := mul_nonneg meets.low (convex.cross_nonneg he goal)
  rw [cross_abscissa meets.level] at zero
  constructor
  · intro before
    have none : (1 - weight y f) * cross e.1 e.2 f.1 = 0 := by linarith
    exact convex.end_of_cross he start ((mul_eq_zero.mp none).resolve_left (by linarith))
  · intro behind
    have none : weight y f * cross e.1 e.2 f.2 = 0 := by linarith
    exact convex.end_of_cross he goal ((mul_eq_zero.mp none).resolve_left behind.ne')

/-- At every height one edge at most leads up. -/
theorem StrictlyConvex.enters_unique (convex : StrictlyConvex poly) (he : e ∈ edges poly)
    (hf : f ∈ edges poly) (first : enters (above y) e = true)
    (second : enters (above y) f = true) : e = f := by
  have meetsE := (meets_of_enters first).1
  obtain ⟨meetsF, before, -⟩ := meets_of_enters second
  have same := le_antisymm (convex.le_of_enters he first hf meetsF)
    (convex.le_of_enters hf second he meetsE)
  have start : f.1 = e.1 := by
    obtain start | crossed := (convex.ends_of_place he hf meetsF (place_zero meetsE same)).1 before
    · exact start
    · have low := (enters_iff.mp second).1
      rw [crossed] at low
      exact absurd (enters_iff.mp first).2 (not_lt.mpr low)
  have mem : (e.1, f.2) ∈ edges poly := start ▸ hf
  exact Prod.ext start.symm (next_unique convex.distinct he mem)

/-- At every height one edge at most leads down. -/
theorem StrictlyConvex.leaves_unique (convex : StrictlyConvex poly) (he : e ∈ edges poly)
    (hf : f ∈ edges poly) (first : leaves (above y) e = true)
    (second : leaves (above y) f = true) : e = f := by
  have meetsE := (meets_of_leaves first).1
  obtain ⟨meetsF, behind, -⟩ := meets_of_leaves second
  have same := le_antisymm (convex.le_of_leaves hf second he meetsE)
    (convex.le_of_leaves he first hf meetsF)
  have goal : f.2 = e.2 := by
    obtain crossed | goal := (convex.ends_of_place he hf meetsF (place_zero meetsE same)).2 behind
    · have low := (leaves_iff.mp second).2
      rw [crossed] at low
      exact absurd (leaves_iff.mp first).1 (not_lt.mpr low)
    · exact goal
  have mem : (f.1, e.2) ∈ edges poly := goal ▸ hf
  exact Prod.ext (previous_unique convex.distinct he mem) goal.symm

/-- Where an edge leads up through the line of an edge that a point on its left is
on the line of, it starts there, at an end of that edge. -/
theorem StrictlyConvex.starts_at (convex : StrictlyConvex poly) (he : e ∈ edges poly)
    (up : enters (above p.2) e = true) (hg : g ∈ edges poly) (left : 0 < cross e.1 e.2 p)
    (zero : cross g.1 g.2 p = 0) (placed : cross g.1 g.2 (abscissa p.2 e, p.2) = 0) :
    (abscissa p.2 e, p.2) = e.1 ∧ (e.1 = g.1 ∨ e.1 = g.2) := by
  obtain ⟨meets, before, flat⟩ := meets_of_enters up
  obtain ⟨low, high⟩ := enters_iff.mp up
  obtain ⟨start, goal⟩ := convex.ends_of_place hg he meets placed
  have at_start : weight p.2 e = 0 := by
    by_contra inside
    have ends := goal (lt_of_le_of_ne meets.low (Ne.symm inside))
    have apart : e.1 ≠ e.2 := fun same => by rw [same] at low; linarith
    rw [convex.eq_of_ends he hg apart (start before) ends] at zero
    exact left.ne zero.symm
  refine ⟨Prod.ext ?_ (flat at_start).symm, start before⟩
  rw [abscissa, at_start, mul_zero, add_zero]

/-- The same for an edge that leads down, which ends there. -/
theorem StrictlyConvex.ends_at (convex : StrictlyConvex poly) (he : e ∈ edges poly)
    (down : leaves (above p.2) e = true) (hg : g ∈ edges poly) (left : 0 < cross e.1 e.2 p)
    (zero : cross g.1 g.2 p = 0) (placed : cross g.1 g.2 (abscissa p.2 e, p.2) = 0) :
    (abscissa p.2 e, p.2) = e.2 ∧ (e.2 = g.1 ∨ e.2 = g.2) := by
  obtain ⟨meets, behind, flat⟩ := meets_of_leaves down
  obtain ⟨high, low⟩ := leaves_iff.mp down
  obtain ⟨start, goal⟩ := convex.ends_of_place hg he meets placed
  have at_end : weight p.2 e = 1 := by
    by_contra inside
    have starts := start (lt_of_le_of_ne meets.high inside)
    have apart : e.1 ≠ e.2 := fun same => by rw [same] at high; linarith
    rw [convex.eq_of_ends he hg apart starts (goal behind)] at zero
    exact left.ne zero.symm
  refine ⟨Prod.ext ?_ (flat at_end).symm, goal behind⟩
  rw [abscissa, at_end, mul_one, add_sub_cancel]

/-- A point between an edge that leads down and one that leads up is on the left of
every edge that it is not on. -/
theorem StrictlyConvex.inner_of_between (convex : StrictlyConvex poly) (he : e ∈ edges poly)
    (up : enters (above p.2) e = true) (hf : f ∈ edges poly) (down : leaves (above p.2) f = true)
    (left : abscissa p.2 f < p.1) (right : p.1 < abscissa p.2 e) (off : ¬OnEdge poly p) :
    InnerPoint poly p := by
  intro g hg
  have meetsE := (meets_of_enters up).1
  have meetsF := (meets_of_leaves down).1
  obtain ⟨lowE, highE⟩ := enters_iff.mp up
  obtain ⟨highF, lowF⟩ := leaves_iff.mp down
  have leftOfE : 0 < cross e.1 e.2 p := by
    rw [cross_eq_abscissa meetsE.level]
    exact mul_pos (by linarith) (by linarith)
  have leftOfF : 0 < cross f.1 f.2 p := by
    rw [cross_eq_abscissa meetsF.level]
    exact mul_pos_of_neg_of_neg (by linarith) (by linarith)
  have placeE := convex.place_nonneg hg he meetsE
  have placeF := convex.place_nonneg hg hf meetsF
  have between := cross_between g.1 g.2 p (abscissa p.2 f) (abscissa p.2 e)
  have shareE := mul_nonneg (sub_pos.mpr left).le placeE
  have shareF := mul_nonneg (sub_pos.mpr right).le placeF
  have wide : 0 < abscissa p.2 e - abscissa p.2 f := by linarith
  refine lt_of_le_of_ne (nonneg_of_mul_nonneg_right (by linarith) wide) fun zero => off ?_
  -- then both places are ends of the edge, and the point is between them
  rw [← zero, mul_zero] at between
  have zeroE : cross g.1 g.2 (abscissa p.2 e, p.2) = 0 :=
    (mul_eq_zero.mp (by linarith)).resolve_left (sub_pos.mpr left).ne'
  have zeroF : cross g.1 g.2 (abscissa p.2 f, p.2) = 0 :=
    (mul_eq_zero.mp (by linarith)).resolve_left (sub_pos.mpr right).ne'
  obtain ⟨cornerE, endE⟩ := convex.starts_at he up hg leftOfE zero.symm zeroE
  obtain ⟨cornerF, endF⟩ := convex.ends_at hf down hg leftOfF zero.symm zeroF
  have on := mem_segment_of_between left.le right.le
  rw [cornerE, cornerF] at on
  have apart : e.1 ≠ f.2 := by
    rw [← cornerE, ← cornerF]
    exact fun same => (left.trans right).ne (congrArg Prod.fst same).symm
  obtain first | first := endE
  · obtain second | second := endF
    · exact absurd (first.trans second.symm) apart
    · refine ⟨g, hg, ?_⟩
      rwa [segment_symm, ← first, ← second]
  · obtain second | second := endF
    · refine ⟨g, hg, ?_⟩
      rwa [← first, ← second]
    · exact absurd (first.trans second.symm) apart

/-- An inner point is before the place of an edge that leads up. -/
theorem InnerPoint.lt_abscissa (inner : InnerPoint poly p) (he : e ∈ edges poly)
    (up : enters (above p.2) e = true) : p.1 < abscissa p.2 e := by
  obtain ⟨low, high⟩ := enters_iff.mp up
  have left := inner e he
  rw [cross_eq_abscissa (meets_of_enters up).1.level] at left
  exact sub_pos.mp ((mul_pos_iff_of_pos_left (by linarith)).mp left)

/-- An inner point is behind the place of an edge that leads down. -/
theorem InnerPoint.abscissa_lt (inner : InnerPoint poly p) (he : e ∈ edges poly)
    (down : leaves (above p.2) e = true) : abscissa p.2 e < p.1 := by
  obtain ⟨high, low⟩ := leaves_iff.mp down
  have left := inner e he
  rw [cross_eq_abscissa (meets_of_leaves down).1.level] at left
  exact sub_neg.mp (neg_of_mul_pos_right left (by linarith))

/-- Apart from the edges, a point is at no place of one. -/
theorem Meets.apart (meets : Meets p.2 e) (he : e ∈ edges poly) (off : ¬OnEdge poly p) :
    p.1 ≠ abscissa p.2 e := by
  intro same
  have place : p = (abscissa p.2 e, p.2) := Prod.ext same rfl
  exact off ⟨e, he, place ▸ meets.mem_segment⟩

/-- A vertex with its two neighbours is a corner to the left. -/
theorem StrictlyConvex.corner (convex : StrictlyConvex poly) {z v b : K × K}
    (before : (z, v) ∈ edges poly) (behind : (v, b) ∈ edges poly) : 0 < cross v b z := by
  refine convex.left (v, b) behind z (mem_of_edge before).1 ?_ ?_
  · rintro rfl
    exact convex.one_way before before
  · rintro rfl
    exact convex.one_way before behind

/-- The line through an inner point is crossed by an edge that leads up. -/
theorem StrictlyConvex.exists_enters (convex : StrictlyConvex poly) (inner : InnerPoint poly p) :
    ∃ e ∈ edges poly, enters (above p.2) e = true := by
  by_contra none
  have noDown := mt (exists_leaves_iff poly p.2).mp none
  have up {e : (K × K) × (K × K)} (he : e ∈ edges poly) (low : e.1.2 ≤ p.2) : e.2.2 ≤ p.2 :=
    not_lt.mp fun high => none ⟨e, he, enters_iff.mpr ⟨low, high⟩⟩
  have down {e : (K × K) × (K × K)} (he : e ∈ edges poly) (low : e.2.2 ≤ p.2) : e.1.2 ≤ p.2 :=
    not_lt.mp fun high => noDown ⟨e, he, leaves_iff.mpr ⟨high, low⟩⟩
  obtain some | empty := (poly.toFinset.filter fun v => v.2 ≤ p.2).eq_empty_or_nonempty.symm
  · -- the highest of the vertices that are not above the point
    obtain ⟨v, hv, highest⟩ := Finset.exists_max_image _ Prod.snd some
    simp only [Finset.mem_filter, List.mem_toFinset] at hv highest
    obtain ⟨b, behind⟩ := exists_next hv.1
    obtain ⟨z, before⟩ := exists_previous hv.1
    have lowB := highest b ⟨(mem_of_edge behind).2, up behind hv.2⟩
    have lowZ := highest z ⟨(mem_of_edge before).1, down before hv.2⟩
    have shares := cross_corner z v b p
    have corner := mul_nonneg (convex.corner before behind).le (sub_nonneg.mpr hv.2)
    have shareZ := mul_nonpos_of_nonneg_of_nonpos (inner _ behind).le (sub_nonpos.mpr lowZ)
    have shareB := mul_nonpos_of_nonneg_of_nonpos (inner _ before).le (sub_nonpos.mpr lowB)
    have flatZ : z.2 - v.2 = 0 :=
      (mul_eq_zero.mp (by linarith)).resolve_left (inner _ behind).ne'
    have flatB : b.2 - v.2 = 0 :=
      (mul_eq_zero.mp (by linarith)).resolve_left (inner _ before).ne'
    have flat : cross v b z = 0 := by
      rw [cross, flatZ, flatB]
      ring
    exact (convex.corner before behind).ne' flat
  · -- the lowest of all vertices, which are above the point
    have higher {v : K × K} (hv : v ∈ poly) : p.2 < v.2 := by
      by_contra low
      have mem : v ∈ poly.toFinset.filter fun v => v.2 ≤ p.2 :=
        Finset.mem_filter.mpr ⟨List.mem_toFinset.mpr hv, not_lt.mp low⟩
      rw [empty] at mem
      exact Finset.notMem_empty v mem
    obtain ⟨any, hany, -⟩ := convex.exists_third p p
    obtain ⟨v, hv, lowest⟩ :=
      Finset.exists_min_image poly.toFinset Prod.snd ⟨any, List.mem_toFinset.mpr hany⟩
    simp only [List.mem_toFinset] at hv lowest
    obtain ⟨b, behind⟩ := exists_next hv
    obtain ⟨z, before⟩ := exists_previous hv
    have shares := cross_corner z v b p
    have corner := mul_neg_of_pos_of_neg (convex.corner before behind) (sub_neg.mpr (higher hv))
    have shareZ := mul_nonneg (inner _ behind).le
      (sub_nonneg.mpr (lowest z (mem_of_edge before).1))
    have shareB := mul_nonneg (inner _ before).le
      (sub_nonneg.mpr (lowest b (mem_of_edge behind).2))
    linarith

end Levels

section Rays

variable {poly : List (K × K)} {e : (K × K) × (K × K)} {p : K × K}

/-- The edge crosses the ray that goes to the right from a point. -/
def crosses (p : K × K) (e : (K × K) × (K × K)) : Bool :=
  above p.2 e.1 != above p.2 e.2 && decide (p.1 < abscissa p.2 e)

theorem crosses_of_enters (up : enters (above p.2) e = true) :
    crosses p e = true ↔ p.1 < abscissa p.2 e := by
  obtain ⟨low, high⟩ := enters_iff.mp up
  simp [crosses, above, not_lt.mpr low, high]

theorem crosses_of_leaves (down : leaves (above p.2) e = true) :
    crosses p e = true ↔ p.1 < abscissa p.2 e := by
  obtain ⟨high, low⟩ := leaves_iff.mp down
  simp [crosses, above, not_lt.mpr low, high]

/-- An edge that crosses the ray leads up or down, and not both. -/
theorem crosses_split (p : K × K) (e : (K × K) × (K × K)) :
    (crosses p e).toNat =
      (enters (above p.2) e && crosses p e).toNat + (leaves (above p.2) e && crosses p e).toNat := by
  unfold enters leaves crosses
  cases above p.2 e.1 <;> cases above p.2 e.2 <;> simp

/-- Where no edge leads up through the line of a point, none crosses the ray. -/
theorem no_crossings (flat : ¬∃ e ∈ edges poly, enters (above p.2) e = true) :
    (edges poly).countP (crosses p) = 0 := by
  apply List.countP_eq_zero.mpr
  intro g hg holds
  have flatUp : enters (above p.2) g = false := Bool.eq_false_iff.mpr fun up => flat ⟨g, hg, up⟩
  have flatDown : leaves (above p.2) g = false :=
    Bool.eq_false_iff.mpr fun down => flat ((exists_leaves_iff poly p.2).mp ⟨g, hg, down⟩)
  have one := crosses_split p g
  rw [holds, flatUp, flatDown] at one
  cases one

end Rays

section Parity

variable [IsStrictOrderedRing K] {poly : List (K × K)} {e : (K × K) × (K × K)} {p : K × K}

/-- The number of crossings, where an edge leads up and one leads down. -/
theorem StrictlyConvex.crossings (convex : StrictlyConvex poly) {f : (K × K) × (K × K)}
    (he : e ∈ edges poly) (up : enters (above p.2) e = true) (hf : f ∈ edges poly)
    (down : leaves (above p.2) f = true) :
    (edges poly).countP (crosses p) = (crosses p e).toNat + (crosses p f).toNat := by
  have distinct := edges_nodup convex.distinct
  have toNat_eq (x : Bool) : (if x = true then 1 else 0) = x.toNat := by cases x <;> rfl
  rw [countP_split (crosses_split p), countP_unique distinct he, countP_unique distinct hf,
    toNat_eq, toNat_eq, up, down, Bool.true_and, Bool.true_and]
  · intro g hg both
    exact convex.leaves_unique hg hf (Bool.and_eq_true_iff.mp both).1 down
  · intro g hg both
    exact convex.enters_unique hg he (Bool.and_eq_true_iff.mp both).1 up

/-- Apart from the edges, the points with an odd number of crossings are the inner ones. -/
theorem StrictlyConvex.odd_crossings_iff (convex : StrictlyConvex poly) (off : ¬OnEdge poly p) :
    Odd ((edges poly).countP (crosses p)) ↔ InnerPoint poly p := by
  by_cases some : ∃ e ∈ edges poly, enters (above p.2) e = true
  · obtain ⟨f, hf, down⟩ := (exists_leaves_iff poly p.2).mpr some
    obtain ⟨e, he, up⟩ := some
    have meetsE := (meets_of_enters up).1
    have meetsF := (meets_of_leaves down).1
    have order := convex.le_of_enters he up hf meetsF
    rw [convex.crossings he up hf down]
    obtain beforeF | behindF := lt_or_gt_of_ne (meetsF.apart hf off)
    · have both : crosses p e = true ∧ crosses p f = true :=
        ⟨(crosses_of_enters up).mpr (beforeF.trans_le order), (crosses_of_leaves down).mpr beforeF⟩
      rw [both.1, both.2]
      refine ⟨fun odd => absurd odd (by decide), fun inner => ?_⟩
      exact absurd (inner.abscissa_lt hf down) beforeF.not_gt
    · have missed : crosses p f = false :=
        Bool.eq_false_iff.mpr (mt (crosses_of_leaves down).mp behindF.not_gt)
      obtain beforeE | behindE := lt_or_gt_of_ne (meetsE.apart he off)
      · rw [(crosses_of_enters up).mpr beforeE, missed]
        refine ⟨fun _ => ?_, fun _ => by decide⟩
        exact convex.inner_of_between he up hf down behindF beforeE off
      · have passed : crosses p e = false :=
          Bool.eq_false_iff.mpr (mt (crosses_of_enters up).mp behindE.not_gt)
        rw [passed, missed]
        refine ⟨fun odd => absurd odd (by decide), fun inner => ?_⟩
        exact absurd (inner.lt_abscissa he up) behindE.not_gt
  · rw [no_crossings some]
    exact ⟨fun odd => absurd odd (by decide), fun inner => absurd (convex.exists_enters inner) some⟩

end Parity

end ConvexPolygons
