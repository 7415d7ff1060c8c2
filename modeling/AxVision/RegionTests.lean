import AxVision.ConvexInteriors
import AxVision.RealArithmetic
import AxVision.SampleRules

/-!
# The region test counts crossings

Over the real numbers the loop of `pointInPolygon` gives the parity of the
edges that cross the ray to the right of the point. The parity does not depend
on the vertex the list starts with, nor on its direction, and for a strictly
convex polygon it tells the interior.
-/

namespace RegionTests

open CyclicEdges ConvexPolygons ConvexInteriors DetectionTypes RealArithmetic SampleRules

section Crossings

variable {poly : List (ℝ × ℝ)} {x y : ℝ}

theorem equal_iff (a b : ℝ) : equal a b = true ↔ a = b := by
  change (decide (a ≤ b) && decide (b ≤ a)) = true ↔ a = b
  rw [Bool.and_eq_true, decide_eq_true_iff, decide_eq_true_iff, le_antisymm_iff]

/-- An edge whose ends have one height crosses no ray. -/
theorem crosses_level {p : ℝ × ℝ} {e : (ℝ × ℝ) × (ℝ × ℝ)} (level : e.1.2 = e.2.2) :
    crosses p e = false := by
  have same : above p.2 e.1 = above p.2 e.2 := by
    unfold above
    rw [level]
  rw [crosses, same, bne_self_eq_false, Bool.false_and]

/-- The test of the loop, which reads the edge from its second end. -/
theorem crossesEdge_eq (x y : ℝ) (pj pi : ℝ × ℝ) :
    crossesEdge x y pj pi = crosses (x, y) (pi, pj) := by
  rw [crossesEdge]
  split
  · rename_i level
    have zero : pj.2 - pi.2 = ((0 : ℚ) : ℝ) := (equal_iff _ _).mp level
    rw [Rat.cast_zero, sub_eq_zero] at zero
    exact (crosses_level zero.symm).symm
  · have place : (pj.1 - pi.1) * (y - pi.2) / (pj.2 - pi.2) + pi.1 = abscissa y (pi, pj) := by
      unfold abscissa weight
      rw [mul_div_assoc, add_comm]
    rw [place]
    rfl

/-- An edge crosses the ray whichever way it is listed. -/
theorem crosses_swap (p : ℝ × ℝ) (e : (ℝ × ℝ) × (ℝ × ℝ)) : crosses p e.swap = crosses p e := by
  by_cases level : e.1.2 = e.2.2
  · rw [crosses_level level, crosses_level level.symm]
  · have place : abscissa p.2 e.swap = abscissa p.2 e := by
      have up := sub_ne_zero.mpr level
      have down := sub_ne_zero.mpr (Ne.symm level)
      unfold abscissa weight
      rw [Prod.fst_swap, Prod.snd_swap]
      field_simp
      ring
    rw [crosses, crosses, place, Prod.fst_swap, Prod.snd_swap, bne_comm]

/-- The loop flips at every edge that crosses the ray. -/
theorem polygonLoop_eq (x y : ℝ) (rest : List (ℝ × ℝ)) (inside : Bool) (last : ℝ × ℝ) :
    polygonLoop x y inside last rest =
      (inside ^^ decide (Odd ((rest.zip (last :: rest)).countP (crosses (x, y))))) := by
  induction rest generalizing inside last with
  | nil => simp [polygonLoop]
  | cons vertex rest ih =>
    rw [polygonLoop, ih, crossesEdge_eq, List.zip_cons_cons, List.countP_cons]
    cases crosses (x, y) (vertex, last)
    · simp
    · cases inside <;> simp [Nat.odd_add_one, -Nat.not_odd_iff_even]

/-- The reversed edges cross the same ray. -/
theorem countP_swap (p : ℝ × ℝ) (l : List ((ℝ × ℝ) × (ℝ × ℝ))) :
    (l.map Prod.swap).countP (crosses p) = l.countP (crosses p) := by
  rw [List.countP_map]
  exact List.countP_congr fun e _ => by rw [Function.comp_apply, crosses_swap]

/-- Inside means an odd number of crossings. -/
theorem pointInPolygon_iff (poly : List (ℝ × ℝ)) (x y : ℝ) :
    pointInPolygon poly x y = true ↔ Odd ((edges poly).countP (crosses (x, y))) := by
  obtain rfl | ⟨front, last, rfl⟩ := List.eq_nil_or_concat' poly
  · exact ⟨fun no => absurd no Bool.false_ne_true, fun odd => absurd odd Nat.not_odd_zero⟩
  · -- the loop walks the edges of the list that starts with the last vertex
    have turned : (last :: front).rotate 1 = front ++ [last] := by simp
    have walk : (front ++ [last]).zip (last :: (front ++ [last])) =
        (edges (last :: front)).map Prod.swap := by
      have length : (front ++ [last]).length = (last :: front).length := by simp
      have beyond : ((front ++ [last]) ++ []).zip ((last :: front) ++ [last]) =
          (front ++ [last]).zip (last :: front) := by
        rw [List.zip_append length, List.zip_nil_left, List.append_nil]
      rw [List.append_nil] at beyond
      rw [edges, turned, List.zip_swap, ← List.cons_append, beyond]
    rw [pointInPolygon, List.getLast?_concat]
    dsimp only
    rw [polygonLoop_eq, walk, countP_swap, Bool.false_xor, decide_eq_true_iff, ← turned,
      (edges_rotate_perm _ 1).countP_eq]

end Crossings

section Regions

variable {poly : List (ℝ × ℝ)} {p : ℝ × ℝ}

/-- The vertices of a strictly convex polygon in order, one way or the other. -/
def Listed (poly : List (ℝ × ℝ)) : Prop := StrictlyConvex poly ∨ StrictlyConvex poly.reverse

theorem pointInPolygon_rotate (poly : List (ℝ × ℝ)) (n : Nat) (x y : ℝ) :
    pointInPolygon (poly.rotate n) x y = pointInPolygon poly x y := by
  rw [Bool.eq_iff_iff, pointInPolygon_iff, pointInPolygon_iff, (edges_rotate_perm poly n).countP_eq]

theorem pointInPolygon_reverse (poly : List (ℝ × ℝ)) (x y : ℝ) :
    pointInPolygon poly.reverse x y = pointInPolygon poly x y := by
  rw [Bool.eq_iff_iff, pointInPolygon_iff, pointInPolygon_iff, (edges_reverse_perm poly).countP_eq,
    countP_swap]

theorem pointInPolygon_interior (convex : StrictlyConvex poly) (off : p ∉ frontier (hull poly)) :
    pointInPolygon poly p.1 p.2 = true ↔ p ∈ interior (hull poly) := by
  rw [pointInPolygon_iff, convex.odd_crossings_iff fun on => off (onEdge_frontier convex on),
    interior_hull convex]
  rfl

theorem hull_reverse (poly : List (ℝ × ℝ)) : hull poly.reverse = hull poly := by
  simp only [hull, List.mem_reverse]

theorem pointInPolygon_listed (listed : Listed poly) (off : p ∉ frontier (hull poly)) :
    pointInPolygon poly p.1 p.2 = true ↔ p ∈ interior (hull poly) := by
  cases listed with
  | inl convex => exact pointInPolygon_interior convex off
  | inr convex =>
    rw [← hull_reverse] at off
    rw [← pointInPolygon_reverse, ← hull_reverse]
    exact pointInPolygon_interior convex off

/-- The middle of the box of an object. -/
noncomputable def middle (obj : Object ℝ) : ℝ × ℝ :=
  (obj.rect.x + obj.rect.width / 2, obj.rect.y + obj.rect.height / 2)

/-- The rule tells of every object whether its middle is in the region. -/
theorem process_listed {region : List (ℝ × ℝ)} {objects : List (Object ℝ)} {i : Nat}
    {obj : Object ℝ} (listed : Listed region) (at_i : objects[i]? = some obj)
    (off : middle obj ∉ frontier (hull region)) :
    (process region objects)[i]? = some true ↔ middle obj ∈ interior (hull region) := by
  have two : (Scalar.ofRat 2 : ℝ) = 2 := Rat.cast_ofNat 2
  rw [process, List.getElem?_map, at_i, Option.map_some, Option.some.injEq]
  dsimp only
  rw [two]
  exact pointInPolygon_listed listed off

/-- The region test tells the interior of a strictly convex polygon apart from
the outside, and for every vertex list its result is the one for the list
rotated or reversed. -/
theorem pointInPolygon_tells :
    (∀ poly, Listed poly → ∀ p ∉ frontier (hull poly),
      (pointInPolygon poly p.1 p.2 = true ↔ p ∈ interior (hull poly))) ∧
    ∀ (poly : List (ℝ × ℝ)) (x y : ℝ),
      (∀ n, pointInPolygon (poly.rotate n) x y = pointInPolygon poly x y) ∧
        pointInPolygon poly.reverse x y = pointInPolygon poly x y := by
  refine ⟨fun poly listed p off => ?_, fun poly x y => ⟨fun n => ?_, ?_⟩⟩
  · exact pointInPolygon_listed listed off
  · exact pointInPolygon_rotate poly n x y
  · exact pointInPolygon_reverse poly x y

def triangle : List (ℝ × ℝ) := [(0, 0), (4, 0), (0, 4)]

theorem triangle_edges : edges triangle = [((0, 0), 4, 0), ((4, 0), 0, 4), ((0, 4), 0, 0)] := rfl

theorem triangle_convex : StrictlyConvex triangle where
  corners := by decide
  distinct := by norm_num [triangle]
  left := by
    rw [triangle_edges]
    norm_num [triangle, cross]

theorem triangle_inner : InnerPoint triangle (1, 1) := by
  rw [InnerPoint, triangle_edges]
  norm_num [cross]

/-- A point of a triangle. -/
theorem triangle_tells : pointInPolygon triangle 1 1 = true := by
  have mem : ((1, 1) : ℝ × ℝ) ∈ interior (hull triangle) := by
    rw [interior_hull triangle_convex]
    exact triangle_inner
  have off : ((1, 1) : ℝ × ℝ) ∉ frontier (hull triangle) :=
    disjoint_interior_frontier.notMem_of_mem_left mem
  exact (pointInPolygon_tells.1 triangle (.inl triangle_convex) (1, 1) off).mpr mem

end Regions

end RegionTests
