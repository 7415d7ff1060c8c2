import AxVision.ConvexPolygons
import Mathlib.Analysis.Convex.Topology
import Mathlib.Topology.Algebra.Order.Field

/-!
# The interior of a convex polygon

In the real plane the points on the left of all edges of a strictly convex
polygon are the interior of the hull of its vertices, and its edges are on the
boundary.
-/

namespace ConvexInteriors

open CyclicEdges ConvexPolygons Topology

variable {poly : List (ℝ × ℝ)} {p : ℝ × ℝ}

/-- The polygon as a set: the convex hull of its vertices. -/
def hull (poly : List (ℝ × ℝ)) : Set (ℝ × ℝ) := convexHull ℝ {v | v ∈ poly}

theorem hull_convex (poly : List (ℝ × ℝ)) : Convex ℝ (hull poly) := convex_convexHull ℝ _

theorem mem_hull {v : ℝ × ℝ} (hv : v ∈ poly) : v ∈ hull poly := subset_convexHull ℝ _ hv

theorem segment_subset_hull {e : (ℝ × ℝ) × (ℝ × ℝ)} (he : e ∈ edges poly) :
    segment ℝ e.1 e.2 ⊆ hull poly :=
  (hull_convex poly).segment_subset (mem_hull (mem_of_edge he).1) (mem_hull (mem_of_edge he).2)

/-- An inner point is between two places of edges. -/
theorem inner_subset_hull (convex : StrictlyConvex poly) (inner : InnerPoint poly p) :
    p ∈ hull poly := by
  obtain ⟨e, he, up⟩ := convex.exists_enters inner
  obtain ⟨f, hf, down⟩ := (exists_leaves_iff poly p.2).mpr ⟨e, he, up⟩
  have meetsE := (meets_of_enters up).1
  have meetsF := (meets_of_leaves down).1
  have between := mem_segment_of_between (inner.abscissa_lt hf down).le (inner.lt_abscissa he up).le
  exact (hull_convex poly).segment_subset (segment_subset_hull hf meetsF.mem_segment)
    (segment_subset_hull he meetsE.mem_segment) between

theorem cross_continuous (a b : ℝ × ℝ) : Continuous fun q => cross a b q := by
  unfold cross
  fun_prop

theorem inner_isOpen (poly : List (ℝ × ℝ)) : IsOpen {p | InnerPoint poly p} := by
  have same : {p | InnerPoint poly p} = ⋂ e ∈ {e | e ∈ edges poly}, {p | 0 < cross e.1 e.2 p} := by
    ext p
    simp only [InnerPoint, Set.mem_ofPred_eq, Set.mem_iInter]
  rw [same]
  exact (List.finite_toSet _).isOpen_biInter fun e _ =>
    isOpen_lt continuous_const (cross_continuous e.1 e.2)

/-- The hull is on the left of every edge. -/
theorem hull_nonneg (convex : StrictlyConvex poly) {e : (ℝ × ℝ) × (ℝ × ℝ)} (he : e ∈ edges poly)
    (mem : p ∈ hull poly) : 0 ≤ cross e.1 e.2 p := by
  have half : Convex ℝ {q : ℝ × ℝ | 0 ≤ cross e.1 e.2 q} := by
    intro q hq r hr s t hs ht whole
    change 0 ≤ cross e.1 e.2 (s • q + t • r)
    rw [cross_combination _ _ _ _ whole]
    exact add_nonneg (mul_nonneg hs hq) (mul_nonneg ht hr)
  exact convexHull_min (fun v hv => convex.cross_nonneg he hv) half mem

/-- The interior of the polygon is the set of its inner points. -/
theorem interior_hull (convex : StrictlyConvex poly) :
    interior (hull poly) = {p | InnerPoint poly p} := by
  apply Set.Subset.antisymm
  · intro p mem e he
    refine lt_of_le_of_ne (hull_nonneg convex he (interior_subset mem)) fun zero => ?_
    -- from a vertex on the left through the point, the next points are on the right
    obtain ⟨v, hv, first, second⟩ := convex.exists_third e.1 e.2
    have left := convex.left e he v hv first second
    have path : Continuous fun t : ℝ => (1 + t) • p + (-t) • v := by fun_prop
    have start : (1 + (0 : ℝ)) • p + (-(0 : ℝ)) • v = p := by simp
    have near : ∀ᶠ t in 𝓝[>] (0 : ℝ), (1 + t) • p + (-t) • v ∈ hull poly := by
      refine (path.tendsto 0).mono_left nhdsWithin_le_nhds ?_
      rw [start]
      exact mem_interior_iff_mem_nhds.mp mem
    obtain ⟨t, stays, positive⟩ := (near.and self_mem_nhdsWithin).exists
    have side := hull_nonneg convex he stays
    rw [cross_combination _ _ _ _ (by ring), ← zero, mul_zero, zero_add] at side
    exact absurd side (mul_neg_of_neg_of_pos (neg_neg_of_pos positive) left).not_ge
  · exact interior_maximal (fun p inner => inner_subset_hull convex inner) (inner_isOpen poly)

/-- The edges of the polygon are on its boundary. -/
theorem onEdge_frontier (convex : StrictlyConvex poly) (on : OnEdge poly p) :
    p ∈ frontier (hull poly) := by
  obtain ⟨e, he, mem⟩ := on
  refine ⟨subset_closure (segment_subset_hull he mem), ?_⟩
  rw [interior_hull convex]
  intro inner
  obtain ⟨s, t, -, -, whole, rfl⟩ := mem
  have side := inner e he
  rw [cross_combination _ _ _ _ whole, cross_left, cross_right, mul_zero, mul_zero, add_zero] at side
  exact lt_irrefl 0 side

end ConvexInteriors
