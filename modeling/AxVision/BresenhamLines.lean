import AxVision.DrawnPixels
import AxVision.RoundedSlopes
import Mathlib.Data.List.Range
import Mathlib.Data.Rat.Floor
import Mathlib.Tactic.FieldSimp

/-!
# Lines of single pixels

The general case of `DrawLine` with a line width of 1. What the loop keeps in
`eps` is the run times the rounding error of the multiple it has reached, so the
pixels are the rounded multiples of the slope in each of the eight octants.
-/

namespace BresenhamLines

open PlaneLayouts WriteLogs FrameDrawing DrawnPixels RoundedSlopes

variable {dx dy xstep ystep x y x1 y1 x2 y2 : Int}

section Loops

def slope (dx dy : Int) : ℚ := dy / dx

/-- The pixel of turn `k` where x is the major axis. -/
def flatPoint (dx dy xstep ystep x y : Int) (k : Nat) : Int × Int :=
  (x + k * xstep, y + rounded (slope dx dy) k * ystep)

theorem slope_nonneg (pos : 0 < dx) (nonneg : 0 ≤ dy) : 0 ≤ slope dx dy :=
  div_nonneg (Int.cast_nonneg nonneg) (Int.cast_nonneg pos.le)

theorem slope_le_one (pos : 0 < dx) (le : dy ≤ dx) : slope dx dy ≤ 1 :=
  (div_le_one (Int.cast_pos.mpr pos)).mpr (Int.cast_le.mpr le)

theorem mul_slope (pos : 0 < dx) (dy : Int) : (dx : ℚ) * slope dx dy = dy :=
  mul_div_cancel₀ _ (Int.cast_ne_zero.mpr pos.ne')

/-- `eps` before turn `k`. -/
def Carries (dx dy : Int) (k : Nat) (eps : Int) : Prop :=
  (eps : ℚ) = dx * error (slope dx dy) k

theorem carries_zero : Carries dx dy 0 0 := by
  rw [Carries, error, rounded_zero, Nat.cast_zero, zero_mul, Int.cast_zero, sub_zero, mul_zero]

/-- The test of the loop is that of the rounded multiples. -/
theorem test_iff (pos : 0 < dx) {k : Nat} {eps : Int} (carries : Carries dx dy k eps) :
    dx ≤ 2 * (eps + dy) ↔ 1 / 2 ≤ error (slope dx dy) k + slope dx dy := by
  have run : (0 : ℚ) < dx := Int.cast_pos.mpr pos
  have sum : (eps : ℚ) + dy = (error (slope dx dy) k + slope dx dy) * dx := by
    rw [Carries] at carries
    linear_combination carries - mul_slope pos dy
  have scaled : dx ≤ 2 * (eps + dy) ↔ 1 / 2 * (dx : ℚ) ≤ eps + dy := by
    rw [← Int.cast_le (R := ℚ)]
    push_cast
    constructor <;> intro h <;> linarith only [h]
  rw [scaled, sum, mul_le_mul_iff_left₀ run]

theorem carries_succ (pos : 0 < dx) {k : Nat} {eps carry : Int} (carries : Carries dx dy k eps)
    (next : rounded (slope dx dy) (k + 1) = rounded (slope dx dy) k + carry) :
    Carries dx dy (k + 1) (eps + dy - carry * dx) := by
  rw [Carries, error] at carries ⊢
  rw [next]
  push_cast
  linear_combination carries - mul_slope pos dy

theorem flatPoint_column (k : Nat) :
    (flatPoint dx dy xstep ystep x y k).1 + xstep =
      (flatPoint dx dy xstep ystep x y (k + 1)).1 := by
  simp only [flatPoint]
  push_cast
  ring

theorem flatPoint_row (xstep ystep x y : Int) {k : Nat} {carry : Int}
    (next : rounded (slope dx dy) (k + 1) = rounded (slope dx dy) k + carry) :
    (flatPoint dx dy xstep ystep x y (k + 1)).2 =
      (flatPoint dx dy xstep ystep x y k).2 + carry * ystep := by
  simp only [flatPoint, next]
  ring

/-- The pixels of a loop along x from any of its turns. -/
theorem flatPoints_eq (pos : 0 < dx) (nonneg : 0 ≤ dy) (le : dy ≤ dx) (xstep ystep x y : Int)
    (turns k : Nat) (eps : Int) (carries : Carries dx dy k eps) :
    flatPoints dx dy xstep ystep turns (flatPoint dx dy xstep ystep x y k).1
        (flatPoint dx dy xstep ystep x y k).2 eps =
      (List.range' k turns).map (flatPoint dx dy xstep ystep x y) := by
  induction turns generalizing k eps with
  | zero => rfl
  | succ turns ih =>
    have next := rounded_succ (slope_nonneg pos nonneg) (slope_le_one pos le) k
    rw [List.range'_succ, List.map_cons, flatPoints, flatPoint_column]
    refine congrArg (List.cons _) ?_
    split
    · rename_i test
      rw [if_pos ((test_iff pos carries).mp test)] at next
      have row := flatPoint_row xstep ystep x y next
      have after := carries_succ pos carries next
      rw [one_mul] at row after
      rw [← row]
      exact ih (k + 1) _ after
    · rename_i test
      rw [if_neg (mt (test_iff pos carries).mpr test)] at next
      have row := flatPoint_row xstep ystep x y next
      have after := carries_succ pos carries next
      rw [zero_mul, add_zero] at row
      rw [zero_mul, sub_zero] at after
      rw [← row]
      exact ih (k + 1) _ after

/-- The loop along y is that along x with the axes exchanged. -/
theorem steepPoints_eq (dx dy xstep ystep : Int) (turns : Nat) (x y eps : Int) :
    steepPoints dx dy xstep ystep turns x y eps =
      (flatPoints dy dx ystep xstep turns y x eps).map Prod.swap := by
  induction turns generalizing x y eps with
  | zero => rfl
  | succ turns ih =>
    rw [steepPoints, flatPoints, List.map_cons]
    split
    · rw [ih]
      rfl
    · rw [ih]
      rfl

end Loops

section Ends

variable {a b : Int}

def distance (a b : Int) : Int := (b - a).natAbs

/-- The step from the first number to the second. -/
def toward (a b : Int) : Int := if a < b then 1 else -1

theorem distance_pos (differ : a ≠ b) : 0 < distance a b := by
  unfold distance
  omega

theorem distance_nonneg (a b : Int) : 0 ≤ distance a b := Int.natCast_nonneg _

theorem distance_mul_toward (a b : Int) : distance a b * toward a b = b - a := by
  unfold distance toward
  split <;> omega

theorem abs_toward (a b : Int) : |toward a b| = 1 := by
  unfold toward
  split <;> rfl

/-- The pixel of turn `k` on the way along x from one end to the other. -/
def pixelAt (x1 y1 x2 y2 : Int) (k : Nat) : Int × Int :=
  flatPoint (distance x1 x2) (distance y1 y2) (toward x1 x2) (toward y1 y2) x1 y1 k

def pixelsAlong (x1 y1 x2 y2 : Int) : List (Int × Int) :=
  (List.range ((x2 - x1).natAbs + 1)).map (pixelAt x1 y1 x2 y2)

/-- The height of the line through the two ends over a column. -/
def heightAt (x1 y1 x2 y2 x : Int) : ℚ := y1 + (x - x1) * (y2 - y1) / (x2 - x1)

/-- What is asked of the pixels of a line whose major axis is x. -/
structure Along (x1 y1 x2 y2 : Int) (points : List (Int × Int)) : Prop where
  length : points.length = (x2 - x1).natAbs + 1
  first : points.head? = some (x1, y1)
  last : points.getLast? = some (x2, y2)
  steps : points.IsChain fun p q => |q.1 - p.1| = 1 ∧ |q.2 - p.2| ≤ 1
  near : ∀ p ∈ points, |(p.2 : ℚ) - heightAt x1 y1 x2 y2 p.1| ≤ 1 / 2

theorem pixelAt_zero (x1 y1 x2 y2 : Int) : pixelAt x1 y1 x2 y2 0 = (x1, y1) := by
  rw [pixelAt, flatPoint, rounded_zero, Nat.cast_zero, zero_mul, zero_mul, add_zero, add_zero]

theorem pixelAt_last (differ : x1 ≠ x2) : pixelAt x1 y1 x2 y2 (x2 - x1).natAbs = (x2, y2) := by
  have full : rounded (slope (distance x1 x2) (distance y1 y2)) (x2 - x1).natAbs =
      distance y1 y2 := by
    have pos : 0 < (x2 - x1).natAbs := by omega
    exact rounded_run pos
  have column := distance_mul_toward x1 x2
  have row := distance_mul_toward y1 y2
  rw [pixelAt, flatPoint, full, row, ← distance, column, add_sub_cancel, add_sub_cancel]

theorem pixelAt_step (differ : x1 ≠ x2) (le : distance y1 y2 ≤ distance x1 x2) (k : Nat) :
    |(pixelAt x1 y1 x2 y2 (k + 1)).1 - (pixelAt x1 y1 x2 y2 k).1| = 1 ∧
      |(pixelAt x1 y1 x2 y2 (k + 1)).2 - (pixelAt x1 y1 x2 y2 k).2| ≤ 1 := by
  have pos := distance_pos differ
  have grows := rounded_grows (slope_nonneg pos (distance_nonneg y1 y2)) (slope_le_one pos le) k
  obtain ⟨carry, next⟩ : ∃ carry, rounded (slope (distance x1 x2) (distance y1 y2)) (k + 1) =
      rounded (slope (distance x1 x2) (distance y1 y2)) k + carry := ⟨_, (add_sub_cancel _ _).symm⟩
  have small : |carry| ≤ 1 := abs_le.mpr ⟨by omega, by omega⟩
  rw [pixelAt, pixelAt, ← flatPoint_column, flatPoint_row _ _ _ _ next, add_sub_cancel_left,
    add_sub_cancel_left, abs_mul, abs_toward, abs_toward, mul_one]
  exact ⟨rfl, small⟩

/-- A pixel is off the line by the rounding error of its multiple. -/
theorem pixelAt_sub_height (differ : x1 ≠ x2) (k : Nat) :
    ((pixelAt x1 y1 x2 y2 k).2 : ℚ) - heightAt x1 y1 x2 y2 (pixelAt x1 y1 x2 y2 k).1 =
      (rounded (slope (distance x1 x2) (distance y1 y2)) k -
        k * slope (distance x1 x2) (distance y1 y2)) * toward y1 y2 := by
  have run_ne : (distance x1 x2 : ℚ) ≠ 0 := Int.cast_ne_zero.mpr (distance_pos differ).ne'
  have step_ne : (toward x1 x2 : ℚ) ≠ 0 := by
    refine Int.cast_ne_zero.mpr (abs_ne_zero.mp ?_)
    rw [abs_toward]
    exact one_ne_zero
  have columns : ((x2 : ℚ) - x1) = distance x1 x2 * toward x1 x2 := by
    exact_mod_cast (distance_mul_toward x1 x2).symm
  have rows : ((y2 : ℚ) - y1) = distance y1 y2 * toward y1 y2 := by
    exact_mod_cast (distance_mul_toward y1 y2).symm
  rw [heightAt, columns, rows, pixelAt, flatPoint, slope]
  push_cast
  field_simp
  ring

theorem pixelAt_near (differ : x1 ≠ x2) (k : Nat) :
    |((pixelAt x1 y1 x2 y2 k).2 : ℚ) - heightAt x1 y1 x2 y2 (pixelAt x1 y1 x2 y2 k).1| ≤ 1 / 2 := by
  have unit : |(toward y1 y2 : ℚ)| = 1 := by
    rw [← Int.cast_abs, abs_toward, Int.cast_one]
  rw [pixelAt_sub_height differ, abs_mul, unit, mul_one]
  exact rounded_near _ k

theorem pixelsAlong_along (differ : x1 ≠ x2) (le : distance y1 y2 ≤ distance x1 x2) :
    Along x1 y1 x2 y2 (pixelsAlong x1 y1 x2 y2) where
  length := by rw [pixelsAlong, List.length_map, List.length_range]
  first := by
    rw [pixelsAlong, List.range_succ_eq_map, List.map_cons, List.head?_cons, pixelAt_zero]
  last := by
    rw [pixelsAlong, List.range_succ, List.map_append, List.map_singleton,
      List.getLast?_append_of_ne_nil _ (List.cons_ne_nil _ _), List.getLast?_singleton,
      pixelAt_last differ]
  steps := by
    rw [pixelsAlong, List.isChain_map, List.isChain_range_succ]
    exact fun k _ => pixelAt_step differ le k
  near := by
    intro p hp
    obtain ⟨k, -, rfl⟩ := List.mem_map.mp hp
    exact pixelAt_near differ k

end Ends

section Lines

/-- The loop of a line that is not steeper than the diagonal. -/
theorem flatLoop_eq (differ : x1 ≠ x2) (le : distance y1 y2 ≤ distance x1 x2) :
    flatPoints (distance x1 x2) (distance y1 y2) (toward x1 x2) (toward y1 y2)
      (distance x1 x2 + 1).toNat x1 y1 0 = pixelsAlong x1 y1 x2 y2 := by
  have turns : (distance x1 x2 + 1).toNat = (x2 - x1).natAbs + 1 := by
    unfold distance
    omega
  have start := pixelAt_zero x1 y1 x2 y2
  have loop := flatPoints_eq (distance_pos differ) (distance_nonneg y1 y2) le (toward x1 x2)
    (toward y1 y2) x1 y1 (distance x1 x2 + 1).toNat 0 0 carries_zero
  rw [pixelAt] at start
  rw [start] at loop
  rw [loop, turns, pixelsAlong, List.range_eq_range']
  rfl

/-- On a diagonal the two axes may be exchanged. -/
theorem pixelsAlong_diagonal (differ : x1 ≠ x2) (same : distance x1 x2 = distance y1 y2) :
    (pixelsAlong y1 x1 y2 x2).map Prod.swap = pixelsAlong x1 y1 x2 y2 := by
  have lengths : (y2 - y1).natAbs = (x2 - x1).natAbs := by
    unfold distance at same
    omega
  have one : slope (distance x1 x2) (distance x1 x2) = 1 :=
    div_self (Int.cast_ne_zero.mpr (distance_pos differ).ne')
  rw [pixelsAlong, pixelsAlong, List.map_map, lengths]
  refine List.map_congr_left fun k _ => ?_
  simp only [Function.comp_apply, pixelAt, flatPoint, ← same, one, rounded_one, Prod.swap_prod_mk]

theorem bresenham_center (x1 y1 x2 y2 : Int) :
    bresenham x1 y1 x2 y2 0 =
      if distance y1 y2 < distance x1 x2 then
        flatPoints (distance x1 x2) (distance y1 y2) (toward x1 x2) (toward y1 y2)
          (distance x1 x2 + 1).toNat x1 y1 0
      else
        steepPoints (distance x1 x2) (distance y1 y2) (toward x1 x2) (toward y1 y2)
          (distance y1 y2 + 1).toNat x1 y1 0 := by
  simp only [bresenham, add_zero]
  rfl

theorem bresenham_steep (differ : y1 ≠ y2) (le : distance x1 x2 ≤ distance y1 y2) :
    bresenham x1 y1 x2 y2 0 = (pixelsAlong y1 x1 y2 x2).map Prod.swap := by
  rw [bresenham_center, if_neg (not_lt.mpr le), steepPoints_eq, flatLoop_eq differ le]

theorem bresenham_flat (differ : x1 ≠ x2) (le : distance y1 y2 ≤ distance x1 x2) :
    bresenham x1 y1 x2 y2 0 = pixelsAlong x1 y1 x2 y2 := by
  rcases le.lt_or_eq with lt | same
  · rw [bresenham_center, if_pos lt, flatLoop_eq differ le]
  · have differ' : y1 ≠ y2 := by
      unfold distance at same
      omega
    rw [bresenham_steep differ' same.ge, pixelsAlong_diagonal differ same.symm]

/-- What a line of single pixels is: one pixel for each step along its major
axis, none further than 1/2 from the line. On a diagonal both axes are major. -/
structure Traces (x1 y1 x2 y2 : Int) (points : List (Int × Int)) : Prop where
  length : points.length = max (x2 - x1).natAbs (y2 - y1).natAbs + 1
  first : points.head? = some (x1, y1)
  last : points.getLast? = some (x2, y2)
  steps : points.IsChain fun p q => |q.1 - p.1| ≤ 1 ∧ |q.2 - p.2| ≤ 1
  flatSteps : |y2 - y1| ≤ |x2 - x1| → points.IsChain fun p q => |q.1 - p.1| = 1
  steepSteps : |x2 - x1| ≤ |y2 - y1| → points.IsChain fun p q => |q.2 - p.2| = 1
  flatNear : |y2 - y1| ≤ |x2 - x1| →
    ∀ p ∈ points, |(p.2 : ℚ) - (y1 + (p.1 - x1) * (y2 - y1) / (x2 - x1))| ≤ 1 / 2
  steepNear : |x2 - x1| ≤ |y2 - y1| →
    ∀ p ∈ points, |(p.1 : ℚ) - (x1 + (p.2 - y1) * (x2 - x1) / (y2 - y1))| ≤ 1 / 2

theorem option_swap {o : Option (Int × Int)} {x y : Int}
    (h : o.map Prod.swap = some (y, x)) : o = some (x, y) := by
  obtain ⟨p, rfl, same⟩ := Option.map_eq_some_iff.mp h
  rw [← Prod.swap_swap p, same, Prod.swap_prod_mk]

theorem traces_of_flat {points : List (Int × Int)} (le : |y2 - y1| ≤ |x2 - x1|)
    (flat : Along x1 y1 x2 y2 points)
    (steep : |x2 - x1| ≤ |y2 - y1| → Along y1 x1 y2 x2 (points.map Prod.swap)) :
    Traces x1 y1 x2 y2 points where
  length := by
    rw [Int.abs_eq_natAbs, Int.abs_eq_natAbs] at le
    rw [flat.length]
    omega
  first := flat.first
  last := flat.last
  steps := flat.steps.imp fun p q step => ⟨step.1.le, step.2⟩
  flatSteps _ := flat.steps.imp fun p q step => step.1
  steepSteps same := ((List.isChain_map _).mp (steep same).steps).imp fun p q step => step.1
  flatNear _ := flat.near
  steepNear same p hp := (steep same).near p.swap (List.mem_map_of_mem hp)

/-- Exchanging the axes of a line exchanges those of its pixels. -/
theorem Traces.exchange {points : List (Int × Int)}
    (h : Traces y1 x1 y2 x2 (points.map Prod.swap)) : Traces x1 y1 x2 y2 points where
  length := by
    rw [max_comm, ← h.length, List.length_map]
  first := option_swap (List.head?_map.symm.trans h.first)
  last := option_swap (List.getLast?_map.symm.trans h.last)
  steps := ((List.isChain_map _).mp h.steps).imp fun p q step => step.symm
  flatSteps le := (List.isChain_map _).mp (h.steepSteps le)
  steepSteps le := (List.isChain_map _).mp (h.flatSteps le)
  flatNear le p hp := h.steepNear le p.swap (List.mem_map_of_mem hp)
  steepNear le p hp := h.flatNear le p.swap (List.mem_map_of_mem hp)

theorem bresenham_along (differ : x1 ≠ x2) (le : |y2 - y1| ≤ |x2 - x1|) :
    Along x1 y1 x2 y2 (bresenham x1 y1 x2 y2 0) := by
  have le' : distance y1 y2 ≤ distance x1 x2 := by
    rw [distance, distance, ← Int.abs_eq_natAbs, ← Int.abs_eq_natAbs]
    exact le
  rw [bresenham_flat differ le']
  exact pixelsAlong_along differ le'

theorem bresenham_exchange (differ : y1 ≠ y2) (le : |x2 - x1| ≤ |y2 - y1|) :
    (bresenham x1 y1 x2 y2 0).map Prod.swap = bresenham y1 x1 y2 x2 0 := by
  have le' : distance x1 x2 ≤ distance y1 y2 := by
    rw [distance, distance, ← Int.abs_eq_natAbs, ← Int.abs_eq_natAbs]
    exact le
  rw [bresenham_steep differ le', bresenham_flat differ le', List.map_map, Prod.swap_swap_eq,
    List.map_id]

theorem bresenham_traces_flat (differ : x1 ≠ x2) (differ' : y1 ≠ y2)
    (le : |y2 - y1| ≤ |x2 - x1|) : Traces x1 y1 x2 y2 (bresenham x1 y1 x2 y2 0) := by
  refine traces_of_flat le (bresenham_along differ le) fun same => ?_
  rw [bresenham_exchange differ' same]
  exact bresenham_along differ' same

theorem bresenham_traces (differ : x1 ≠ x2) (differ' : y1 ≠ y2) :
    Traces x1 y1 x2 y2 (bresenham x1 y1 x2 y2 0) := by
  rcases le_total |y2 - y1| |x2 - x1| with le | le
  · exact bresenham_traces_flat differ differ' le
  · refine Traces.exchange ?_
    rw [bresenham_exchange differ' le]
    exact bresenham_traces_flat differ' differ le

/-- The general case with a width of 1 sets the pixels of one line. -/
theorem drawLine_single {frame : VideoFrame} (valid : isFrameValid frame = true)
    (differ : x1 ≠ x2) (differ' : y1 ≠ y2) (color : YUVColor) :
    drawLine frame color x1 y1 x2 y2 1 =
      .sequence ((bresenham x1 y1 x2 y2 0).map fun p => setPixel frame p.1 p.2 color) := by
  rw [drawLine, if_pos valid]
  simp only [if_neg differ, if_neg differ']
  exact sequence_singleton _

/-- `DrawLine` sets the pixels of a line from the first end to the last. -/
theorem drawLine_traces {frame : VideoFrame} (valid : isFrameValid frame = true)
    (differ : x1 ≠ x2) (differ' : y1 ≠ y2) (color : YUVColor) :
    drawLine frame color x1 y1 x2 y2 1 =
        .sequence ((bresenham x1 y1 x2 y2 0).map fun p => setPixel frame p.1 p.2 color) ∧
      Traces x1 y1 x2 y2 (bresenham x1 y1 x2 y2 0) :=
  ⟨drawLine_single valid differ differ' color, bresenham_traces differ differ'⟩

theorem shortLine_traces :
    drawLine (plainFrame 4 4) ⟨9, 1, 2⟩ 3 0 0 1 1 =
        .sequence ((bresenham 3 0 0 1 0).map fun p =>
          setPixel (plainFrame 4 4) p.1 p.2 ⟨9, 1, 2⟩) ∧
      Traces 3 0 0 1 (bresenham 3 0 0 1 0) :=
  drawLine_traces (by decide) (by decide) (by decide) _

example : bresenham 3 0 0 1 0 = [(3, 0), (2, 0), (1, 1), (0, 1)] := by decide

end Lines

end BresenhamLines
