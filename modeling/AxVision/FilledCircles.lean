import AxVision.DrawnPixels
import AxVision.MidpointCircles

/-!
# Filled circles

The loop of `DrawCircle` is the midpoint walk. The lines it draws in its turns
are, before they are clipped to the frame, a disc around the centre.
-/

namespace FilledCircles

open PlaneLayouts WriteLogs FrameDrawing DrawnPixels MidpointCircles

variable {frame : VideoFrame} {fb : FrameBuf} {cx cy radius : Int} {c : YUVColor}
  {p : Int × Int} {k n : Nat}

/-- The four lines of a turn. -/
def turnLines (cx cy : Int) (s : Turn) : List (Int × Int × Int) :=
  [(cx - s.x, cx + s.x, cy - s.y), (cx - s.x, cx + s.x, cy + s.y),
    (cx - s.y, cx + s.y, cy - s.x), (cx - s.y, cx + s.y, cy + s.x)]

/-- The loop of `DrawCircle` from a state of the walk. -/
def linesFrom (cx cy : Int) (s : Turn) : List (Int × Int × Int) := circleLines cx cy s.x s.y s.err

theorem linesFrom_next (cx cy : Int) (s : Turn) :
    linesFrom cx cy s = if s.x < s.y then [] else turnLines cx cy s ++ linesFrom cx cy s.next := by
  rw [linesFrom, circleLines]
  split
  · rfl
  · simp only [turnLines, linesFrom, Turn.next, List.cons_append, List.nil_append]
    split
    · rfl
    · rfl

/-- The loop runs for the turns of the walk and stops at its end. -/
theorem linesFrom_turn (le : k ≤ turns radius) :
    linesFrom cx cy (turn radius k) =
      (List.range' k (turns radius - k)).flatMap fun j => turnLines cx cy (turn radius j) := by
  induction le using Nat.decreasingInduction with
  | self =>
    have stop : (turn radius (turns radius)).x < (turn radius (turns radius)).y := by
      rw [turn_y]
      exact crossed radius
    rw [linesFrom_next, if_pos stop, Nat.sub_self]
    rfl
  | of_succ k lt ih =>
    have go : ¬(turn radius k).x < (turn radius k).y := by
      rw [turn_y]
      exact Int.not_lt.mpr (not_crossed lt)
    have split : turns radius - k = (turns radius - (k + 1)) + 1 := by omega
    rw [linesFrom_next, if_neg go, split, List.range'_succ, List.flatMap_cons, ← ih]
    rfl

theorem circleLines_eq (cx cy radius : Int) :
    circleLines cx cy radius 0 (1 - radius) =
      (List.range (turns radius)).flatMap fun k => turnLines cx cy (turn radius k) := by
  have whole : linesFrom cx cy (turn radius 0) = _ := linesFrom_turn (Nat.zero_le (turns radius))
  rw [Nat.sub_zero, ← List.range_eq_range'] at whole
  exact whole

/-- The pixels of the lines of the loop, in the frame or not. -/
def spans (cx cy radius : Int) : Set (Int × Int) :=
  {p | ∃ line ∈ circleLines cx cy radius 0 (1 - radius),
    (min line.1 line.2.1 ≤ p.1 ∧ p.1 ≤ max line.1 line.2.1) ∧ p.2 = line.2.2}

theorem spans_iff : p ∈ spans cx cy radius ↔ (p.1 - cx, p.2 - cy) ∈ Disc radius := by
  simp only [spans, Set.mem_ofPred_eq, circleLines_eq, List.mem_flatMap, List.mem_range, turnLines,
    List.mem_cons, List.not_mem_nil, or_false, turn_y]
  constructor
  · rintro ⟨line, ⟨k, hk, hline⟩, between, row⟩
    have low := not_crossed hk
    simp only [column] at low
    rcases hline with rfl | rfl | rfl | rfl
    · refine ⟨k, hk, Or.inl ⟨?_, ?_⟩⟩ <;> simp only [column, Int.abs_eq_natAbs] at * <;> omega
    · refine ⟨k, hk, Or.inl ⟨?_, ?_⟩⟩ <;> simp only [column, Int.abs_eq_natAbs] at * <;> omega
    · refine ⟨k, hk, Or.inr ⟨?_, ?_⟩⟩ <;> simp only [column, Int.abs_eq_natAbs] at * <;> omega
    · refine ⟨k, hk, Or.inr ⟨?_, ?_⟩⟩ <;> simp only [column, Int.abs_eq_natAbs] at * <;> omega
  · rintro ⟨k, hk, ⟨row, le⟩ | ⟨row, le⟩⟩
    · simp only [column, Int.abs_eq_natAbs] at row le
      by_cases above : p.2 ≤ cy
      · exact ⟨_, ⟨k, hk, Or.inl rfl⟩, by simp only; omega, by simp only; omega⟩
      · exact ⟨_, ⟨k, hk, Or.inr (Or.inl rfl)⟩, by simp only; omega, by simp only; omega⟩
    · simp only [column, Int.abs_eq_natAbs] at row le
      by_cases above : p.2 ≤ cy
      · exact ⟨_, ⟨k, hk, Or.inr (Or.inr (Or.inl rfl))⟩, by simp only; omega, by simp only; omega⟩
      · exact ⟨_, ⟨k, hk, Or.inr (Or.inr (Or.inr rfl))⟩, by simp only; omega, by simp only; omega⟩

theorem drawCircle_luma (valid : isFrameValid frame = true)
    (centre : InFrame (getFrameBuf frame) (cx, cy)) (pos : 0 < radius) :
    Covers lumaBytes (drawCircle frame cx cy radius c)
      (lumaPlaces (getFrameBuf frame) (spans cx cy radius)) := by
  have drawn : ¬(cx < 0 ∨ (getFrameBuf frame).width ≤ cx ∨ cy < 0 ∨
      (getFrameBuf frame).height ≤ cy ∨ radius ≤ 0) := by
    obtain ⟨left, right, top, bottom⟩ := centre
    simp only at left right top bottom
    omega
  simp only [drawCircle, if_pos valid, if_neg drawn]
  exact loop_luma fun line => horizLine_luma _ line.1 line.2.1 line.2.2 c

/-- What the circle drawn around a point of the frame is. -/
structure FillsDisc (fb : FrameBuf) (cx cy radius : Int) (log : List Write) : Prop where
  /-- The loop makes some turns and stops where the column is below the row. -/
  ends : ∃ n, (∀ k < n, (turn radius k).y ≤ (turn radius k).x) ∧
    (turn radius n).x < (turn radius n).y ∧
    circleLines cx cy radius 0 (1 - radius) =
      (List.range n).flatMap fun k => turnLines cx cy (turn radius k)
  clipped : lumaPixels fb log = {p | p ∈ spans cx cy radius ∧ InFrame fb p}
  contains : ∀ p, InFrame fb p → distance (p.1 - cx, p.2 - cy) ≤ radius - 1 → p ∈ lumaPixels fb log
  within : ∀ p ∈ lumaPixels fb log, ¬radius + 1 / 2 < distance (p.1 - cx, p.2 - cy)
  reflects : ∀ dx dy, (cx + dx, cy + dy) ∈ spans cx cy radius ↔
    (cx - dx, cy + dy) ∈ spans cx cy radius
  reflects' : ∀ dx dy, (cx + dx, cy + dy) ∈ spans cx cy radius ↔
    (cx + dx, cy - dy) ∈ spans cx cy radius
  exchanges : ∀ dx dy, (cx + dx, cy + dy) ∈ spans cx cy radius ↔
    (cx + dy, cy + dx) ∈ spans cx cy radius

theorem spans_add (dx dy : Int) :
    (cx + dx, cy + dy) ∈ spans cx cy radius ↔ (dx, dy) ∈ Disc radius := by
  rw [spans_iff, add_sub_cancel_left, add_sub_cancel_left]

theorem drawCircle_fills (valid : isFrameValid frame = true) (fit : SizesFit frame)
    (centre : InFrame (getFrameBuf frame) (cx, cy)) (pos : 0 < radius) (c : YUVColor)
    (pattern : UvPattern) :
    FillsDisc (getFrameBuf frame) cx cy radius (drawCircle frame cx cy radius c pattern).1 := by
  have clipped := lumaPixels_eq (proper_of_valid valid fit)
    (drawCircle_luma (c := c) valid centre pos) pattern
  refine ⟨⟨turns radius, ?_, ?_, circleLines_eq cx cy radius⟩, clipped, ?_, ?_, ?_, ?_, ?_⟩
  · intro k hk
    rw [turn_y]
    exact not_crossed hk
  · rw [turn_y]
    exact crossed radius
  · intro p inside near
    rw [clipped]
    refine ⟨spans_iff.mpr (disc_contains pos (near.trans ?_)), inside⟩
    linarith
  · intro p painted
    rw [clipped] at painted
    exact not_lt.mpr (disc_within pos (spans_iff.mp painted.1)).le
  · intro dx dy
    rw [sub_eq_add_neg cx, spans_add, spans_add]
    exact (disc_reflect dx dy).1.symm
  · intro dx dy
    rw [sub_eq_add_neg cy, spans_add, spans_add]
    exact (disc_reflect dx dy).2.symm
  · intro dx dy
    rw [spans_add, spans_add]
    exact (disc_exchange dx dy).symm

theorem smallCircle_fills :
    FillsDisc (getFrameBuf (plainFrame 8 8)) 3 3 2
      (drawCircle (plainFrame 8 8) 3 3 2 ⟨9, 1, 2⟩ .start).1 :=
  drawCircle_fills (by decide) ⟨by decide, by decide⟩
    ⟨by decide, by decide, by decide, by decide⟩ (by decide) _ _

end FilledCircles
