import AxVision.DrawnPixels

/-!
# Straight lines against single pixels

`DrawHorizLine` and `DrawVertLine` are fast paths for a loop of `SetPixel`. A
horizontal line leaves the planes of that loop, whatever was drawn before it. A
vertical line passes over the chroma bytes of its last row where that row is
even and not the only one.
-/

namespace StraightLines

open PlaneLayouts WriteLogs FrameDrawing DrawnPixels

variable {frame : VideoFrame} {fb : FrameBuf} {x y x1 x2 y1 y2 : Int} {c : YUVColor}
  {pattern : UvPattern} {w : Write}

/-- `SetPixel(x, y, c)` for every x from the first to the last. -/
def pixelRow (frame : VideoFrame) (x1 x2 y : Int) (c : YUVColor) : Draw :=
  .sequence ((countUp (min x1 x2) (max x1 x2)).map fun x => setPixel frame x y c)

/-- `SetPixel(x, y, c)` for every y from the first to the last. -/
def pixelColumn (frame : VideoFrame) (x y1 y2 : Int) (c : YUVColor) : Draw :=
  .sequence ((countUp (min y1 y2) (max y1 y2)).map fun y => setPixel frame x y c)

theorem mem_pixelRow (valid : isFrameValid frame = true) :
    w ∈ (pixelRow frame x1 x2 y c pattern).1 ↔
      ∃ x, (min x1 x2 ≤ x ∧ x ≤ max x1 x2) ∧ w ∈ putPixel (getFrameBuf frame) x y c := by
  simp only [pixelRow, setPixel, if_pos valid, sequence_log, Action.log, List.mem_flatMap,
    mem_countUp]

theorem mem_pixelColumn (valid : isFrameValid frame = true) :
    w ∈ (pixelColumn frame x y1 y2 c pattern).1 ↔
      ∃ y, (min y1 y2 ≤ y ∧ y ≤ max y1 y2) ∧ w ∈ putPixel (getFrameBuf frame) x y c := by
  simp only [pixelColumn, setPixel, if_pos valid, sequence_log, Action.log, List.mem_flatMap,
    mem_countUp]

section Horizontal

/-- What a line in row y writes to a place. -/
def rowValue (fb : FrameBuf) (y : Int) (c : YUVColor) : Place → UInt8
  | (.y, _) => c.y
  | (.uv, o) => chromaByte c (o - y / 2 * fb.stride)

theorem horizLine_uniform (fb : FrameBuf) (x1 x2 y : Int) (c : YUVColor) (pattern : UvPattern) :
    Uniform (rowValue fb y c) (drawHorizLine fb x1 x2 y c pattern).1 := by
  intro w hw
  obtain ⟨x, -, hx⟩ := mem_drawHorizLine.mp hw
  rw [mem_putPixel, mem_chromaPair] at hx
  rcases hx.2 with rfl | rfl | rfl
  · rfl
  · refine (chromaByte_even c ?_).symm
    simp only [pairOffset, roundDown]
    omega
  · refine (chromaByte_odd c ?_).symm
    simp only [pairOffset, roundDown]
    omega

theorem horizLine_agrees (valid : isFrameValid frame = true) (x1 x2 y : Int) (c : YUVColor)
    (pattern pattern' : UvPattern) (planes : Place → UInt8) :
    replay (drawHorizLine (getFrameBuf frame) x1 x2 y c pattern).1 planes =
      replay (pixelRow frame x1 x2 y c pattern').1 planes := by
  refine replay_congr (horizLine_uniform _ x1 x2 y c pattern) fun w => ?_
  rw [mem_drawHorizLine, mem_pixelRow valid]

/-- One horizontal line of a sequence. -/
structure Line where
  x1 : Int
  x2 : Int
  y : Int
  color : YUVColor

def horizLines (frame : VideoFrame) (lines : List Line) : Draw :=
  .sequence (lines.map fun l => drawHorizLine (getFrameBuf frame) l.x1 l.x2 l.y l.color)

def pixelRows (frame : VideoFrame) (lines : List Line) : Draw :=
  .sequence (lines.map fun l => pixelRow frame l.x1 l.x2 l.y l.color)

/-- The pattern that calls on any frames leave behind. -/
def patternAfter (earlier : List (VideoFrame × Call)) : UvPattern :=
  (Action.sequence (earlier.map fun call => call.2.draw call.1) .start).2

theorem lines_agree (valid : isFrameValid frame = true) (lines : List Line)
    (pattern pattern' : UvPattern) (planes : Place → UInt8) :
    replay (horizLines frame lines pattern).1 planes =
      replay (pixelRows frame lines pattern').1 planes := by
  induction lines generalizing pattern pattern' planes with
  | nil => rfl
  | cons l rest ih =>
    have fast : (horizLines frame (l :: rest) pattern).1 =
        (drawHorizLine (getFrameBuf frame) l.x1 l.x2 l.y l.color pattern).1 ++
          (horizLines frame rest
            (drawHorizLine (getFrameBuf frame) l.x1 l.x2 l.y l.color pattern).2).1 := rfl
    have slow : (pixelRows frame (l :: rest) pattern').1 =
        (pixelRow frame l.x1 l.x2 l.y l.color pattern').1 ++
          (pixelRows frame rest (pixelRow frame l.x1 l.x2 l.y l.color pattern').2).1 := rfl
    rw [fast, slow, replay_append, replay_append,
      horizLine_agrees valid l.x1 l.x2 l.y l.color pattern pattern', ih]

/-- After any calls on any frames, a sequence of horizontal lines leaves the
planes that setting their pixels leaves. -/
theorem horizLines_agree (valid : isFrameValid frame = true)
    (earlier : List (VideoFrame × Call)) (lines : List Line) (planes : Place → UInt8) :
    replay (horizLines frame lines (patternAfter earlier)).1 planes =
      replay (pixelRows frame lines (patternAfter earlier)).1 planes :=
  lines_agree valid lines _ _ planes

theorem twoLines_agree :
    replay (horizLines (plainFrame 4 2) [⟨0, 3, 0, ⟨9, 1, 2⟩⟩, ⟨5, 1, 1, ⟨9, 3, 4⟩⟩]
        (patternAfter [(plainFrame 2 2, .drawRect 0 0 1 1 ⟨9, 3, 4⟩ 1)])).1 (fun _ => 7) =
      replay (pixelRows (plainFrame 4 2) [⟨0, 3, 0, ⟨9, 1, 2⟩⟩, ⟨5, 1, 1, ⟨9, 3, 4⟩⟩]
        (patternAfter [(plainFrame 2 2, .drawRect 0 0 1 1 ⟨9, 3, 4⟩ 1)])).1 (fun _ => 7) :=
  horizLines_agree (by decide) _ _ _

end Horizontal

section Vertical

/-- What a vertical line in an even column or its neighbour writes to a place. -/
def columnValue (fb : FrameBuf) (c : YUVColor) : Place → UInt8
  | (.y, _) => c.y
  | (.uv, o) => chromaByte c (o % fb.stride)

/-- The two chroma bytes of a pixel lie in its row. -/
theorem pair_in_row (proper : Proper fb) (even : fb.width % 2 = 0) {p : Int × Int}
    (inside : InFrame fb p) :
    (pairOffset fb p / fb.stride = p.2 / 2 ∧ pairOffset fb p % fb.stride = roundDown p.1) ∧
      (pairOffset fb p + 1) / fb.stride = p.2 / 2 ∧
        (pairOffset fb p + 1) % fb.stride = roundDown p.1 + 1 := by
  have := inside.left
  have := inside.right
  have := proper.width_le
  have low : 0 ≤ roundDown p.1 := by unfold roundDown; omega
  have high : roundDown p.1 + 1 < fb.stride := by unfold roundDown; omega
  refine ⟨row_of_place _ low (by omega), ?_⟩
  rw [pairOffset, Int.add_assoc]
  exact row_of_place _ (by omega) high

theorem putPixel_uniform (proper : Proper fb) (even : fb.width % 2 = 0) (x y : Int)
    (c : YUVColor) : Uniform (columnValue fb c) (putPixel fb x y c) := by
  intro w hw
  rw [mem_putPixel, mem_chromaPair] at hw
  obtain ⟨inside, rfl | rfl | rfl⟩ := hw
  · rfl
  · refine (chromaByte_even c ?_).symm
    rw [(pair_in_row proper even inside).1.2, roundDown]
    omega
  · refine (chromaByte_odd c ?_).symm
    rw [(pair_in_row proper even inside).2.2, roundDown]
    omega

theorem pixelColumn_uniform (valid : isFrameValid frame = true) (fit : SizesFit frame)
    (even : (getFrameBuf frame).width % 2 = 0) :
    Uniform (columnValue (getFrameBuf frame) c) (pixelColumn frame x y1 y2 c pattern).1 := by
  intro w hw
  obtain ⟨y, -, hy⟩ := (mem_pixelColumn valid).mp hw
  exact putPixel_uniform (proper_of_valid valid fit) even x y c w hy

/-- A vertical line writes nothing that setting its pixels does not write. -/
theorem vertLine_sub (h : w ∈ (drawVertLine fb x y1 y2 c pattern).1) :
    ∃ y, (min y1 y2 ≤ y ∧ y ≤ max y1 y2) ∧ w ∈ putPixel fb x y c := by
  obtain ⟨y, between, inside, part⟩ := mem_drawVertLine.mp h
  exact ⟨y, between, mem_putPixel.mpr ⟨inside, part.imp_right fun h => h.2⟩⟩

/-- The first chroma byte of the last row of a clipped vertical line. -/
def lastPair (fb : FrameBuf) (x y1 y2 : Int) : Int :=
  pairOffset fb (x, min (fb.height - 1) (max y1 y2))

theorem lastRow_inside (right : 0 ≤ x ∧ x < fb.width) (ends : EndsEven fb y1 y2) :
    (min y1 y2 ≤ min (fb.height - 1) (max y1 y2) ∧ min (fb.height - 1) (max y1 y2) ≤ max y1 y2) ∧
      InFrame fb (x, min (fb.height - 1) (max y1 y2)) := by
  obtain ⟨more, -⟩ := ends
  exact ⟨by omega, right.1, right.2, by simp only; omega, by simp only; omega⟩

/-- The vertical line leaves the chroma bytes of an even last row alone. -/
theorem lastPair_unwritten (proper : Proper fb) (even : fb.width % 2 = 0)
    (right : 0 ≤ x ∧ x < fb.width) (ends : EndsEven fb y1 y2) {o : Int}
    (here : o = lastPair fb x y1 y2 ∨ o = lastPair fb x y1 y2 + 1) :
    (Plane.uv, o) ∉ written (drawVertLine fb x y1 y2 c pattern).1 := by
  rintro ⟨v, hv⟩
  obtain ⟨y, -, inside, ⟨⟨⟩⟩ | ⟨kept, pair⟩⟩ := mem_drawVertLine.mp hv
  have rows := pair_in_row proper even inside
  have last := pair_in_row proper even (lastRow_inside right ends).2
  refine kept ⟨ends, ?_⟩
  have row : o / fb.stride = min (fb.height - 1) (max y1 y2) / 2 := by
    rcases here with rfl | rfl
    · exact last.1.1
    · exact last.2.1
  have row' : o / fb.stride = y / 2 := by
    rcases mem_chromaPair.mp pair with same | same
    · cases same
      exact rows.1.1
    · cases same
      exact rows.2.1
  exact row'.symm.trans row

/-- The loop of `SetPixel` writes them. -/
theorem lastPair_written (c : YUVColor) (pattern : UvPattern) (valid : isFrameValid frame = true)
    (right : 0 ≤ x ∧ x < (getFrameBuf frame).width) (ends : EndsEven (getFrameBuf frame) y1 y2) :
    ((Plane.uv, lastPair (getFrameBuf frame) x y1 y2), c.u) ∈
        (pixelColumn frame x y1 y2 c pattern).1 ∧
      ((Plane.uv, lastPair (getFrameBuf frame) x y1 y2 + 1), c.v) ∈
        (pixelColumn frame x y1 y2 c pattern).1 := by
  obtain ⟨between, inside⟩ := lastRow_inside right ends
  simp only [mem_pixelColumn valid]
  exact ⟨⟨_, between, mem_putPixel.mpr ⟨inside, Or.inr (mem_chromaPair.mpr (Or.inl rfl))⟩⟩,
    ⟨_, between, mem_putPixel.mpr ⟨inside, Or.inr (mem_chromaPair.mpr (Or.inr rfl))⟩⟩⟩

/-- The loop writes nothing else that the vertical line does not write. -/
theorem written_column (valid : isFrameValid frame = true) {k : Place}
    (column : k ∈ written (pixelColumn frame x y1 y2 c pattern).1)
    (line : k ∉ written (drawVertLine (getFrameBuf frame) x y1 y2 c pattern).1) :
    (0 ≤ x ∧ x < (getFrameBuf frame).width) ∧ EndsEven (getFrameBuf frame) y1 y2 ∧
      (k = (.uv, lastPair (getFrameBuf frame) x y1 y2) ∨
        k = (.uv, lastPair (getFrameBuf frame) x y1 y2 + 1)) := by
  obtain ⟨v, hv⟩ := column
  obtain ⟨y, between, hy⟩ := (mem_pixelColumn valid).mp hv
  obtain ⟨inside, part⟩ := mem_putPixel.mp hy
  have drawn := fun part => line ⟨v, mem_drawVertLine.mpr ⟨y, between, inside, part⟩⟩
  rcases part with luma | pair
  · exact (drawn (Or.inl luma)).elim
  · by_cases last : EndsEven (getFrameBuf frame) y1 y2 ∧
        y / 2 = min ((getFrameBuf frame).height - 1) (max y1 y2) / 2
    · rw [chromaPair_congr last.2, mem_chromaPair] at pair
      refine ⟨⟨inside.left, inside.right⟩, last.1, ?_⟩
      rcases pair with same | same
      · exact Or.inl (congrArg Prod.fst same)
      · exact Or.inr (congrArg Prod.fst same)
    · exact (drawn (Or.inr ⟨last, pair⟩)).elim

/-- In a frame of even width a vertical line leaves the planes that setting its
pixels leaves, unless it ends on an even row that is not its only row and whose
chroma bytes had another colour. -/
theorem vertLine_agrees_iff (valid : isFrameValid frame = true) (fit : SizesFit frame)
    (even : frame.width.toNat % 2 = 0) (x y1 y2 : Int) (c : YUVColor) (pattern : UvPattern)
    (planes : Place → UInt8) :
    replay (drawVertLine (getFrameBuf frame) x y1 y2 c pattern).1 planes =
        replay (pixelColumn frame x y1 y2 c pattern).1 planes ↔
      (0 ≤ x ∧ x < (getFrameBuf frame).width → EndsEven (getFrameBuf frame) y1 y2 →
        planes (.uv, lastPair (getFrameBuf frame) x y1 y2) = c.u ∧
          planes (.uv, lastPair (getFrameBuf frame) x y1 y2 + 1) = c.v) := by
  have evenInt : (getFrameBuf frame).width % 2 = 0 := by
    rw [getFrameBuf_eq valid fit]
    simp only
    omega
  have proper := proper_of_valid valid fit
  have columnUniform : Uniform (columnValue (getFrameBuf frame) c)
      (pixelColumn frame x y1 y2 c pattern).1 := pixelColumn_uniform valid fit evenInt
  have lineUniform : Uniform (columnValue (getFrameBuf frame) c)
      (drawVertLine (getFrameBuf frame) x y1 y2 c pattern).1 := by
    intro w hw
    obtain ⟨y, -, hy⟩ := vertLine_sub hw
    exact putPixel_uniform proper evenInt x y c w hy
  rw [replay_eq_iff lineUniform columnUniform]
  constructor
  · intro same right ends
    obtain ⟨first, second⟩ := lastPair_written c pattern valid right ends
    constructor
    · rcases same (.uv, lastPair (getFrameBuf frame) x y1 y2) with iff | before
      · exact (lastPair_unwritten proper evenInt right ends (Or.inl rfl) (iff.mpr ⟨_, first⟩)).elim
      · exact before.trans (columnUniform _ first).symm
    · rcases same (.uv, lastPair (getFrameBuf frame) x y1 y2 + 1) with iff | before
      · exact (lastPair_unwritten proper evenInt right ends (Or.inr rfl) (iff.mpr ⟨_, second⟩)).elim
      · exact before.trans (columnUniform _ second).symm
  · intro before k
    by_cases line : k ∈ written (drawVertLine (getFrameBuf frame) x y1 y2 c pattern).1
    · obtain ⟨v, hv⟩ := line
      obtain ⟨y, between, hy⟩ := vertLine_sub hv
      exact Or.inl (iff_of_true ⟨v, hv⟩ ⟨v, (mem_pixelColumn valid).mpr ⟨y, between, hy⟩⟩)
    · by_cases column : k ∈ written (pixelColumn frame x y1 y2 c pattern).1
      · right
        obtain ⟨right, ends, here⟩ := written_column valid column line
        obtain ⟨first, second⟩ := lastPair_written c pattern valid right ends
        rcases here with rfl | rfl
        · exact (before right ends).1.trans (columnUniform _ first)
        · exact (before right ends).2.trans (columnUniform _ second)
      · exact Or.inl (iff_of_false line column)

/-- A line of rows 0 and 1 ends on an odd row. -/
theorem twoOfThree_agree :
    replay (drawVertLine (getFrameBuf (plainFrame 2 3)) 0 1 0 ⟨9, 1, 2⟩ .start).1 (fun _ => 7) =
      replay (pixelColumn (plainFrame 2 3) 0 1 0 ⟨9, 1, 2⟩ .start).1 (fun _ => 7) := by
  have odd : ¬EndsEven (getFrameBuf (plainFrame 2 3)) 1 0 := by decide
  exact (vertLine_agrees_iff (by decide) ⟨by decide, by decide⟩ (by decide) 0 1 0 _ _ _).mpr
    fun _ ends => absurd ends odd

/-- The chroma bytes of row 2 keep what they were. -/
theorem threeRows_differ :
    ¬∀ (frame : VideoFrame) (x y1 y2 : Int) (c : YUVColor) (planes : Place → UInt8),
      isFrameValid frame = true → SizesFit frame → frame.width.toNat % 2 = 0 →
        replay (drawVertLine (getFrameBuf frame) x y1 y2 c .start).1 planes =
          replay (pixelColumn frame x y1 y2 c .start).1 planes := by
  intro agrees
  have same := agrees (plainFrame 2 3) 0 0 2 ⟨9, 1, 2⟩ (fun _ => 7) (by decide)
    ⟨by decide, by decide⟩ (by decide)
  have differ : replay (drawVertLine (getFrameBuf (plainFrame 2 3)) 0 0 2 ⟨9, 1, 2⟩ .start).1
        (fun _ => 7) (.uv, 2) ≠
      replay (pixelColumn (plainFrame 2 3) 0 0 2 ⟨9, 1, 2⟩ .start).1 (fun _ => 7) (.uv, 2) := by
    decide
  exact differ (congrFun same (.uv, 2))

end Vertical

end StraightLines
