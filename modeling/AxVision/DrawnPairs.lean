import AxVision.BresenhamLines
import AxVision.FilledCircles

/-!
# The pixels a call colours

Two rows of two pixels share two chroma bytes. What a call writes of the chroma
plane is said by a set of pixels, told from the arguments of the call: those
whose chroma bytes it writes, in the frame or not.
-/

namespace DrawnPairs

open PlaneLayouts WriteLogs FrameDrawing DrawnPixels BresenhamLines

variable {frame : VideoFrame} {fb : FrameBuf} {c : YUVColor} {pixels others : Set (Int × Int)}
  {x y x1 x2 y1 y2 lineWidth : Int}

section Bytes

def chromaBytes : Set Place := {k | k.1 = .uv}

/-- The chroma bytes of the pixels that lie in the frame. -/
def pairPlaces (fb : FrameBuf) (pixels : Set (Int × Int)) : Set Place :=
  {k | ∃ p ∈ pixels, InFrame fb p ∧ (k = (.uv, pairOffset fb p) ∨ k = (.uv, pairOffset fb p + 1))}

/-- What a drawing function writes of the chroma plane. -/
def Colours (fb : FrameBuf) (draw : Draw) (pixels : Set (Int × Int)) : Prop :=
  Covers chromaBytes draw (pairPlaces fb pixels)

theorem Colours.congr (h : Colours fb draw pixels)
    (same : ∀ i j, InFrame fb (i, j) → ((i, j) ∈ pixels ↔ (i, j) ∈ others)) :
    Colours fb draw others := by
  have eq : pairPlaces fb pixels = pairPlaces fb others := by
    ext k
    refine exists_congr fun p => ?_
    constructor
    · exact fun ⟨hp, inside, here⟩ => ⟨(same p.1 p.2 inside).mp hp, inside, here⟩
    · exact fun ⟨hp, inside, here⟩ => ⟨(same p.1 p.2 inside).mpr hp, inside, here⟩
  exact Covers.congr h eq

theorem nothing_colours (away : ∀ i j, InFrame fb (i, j) → (i, j) ∉ pixels) :
    Colours fb .nothing pixels := by
  refine covers_nothing.congr ?_
  ext k
  constructor
  · exact False.elim
  · exact fun ⟨p, hp, inside, _⟩ => (away p.1 p.2 inside hp).elim

theorem Colours.andThen {first second : Draw} (h : Colours fb first pixels)
    (h' : Colours fb second others) : Colours fb (first.andThen second) (pixels ∪ others) := by
  refine (Covers.andThen h h').congr ?_
  ext k
  simp only [pairPlaces, Set.mem_union, Set.mem_ofPred_eq, or_and_right, exists_or]

/-- A loop colours what its turns colour. -/
theorem loop_colours {ι : Type} {turns : List ι} {turn : ι → Draw}
    {pixels : ι → Set (Int × Int)} (h : ∀ i ∈ turns, Colours fb (turn i) (pixels i)) :
    Colours fb (.sequence (turns.map turn)) {p | ∃ i ∈ turns, p ∈ pixels i} := by
  refine (covers_sequence h).congr ?_
  ext k
  simp only [pairPlaces, Set.mem_ofPred_eq]
  constructor
  · rintro ⟨i, hi, p, hp, rest⟩
    exact ⟨p, ⟨i, hi, hp⟩, rest⟩
  · rintro ⟨p, ⟨i, hi, hp⟩, rest⟩
    exact ⟨i, hi, p, hp, rest⟩

end Bytes

section Strokes

/-- The rows of a vertical line whose chroma bytes it writes: all of them, but
not those that share theirs with an even last row which is not the only one. -/
def columnRows (fb : FrameBuf) (y1 y2 : Int) : Set Int :=
  {y | (min y1 y2 ≤ y ∧ y ≤ max y1 y2) ∧
    ¬(EndsEven fb y1 y2 ∧ y / 2 = min (fb.height - 1) (max y1 y2) / 2)}

theorem putPixel_chroma {k : Place} (chroma : k ∈ chromaBytes) :
    (∃ v, (k, v) ∈ putPixel fb x y c) ↔
      InFrame fb (x, y) ∧ (k = (.uv, pairOffset fb (x, y)) ∨ k = (.uv, pairOffset fb (x, y) + 1)) := by
  obtain ⟨plane, o⟩ := k
  cases chroma
  simp [mem_putPixel, mem_chromaPair, exists_or]

theorem setPixel_colours (valid : isFrameValid frame = true) (p : Int × Int) :
    Colours (getFrameBuf frame) (setPixel frame p.1 p.2 c) {p} := by
  intro pattern k chroma
  rw [setPixel, if_pos valid]
  simp only [pairPlaces, Set.mem_singleton_iff, exists_eq_left, Set.mem_ofPred_eq]
  exact putPixel_chroma chroma

theorem horizLine_colours (fb : FrameBuf) (x1 x2 y : Int) (c : YUVColor) :
    Colours fb (drawHorizLine fb x1 x2 y c)
      {p | (min x1 x2 ≤ p.1 ∧ p.1 ≤ max x1 x2) ∧ p.2 = y} := by
  intro pattern k chroma
  simp only [mem_written, mem_drawHorizLine, pairPlaces, Set.mem_ofPred_eq]
  constructor
  · rintro ⟨v, x, between, hx⟩
    exact ⟨(x, y), ⟨between, rfl⟩, (putPixel_chroma chroma).mp ⟨v, hx⟩⟩
  · rintro ⟨⟨x, _⟩, ⟨between, rfl⟩, here⟩
    obtain ⟨v, hv⟩ := (putPixel_chroma (c := c) chroma).mpr here
    exact ⟨v, x, between, hv⟩

theorem vertLine_colours (fb : FrameBuf) (x y1 y2 : Int) (c : YUVColor) :
    Colours fb (drawVertLine fb x y1 y2 c) {p | p.1 = x ∧ p.2 ∈ columnRows fb y1 y2} := by
  intro pattern k chroma
  simp only [mem_written, mem_drawVertLine, pairPlaces, columnRows, Set.mem_ofPred_eq]
  obtain ⟨plane, o⟩ := k
  cases chroma
  constructor
  · rintro ⟨v, y, between, inside, part⟩
    rcases part with luma | ⟨kept, pair⟩
    · cases luma
    · refine ⟨(x, y), ⟨rfl, between, kept⟩, inside, ?_⟩
      exact (mem_chromaPair.mp pair).imp (congrArg Prod.fst) (congrArg Prod.fst)
  · rintro ⟨⟨_, y⟩, ⟨rfl, between, kept⟩, inside, here⟩
    rcases here with first | second
    · exact ⟨c.u, y, between, inside,
        Or.inr ⟨kept, mem_chromaPair.mpr (Or.inl (congrArg (·, c.u) first))⟩⟩
    · exact ⟨c.v, y, between, inside,
        Or.inr ⟨kept, mem_chromaPair.mpr (Or.inr (congrArg (·, c.v) second))⟩⟩

/-- A band of rows. -/
def rowBand (x1 x2 y lineWidth : Int) : Set (Int × Int) :=
  {p | (min x1 x2 ≤ p.1 ∧ p.1 ≤ max x1 x2) ∧ y ≤ p.2 ∧ p.2 ≤ y + lineWidth - 1}

/-- A band of columns, as its lines colour it. -/
def columnBand (fb : FrameBuf) (x y1 y2 lineWidth : Int) : Set (Int × Int) :=
  {p | (x ≤ p.1 ∧ p.1 ≤ x + lineWidth - 1) ∧ p.2 ∈ columnRows fb y1 y2}

theorem horizBand_colours :
    Colours fb (drawHorizBand fb x1 x2 y lineWidth c) (rowBand x1 x2 y lineWidth) := by
  refine (loop_colours fun i _ => horizLine_colours fb x1 x2 (y + i) c).congr fun i j _ => ?_
  simp only [rowBand, Set.mem_ofPred_eq, mem_countUp]
  constructor
  · rintro ⟨k, hk, between, rfl⟩
    exact ⟨between, by omega, by omega⟩
  · rintro ⟨between, hj⟩
    exact ⟨j - y, by omega, between, by omega⟩

theorem vertBand_colours :
    Colours fb (drawVertBand fb x y1 y2 lineWidth c) (columnBand fb x y1 y2 lineWidth) := by
  refine (loop_colours fun i _ => vertLine_colours fb (x + i) y1 y2 c).congr fun i j _ => ?_
  simp only [columnBand, Set.mem_ofPred_eq, mem_countUp]
  constructor
  · rintro ⟨k, hk, rfl, rows⟩
    exact ⟨by omega, rows⟩
  · rintro ⟨hi, rows⟩
    exact ⟨i - x, by omega, by omega, rows⟩

end Strokes

section Lines

/-- The parallel lines of a line that is neither horizontal nor vertical. -/
def slanted (x1 y1 x2 y2 lineWidth : Int) : Set (Int × Int) :=
  {p | ∃ off, (-(lineWidth / 2) ≤ off ∧ off ≤ lineWidth - 1 - lineWidth / 2) ∧
    if distance y1 y2 < distance x1 x2 then p ∈ pixelsAlong x1 (y1 + off) x2 (y2 + off)
    else p.swap ∈ pixelsAlong y1 (x1 + off) y2 (x2 + off)}

def linePixels (fb : FrameBuf) (x1 y1 x2 y2 lineWidth : Int) : Set (Int × Int) :=
  if y1 = y2 then
    {p | (0 ≤ y1 ∧ y1 < fb.height) ∧ p ∈ rowBand x1 x2 (y1 - lineWidth / 2) lineWidth}
  else if x1 = x2 then
    {p | (0 ≤ x1 ∧ x1 < fb.width) ∧ p ∈ columnBand fb (x1 - lineWidth / 2) y1 y2 lineWidth}
  else slanted x1 y1 x2 y2 lineWidth

theorem lineHoriz_colours :
    Colours (getFrameBuf frame) (drawLineHoriz frame c x1 x2 y1 lineWidth)
      {p | (0 ≤ y1 ∧ y1 < (getFrameBuf frame).height) ∧
        p ∈ rowBand x1 x2 (y1 - lineWidth / 2) lineWidth} := by
  unfold drawLineHoriz
  simp only [inOrder_eq]
  split
  · rename_i away
    refine nothing_colours fun i j _ hp => ?_
    have := hp.1
    omega
  · rename_i inRow
    have turn : ∀ i, Colours (getFrameBuf frame)
        (if 0 ≤ y1 + i - lineWidth / 2 ∧ y1 + i - lineWidth / 2 < (getFrameBuf frame).height then
          if max 0 (min x1 x2) ≤ min ((getFrameBuf frame).width - 1) (max x1 x2) then
            drawHorizLine (getFrameBuf frame) (max 0 (min x1 x2))
              (min ((getFrameBuf frame).width - 1) (max x1 x2)) (y1 + i - lineWidth / 2) c
          else .nothing
        else .nothing)
        {p | (min x1 x2 ≤ p.1 ∧ p.1 ≤ max x1 x2) ∧ p.2 = y1 + i - lineWidth / 2} := by
      intro i
      split
      · split
        · refine (horizLine_colours _ _ _ _ c).congr fun m n inside => ?_
          obtain ⟨left, right, -, -⟩ := inside
          simp only [Set.mem_ofPred_eq] at *
          omega
        · refine nothing_colours fun m n inside hp => ?_
          obtain ⟨left, right, -, -⟩ := inside
          simp only [Set.mem_ofPred_eq] at *
          omega
      · refine nothing_colours fun m n inside hp => ?_
        obtain ⟨-, -, top, bottom⟩ := inside
        simp only [Set.mem_ofPred_eq] at *
        omega
    refine (loop_colours fun i _ => turn i).congr fun i j _ => ?_
    simp only [rowBand, Set.mem_ofPred_eq, mem_countUp]
    constructor
    · rintro ⟨k, hk, between, rfl⟩
      exact ⟨by omega, between, by omega, by omega⟩
    · rintro ⟨-, between, hj⟩
      exact ⟨j - y1 + lineWidth / 2, by omega, between, by omega⟩

/-- Clipping the ends first does not change where the line ends. -/
theorem columnRows_clipped (fits : max 0 (min y1 y2) ≤ min (fb.height - 1) (max y1 y2))
    (inside : 0 ≤ y ∧ y < fb.height) :
    y ∈ columnRows fb (max 0 (min y1 y2)) (min (fb.height - 1) (max y1 y2)) ↔
      y ∈ columnRows fb y1 y2 := by
  simp only [columnRows, EndsEven, Set.mem_ofPred_eq]
  have low : min (max 0 (min y1 y2)) (min (fb.height - 1) (max y1 y2)) = max 0 (min y1 y2) :=
    min_eq_left fits
  have high : max (max 0 (min y1 y2)) (min (fb.height - 1) (max y1 y2)) =
      min (fb.height - 1) (max y1 y2) := max_eq_right fits
  have twice : max 0 (max 0 (min y1 y2)) = max 0 (min y1 y2) := by omega
  have twice' : min (fb.height - 1) (min (fb.height - 1) (max y1 y2)) =
      min (fb.height - 1) (max y1 y2) := by omega
  have below : y ≤ fb.height - 1 := Int.le_sub_one_of_lt inside.2
  rw [low, high, twice, twice']
  refine and_congr_left fun _ => ?_
  rw [max_le_iff, le_min_iff, and_iff_right inside.1, and_iff_right below]

theorem lineVert_colours :
    Colours (getFrameBuf frame) (drawLineVert frame c x1 y1 y2 lineWidth)
      {p | (0 ≤ x1 ∧ x1 < (getFrameBuf frame).width) ∧
        p ∈ columnBand (getFrameBuf frame) (x1 - lineWidth / 2) y1 y2 lineWidth} := by
  unfold drawLineVert
  simp only [inOrder_eq]
  split
  · rename_i away
    refine nothing_colours fun i j _ hp => ?_
    have := hp.1
    omega
  · rename_i inColumn
    have turn : ∀ i, Colours (getFrameBuf frame)
        (if 0 ≤ x1 + i - lineWidth / 2 ∧ x1 + i - lineWidth / 2 < (getFrameBuf frame).width then
          if max 0 (min y1 y2) ≤ min ((getFrameBuf frame).height - 1) (max y1 y2) then
            drawVertLine (getFrameBuf frame) (x1 + i - lineWidth / 2) (max 0 (min y1 y2))
              (min ((getFrameBuf frame).height - 1) (max y1 y2)) c
          else .nothing
        else .nothing)
        {p | p.1 = x1 + i - lineWidth / 2 ∧ p.2 ∈ columnRows (getFrameBuf frame) y1 y2} := by
      intro i
      split
      · split
        · rename_i fits
          refine (vertLine_colours _ _ _ _ c).congr fun m n inside => ?_
          exact and_congr_right fun _ => columnRows_clipped fits ⟨inside.top, inside.bottom⟩
        · refine nothing_colours fun m n inside hp => ?_
          obtain ⟨-, -, top, bottom⟩ := inside
          have between := hp.2.1
          simp only at *
          omega
      · refine nothing_colours fun m n inside hp => ?_
        obtain ⟨left, right, -, -⟩ := inside
        have here := hp.1
        simp only at *
        omega
    refine (loop_colours fun i _ => turn i).congr fun i j _ => ?_
    simp only [columnBand, Set.mem_ofPred_eq, mem_countUp]
    constructor
    · rintro ⟨k, hk, rfl, rows⟩
      exact ⟨by omega, by omega, rows⟩
    · rintro ⟨-, hi, rows⟩
      exact ⟨i - x1 + lineWidth / 2, by omega, by omega, rows⟩

/-- One of the parallel lines is the line of single pixels between the moved ends. -/
theorem mem_bresenham (differ : x1 ≠ x2) (differ' : y1 ≠ y2) (off : Int) (p : Int × Int) :
    p ∈ bresenham x1 y1 x2 y2 off ↔
      if distance y1 y2 < distance x1 x2 then p ∈ pixelsAlong x1 (y1 + off) x2 (y2 + off)
      else p.swap ∈ pixelsAlong y1 (x1 + off) y2 (x2 + off) := by
  have shift : ∀ a b : Int, distance (a + off) (b + off) = distance a b := by
    intro a b
    rw [distance, distance, add_sub_add_right_eq_sub]
  split
  · rename_i flat
    have loop := @flatLoop_eq x1 (y1 + off) x2 (y2 + off) differ (by rw [shift]; exact flat.le)
    rw [shift] at loop
    rw [← loop, bresenham]
    exact Iff.of_eq (congrArg (p ∈ ·) (if_pos flat))
  · rename_i steep
    have loop := @flatLoop_eq y1 (x1 + off) y2 (x2 + off) differ'
      (by rw [shift]; exact not_lt.mp steep)
    rw [shift] at loop
    have swapped : bresenham x1 y1 x2 y2 off =
        (pixelsAlong y1 (x1 + off) y2 (x2 + off)).map Prod.swap := by
      rw [← loop, ← steepPoints_eq]
      exact if_neg steep
    rw [swapped, List.mem_map]
    constructor
    · rintro ⟨q, hq, rfl⟩
      rwa [Prod.swap_swap]
    · exact fun hp => ⟨p.swap, hp, Prod.swap_swap p⟩

theorem drawLine_colours (valid : isFrameValid frame = true) (x1 y1 x2 y2 lineWidth : Int) :
    Colours (getFrameBuf frame) (drawLine frame c x1 y1 x2 y2 lineWidth)
      (linePixels (getFrameBuf frame) x1 y1 x2 y2 (atLeastOne lineWidth)) := by
  simp only [drawLine, if_pos valid, linePixels]
  split
  · exact lineHoriz_colours
  · rename_i differ'
    split
    · exact lineVert_colours
    · rename_i differ
      refine (loop_colours fun i _ => loop_colours fun p _ => setPixel_colours valid p).congr
        fun i j _ => ?_
      simp only [Set.mem_ofPred_eq, Set.mem_singleton_iff, exists_eq_right', mem_countUp,
        mem_bresenham differ differ', slanted]
      constructor
      · rintro ⟨k, hk, here⟩
        exact ⟨k - atLeastOne lineWidth / 2, by omega, here⟩
      · rintro ⟨off, hoff, here⟩
        refine ⟨off + atLeastOne lineWidth / 2, by omega, ?_⟩
        rwa [add_sub_cancel_right]

end Lines

section Calls

/-- The pixels of the disc of a radius around a point. -/
def discPixels (cx cy radius : Int) : Set (Int × Int) :=
  {p | max |p.1 - cx| |p.2 - cy| ^ 2 - max |p.1 - cx| |p.2 - cy| + min |p.1 - cx| |p.2 - cy| ^ 2 ≤
    radius ^ 2}

/-- The pixels whose chroma bytes a call writes if they lie in the frame. -/
def coloured (fb : FrameBuf) : Call → Set (Int × Int)
  | .setPixel x y _ => {(x, y)}
  | .drawLine x1 y1 x2 y2 _ lineWidth => linePixels fb x1 y1 x2 y2 (atLeastOne lineWidth)
  | .drawClosedLines points _ lineWidth =>
    {p | 2 ≤ points.length ∧ ∃ side ∈ points.zip (points.rotate 1),
      p ∈ linePixels fb side.1.1 side.1.2 side.2.1 side.2.2 (atLeastOne lineWidth)}
  | .drawRect x1 y1 x2 y2 _ lineWidth =>
    rowBand x1 x2 (min y1 y2) (atLeastOne lineWidth) ∪
      (rowBand x1 x2 (max y1 y2 - atLeastOne lineWidth + 1) (atLeastOne lineWidth) ∪
        (columnBand fb (min x1 x2) (min y1 y2 + atLeastOne lineWidth)
            (max y1 y2 - atLeastOne lineWidth) (atLeastOne lineWidth) ∪
          columnBand fb (max x1 x2 - atLeastOne lineWidth + 1) (min y1 y2 + atLeastOne lineWidth)
            (max y1 y2 - atLeastOne lineWidth) (atLeastOne lineWidth)))
  | .drawCircle cx cy radius _ =>
    {p | (InFrame fb (cx, cy) ∧ 0 < radius) ∧ p ∈ discPixels cx cy radius}

theorem drawRect_colours (valid : isFrameValid frame = true) (x1 y1 x2 y2 lineWidth : Int) :
    Colours (getFrameBuf frame) (drawRect frame x1 y1 x2 y2 c lineWidth)
      (coloured (getFrameBuf frame) (.drawRect x1 y1 x2 y2 c lineWidth)) := by
  simp only [drawRect, if_pos valid, inOrder_eq]
  refine (horizBand_colours.andThen (horizBand_colours.andThen (vertBand_colours.andThen
    (vertBand_colours.andThen (nothing_colours fun i j _ => Set.notMem_empty _))))).congr
    fun i j _ => ?_
  have low : min (min x1 x2) (max x1 x2) = min x1 x2 := by omega
  have high : max (min x1 x2) (max x1 x2) = max x1 x2 := by omega
  simp only [coloured, rowBand, low, high, Set.union_empty]

theorem spans_disc {cx cy radius : Int} (pos : 0 < radius) (p : Int × Int) :
    p ∈ FilledCircles.spans cx cy radius ↔ p ∈ discPixels cx cy radius := by
  rw [FilledCircles.spans_iff]
  exact MidpointCircles.quarter_iff pos (abs_nonneg _) (abs_nonneg _)

theorem drawCircle_colours (valid : isFrameValid frame = true) (cx cy radius : Int) :
    Colours (getFrameBuf frame) (drawCircle frame cx cy radius c)
      (coloured (getFrameBuf frame) (.drawCircle cx cy radius c)) := by
  simp only [drawCircle, if_pos valid]
  split
  · rename_i undrawn
    refine nothing_colours fun i j _ hp => ?_
    obtain ⟨⟨⟨left, right, top, bottom⟩, pos⟩, -⟩ := hp
    simp only at *
    omega
  · rename_i drawn
    have pos : 0 < radius := by omega
    have centre : InFrame (getFrameBuf frame) (cx, cy) :=
      ⟨by simp only; omega, by simp only; omega, by simp only; omega, by simp only; omega⟩
    refine (loop_colours fun line _ => horizLine_colours _ line.1 line.2.1 line.2.2 c).congr
      fun i j _ => ?_
    exact (spans_disc pos (i, j)).trans (and_iff_right ⟨centre, pos⟩).symm

/-- Of the chroma plane a call writes the bytes of the pixels it colours. -/
theorem call_colours (valid : isFrameValid frame = true) (call : Call) :
    Colours (getFrameBuf frame) (call.draw frame) (coloured (getFrameBuf frame) call) := by
  cases call with
  | setPixel x y c => exact setPixel_colours valid (x, y)
  | drawLine x1 y1 x2 y2 c lineWidth => exact drawLine_colours valid x1 y1 x2 y2 lineWidth
  | drawClosedLines points c lineWidth =>
    simp only [Call.draw, FrameDrawing.drawClosedLines]
    split
    · rename_i few
      refine nothing_colours fun i j _ hp => ?_
      have := hp.1
      omega
    · rename_i enough
      refine (loop_colours fun side _ => drawLine_colours valid side.1.1 side.1.2 side.2.1 side.2.2
        lineWidth).congr fun i j _ => ?_
      exact (and_iff_right (not_lt.mp enough)).symm
  | drawRect x1 y1 x2 y2 c lineWidth => exact drawRect_colours valid x1 y1 x2 y2 lineWidth
  | drawCircle cx cy radius c => exact drawCircle_colours valid cx cy radius

end Calls

end DrawnPairs
