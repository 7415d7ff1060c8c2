import AxVision.DrawnPixels

/-!
# The border of a rectangle

`DrawRect` lays out four bands. Inside the rectangle they are exactly its
border. Where the rectangle is thinner than the offsets assume, a band reaches
beyond it, and what it paints there shows where the frame does.
-/

namespace RectangleBorders

open PlaneLayouts WriteLogs FrameDrawing DrawnPixels

variable {frame : VideoFrame} {fb : FrameBuf} {l r t b lineWidth : Int} {c : YUVColor}
  {p : Int × Int}

/-- A rectangle of pixels; it is empty if its sides are out of order. -/
structure Box where
  left : Int
  right : Int
  top : Int
  bottom : Int
  deriving DecidableEq

structure Box.Contains (box : Box) (p : Int × Int) : Prop where
  left : box.left ≤ p.1
  right : p.1 ≤ box.right
  top : box.top ≤ p.2
  bottom : p.2 ≤ box.bottom

/-- Some pixel of the box lies in the frame. -/
def Box.Meets (box : Box) (fb : FrameBuf) : Prop :=
  max 0 box.left ≤ min (fb.width - 1) box.right ∧ max 0 box.top ≤ min (fb.height - 1) box.bottom

instance meetsDecidable (box : Box) (fb : FrameBuf) : Decidable (box.Meets fb) :=
  inferInstanceAs (Decidable (_ ∧ _))

theorem meets_iff {box : Box} : box.Meets fb ↔ ∃ p, InFrame fb p ∧ box.Contains p := by
  constructor
  · rintro ⟨columns, rows⟩
    refine ⟨(max 0 box.left, max 0 box.top), ⟨?_, ?_, ?_, ?_⟩, ⟨?_, ?_, ?_, ?_⟩⟩ <;> simp only <;>
      omega
  · rintro ⟨p, inside, here⟩
    have := inside.left
    have := inside.right
    have := inside.top
    have := inside.bottom
    have := here.left
    have := here.right
    have := here.top
    have := here.bottom
    exact ⟨by omega, by omega⟩

theorem contains_iff {box : Box} :
    box.Contains p ↔ (box.left ≤ p.1 ∧ p.1 ≤ box.right) ∧ box.top ≤ p.2 ∧ p.2 ≤ box.bottom :=
  ⟨fun h => ⟨⟨h.left, h.right⟩, h.top, h.bottom⟩, fun h => ⟨h.1.1, h.1.2, h.2.1, h.2.2⟩⟩

/-- The parts of a box to the left and to the right of another, above and below it. -/
def Box.outside (box rect : Box) : List Box :=
  [{ box with right := min box.right (rect.left - 1) },
    { box with left := max box.left (rect.right + 1) },
    { box with bottom := min box.bottom (rect.top - 1) },
    { box with top := max box.top (rect.bottom + 1) }]

theorem outside_iff {box rect : Box} :
    (∃ part ∈ box.outside rect, part.Contains p) ↔ box.Contains p ∧ ¬rect.Contains p := by
  simp only [Box.outside, List.mem_cons, List.not_mem_nil, or_false, exists_eq_or_imp,
    exists_eq_left, contains_iff]
  omega

section Bands

/-- The four bands; the rows of the last two run from the lower to the higher end. -/
def bands (l r t b lineWidth : Int) : List Box :=
  let first := min (t + lineWidth) (b - lineWidth)
  let last := max (t + lineWidth) (b - lineWidth)
  [⟨l, r, t, t + lineWidth - 1⟩, ⟨l, r, b - lineWidth + 1, b⟩,
    ⟨l, l + lineWidth - 1, first, last⟩, ⟨r - lineWidth + 1, r, first, last⟩]

/-- The pixels of the closed rectangle less than a line width from an edge. -/
def border (l r t b lineWidth : Int) : Set (Int × Int) :=
  {p | (⟨l, r, t, b⟩ : Box).Contains p ∧
    (p.1 - l < lineWidth ∨ r - p.1 < lineWidth ∨ p.2 - t < lineWidth ∨ b - p.2 < lineWidth)}

/-- Where the bands reach beyond the rectangle. -/
def overhangs (l r t b lineWidth : Int) : List Box :=
  (bands l r t b lineWidth).flatMap fun band => band.outside ⟨l, r, t, b⟩

theorem overhangs_iff :
    (∃ part ∈ overhangs l r t b lineWidth, part.Contains p) ↔
      (∃ band ∈ bands l r t b lineWidth, band.Contains p) ∧ ¬(⟨l, r, t, b⟩ : Box).Contains p := by
  simp only [overhangs, List.mem_flatMap]
  constructor
  · rintro ⟨part, ⟨band, hband, hpart⟩, here⟩
    obtain ⟨inBand, beyond⟩ := outside_iff.mp ⟨part, hpart, here⟩
    exact ⟨⟨band, hband, inBand⟩, beyond⟩
  · rintro ⟨⟨band, hband, inBand⟩, beyond⟩
    obtain ⟨part, hpart, here⟩ := outside_iff.mpr ⟨inBand, beyond⟩
    exact ⟨part, ⟨band, hband, hpart⟩, here⟩

/-- Inside the rectangle the bands are its border. -/
theorem bands_inside :
    (∃ band ∈ bands l r t b lineWidth, band.Contains p) ∧ (⟨l, r, t, b⟩ : Box).Contains p ↔
      p ∈ border l r t b lineWidth := by
  simp only [bands, border, Set.mem_ofPred_eq, List.mem_cons, List.not_mem_nil, or_false,
    exists_eq_or_imp, exists_eq_left, contains_iff]
  omega

end Bands

section Drawing

/-- The luma bytes of the pixels of a box. -/
def boxPixels (box : Box) : Set (Int × Int) := {p | box.Contains p}

theorem horizBand_luma {x1 x2 y : Int} :
    Covers lumaBytes (drawHorizBand fb x1 x2 y lineWidth c)
      (lumaPlaces fb (boxPixels ⟨min x1 x2, max x1 x2, y, y + lineWidth - 1⟩)) := by
  refine luma_congr (loop_luma fun i => horizLine_luma fb x1 x2 (y + i) c) fun i j => ?_
  simp only [boxPixels, Set.mem_ofPred_eq, mem_countUp, contains_iff]
  constructor
  · rintro ⟨k, hk, between, rfl⟩
    omega
  · rintro ⟨between, hj⟩
    exact ⟨j - y, by omega, between, by omega⟩

theorem vertBand_luma {x y1 y2 : Int} :
    Covers lumaBytes (drawVertBand fb x y1 y2 lineWidth c)
      (lumaPlaces fb (boxPixels ⟨x, x + lineWidth - 1, min y1 y2, max y1 y2⟩)) := by
  refine luma_congr (loop_luma fun i => vertLine_luma fb (x + i) y1 y2 c) fun i j => ?_
  simp only [boxPixels, Set.mem_ofPred_eq, mem_countUp, contains_iff]
  constructor
  · rintro ⟨k, hk, rfl, between⟩
    omega
  · rintro ⟨hi, between⟩
    exact ⟨i - x, by omega, by omega, between⟩

/-- The pixels of the four bands. -/
def banded (l r t b lineWidth : Int) : Set (Int × Int) :=
  {p | ∃ band ∈ bands l r t b lineWidth, band.Contains p}

theorem drawRect_luma (valid : isFrameValid frame = true) (x1 y1 x2 y2 lineWidth : Int) :
    Covers lumaBytes (drawRect frame x1 y1 x2 y2 c lineWidth)
      (lumaPlaces (getFrameBuf frame)
        (banded (min x1 x2) (max x1 x2) (min y1 y2) (max y1 y2) (atLeastOne lineWidth))) := by
  have ordered : ∀ a b : Int, min (min a b) (max a b) = min a b ∧
      max (min a b) (max a b) = max a b := by
    intro a b
    omega
  have back : ∀ v w : Int, v - w + 1 + w - 1 = v := by
    intro v w
    omega
  simp only [drawRect, if_pos valid, inOrder_eq]
  refine (horizBand_luma.andThen (horizBand_luma.andThen (vertBand_luma.andThen
    (vertBand_luma.andThen covers_nothing)))).congr ?_
  ext k
  simp only [lumaPlaces, boxPixels, banded, bands, ordered, back, Set.mem_union, Set.mem_ofPred_eq,
    List.mem_cons, List.not_mem_nil, or_false, exists_eq_left, Set.mem_empty_iff_false,
    or_and_right, exists_or]

/-- The bands of the ordered rectangle have ends of type `int`. -/
structure EndsFit (l r t b lineWidth : Int) : Prop where
  left : l + lineWidth ≤ 2147483648
  right : -2147483648 ≤ r - lineWidth
  top : t + lineWidth ≤ 2147483647
  bottom : -2147483648 ≤ b - lineWidth

theorem results_iff (width : 1 ≤ lineWidth) (left : -2147483648 ≤ l) (right : r ≤ 2147483647)
    (top : -2147483648 ≤ t) (bottom : b ≤ 2147483647) :
    (rectResults l t r b lineWidth).all isInt = true ↔ EndsFit l r t b lineWidth := by
  simp only [List.all_eq_true, rectResults, List.mem_append, List.mem_flatMap, mem_countUp, isInt,
    Bool.and_eq_true, decide_eq_true_eq]
  constructor
  · intro all
    have last : 0 ≤ lineWidth - 1 ∧ lineWidth - 1 ≤ lineWidth - 1 := by omega
    have column := all (l + (lineWidth - 1)) (.inr ⟨_, last, by simp⟩)
    have high := all (t + lineWidth) (.inl (by simp))
    have low := all (b - lineWidth) (.inl (by simp))
    have far := all (r - lineWidth) (.inl (by simp))
    exact ⟨by omega, far.1, high.2, low.1⟩
  · rintro ⟨column, far, high, low⟩ v (here | ⟨i, within, here⟩)
    · simp only [List.mem_cons, List.not_mem_nil, or_false] at here
      rcases here with rfl | rfl | rfl | rfl | rfl <;> omega
    · simp only [List.mem_cons, List.not_mem_nil, or_false] at here
      rcases here with rfl | rfl | rfl | rfl <;> omega

/-- No result of `DrawRect` overflows, and the luma pixels that it writes are the border of the
rectangle within the frame. -/
def PaintsBorder (frame : VideoFrame) (x1 y1 x2 y2 lineWidth : Int32) (c : YUVColor)
    (pattern : UvPattern) : Prop :=
  ∃ draw, drawRectInt frame x1 y1 x2 y2 c lineWidth = some draw ∧
    lumaPixels (getFrameBuf frame) (draw pattern).1 =
      {p | p ∈ border (min x1.toInt x2.toInt) (max x1.toInt x2.toInt) (min y1.toInt y2.toInt)
          (max y1.toInt y2.toInt) lineWidth.toInt ∧ InFrame (getFrameBuf frame) p}

theorem bands_border_iff (valid : isFrameValid frame = true) (fit : SizesFit frame)
    (x1 y1 x2 y2 : Int) (c : YUVColor) (wide : 1 ≤ lineWidth) (pattern : UvPattern) :
    lumaPixels (getFrameBuf frame) (drawRect frame x1 y1 x2 y2 c lineWidth pattern).1 =
        {p | p ∈ border (min x1 x2) (max x1 x2) (min y1 y2) (max y1 y2) lineWidth ∧
          InFrame (getFrameBuf frame) p} ↔
      ∀ part ∈ overhangs (min x1 x2) (max x1 x2) (min y1 y2) (max y1 y2) lineWidth,
        ¬part.Meets (getFrameBuf frame) := by
  have width : atLeastOne lineWidth = lineWidth := if_neg (by omega)
  have luma := drawRect_luma (c := c) valid x1 y1 x2 y2 lineWidth
  rw [width] at luma
  rw [lumaPixels_eq (proper_of_valid valid fit) luma pattern]
  constructor
  · intro same part hpart meets
    obtain ⟨p, inside, here⟩ := meets_iff.mp meets
    obtain ⟨inBands, beyond⟩ := overhangs_iff.mp ⟨part, hpart, here⟩
    have painted : p ∈ {p | p ∈ border (min x1 x2) (max x1 x2) (min y1 y2) (max y1 y2) lineWidth ∧
        InFrame (getFrameBuf frame) p} := same ▸ ⟨inBands, inside⟩
    exact beyond painted.1.1
  · intro apart
    ext p
    constructor
    · rintro ⟨inBands, inside⟩
      refine ⟨bands_inside.mp ⟨inBands, ?_⟩, inside⟩
      by_contra beyond
      obtain ⟨part, hpart, here⟩ := overhangs_iff.mpr ⟨inBands, beyond⟩
      exact apart part hpart (meets_iff.mpr ⟨p, inside, here⟩)
    · rintro ⟨painted, inside⟩
      exact ⟨(bands_inside.mpr painted).1, inside⟩

/-- `DrawRect` paints the border of the rectangle exactly if the ends of its bands are values of
`int` and no band reaches beyond the rectangle inside the frame. -/
theorem drawRect_border_iff (valid : isFrameValid frame = true) (fit : SizesFit frame)
    (x1 y1 x2 y2 : Int32) (c : YUVColor) {lineWidth : Int32} (wide : 1 ≤ lineWidth.toInt)
    (pattern : UvPattern) :
    PaintsBorder frame x1 y1 x2 y2 lineWidth c pattern ↔
      EndsFit (min x1.toInt x2.toInt) (max x1.toInt x2.toInt) (min y1.toInt y2.toInt)
          (max y1.toInt y2.toInt) lineWidth.toInt ∧
        ∀ part ∈ overhangs (min x1.toInt x2.toInt) (max x1.toInt x2.toInt)
            (min y1.toInt y2.toInt) (max y1.toInt y2.toInt) lineWidth.toInt,
          ¬part.Meets (getFrameBuf frame) := by
  have width : atLeastOne lineWidth.toInt = lineWidth.toInt := if_neg (by omega)
  have least : ∀ v : Int32, -2147483648 ≤ v.toInt := Int32.le_toInt
  have most : ∀ v : Int32, v.toInt ≤ 2147483647 := fun v => Int.le_of_lt_add_one v.toInt_lt
  have ints := results_iff wide (le_min (least x1) (least x2)) (max_le (most x1) (most x2))
    (le_min (least y1) (least y2)) (max_le (most y1) (most y2))
  rw [← bands_border_iff valid fit x1.toInt y1.toInt x2.toInt y2.toInt c wide pattern, ← ints,
    PaintsBorder, drawRectInt, width, valid, Bool.true_and]
  cases all : (rectResults (min x1.toInt x2.toInt) (min y1.toInt y2.toInt) (max x1.toInt x2.toInt)
      (max y1.toInt y2.toInt) lineWidth.toInt).all isInt with
  | false => simp
  | true => simp

/-- Of a rectangle with a margin in the frame, the border alone is painted if and
only if the line is narrower than the rectangle is high, and as wide at most as it is wide. -/
theorem overhangs_apart_iff (rows : t ≤ b) (columns : l ≤ r) (wide : 1 ≤ lineWidth)
    (margin : lineWidth ≤ l ∧ r + lineWidth < fb.width ∧ lineWidth ≤ t ∧
      b + lineWidth < fb.height) :
    (∀ part ∈ overhangs l r t b lineWidth, ¬part.Meets fb) ↔
      lineWidth ≤ b - t ∧ lineWidth ≤ r - l + 1 := by
  constructor
  · intro apart
    have below := apart ⟨l, l + lineWidth - 1, max (min (t + lineWidth) (b - lineWidth)) (b + 1),
      max (t + lineWidth) (b - lineWidth)⟩ (by simp [overhangs, bands, Box.outside])
    have beside := apart ⟨max l (r + 1), l + lineWidth - 1, min (t + lineWidth) (b - lineWidth),
      max (t + lineWidth) (b - lineWidth)⟩ (by simp [overhangs, bands, Box.outside])
    simp only [Box.Meets] at below beside
    omega
  · rintro ⟨high, broad⟩ part hpart meets
    obtain ⟨p, -, here⟩ := meets_iff.mp meets
    obtain ⟨⟨band, hband, inBand⟩, beyond⟩ := overhangs_iff.mp ⟨part, hpart, here⟩
    refine beyond (contains_iff.mpr ?_)
    simp only [bands, List.mem_cons, List.not_mem_nil, or_false] at hband
    rw [contains_iff] at inBand
    rcases hband with rfl | rfl | rfl | rfl <;> simp only at inBand ⊢ <;> omega

theorem smallRect_border : PaintsBorder (plainFrame 8 8) 5 5 2 2 2 ⟨9, 1, 2⟩ .start :=
  (drawRect_border_iff (by decide) ⟨by decide, by decide⟩ 5 5 2 2 _ (by decide) _).mpr
    ⟨⟨by decide, by decide, by decide, by decide⟩, by decide⟩

/-- A line width of two paints a row below a rectangle of one row. -/
theorem flatRect_beyond :
    ¬∀ (frame : VideoFrame) (x1 y1 x2 y2 lineWidth : Int32) (c : YUVColor) (pattern : UvPattern),
      isFrameValid frame = true → SizesFit frame → 1 ≤ lineWidth.toInt →
        PaintsBorder frame x1 y1 x2 y2 lineWidth c pattern := by
  intro exact
  have valid : isFrameValid (plainFrame 4 4) = true := by decide
  obtain ⟨draw, drawn, same⟩ := exact (plainFrame 4 4) 0 0 3 0 2 ⟨9, 1, 2⟩ .start valid
    ⟨by decide, by decide⟩ (by decide)
  obtain rfl : drawRect (plainFrame 4 4) 0 0 3 0 ⟨9, 1, 2⟩ 2 = draw := Option.some.inj drawn
  have proper := proper_of_valid valid ⟨by decide, by decide⟩
  rw [lumaPixels_eq proper (drawRect_luma valid 0 0 3 0 2)] at same
  have painted : ((0, 1) : Int × Int) ∈ {p | p ∈ banded (min 0 3) (max 0 3) (min 0 0) (max 0 0)
      (atLeastOne 2) ∧ InFrame (getFrameBuf (plainFrame 4 4)) p} := by
    refine ⟨⟨_, List.mem_cons_self, ?_⟩, by decide, by decide, by decide, by decide⟩
    exact ⟨by decide, by decide, by decide, by decide⟩
  rw [same] at painted
  exact absurd painted.1.1.bottom (by decide)

end Drawing

end RectangleBorders
