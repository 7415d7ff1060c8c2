import AxVision.DrawnPairs
import Mathlib.Algebra.Ring.Parity
import Mathlib.Tactic.Ring

/-!
# Every byte drawn lies in its plane

All drawing functions write bytes of pixels of the frame and no others. The luma
plane has them all. The chroma plane need not have the pairs of the last row, so
a call stays inside where it colours none of the pixels whose pair it lacks.
-/

namespace DrawingBounds

open PlaneLayouts WriteLogs FrameDrawing DrawnPixels DrawnPairs

variable {frame : VideoFrame} {fb : FrameBuf} {c : YUVColor}

/-- The bytes of the pixels of the frame. -/
def framePlaces (fb : FrameBuf) : Set Place :=
  {k | ∃ p, InFrame fb p ∧
    (k = (.y, offset fb p) ∨ k = (.uv, pairOffset fb p) ∨ k = (.uv, pairOffset fb p + 1))}

section Calls

theorem putPixel_inside {x y : Int} {w : Write} (h : w ∈ putPixel fb x y c) :
    w.1 ∈ framePlaces fb := by
  rw [mem_putPixel, mem_chromaPair] at h
  obtain ⟨inside, rfl | rfl | rfl⟩ := h
  · exact ⟨(x, y), inside, Or.inl rfl⟩
  · exact ⟨(x, y), inside, Or.inr (Or.inl rfl)⟩
  · exact ⟨(x, y), inside, Or.inr (Or.inr rfl)⟩

theorem horizLine_only (fb : FrameBuf) (x1 x2 y : Int) (c : YUVColor) :
    Only (drawHorizLine fb x1 x2 y c) (framePlaces fb) := by
  rintro pattern k ⟨v, hv⟩
  obtain ⟨x, -, hx⟩ := mem_drawHorizLine.mp hv
  exact putPixel_inside hx

theorem vertLine_only (fb : FrameBuf) (x y1 y2 : Int) (c : YUVColor) :
    Only (drawVertLine fb x y1 y2 c) (framePlaces fb) := by
  rintro pattern k ⟨v, hv⟩
  obtain ⟨y, -, inside, part⟩ := mem_drawVertLine.mp hv
  exact putPixel_inside (c := c) (mem_putPixel.mpr ⟨inside, part.imp_right fun h => h.2⟩)

theorem setPixel_only (frame : VideoFrame) (x y : Int) (c : YUVColor) :
    Only (setPixel frame x y c) (framePlaces (getFrameBuf frame)) := by
  unfold setPixel
  split
  · rintro pattern k ⟨v, hv⟩
    exact putPixel_inside hv
  · exact only_nothing

/-- A loop whose turns write bytes of the frame writes bytes of the frame. -/
theorem loop_only {ι : Type} {turns : List ι} {turn : ι → Draw} {places : Set Place}
    (h : ∀ i, Only (turn i) places) : Only (.sequence (turns.map turn)) places := by
  refine only_sequence fun action member => ?_
  obtain ⟨i, -, rfl⟩ := List.mem_map.mp member
  exact h i

theorem drawLine_only (frame : VideoFrame) (c : YUVColor) (x1 y1 x2 y2 lineWidth : Int) :
    Only (drawLine frame c x1 y1 x2 y2 lineWidth) (framePlaces (getFrameBuf frame)) := by
  unfold drawLine
  split
  · simp only []
    split
    · unfold drawLineHoriz
      simp only [inOrder_eq]
      split
      · exact only_nothing
      · refine loop_only fun i => ?_
        split
        · split
          · exact horizLine_only _ _ _ _ c
          · exact only_nothing
        · exact only_nothing
    · split
      · unfold drawLineVert
        simp only [inOrder_eq]
        split
        · exact only_nothing
        · refine loop_only fun i => ?_
          split
          · split
            · exact vertLine_only _ _ _ _ c
            · exact only_nothing
          · exact only_nothing
      · exact loop_only fun i => loop_only fun p => setPixel_only frame p.1 p.2 c
  · exact only_nothing

theorem drawClosedLines_only (frame : VideoFrame) (c : YUVColor) (points : List (Int × Int))
    (lineWidth : Int) :
    Only (drawClosedLines frame c points lineWidth) (framePlaces (getFrameBuf frame)) := by
  unfold drawClosedLines
  split
  · exact only_nothing
  · exact loop_only fun p => drawLine_only frame c _ _ _ _ lineWidth

theorem drawRect_only (frame : VideoFrame) (c : YUVColor) (x1 y1 x2 y2 lineWidth : Int) :
    Only (drawRect frame x1 y1 x2 y2 c lineWidth) (framePlaces (getFrameBuf frame)) := by
  unfold drawRect
  split
  · simp only [inOrder_eq]
    have horiz : ∀ x1 x2 y, Only (drawHorizBand (getFrameBuf frame) x1 x2 y (atLeastOne lineWidth) c)
        (framePlaces (getFrameBuf frame)) :=
      fun x1 x2 y => loop_only fun i => horizLine_only _ x1 x2 (y + i) c
    have vert : ∀ x y1 y2, Only (drawVertBand (getFrameBuf frame) x y1 y2 (atLeastOne lineWidth) c)
        (framePlaces (getFrameBuf frame)) :=
      fun x y1 y2 => loop_only fun i => vertLine_only _ (x + i) y1 y2 c
    exact (horiz _ _ _).andThen ((horiz _ _ _).andThen
      ((vert _ _ _).andThen ((vert _ _ _).andThen only_nothing)))
  · exact only_nothing

theorem drawCircle_only (frame : VideoFrame) (c : YUVColor) (cx cy radius : Int) :
    Only (drawCircle frame cx cy radius c) (framePlaces (getFrameBuf frame)) := by
  unfold drawCircle
  split
  · simp only []
    split
    · exact only_nothing
    · exact loop_only fun line => horizLine_only _ line.1 line.2.1 line.2.2 c
  · exact only_nothing

theorem call_only (frame : VideoFrame) (call : Call) :
    Only (call.draw frame) (framePlaces (getFrameBuf frame)) := by
  cases call with
  | setPixel x y c => exact setPixel_only frame x y c
  | drawLine x1 y1 x2 y2 c lineWidth => exact drawLine_only frame c x1 y1 x2 y2 lineWidth
  | drawClosedLines points c lineWidth => exact drawClosedLines_only frame c points lineWidth
  | drawRect x1 y1 x2 y2 c lineWidth => exact drawRect_only frame c x1 y1 x2 y2 lineWidth
  | drawCircle cx cy radius c => exact drawCircle_only frame c cx cy radius

end Calls

section Planes

variable {layout : PlaneLayout}

/-- The bytes of the two planes. -/
def planeBytes (layout : PlaneLayout) : Set Place :=
  {k | 0 ≤ k.2 ∧ k.2 < (match k.1 with
    | .y => (layout.size 0).toNat
    | .uv => (layout.size 1).toNat)}

/-- A valid frame of an 8-bit 4:2:0 semiplanar format with the planes of its layout,
the first one of stride times height bytes. -/
structure Mapped (frame : VideoFrame) (layout : PlaneLayout) : Prop where
  valid : isFrameValid frame = true
  format : frame.imgFormat = .yuv420SemiPlanar ∨ frame.imgFormat = .yuv420SemiPlanarVu
  layout_eq : computePlaneLayout frame = some layout
  luma : (layout.size 0).toNat = frame.picStride.toNat * frame.height.toNat

/-- In the last chroma row the frame's pairs lie within half a luma plane. -/
def Roomy (frame : VideoFrame) : Prop :=
  if frame.height.toNat % 2 = 0 then
    frame.width.toNat % 2 = 0 ∨ frame.width.toNat < frame.picStride.toNat
  else 2 * (frame.width.toNat + frame.width.toNat % 2) ≤ frame.picStride.toNat

instance roomyDecidable (frame : VideoFrame) : Decidable (Roomy frame) :=
  inferInstanceAs (Decidable (if frame.height.toNat % 2 = 0 then
    frame.width.toNat % 2 = 0 ∨ frame.width.toNat < frame.picStride.toNat
  else 2 * (frame.width.toNat + frame.width.toNat % 2) ≤ frame.picStride.toNat))

theorem Mapped.sizes (mapped : Mapped frame layout) :
    (layout.size 0).toNat < 2 ^ 29 ∧ (layout.size 1).toNat = (layout.size 0).toNat / 2 := by
  have accepted := mapped.layout_eq
  have luma : layout.size 0 = frame.picStride * frame.height * 8 / 8 ∧
      layout.size 1 = frame.picStride * frame.height * 8 / 8 / 2 := by
    rcases mapped.format with fmt | fmt <;>
      simp only [computePlaneLayout, planarNumAndBits, fmt, isYuv422SemiPlanar] at accepted <;>
      cases accepted <;> exact ⟨rfl, rfl⟩
  rw [luma.1, luma.2, UInt32.toNat_div, UInt32.toNat_div]
  have := (frame.picStride * frame.height * 8).toNat_lt
  exact ⟨by simp only [UInt32.reduceToNat]; omega, rfl⟩

theorem Mapped.fit (mapped : Mapped frame layout) : SizesFit frame := by
  obtain ⟨width, height, le⟩ := valid_sizes mapped.valid
  have width_pos : frame.width.toNat ≠ 0 := fun h => width (UInt32.toNat_inj.mp h)
  have height_pos : frame.height.toNat ≠ 0 := fun h => height (UInt32.toNat_inj.mp h)
  have small := mapped.sizes.1
  rw [mapped.luma] at small
  constructor
  · have : frame.picStride.toNat ≤ frame.picStride.toNat * frame.height.toNat :=
      Nat.le_mul_of_pos_right _ (by omega)
    omega
  · have : frame.height.toNat ≤ frame.picStride.toNat * frame.height.toNat :=
      Nat.le_mul_of_pos_left _ (by omega)
    omega

/-- The pair of the last pixel against the size of the chroma plane. -/
theorem last_pair_iff {stride width height : Nat} (width_pos : 0 < width) (le : width ≤ stride)
    (height_pos : 0 < height) :
    (height - 1) / 2 * stride + 2 * ((width - 1) / 2) + 2 ≤ stride * height / 2 ↔
      if height % 2 = 0 then width % 2 = 0 ∨ width < stride
      else 2 * (width + width % 2) ≤ stride := by
  rcases Nat.even_or_odd' height with ⟨k, rfl | rfl⟩
  · obtain ⟨j, rfl⟩ : ∃ j, k = j + 1 := ⟨k - 1, by omega⟩
    have rows : (2 * (j + 1) - 1) / 2 * stride = j * stride := by
      congr 1
      omega
    have half : stride * (2 * (j + 1)) / 2 = j * stride + stride := by
      rw [Nat.mul_left_comm, Nat.mul_div_cancel_left _ (by decide), Nat.mul_succ, Nat.mul_comm]
    rw [rows, half, if_pos (by omega)]
    omega
  · have rows : (2 * k + 1 - 1) / 2 * stride = k * stride := by
      congr 1
      omega
    have half : stride * (2 * k + 1) / 2 = k * stride + stride / 2 := by
      have whole : stride * (2 * k + 1) = 2 * (k * stride) + stride := by ring
      rw [whole]
      omega
    rw [rows, half, if_neg (by omega)]
    omega

theorem Mapped.roomy_iff (mapped : Mapped frame layout) :
    (frame.height.toNat - 1) / 2 * frame.picStride.toNat + 2 * ((frame.width.toNat - 1) / 2) + 2 ≤
      (layout.size 1).toNat ↔ Roomy frame := by
  obtain ⟨width, height, le⟩ := valid_sizes mapped.valid
  have width_pos : frame.width.toNat ≠ 0 := fun h => width (UInt32.toNat_inj.mp h)
  have height_pos : frame.height.toNat ≠ 0 := fun h => height (UInt32.toNat_inj.mp h)
  rw [mapped.sizes.2, mapped.luma]
  exact last_pair_iff (by omega) le (by omega)

theorem luma_within (mapped : Mapped frame layout) {p : Int × Int}
    (inside : InFrame (getFrameBuf frame) p) :
    (Plane.y, offset (getFrameBuf frame) p) ∈ planeBytes layout := by
  have le := (valid_sizes mapped.valid).2.2
  obtain ⟨left, right, top, bottom⟩ := inside
  rw [getFrameBuf_eq mapped.valid mapped.fit] at *
  simp only [offset, planeBytes, Set.mem_ofPred_eq, mapped.luma] at *
  have rows : p.2 * frame.picStride.toNat ≤ ((frame.height.toNat : Int) - 1) * frame.picStride.toNat :=
    Int.mul_le_mul_of_nonneg_right (by omega) (by omega)
  have start : 0 ≤ p.2 * (frame.picStride.toNat : Int) := Int.mul_nonneg top (by omega)
  push_cast
  rw [sub_mul, one_mul, mul_comm (frame.height.toNat : Int)] at rows
  exact ⟨by omega, by omega⟩

/-- Without room the second chroma byte of the last pixel lies beyond the plane. -/
theorem lastPixel_beyond (mapped : Mapped frame layout) (cramped : ¬Roomy frame) (c : YUVColor)
    (pattern : UvPattern) :
    ¬written (setPixel frame (frame.width.toNat - 1) (frame.height.toNat - 1) c pattern).1 ⊆
      planeBytes layout := by
  intro within
  have short := mt mapped.roomy_iff.mp cramped
  obtain ⟨width, height, le⟩ := valid_sizes mapped.valid
  have width_pos : frame.width.toNat ≠ 0 := fun h => width (UInt32.toNat_inj.mp h)
  have height_pos : frame.height.toNat ≠ 0 := fun h => height (UInt32.toNat_inj.mp h)
  have sizes := getFrameBuf_eq mapped.valid mapped.fit
  have inside : InFrame (getFrameBuf frame)
      ((frame.width.toNat : Int) - 1, (frame.height.toNat : Int) - 1) := by
    rw [sizes]
    exact ⟨by simp only; omega, by simp only; omega, by simp only; omega, by simp only; omega⟩
  have here : (((Plane.uv, pairOffset (getFrameBuf frame)
      ((frame.width.toNat : Int) - 1, (frame.height.toNat : Int) - 1) + 1), c.v) : Write) ∈
        (setPixel frame (frame.width.toNat - 1) (frame.height.toNat - 1) c pattern).1 := by
    rw [setPixel, if_pos mapped.valid]
    exact mem_putPixel.mpr ⟨inside, Or.inr (mem_chromaPair.mpr (Or.inr rfl))⟩
  have bound := (within ⟨c.v, here⟩).2
  rw [sizes] at bound
  simp only [pairOffset, roundDown] at bound
  have row : ((frame.height.toNat : Int) - 1) / 2 = ((frame.height.toNat - 1) / 2 : Nat) := by omega
  rw [row, ← Nat.cast_mul] at bound
  omega

/-- The chroma plane has the two bytes of a pixel. -/
def HasPair (frame : VideoFrame) (layout : PlaneLayout) (p : Int × Int) : Prop :=
  pairOffset (getFrameBuf frame) p + 2 ≤ (layout.size 1).toNat

theorem pair_within (mapped : Mapped frame layout) {p : Int × Int}
    (inside : InFrame (getFrameBuf frame) p) (has : HasPair frame layout p) :
    (Plane.uv, pairOffset (getFrameBuf frame) p) ∈ planeBytes layout ∧
      (Plane.uv, pairOffset (getFrameBuf frame) p + 1) ∈ planeBytes layout := by
  obtain ⟨left, right, top, bottom⟩ := inside
  have start : 0 ≤ p.2 / 2 * (getFrameBuf frame).stride := by
    rw [getFrameBuf_eq mapped.valid mapped.fit]
    exact Int.mul_nonneg (by omega) (by simp only; omega)
  simp only [HasPair, pairOffset, roundDown, planeBytes, Set.mem_ofPred_eq] at *
  exact ⟨⟨by omega, by omega⟩, ⟨by omega, by omega⟩⟩

/-- A call writes inside the planes if and only if the chroma plane has the pair
of each pixel of the frame that the call colours. -/
theorem call_within_iff (mapped : Mapped frame layout) (call : Call) (pattern : UvPattern) :
    written (call.draw frame pattern).1 ⊆ planeBytes layout ↔
      ∀ p ∈ coloured (getFrameBuf frame) call, InFrame (getFrameBuf frame) p →
        HasPair frame layout p := by
  have chroma := call_colours mapped.valid call pattern
  constructor
  · intro within p hp inside
    have second : (Plane.uv, pairOffset (getFrameBuf frame) p + 1) ∈
        written (call.draw frame pattern).1 :=
      (chroma _ rfl).mpr ⟨p, hp, inside, Or.inr rfl⟩
    have bound := (within second).2
    simp only [HasPair] at *
    omega
  · rintro has ⟨plane, o⟩ hk
    cases plane with
    | y =>
      obtain ⟨p, inside, here | ⟨⟨⟩⟩ | ⟨⟨⟩⟩⟩ := call_only frame call pattern hk
      cases here
      exact luma_within mapped inside
    | uv =>
      obtain ⟨p, hp, inside, here⟩ := (chroma _ rfl).mp hk
      obtain ⟨first, second⟩ := pair_within mapped inside (has p hp inside)
      rcases here with same | same
      · exact same ▸ first
      · exact same ▸ second

theorem roomy_pairs (mapped : Mapped frame layout) (roomy : Roomy frame) {p : Int × Int}
    (inside : InFrame (getFrameBuf frame) p) : HasPair frame layout p := by
  have room := mapped.roomy_iff.mpr roomy
  obtain ⟨left, right, top, bottom⟩ := inside
  rw [HasPair, getFrameBuf_eq mapped.valid mapped.fit] at *
  simp only [pairOffset, roundDown] at *
  have rows : p.2 / 2 * (frame.picStride.toNat : Int) ≤
      ((frame.height.toNat - 1) / 2 : Nat) * frame.picStride.toNat :=
    Int.mul_le_mul_of_nonneg_right (by omega) (by omega)
  have column : p.1 / 2 * 2 ≤ (2 * ((frame.width.toNat - 1) / 2) : Nat) := by omega
  rw [← Nat.cast_mul] at rows
  omega

/-- In a mapped frame a call writes inside the planes if and only if the chroma
plane has the pairs of what it colours, and all calls do if and only if it has
those of the last row. -/
theorem drawing_within_iff (mapped : Mapped frame layout) :
    (∀ (call : Call) (pattern : UvPattern),
      written (call.draw frame pattern).1 ⊆ planeBytes layout ↔
        ∀ p ∈ coloured (getFrameBuf frame) call, InFrame (getFrameBuf frame) p →
          HasPair frame layout p) ∧
    ((∀ (call : Call) (pattern : UvPattern),
      written (call.draw frame pattern).1 ⊆ planeBytes layout) ↔ Roomy frame) := by
  refine ⟨call_within_iff mapped, ?_⟩
  constructor
  · intro within
    by_contra cramped
    exact lastPixel_beyond mapped cramped ⟨0, 0, 0⟩ .start
      (within (.setPixel (frame.width.toNat - 1) (frame.height.toNat - 1) ⟨0, 0, 0⟩) .start)
  · intro roomy call pattern
    exact (call_within_iff mapped call pattern).mpr fun p _ inside => roomy_pairs mapped roomy inside

theorem oddFrame_mapped : Mapped (plainFrame 4 3) ⟨2, fun | 0 => 12 | 1 => 6 | 2 => 0⟩ where
  valid := by decide
  format := Or.inl rfl
  layout_eq := rfl
  luma := by decide

/-- The first pixel of three rows of four has its pair. -/
theorem oddFrame_within :
    written (Call.draw (plainFrame 4 3) (.setPixel 0 0 ⟨9, 1, 2⟩) .start).1 ⊆
      planeBytes ⟨2, fun | 0 => 12 | 1 => 6 | 2 => 0⟩ := by
  refine ((drawing_within_iff oddFrame_mapped).1 (.setPixel 0 0 ⟨9, 1, 2⟩) .start).mpr ?_
  rintro p rfl -
  exact show (0 : Int) + 2 ≤ 6 by decide

/-- Three rows of four pixels have six chroma bytes, and the last pixel writes the eighth. -/
theorem oddFrame_beyond :
    ¬∀ (frame : VideoFrame) (layout : PlaneLayout) (call : Call) (pattern : UvPattern),
      Mapped frame layout → written (call.draw frame pattern).1 ⊆ planeBytes layout := by
  intro within
  exact lastPixel_beyond oddFrame_mapped (by decide) ⟨0, 0, 0⟩ .start
    (within _ _ (.setPixel _ _ ⟨0, 0, 0⟩) .start oddFrame_mapped)

end Planes

end DrawingBounds
