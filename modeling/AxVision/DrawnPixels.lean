import AxVision.FrameDrawing

/-!
# The pixels a drawing function touches

A pixel of the frame has one luma byte and shares two chroma bytes with its
neighbours. Every line is a set of pixels: which bytes it writes is said by
these, and of a horizontal line they are all bytes of its pixels.
-/

namespace DrawnPixels

open PlaneLayouts WriteLogs FrameDrawing

section Loops

variable {first last i : Int}

theorem mem_countUp : i ∈ countUp first last ↔ first ≤ i ∧ i ≤ last := by
  simp only [countUp, List.mem_map, List.mem_range]
  constructor
  · rintro ⟨n, hn, rfl⟩
    omega
  · rintro ⟨low, high⟩
    exact ⟨(i - first).toNat, by omega, by omega⟩

theorem mem_countUpByTwo :
    i ∈ countUpByTwo first last ↔ first ≤ i ∧ i ≤ last ∧ i % 2 = first % 2 := by
  simp only [countUpByTwo, List.mem_map, List.mem_range]
  constructor
  · rintro ⟨n, hn, rfl⟩
    omega
  · rintro ⟨low, high, same⟩
    exact ⟨((i - first) / 2).toNat, by omega, by omega⟩

theorem inOrder_eq (a b : Int) : inOrder a b = (min a b, max a b) := by
  unfold inOrder
  split
  · rw [Prod.mk.injEq]
    omega
  · rw [Prod.mk.injEq]
    omega

end Loops

section Blocks

variable {plane : Plane} {dst o : Int} {k : Place}

theorem mem_memcpy {src : List UInt8} {w : Write} :
    w ∈ memcpy plane dst src ↔ ∃ i : Nat, src[i]? = some w.2 ∧ w.1 = (plane, dst + i) := by
  simp only [memcpy, List.mem_map, Prod.exists, List.mem_zipIdx_iff_getElem?]
  constructor
  · rintro ⟨b, i, here, rfl⟩
    exact ⟨i, here, rfl⟩
  · rintro ⟨i, here, place⟩
    exact ⟨w.2, i, here, Prod.ext place.symm rfl⟩

/-- Of the two chroma bytes, the one at this distance from the first. -/
def chromaByte (c : YUVColor) (distance : Int) : UInt8 := if distance % 2 = 0 then c.u else c.v

theorem chromaByte_congr (c : YUVColor) {d d' : Int} (same : d % 2 = d' % 2) :
    chromaByte c d = chromaByte c d' := by
  rw [chromaByte, chromaByte, same]

theorem chromaByte_even (c : YUVColor) {d : Int} (even : d % 2 = 0) : chromaByte c d = c.u :=
  if_pos even

theorem chromaByte_odd (c : YUVColor) {d : Int} (odd : d % 2 = 1) : chromaByte c d = c.v :=
  if_neg (by omega)

theorem getElem?_pairs (c : YUVColor) (n i : Nat) :
    (List.replicate n [c.u, c.v]).flatten[i]? =
      if i < 2 * n then some (chromaByte c i) else none := by
  induction n generalizing i with
  | zero => simp
  | succ n ih =>
    rw [List.replicate_succ, List.flatten_cons]
    match i with
    | 0 => simp [chromaByte]
    | 1 => simp [chromaByte, show 1 < 2 * (n + 1) by omega]
    | i + 2 =>
      have later : ([c.u, c.v] ++ (List.replicate n [c.u, c.v]).flatten)[i + 2]? =
          (List.replicate n [c.u, c.v]).flatten[i]? := rfl
      have parity : chromaByte c ((i + 2 : Nat) : Int) = chromaByte c i :=
        chromaByte_congr c (by omega)
      rw [later, ih, parity]
      congr 1
      rw [eq_iff_iff]
      omega

theorem getElem?_fillPattern (c : YUVColor) (i : Nat) :
    (fillPattern c)[i]? = if i < 128 then some (chromaByte c i) else none :=
  getElem?_pairs c 64 i

theorem mem_copyPairs {c : YUVColor} {n : Nat} {w : Write} :
    w ∈ copyPairs c n dst ↔
      ∃ i : Nat, i < n / 2 * 2 ∧ w = ((.uv, dst + i), chromaByte c i) := by
  induction n, dst using copyPairs.induct with
  | case1 n dst ih =>
    rw [copyPairs, List.mem_cons, List.mem_cons, ih]
    constructor
    · rintro (rfl | rfl | ⟨i, hi, rfl⟩)
      · exact ⟨0, by omega, by simp [chromaByte]⟩
      · exact ⟨1, by omega, by simp [chromaByte]⟩
      · refine ⟨i + 2, by omega, ?_⟩
        rw [chromaByte_congr c (show ((i + 2 : Nat) : Int) % 2 = i % 2 by omega)]
        simp only [Prod.mk.injEq, true_and, and_true]
        omega
    · rintro ⟨i, hi, rfl⟩
      match i with
      | 0 => exact Or.inl (by simp [chromaByte])
      | 1 => exact Or.inr (Or.inl (by simp [chromaByte]))
      | i + 2 =>
        refine Or.inr (Or.inr ⟨i, by omega, ?_⟩)
        rw [chromaByte_congr c (show ((i + 2 : Nat) : Int) % 2 = i % 2 by omega)]
        simp only [Prod.mk.injEq, true_and, and_true]
        omega
  | case2 n dst few =>
    have none : n / 2 * 2 = 0 := by
      match n with
      | 0 => rfl
      | 1 => rfl
      | n + 2 => exact (few n rfl).elim
    rw [copyPairs, none]
    · simp
    · exact few

/-- The two loops write alternating chroma bytes, one pair after the other. -/
theorem mem_copyPatterns {c : YUVColor} {n : Nat} {w : Write} :
    w ∈ copyPatterns (fillPattern c) c n dst ↔
      ∃ i : Nat, i < n / 2 * 2 ∧ w = ((.uv, dst + i), chromaByte c i) := by
  induction n using Nat.strong_induction_on generalizing dst with
  | _ n ih =>
    rw [copyPatterns]
    split
    · rename_i long
      rw [List.mem_append, mem_memcpy, ih (n - 128) (by omega)]
      constructor
      · rintro (⟨i, here, place⟩ | ⟨i, hi, rfl⟩)
        · rw [getElem?_fillPattern] at here
          split at here
          · rename_i low
            refine ⟨i, by omega, Prod.ext place ?_⟩
            exact (Option.some.inj here).symm
          · cases here
        · refine ⟨i + 128, by omega, ?_⟩
          rw [chromaByte_congr c (show ((i + 128 : Nat) : Int) % 2 = i % 2 by omega)]
          simp only [Prod.mk.injEq, true_and, and_true]
          omega
      · rintro ⟨i, hi, rfl⟩
        by_cases low : i < 128
        · refine Or.inl ⟨i, ?_, rfl⟩
          rw [getElem?_fillPattern, if_pos low]
        · refine Or.inr ⟨i - 128, by omega, ?_⟩
          rw [chromaByte_congr c (show ((i - 128 : Nat) : Int) % 2 = i % 2 by omega)]
          simp only [Prod.mk.injEq, true_and, and_true]
          omega
    · exact mem_copyPairs

end Blocks

section Pixels

variable {fb : FrameBuf} {x y x1 x2 y1 y2 : Int} {c : YUVColor} {w : Write} {p q : Int × Int}

structure InFrame (fb : FrameBuf) (p : Int × Int) : Prop where
  left : 0 ≤ p.1
  right : p.1 < fb.width
  top : 0 ≤ p.2
  bottom : p.2 < fb.height

/-- The luma byte of a pixel. -/
def offset (fb : FrameBuf) (p : Int × Int) : Int := p.2 * fb.stride + p.1

/-- The first of the two chroma bytes of a pixel. -/
def pairOffset (fb : FrameBuf) (p : Int × Int) : Int := p.2 / 2 * fb.stride + roundDown p.1

theorem mem_chromaPair :
    w ∈ chromaPair fb x y c ↔
      w = ((.uv, pairOffset fb (x, y)), c.u) ∨ w = ((.uv, pairOffset fb (x, y) + 1), c.v) := by
  rw [chromaPair, List.mem_cons, List.mem_singleton]
  rfl

theorem mem_putPixel :
    w ∈ putPixel fb x y c ↔
      InFrame fb (x, y) ∧ (w = ((.y, offset fb (x, y)), c.y) ∨ w ∈ chromaPair fb x y c) := by
  rw [putPixel]
  split
  · rename_i away
    simp only [List.not_mem_nil, false_iff, not_and]
    intro inside
    have := inside.left
    have := inside.right
    have := inside.top
    have := inside.bottom
    simp only at *
    omega
  · rename_i inside
    rw [List.mem_cons]
    constructor
    · intro h
      exact ⟨⟨by simp only; omega, by simp only; omega, by simp only; omega, by simp only; omega⟩, h⟩
    · exact fun h => h.2

/-- From the pair of the first pixel to the pair of the last one. -/
theorem mem_pairs {base : Int} (le : x1 ≤ x2) :
    (∃ i : Nat, i < (x2 - roundDown x1 + 2).toNat / 2 * 2 ∧
        w = ((.uv, base + roundDown x1 + i), chromaByte c i)) ↔
      ∃ x, (x1 ≤ x ∧ x ≤ x2) ∧
        (w = ((.uv, base + roundDown x), c.u) ∨ w = ((.uv, base + roundDown x + 1), c.v)) := by
  unfold roundDown
  constructor
  · rintro ⟨i, hi, rfl⟩
    refine ⟨max x1 (x1 / 2 * 2 + (i / 2 * 2 : Nat)), by omega, ?_⟩
    by_cases even : (i : Int) % 2 = 0
    · left
      simp only [chromaByte, if_pos even, Prod.mk.injEq, true_and, and_true]
      omega
    · right
      simp only [chromaByte, if_neg even, Prod.mk.injEq, true_and, and_true]
      omega
  · rintro ⟨x, inside, rfl | rfl⟩
    · refine ⟨(x / 2 * 2 - x1 / 2 * 2).toNat, by omega, ?_⟩
      rw [chromaByte, if_pos (by omega)]
      simp only [Prod.mk.injEq, true_and, and_true]
      omega
    · refine ⟨(x / 2 * 2 - x1 / 2 * 2 + 1).toNat, by omega, ?_⟩
      rw [chromaByte, if_neg (by omega)]
      simp only [Prod.mk.injEq, true_and, and_true]
      omega

theorem mem_memset {plane : Plane} {dst n : Int} {value : UInt8} :
    w ∈ memset plane dst value n ↔ ∃ i, (0 ≤ i ∧ i < n) ∧ w = ((plane, dst + i), value) := by
  simp only [memset, List.mem_map, List.mem_range]
  constructor
  · rintro ⟨i, hi, rfl⟩
    exact ⟨i, by omega, rfl⟩
  · rintro ⟨i, hi, rfl⟩
    refine ⟨i.toNat, by omega, ?_⟩
    simp only [Prod.mk.injEq, true_and, and_true]
    omega

/-- A horizontal line writes what setting each of its pixels writes. -/
theorem mem_drawHorizLine {pattern : UvPattern} :
    w ∈ (drawHorizLine fb x1 x2 y c pattern).1 ↔
      ∃ x, (min x1 x2 ≤ x ∧ x ≤ max x1 x2) ∧ w ∈ putPixel fb x y c := by
  simp only [drawHorizLine, inOrder_eq, mem_putPixel, mem_chromaPair]
  split
  · rename_i away
    refine ⟨fun h => (List.not_mem_nil h).elim, ?_⟩
    rintro ⟨x, -, inside, -⟩
    have := inside.top
    have := inside.bottom
    simp only at *
    omega
  · rename_i inRow
    split
    · rename_i empty
      refine ⟨fun h => (List.not_mem_nil h).elim, ?_⟩
      rintro ⟨x, between, inside, -⟩
      have := inside.left
      have := inside.right
      simp only at *
      omega
    · rename_i some
      have inside : ∀ x, max 0 (min x1 x2) ≤ x ∧ x ≤ min (fb.width - 1) (max x1 x2) ↔
          (min x1 x2 ≤ x ∧ x ≤ max x1 x2) ∧ InFrame fb (x, y) := by
        intro x
        constructor
        · exact fun h => ⟨by omega, by simp only; omega, by simp only; omega,
            by simp only; omega, by simp only; omega⟩
        · rintro ⟨between, left, right, -, -⟩
          simp only at *
          omega
      simp only [uvPattern128_kPat, List.mem_append, mem_memset, mem_copyPatterns]
      rw [mem_pairs (Int.not_lt.mp some)]
      constructor
      · rintro (⟨i, hi, rfl⟩ | ⟨x, hx, pair⟩)
        · obtain ⟨between, here⟩ := (inside (max 0 (min x1 x2) + i)).mp (by omega)
          refine ⟨_, between, here, Or.inl ?_⟩
          simp only [offset, Int.add_assoc]
        · obtain ⟨between, here⟩ := (inside x).mp hx
          exact ⟨x, between, here, Or.inr pair⟩
      · rintro ⟨x, between, here, rfl | pair⟩
        · have hx := (inside x).mpr ⟨between, here⟩
          refine Or.inl ⟨x - max 0 (min x1 x2), by omega, ?_⟩
          simp only [offset, Prod.mk.injEq, true_and, and_true]
          omega
        · exact Or.inr ⟨x, (inside x).mpr ⟨between, here⟩, pair⟩

/-- `DrawVertLine` passes over the chroma bytes of the last row: there are rows
before it, and it is even. -/
def EndsEven (fb : FrameBuf) (y1 y2 : Int) : Prop :=
  max 0 (min y1 y2) < min (fb.height - 1) (max y1 y2) ∧
    min (fb.height - 1) (max y1 y2) % 2 = 0

instance endsEvenDecidable (fb : FrameBuf) (y1 y2 : Int) : Decidable (EndsEven fb y1 y2) :=
  inferInstanceAs (Decidable (_ ∧ _))

/-- Two rows share their chroma bytes; the rows of the loop reach all pairs but
perhaps that of the last row. -/
theorem chromaRows_halves {first last : Int} (le : first ≤ last) (row : Int) :
    (∃ y ∈ chromaRows first last, y / 2 = row) ↔
      (∃ y, (first ≤ y ∧ y ≤ last) ∧ y / 2 = row) ∧
        ¬((first < last ∧ last % 2 = 0) ∧ row = last / 2) := by
  unfold chromaRows roundUpOdd
  split
  · rename_i alone
    simp only [mem_countUpByTwo]
    constructor
    · rintro ⟨y, hy, rfl⟩
      exact ⟨⟨y, by omega, rfl⟩, by omega⟩
    · rintro ⟨⟨y, hy, rfl⟩, -⟩
      exact ⟨first, by omega, by omega⟩
  · rename_i more
    simp only [mem_countUpByTwo]
    constructor
    · rintro ⟨y, hy, rfl⟩
      exact ⟨⟨y, by omega, rfl⟩, by omega⟩
    · rintro ⟨⟨y, hy, rfl⟩, kept⟩
      exact ⟨y / 2 * 2 + 1, by omega, by omega⟩

theorem chromaPair_congr {y y' : Int} (same : y / 2 = y' / 2) :
    chromaPair fb x y c = chromaPair fb x y' c := by
  rw [chromaPair, chromaPair, same]

/-- A vertical line writes what setting each of its pixels writes, without the
chroma bytes of the last row where it ends even. -/
theorem mem_drawVertLine {pattern : UvPattern} :
    w ∈ (drawVertLine fb x y1 y2 c pattern).1 ↔
      ∃ y, (min y1 y2 ≤ y ∧ y ≤ max y1 y2) ∧ InFrame fb (x, y) ∧
        (w = ((.y, offset fb (x, y)), c.y) ∨
          ¬(EndsEven fb y1 y2 ∧ y / 2 = min (fb.height - 1) (max y1 y2) / 2) ∧
            w ∈ chromaPair fb x y c) := by
  simp only [drawVertLine, inOrder_eq]
  split
  · rename_i away
    refine ⟨fun h => (List.not_mem_nil h).elim, ?_⟩
    rintro ⟨y, -, inside, -⟩
    have := inside.left
    have := inside.right
    simp only at *
    omega
  · rename_i inColumn
    split
    · rename_i empty
      refine ⟨fun h => (List.not_mem_nil h).elim, ?_⟩
      rintro ⟨y, between, inside, -⟩
      have := inside.top
      have := inside.bottom
      simp only at *
      omega
    · rename_i some
      have inside : ∀ y, max 0 (min y1 y2) ≤ y ∧ y ≤ min (fb.height - 1) (max y1 y2) ↔
          (min y1 y2 ≤ y ∧ y ≤ max y1 y2) ∧ InFrame fb (x, y) := by
        intro y
        constructor
        · exact fun h => ⟨by omega, by simp only; omega, by simp only; omega,
            by simp only; omega, by simp only; omega⟩
        · rintro ⟨between, -, -, top, bottom⟩
          simp only at *
          omega
      have halves := chromaRows_halves (Int.not_lt.mp some)
      simp only [Action.log, List.mem_append, List.mem_map, List.mem_flatMap, mem_countUp]
      constructor
      · rintro (⟨y, hy, rfl⟩ | ⟨y, hy, pair⟩)
        · obtain ⟨between, here⟩ := (inside y).mp hy
          exact ⟨y, between, here, Or.inl rfl⟩
        · obtain ⟨⟨y', hy', same⟩, kept⟩ := (halves (y / 2)).mp ⟨y, hy, rfl⟩
          obtain ⟨between, here⟩ := (inside y').mp hy'
          rw [← same] at kept
          rw [← chromaPair_congr same] at pair
          exact ⟨y', between, here, Or.inr ⟨kept, pair⟩⟩
      · rintro ⟨y, between, here, rfl | ⟨kept, pair⟩⟩
        · exact Or.inl ⟨y, (inside y).mpr ⟨between, here⟩, rfl⟩
        · have hy := (inside y).mpr ⟨between, here⟩
          obtain ⟨y', hy', same⟩ := (halves (y / 2)).mpr ⟨⟨y, hy, rfl⟩, kept⟩
          rw [← chromaPair_congr same] at pair
          exact Or.inr ⟨y', hy', pair⟩

end Pixels

section Frames

variable {frame : VideoFrame} {fb : FrameBuf}

/-- The sizes are values of `int`, so the casts keep them. -/
structure SizesFit (frame : VideoFrame) : Prop where
  stride : frame.picStride.toNat < 2 ^ 31
  height : frame.height.toNat < 2 ^ 31

theorem toInt32_toInt {n : UInt32} (fits : n.toNat < 2 ^ 31) : n.toInt32.toInt = n.toNat := by
  refine BitVec.toInt_eq_toNat_of_lt (x := n.toBitVec) ?_
  have : n.toBitVec.toNat < 2 ^ 31 := fits
  omega

/-- A mapped 4:2:0 frame whose rows are not padded. -/
def plainFrame (width height : UInt32) : VideoFrame where
  imgFormat := .yuv420SemiPlanar
  width := width
  height := height
  picStride := width
  frameSize := 0
  phyAddr := fun _ => 0
  virAddr := fun _ => 1

structure Proper (fb : FrameBuf) : Prop where
  width_pos : 0 < fb.width
  width_le : fb.width ≤ fb.stride
  height_pos : 0 < fb.height

theorem valid_sizes (valid : isFrameValid frame = true) :
    frame.width ≠ 0 ∧ frame.height ≠ 0 ∧ frame.width.toNat ≤ frame.picStride.toNat := by
  simp only [isFrameValid] at valid
  split at valid
  · cases valid
  · split at valid
    · cases valid
    · rename_i sizes
      split at valid
      · cases valid
      · rename_i room
        obtain ⟨width, height⟩ := not_or.mp sizes
        exact ⟨width, height, UInt32.not_lt.mp room⟩

theorem getFrameBuf_eq (valid : isFrameValid frame = true) (fit : SizesFit frame) :
    getFrameBuf frame = ⟨frame.picStride.toNat, frame.width.toNat, frame.height.toNat⟩ := by
  obtain ⟨-, -, le⟩ := valid_sizes valid
  have width : frame.width.toNat < 2 ^ 31 := Nat.lt_of_le_of_lt le fit.stride
  rw [getFrameBuf, toInt32_toInt fit.stride, toInt32_toInt width, toInt32_toInt fit.height]

theorem proper_of_valid (valid : isFrameValid frame = true) (fit : SizesFit frame) :
    Proper (getFrameBuf frame) := by
  obtain ⟨width, height, le⟩ := valid_sizes valid
  have width_pos : frame.width.toNat ≠ 0 := fun h => width (UInt32.toNat_inj.mp h)
  have height_pos : frame.height.toNat ≠ 0 := fun h => height (UInt32.toNat_inj.mp h)
  rw [getFrameBuf_eq valid fit]
  exact ⟨by simp only; omega, by simp only; omega, by simp only; omega⟩

/-- A place inside a row tells the row. -/
theorem row_of_place {stride x : Int} (row : Int) (left : 0 ≤ x) (right : x < stride) :
    (row * stride + x) / stride = row ∧ (row * stride + x) % stride = x := by
  have pos : stride ≠ 0 := by omega
  constructor
  · rw [Int.add_comm, Int.add_mul_ediv_right _ _ pos, Int.ediv_eq_zero_of_lt left right,
      Int.zero_add]
  · rw [Int.add_comm, Int.add_mul_emod_self_right, Int.emod_eq_of_lt left right]

theorem offset_injective (proper : Proper fb) {p q : Int × Int} (hp : InFrame fb p)
    (hq : InFrame fb q) (same : offset fb p = offset fb q) : p = q := by
  have := proper.width_le
  obtain ⟨rowP, columnP⟩ := row_of_place p.2 hp.left (Int.lt_of_lt_of_le hp.right this)
  obtain ⟨rowQ, columnQ⟩ := row_of_place q.2 hq.left (Int.lt_of_lt_of_le hq.right this)
  simp only [offset] at same
  rw [same] at rowP columnP
  exact Prod.ext (columnP.symm.trans columnQ) (rowP.symm.trans rowQ)

end Frames

section Luma

variable {fb : FrameBuf} {x y x1 x2 y1 y2 : Int} {c : YUVColor}

def lumaBytes : Set Place := {k | k.1 = .y}

/-- The luma bytes of the pixels that lie in the frame. -/
def lumaPlaces (fb : FrameBuf) (pixels : Set (Int × Int)) : Set Place :=
  {k | ∃ p ∈ pixels, InFrame fb p ∧ k = (.y, offset fb p)}

/-- The pixels of the frame whose luma byte a log writes. -/
def lumaPixels (fb : FrameBuf) (log : List Write) : Set (Int × Int) :=
  {p | InFrame fb p ∧ (Plane.y, offset fb p) ∈ written log}

theorem lumaPixels_eq (proper : Proper fb) {draw : Draw} {pixels : Set (Int × Int)}
    (covers : Covers lumaBytes draw (lumaPlaces fb pixels)) (pattern : UvPattern) :
    lumaPixels fb (draw pattern).1 = {p | p ∈ pixels ∧ InFrame fb p} := by
  ext p
  have here : (Plane.y, offset fb p) ∈ lumaBytes := rfl
  simp only [lumaPixels, Set.mem_ofPred_eq, covers pattern _ here, lumaPlaces, Prod.mk.injEq,
    true_and]
  constructor
  · rintro ⟨inside, q, hq, inside', same⟩
    rw [offset_injective proper inside inside' same]
    exact ⟨hq, inside'⟩
  · rintro ⟨hp, inside⟩
    exact ⟨inside, p, hp, inside, rfl⟩

theorem putPixel_luma {k : Place} (luma : k ∈ lumaBytes) :
    (∃ v, (k, v) ∈ putPixel fb x y c) ↔ InFrame fb (x, y) ∧ k = (.y, offset fb (x, y)) := by
  obtain ⟨plane, o⟩ := k
  cases luma
  simp [mem_putPixel, mem_chromaPair]

theorem horizLine_luma (fb : FrameBuf) (x1 x2 y : Int) (c : YUVColor) :
    Covers lumaBytes (drawHorizLine fb x1 x2 y c)
      (lumaPlaces fb {p | (min x1 x2 ≤ p.1 ∧ p.1 ≤ max x1 x2) ∧ p.2 = y}) := by
  intro pattern k luma
  simp only [mem_written, mem_drawHorizLine, lumaPlaces, Set.mem_ofPred_eq]
  constructor
  · rintro ⟨v, x, between, hx⟩
    obtain ⟨inside, rfl⟩ := (putPixel_luma luma).mp ⟨v, hx⟩
    exact ⟨(x, y), ⟨between, rfl⟩, inside, rfl⟩
  · rintro ⟨⟨x, _⟩, ⟨between, rfl⟩, inside, rfl⟩
    obtain ⟨v, hv⟩ := (putPixel_luma (c := c) luma).mpr ⟨inside, rfl⟩
    exact ⟨v, x, between, hv⟩

theorem vertLine_luma (fb : FrameBuf) (x y1 y2 : Int) (c : YUVColor) :
    Covers lumaBytes (drawVertLine fb x y1 y2 c)
      (lumaPlaces fb {p | p.1 = x ∧ min y1 y2 ≤ p.2 ∧ p.2 ≤ max y1 y2}) := by
  intro pattern k luma
  simp only [mem_written, mem_drawVertLine, lumaPlaces, Set.mem_ofPred_eq]
  obtain ⟨plane, o⟩ := k
  cases luma
  constructor
  · rintro ⟨v, y, between, inside, part⟩
    rcases part with luma | ⟨-, pair⟩
    · exact ⟨(x, y), ⟨rfl, between⟩, inside, congrArg Prod.fst luma⟩
    · simp [mem_chromaPair] at pair
  · rintro ⟨⟨_, y⟩, ⟨rfl, between⟩, inside, same⟩
    exact ⟨c.y, y, between, inside, Or.inl (congrArg (·, c.y) same)⟩

/-- A loop over lines covers the pixels of all of them. -/
theorem loop_luma {ι : Type} {turns : List ι} {turn : ι → Draw} {pixels : ι → Set (Int × Int)}
    (h : ∀ i, Covers lumaBytes (turn i) (lumaPlaces fb (pixels i))) :
    Covers lumaBytes (.sequence (turns.map turn))
      (lumaPlaces fb {p | ∃ i ∈ turns, p ∈ pixels i}) := by
  refine (covers_sequence fun i _ => h i).congr ?_
  ext k
  simp only [lumaPlaces, Set.mem_ofPred_eq]
  constructor
  · rintro ⟨i, hi, p, hp, rest⟩
    exact ⟨p, ⟨i, hi, hp⟩, rest⟩
  · rintro ⟨p, ⟨i, hi, hp⟩, rest⟩
    exact ⟨i, hi, p, hp, rest⟩

theorem luma_congr {draw : Draw} {p q : Set (Int × Int)}
    (hp : Covers lumaBytes draw (lumaPlaces fb p)) (same : ∀ i j, (i, j) ∈ p ↔ (i, j) ∈ q) :
    Covers lumaBytes draw (lumaPlaces fb q) := by
  have eq : p = q := Set.ext fun k => same k.1 k.2
  exact eq ▸ hp

end Luma

end DrawnPixels
