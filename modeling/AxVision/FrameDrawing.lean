import AxVision.PlaneLayouts
import AxVision.WriteLogs
import Mathlib.Data.Int.Init
import Mathlib.Data.List.Rotate

/-!
# Drawing into a frame

The drawing functions write bytes into the luma and the chroma plane of a frame.
Each one is the list of its writes in their order, a write being a place in a
plane and a byte. The integers are those of the source where no sum leaves `int`.
-/

namespace FrameDrawing

open PlaneLayouts WriteLogs

/-- `YUVColor`; its array `val` is not read by the drawing functions. -/
structure YUVColor where
  y : UInt8
  u : UInt8
  v : UInt8
  deriving DecidableEq, Repr

inductive Plane where
  | y
  | uv
  deriving DecidableEq, Repr

/-- A byte of a plane by its offset from the plane's first byte. -/
abbrev Place := Plane × Int

abbrev Write := Place × UInt8

/-- `IsFrameValid`, for a frame that is given. -/
def isFrameValid (frame : VideoFrame) : Bool :=
  if frame.virAddr 0 = 0 then false
  else if frame.width = 0 ∨ frame.height = 0 then false
  else if frame.picStride < frame.width then false
  else true

structure FrameBuf where
  stride : Int
  width : Int
  height : Int
  deriving DecidableEq, Repr

def getFrameBuf (frame : VideoFrame) : FrameBuf where
  stride := frame.picStride.toInt32.toInt
  width := frame.width.toInt32.toInt
  height := frame.height.toInt32.toInt

/-- `x & ~1`. -/
def roundDown (x : Int) : Int := x / 2 * 2

/-- `y | 1`. -/
def roundUpOdd (y : Int) : Int := y / 2 * 2 + 1

/-- `if (a > b) std::swap(a, b)`. -/
def inOrder (a b : Int) : Int × Int := if a > b then (b, a) else (a, b)

/-- The values of `for (i = first; i <= last; i++)`. -/
def countUp (first last : Int) : List Int :=
  (List.range (last - first + 1).toNat).map fun (i : Nat) => first + i

/-- The values of `for (i = first; i <= last; i += 2)`. -/
def countUpByTwo (first last : Int) : List Int :=
  (List.range ((last - first) / 2 + 1).toNat).map fun (i : Nat) => first + 2 * i

def memset (plane : Plane) (dst : Int) (value : UInt8) (n : Int) : List Write :=
  (List.range n.toNat).map fun (i : Nat) => ((plane, dst + i), value)

def memcpy (plane : Plane) (dst : Int) (src : List UInt8) : List Write :=
  src.zipIdx.map fun b => ((plane, dst + b.2), b.1)

section Pattern

/-- 64 pairs of the chroma bytes. -/
def fillPattern (c : YUVColor) : List UInt8 := (List.replicate 64 [c.u, c.v]).flatten

/-- The static variables of `UvPattern128`; the pattern is that of the colour kept. -/
structure UvPattern where
  kPat : List UInt8
  kCached : YUVColor
  filled : kPat = fillPattern kCached

def UvPattern.start : UvPattern where
  kPat := List.replicate 128 0
  kCached := ⟨0, 0, 0⟩
  filled := by decide

def uvPattern128 (pattern : UvPattern) (c : YUVColor) : UvPattern :=
  if pattern.kCached.y ≠ c.y ∨ pattern.kCached.u ≠ c.u ∨ pattern.kCached.v ≠ c.v then
    ⟨fillPattern c, c, rfl⟩
  else pattern

/-- Whatever colours were drawn before, the pattern is that of the colour asked for. -/
theorem uvPattern128_kPat (pattern : UvPattern) (c : YUVColor) :
    (uvPattern128 pattern c).kPat = fillPattern c := by
  unfold uvPattern128
  split
  · rfl
  · rename_i same
    simp only [not_or, not_not] at same
    rw [pattern.filled, fillPattern, fillPattern, same.2.1, same.2.2]

end Pattern

abbrev Draw := Action UvPattern Place UInt8

/-- The second loop: pairs of chroma bytes while two bytes are left. -/
def copyPairs (c : YUVColor) : Nat → Int → List Write
  | n + 2, dst => ((.uv, dst), c.u) :: ((.uv, dst + 1), c.v) :: copyPairs c n (dst + 2)
  | _, _ => []

/-- The first loop: the pattern while 128 bytes are left. -/
def copyPatterns (pat : List UInt8) (c : YUVColor) (uvBytes : Nat) (dst : Int) : List Write :=
  if 128 ≤ uvBytes then memcpy .uv dst pat ++ copyPatterns pat c (uvBytes - 128) (dst + 128)
  else copyPairs c uvBytes dst
termination_by uvBytes
decreasing_by omega

def drawHorizLine (fb : FrameBuf) (x1 x2 y : Int) (c : YUVColor) : Draw :=
  if y < 0 ∨ fb.height ≤ y then .nothing
  else
    let (x1, x2) := inOrder x1 x2
    let x1 := max 0 x1
    let x2 := min (fb.width - 1) x2
    if x1 > x2 then .nothing
    else
      let uvRow := y / 2 * fb.stride
      let uvStart := roundDown x1
      let uvBytes := x2 - uvStart + 2
      fun pattern =>
        let pattern := uvPattern128 pattern c
        (memset .y (y * fb.stride + x1) c.y (x2 - x1 + 1) ++
          copyPatterns pattern.kPat c uvBytes.toNat (uvRow + uvStart), pattern)

/-- The rows whose chroma bytes `DrawVertLine` writes. -/
def chromaRows (y1 y2 : Int) : List Int :=
  countUpByTwo (if roundUpOdd y1 > y2 then y1 else roundUpOdd y1) y2

/-- The two chroma bytes of a pixel. -/
def chromaPair (fb : FrameBuf) (x y : Int) (c : YUVColor) : List Write :=
  [((.uv, y / 2 * fb.stride + roundDown x), c.u), ((.uv, y / 2 * fb.stride + roundDown x + 1), c.v)]

def drawVertLine (fb : FrameBuf) (x y1 y2 : Int) (c : YUVColor) : Draw :=
  if x < 0 ∨ fb.width ≤ x then .nothing
  else
    let (y1, y2) := inOrder y1 y2
    let y1 := max 0 y1
    let y2 := min (fb.height - 1) y2
    if y1 > y2 then .nothing
    else
      .log ((countUp y1 y2).map (fun y => ((.y, y * fb.stride + x), c.y)) ++
        (chromaRows y1 y2).flatMap fun y => chromaPair fb x y c)

def drawHorizBand (fb : FrameBuf) (x1 x2 y lineWidth : Int) (c : YUVColor) : Draw :=
  .sequence ((countUp 0 (lineWidth - 1)).map fun i => drawHorizLine fb x1 x2 (y + i) c)

def drawVertBand (fb : FrameBuf) (x y1 y2 lineWidth : Int) (c : YUVColor) : Draw :=
  .sequence ((countUp 0 (lineWidth - 1)).map fun i => drawVertLine fb (x + i) y1 y2 c)

/-- The writes of `SetPixel` once the frame is known to be valid. -/
def putPixel (fb : FrameBuf) (x y : Int) (c : YUVColor) : List Write :=
  if x < 0 ∨ fb.width ≤ x ∨ y < 0 ∨ fb.height ≤ y then []
  else ((.y, y * fb.stride + x), c.y) :: chromaPair fb x y c

def setPixel (frame : VideoFrame) (x y : Int) (color : YUVColor) : Draw :=
  if isFrameValid frame then .log (putPixel (getFrameBuf frame) x y color) else .nothing

/-- `if (lineWidth < 1) lineWidth = 1`. -/
def atLeastOne (lineWidth : Int) : Int := if lineWidth < 1 then 1 else lineWidth

section Lines

variable (frame : VideoFrame) (color : YUVColor)

/-- `DrawLine` with `y1 == y2`. -/
def drawLineHoriz (x1 x2 y1 lineWidth : Int) : Draw :=
  let fb := getFrameBuf frame
  if y1 < 0 ∨ fb.height ≤ y1 then .nothing
  else
    let (x1, x2) := inOrder x1 x2
    .sequence ((countUp 0 (lineWidth - 1)).map fun i =>
      let yy := y1 + i - lineWidth / 2
      if 0 ≤ yy ∧ yy < fb.height then
        let sx := max 0 x1
        let ex := min (fb.width - 1) x2
        if sx ≤ ex then drawHorizLine fb sx ex yy color else .nothing
      else .nothing)

/-- `DrawLine` with `x1 == x2`. -/
def drawLineVert (x1 y1 y2 lineWidth : Int) : Draw :=
  let fb := getFrameBuf frame
  if x1 < 0 ∨ fb.width ≤ x1 then .nothing
  else
    let (y1, y2) := inOrder y1 y2
    .sequence ((countUp 0 (lineWidth - 1)).map fun i =>
      let xx := x1 + i - lineWidth / 2
      if 0 ≤ xx ∧ xx < fb.width then
        let sy := max 0 y1
        let ey := min (fb.height - 1) y2
        if sy ≤ ey then drawVertLine fb xx sy ey color else .nothing
      else .nothing)

/-- The turns that are left, the point and `eps`, where `dx > dy`. -/
def flatPoints (dx dy xstep ystep : Int) : Nat → Int → Int → Int → List (Int × Int)
  | 0, _, _, _ => []
  | turns + 1, x0, y0, eps =>
    let eps := eps + dy
    (x0, y0) ::
      if dx ≤ 2 * eps then flatPoints dx dy xstep ystep turns (x0 + xstep) (y0 + ystep) (eps - dx)
      else flatPoints dx dy xstep ystep turns (x0 + xstep) y0 eps

/-- The same where `dx <= dy`. -/
def steepPoints (dx dy xstep ystep : Int) : Nat → Int → Int → Int → List (Int × Int)
  | 0, _, _, _ => []
  | turns + 1, x0, y0, eps =>
    let eps := eps + dx
    (x0, y0) ::
      if dy ≤ 2 * eps then steepPoints dx dy xstep ystep turns (x0 + xstep) (y0 + ystep) (eps - dy)
      else steepPoints dx dy xstep ystep turns x0 (y0 + ystep) eps

/-- The points of one of the parallel lines of `DrawLine`. -/
def bresenham (x1 y1 x2 y2 off : Int) : List (Int × Int) :=
  let dx : Int := (x2 - x1).natAbs
  let dy : Int := (y2 - y1).natAbs
  if dx > dy then
    flatPoints dx dy (if x1 < x2 then 1 else -1) (if y1 + off < y2 + off then 1 else -1)
      (dx + 1).toNat x1 (y1 + off) 0
  else
    steepPoints dx dy (if x1 + off < x2 + off then 1 else -1) (if y1 < y2 then 1 else -1)
      (dy + 1).toNat (x1 + off) y1 0

def drawLine (x1 y1 x2 y2 lineWidth : Int) : Draw :=
  if isFrameValid frame then
    let lineWidth := atLeastOne lineWidth
    if y1 = y2 then drawLineHoriz frame color x1 x2 y1 lineWidth
    else if x1 = x2 then drawLineVert frame color x1 y1 y2 lineWidth
    else
      .sequence ((countUp 0 (lineWidth - 1)).map fun i =>
        .sequence ((bresenham x1 y1 x2 y2 (i - lineWidth / 2)).map fun p =>
          setPixel frame p.1 p.2 color))
  else .nothing

def drawClosedLines (points : List (Int × Int)) (lineWidth : Int) : Draw :=
  if points.length < 2 then .nothing
  else
    .sequence ((points.zip (points.rotate 1)).map fun p =>
      drawLine frame color p.1.1 p.1.2 p.2.1 p.2.2 lineWidth)

end Lines

def drawRect (frame : VideoFrame) (x1 y1 x2 y2 : Int) (color : YUVColor) (lineWidth : Int) :
    Draw :=
  if isFrameValid frame then
    let lineWidth := atLeastOne lineWidth
    let (x1, x2) := inOrder x1 x2
    let (y1, y2) := inOrder y1 y2
    let fb := getFrameBuf frame
    .sequence [
      drawHorizBand fb x1 x2 y1 lineWidth color,
      drawHorizBand fb x1 x2 (y2 - lineWidth + 1) lineWidth color,
      drawVertBand fb x1 (y1 + lineWidth) (y2 - lineWidth) lineWidth color,
      drawVertBand fb (x2 - lineWidth + 1) (y1 + lineWidth) (y2 - lineWidth) lineWidth color]
  else .nothing

/-- The number is a value of `int`. -/
def isInt (v : Int) : Bool := -2147483648 ≤ v && v ≤ 2147483647

/-- The `int` results of `DrawRect` and of the loops of its bands, for ends in order. -/
def rectResults (x1 y1 x2 y2 lineWidth : Int) : List Int :=
  [y2 - lineWidth, y2 - lineWidth + 1, y1 + lineWidth, x2 - lineWidth, x2 - lineWidth + 1] ++
    (countUp 0 (lineWidth - 1)).flatMap fun i =>
      [y1 + i, y2 - lineWidth + 1 + i, x1 + i, x2 - lineWidth + 1 + i]

/-- `DrawRect` on values of `int`; `none` where one of its results is none. -/
def drawRectInt (frame : VideoFrame) (x1 y1 x2 y2 : Int32) (color : YUVColor)
    (lineWidth : Int32) : Option Draw :=
  let results := rectResults (min x1.toInt x2.toInt) (min y1.toInt y2.toInt)
    (max x1.toInt x2.toInt) (max y1.toInt y2.toInt) (atLeastOne lineWidth.toInt)
  if isFrameValid frame && !results.all isInt then none
  else some (drawRect frame x1.toInt y1.toInt x2.toInt y2.toInt color lineWidth.toInt)

/-- The loop of `DrawCircle`: the lines it draws, as their two ends and their row. -/
def circleLines (cx cy x y err : Int) : List (Int × Int × Int) :=
  if x < y then []
  else
    (cx - x, cx + x, cy - y) :: (cx - x, cx + x, cy + y) ::
      (cx - y, cx + y, cy - x) :: (cx - y, cx + y, cy + x) ::
        if err ≤ 0 then circleLines cx cy x (y + 1) (err + 2 * (y + 1) + 1)
        else circleLines cx cy (x - 1) (y + 1) (err + 2 * (y + 1 - (x - 1)) + 1)
termination_by (x + 1 - y).toNat

def drawCircle (frame : VideoFrame) (cx cy radius : Int) (color : YUVColor) : Draw :=
  if isFrameValid frame then
    let fb := getFrameBuf frame
    if cx < 0 ∨ fb.width ≤ cx ∨ cy < 0 ∨ fb.height ≤ cy ∨ radius ≤ 0 then .nothing
    else
      .sequence ((circleLines cx cy radius 0 (1 - radius)).map fun line =>
        drawHorizLine fb line.1 line.2.1 line.2.2 color)
  else .nothing

/-- A call of one of the drawing functions. -/
inductive Call where
  | setPixel (x y : Int) (color : YUVColor)
  | drawLine (x1 y1 x2 y2 : Int) (color : YUVColor) (lineWidth : Int)
  | drawClosedLines (points : List (Int × Int)) (color : YUVColor) (lineWidth : Int)
  | drawRect (x1 y1 x2 y2 : Int) (color : YUVColor) (lineWidth : Int)
  | drawCircle (cx cy radius : Int) (color : YUVColor)

def Call.draw (frame : VideoFrame) : Call → Draw
  | .setPixel x y color => FrameDrawing.setPixel frame x y color
  | .drawLine x1 y1 x2 y2 color lineWidth =>
    FrameDrawing.drawLine frame color x1 y1 x2 y2 lineWidth
  | .drawClosedLines points color lineWidth =>
    FrameDrawing.drawClosedLines frame color points lineWidth
  | .drawRect x1 y1 x2 y2 color lineWidth =>
    FrameDrawing.drawRect frame x1 y1 x2 y2 color lineWidth
  | .drawCircle cx cy radius color => FrameDrawing.drawCircle frame cx cy radius color

end FrameDrawing
