import Mathlib.Algebra.GroupWithZero.Nat
import Mathlib.Logic.Function.Basic

/-!
# The plane layout of a video frame and its two copies

`computePlaneLayout` gives the number of planes of a frame and the bytes of each
one; mapping and unmapping take their sizes from it. `FrameData::Destroy` has
its own switches and its own arithmetic. All products are taken modulo 2^32,
as the source takes them.
-/

namespace PlaneLayouts

-- The literals of the plane numbers and of the plane counts.
scoped instance planeBound : NeZero 3 := ⟨by decide⟩
scoped instance countBound : NeZero 4 := ⟨by decide⟩

/-- The image formats that the switches name. `other` is any further code. -/
inductive ImgFormat where
  | yuv420Planar
  | yuv420SemiPlanar
  | yuv420SemiPlanarVu
  | yuv422SemiPlanar
  | yuv422SemiPlanarVu
  | yuv420SemiPlanar10BitP101010
  | yuv422SemiPlanar10BitP101010
  | yuv420SemiPlanar10BitP010
  | yuv422SemiPlanar10BitP010
  | yuv444Packed
  | rgb888
  | bgr888
  | rgb565
  | bgr565
  | rgba8888
  | argb8888
  | argb4444
  | argb1555
  | argb8565
  | rgba5551
  | rgba4444
  | rgba5658
  | abgr4444
  | abgr1555
  | abgr8888
  | abgr8565
  | bgra8888
  | bgra5551
  | bgra4444
  | bgra5658
  | yuv400
  | other (code : Nat)
  deriving DecidableEq

/-- The fields of `AX_VIDEO_FRAME_T` that mapping reads; `picStride` is the luma stride. -/
structure VideoFrame where
  imgFormat : ImgFormat
  width : UInt32
  height : UInt32
  picStride : UInt32
  frameSize : UInt32
  phyAddr : Fin 3 → UInt64
  virAddr : Fin 3 → UInt64

structure PlaneLayout where
  planarNum : Fin 4
  size : Fin 3 → UInt32

/-- The planes the loops of the source visit, in their order. -/
def PlaneLayout.planes (layout : PlaneLayout) : List (Fin 3) :=
  (List.finRange 3).take layout.planarNum

def planarNumAndBits : ImgFormat → Option (Fin 4 × UInt32)
  | .yuv420Planar | .yuv420SemiPlanar | .yuv420SemiPlanarVu
  | .yuv422SemiPlanar | .yuv422SemiPlanarVu => some (2, 8)
  | .yuv420SemiPlanar10BitP101010 | .yuv422SemiPlanar10BitP101010 => some (2, 10)
  | .yuv420SemiPlanar10BitP010 | .yuv422SemiPlanar10BitP010 => some (2, 16)
  | .yuv444Packed | .rgb888 | .bgr888 | .rgb565 | .bgr565 | .rgba8888 | .argb8888
  | .argb4444 | .argb1555 | .argb8565 | .rgba5551 | .rgba4444 | .rgba5658
  | .abgr4444 | .abgr1555 | .abgr8888 | .abgr8565
  | .bgra8888 | .bgra5551 | .bgra4444 | .bgra5658 | .yuv400 => some (1, 0)
  | .other _ => none

def isYuv422SemiPlanar (fmt : ImgFormat) : Bool :=
  fmt = .yuv422SemiPlanar ∨ fmt = .yuv422SemiPlanarVu ∨
    fmt = .yuv422SemiPlanar10BitP101010 ∨ fmt = .yuv422SemiPlanar10BitP010

def computePlaneLayout (vframe : VideoFrame) : Option PlaneLayout :=
  match planarNumAndBits vframe.imgFormat with
  | none => none
  | some (planarNum, bitNum) =>
    let base := vframe.picStride * vframe.height
    if planarNum = 2 then
      let luma := base * bitNum / 8
      let chroma := if isYuv422SemiPlanar vframe.imgFormat then luma else luma / 2
      some { planarNum, size := fun | 0 => luma | 1 => chroma | 2 => 0 }
    else
      let packed := if vframe.frameSize ≠ 0 then vframe.frameSize else base * 3
      some { planarNum, size := fun | 0 => packed | _ => 0 }

/-- The UV address from the luma plane, with the product taken in 64 bits. -/
def fillDerivedUvPhyAddr (vframe : VideoFrame) : VideoFrame :=
  if vframe.phyAddr 1 = 0 then
    { vframe with
      phyAddr := Function.update vframe.phyAddr 1
        (vframe.phyAddr 0 + vframe.picStride.toUInt64 * vframe.height.toUInt64) }
  else vframe

/-- The format switch that `FrameData::Destroy` has of its own. -/
def storagePlanarNum : ImgFormat → Option (Fin 4 × UInt32)
  | .yuv420Planar | .yuv420SemiPlanar | .yuv420SemiPlanarVu
  | .yuv422SemiPlanar | .yuv422SemiPlanarVu => some (2, 8)
  | .yuv420SemiPlanar10BitP101010 | .yuv422SemiPlanar10BitP101010 => some (2, 10)
  | .yuv420SemiPlanar10BitP010 | .yuv422SemiPlanar10BitP010 => some (2, 16)
  | .yuv444Packed | .rgb888 | .bgr888 | .rgb565 | .bgr565 | .rgba8888 | .argb8888
  | .argb4444 | .argb1555 | .argb8565 | .rgba5551 | .rgba4444 | .rgba5658
  | .abgr4444 | .abgr1555 | .abgr8888 | .abgr8565
  | .bgra8888 | .bgra5551 | .bgra4444 | .bgra5658 | .yuv400 => some (1, 0)
  | .other _ => none

/-- `Destroy` fills a missing UV address with a product taken in 32 bits. -/
def destroyUvPhyAddr (vframe : VideoFrame) : VideoFrame :=
  if vframe.phyAddr 1 = 0 then
    { vframe with
      phyAddr := Function.update vframe.phyAddr 1
        (vframe.phyAddr 0 + (vframe.picStride * vframe.height).toUInt64) }
  else vframe

/-- The address and the size of a mapped plane. -/
structure View where
  vir : UInt64
  size : UInt32
  deriving DecidableEq

/-- The views `Destroy` gives to munmap, and the frame it leaves. -/
def destroyViews (vframe : VideoFrame) (planarNum : Fin 4) (bitNum : UInt32) :
    List View × VideoFrame :=
  let pixelSize := vframe.picStride * vframe.height
  let vir := vframe.virAddr
  match planarNum with
  | 2 =>
    let vframe := destroyUvPhyAddr vframe
    let pixelSize := pixelSize * bitNum / 8
    let fmt := vframe.imgFormat
    if fmt = .yuv422SemiPlanar ∨ fmt = .yuv422SemiPlanarVu ∨
        fmt = .yuv422SemiPlanar10BitP101010 ∨ fmt = .yuv422SemiPlanar10BitP010 then
      if vir 0 ≠ 0 ∧ vir 1 ≠ 0 then
        ([⟨vir 0, pixelSize⟩, ⟨vir 1, pixelSize⟩],
          { vframe with virAddr := Function.update (Function.update vir 0 0) 1 0 })
      else ([], vframe)
    else
      if vir 0 ≠ 0 ∧ vir 1 ≠ 0 then
        ([⟨vir 0, pixelSize⟩, ⟨vir 1, pixelSize / 2⟩],
          { vframe with virAddr := Function.update (Function.update vir 0 0) 1 0 })
      else ([], vframe)
  | 3 =>
    if vir 0 ≠ 0 ∧ vir 1 ≠ 0 ∧ vir 2 ≠ 0 then
      ([⟨vir 0, pixelSize⟩, ⟨vir 1, pixelSize / 2⟩, ⟨vir 2, pixelSize / 2⟩],
        { vframe with virAddr := fun _ => 0 })
    else ([], vframe)
  | _ =>
    if vframe.frameSize ≠ 0 then
      if vir 0 ≠ 0 then
        ([⟨vir 0, vframe.frameSize⟩], { vframe with virAddr := Function.update vir 0 0 })
      else ([], vframe)
    else
      if vir 0 ≠ 0 then
        ([⟨vir 0, pixelSize * 3⟩], { vframe with virAddr := Function.update vir 0 0 })
      else ([], vframe)

theorem storagePlanarNum_eq (fmt : ImgFormat) : storagePlanarNum fmt = planarNumAndBits fmt := by
  cases fmt with
  | other code => rfl
  | _ => rfl

/-- A format the layout accepts has two planes, or one and no bit number. -/
theorem planarNum_cases {fmt : ImgFormat} {planarNum : Fin 4} {bitNum : UInt32}
    (h : planarNumAndBits fmt = some (planarNum, bitNum)) :
    planarNum = 2 ∨ planarNum = 1 := by
  cases fmt with
  | other code => cases h
  | _ =>
    cases h
    first
    | exact .inl rfl
    | exact .inr rfl

theorem planes_two {layout : PlaneLayout} (two : layout.planarNum = 2) :
    layout.planes = [0, 1] := by
  simp only [PlaneLayout.planes, two]
  rfl

theorem planes_one {layout : PlaneLayout} (one : layout.planarNum = 1) :
    layout.planes = [0] := by
  simp only [PlaneLayout.planes, one]
  rfl

theorem planes_nodup (layout : PlaneLayout) : layout.planes.Nodup :=
  (List.nodup_finRange 3).sublist (List.take_sublist _ _)

/-- An accepted frame has two planes of `bitNum` bits or one packed plane. -/
theorem layout_cases {vframe : VideoFrame} {layout : PlaneLayout}
    (accepted : computePlaneLayout vframe = some layout) :
    ∃ bitNum, planarNumAndBits vframe.imgFormat = some (layout.planarNum, bitNum) ∧
      (layout.planarNum = 2 ∧
          layout.size 0 = vframe.picStride * vframe.height * bitNum / 8 ∧
          layout.size 1 = (if isYuv422SemiPlanar vframe.imgFormat then layout.size 0
            else layout.size 0 / 2) ∨
        layout.planarNum = 1 ∧
          layout.size 0 = (if vframe.frameSize ≠ 0 then vframe.frameSize
            else vframe.picStride * vframe.height * 3)) := by
  simp only [computePlaneLayout] at accepted
  split at accepted
  · cases accepted
  · rename_i planarNum bitNum switch
    obtain rfl | rfl := planarNum_cases switch
    · rw [if_pos rfl] at accepted
      cases accepted
      exact ⟨bitNum, switch, .inl ⟨rfl, rfl, rfl⟩⟩
    · rw [if_neg (by decide)] at accepted
      cases accepted
      exact ⟨bitNum, switch, .inr ⟨rfl, rfl⟩⟩

theorem destroyUvPhyAddr_imgFormat (vframe : VideoFrame) :
    (destroyUvPhyAddr vframe).imgFormat = vframe.imgFormat := by
  unfold destroyUvPhyAddr
  split
  · rfl
  · rfl

/-- `Destroy` computes the planes and the sizes of the layout: a frame with a
view of every plane has exactly these unmapped. -/
theorem destroyViews_mapped {vframe : VideoFrame} {layout : PlaneLayout} {planarNum : Fin 4}
    {bitNum : UInt32} (accepted : computePlaneLayout vframe = some layout)
    (storage : storagePlanarNum vframe.imgFormat = some (planarNum, bitNum))
    (mapped : ∀ i ∈ layout.planes, vframe.virAddr i ≠ 0) :
    (destroyViews vframe planarNum bitNum).1 =
      layout.planes.map fun i => ⟨vframe.virAddr i, layout.size i⟩ := by
  obtain ⟨bits, switch, sizes⟩ := layout_cases accepted
  rw [storagePlanarNum_eq, switch] at storage
  cases storage
  obtain ⟨two, luma, chroma⟩ | ⟨one, packed⟩ := sizes
  · rw [planes_two two] at mapped ⊢
    have views : vframe.virAddr 0 ≠ 0 ∧ vframe.virAddr 1 ≠ 0 := by
      constructor
      · exact mapped 0 (by simp)
      · exact mapped 1 (by simp)
    simp only [two, destroyViews, destroyUvPhyAddr_imgFormat, if_pos views]
    by_cases half : isYuv422SemiPlanar vframe.imgFormat
    · rw [if_pos half] at chroma
      rw [if_pos (of_decide_eq_true half)]
      simp [chroma, luma]
    · rw [if_neg half] at chroma
      rw [if_neg (by simpa [isYuv422SemiPlanar] using half)]
      simp [chroma, luma]
  · rw [planes_one one] at mapped ⊢
    have view : vframe.virAddr 0 ≠ 0 := mapped 0 (by simp)
    simp only [one, destroyViews, if_pos view]
    by_cases given : vframe.frameSize ≠ 0
    · rw [if_pos given] at packed ⊢
      simp [packed]
    · rw [if_neg given] at packed ⊢
      simp [packed]

/-- `Destroy` unmaps nothing of a frame without views. -/
theorem destroyViews_away {vframe : VideoFrame} {layout : PlaneLayout} {planarNum : Fin 4}
    {bitNum : UInt32} (accepted : computePlaneLayout vframe = some layout)
    (storage : storagePlanarNum vframe.imgFormat = some (planarNum, bitNum))
    (away : ∀ i ∈ layout.planes, vframe.virAddr i = 0) :
    (destroyViews vframe planarNum bitNum).1 = [] := by
  obtain ⟨bits, switch, sizes⟩ := layout_cases accepted
  rw [storagePlanarNum_eq, switch] at storage
  cases storage
  obtain ⟨two, -⟩ | ⟨one, -⟩ := sizes
  · have view : vframe.virAddr 0 = 0 := away 0 (by simp [planes_two two])
    simp [two, destroyViews, view]
  · have view : vframe.virAddr 0 = 0 := away 0 (by simp [planes_one one])
    simp [one, destroyViews, view]

end PlaneLayouts
