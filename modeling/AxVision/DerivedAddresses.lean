import AxVision.MappingBalance
import Mathlib.Data.Set.Basic

/-!
# The derived address of a chroma plane

A frame without a UV address gets one behind its luma plane: the address plus
stride times height, which counts pixels, where the size of the luma plane
counts bytes modulo 2^32.
-/

namespace DerivedAddresses

open PlaneLayouts FrameMappings MappingBalance

/-- Physical memory from `phy` on, as an mmap asks for it. -/
structure Region where
  phy : UInt64
  size : UInt32
  deriving DecidableEq

def Region.bytes (r : Region) : Set UInt64 := {a | a - r.phy < r.size.toUInt64}

/-- The second region starts where the first one ends, and they share no byte. -/
structure Region.Meets (first second : Region) : Prop where
  adjacent : second.phy = first.phy + first.size.toUInt64
  disjoint : ∀ a ∈ first.bytes, a ∉ second.bytes

/-- The regions that some calls ask mmap for. -/
def requests (calls : List SysCall) : List Region :=
  calls.filterMap fun
    | .mmap phy size _ => some ⟨phy, size⟩
    | _ => none

/-- The region of a plane at the addresses of the frame. -/
def planeRegion (layout : PlaneLayout) (vframe : VideoFrame) (i : Fin 3) : Region :=
  ⟨vframe.phyAddr i, layout.size i⟩

section Mapping

variable {sys : Sys} {layout : PlaneLayout}

theorem requests_append (first second : List SysCall) :
    requests (first ++ second) = requests first ++ requests second :=
  List.filterMap_append

theorem rollback_requests (planes : List (Fin 3)) (log : List SysCall) (frame : FrameData) :
    requests (rollback layout planes log frame).1 = requests log := by
  induction planes generalizing log frame with
  | nil => rfl
  | cons k rest ih =>
    rw [rollback]
    refine (ih _ _).trans ?_
    exact (requests_append log _).trans (List.append_nil _)

/-- The loop asks for the regions of its planes in order, until an mmap fails. -/
theorem mmapPlanes_requests (sys : Sys) (layout : PlaneLayout) (mapped todo : List (Fin 3))
    (log : List SysCall) (frame : FrameData) :
    ∃ asked, asked <+: todo.map (planeRegion layout frame.vframe) ∧
      requests (mmapPlanes sys layout mapped todo log frame).log = requests log ++ asked := by
  induction todo generalizing mapped log frame with
  | nil => exact ⟨[], List.prefix_refl _, (List.append_nil _).symm⟩
  | cons i rest ih =>
    simp only [mmapPlanes]
    split
    · refine ⟨[planeRegion layout frame.vframe i], ?_, ?_⟩
      · exact List.prefix_append [_] _
      · rw [rollback_requests, requests_append]
        rfl
    · rename_i vir _
      obtain ⟨asked, front, same⟩ := ih (mapped ++ [i])
        (log ++ [.mmap (frame.vframe.phyAddr i) (layout.size i) (some vir)]) (frame.setVir i vir)
      refine ⟨planeRegion layout frame.vframe i :: asked, ?_, ?_⟩
      · exact List.prefix_cons_inj _ |>.mpr front
      · rw [same, requests_append, List.append_assoc]
        rfl

/-- `EnsureMapped` asks for the luma plane and then for the plane at the derived address. -/
theorem ensureMapped_requests (sys : Sys) {frame : FrameData}
    (accepted : computePlaneLayout frame.vframe = some layout) (two : layout.planarNum = 2)
    (log : List SysCall) :
    ∃ asked, asked <+: [planeRegion layout (fillDerivedUvPhyAddr frame.vframe) 0,
        planeRegion layout (fillDerivedUvPhyAddr frame.vframe) 1] ∧
      requests (ensureMapped sys log frame).log = requests log ++ asked := by
  obtain ⟨ret, same, -⟩ | ⟨layout', here, -, -, maps⟩ := ensureMapped_cases sys log frame
  · exact ⟨[], List.nil_prefix, by rw [same, List.append_nil]⟩
  · cases accepted.symm.trans here
    have derived := mmapPlanes_requests sys layout [] layout.planes log (deriveUv layout frame)
    rw [planes_two two, deriveUv, if_pos two] at derived
    rw [maps, planes_two two, deriveUv, if_pos two]
    exact derived

/-- `Destroy` leaves a frame of two planes with the address it has derived. -/
theorem destroy_phyAddr {frame : FrameData} {bitNum : UInt32} (owner : frame.memId ≠ .sys)
    (format : planarNumAndBits frame.vframe.imgFormat = some (2, bitNum)) (log : List SysCall) :
    (destroy sys log frame).frame.vframe.phyAddr = (destroyUvPhyAddr frame.vframe).phyAddr := by
  rw [destroy, if_neg owner, storagePlanarNum_eq, format]
  simp only [destroyViews]
  split
  · split
    · rfl
    · rfl
  · split
    · rfl
    · rfl

end Mapping

section Arithmetic

variable {vframe : VideoFrame} {layout : PlaneLayout} {bitNum : UInt32}

/-- The pixels a frame may have for as many of them to be the bytes of its luma plane. -/
def PixelsAreBytes (bitNum : UInt32) (pixels : Nat) : Prop :=
  bitNum = 8 ∧ pixels * 8 < 2 ^ 32 ∨ bitNum = 10 ∧ pixels < 4 ∨ bitNum = 16 ∧ pixels = 0

theorem bitNum_cases {fmt : ImgFormat} (format : planarNumAndBits fmt = some (2, bitNum)) :
    bitNum = 8 ∨ bitNum = 10 ∨ bitNum = 16 := by
  cases fmt with
  | other code => cases format
  | _ => cases format <;> decide

/-- The product taken modulo 2^32 before the division, against the pixels. -/
theorem scaled_eq_iff {pixels : Nat} (bits : bitNum = 8 ∨ bitNum = 10 ∨ bitNum = 16)
    (fits : pixels * bitNum.toNat / 8 < 2 ^ 32) :
    pixels * bitNum.toNat % 2 ^ 32 / 8 = pixels ↔ PixelsAreBytes bitNum pixels := by
  obtain rfl | rfl | rfl := bits
  · have exact8 : PixelsAreBytes 8 pixels ↔ pixels * 8 < 2 ^ 32 := by simp [PixelsAreBytes]
    rw [exact8]
    simp only [UInt32.reduceToNat] at fits ⊢
    omega
  · have exact10 : PixelsAreBytes 10 pixels ↔ pixels < 4 := by simp [PixelsAreBytes]
    rw [exact10]
    simp only [UInt32.reduceToNat] at fits ⊢
    have split := Nat.div_add_mod (pixels * 10) (2 ^ 32)
    have bound : pixels * 10 % 2 ^ 32 < 2 ^ 32 := Nat.mod_lt _ (by decide)
    constructor
    · intro same
      have turns : pixels * 10 / 2 ^ 32 = 0 := by omega
      omega
    · intro few
      have turns : pixels * 10 / 2 ^ 32 = 0 := Nat.div_eq_of_lt (by omega)
      omega
  · have exact16 : PixelsAreBytes 16 pixels ↔ pixels = 0 := by simp [PixelsAreBytes]
    rw [exact16]
    simp only [UInt32.reduceToNat] at fits ⊢
    omega

theorem meets_next (phy : UInt64) (first second : UInt32) :
    (⟨phy, first⟩ : Region).Meets ⟨phy + first.toUInt64, second⟩ := by
  refine ⟨rfl, ?_⟩
  intro a inFirst inSecond
  simp only [Region.bytes, Set.mem_ofPred_eq, UInt64.lt_iff_toNat_lt, UInt64.toNat_sub,
    UInt64.toNat_add, UInt32.toNat_toUInt64] at inFirst inSecond
  have := first.toNat_lt
  have := second.toNat_lt
  have := a.toNat_lt
  have := phy.toNat_lt
  omega

theorem fillDerivedUvPhyAddr_uv (missing : vframe.phyAddr 1 = 0) :
    (fillDerivedUvPhyAddr vframe).phyAddr 1 =
      vframe.phyAddr 0 + vframe.picStride.toUInt64 * vframe.height.toUInt64 := by
  simp only [fillDerivedUvPhyAddr, if_pos missing, Function.update_self]

theorem fillDerivedUvPhyAddr_luma : (fillDerivedUvPhyAddr vframe).phyAddr 0 = vframe.phyAddr 0 := by
  have apart : (0 : Fin 3) ≠ 1 := by decide
  unfold fillDerivedUvPhyAddr
  split
  · simp only [Function.update_of_ne apart]
  · rfl

theorem destroyUvPhyAddr_uv (missing : vframe.phyAddr 1 = 0) :
    (destroyUvPhyAddr vframe).phyAddr 1 =
      vframe.phyAddr 0 + (vframe.picStride * vframe.height).toUInt64 := by
  simp only [destroyUvPhyAddr, if_pos missing, Function.update_self]

/-- As long as the pixels are counted in 32 bits the two products are one. -/
theorem products_eq (small : vframe.picStride.toNat * vframe.height.toNat < 2 ^ 32) :
    vframe.picStride.toUInt64 * vframe.height.toUInt64 =
      (vframe.picStride * vframe.height).toUInt64 := by
  apply UInt64.toNat_inj.mp
  rw [UInt64.toNat_mul, UInt32.toNat_toUInt64, UInt32.toNat_toUInt64, UInt32.toNat_toUInt64,
    UInt32.toNat_mul, Nat.mod_eq_of_lt small, Nat.mod_eq_of_lt (by omega)]

theorem offset_eq_iff {bytes : UInt32} {pixels phy : UInt64} :
    phy + pixels = phy + bytes.toUInt64 ↔ bytes.toNat = pixels.toNat := by
  rw [UInt64.add_right_inj, ← UInt64.toNat_inj, UInt32.toNat_toUInt64, eq_comm]

end Arithmetic

section Frames

variable {layout : PlaneLayout} {bitNum : UInt32}

theorem twoPlanes_luma {vframe : VideoFrame} (accepted : computePlaneLayout vframe = some layout)
    (format : planarNumAndBits vframe.imgFormat = some (2, bitNum)) :
    layout.planarNum = 2 ∧
      layout.size 0 = vframe.picStride * vframe.height * bitNum / 8 := by
  obtain ⟨bits, switch, sizes⟩ := layout_cases accepted
  rw [format, Option.some.injEq, Prod.mk.injEq] at switch
  obtain ⟨two, luma, -⟩ | ⟨one, -⟩ := sizes
  · rw [switch.2]
    exact ⟨two, luma⟩
  · exact absurd (switch.1.trans one) (by decide)

/-- The UV address of a frame, and the regions mapped with it, against its luma plane. -/
structure Derived (layout : PlaneLayout) (frame : FrameData) : Prop where
  filled : (fillDerivedUvPhyAddr frame.vframe).phyAddr 1 =
    frame.vframe.phyAddr 0 + (layout.size 0).toUInt64
  destroyed : frame.memId ≠ .sys → ∀ (sys : Sys) (log : List SysCall),
    (destroy sys log frame).frame.vframe.phyAddr 1 =
      frame.vframe.phyAddr 0 + (layout.size 0).toUInt64
  mapped : ∀ (sys : Sys) (log : List SysCall), ∃ asked,
    requests (ensureMapped sys log frame).log = requests log ++ asked ∧
      asked <+: [⟨frame.vframe.phyAddr 0, layout.size 0⟩,
        ⟨frame.vframe.phyAddr 0 + (layout.size 0).toUInt64, layout.size 1⟩] ∧
      asked.Pairwise Region.Meets

/-- A frame of two planes whose luma bytes are counted in 32 bits gets the address
behind its luma plane if and only if its pixels are as many as its luma bytes. -/
theorem derived_iff {frame : FrameData} (accepted : computePlaneLayout frame.vframe = some layout)
    (format : planarNumAndBits frame.vframe.imgFormat = some (2, bitNum))
    (missing : frame.vframe.phyAddr 1 = 0)
    (fits : frame.vframe.picStride.toNat * frame.vframe.height.toNat * bitNum.toNat / 8 < 2 ^ 32) :
    Derived layout frame ↔
      PixelsAreBytes bitNum (frame.vframe.picStride.toNat * frame.vframe.height.toNat) := by
  have bits := bitNum_cases format
  have small : frame.vframe.picStride.toNat * frame.vframe.height.toNat < 2 ^ 32 := by
    refine Nat.lt_of_le_of_lt ?_ fits
    obtain rfl | rfl | rfl := bits <;> simp only [UInt32.reduceToNat] <;> omega
  obtain ⟨two, luma⟩ := twoPlanes_luma accepted format
  have bytes : (layout.size 0).toNat =
      frame.vframe.picStride.toNat * frame.vframe.height.toNat * bitNum.toNat % 2 ^ 32 / 8 := by
    rw [luma, UInt32.toNat_div, UInt32.toNat_mul, UInt32.toNat_mul, Nat.mod_eq_of_lt small]
    rfl
  have derived : (fillDerivedUvPhyAddr frame.vframe).phyAddr 1 =
      frame.vframe.phyAddr 0 + (layout.size 0).toUInt64 ↔
        PixelsAreBytes bitNum (frame.vframe.picStride.toNat * frame.vframe.height.toNat) := by
    rw [fillDerivedUvPhyAddr_uv missing, products_eq small, offset_eq_iff, UInt32.toNat_toUInt64,
      UInt32.toNat_mul, Nat.mod_eq_of_lt small, bytes]
    exact scaled_eq_iff bits fits
  constructor
  · intro whole
    exact derived.mp whole.filled
  · intro exactly
    have filled := derived.mpr exactly
    refine ⟨filled, ?_, ?_⟩
    · intro owner sys log
      rw [destroy_phyAddr owner format log, destroyUvPhyAddr_uv missing, ← products_eq small,
        ← fillDerivedUvPhyAddr_uv missing]
      exact filled
    · intro sys log
      obtain ⟨asked, front, same⟩ := ensureMapped_requests sys accepted two log
      rw [planeRegion, planeRegion, filled, fillDerivedUvPhyAddr_luma] at front
      refine ⟨asked, same, front, ?_⟩
      refine List.Pairwise.sublist front.sublist ?_
      rw [List.pairwise_pair]
      exact meets_next _ _ _

/-- A decoded frame that has no UV address and is not mapped. -/
def decodedFrame (imgFormat : ImgFormat) (stride height : UInt32) : FrameData where
  memId := .vdec
  grp := 0
  chn := 0
  vframe := ⟨imgFormat, stride, height, stride, 0, fun | 0 => 4096 | _ => 0, fun _ => 0⟩

theorem nv12_derived :
    Derived ⟨2, fun | 0 => 8 | 1 => 4 | 2 => 0⟩ (decodedFrame .yuv420SemiPlanar 4 2) ↔
      PixelsAreBytes 8 (4 * 2) :=
  derived_iff rfl rfl rfl (by decide)

/-- Eight pixels of sixteen bits are sixteen bytes, and the address is eight bytes on. -/
theorem p010_overlaps :
    ¬∀ (frame : FrameData) (layout : PlaneLayout) (bitNum : UInt32),
      computePlaneLayout frame.vframe = some layout →
      planarNumAndBits frame.vframe.imgFormat = some (2, bitNum) →
      frame.vframe.phyAddr 1 = 0 →
      frame.vframe.picStride.toNat * frame.vframe.height.toNat * bitNum.toNat / 8 < 2 ^ 32 →
      Derived layout frame := by
  intro derived
  have filled := (derived (decodedFrame .yuv420SemiPlanar10BitP010 4 2)
    ⟨2, fun | 0 => 16 | 1 => 8 | 2 => 0⟩ 16 rfl rfl rfl (by decide)).filled
  exact absurd filled (by decide)

end Frames

end DerivedAddresses
