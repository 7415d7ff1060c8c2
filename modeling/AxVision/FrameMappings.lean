import AxVision.MatchedTraces
import AxVision.PlaneLayouts

/-!
# Mapping, unmapping and releasing a video frame

The operations of `image_data.cpp` on one frame and its destruction write the
calls they make to the system into a log. What the system answers depends on
everything that was called before, so any subset of the calls may fail.
-/

namespace FrameMappings

open MatchedTraces PlaneLayouts

inductive MemId where
  | min
  | vdec
  | venc
  | ivps
  | ives
  | jenc
  | jdec
  | npu
  | sys
  | max
  deriving DecidableEq

/-- A pointer that is not null. -/
abbrev Address := { vir : UInt64 // vir ≠ 0 }

/-- What a successful `AX_SYS_MemAlloc` writes. -/
structure MemoryAddr where
  phyAddr : UInt64
  virAddr : UInt64
  phyAddr_ne : phyAddr ≠ 0
  virAddr_ne : virAddr ≠ 0

inductive SysCall where
  | mmap (phy : UInt64) (size : UInt32) (result : Option Address)
  | munmap (vir : UInt64) (size : UInt32)
  | memAlloc (size : UInt32) (result : Option MemoryAddr)
  | memFree (phy vir : UInt64)
  | free (vir : UInt64)
  | memcpy (source : UInt64) (size : UInt64)
  | ivpsReleaseChnFrame (grp chn : Int)
  | vdecReleaseChnFrame (grp chn : Int)

/-- The answers of the system: a function of the calls made so far. -/
structure Sys where
  mmap : List SysCall → UInt64 → UInt32 → Option Address
  munmap : List SysCall → UInt64 → UInt32 → Int
  memAlloc : List SysCall → UInt32 → Option MemoryAddr
  memFree : List SysCall → UInt64 → UInt64 → Int

structure FrameData where
  memId : MemId
  grp : Int
  chn : Int
  vframe : VideoFrame

def FrameData.setVir (frame : FrameData) (i : Fin 3) (vir : UInt64) : FrameData :=
  { frame with
    vframe := { frame.vframe with virAddr := Function.update frame.vframe.virAddr i vir } }

def FrameData.setPhy (frame : FrameData) (i : Fin 3) (phy : UInt64) : FrameData :=
  { frame with
    vframe := { frame.vframe with phyAddr := Function.update frame.vframe.phyAddr i phy } }

/-- What an operation leaves: the calls so far, the frame and the return value. -/
structure Done where
  log : List SysCall
  frame : FrameData
  ret : Int

/-- Unmap plane `k` and forget its address, as one turn of the rollback does. -/
def munmapPlane (layout : PlaneLayout) (k : Fin 3) (log : List SysCall) (frame : FrameData) :
    List SysCall × FrameData :=
  (log ++ [.munmap (frame.vframe.virAddr k) (layout.size k)], frame.setVir k 0)

def rollback (layout : PlaneLayout) :
    List (Fin 3) → List SysCall → FrameData → List SysCall × FrameData
  | [], log, frame => (log, frame)
  | k :: rest, log, frame =>
    let (log, frame) := munmapPlane layout k log frame
    rollback layout rest log frame

/-- The loop of `EnsureMapped`: `mapped` are the planes already done. -/
def mmapPlanes (sys : Sys) (layout : PlaneLayout) :
    List (Fin 3) → List (Fin 3) → List SysCall → FrameData → Done
  | _, [], log, frame => ⟨log, frame, 0⟩
  | mapped, i :: rest, log, frame =>
    let phy := frame.vframe.phyAddr i
    let size := layout.size i
    match sys.mmap log phy size with
    | none =>
      let (log, frame) := rollback layout mapped (log ++ [.mmap phy size none]) frame
      ⟨log, frame, -4⟩
    | some vir =>
      mmapPlanes sys layout (mapped ++ [i]) rest (log ++ [.mmap phy size (some vir)])
        (frame.setVir i vir)

/-- A frame with two planes gets the address of the second one. -/
def deriveUv (layout : PlaneLayout) (frame : FrameData) : FrameData :=
  if layout.planarNum = 2 then { frame with vframe := fillDerivedUvPhyAddr frame.vframe }
  else frame

def ensureMapped (sys : Sys) (log : List SysCall) (frame : FrameData) : Done :=
  match computePlaneLayout frame.vframe with
  | none => ⟨log, frame, -2⟩
  | some layout =>
    if frame.vframe.virAddr 0 ≠ 0 then ⟨log, frame, 0⟩
    else if frame.vframe.phyAddr 0 = 0 then ⟨log, frame, -3⟩
    else if frame.memId = .sys then ⟨log, frame, -5⟩
    else mmapPlanes sys layout [] layout.planes log (deriveUv layout frame)

/-- The loop of `Unmap`. A plane whose munmap fails is forgotten all the same. -/
def unmapPlanes (sys : Sys) (layout : PlaneLayout) :
    List (Fin 3) → Int → List SysCall → FrameData → Done
  | [], firstErr, log, frame => ⟨log, frame, firstErr⟩
  | i :: rest, firstErr, log, frame =>
    let vir := frame.vframe.virAddr i
    if vir = 0 then unmapPlanes sys layout rest firstErr log frame
    else
      let ret := sys.munmap log vir (layout.size i)
      let firstErr := if ret ≠ 0 ∧ firstErr = 0 then ret else firstErr
      let (log, frame) := munmapPlane layout i log frame
      unmapPlanes sys layout rest firstErr log frame

def unmap (sys : Sys) (log : List SysCall) (frame : FrameData) : Done :=
  match computePlaneLayout frame.vframe with
  | none => ⟨log, frame, -1⟩
  | some layout => unmapPlanes sys layout layout.planes 0 log (deriveUv layout frame)

def copyPlanes (layout : PlaneLayout) (frame : FrameData) : List SysCall :=
  layout.planes.map fun i => .memcpy (frame.vframe.virAddr i) (layout.size i).toUInt64

def copy2Host (sys : Sys) (log : List SysCall) (frame : FrameData) : Done :=
  match computePlaneLayout frame.vframe with
  | none => ⟨log, frame, -2⟩
  | some layout =>
    let done := ensureMapped sys log frame
    if done.ret ≠ 0 then done
    else ⟨done.log ++ copyPlanes layout done.frame, done.frame, 0⟩

/-- The rows `Copy2Mat` reads: `width` pixels of three bytes at each multiple of the stride. -/
def copyRows (vframe : VideoFrame) : List SysCall :=
  (List.range vframe.height.toNat).map fun row =>
    .memcpy (vframe.virAddr 0 + UInt64.ofNat row * (vframe.picStride.toUInt64 * 3))
      (vframe.width.toUInt64 * 3)

def copy2Mat (sys : Sys) (log : List SysCall) (frame : FrameData) : Done :=
  if frame.vframe.imgFormat ≠ .rgb888 then ⟨log, frame, -1⟩
  else if frame.vframe.phyAddr 0 = 0 ∨ frame.vframe.picStride = 0 then ⟨log, frame, -1⟩
  else
    let done := ensureMapped sys log frame
    if done.ret ≠ 0 then ⟨done.log, done.frame, -1⟩
    else ⟨done.log ++ copyRows done.frame.vframe, done.frame, 0⟩

/-- The loop of `Clone` that allocates and fills the planes of `dest`. -/
def allocPlanes (sys : Sys) (layout : PlaneLayout) (src : FrameData) :
    List (Fin 3) → List SysCall → FrameData → Done
  | [], log, dest => ⟨log, dest, 0⟩
  | i :: rest, log, dest =>
    let size := layout.size i
    match sys.memAlloc log size with
    | none => ⟨log ++ [.memAlloc size none], dest, -3⟩
    | some buf =>
      allocPlanes sys layout src rest
        (log ++ [.memAlloc size (some buf), .memcpy (src.vframe.virAddr i) size.toUInt64])
        ((dest.setPhy i buf.phyAddr).setVir i buf.virAddr)

/-- The frame `Clone` creates: the information of the source without its addresses. -/
def FrameData.copied (src : FrameData) : FrameData where
  memId := .sys
  grp := -1
  chn := -1
  vframe := { src.vframe with phyAddr := fun _ => 0, virAddr := fun _ => 0 }

/-- What `Clone` leaves: the source, the frame of `dest` where one was created. -/
structure Cloned where
  log : List SysCall
  src : FrameData
  dest : Option FrameData
  ret : Int

def clone (sys : Sys) (log : List SysCall) (src : FrameData) : Cloned :=
  match computePlaneLayout src.vframe with
  | none => ⟨log, src, none, -2⟩
  | some layout =>
    let mapped := ensureMapped sys log src
    if mapped.ret ≠ 0 then ⟨mapped.log, mapped.frame, none, -4⟩
    else
      let done := allocPlanes sys layout mapped.frame layout.planes mapped.log mapped.frame.copied
      ⟨done.log, mapped.frame, some done.frame, done.ret⟩

/-- One plane of `Destroy` for a frame of `AX_SYS_MemAlloc`. -/
def freePlane (sys : Sys) (i : Fin 3) (done : Done) : Done :=
  let phy := done.frame.vframe.phyAddr i
  let vir := done.frame.vframe.virAddr i
  if phy ≠ 0 then
    ⟨done.log ++ [.memFree phy vir], (done.frame.setPhy i 0).setVir i 0,
      sys.memFree done.log phy vir⟩
  else if vir ≠ 0 then ⟨done.log ++ [.free vir], done.frame.setVir i 0, done.ret⟩
  else done

/-- `AX_IVPS_ReleaseChnFrame` or `AX_VDEC_ReleaseChnFrame`, for the frames they gave out. -/
def releaseChnFrame (frame : FrameData) : List SysCall :=
  if frame.memId = .ivps then [.ivpsReleaseChnFrame frame.grp frame.chn]
  else if frame.memId = .vdec then [.vdecReleaseChnFrame frame.grp frame.chn]
  else []

def destroy (sys : Sys) (log : List SysCall) (frame : FrameData) : Done :=
  if frame.memId = .sys then
    freePlane sys 2 (freePlane sys 1 (freePlane sys 0 ⟨log, frame, 0⟩))
  else
    match storagePlanarNum frame.vframe.imgFormat with
    | none => ⟨log, frame, -1⟩
    | some (planarNum, bitNum) =>
      let (views, vframe) := destroyViews frame.vframe planarNum bitNum
      let unmapped := views.map fun view => SysCall.munmap view.vir view.size
      ⟨log ++ unmapped ++ releaseChnFrame frame, { frame with vframe }, 0⟩

inductive Op where
  | ensureMapped
  | unmap
  | copy2Host
  | copy2Mat
  | cloneSource
  deriving DecidableEq

def Op.apply (sys : Sys) (log : List SysCall) (frame : FrameData) :
    Op → List SysCall × FrameData
  | .ensureMapped => let done := FrameMappings.ensureMapped sys log frame; (done.log, done.frame)
  | .unmap => let done := FrameMappings.unmap sys log frame; (done.log, done.frame)
  | .copy2Host => let done := FrameMappings.copy2Host sys log frame; (done.log, done.frame)
  | .copy2Mat => let done := FrameMappings.copy2Mat sys log frame; (done.log, done.frame)
  | .cloneSource => let cloned := clone sys log frame; (cloned.log, cloned.src)

/-- Operations on a frame, one after the other. -/
def operate (sys : Sys) : List Op → List SysCall → FrameData → List SysCall × FrameData
  | [], log, frame => (log, frame)
  | op :: rest, log, frame =>
    let (log, frame) := op.apply sys log frame
    operate sys rest log frame

/-- All calls up to the end of a frame: the operations on it and its destruction. -/
def life (sys : Sys) (ops : List Op) (log : List SysCall) (frame : FrameData) : List SysCall :=
  let (log, frame) := operate sys ops log frame
  (destroy sys log frame).log

end FrameMappings
