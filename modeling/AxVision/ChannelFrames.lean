import AxVision.MappingBalance
import AxVision.TransitionRuns

/-!
# The frames of hardware channels and their images

`VdecHelper` and `IvpsHelper::Process` wrap a frame of a channel into an image.
Images of one frame are copied and dropped, and the frame is destroyed with the
last of them. The frame belongs to the channel until its release call.
-/

namespace ChannelFrames

open PlaneLayouts FrameMappings MappingBalance TransitionRuns

/-- What a successful `GetChnFrame` writes. -/
structure FrameInfo where
  vframe : VideoFrame
  endOfStream : Bool

structure ImageData where
  endOfStream : Bool
  imgFormat : ImgFormat
  width : UInt32
  height : UInt32
  data : FrameData

def FrameInfo.image (info : FrameInfo) (memId : MemId) (grp chn : Int) : ImageData where
  endOfStream := info.endOfStream
  imgFormat := info.vframe.imgFormat
  width := info.vframe.width
  height := info.vframe.height
  data := ⟨memId, grp, chn, info.vframe⟩

/-- `IvpsHelper::Process` from the return code of `AX_IVPS_SendFrame` and the answer
of `AX_IVPS_GetChnFrame`: the code it returns and the image it leaves in `dest_frame`. -/
def process (ivpsGrp : Int) (nOutChnNum : Nat) (sendFrame : Int)
    (getChnFrame : Except Int FrameInfo) (dest : Option ImageData) : Int × Option ImageData :=
  if nOutChnNum ≠ 1 then (-1, dest)
  else if sendFrame ≠ 0 then (-1, dest)
  else
    match getChnFrame with
    | .error _ => (-1, dest)
    | .ok info => (0, some (info.image .ivps ivpsGrp 0))

/-- The codes of `AX_VDEC_GetChnFrame` that the receive loop tells apart. -/
inductive VdecError where
  | bufEmpty
  | queueEmpty
  | unexist
  | flowEnd
  | strmError
  | notPerm
  | unexpected (code : Int)
  deriving DecidableEq

/-- The receive loop goes on after this code. -/
def VdecError.continues : VdecError → Bool
  | .bufEmpty | .queueEmpty | .unexist | .strmError | .notPerm => true
  | .flowEnd | .unexpected _ => false

/-- The decoder's frames are not mapped, whatever their addresses say. -/
def FrameInfo.unmapped (info : FrameInfo) : FrameInfo :=
  { info with vframe := { info.vframe with virAddr := fun _ => 0 } }

/-- `RecvStreamFunc` on the answers it gets until `is_stop_` is set: the images
it hands to the callback. -/
def recvStream (vdGrp : Int) : List (Except VdecError FrameInfo) → List ImageData
  | [] => []
  | .ok info :: rest => info.unmapped.image .vdec vdGrp 0 :: recvStream vdGrp rest
  | .error e :: rest => if e.continues then recvStream vdGrp rest else []

/-- A frame that a helper got from its channel, and the call that gives it back. -/
inductive Obtained : FrameData → SysCall → Prop where
  | vdec {vdGrp : Int} {answers : List (Except VdecError FrameInfo)} {image : ImageData} :
      image ∈ recvStream vdGrp answers → Obtained image.data (.vdecReleaseChnFrame vdGrp 0)
  | ivps {ivpsGrp : Int} {nOutChnNum : Nat} {sendFrame : Int}
      {getChnFrame : Except Int FrameInfo} {dest : Option ImageData} {image : ImageData} :
      process ivpsGrp nOutChnNum sendFrame getChnFrame dest = (0, some image) →
      Obtained image.data (.ivpsReleaseChnFrame ivpsGrp 0)

/-- A frame with the number of images that refer to it. -/
structure Shared where
  refs : Nat
  log : List SysCall
  frame : FrameData

inductive Use where
  | copy
  | drop
  | operate (op : Op)
  deriving DecidableEq

/-- A frame without images is gone; dropping the last image destroys it. -/
def Shared.step (sys : Sys) (s : Shared) : Use → Option Shared
  | .copy => if s.refs = 0 then none else some { s with refs := s.refs + 1 }
  | .drop =>
    match s.refs with
    | 0 => none
    | 1 => let done := destroy sys s.log s.frame; some ⟨0, done.log, done.frame⟩
    | refs + 2 => some { s with refs := refs + 1 }
  | .operate op =>
    if s.refs = 0 then none
    else let (log, frame) := op.apply sys s.log s.frame; some ⟨s.refs, log, frame⟩

/-- The uses of the images of a frame, from its first image on. -/
def images (sys : Sys) (frame : FrameData) : Machine Shared Use where
  start := ⟨1, [], frame⟩
  step := Shared.step sys

/-- A format that the switches of the source name. -/
def named : ImgFormat → Bool
  | .other _ => false
  | _ => true

def isChnRelease : SysCall → Bool
  | .ivpsReleaseChnFrame .. | .vdecReleaseChnFrame .. => true
  | _ => false

def chnReleases (log : List SysCall) : List SysCall := log.filter isChnRelease

section Operations

variable {sys : Sys} {layout : PlaneLayout} {log : List SysCall} {frame : FrameData}

/-- Work on a frame keeps its channel and its format and releases nothing to a channel. -/
structure Worked (before after : List SysCall × FrameData) : Prop where
  releases : chnReleases after.1 = chnReleases before.1
  memId : after.2.memId = before.2.memId
  grp : after.2.grp = before.2.grp
  chn : after.2.chn = before.2.chn
  format : after.2.vframe.imgFormat = before.2.vframe.imgFormat

theorem Worked.refl (s : List SysCall × FrameData) : Worked s s := ⟨rfl, rfl, rfl, rfl, rfl⟩

theorem Worked.trans {s t u : List SysCall × FrameData} (first : Worked s t)
    (second : Worked t u) : Worked s u where
  releases := second.releases.trans first.releases
  memId := second.memId.trans first.memId
  grp := second.grp.trans first.grp
  chn := second.chn.trans first.chn
  format := second.format.trans first.format

theorem Worked.call {before after : List SysCall × FrameData} (worked : Worked before after) :
    releaseChnFrame after.2 = releaseChnFrame before.2 := by
  simp only [releaseChnFrame, worked.memId, worked.grp, worked.chn]

theorem Worked.calls {calls : List SysCall} (silent : ∀ e ∈ calls, isChnRelease e = false) :
    Worked (log, frame) (log ++ calls, frame) := by
  constructor
  · have none : chnReleases calls = [] := by
      apply List.filter_eq_nil_iff.mpr
      intro e mem releases
      rw [silent e mem] at releases
      cases releases
    simp only [chnReleases, List.filter_append] at none ⊢
    rw [none, List.append_nil]
  · rfl
  · rfl
  · rfl
  · rfl

/-- One call of the loops and the address it writes. -/
theorem Worked.setVir {e : SysCall} (silent : isChnRelease e = false) (i : Fin 3) (vir : UInt64) :
    Worked (log, frame) (log ++ [e], frame.setVir i vir) := by
  have call : Worked (log, frame) (log ++ [e], frame) := by
    apply Worked.calls
    intro e' mem
    rwa [List.mem_singleton.mp mem]
  exact call.trans ⟨rfl, rfl, rfl, rfl, rfl⟩

theorem deriveUv_worked (layout : PlaneLayout) (log : List SysCall) (frame : FrameData) :
    Worked (log, frame) (log, deriveUv layout frame) := by
  unfold deriveUv fillDerivedUvPhyAddr
  split
  · constructor
    · rfl
    · rfl
    · rfl
    · rfl
    · dsimp only
      split
      · rfl
      · rfl
  · exact Worked.refl _

theorem rollback_worked (planes : List (Fin 3)) (log : List SysCall) (frame : FrameData) :
    Worked (log, frame) (rollback layout planes log frame) := by
  induction planes generalizing log frame with
  | nil => exact Worked.refl _
  | cons k rest ih => exact (Worked.setVir rfl k 0).trans (ih _ _)

theorem mmapPlanes_worked (mapped todo : List (Fin 3)) (log : List SysCall) (frame : FrameData) :
    Worked (log, frame) ((mmapPlanes sys layout mapped todo log frame).log,
      (mmapPlanes sys layout mapped todo log frame).frame) := by
  induction todo generalizing mapped log frame with
  | nil => exact Worked.refl _
  | cons i rest ih =>
    rw [mmapPlanes]
    split
    · apply Worked.trans _ (rollback_worked mapped _ frame)
      apply Worked.calls
      intro e mem
      rw [List.mem_singleton.mp mem]
      rfl
    · exact (Worked.setVir rfl i _).trans (ih _ _ _)

theorem unmapPlanes_worked (planes : List (Fin 3)) (firstErr : Int) (log : List SysCall)
    (frame : FrameData) :
    Worked (log, frame) ((unmapPlanes sys layout planes firstErr log frame).log,
      (unmapPlanes sys layout planes firstErr log frame).frame) := by
  induction planes generalizing firstErr log frame with
  | nil => exact Worked.refl _
  | cons i rest ih =>
    rw [unmapPlanes]
    split
    · exact ih _ _ _
    · exact (Worked.setVir rfl i 0).trans (ih _ _ _)

theorem ensureMapped_worked (sys : Sys) (log : List SysCall) (frame : FrameData) :
    Worked (log, frame) ((ensureMapped sys log frame).log, (ensureMapped sys log frame).frame) := by
  obtain ⟨ret, same, -⟩ | ⟨layout, -, -, -, maps⟩ := ensureMapped_cases sys log frame
  · rw [same]
    exact Worked.refl _
  · rw [maps]
    exact (deriveUv_worked layout log frame).trans (mmapPlanes_worked [] layout.planes log _)

theorem unmap_worked (sys : Sys) (log : List SysCall) (frame : FrameData) :
    Worked (log, frame) ((unmap sys log frame).log, (unmap sys log frame).frame) := by
  obtain same | ⟨layout, -, loop⟩ := unmap_cases sys log frame
  · rw [same]
    exact Worked.refl _
  · rw [loop]
    exact (deriveUv_worked layout log frame).trans (unmapPlanes_worked layout.planes 0 log _)

/-- The loop of `Clone` allocates and copies. -/
theorem allocPlanes_releases (src : FrameData) (planes : List (Fin 3)) (log : List SysCall)
    (dest : FrameData) :
    chnReleases (allocPlanes sys layout src planes log dest).log = chnReleases log := by
  induction planes generalizing log dest with
  | nil => rfl
  | cons i rest ih =>
    simp only [allocPlanes]
    split
    · simp [chnReleases, isChnRelease]
    · rw [ih]
      simp [chnReleases, isChnRelease]

theorem apply_worked (op : Op) (sys : Sys) (log : List SysCall) (frame : FrameData) :
    Worked (log, frame) (op.apply sys log frame) := by
  cases op with
  | ensureMapped => exact ensureMapped_worked sys log frame
  | unmap => exact unmap_worked sys log frame
  | copy2Host =>
    simp only [Op.apply, copy2Host]
    split
    · exact Worked.refl _
    · rename_i layout accepted
      split
      · exact ensureMapped_worked sys log frame
      · apply (ensureMapped_worked sys log frame).trans
        apply Worked.calls
        intro e mem
        obtain ⟨i, -, rfl⟩ := List.mem_map.mp mem
        rfl
  | copy2Mat =>
    simp only [Op.apply, copy2Mat]
    split
    · exact Worked.refl _
    · split
      · exact Worked.refl _
      · split
        · exact ensureMapped_worked sys log frame
        · apply (ensureMapped_worked sys log frame).trans
          apply Worked.calls
          intro e mem
          obtain ⟨row, -, rfl⟩ := List.mem_map.mp mem
          rfl
  | cloneSource =>
    simp only [Op.apply, clone]
    split
    · exact Worked.refl _
    · rename_i layout accepted
      split
      · exact ensureMapped_worked sys log frame
      · apply (ensureMapped_worked sys log frame).trans
        exact ⟨allocPlanes_releases _ _ _ _, rfl, rfl, rfl, rfl⟩

theorem storagePlanarNum_isSome (fmt : ImgFormat) : (storagePlanarNum fmt).isSome = named fmt := by
  cases fmt with
  | other code => rfl
  | _ => rfl

/-- The destruction of a frame releases it to its channel if `Destroy` names its format. -/
theorem destroy_releases (sys : Sys) (log : List SysCall) (frame : FrameData)
    (owner : frame.memId ≠ .sys) :
    chnReleases (destroy sys log frame).log =
      chnReleases log ++ if named frame.vframe.imgFormat then releaseChnFrame frame else [] := by
  have accepts := storagePlanarNum_isSome frame.vframe.imgFormat
  simp only [destroy, if_neg owner]
  split
  · rename_i unsupported
    rw [unsupported] at accepts
    rw [← accepts]
    exact (List.append_nil _).symm
  · rename_i planarNum bitNum storage
    rw [storage] at accepts
    have views : chnReleases ((destroyViews frame.vframe planarNum bitNum).1.map fun view =>
        SysCall.munmap view.vir view.size) = [] := by
      apply List.filter_eq_nil_iff.mpr
      intro e mem
      obtain ⟨view, -, rfl⟩ := List.mem_map.mp mem
      exact Bool.false_ne_true
    have own : chnReleases (releaseChnFrame frame) = releaseChnFrame frame := by
      unfold releaseChnFrame
      split
      · rfl
      · split
        · rfl
        · rfl
    rw [← accepts, Option.isSome_some, if_pos rfl]
    simp only [chnReleases, List.filter_append] at views own ⊢
    rw [views, own, List.append_nil]

end Operations

section Images

variable {sys : Sys} {frame : FrameData} {call : SysCall}

theorem recvStream_image {vdGrp : Int} {answers : List (Except VdecError FrameInfo)}
    {image : ImageData} (mem : image ∈ recvStream vdGrp answers) :
    ∃ info : FrameInfo, image = info.unmapped.image .vdec vdGrp 0 := by
  induction answers with
  | nil => cases mem
  | cons answer rest ih =>
    cases answer with
    | ok info =>
      obtain rfl | mem := List.mem_cons.mp mem
      · exact ⟨info, rfl⟩
      · exact ih mem
    | error e =>
      rw [recvStream] at mem
      split at mem
      · exact ih mem
      · cases mem

theorem process_image {ivpsGrp : Int} {nOutChnNum : Nat} {sendFrame : Int}
    {getChnFrame : Except Int FrameInfo} {dest : Option ImageData} {image : ImageData}
    (success : process ivpsGrp nOutChnNum sendFrame getChnFrame dest = (0, some image)) :
    ∃ info : FrameInfo, image = info.image .ivps ivpsGrp 0 := by
  simp only [process] at success
  split at success
  · cases success
  · split at success
    · cases success
    · split at success
      · cases success
      · rename_i info
        cases success
        exact ⟨info, rfl⟩

/-- The release call of an obtained frame is the one its destruction makes. -/
theorem Obtained.release (obtained : Obtained frame call) :
    frame.memId ≠ .sys ∧ releaseChnFrame frame = [call] := by
  cases obtained with
  | vdec mem =>
    obtain ⟨info, rfl⟩ := recvStream_image mem
    exact ⟨fun same => (by cases same), rfl⟩
  | ivps success =>
    obtain ⟨info, rfl⟩ := process_image success
    exact ⟨fun same => (by cases same), rfl⟩

/-- What has been released of a frame after some uses of its images. -/
structure Kept (frame : FrameData) (s : Shared) : Prop where
  live : s.refs ≠ 0 → Worked ([], frame) (s.log, s.frame)
  gone : s.refs = 0 → chnReleases s.log =
    if named frame.vframe.imgFormat then releaseChnFrame frame else []

theorem step_kept (owner : frame.memId ≠ .sys) {s t : Shared} {use : Use} (kept : Kept frame s)
    (step : s.step sys use = some t) : Kept frame t := by
  obtain ⟨refs, log, current⟩ := s
  cases use with
  | copy =>
    simp only [Shared.step] at step
    split at step
    · cases step
    · rename_i live
      cases step
      exact ⟨fun _ => kept.live live, fun zero => absurd zero (Nat.succ_ne_zero refs)⟩
  | operate op =>
    simp only [Shared.step] at step
    split at step
    · cases step
    · rename_i live
      cases step
      exact ⟨fun _ => (kept.live live).trans (apply_worked op sys log current),
        fun zero => absurd zero live⟩
  | drop =>
    match refs, step with
    | 1, step =>
      cases step
      have worked : Worked ([], frame) (log, current) := kept.live Nat.one_ne_zero
      have still : current.memId ≠ .sys := by
        rw [worked.memId]
        exact owner
      have last := destroy_releases sys log current still
      have same : releaseChnFrame current = releaseChnFrame frame := worked.call
      rw [worked.releases, worked.format, same] at last
      exact ⟨fun live => absurd rfl live, fun _ => last⟩
    | refs + 2, step =>
      cases step
      exact ⟨fun _ => kept.live (Nat.succ_ne_zero _), fun zero => absurd zero (Nat.succ_ne_zero refs)⟩

/-- When the last image of a channel's frame is gone, the frame has been given
back exactly once if `Destroy` names its format, and never otherwise. -/
theorem released_once_iff (sys : Sys) (obtained : Obtained frame call) {uses : List Use}
    {last : Shared} (run : (images sys frame).exec (images sys frame).start uses = some last)
    (gone : last.refs = 0) :
    chnReleases last.log = [call] ↔ named frame.vframe.imgFormat = true := by
  obtain ⟨owner, own⟩ := obtained.release
  have start : Kept frame (images sys frame).start :=
    ⟨fun _ => Worked.refl _, fun zero => absurd zero Nat.one_ne_zero⟩
  have kept : Kept frame last :=
    Reachable.invariant start (fun _ _ _ kept step => step_kept owner kept step)
      (Machine.exec_reachable run)
  rw [kept.gone gone, own]
  constructor
  · intro released
    by_contra unnamed
    rw [if_neg unnamed] at released
    cases released
  · intro named
    exact if_pos named

/-- A frame of an IVPS channel in some format. -/
def channelInfo (imgFormat : ImgFormat) : FrameInfo where
  vframe :=
    { imgFormat, width := 64, height := 64, picStride := 64, frameSize := 0,
      phyAddr := fun i => if i = 0 then 4096 else 0, virAddr := fun _ => 0 }
  endOfStream := false

def channelFrame (imgFormat : ImgFormat) : FrameData := ⟨.ivps, 3, 0, (channelInfo imgFormat).vframe⟩

theorem channelFrame_obtained (imgFormat : ImgFormat) :
    Obtained (channelFrame imgFormat) (.ivpsReleaseChnFrame 3 0) :=
  have success : process 3 1 0 (.ok (channelInfo imgFormat)) none =
    (0, some ((channelInfo imgFormat).image .ivps 3 0)) := rfl
  .ivps success

/-- Two images of an NV12 frame, one of them read, and both dropped. -/
theorem semiPlanar_released :
    ((images failingOnce (channelFrame .yuv420SemiPlanar)).exec ⟨1, [], channelFrame .yuv420SemiPlanar⟩
      [.copy, .operate .copy2Host, .drop, .drop]).map (fun last => chnReleases last.log) =
        some [.ivpsReleaseChnFrame 3 0] := by
  cases run : (images failingOnce (channelFrame .yuv420SemiPlanar)).exec
      ⟨1, [], channelFrame .yuv420SemiPlanar⟩ [.copy, .operate .copy2Host, .drop, .drop] with
  | none => cases run
  | some last =>
    have gone : last.refs = 0 := by
      cases run
      rfl
    exact congrArg some ((released_once_iff failingOnce (channelFrame_obtained _) run gone).mpr rfl)

/-- A frame in a further format is destroyed and never given back. -/
theorem further_format_kept :
    ¬∀ (sys : Sys) (frame : FrameData) (call : SysCall), Obtained frame call →
      ∀ (uses : List Use) (last : Shared),
        (images sys frame).exec (images sys frame).start uses = some last → last.refs = 0 →
          chnReleases last.log = [call] := by
  intro always
  have released := always failingOnce (channelFrame (.other 13)) _ (channelFrame_obtained _) [.drop] _
    rfl rfl
  cases released

end Images

end ChannelFrames
