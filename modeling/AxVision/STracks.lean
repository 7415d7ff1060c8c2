import AxVision.KalmanFilter

/-!
# Single tracks

`STrack`: one box over time, with its Kalman state and its place in the life of
a track.
-/

namespace STracks

open DetectionTypes KalmanFilter

universe u

variable {F : Type u}

inductive TrackState where
  | new
  | tracked
  | lost
  | removed
  deriving DecidableEq, Repr

structure Tlwh (F : Type u) where
  left : F
  top : F
  width : F
  height : F
  deriving DecidableEq

structure Tlbr (F : Type u) where
  left : F
  top : F
  right : F
  bottom : F
  deriving DecidableEq

/-- `rawTlwh` is the member `_tlwh`. The Kalman state means nothing before the
first activation. -/
structure STrack (F : Type u) where
  isActivated : Bool
  trackId : Int
  state : TrackState
  rawTlwh : Tlwh F
  tlwh : Tlwh F
  tlbr : Tlbr F
  frameId : Int
  trackletLen : Int
  startFrame : Int
  mean : KalMean F
  covariance : KalCova F
  score : F

variable [Scalar F]

def tlbrToTlwh (b : Tlbr F) : Tlwh F :=
  ⟨b.left, b.top, b.right - b.left, b.bottom - b.top⟩

def tlwhToXyah (b : Tlwh F) : DetectBox F :=
  ![b.left + b.width / Scalar.ofRat 2, b.top + b.height / Scalar.ofRat 2, b.width / b.height,
    b.height]

/-- `static_tlwh`: the box itself while the track is new, else the box of the mean. -/
def STrack.staticTlwh (t : STrack F) : STrack F :=
  if t.state = .new then { t with tlwh := t.rawTlwh }
  else
    let width := t.mean 2 * t.mean 3
    { t with
      tlwh := ⟨t.mean 0 - width / Scalar.ofRat 2, t.mean 1 - t.mean 3 / Scalar.ofRat 2, width,
        t.mean 3⟩ }

def STrack.staticTlbr (t : STrack F) : STrack F :=
  { t with
    tlbr := ⟨t.tlwh.left, t.tlwh.top, t.tlwh.width + t.tlwh.left, t.tlwh.height + t.tlwh.top⟩ }

/-- The constructor. -/
def STrack.ofTlwh (box : Tlwh F) (score : F) : STrack F :=
  STrack.staticTlbr <| STrack.staticTlwh
    { isActivated := false
      trackId := 0
      state := .new
      rawTlwh := box
      tlwh := box
      tlbr := ⟨box.left, box.top, box.width, box.height⟩
      frameId := 0
      trackletLen := 0
      startFrame := 0
      mean := fun _ => Scalar.ofRat 0
      covariance := fun _ _ => Scalar.ofRat 0
      score := score }

/-- The box is refreshed while the state is still the old one. -/
def STrack.activate (t : STrack F) (frameId trackId : Int) : STrack F :=
  let mc := initiate (tlwhToXyah t.rawTlwh)
  let t := STrack.staticTlbr <| STrack.staticTlwh
    { t with trackId := trackId, mean := mc.1, covariance := mc.2 }
  { t with
    trackletLen := 0
    state := .tracked
    isActivated := true
    frameId := frameId
    startFrame := frameId }

def STrack.reActivate (lltSolve : Mat F 4 4 → Mat F 4 8 → Mat F 4 8) (t newTrack : STrack F)
    (frameId : Int) : STrack F :=
  let mc := KalmanFilter.update lltSolve t.mean t.covariance (tlwhToXyah newTrack.tlwh)
  let t := STrack.staticTlbr <| STrack.staticTlwh { t with mean := mc.1, covariance := mc.2 }
  { t with
    trackletLen := 0
    state := .tracked
    isActivated := true
    frameId := frameId
    score := newTrack.score }

def STrack.update (lltSolve : Mat F 4 4 → Mat F 4 8 → Mat F 4 8) (t newTrack : STrack F)
    (frameId : Int) : STrack F :=
  let mc := KalmanFilter.update lltSolve t.mean t.covariance (tlwhToXyah newTrack.tlwh)
  let t := STrack.staticTlbr <| STrack.staticTlwh
    { t with
      frameId := frameId
      trackletLen := t.trackletLen + 1
      mean := mc.1
      covariance := mc.2 }
  { t with state := .tracked, isActivated := true, score := newTrack.score }

def STrack.markLost (t : STrack F) : STrack F := { t with state := .lost }

def STrack.markRemoved (t : STrack F) : STrack F := { t with state := .removed }

def STrack.endFrame (t : STrack F) : Int := t.frameId

/-- One pass of `multi_predict`: a track that is not tracked loses its height velocity. -/
def STrack.predict (t : STrack F) : STrack F :=
  let mean := if t.state = .tracked then t.mean else Function.update t.mean 7 (Scalar.ofRat 0)
  let mc := KalmanFilter.predict mean t.covariance
  { t with mean := mc.1, covariance := mc.2 }

end STracks
