import AxVision.TrackAssociation

/-!
# One update of the tracker

`BYTETracker::update` in the order of its steps. The pointers of the code point
into `tracked_stracks` and `lost_stracks`; here both lists stand one after the
other in one store, and a pointer is an index into it. The intermediate values
have names, so that results can speak of what one call matched.
-/

namespace ByteTracker

open DetectionTypes KalmanFilter STracks TrackAssociation

universe u

variable {F : Type u}

structure BYTETrackerConfig (F : Type u) where
  frameRate : Int := 30
  trackBuffer : Int := 30
  trackThresh : F
  highThresh : F
  matchThresh : F

structure BYTETracker (F : Type u) where
  trackThresh : F
  highThresh : F
  matchThresh : F
  frameId : Int
  maxTimeLost : Int
  trackedStracks : List (STrack F)
  lostStracks : List (STrack F)
  removedStracks : List (STrack F)

def BYTETracker.ofConfig [Scalar F] (config : BYTETrackerConfig F) : BYTETracker F where
  trackThresh := config.trackThresh
  highThresh := config.highThresh
  matchThresh := config.matchThresh
  frameId := 0
  maxTimeLost := Scalar.toInt (F := F)
    (Scalar.ofRat config.frameRate / Scalar.ofRat 30 * Scalar.ofRat config.trackBuffer)
  trackedStracks := []
  lostStracks := []
  removedStracks := []

abbrev Store (F : Type u) := List (STrack F)

def idAt (store : Store F) (p : Nat) : Int := (store[p]?.map STrack.trackId).getD 0

def stateAt (store : Store F) (p : Nat) : Option TrackState := store[p]?.map STrack.state

def deref (store : Store F) (ptrs : List Nat) : List (STrack F) :=
  ptrs.filterMap fun p => store[p]?

/-- The store and the vectors filled by the association loops. -/
structure Locals (F : Type u) where
  store : Store F
  activated : List (STrack F) := []
  refind : List (STrack F) := []
  lost : List (STrack F) := []
  removed : List (STrack F) := []

/-- A pointer and the detection it is matched with. -/
def resolve (ptrs : List Nat) (detections : List (STrack F)) (pairs : List (Nat × Nat)) :
    List (Nat × STrack F) :=
  pairs.filterMap fun m =>
    match ptrs[m.1]?, detections[m.2]? with
    | some p, some det => some (p, det)
    | _, _ => none

section Update

variable [Scalar F]

def newDetection (o : Object F) : STrack F :=
  .ofTlwh (tlbrToTlwh ⟨o.rect.x, o.rect.y, o.rect.x + o.rect.width, o.rect.y + o.rect.height⟩)
    o.prob

def applyMatch (backend : Backend F) (frameId : Int) (l : Locals F) (m : Nat × STrack F) :
    Locals F :=
  match l.store[m.1]? with
  | none => l
  | some track =>
    if track.state = .tracked then
      let track := track.update backend.lltSolve m.2 frameId
      { l with store := l.store.set m.1 track, activated := l.activated ++ [track] }
    else
      let track := track.reActivate backend.lltSolve m.2 frameId
      { l with store := l.store.set m.1 track, refind := l.refind ++ [track] }

def markLostAt (l : Locals F) (p : Nat) : Locals F :=
  match l.store[p]? with
  | none => l
  | some track =>
    if track.state ≠ .lost then
      { l with store := l.store.set p track.markLost, lost := l.lost ++ [track.markLost] }
    else l

def confirmMatch (backend : Backend F) (frameId : Int) (l : Locals F) (m : Nat × STrack F) :
    Locals F :=
  match l.store[m.1]? with
  | none => l
  | some track =>
    let track := track.update backend.lltSolve m.2 frameId
    { l with store := l.store.set m.1 track, activated := l.activated ++ [track] }

def removeAt (l : Locals F) (p : Nat) : Locals F :=
  match l.store[p]? with
  | none => l
  | some track =>
    { l with store := l.store.set p track.markRemoved, removed := l.removed ++ [track.markRemoved] }

/-- Step 4: each new track takes the next id. -/
def initNew (highThresh : F) (frameId : Int) : List (STrack F) → Int → List (STrack F) × Int
  | [], nextTrackId => ([], nextTrackId)
  | det :: rest, nextTrackId =>
    if Scalar.lt det.score highThresh then initNew highThresh frameId rest nextTrackId
    else
      let tail := initNew highThresh frameId rest (nextTrackId + 1)
      (det.activate frameId nextTrackId :: tail.1, tail.2)

variable (backend : Backend F) (t : BYTETracker F) (objects : List (Object F))

def detectionsHigh : List (STrack F) :=
  (objects.map newDetection).filter fun d => Scalar.le t.trackThresh d.score

def detectionsLow : List (STrack F) :=
  (objects.map newDetection).filter fun d => !Scalar.le t.trackThresh d.score

def start : Store F := t.trackedStracks ++ t.lostStracks

def isActivatedAt (p : Nat) : Bool :=
  ((t.trackedStracks[p]?).map STrack.isActivated).getD false

def unconfirmed : List Nat :=
  (List.range t.trackedStracks.length).filter fun p => !isActivatedAt t p

def trackedPtrs : List Nat :=
  (List.range t.trackedStracks.length).filter fun p => isActivatedAt t p

def lostPtrs : List Nat :=
  (List.range t.lostStracks.length).map fun i => t.trackedStracks.length + i

/-- `joint_stracks` of pointers. -/
def strackPool : List Nat :=
  KeyedLists.union (idAt (start t)) (trackedPtrs t) (lostPtrs t)

/-- `multi_predict`. -/
def predicted : Store F :=
  (strackPool t).foldl (fun store p => store.modify p STrack.predict) (start t)

def firstAssignment : Assignment :=
  linearAssignment backend
    (iouDistance (deref (predicted t) (strackPool t)) (detectionsHigh t objects))
    (strackPool t).length (detectionsHigh t objects).length t.matchThresh

def afterFirst : Locals F :=
  (resolve (strackPool t) (detectionsHigh t objects) (firstAssignment backend t objects).pairs).foldl
    (applyMatch backend (t.frameId + 1)) { store := predicted t }

/-- `detections_cp`: the high detections the first association left over. -/
def detectionsCp : List (STrack F) :=
  (firstAssignment backend t objects).unmatchedB.filterMap fun j => (detectionsHigh t objects)[j]?

def rTracked : List Nat :=
  ((firstAssignment backend t objects).unmatchedA.filterMap fun i => (strackPool t)[i]?).filter
    fun p => stateAt (afterFirst backend t objects).store p = some .tracked

def secondAssignment : Assignment :=
  linearAssignment backend
    (iouDistance (deref (afterFirst backend t objects).store (rTracked backend t objects))
      (detectionsLow t objects))
    (rTracked backend t objects).length (detectionsLow t objects).length (Scalar.ofRat (1 / 2))

def afterSecond : Locals F :=
  (resolve (rTracked backend t objects) (detectionsLow t objects)
    (secondAssignment backend t objects).pairs).foldl
    (applyMatch backend (t.frameId + 1)) (afterFirst backend t objects)

/-- The pointers that neither association matched. -/
def missed : List Nat :=
  (secondAssignment backend t objects).unmatchedA.filterMap fun i =>
    (rTracked backend t objects)[i]?

def afterLost : Locals F :=
  (missed backend t objects).foldl markLostAt (afterSecond backend t objects)

def thirdAssignment : Assignment :=
  linearAssignment backend
    (iouDistance (deref (afterLost backend t objects).store (unconfirmed t))
      (detectionsCp backend t objects))
    (unconfirmed t).length (detectionsCp backend t objects).length (Scalar.ofRat (7 / 10))

def afterThird : Locals F :=
  ((thirdAssignment backend t objects).unmatchedA.filterMap fun i => (unconfirmed t)[i]?).foldl
    removeAt
    ((resolve (unconfirmed t) (detectionsCp backend t objects)
      (thirdAssignment backend t objects).pairs).foldl
      (confirmMatch backend (t.frameId + 1)) (afterLost backend t objects))

def freshDetections : List (STrack F) :=
  (thirdAssignment backend t objects).unmatchedB.filterMap fun j =>
    (detectionsCp backend t objects)[j]?

def newTracks (nextTrackId : Int) : List (STrack F) × Int :=
  initNew t.highThresh (t.frameId + 1) (freshDetections backend t objects) nextTrackId

def activatedStracks (nextTrackId : Int) : List (STrack F) :=
  (afterThird backend t objects).activated ++ (newTracks backend t objects nextTrackId).1

def refindStracks : List (STrack F) := (afterThird backend t objects).refind

def overdue (track : STrack F) : Bool := t.maxTimeLost < t.frameId + 1 - track.endFrame

/-- `lost_stracks` at the end of step 4, the overdue tracks marked. -/
def lostMarked : List (STrack F) :=
  ((afterThird backend t objects).store.drop t.trackedStracks.length).map fun track =>
    if overdue t track then track.markRemoved else track

def removedNow : List (STrack F) :=
  (afterThird backend t objects).removed ++
    ((afterThird backend t objects).store.drop t.trackedStracks.length).filterMap fun track =>
      if overdue t track then some track.markRemoved else none

def stillTracked : List (STrack F) :=
  ((afterThird backend t objects).store.take t.trackedStracks.length).filter fun track =>
    track.state = .tracked

/-- `tracked_stracks` before the removal of duplicates. -/
def trackedMerged (nextTrackId : Int) : List (STrack F) :=
  jointStracks
    (jointStracks (stillTracked backend t objects) (activatedStracks backend t objects nextTrackId))
    (refindStracks backend t objects)

/-- `lost_stracks` before the removal of duplicates. -/
def lostMerged (nextTrackId : Int) : List (STrack F) :=
  subStracks
    (subStracks (lostMarked backend t objects) (trackedMerged backend t objects nextTrackId) ++
      (afterThird backend t objects).lost)
    t.removedStracks

structure Updated (F : Type u) where
  tracker : BYTETracker F
  nextTrackId : Int
  output : List (STrack F)

def BYTETracker.update (nextTrackId : Int) : Updated F :=
  let kept := removeDuplicateStracks (trackedMerged backend t objects nextTrackId)
    (lostMerged backend t objects nextTrackId)
  { tracker := { t with
      frameId := t.frameId + 1
      trackedStracks := kept.1
      lostStracks := kept.2
      removedStracks := removedNow backend t objects }
    nextTrackId := (newTracks backend t objects nextTrackId).2
    output := kept.1.filter STrack.isActivated }

end Update

end ByteTracker
