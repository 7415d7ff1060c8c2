import AxVision.ByteTracker
import AxVision.KeyedTables
import Mathlib.Tactic.NormNum

/-!
# The tracker as a post-processor

`TrackerProcessor` runs one tracker per configured label. All trackers draw
their ids from one counter, and the ids are written back to the objects by a
second, greedy association on overlap.
-/

namespace TrackerProcessor

open DetectionTypes STracks TrackAssociation ByteTracker KeyedTables

universe u

variable {F : Type u} [Scalar F]

def kMinimumAssignmentIou : F := Scalar.ofRat (1 / 10)

def validThreshold (value : F) : Bool :=
  Scalar.le (Scalar.ofRat 0) value && Scalar.le value (Scalar.ofRat 1)

/-- What `Init` has checked when it returns 0. The labels are a set, in the
order in which it is iterated. -/
structure AcceptedConfig (F : Type u) [Scalar F] where
  trackLabels : List String
  labels_nodup : trackLabels.Nodup
  labels_nonempty : trackLabels ≠ []
  tracker : BYTETrackerConfig F
  frameRate_pos : 0 < tracker.frameRate
  trackBuffer_pos : 0 < tracker.trackBuffer
  trackThresh_valid : validThreshold tracker.trackThresh = true
  highThresh_valid : validThreshold tracker.highThresh = true
  matchThresh_valid : validThreshold tracker.matchThresh = true

structure Processor (F : Type u) where
  trackLabels : List String
  trackers : Table String (BYTETracker F)
  nextTrackId : Int

/-- The end of a successful `Init`. -/
def Processor.init (config : AcceptedConfig F) : Processor F where
  trackLabels := config.trackLabels
  trackers := config.trackLabels.foldl
    (fun trackers label => trackers.alter label fun _ => some (.ofConfig config.tracker))
    Table.empty
  nextTrackId := 1

def intersectionOverUnion (detection : Rect F) (trackTlbr : Tlbr F) : F :=
  let zero : F := Scalar.ofRat 0
  let left := stdMax detection.x trackTlbr.left
  let top := stdMax detection.y trackTlbr.top
  let right := stdMin (detection.x + detection.width) trackTlbr.right
  let bottom := stdMin (detection.y + detection.height) trackTlbr.bottom
  let intersection := stdMax zero (right - left) * stdMax zero (bottom - top)
  let trackArea := stdMax zero (trackTlbr.right - trackTlbr.left) *
    stdMax zero (trackTlbr.bottom - trackTlbr.top)
  let unionArea := detection.area + trackArea - intersection
  if Scalar.lt zero unionArea then intersection / unionArea else zero

/-- One comparison of the inner loop; a tie goes to the later detection. -/
def betterDetection (assigned : List Nat) (box : Tlbr F) (best : F × Option Nat)
    (candidate : Object F × Nat) : F × Option Nat :=
  if candidate.2 ∈ assigned then best
  else
    let iou := intersectionOverUnion candidate.1.rect box
    if Scalar.le best.1 iou then (iou, some candidate.2) else best

def bestDetection (detections : List (Object F)) (assigned : List Nat) (box : Tlbr F) :
    Option Nat :=
  (detections.zipIdx.foldl (betterDetection assigned box) (kMinimumAssignmentIou, none)).2

def setTrackId (trackId : Int) (o : Object F) : Object F := { o with trackId := trackId }

/-- The greedy loop over the output tracks: the detection taken by each. -/
def assignTracks (detections : List (Object F)) : List (STrack F) → List Nat → List (Nat × Int)
  | [], _ => []
  | track :: rest, assigned =>
    match bestDetection detections assigned track.tlbr with
    | none => assignTracks detections rest assigned
    | some d => (d, track.trackId) :: assignTracks detections rest (d :: assigned)

def groupedIndices (objects : List (Object F)) (label : String) : List Nat :=
  (List.range objects.length).filter fun i => (objects[i]?.map Object.labelName) = some label

def groupedDetections (objects : List (Object F)) (label : String) : List (Object F) :=
  (groupedIndices objects label).filterMap fun i => objects[i]?

def writeIds (grouped : List Nat) (assignment : List (Nat × Int)) (objects : List (Object F)) :
    List (Object F) :=
  assignment.foldl (fun objects a =>
    match grouped[a.1]? with
    | some i => objects.modify i (setTrackId a.2)
    | none => objects) objects

structure Pass (F : Type u) where
  processor : Processor F
  objects : List (Object F)

/-- The loop body for one label. -/
def processLabel (backend : Backend F) (s : Pass F) (label : String) : Pass F :=
  match s.processor.trackers.lookup label with
  | none => s
  | some tracker =>
    let detections := groupedDetections s.objects label
    let updated := tracker.update backend detections s.processor.nextTrackId
    { processor := { s.processor with
        trackers := s.processor.trackers.alter label fun _ => some updated.tracker
        nextTrackId := updated.nextTrackId }
      objects := writeIds (groupedIndices s.objects label)
        (assignTracks detections updated.output []) s.objects }

def Processor.process (backend : Backend F) (p : Processor F) (objects : List (Object F)) : Pass F :=
  p.trackLabels.foldl (processLabel backend) ⟨p, objects.map (setTrackId (-1))⟩

/-- The states after each frame of a sequence. -/
def Processor.after (backend : Backend F) (config : AcceptedConfig F)
    (frames : Nat → List (Object F)) : Nat → Processor F
  | 0 => .init config
  | n + 1 => ((Processor.after backend config frames n).process backend (frames n)).processor

/-- What `Process` leaves of frame `n`. -/
def output (backend : Backend F) (config : AcceptedConfig F) (frames : Nat → List (Object F))
    (n : Nat) : List (Object F) :=
  ((Processor.after backend config frames n).process backend (frames n)).objects

section Shipped

theorem validThreshold_rat (value : ℚ) : validThreshold value = true ↔ 0 ≤ value ∧ value ≤ 1 := by
  simp [validThreshold]

/-- The tracker parameters of the shipped face scene. -/
def shippedTracker : BYTETrackerConfig ℚ where
  frameRate := 25
  trackBuffer := 30
  trackThresh := 1 / 2
  highThresh := 3 / 5
  matchThresh := 4 / 5

def shippedConfig (labels : List String) (labels_nodup : labels.Nodup)
    (labels_nonempty : labels ≠ []) : AcceptedConfig ℚ where
  trackLabels := labels
  labels_nodup := labels_nodup
  labels_nonempty := labels_nonempty
  tracker := shippedTracker
  frameRate_pos := by decide
  trackBuffer_pos := by decide
  trackThresh_valid := by norm_num [validThreshold_rat, shippedTracker]
  highThresh_valid := by norm_num [validThreshold_rat, shippedTracker]
  matchThresh_valid := by norm_num [validThreshold_rat, shippedTracker]

/-- An object as the tests of the tracker build it. -/
def sampleObject (labelName : String) (x : ℚ) : Object ℚ where
  rect := ⟨x, 20, 40, 40⟩
  label := 91
  prob := 95 / 100
  landmark := Vector.replicate 5 ⟨0, 0⟩
  mask := []
  maskFeat := []
  kpsFeat := []
  angle := 0
  modelName := ""
  labelName := labelName
  trackId := 1234

end Shipped

end TrackerProcessor
