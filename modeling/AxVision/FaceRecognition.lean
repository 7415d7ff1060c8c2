import AxVision.KeyedTables
import AxVision.PushRequests

/-!
# The face recognition plugin

`FacePlugin::OnFrame` and the jobs it submits, as functions of the plugin's
state, their arguments and the outcomes of the host's calls. The part of
`OnFrame` behind its first lock and the jobs meet only in the result list, so
`OnFrame` is modelled from the drained results on, and a job is the list of
effects its run leaves.
-/

namespace FaceRecognition

open DetectionTypes KeyedTables PushRequests

universe u v

def kTrackPruneFrames : Int := 60
def kTrackInflightMaxFrames : Int := 1500

structure TrackPending (F : Type u) (P : Type v) where
  lastFace : Option (Object F) := none
  lastFrame : ImageData P := {}
  featDone : Bool := false
  identifyInflight : Bool := false
  lastSeenFrame : Int := 0

structure IdentifyItem (F : Type u) (P : Type v) where
  trackId : Int
  face : Object F
  feat : List F
  faceImg : ImageData P

structure IdentifyResult where
  trackId : Int
  ok : Bool
  deriving DecidableEq, Repr

/-- The closures handed to `SubmitAsync`, with what they capture. -/
inductive Job (F : Type u) (P : Type v) where
  | identify (batch : List (IdentifyItem F P)) (frame : ImageData P)
      (captureMsgId curTime : String) (curCreatedAt : Int)
  | lostTrack (lostMsgId lostTime : String) (lostTrackId : Int)
      (alertDescription : Option (Json F)) (face : Option (Object F)) (frame : ImageData P)

structure Config (F : Type u) where
  collection : String
  frontalScoreThresh : F

structure FacePlugin (F : Type u) (P : Type v) where
  host : Bool := false
  config : Config F
  trackPending : Table Int (TrackPending F P) := Table.empty
  frameSeq : Int := 0
  identifyResults : List IdentifyResult := []

variable {F : Type u} {P : Type v}

def FacePlugin.init (config : Config F) : FacePlugin F P :=
  { host := true, config := config }

def FacePlugin.postIdentifyResult (s : FacePlugin F P) (r : IdentifyResult) : FacePlugin F P :=
  { s with identifyResults := s.identifyResults ++ [r] }

/-- What the calls of one `OnFrame` return; `cloneFrame` outcomes carry the
return code and the destination. Calls made once a track are indexed by its id. -/
structure FrameOutcomes (F : Type u) (P : Type v) where
  captureMsgId : String
  curTime : String
  curCreatedAt : Int
  cloneLast : Int → Int × ImageData P
  computeFrontalScore : Object F → F
  inferFaces : List (Object F) → List (ImageData P) × List (List F)
  vectorsReady : Bool
  notifyReady : Bool
  cloneFrame : Int × ImageData P
  submitIdentify : Bool
  notifyReadyLost : Int → Bool
  cloneLost : Int → Int × ImageData P
  lostMsgId : Int → String
  lostTime : Int → String
  submitLost : Int → Bool

def applyResult (r : IdentifyResult) (pending : TrackPending F P) : TrackPending F P :=
  if r.ok then { pending with identifyInflight := false, featDone := true, lastFrame := {} }
  else { pending with identifyInflight := false }

/-- The loop of `DrainIdentifyResults` over the swapped-out results. -/
def drainIdentifyResults (results : List IdentifyResult) (tracks : Table Int (TrackPending F P)) :
    Table Int (TrackPending F P) :=
  results.foldl (fun t r => t.alter r.trackId (Option.map (applyResult r))) tracks

def clearInflight (pending : TrackPending F P) : TrackPending F P :=
  { pending with identifyInflight := false }

def rollbackInflight (trackIds : List Int) (tracks : Table Int (TrackPending F P)) :
    Table Int (TrackPending F P) :=
  trackIds.foldl (fun t tid => t.alter tid (Option.map clearInflight)) tracks

/-- One sighting: `track_pending_[id]` and the updates of the first loop. -/
def observe (frameSeq : Int) (clone : Int → Int × ImageData P) (f : Object F)
    (entry : Option (TrackPending F P)) : Option (TrackPending F P) :=
  let pending := { entry.getD {} with lastSeenFrame := frameSeq }
  if pending.featDone then some pending
  else
    some { pending with
      lastFace := some f
      lastFrame := if (clone f.trackId).1 ≠ 0 then {} else (clone f.trackId).2 }

def tracked (objects : List (Object F)) : List (Object F) :=
  objects.filter fun f => f.trackId ≥ 0

def observeAll (frameSeq : Int) (clone : Int → Int × ImageData P) (objects : List (Object F))
    (tracks : Table Int (TrackPending F P)) : Table Int (TrackPending F P) :=
  (tracked objects).foldl (fun t f => t.alter f.trackId (observe frameSeq clone f)) tracks

/-- The gate of the second loop: neither done nor in flight, and frontal enough. -/
def wantsIdentify [Scalar F] (thresh : F) (score : Object F → F)
    (tracks : Table Int (TrackPending F P)) (f : Object F) : Bool :=
  match tracks.lookup f.trackId with
  | some pending => !(pending.featDone || pending.identifyInflight) && !Scalar.lt (score f) thresh
  | none => !Scalar.lt (score f) thresh

def toProcess [Scalar F] (thresh : F) (score : Object F → F)
    (tracks : Table Int (TrackPending F P)) (objects : List (Object F)) : List (Object F) :=
  (tracked objects).filter (wantsIdentify thresh score tracks)

/-- Item `i` of the batch loop: a feature, its face and its picture. -/
def identifyItem (tracks : Table Int (TrackPending F P)) (faces : List (Object F))
    (faceImgs : List (ImageData P)) (feat : List F × Nat) : Option (IdentifyItem F P) :=
  if feat.1.isEmpty then none
  else
    match faces[feat.2]?, faceImgs[feat.2]? with
    | some face, some img =>
      if (tracks.lookup face.trackId).isSome then some ⟨face.trackId, face, feat.1, img⟩ else none
    | _, _ => none

def identifyBatch (tracks : Table Int (TrackPending F P)) (faces : List (Object F))
    (faceImgs : List (ImageData P)) (feats : List (List F)) : List (IdentifyItem F P) :=
  feats.zipIdx.filterMap (identifyItem tracks faces faceImgs)

def setInflight (pending : TrackPending F P) : TrackPending F P :=
  { pending with identifyInflight := true }

def markInflight (trackIds : List Int) (tracks : Table Int (TrackPending F P)) :
    Table Int (TrackPending F P) :=
  trackIds.foldl (fun t tid => t.alter tid (Option.map setInflight)) tracks

/-- The submission of a non-empty batch; every failure rolls the flags back. -/
def submitBatch (out : FrameOutcomes F P) (batch : List (IdentifyItem F P))
    (tracks : Table Int (TrackPending F P)) : Table Int (TrackPending F P) × List (Job F P) :=
  let inflightIds := batch.map IdentifyItem.trackId
  if batch.isEmpty then (tracks, [])
  else if !out.vectorsReady || !out.notifyReady then (rollbackInflight inflightIds tracks, [])
  else if out.cloneFrame.1 ≠ 0 ∨ out.cloneFrame.2.data.isNone then
    (rollbackInflight inflightIds tracks, [])
  else if out.submitIdentify then
    (tracks, [.identify batch out.cloneFrame.2 out.captureMsgId out.curTime out.curCreatedAt])
  else (rollbackInflight inflightIds tracks, [])

/-- The fate of one entry in the last loop: kept or erased, and a lost-track job if submitted. -/
def pruneEntry (out : FrameOutcomes F P) (frameSeq : Int) (lostTrackId : Int)
    (pending : TrackPending F P) : Option (TrackPending F P) × Option (Job F P) :=
  if frameSeq - pending.lastSeenFrame ≤ kTrackPruneFrames then (some pending, none)
  else if pending.featDone then (none, none)
  else if pending.identifyInflight then
    if frameSeq - pending.lastSeenFrame > kTrackInflightMaxFrames then (none, none)
    else (some pending, none)
  else if pending.lastFrame.data.isNone || !out.notifyReadyLost lostTrackId then (none, none)
  else if (out.cloneLost lostTrackId).1 ≠ 0 ∨ (out.cloneLost lostTrackId).2.data.isNone then
    (none, none)
  else if out.submitLost lostTrackId then
    (none, some (.lostTrack (out.lostMsgId lostTrackId) (out.lostTime lostTrackId) lostTrackId
      (pending.lastFace.map (strangerDescription lostTrackId)) pending.lastFace
      (out.cloneLost lostTrackId).2))
  else (some pending, none)

def pruneTracks (out : FrameOutcomes F P) (frameSeq : Int) (tracks : Table Int (TrackPending F P)) :
    Table Int (TrackPending F P) × List (Job F P) :=
  (tracks.filterMap fun tid pending => (pruneEntry out frameSeq tid pending).1,
    tracks.entries.filterMap fun e => (pruneEntry out frameSeq e.1 e.2).2)

/-- `OnFrame` after its results have been swapped out, with the jobs it submits. -/
def FacePlugin.onFrame [Scalar F] (s : FacePlugin F P) (results : List IdentifyResult)
    (objects : List (Object F)) (out : FrameOutcomes F P) : FacePlugin F P × List (Job F P) :=
  let frameSeq := s.frameSeq + 1
  let drained := drainIdentifyResults results s.trackPending
  let seen := observeAll frameSeq out.cloneLast objects drained
  let faces := toProcess s.config.frontalScoreThresh out.computeFrontalScore seen objects
  let inferred := out.inferFaces faces
  let batch := identifyBatch seen faces inferred.1 inferred.2
  let submitted := submitBatch out batch (markInflight (batch.map IdentifyItem.trackId) seen)
  let pruned := pruneTracks out frameSeq submitted.1
  ({ s with trackPending := pruned.1, frameSeq := frameSeq }, submitted.2 ++ pruned.2)

/-- What a job does to the world outside its own variables, call by call. -/
inductive Effect (F : Type u) where
  | search (req : SearchRequest F)
  | post (r : IdentifyResult)
  | upsertPoints (collection : String) (points : List (Point F))
  | pushAlert (req : AlertPushRequest F)
  | pushVisitor (req : VisitorPushRequest)

/-- What the calls of one job return. -/
structure JobOutcomes (F : Type u) (P : Type v) where
  vectors : Bool
  notify : Bool
  search : Nat → SearchResult F
  generateUuid : Nat → String
  encodeJpeg : Int × List UInt8
  encodeVisitorFace : Nat → ImageData P → Option (List UInt8)
  cropFaceRoi : Option (ImageData P)

/-- Local variables of `RunIdentifyAndPush` across its first loop. -/
structure Identified (F : Type u) (P : Type v) where
  isSendAlert : Bool := false
  points : List (Point F) := []
  alertStrangerFaces : List (Int × Object F) := []
  persons : List VisitorPerson := []
  visitorFaces : List (ImageData P) := []

def searchRequest [Scalar F] (collection : String) (item : IdentifyItem F P) : SearchRequest F :=
  ⟨collection, item.feat, 1, .null, true, false, some (Scalar.ofRat (65 / 100))⟩

/-- `ehr_no` and `name` after a successful search. -/
def identityOf (found : SearchResult F) : String × String :=
  match found.points with
  | [] => ("NA", "NA")
  | point :: _ =>
    (payloadString point.payload "ehrNo" "NA", payloadString point.payload "name" "NA")

def isStranger (found : SearchResult F) : Bool := (identityOf found).1 == "NA"

def strangerPoint (uuid : String) (item : IdentifyItem F P) (curCreatedAt : Int) : Point F :=
  .withStringId uuid item.feat
    (((Json.null.set "createdAt" (.int curCreatedAt)).set "name" (.string "NA")).set
      "ehrNo" (.string "NA"))

def visitorPerson (captureMsgId : String) (found : SearchResult F) : VisitorPerson where
  ehrNo := if isStranger found then "NA" else (identityOf found).1
  name := if isStranger found then "NA" else (identityOf found).2
  recognized := !isStranger found
  msgId := captureMsgId
  eventId := if isStranger found then "stranger" else "visitor"

/-- One pass of the loop over the batch, after a successful search. -/
def Identified.add (acc : Identified F P) (captureMsgId : String) (curCreatedAt : Int)
    (uuid : String) (item : IdentifyItem F P) (found : SearchResult F) : Identified F P where
  isSendAlert := acc.isSendAlert || isStranger found
  points := if isStranger found then acc.points ++ [strangerPoint uuid item curCreatedAt]
    else acc.points
  alertStrangerFaces := if isStranger found then acc.alertStrangerFaces ++ [(item.trackId, item.face)]
    else acc.alertStrangerFaces
  persons := acc.persons ++ [visitorPerson captureMsgId found]
  visitorFaces := acc.visitorFaces ++ [item.faceImg]

/-- The loop over the batch; `i` counts the searches made. -/
def identifyLoop [Scalar F] (collection captureMsgId : String) (curCreatedAt : Int)
    (out : JobOutcomes F P) : Nat → List (IdentifyItem F P) → Identified F P →
    List (Effect F) × Identified F P
  | _, [], acc => ([], acc)
  | i, item :: rest, acc =>
    let found := out.search i
    let ok := found.ok
    let next := if ok then acc.add captureMsgId curCreatedAt (out.generateUuid i) item found else acc
    let tail := identifyLoop collection captureMsgId curCreatedAt out (i + 1) rest next
    (.search (searchRequest collection item) :: .post ⟨item.trackId, ok⟩ :: tail.1, tail.2)

def jpegBlob (filename : String) (data : List UInt8) : ImageBlob :=
  ⟨filename, "image/jpeg", data⟩

/-- `EncodeJpeg` of the frame counts as failed when it yields no bytes. -/
def frameJpeg (out : JobOutcomes F P) : Option (List UInt8) :=
  if out.encodeJpeg.1 ≠ 0 ∨ out.encodeJpeg.2.isEmpty then none else some out.encodeJpeg.2

def alertRequest (msgId eventTime : String) (description : Option (Json F)) (oriImg : ImageBlob) :
    AlertPushRequest F where
  bankId := "test_bank_id"
  msgId := msgId
  eventId := "stat_id"
  orgId := "test_org_id"
  eventTime := eventTime
  eventName := "陌生人闯入"
  channelName := "test_channel_name"
  description := description
  files := [oriImg]

/-- The face pictures of a visitor request; one failure leaves none. -/
def visitorBlobs (captureMsgId : String) (out : JobOutcomes F P) (faces : List (ImageData P)) :
    List ImageBlob :=
  ((faces.zipIdx.mapM fun face =>
    (out.encodeVisitorFace face.2 face.1).map
      (jpegBlob (captureMsgId ++ "_" ++ toString face.2 ++ ".jpeg"))).getD [])

def Identified.needVisitor (found : Identified F P) : Bool :=
  !found.persons.isEmpty && found.visitorFaces.length == found.persons.length

def alertEffects (captureMsgId curTime : String) (found : Identified F P) (oriImg : ImageBlob) :
    List (Effect F) :=
  if found.isSendAlert then
    [.pushAlert (alertRequest captureMsgId curTime
      (makeStrangerAlertDescription found.alertStrangerFaces) oriImg)]
  else []

def visitorEffects (captureMsgId curTime : String) (out : JobOutcomes F P)
    (found : Identified F P) (oriImg : ImageBlob) : List (Effect F) :=
  let faces := visitorBlobs captureMsgId out found.visitorFaces
  if found.needVisitor && faces.length == found.persons.length then
    [.pushVisitor
      { msgId := some captureMsgId
        eventTime := curTime
        cameraName := "test_camera"
        persons := found.persons
        original := oriImg
        faces := faces }]
  else []

def upsertEffects (collection : String) (found : Identified F P) : List (Effect F) :=
  if found.points.isEmpty then [] else [.upsertPoints collection found.points]

/-- What follows the upload: nothing without a picture of the frame. -/
def report (captureMsgId curTime : String) (out : JobOutcomes F P) (found : Identified F P) :
    List (Effect F) :=
  if !found.isSendAlert && !found.needVisitor then []
  else
    match frameJpeg out with
    | none => []
    | some frame =>
      let oriImg := jpegBlob (captureMsgId ++ ".jpeg") frame
      alertEffects captureMsgId curTime found oriImg ++
        visitorEffects captureMsgId curTime out found oriImg

/-- `RunIdentifyAndPush` as its effects in order. Uploads and pushes may fail;
their results are only logged. -/
def runIdentifyAndPush [Scalar F] (host : Bool) (collection : String)
    (batch : List (IdentifyItem F P)) (captureMsgId curTime : String) (curCreatedAt : Int)
    (out : JobOutcomes F P) : List (Effect F) :=
  if !host then []
  else if !out.vectors || !out.notify then batch.map fun item => .post ⟨item.trackId, false⟩
  else
    let run := identifyLoop collection captureMsgId curCreatedAt out 0 batch {}
    run.1 ++ upsertEffects collection run.2 ++ report captureMsgId curTime out run.2

/-- The lost-track closure; the visitor it reports is the stranger itself. -/
def runLostTrack (lostMsgId lostTime : String) (alertDescription : Option (Json F))
    (out : JobOutcomes F P) : List (Effect F) :=
  match out.cropFaceRoi.bind (out.encodeVisitorFace 0), frameJpeg out with
  | some faceJpg, some frame =>
    if !out.notify then []
    else
      let oriImg := jpegBlob (lostMsgId ++ ".jpeg") frame
      [.pushAlert (alertRequest lostMsgId lostTime alertDescription oriImg),
        .pushVisitor
          { msgId := some lostMsgId
            eventTime := lostTime
            cameraName := "test_camera"
            original := oriImg
            persons := [⟨"stranger", lostMsgId, false, "NA", "NA"⟩]
            faces := [jpegBlob (lostMsgId ++ "_0.jpeg") faceJpg] }]
  | _, _ => []

def Job.run [Scalar F] (s : FacePlugin F P) (out : JobOutcomes F P) : Job F P → List (Effect F)
  | .identify batch _ captureMsgId curTime curCreatedAt =>
    runIdentifyAndPush s.host s.config.collection batch captureMsgId curTime curCreatedAt out
  | .lostTrack lostMsgId lostTime _ alertDescription _ _ =>
    runLostTrack lostMsgId lostTime alertDescription out

end FaceRecognition
