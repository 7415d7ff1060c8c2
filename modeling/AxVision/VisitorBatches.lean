import AxVision.InflightTracks

/-!
# Visitor batches from the faces of a frame

`Arcface::InferBatch` fills two lists that are aligned with the faces it gets,
`OnFrame` builds the identify batch from the three, and `RunIdentifyAndPush`
filters the batch by its searches and zips the rest with the encoded pictures.
The results here follow one face from the first list to the visitor request.
-/

namespace VisitorBatches

open DetectionTypes KeyedTables PushRequests FaceRecognition FrameSteps IdentifyJobs

universe u v w

variable {F : Type u} {P : Type v}

/-- The return value of `Arcface::Infer` and what it wrote for its face. -/
structure Inference (F : Type u) (P : Type v) where
  ret : Int
  faceImg : ImageData P
  feat : List F

/-- The picture and the feature left in the slot of a face. -/
def Inference.faceImgSlot (r : Inference F P) : ImageData P :=
  if r.ret = 0 then r.faceImg else {}

def Inference.featSlot (r : Inference F P) : List F := if r.ret = 0 then r.feat else []

/-- `Arcface::InferBatch`: the number of successes, `face_imgs` and `feats`. -/
def inferBatch (infer : Nat → Object F → Inference F P) (faces : List (Object F)) :
    Int × List (ImageData P) × List (List F) :=
  let runs := faces.zipIdx.map fun face => infer face.2 face.1
  (runs.countP fun r => r.ret == 0, runs.map Inference.faceImgSlot, runs.map Inference.featSlot)

/-- `HostServices::InferFaces` into the empty lists of `OnFrame`; `ready` tells
whether the host has an engine and a converter. -/
def inferFaces (ready : Bool) (infer : Nat → Object F → Inference F P) (faces : List (Object F)) :
    Int × List (ImageData P) × List (List F) :=
  if ready then inferBatch infer faces else (-1, [], [])

def withInference (out : FrameOutcomes F P) (ready : Bool)
    (infer : Nat → Object F → Inference F P) : FrameOutcomes F P :=
  { out with inferFaces := fun faces => (inferFaces ready infer faces).2 }

/-- The faces `OnFrame` passes to `InferFaces`. -/
def passedFaces [Scalar F] (s : FacePlugin F P) (results : List IdentifyResult)
    (objects : List (Object F)) (out : FrameOutcomes F P) : List (Object F) :=
  toProcess s.config.frontalScoreThresh out.computeFrontalScore (seenTracks s results objects out)
    objects

/-- Track, face, feature and picture of the item are those of one passed face. -/
def FromFace (infer : Nat → Object F → Inference F P) (faces : List (Object F))
    (item : IdentifyItem F P) : Prop :=
  ∃ j face, faces[j]? = some face ∧ (infer j face).ret = 0 ∧
    item = ⟨face.trackId, face, (infer j face).feat, (infer j face).faceImg⟩

/-- The first hit carries an `ehrNo`, which is a text or an integer, other than NA. -/
def KnownVisitor (found : SearchResult F) : Prop :=
  ∃ hit, found.points.head? = some hit ∧
    ((∃ s, hit.payload.get? "ehrNo" = some (.string s) ∧ s ≠ "NA") ∨
      ∃ n, hit.payload.get? "ehrNo" = some (.int n))

def posted? : Effect F → Option IdentifyResult
  | .post r => some r
  | _ => none

def searched? : Effect F → Option (SearchRequest F)
  | .search req => some req
  | _ => none

def upserted? : Effect F → Option (List (Point F))
  | .upsertPoints _ points => some points
  | _ => none

section Alignment

variable [Scalar F] (collection captureMsgId : String) (curCreatedAt : Int)
  (out : JobOutcomes F P)

/-- Person `k` and face `k` of the request are those of `item`, searched for as number `i`: who
the person is, is what this search found. -/
structure PersonOf (effects : List (Effect F)) (req : VisitorPushRequest) (k : Nat)
    (item : IdentifyItem F P) (i : Nat) : Prop where
  person : req.persons[k]? = some (visitorPerson captureMsgId (out.search i))
  recognized : (visitorPerson captureMsgId (out.search i)).recognized = true ↔
    KnownVisitor (out.search i)
  face : ∃ data, out.encodeVisitorFace k item.faceImg = some data ∧
    req.faces[k]? = some (jpegBlob (captureMsgId ++ "_" ++ toString k ++ ".jpeg") data)
  searched : (effects.filterMap searched?)[i]? = some (searchRequest collection item)
  vector : (searchRequest collection item).queryVector = item.feat
  upserted : ¬KnownVisitor (out.search i) → ∃ points ∈ effects.filterMap upserted?,
    ∃ point ∈ points, point = strangerPoint (out.generateUuid i) item curCreatedAt ∧
      point.vector = item.feat

/-- The lists of a visitor request line up with the searches that succeeded, and so do the
points of the upload. -/
structure Aligned (batch : List (IdentifyItem F P)) (effects : List (Effect F))
    (req : VisitorPushRequest) : Prop where
  persons_length : req.persons.length = (succeeded out 0 batch).length
  faces_length : req.faces.length = req.persons.length
  persons_of : ∀ k item i, (succeeded out 0 batch)[k]? = some (item, i) →
    PersonOf collection captureMsgId curCreatedAt out effects req k item i
  points_of : ∀ points ∈ effects.filterMap upserted?,
    points = ((succeeded out 0 batch).filter fun e => isStranger (out.search e.2)).map
      fun e => strangerPoint (out.generateUuid e.2) e.1 curCreatedAt

end Alignment

theorem printed_ne_na (n : Int) : toString n ≠ "NA" := by
  intro same
  have chars : (toString n).toList = ['N', 'A'] := by rw [same]; rfl
  cases n with
  | ofNat m =>
    have digits : (toString (Int.ofNat m)).toList = Nat.toDigits 10 m := by
      change (toString m).toList = _
      rw [Nat.toString_eq_ofList_toDigits, String.toList_ofList]
    have member : 'N' ∈ Nat.toDigits 10 m := by
      rw [← digits, chars]
      simp
    have digit := Nat.isDigit_of_mem_toDigits (by decide) (by decide) member
    exact absurd digit (by decide)
  | negSucc m =>
    have signed : (toString (Int.negSucc m)).toList = '-' :: (toString (m + 1)).toList := by
      change ("-" ++ toString (m + 1)).toList = _
      simp
    rw [signed] at chars
    exact absurd (List.cons.inj chars).1 (by decide)

/-- The code's test is on the text it reads; an integer never reads as NA. -/
theorem knownVisitor_iff (found : SearchResult F) :
    KnownVisitor found ↔ isStranger found = false := by
  have digits (n : Int) : toString (int64 n) ≠ "NA" := printed_ne_na (int64 n)
  obtain ⟨ok, points⟩ := found
  cases points with
  | nil => simp [KnownVisitor, isStranger, identityOf]
  | cons hit rest =>
    have head : KnownVisitor ⟨ok, hit :: rest⟩ ↔
        ((∃ s, hit.payload.get? "ehrNo" = some (.string s) ∧ s ≠ "NA") ∨
          ∃ n, hit.payload.get? "ehrNo" = some (.int n)) := by
      simp [KnownVisitor]
    rw [head]
    simp only [isStranger, identityOf, payloadString, beq_eq_false_iff_ne]
    split <;> simp_all

section Inferred

variable (infer : Nat → Object F → Inference F P) (faces : List (Object F))

/-- An item keeps the alignment of the two lists `InferBatch` fills. -/
theorem identifyItem_fromFace {tracks : Table Int (TrackPending F P)} {feat : List F} {j : Nat}
    {item : IdentifyItem F P} (ready : Bool)
    (held : (inferFaces ready infer faces).2.2[j]? = some feat)
    (built : identifyItem tracks faces (inferFaces ready infer faces).2.1 (feat, j) = some item) :
    FromFace infer faces item := by
  cases ready with
  | false => simp [inferFaces] at held
  | true =>
    simp only [inferFaces, inferBatch, if_true] at held built
    cases slot : faces[j]? with
    | none => simp [slot] at held
    | some face =>
      have run : (infer j face).featSlot = feat := by simpa [slot] using held
      by_cases ret : (infer j face).ret = 0
      · simp [identifyItem, slot, ← run, Inference.featSlot, Inference.faceImgSlot, ret] at built
        exact ⟨j, face, slot, ret, built.2.2.symm⟩
      · simp [identifyItem, ← run, Inference.featSlot, ret] at built

theorem identifyBatch_fromFace (tracks : Table Int (TrackPending F P)) (ready : Bool)
    {item : IdentifyItem F P}
    (member : item ∈ identifyBatch tracks faces (inferFaces ready infer faces).2.1
      (inferFaces ready infer faces).2.2) :
    FromFace infer faces item := by
  obtain ⟨⟨feat, j⟩, slot, built⟩ := List.mem_filterMap.mp member
  exact identifyItem_fromFace infer faces ready (List.mk_mem_zipIdx_iff_getElem?.mp slot) built

end Inferred

/-- Blob `k` is the encoding of picture `k`, or there is no blob at all. -/
theorem encoded_aligned (encode : Nat → ImageData P → Option (List UInt8)) (name : Nat → String)
    {faces : List (ImageData P)} {i : Nat} {blobs : List ImageBlob}
    (encoded : ((faces.zipIdx i).mapM fun face =>
      (encode face.2 face.1).map (jpegBlob (name face.2))) = some blobs) :
    blobs.length = faces.length ∧ ∀ k face, faces[k]? = some face →
      ∃ data, encode (i + k) face = some data ∧ blobs[k]? = some (jpegBlob (name (i + k)) data) := by
  induction faces generalizing i blobs with
  | nil =>
    obtain rfl : [] = blobs := by simpa using encoded
    simp
  | cons head rest ih =>
    rw [List.zipIdx_cons, List.mapM_cons] at encoded
    obtain ⟨first, hfirst, encoded⟩ := Option.bind_eq_some_iff.mp encoded
    obtain ⟨tail, htail, encoded⟩ := Option.bind_eq_some_iff.mp encoded
    obtain rfl : first :: tail = blobs := by simpa using encoded
    obtain ⟨data, hdata, rfl⟩ := Option.map_eq_some_iff.mp hfirst
    obtain ⟨length, aligned⟩ := ih htail
    refine ⟨by simpa using length, ?_⟩
    intro k face held
    cases k with
    | zero =>
      obtain rfl : head = face := by simpa using held
      exact ⟨data, hdata, rfl⟩
    | succ k =>
      obtain ⟨data, hencode, hblob⟩ := aligned k face (by simpa using held)
      rw [show i + (k + 1) = i + 1 + k by omega]
      exact ⟨data, hencode, by simpa using hblob⟩

section Report

variable {captureMsgId curTime : String} {out : JobOutcomes F P} {found : Identified F P}

theorem visitorEffects_pushes {oriImg : ImageBlob} {e : Effect F}
    (member : e ∈ visitorEffects captureMsgId curTime out found oriImg) :
    ∃ req, e = .pushVisitor req ∧ found.persons ≠ [] ∧ req.persons = found.persons ∧
      req.faces = visitorBlobs captureMsgId out found.visitorFaces ∧
      req.faces.length = req.persons.length := by
  simp only [visitorEffects] at member
  split at member
  · next sent =>
    obtain rfl := List.mem_singleton.mp member
    simp only [Identified.needVisitor, Bool.and_eq_true, beq_iff_eq] at sent
    exact ⟨_, rfl, by simpa using sent.1.1, rfl, rfl, sent.2⟩
  · simp at member

theorem report_pushes {e : Effect F} (member : e ∈ report captureMsgId curTime out found) :
    (∃ req, e = .pushAlert req) ∨
      ∃ oriImg, e ∈ visitorEffects captureMsgId curTime out found oriImg := by
  simp only [report] at member
  split at member
  · simp at member
  · split at member
    · simp at member
    · rcases List.mem_append.mp member with alert | visitor
      · simp only [alertEffects] at alert
        split at alert
        · exact Or.inl ⟨_, List.mem_singleton.mp alert⟩
        · simp at alert
      · exact Or.inr ⟨_, visitor⟩

/-- The report pushes and does nothing else. -/
theorem report_silent {α : Type w} {p : Effect F → Option α}
    (alert : ∀ req, p (.pushAlert req) = none) (visitor : ∀ req, p (.pushVisitor req) = none) :
    (report captureMsgId curTime out found).filterMap p = [] := by
  rw [List.filterMap_eq_nil_iff]
  intro e member
  rcases report_pushes member with ⟨req, rfl⟩ | ⟨oriImg, pushed⟩
  · exact alert req
  · obtain ⟨req, rfl, -⟩ := visitorEffects_pushes pushed
    exact visitor req

end Report

section Run

variable [Scalar F] {collection captureMsgId curTime : String} {curCreatedAt : Int}
  {batch : List (IdentifyItem F P)} {out : JobOutcomes F P}

/-- The locals of the job after its loop. -/
def foundIn (collection captureMsgId : String) (curCreatedAt : Int)
    (batch : List (IdentifyItem F P)) (out : JobOutcomes F P) : Identified F P :=
  (identifyLoop collection captureMsgId curCreatedAt out 0 batch {}).2

theorem run_effects (clients : out.vectors = true ∧ out.notify = true) :
    runIdentifyAndPush true collection batch captureMsgId curTime curCreatedAt out =
      batch.zipIdx.flatMap (fun e =>
        [.search (searchRequest collection e.1), .post ⟨e.1.trackId, (out.search e.2).ok⟩]) ++
      upsertEffects collection (foundIn collection captureMsgId curCreatedAt batch out) ++
      report captureMsgId curTime out
        (foundIn collection captureMsgId curCreatedAt batch out) := by
  simp [runIdentifyAndPush, clients, loop_calls, foundIn]

theorem run_filterMap (clients : out.vectors = true ∧ out.notify = true) {α : Type w}
    {p : Effect F → Option α} (alert : ∀ req, p (.pushAlert req) = none)
    (visitor : ∀ req, p (.pushVisitor req) = none) :
    (runIdentifyAndPush true collection batch captureMsgId curTime curCreatedAt out).filterMap p =
      batch.zipIdx.flatMap (fun e =>
        [.search (searchRequest collection e.1),
          .post ⟨e.1.trackId, (out.search e.2).ok⟩].filterMap p) ++
      (upsertEffects collection
        (foundIn collection captureMsgId curCreatedAt batch out)).filterMap p := by
  rw [run_effects clients, List.filterMap_append, List.filterMap_append,
    report_silent alert visitor, List.append_nil, List.filterMap_flatMap]

omit [Scalar F] in
theorem upsert_silent {α : Type w} {p : Effect F → Option α}
    (upsert : ∀ collection points, p (.upsertPoints collection points) = none)
    (found : Identified F P) : (upsertEffects collection found).filterMap p = [] := by
  simp only [upsertEffects]
  split
  · rfl
  · simp [upsert]

omit [Scalar F] in
theorem zipIdx_map_item {α : Type w} (g : IdentifyItem F P → α) (batch : List (IdentifyItem F P)) :
    (batch.zipIdx.map fun e => g e.1) = batch.map g := by
  conv_rhs => rw [← List.zipIdx_map_fst 0 batch, List.map_map]
  rfl

theorem run_posted :
    ((runIdentifyAndPush true collection batch captureMsgId curTime curCreatedAt out).filterMap
      posted?).map IdentifyResult.trackId = batch.map IdentifyItem.trackId := by
  by_cases clients : out.vectors = true ∧ out.notify = true
  · rw [run_filterMap clients (fun _ => rfl) (fun _ => rfl), upsert_silent (fun _ _ => rfl),
      List.append_nil, List.map_flatMap, ← zipIdx_map_item, List.map_eq_flatMap]
    rfl
  · have missing : (!out.vectors || !out.notify) = true := by
      simpa [Classical.or_iff_not_imp_left] using clients
    simp [runIdentifyAndPush, missing, posted?, Function.comp_def]

theorem run_searched (clients : out.vectors = true ∧ out.notify = true) :
    (runIdentifyAndPush true collection batch captureMsgId curTime curCreatedAt out).filterMap
      searched? = batch.map (searchRequest collection) := by
  rw [run_filterMap clients (fun _ => rfl) (fun _ => rfl), upsert_silent (fun _ _ => rfl),
    List.append_nil, ← zipIdx_map_item, List.map_eq_flatMap]
  rfl

theorem run_upserted (clients : out.vectors = true ∧ out.notify = true) :
    (runIdentifyAndPush true collection batch captureMsgId curTime curCreatedAt out).filterMap
      upserted? =
    (upsertEffects collection
      (foundIn collection captureMsgId curCreatedAt batch out)).filterMap upserted? := by
  rw [run_filterMap clients (fun _ => rfl) (fun _ => rfl)]
  simp [upserted?]

theorem run_visitor {req : VisitorPushRequest} (pushed : Effect.pushVisitor req ∈
      runIdentifyAndPush true collection batch captureMsgId curTime curCreatedAt out) :
    (out.vectors = true ∧ out.notify = true) ∧
      (foundIn collection captureMsgId curCreatedAt batch out).persons ≠ [] ∧
      req.persons = (foundIn collection captureMsgId curCreatedAt batch out).persons ∧
      req.faces = visitorBlobs captureMsgId out
        (foundIn collection captureMsgId curCreatedAt batch out).visitorFaces ∧
      req.faces.length = req.persons.length := by
  by_cases clients : out.vectors = true ∧ out.notify = true
  · refine ⟨clients, ?_⟩
    rw [run_effects clients] at pushed
    rcases List.mem_append.mp pushed with before | pushed
    · rcases List.mem_append.mp before with loop | upsert
      · simp at loop
      · simp only [upsertEffects] at upsert
        split at upsert <;> simp at upsert
    · rcases report_pushes pushed with ⟨req, same⟩ | ⟨oriImg, pushed⟩
      · cases same
      · obtain ⟨req', same, sent⟩ := visitorEffects_pushes pushed
        cases same
        exact sent
  · have missing : (!out.vectors || !out.notify) = true := by
      simpa [Classical.or_iff_not_imp_left] using clients
    simp [runIdentifyAndPush, missing] at pushed

/-- Every visitor request of the job lines up with its searches. -/
theorem run_aligned {req : VisitorPushRequest} (pushed : Effect.pushVisitor req ∈
      runIdentifyAndPush true collection batch captureMsgId curTime curCreatedAt out) :
    Aligned collection captureMsgId curCreatedAt out batch
      (runIdentifyAndPush true collection batch captureMsgId curTime curCreatedAt out) req := by
  obtain ⟨clients, some_person, persons, faces, faces_length⟩ := run_visitor pushed
  obtain ⟨hpersons, hfaces, hpoints, -, -⟩ :=
    loop_gathered collection captureMsgId curCreatedAt out 0 batch {}
  rw [foundIn, hpersons] at persons some_person
  rw [foundIn, hfaces] at faces
  simp only [List.nil_append] at persons some_person faces hpoints
  cases encoded : ((succeeded out 0 batch).map fun e => e.1.faceImg).zipIdx.mapM fun face =>
      (out.encodeVisitorFace face.2 face.1).map
        (jpegBlob (captureMsgId ++ "_" ++ toString face.2 ++ ".jpeg")) with
  | none =>
    -- a failed encoding leaves no face, and the request has a person
    rw [visitorBlobs, encoded] at faces
    rw [faces, persons] at faces_length
    exact absurd (List.length_eq_zero_iff.mp faces_length.symm) some_person
  | some blobs =>
    rw [visitorBlobs, encoded] at faces
    obtain ⟨-, blob_of⟩ := encoded_aligned out.encodeVisitorFace
      (fun k => captureMsgId ++ "_" ++ toString k ++ ".jpeg") encoded
    have uploaded : (runIdentifyAndPush true collection batch captureMsgId curTime curCreatedAt
        out).filterMap upserted? =
          (upsertEffects collection (identifyLoop collection captureMsgId curCreatedAt out 0 batch
            {}).2).filterMap upserted? := run_upserted clients
    refine ⟨by simp [persons], faces_length, ?_, ?_⟩
    · intro k item i held
      have tried : batch[i]? = some item := by
        have member := (List.mem_filter.mp (List.mem_of_getElem? held)).1
        exact List.mk_mem_zipIdx_iff_getElem?.mp member
      refine ⟨by simp [persons, held], ?_, ?_, ?_, rfl, ?_⟩
      · rw [knownVisitor_iff]
        simp [visitorPerson]
      · obtain ⟨data, hencode, hblob⟩ := blob_of k item.faceImg (by simp [held])
        rw [Nat.zero_add] at hencode hblob
        refine ⟨data, hencode, ?_⟩
        simpa [faces] using hblob
      · rw [run_searched clients]
        simp [tried]
      · intro stranger
        rw [knownVisitor_iff, Bool.not_eq_false] at stranger
        have point : strangerPoint (out.generateUuid i) item curCreatedAt ∈
            (identifyLoop collection captureMsgId curCreatedAt out 0 batch {}).2.points := by
          rw [hpoints]
          refine List.mem_map.mpr ⟨(item, i), ?_, rfl⟩
          exact List.mem_filter.mpr ⟨List.mem_of_getElem? held, stranger⟩
        refine ⟨_, ?_, _, point, rfl, rfl⟩
        rw [uploaded]
        simp [upsertEffects, List.ne_nil_of_mem point, upserted?]
    · intro points sent
      rw [uploaded, upsertEffects] at sent
      split at sent
      · cases sent
      · rw [← hpoints]
        exact List.mem_singleton.mp sent

end Run

/-- The batch of a submitted job is the one the frame built. -/
theorem submitted_batch [Scalar F] {s : FacePlugin F P} {results : List IdentifyResult}
    {objects : List (Object F)} {out : FrameOutcomes F P} {batch : List (IdentifyItem F P)}
    {frame : ImageData P} {captureMsgId curTime : String} {curCreatedAt : Int}
    (submitted : Job.identify batch frame captureMsgId curTime curCreatedAt ∈
      (s.onFrame results objects out).2) :
    batch = frameBatch s results objects out := by
  rw [onFrame_eq] at submitted
  rcases List.mem_append.mp submitted with built | pruned
  · rcases submission_cases s results objects out with ⟨jobs, -⟩ | ⟨jobs, -⟩
    · simp [jobs] at built
    · rw [jobs, List.mem_singleton] at built
      exact (Job.identify.inj built).1
  · obtain ⟨tid, p, -, lost, -⟩ := pruneTracks_job pruned
    simp [lostIds] at lost

theorem passedFaces_tracked [Scalar F] {s : FacePlugin F P} {results : List IdentifyResult}
    {objects : List (Object F)} {out : FrameOutcomes F P} {face : Object F}
    (passed : face ∈ passedFaces s results objects out) : face ∈ objects ∧ 0 ≤ face.trackId := by
  have member := List.mem_filter.mp (List.mem_filter.mp passed).1
  exact ⟨member.1, by simpa using member.2⟩

/-- However the faces of a frame fare in the batch inference, and whatever the
calls of the job return: every item is one face of the frame, every item gets
one result, and a visitor request pairs each person with the picture, the
search and the point of the same item. -/
theorem visitorBatch_aligned [Scalar F] (s : FacePlugin F P) (hosted : s.host = true)
    (results : List IdentifyResult) (objects : List (Object F)) (out : FrameOutcomes F P)
    (ready : Bool) (infer : Nat → Object F → Inference F P) (batch : List (IdentifyItem F P))
    (frame : ImageData P) (captureMsgId curTime : String) (curCreatedAt : Int)
    (submitted : Job.identify batch frame captureMsgId curTime curCreatedAt ∈
      (s.onFrame results objects (withInference out ready infer)).2)
    (calls : JobOutcomes F P) :
    let effects := (Job.identify batch frame captureMsgId curTime curCreatedAt).run s calls
    (∀ face ∈ passedFaces s results objects out, face ∈ objects ∧ 0 ≤ face.trackId) ∧
      (∀ item ∈ batch, FromFace infer (passedFaces s results objects out) item) ∧
      (effects.filterMap posted?).map IdentifyResult.trackId = batch.map IdentifyItem.trackId ∧
      ∀ req, Effect.pushVisitor req ∈ effects →
        Aligned s.config.collection captureMsgId curCreatedAt calls batch effects req := by
  rw [Job.run, hosted]
  refine ⟨fun face => passedFaces_tracked, ?_, run_posted, fun req => run_aligned⟩
  intro item member
  rw [submitted_batch submitted] at member
  exact identifyBatch_fromFace infer _ _ ready member

/-- Faces of tracks 3, 7 and 9; the first one cannot be cropped. -/
def threeFaces : List (Object ℚ) :=
  [{ doorItem.face with trackId := 3 }, doorItem.face, { doorItem.face with trackId := 9 }]

def allButFirst : Nat → Object ℚ → Inference ℚ Unit
  | 0, _ => ⟨-1, ⟨some ()⟩, []⟩
  | j + 1, _ => ⟨0, ⟨some ()⟩, [j]⟩

def twoItems : List (IdentifyItem ℚ Unit) :=
  [⟨7, doorItem.face, [0], ⟨some ()⟩⟩, ⟨9, { doorItem.face with trackId := 9 }, [1], ⟨some ()⟩⟩]

/-- The first search finds nobody and the second one a visitor. -/
def secondKnown : JobOutcomes ℚ Unit where
  vectors := true
  notify := true
  search
    | 1 => ⟨true, [⟨"id", 9 / 10, .object [("ehrNo", .int 41), ("name", .string "visitor")]⟩]⟩
    | _ => ⟨true, []⟩
  generateUuid := fun i => toString i
  encodeJpeg := (0, [255])
  encodeVisitorFace := fun k _ => some [UInt8.ofNat k]
  cropFaceRoi := none

def twoPersons : VisitorPushRequest where
  eventTime := "time"
  cameraName := "test_camera"
  msgId := some "msg"
  persons := [⟨"stranger", "msg", false, "NA", "NA"⟩, ⟨"visitor", "msg", true, "visitor", "41"⟩]
  original := jpegBlob "msg.jpeg" [255]
  faces := [jpegBlob "msg_0.jpeg" [0], jpegBlob "msg_1.jpeg" [1]]

/-- The stranger of track 7 and the visitor of track 9 are pushed in one request. -/
theorem twoItems_aligned :
    let s : FacePlugin ℚ Unit := .init ⟨"face_embeddings", 0⟩
    let effects := (Job.identify twoItems ⟨some ()⟩ "msg" "time" 0).run s secondKnown
    Effect.pushVisitor twoPersons ∈ effects ∧
      Aligned "face_embeddings" "msg" 0 secondKnown twoItems effects twoPersons := by
  have aligned := visitorBatch_aligned (.init ⟨"face_embeddings", 0⟩) rfl [] threeFaces
    InflightTracks.smoothFrame true allButFirst twoItems ⟨some ()⟩ "msg" "time" 0
    (List.mem_singleton.mpr rfl) secondKnown
  have pushed : Effect.pushVisitor twoPersons ∈
      (Job.identify twoItems ⟨some ()⟩ "msg" "time" 0).run
        (.init ⟨"face_embeddings", 0⟩ : FacePlugin ℚ Unit) secondKnown := by
    exact List.mem_of_getElem? (show _[6]? = _ from rfl)
  exact ⟨pushed, aligned.2.2.2 twoPersons pushed⟩

end VisitorBatches
