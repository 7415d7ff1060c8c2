import AxVision.FaceRecognition

/-!
# What an identify job reports

The effects of one `RunIdentifyAndPush`: which items are classified as
strangers, which results are posted, and when an alert names them.
-/

namespace IdentifyJobs

open DetectionTypes KeyedTables PushRequests FaceRecognition

universe u v

variable {F : Type u} {P : Type v}

/-- Item `k` of the batch was searched for and is nobody the store knows. -/
def strangersFrom (out : JobOutcomes F P) : Nat → List (IdentifyItem F P) → List (IdentifyItem F P)
  | _, [] => []
  | i, item :: rest =>
    if (out.search i).ok && isStranger (out.search i) then item :: strangersFrom out (i + 1) rest
    else strangersFrom out (i + 1) rest

def postsFrom (out : JobOutcomes F P) : Nat → List (IdentifyItem F P) → List IdentifyResult
  | _, [] => []
  | i, item :: rest => ⟨item.trackId, (out.search i).ok⟩ :: postsFrom out (i + 1) rest

/-- The items whose search succeeded, in batch order, with the number of the search. -/
def succeeded (out : JobOutcomes F P) (i : Nat) (batch : List (IdentifyItem F P)) :
    List (IdentifyItem F P × Nat) :=
  (batch.zipIdx i).filter fun e => (out.search e.2).ok

theorem strangersFrom_eq (out : JobOutcomes F P) (i : Nat) (batch : List (IdentifyItem F P)) :
    strangersFrom out i batch =
      ((succeeded out i batch).filter fun e => isStranger (out.search e.2)).map Prod.fst := by
  induction batch generalizing i with
  | nil => rfl
  | cons item rest ih =>
    rw [strangersFrom, succeeded, List.zipIdx_cons, List.filter_filter]
    by_cases stranger : (out.search i).ok && isStranger (out.search i)
    · rw [if_pos stranger, ih, succeeded, List.filter_cons_of_pos (by simpa [and_comm] using stranger),
        List.filter_filter]
      rfl
    · rw [if_neg stranger, ih, succeeded, List.filter_cons_of_neg (by simpa [and_comm] using stranger),
        List.filter_filter]

theorem mem_strangersFrom {out : JobOutcomes F P} {i : Nat} {batch : List (IdentifyItem F P)}
    {item : IdentifyItem F P} :
    item ∈ strangersFrom out i batch ↔
      ∃ k, batch[k]? = some item ∧ (out.search (i + k)).ok = true ∧
        isStranger (out.search (i + k)) = true := by
  have numbered : item ∈ strangersFrom out i batch ↔
      ∃ n, (item, n) ∈ batch.zipIdx i ∧ isStranger (out.search n) = true ∧
        (out.search n).ok = true := by
    simp [strangersFrom_eq, succeeded]
  rw [numbered]
  constructor
  · rintro ⟨n, member, stranger, ok⟩
    obtain ⟨le, held⟩ := List.mk_mem_zipIdx_iff_le_and_getElem?_sub.mp member
    refine ⟨n - i, held, ?_⟩
    rw [Nat.add_sub_cancel' le]
    exact ⟨ok, stranger⟩
  · rintro ⟨k, held, ok, stranger⟩
    exact ⟨i + k, List.mk_add_mem_zipIdx_iff_getElem?.mpr held, stranger, ok⟩

section Loop

variable [Scalar F] (collection captureMsgId : String) (curCreatedAt : Int)
  (out : JobOutcomes F P)

/-- One search and one result an item, in batch order. -/
theorem loop_calls (i : Nat) (batch : List (IdentifyItem F P)) (acc : Identified F P) :
    (identifyLoop collection captureMsgId curCreatedAt out i batch acc).1 =
      (batch.zipIdx i).flatMap fun e =>
        [.search (searchRequest collection e.1), .post ⟨e.1.trackId, (out.search e.2).ok⟩] := by
  induction batch generalizing i acc with
  | nil => rfl
  | cons item rest ih => simp [identifyLoop, ih, List.zipIdx_cons]

theorem loop_effects (i : Nat) (batch : List (IdentifyItem F P)) (acc : Identified F P)
    (e : Effect F) :
    e ∈ (identifyLoop collection captureMsgId curCreatedAt out i batch acc).1 ↔
      (∃ item ∈ batch, e = .search (searchRequest collection item)) ∨
        ∃ r ∈ postsFrom out i batch, e = .post r := by
  induction batch generalizing i acc with
  | nil => simp [identifyLoop, postsFrom]
  | cons item rest ih =>
    simp only [identifyLoop, postsFrom, List.mem_cons, ih, exists_eq_or_imp]
    rw [← or_assoc, or_or_or_comm]

def gather (acc : Identified F P) (e : IdentifyItem F P × Nat) : Identified F P :=
  acc.add captureMsgId curCreatedAt (out.generateUuid e.2) e.1 (out.search e.2)

/-- The loop gathers the items whose search succeeded and no other. -/
theorem loop_found (i : Nat) (batch : List (IdentifyItem F P)) (acc : Identified F P) :
    (identifyLoop collection captureMsgId curCreatedAt out i batch acc).2 =
      (succeeded out i batch).foldl (gather captureMsgId curCreatedAt out) acc := by
  induction batch generalizing i acc with
  | nil => rfl
  | cons item rest ih =>
    rw [identifyLoop, ih]
    simp only [succeeded, List.zipIdx_cons]
    by_cases ok : (out.search i).ok = true
    · rw [List.filter_cons_of_pos (by simpa using ok), if_pos ok]
      rfl
    · rw [List.filter_cons_of_neg (by simpa using ok), if_neg ok]

/-- What has been gathered: a person and a picture for every item, and for every
stranger a point and a face of the alert. -/
structure Gathered (found : List (IdentifyItem F P × Nat)) (acc all : Identified F P) : Prop where
  persons : all.persons =
    acc.persons ++ found.map fun e => visitorPerson captureMsgId (out.search e.2)
  visitorFaces : all.visitorFaces = acc.visitorFaces ++ found.map fun e => e.1.faceImg
  points : all.points = acc.points ++ (found.filter fun e => isStranger (out.search e.2)).map
    fun e => strangerPoint (out.generateUuid e.2) e.1 curCreatedAt
  alertStrangerFaces : all.alertStrangerFaces = acc.alertStrangerFaces ++
    (found.filter fun e => isStranger (out.search e.2)).map fun e => (e.1.trackId, e.1.face)
  isSendAlert : all.isSendAlert =
    (acc.isSendAlert || !(found.filter fun e => isStranger (out.search e.2)).isEmpty)

omit [Scalar F] in
theorem gathered (found : List (IdentifyItem F P × Nat)) (acc : Identified F P) :
    Gathered captureMsgId curCreatedAt out found acc
      (found.foldl (gather captureMsgId curCreatedAt out) acc) := by
  induction found generalizing acc with
  | nil => exact ⟨by simp, by simp, by simp, by simp, by simp⟩
  | cons e rest ih =>
    obtain ⟨persons, visitorFaces, points, faces, alert⟩ :=
      ih (gather captureMsgId curCreatedAt out acc e)
    rw [List.foldl_cons]
    refine ⟨?_, ?_, ?_, ?_, ?_⟩
    · rw [persons]
      simp [gather, Identified.add]
    · rw [visitorFaces]
      simp [gather, Identified.add]
    · rw [points]
      cases stranger : isStranger (out.search e.2) <;> simp [gather, Identified.add, stranger]
    · rw [faces]
      cases stranger : isStranger (out.search e.2) <;> simp [gather, Identified.add, stranger]
    · rw [alert]
      cases stranger : isStranger (out.search e.2) <;> simp [gather, Identified.add, stranger]

theorem loop_gathered (i : Nat) (batch : List (IdentifyItem F P)) (acc : Identified F P) :
    Gathered captureMsgId curCreatedAt out (succeeded out i batch) acc
      (identifyLoop collection captureMsgId curCreatedAt out i batch acc).2 := by
  rw [loop_found]
  exact gathered captureMsgId curCreatedAt out (succeeded out i batch) acc

theorem loop_strangers (i : Nat) (batch : List (IdentifyItem F P)) (acc : Identified F P) :
    (identifyLoop collection captureMsgId curCreatedAt out i batch acc).2.alertStrangerFaces =
      acc.alertStrangerFaces ++
        (strangersFrom out i batch).map fun item => (item.trackId, item.face) := by
  rw [(loop_gathered collection captureMsgId curCreatedAt out i batch acc).alertStrangerFaces,
    strangersFrom_eq, List.map_map]
  rfl

theorem loop_isSendAlert (i : Nat) (batch : List (IdentifyItem F P)) (acc : Identified F P) :
    (identifyLoop collection captureMsgId curCreatedAt out i batch acc).2.isSendAlert =
      (acc.isSendAlert || !(strangersFrom out i batch).isEmpty) := by
  rw [(loop_gathered collection captureMsgId curCreatedAt out i batch acc).isSendAlert,
    strangersFrom_eq, List.isEmpty_map]

end Loop

/-- The classification of the job: it searched for the item and found nobody. -/
def Classified (host : Bool) (out : JobOutcomes F P) (batch : List (IdentifyItem F P))
    (item : IdentifyItem F P) : Prop :=
  host = true ∧ out.vectors = true ∧ out.notify = true ∧
    ∃ k, batch[k]? = some item ∧ (out.search k).ok = true ∧ isStranger (out.search k) = true

def Reported (effects : List (Effect F)) (trackId : Int) : Prop :=
  ∃ req, Effect.pushAlert req ∈ effects ∧ trackId ∈ req.trackIds

/-- The result that sets `feat_done` and ends every later attempt. -/
def Closed (effects : List (Effect F)) (trackId : Int) : Prop :=
  Effect.post ⟨trackId, true⟩ ∈ effects

def StrangersKept [Scalar F] (host : Bool) (collection : String)
    (batch : List (IdentifyItem F P)) (captureMsgId curTime : String) (curCreatedAt : Int)
    (out : JobOutcomes F P) : Prop :=
  ∀ item, Classified host out batch item →
    Reported (runIdentifyAndPush host collection batch captureMsgId curTime curCreatedAt out)
        item.trackId ∨
      ¬Closed (runIdentifyAndPush host collection batch captureMsgId curTime curCreatedAt out)
        item.trackId

theorem classified_iff {out : JobOutcomes F P} {batch : List (IdentifyItem F P)}
    {item : IdentifyItem F P} (hv : out.vectors = true) (hn : out.notify = true) :
    Classified true out batch item ↔ item ∈ strangersFrom out 0 batch := by
  rw [mem_strangersFrom]
  simp [Classified, hv, hn]

theorem postsFrom_eq (out : JobOutcomes F P) (i : Nat) (batch : List (IdentifyItem F P)) :
    postsFrom out i batch =
      (batch.zipIdx i).map fun e => ⟨e.1.trackId, (out.search e.2).ok⟩ := by
  induction batch generalizing i with
  | nil => rfl
  | cons item rest ih => rw [postsFrom, ih, List.zipIdx_cons, List.map_cons]

theorem post_of_search (out : JobOutcomes F P) {i k : Nat} {batch : List (IdentifyItem F P)}
    {item : IdentifyItem F P} (held : batch[k]? = some item) :
    ⟨item.trackId, (out.search (i + k)).ok⟩ ∈ postsFrom out i batch := by
  rw [postsFrom_eq]
  exact List.mem_map.mpr ⟨(item, i + k), List.mk_add_mem_zipIdx_iff_getElem?.mpr held, rfl⟩

theorem pushAlert_mem_report {captureMsgId curTime : String} {out : JobOutcomes F P}
    {found : Identified F P} {req : AlertPushRequest F} :
    Effect.pushAlert req ∈ report captureMsgId curTime out found ↔
      found.isSendAlert = true ∧ ∃ frame, frameJpeg out = some frame ∧
        req = alertRequest captureMsgId curTime
          (makeStrangerAlertDescription found.alertStrangerFaces)
          (jpegBlob (captureMsgId ++ ".jpeg") frame) := by
  have noVisitor : ∀ oriImg,
      Effect.pushAlert req ∉ visitorEffects captureMsgId curTime out found oriImg := by
    intro oriImg
    simp only [visitorEffects]
    split <;> simp
  cases hs : found.isSendAlert with
  | false =>
    have none : Effect.pushAlert req ∉ report captureMsgId curTime out found := by
      simp only [report]
      split
      · simp
      · cases frameJpeg out <;> simp [alertEffects, hs, noVisitor]
    simp [none]
  | true => cases hj : frameJpeg out <;> simp [report, hs, hj, alertEffects, noVisitor]

section Run

variable [Scalar F] {collection captureMsgId curTime : String} {curCreatedAt : Int}
  {out : JobOutcomes F P} {batch : List (IdentifyItem F P)}

/-- The description of the alert names every classified stranger with a track id. -/
theorem alert_trackIds (oriImg : ImageBlob) :
    (alertRequest captureMsgId curTime
        (makeStrangerAlertDescription
          (identifyLoop collection captureMsgId curCreatedAt out 0 batch {}).2.alertStrangerFaces)
        oriImg).trackIds =
      ((strangersFrom out 0 batch).map IdentifyItem.trackId).filter fun trackId => trackId ≥ 0 := by
  rw [loop_strangers]
  have named := described_ids
    ((strangersFrom out 0 batch).map fun item => (item.trackId, item.face))
  have first : ((strangersFrom out 0 batch).map fun item => (item.trackId, item.face)).map
      Prod.fst = (strangersFrom out 0 batch).map IdentifyItem.trackId := by
    simp [Function.comp_def]
  rw [first] at named
  rw [← named]
  simp only [AlertPushRequest.trackIds, alertRequest, List.nil_append]
  cases makeStrangerAlertDescription
    ((strangersFrom out 0 batch).map fun item => (item.trackId, item.face)) <;> rfl

theorem pushAlert_mem_run (hv : out.vectors = true) (hn : out.notify = true)
    {req : AlertPushRequest F} :
    Effect.pushAlert req ∈
        runIdentifyAndPush true collection batch captureMsgId curTime curCreatedAt out ↔
      Effect.pushAlert req ∈ report captureMsgId curTime out
        (identifyLoop collection captureMsgId curCreatedAt out 0 batch {}).2 := by
  have noLoop : Effect.pushAlert req ∉
      (identifyLoop collection captureMsgId curCreatedAt out 0 batch {}).1 := by
    rw [loop_effects]
    rintro (⟨item, -, h⟩ | ⟨r, -, h⟩) <;> cases h
  have noUpsert : ∀ found : Identified F P,
      Effect.pushAlert req ∉ upsertEffects collection found := by
    intro found
    simp only [upsertEffects]
    split <;> simp
  simp [runIdentifyAndPush, hv, hn, noLoop, noUpsert]

/-- A job with both clients reports a track exactly when it classified it as a
stranger with a track id and could encode the frame. -/
theorem reported_iff (hv : out.vectors = true) (hn : out.notify = true) (trackId : Int) :
    Reported (runIdentifyAndPush true collection batch captureMsgId curTime curCreatedAt out)
        trackId ↔
      (frameJpeg out).isSome = true ∧ 0 ≤ trackId ∧
        trackId ∈ (strangersFrom out 0 batch).map IdentifyItem.trackId := by
  have alert : (identifyLoop collection captureMsgId curCreatedAt out 0 batch {}).2.isSendAlert =
      !(strangersFrom out 0 batch).isEmpty := by
    simpa using loop_isSendAlert collection captureMsgId curCreatedAt out 0 batch {}
  constructor
  · rintro ⟨req, hreq, hmem⟩
    obtain ⟨-, frame, hframe, rfl⟩ := pushAlert_mem_report.mp ((pushAlert_mem_run hv hn).mp hreq)
    rw [alert_trackIds, List.mem_filter] at hmem
    exact ⟨by simp [hframe], by simpa using hmem.2, hmem.1⟩
  · rintro ⟨hframe, nonneg, hmem⟩
    obtain ⟨frame, hframe⟩ := Option.isSome_iff_exists.mp hframe
    have some_stranger : strangersFrom out 0 batch ≠ [] := by
      rintro hnil
      simp [hnil] at hmem
    refine ⟨_, (pushAlert_mem_run hv hn).mpr (pushAlert_mem_report.mpr ⟨?_, frame, hframe, rfl⟩), ?_⟩
    · rw [alert]
      simpa using some_stranger
    · rw [alert_trackIds, List.mem_filter]
      exact ⟨hmem, by simpa using nonneg⟩

theorem post_mem_run {r : IdentifyResult} (hv : out.vectors = true) (hn : out.notify = true)
    (posted : r ∈ postsFrom out 0 batch) :
    Effect.post r ∈
      runIdentifyAndPush true collection batch captureMsgId curTime curCreatedAt out := by
  have loop : Effect.post r ∈
      (identifyLoop collection captureMsgId curCreatedAt out 0 batch {}).1 :=
    (loop_effects ..).mpr (Or.inr ⟨r, posted, rfl⟩)
  simp [runIdentifyAndPush, hv, hn, loop]

/-- Every item of a job gets a result, whatever the calls return. -/
theorem item_posted {item : IdentifyItem F P} (h : item ∈ batch) :
    ∃ ok, Effect.post ⟨item.trackId, ok⟩ ∈
      runIdentifyAndPush true collection batch captureMsgId curTime curCreatedAt out := by
  by_cases clients : out.vectors = true ∧ out.notify = true
  · obtain ⟨k, hk⟩ := List.mem_iff_getElem?.mp h
    exact ⟨_, post_mem_run clients.1 clients.2 (post_of_search out (i := 0) hk)⟩
  · have missing : (!out.vectors || !out.notify) = true := by
      simpa [Classical.or_iff_not_imp_left] using clients
    refine ⟨false, ?_⟩
    simp only [runIdentifyAndPush, missing, Bool.not_true, Bool.false_eq_true, if_false, if_true]
    exact List.mem_map_of_mem h

end Run

/-- No stranger of the batch is lost exactly when the frame of the job can be
encoded or the batch holds none. The track is closed right after its search,
and the picture that every alert of the batch needs is taken after the loop. -/
theorem strangersKept_iff [Scalar F] (host : Bool) (collection captureMsgId curTime : String)
    (curCreatedAt : Int) (batch : List (IdentifyItem F P)) (out : JobOutcomes F P)
    (nonneg : ∀ item ∈ batch, 0 ≤ item.trackId) :
    StrangersKept host collection batch captureMsgId curTime curCreatedAt out ↔
      (out.encodeJpeg.1 = 0 ∧ out.encodeJpeg.2 ≠ []) ∨ ∀ item, ¬Classified host out batch item := by
  have encoded : (frameJpeg out).isSome = true ↔
      (out.encodeJpeg.1 = 0 ∧ out.encodeJpeg.2 ≠ []) := by
    simp [frameJpeg, not_or]
  rw [← encoded]
  constructor
  · intro kept
    by_contra lost
    obtain ⟨unencoded, item, hitem⟩ : (frameJpeg out).isSome ≠ true ∧
        ∃ item, Classified host out batch item := by simpa [not_or] using lost
    obtain ⟨rfl, hv, hn, k, held, hok, hs⟩ := hitem
    rcases kept item ⟨rfl, hv, hn, k, held, hok, hs⟩ with reported | opened
    · exact unencoded ((reported_iff hv hn _).mp reported).1
    · apply opened
      have posted := post_of_search out (i := 0) held
      rw [Nat.zero_add, hok] at posted
      exact post_mem_run hv hn posted
  · intro ok item hitem
    rcases ok with encoded | none
    · obtain ⟨rfl, hv, hn, k, held, hs⟩ := hitem
      have stranger := (classified_iff hv hn).mp ⟨rfl, hv, hn, k, held, hs⟩
      exact Or.inl ((reported_iff hv hn _).mpr
        ⟨encoded, nonneg item (List.mem_of_getElem? held), List.mem_map_of_mem stranger⟩)
    · exact absurd hitem (none item)

/-- One face of track 7 with a feature. -/
def doorItem : IdentifyItem ℚ Unit where
  trackId := 7
  face :=
    { rect := ⟨100, 50, 80, 96⟩, label := 0, prob := 9 / 10, landmark := Vector.replicate 5 ⟨0, 0⟩
      mask := [], maskFeat := [], kpsFeat := [], angle := 0, modelName := "scrfd"
      labelName := "face", trackId := 7 }
  feat := [1]
  faceImg := ⟨some ()⟩

/-- Every call of the job succeeds and the search finds nobody; the encoder
returns `code` and `bytes`. -/
def noHitOutcomes (code : Int) (bytes : List UInt8) : JobOutcomes ℚ Unit where
  vectors := true
  notify := true
  search := fun _ => ⟨true, []⟩
  generateUuid := fun _ => "uuid"
  encodeJpeg := (code, bytes)
  encodeVisitorFace := fun _ _ => some [255]
  cropFaceRoi := some ⟨some ()⟩

theorem stranger_kept_when_encoded :
    StrangersKept true "face_embeddings" [doorItem] "msg" "time" 0 (noHitOutcomes 0 [255]) :=
  (strangersKept_iff true "face_embeddings" "msg" "time" 0 [doorItem] (noHitOutcomes 0 [255])
    (by simp [doorItem])).mpr (Or.inl ⟨rfl, by simp [noHitOutcomes]⟩)

/-- The search closes track 7, then the encoder fails and no alert is pushed. -/
theorem stranger_lost_when_encoder_fails :
    ¬StrangersKept true "face_embeddings" [doorItem] "msg" "time" 0 (noHitOutcomes (-1) []) := by
  intro kept
  have trace :
      runIdentifyAndPush true "face_embeddings" [doorItem] "msg" "time" 0 (noHitOutcomes (-1) []) =
        [.search (searchRequest "face_embeddings" doorItem), .post ⟨7, true⟩,
          .upsertPoints "face_embeddings" [strangerPoint "uuid" doorItem 0]] := by
    rfl
  rcases kept doorItem ⟨rfl, rfl, rfl, 0, rfl, rfl, rfl⟩ with ⟨req, hreq, -⟩ | opened
  · simp [trace] at hreq
  · apply opened
    rw [Closed, trace]
    simp [doorItem]

end IdentifyJobs
