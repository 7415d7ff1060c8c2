import AxVision.DetectionTypes

/-!
# Payloads and push requests of the face plugin

The JSON values the plugin reads from a search hit and writes into an alert,
and the records it hands to the vector store and to the face server.
-/

namespace PushRequests

open DetectionTypes

universe u

/-- A JSON value. `int` covers both integer kinds of the library. -/
inductive Json (F : Type u) where
  | null
  | bool (b : Bool)
  | string (s : String)
  | int (i : Int)
  | float (x : F)
  | array (items : List (Json F))
  | object (fields : List (String × Json F))

variable {F : Type u}

def findField (key : String) : List (String × Json F) → Option (Json F)
  | [] => none
  | (k, v) :: rest => if k = key then some v else findField key rest

/-- Objects keep their keys in order, as `std::map` does. -/
def putField (key : String) (value : Json F) : List (String × Json F) → List (String × Json F)
  | [] => [(key, value)]
  | (k, v) :: rest =>
    if key < k then (key, value) :: (k, v) :: rest
    else if k = key then (k, value) :: rest
    else (k, v) :: putField key value rest

/-- `contains` and the read of an existing key. -/
def Json.get? : Json F → String → Option (Json F)
  | .object fields, key => findField key fields
  | _, _ => none

/-- `json[key] = value` on an object or on a fresh value. -/
def Json.set : Json F → String → Json F → Json F
  | .object fields, key, value => .object (putField key value fields)
  | _, key, value => .object [(key, value)]

/-- `get<int64_t>` of a signed or unsigned 64-bit integer. -/
def int64 (i : Int) : Int := (i + 2 ^ 63) % 2 ^ 64 - 2 ^ 63

def payloadString (payload : Json F) (key : String) (default : String) : String :=
  match payload.get? key with
  | none => default
  | some (.string s) => s
  | some (.int i) => toString (int64 i)
  | some _ => default

theorem findField_putField (key : String) (value : Json F) (fields : List (String × Json F))
    (other : String) :
    findField other (putField key value fields) =
      if other = key then some value else findField other fields := by
  induction fields with
  | nil => simp [putField, findField, eq_comm]
  | cons e rest ih =>
    obtain ⟨k, v⟩ := e
    by_cases h : other = key
    · subst h
      rw [putField]
      split
      · simp [findField]
      · split
        · next hk => simp [findField, hk]
        · next hk => simpa [findField, hk] using ih
    · rw [putField]
      split
      · simp [findField, Ne.symm h]
      · split
        · next hk =>
          subst hk
          simp [findField, Ne.symm h]
        · by_cases hk : k = other
          · simp [findField, hk]
          · simpa [findField, h, hk] using ih

@[simp] theorem Json.get?_set (j value : Json F) (key other : String) :
    (j.set key value).get? other = if other = key then some value else j.get? other := by
  cases j <;> simp [Json.set, Json.get?, findField, findField_putField, eq_comm]

@[simp] theorem Json.get?_null (key : String) : (Json.null : Json F).get? key = none := rfl

structure ImageBlob where
  filename : String
  contentType : String
  data : List UInt8
  deriving DecidableEq

/-- `description` is the dumped value; `none` is the empty text. -/
structure AlertPushRequest (F : Type u) where
  msgId : String
  eventId : String
  orgId : String
  bankId : String
  eventTime : String
  eventName : String
  channelName : String
  description : Option (Json F)
  files : List ImageBlob

structure VisitorPerson where
  eventId : String
  msgId : String
  recognized : Bool
  name : String
  ehrNo : String
  deriving DecidableEq

structure VisitorPushRequest where
  eventTime : String
  cameraName : String
  msgId : Option String
  persons : List VisitorPerson
  original : ImageBlob
  faces : List ImageBlob
  deriving DecidableEq

/-- `qdrant::Point`. -/
structure Point (F : Type u) where
  id : String
  idIsNumeric : Bool
  vector : List F
  payload : Json F

def Point.withStringId (id : String) (vector : List F) (payload : Json F) : Point F :=
  ⟨id, false, vector, payload⟩

/-- The arguments of `QdrantClient::Search`. -/
structure SearchRequest (F : Type u) where
  collection : String
  queryVector : List F
  limit : Nat
  filter : Json F
  withPayload : Bool
  withVector : Bool
  scoreThreshold : Option F

structure ScoredPoint (F : Type u) where
  id : String
  score : F
  payload : Json F

/-- `SearchResult`: a failed call has no meaningful points. -/
structure SearchResult (F : Type u) where
  ok : Bool
  points : List (ScoredPoint F)

def makeStrangerBoxJson (face : Object F) : Json F :=
  ((((Json.null.set "x" (.float face.rect.x)).set "y" (.float face.rect.y)).set
    "width" (.float face.rect.width)).set "height" (.float face.rect.height))

def withTrackId (j : Json F) (trackId : Int) : Json F :=
  if trackId ≥ 0 then j.set "track_id" (.int trackId) else j

/-- `MakeStrangerAlertDescription` of one face. -/
def strangerDescription (trackId : Int) (face : Object F) : Json F :=
  (withTrackId (Json.null.set "event" (.string "陌生人闯入")) trackId).set "box"
    (makeStrangerBoxJson face)

def strangerEntry (stranger : Int × Object F) : Json F :=
  (withTrackId .null stranger.1).set "box" (makeStrangerBoxJson stranger.2)

/-- `MakeStrangerAlertDescription` of a batch. -/
def makeStrangerAlertDescription : List (Int × Object F) → Option (Json F)
  | [] => none
  | [(trackId, face)] => some (strangerDescription trackId face)
  | strangers =>
    some ((Json.null.set "event" (.string "陌生人闯入")).set "faces"
      (.array (strangers.map strangerEntry)))

def intField (j : Json F) (key : String) : List Int :=
  match j.get? key with
  | some (.int i) => [i]
  | _ => []

/-- The track ids a description names: its own, or those of its faces. -/
def describedIds (desc : Json F) : List Int :=
  intField desc "track_id" ++
    match desc.get? "faces" with
    | some (.array entries) => entries.flatMap fun e => intField e "track_id"
    | _ => []

def AlertPushRequest.trackIds (req : AlertPushRequest F) : List Int :=
  match req.description with
  | some desc => describedIds desc
  | none => []

theorem describedIds_single (trackId : Int) (face : Object F) :
    describedIds (strangerDescription trackId face) = if trackId ≥ 0 then [trackId] else [] := by
  by_cases h : trackId ≥ 0 <;>
    simp [describedIds, strangerDescription, withTrackId, intField, h]

theorem intField_entry (stranger : Int × Object F) :
    intField (strangerEntry stranger) "track_id" =
      if stranger.1 ≥ 0 then [stranger.1] else [] := by
  by_cases h : stranger.1 ≥ 0 <;>
    simp [strangerEntry, withTrackId, intField, h]

/-- A description names exactly the non-negative ids of its strangers, in order. -/
theorem described_ids (strangers : List (Int × Object F)) :
    ((makeStrangerAlertDescription strangers).map describedIds).getD [] =
      (strangers.map Prod.fst).filter fun trackId => trackId ≥ 0 := by
  match strangers with
  | [] => rfl
  | [(trackId, face)] =>
    by_cases h : trackId ≥ 0 <;>
      simp [makeStrangerAlertDescription, describedIds_single, h]
  | first :: second :: rest =>
    have entries : ∀ l : List (Int × Object F),
        (l.map strangerEntry).flatMap (fun e => intField e "track_id") =
          (l.map Prod.fst).filter fun trackId => trackId ≥ 0 := by
      intro l
      induction l with
      | nil => rfl
      | cons s l ih =>
        rw [List.map_cons, List.flatMap_cons, ih, intField_entry, List.map_cons, List.filter_cons]
        by_cases h : s.1 ≥ 0 <;> simp [h]
    have top : describedIds
        ((Json.null.set "event" (.string "陌生人闯入")).set "faces"
          (.array ((first :: second :: rest).map strangerEntry))) =
        ((first :: second :: rest).map strangerEntry).flatMap fun e => intField e "track_id" := by
      simp [describedIds, intField]
    rw [makeStrangerAlertDescription]
    · exact top.trans (entries _)
    · simp
    · simp

end PushRequests
