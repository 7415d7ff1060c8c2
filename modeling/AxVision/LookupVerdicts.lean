import AxVision.FaceRecognition
import AxVision.ResponseTotality

/-!
# What an empty search result means

A search that is ok and has no points makes the face plugin report a stranger
and store a new point. The client also answers so when it could not read the
response at all.
-/

namespace LookupVerdicts

open DetectionTypes HttpResponses QdrantResponses ResponseTotality
open PushRequests hiding SearchResult ScoredPoint

universe u

variable {F : Type u}

/-- The body is a JSON value with a list of hits, all of them objects. -/
def WellFormed (json : JsonLibrary F) (bytes : List UInt8) : Prop :=
  bytes ≠ [] ∧ ∃ j items, json.parse bytes = .ok j ∧ resultList j = some items ∧
    ∀ hit ∈ items, ∃ fields, hit = .object fields

/-- The transfer that decides a search. -/
def lastReply (client : QdrantClient F) (req : SearchRequest F) : HttpResponse :=
  (searchReplies client req (searchAttempt client req)).response

/-- No points are reported only where the store has listed none, and a body
that is not well formed is reported as not ok. -/
structure Honest [Scalar F] (client : QdrantClient F) (req : SearchRequest F) : Prop where
  noMatch : ∀ r, client.search req = .ok r → r.ok = true → r.points = [] →
    isSuccess (lastReply client req).status = true ∧ (lastReply client req).body ≠ [] ∧
      ∃ j, client.json.parse (lastReply client req).body = .ok j ∧ resultList j = some []
  malformed : isSuccess (lastReply client req).status = true →
    ¬WellFormed client.json (lastReply client req).body →
      ∃ r, client.search req = .ok r ∧ r.ok = false

section Search

variable [Scalar F] {client : QdrantClient F} {req : SearchRequest F}

theorem scoredPoints_length {json : JsonLibrary F} {items : List (Json F)}
    {points : List (ScoredPoint F)} (objects : ∀ hit ∈ items, ∃ fields, hit = .object fields)
    (read : scoredPoints json items = .ok points) : points.length = items.length := by
  induction items generalizing points with
  | nil =>
    cases read
    rfl
  | cons hit rest ih =>
    obtain ⟨fields, rfl⟩ := objects hit List.mem_cons_self
    rw [scoredPoints] at read
    cases first : scoredVector fields with
    | error e =>
      rw [first] at read
      cases read
    | ok vector =>
      cases tail : scoredPoints json rest with
      | error e =>
        rw [first, tail] at read
        cases read
      | ok others =>
        rw [first, tail] at read
        cases read
        have length := ih (fun hit mem => objects hit (List.mem_cons_of_mem _ mem)) tail
        simp only [List.length_cons, length]

/-- A search that returns an ok result has read the hits of a success response. -/
theorem search_hits {r : SearchResult F} (search : client.search req = .ok r) :
    r.ok = isSuccess (lastReply client req).status ∧
      (r.ok = true → scoredPoints client.json
        ((resultList (bodyValue client.json (lastReply client req).body)).getD []) =
          .ok r.points) := by
  obtain ⟨raw, run, points, parsed, rfl⟩ := (search_ok_iff req r).mp search
  obtain ⟨-, read⟩ := (request_ok_iff raw).mp run
  obtain ⟨-, ok, body⟩ := doRequest_ok read
  refine ⟨ok, ?_⟩
  intro success
  have success : raw.ok = true := success
  rw [if_pos success, parseScoredPoints, body] at parsed
  exact parsed

omit [Scalar F] in
theorem bodyValue_parsed {json : JsonLibrary F} {bytes : List UInt8} {j : Json F}
    (some_bytes : bytes ≠ []) (parsed : json.parse bytes = .ok j) : bodyValue json bytes = j := by
  simp only [bodyValue, if_neg some_bytes, parsed]

/-- A lookup is reported for what it is exactly when its response is no success
or has a well-formed body: on a success status the client never says otherwise. -/
theorem honest_iff (client : QdrantClient F) (req : SearchRequest F) :
    Honest client req ↔
      (isSuccess (lastReply client req).status = true →
        WellFormed client.json (lastReply client req).body) := by
  constructor
  · intro honest success
    by_contra ill
    obtain ⟨r, search, failed⟩ := honest.malformed success ill
    obtain ⟨ok, -⟩ := search_hits search
    rw [failed, success] at ok
    cases ok
  · intro formed
    constructor
    · intro r search ok none
      obtain ⟨same, read⟩ := search_hits search
      have success : isSuccess (lastReply client req).status = true := same.symm.trans ok
      obtain ⟨some_bytes, j, items, parsed, list, objects⟩ := formed success
      have points := read ok
      rw [bodyValue_parsed some_bytes parsed, list, none, Option.getD_some] at points
      have length := scoredPoints_length objects points
      have empty : items = [] := List.length_eq_zero_iff.mp length.symm
      exact ⟨success, some_bytes, j, parsed, empty ▸ list⟩
    · intro success ill
      exact absurd (formed success) ill

omit [Scalar F] in
/-- To the face plugin a lookup without points has found a stranger. -/
theorem noPoints_stranger {r : SearchResult F} (none : r.points = []) :
    FaceRecognition.isStranger r.found = true := by
  rw [SearchResult.found, none]
  rfl

end Search

/-- One face to look up. -/
def faceRequest : SearchRequest ℚ := ⟨"face_embeddings", [1], 1, .null, true, false, some (65 / 100)⟩

/-- The page `{"result":[]}`. -/
def emptyPage : List UInt8 := [123, 34, 114, 101, 115, 117, 108, 116, 34, 58, 91, 93, 125]

theorem emptyPage_honest :
    Honest (pageClient 200 emptyPage (.object [("result", .array [])])) faceRequest := by
  apply (honest_iff (pageClient 200 emptyPage (.object [("result", .array [])])) faceRequest).mpr
  intro _
  refine ⟨by decide, .object [("result", .array [])], [], rfl, rfl, ?_⟩
  intro hit mem
  cases mem

/-- A response that breaks off after its status line has an empty body, and the
face is taken for a stranger's. -/
theorem emptyBody_noMatch :
    ¬∀ (client : QdrantClient ℚ) (req : SearchRequest ℚ), Honest client req := by
  intro always
  have honest := always { pageClient 200 emptyPage .null with
    transfer := fun _ _ => .performed 200 [] } faceRequest
  exact (honest.noMatch _ rfl rfl rfl).2.1 rfl

end LookupVerdicts
