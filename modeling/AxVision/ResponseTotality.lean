import AxVision.QdrantResponses

/-!
# Which responses the vector client survives

A failure response may state its error in the body, and the client takes that
value for a string. A search also reads the vectors of its hits. Nothing else
of a response can make the client throw.
-/

namespace ResponseTotality

open DetectionTypes HttpResponses QdrantResponses
open PushRequests hiding SearchResult ScoredPoint

universe u

variable {F : Type u}

/-- The value of a response body; null stands for no JSON at all. -/
def bodyValue (json : JsonLibrary F) (bytes : List UInt8) : Json F :=
  if bytes = [] then .null
  else
    match json.parse bytes with
    | .ok j => j
    | .error _ => .null

/-- The value in which a body states an error: `status.error`, or a text `status`. -/
def statedError (body : Json F) : Option (Json F) :=
  match body.get? "status" with
  | some (.object fields) => findField "error" fields
  | some (.string text) => some (.string text)
  | _ => none

/-- The stated error of an HTTP failure. -/
def complaint (json : JsonLibrary F) (resp : HttpResponse) : Option (Json F) :=
  if resp.status = 0 ∨ isSuccess resp.status = true then none
  else statedError (bodyValue json resp.body)

def Readable (json : JsonLibrary F) (t : Transfer) : Prop :=
  ∀ stated, complaint json t.response = some stated → ∃ text, stated = .string text

/-- What a failure states, if anything, is a text that is not empty. -/
def Described (json : JsonLibrary F) (t : Transfer) : Prop :=
  ∀ stated, complaint json t.response = some stated → ∃ text, stated = .string text ∧ text ≠ ""

/-- A hit has no vector or a vector of numbers. -/
def NumericVector (hit : Json F) : Prop :=
  ∀ fields items, hit = .object fields → findField "vector" fields = some (.array items) →
    ∀ j ∈ items, isNumeric j = true

/-- For a response of this status the call returns: its result has the status, is ok exactly
if the status is a success, and has an error text if it is not ok. -/
def Settled (status : Int) (outcome : Except String (ApiResult F)) : Prop :=
  ∃ r, outcome = .ok r ∧ r.httpStatus = status ∧ (r.ok = true ↔ 200 ≤ status ∧ status < 300) ∧
    (r.ok = false → r.error ≠ "")

section Response

variable {json : JsonLibrary F} {t : Transfer} {r : ApiResult F}

theorem Described.readable (described : Described json t) : Readable json t := by
  intro stated complains
  obtain ⟨text, same, -⟩ := described stated complains
  exact ⟨text, same⟩

theorem parseBody_value (json : JsonLibrary F) (resp : HttpResponse) :
    (parseBody json resp).1 = bodyValue json resp.body := by
  unfold parseBody bodyValue
  by_cases empty : resp.body = []
  · rw [if_pos empty, if_pos empty]
  · rw [if_neg empty, if_neg empty]
    cases json.parse resp.body with
    | ok j => rfl
    | error what => rfl

theorem parseBody_error (json : JsonLibrary F) {resp : HttpResponse} (stated : resp.error ≠ "") :
    (parseBody json resp).2 = resp.error := by
  unfold parseBody
  split
  · rfl
  · split
    · rfl
    · rfl

/-- With an error at hand, an HTTP failure takes the stated value or keeps it. -/
theorem failureText_eq (status : Int) (body : Json F) {error : String} (stated : error ≠ "") :
    failureText status body error =
      match statedError body with
      | some value => getString value
      | none => .ok error := by
  simp only [failureText, statedError, if_neg stated]
  cases body.get? "status" with
  | none => rfl
  | some value =>
    cases value with
    | object fields => rfl
    | string text => rfl
    | _ => rfl

theorem getString_ok_iff {j : Json F} {text : String} :
    getString j = .ok text ↔ j = .string text := by
  cases j with
  | string s => simp [getString]
  | _ => simp [getString]

/-- The result of a response but for the error that its body states. -/
theorem readResponse_cases (json : JsonLibrary F) (t : Transfer) :
    ∃ r : ApiResult F, r.httpStatus = t.response.status ∧ r.ok = isSuccess t.response.status ∧
      r.body = bodyValue json t.response.body ∧ (r.ok = false → r.error ≠ "") ∧
      readResponse json t.response =
        match complaint json t.response with
        | none => .ok r
        | some stated =>
          match getString stated with
          | .error e => .error e
          | .ok text => .ok { r with error := text } := by
  have value := parseBody_value json t.response
  have error : isSuccess t.response.status = false →
      (parseBody json t.response).2 = t.response.error :=
    fun failed => parseBody_error json (response_error t failed)
  simp only [readResponse, complaint]
  cases parsed : parseBody json t.response with
  | mk body text =>
    rw [parsed] at value error
    dsimp only at value error ⊢
    by_cases zero : t.response.status = 0
    · have failed : isSuccess t.response.status = false := by
        rw [zero]
        rfl
      rw [if_pos zero, if_pos (.inl zero)]
      refine ⟨_, rfl, failed.symm, value, fun _ => ?_, rfl⟩
      dsimp only
      rw [error failed]
      exact response_error t failed
    · rw [if_neg zero]
      cases success : isSuccess t.response.status with
      | true =>
        rw [if_pos rfl, if_pos (.inr rfl)]
        exact ⟨_, rfl, rfl, value, fun failed => (by cases failed), rfl⟩
      | false =>
        have neither : ¬(t.response.status = 0 ∨ false = true) := by
          rintro (zero' | success)
          · exact zero zero'
          · cases success
        have stated : text ≠ "" := by
          rw [error success]
          exact response_error t success
        rw [if_neg Bool.false_ne_true, if_neg neither, ← value, failureText_eq _ _ stated]
        refine ⟨⟨false, t.response.status, t.response.body, body, text⟩, rfl, rfl, rfl,
          fun _ => stated, ?_⟩
        cases statedError body with
        | none => rfl
        | some stated => rfl

theorem readResponse_readable :
    (∃ r, readResponse json t.response = .ok r) ↔ Readable json t := by
  obtain ⟨r, -, -, -, -, read⟩ := readResponse_cases json t
  rw [read]
  constructor
  · rintro ⟨r', success⟩ stated complains
    rw [complains] at success
    cases text : getString stated with
    | error e =>
      simp only [text] at success
      cases success
    | ok s => exact ⟨s, getString_ok_iff.mp text⟩
  · intro readable
    cases complains : complaint json t.response with
    | none => exact ⟨r, rfl⟩
    | some stated =>
      obtain ⟨text, rfl⟩ := readable stated complains
      exact ⟨_, rfl⟩

theorem readResponse_ok (read : readResponse json t.response = .ok r) :
    r.httpStatus = t.response.status ∧ r.ok = isSuccess t.response.status ∧
      r.body = bodyValue json t.response.body := by
  obtain ⟨r', status, ok, body, -, cases⟩ := readResponse_cases json t
  rw [cases] at read
  split at read
  · cases read
    exact ⟨status, ok, body⟩
  · split at read
    · cases read
    · cases read
      exact ⟨status, ok, body⟩

/-- A response is read into a proper result exactly when its complaint, if it
has one, is a text that is not empty. -/
theorem readResponse_settled :
    Settled t.response.status (readResponse json t.response) ↔ Described json t := by
  obtain ⟨r, status, ok, -, described, read⟩ := readResponse_cases json t
  have verdict : r.ok = true ↔ 200 ≤ t.response.status ∧ t.response.status < 300 := by
    rw [ok]
    exact isSuccess_iff _
  rw [read]
  constructor
  · rintro ⟨r', success, -, -, stated_text⟩ stated complains
    have failed : r.ok = false := by
      rw [ok]
      by_contra success
      rw [complaint, if_pos (.inr (Bool.eq_true_of_not_eq_false success))] at complains
      cases complains
    rw [complains] at success
    cases text : getString stated with
    | error e =>
      simp only [text] at success
      cases success
    | ok s =>
      simp only [text] at success
      cases success
      exact ⟨s, getString_ok_iff.mp text, stated_text failed⟩
  · intro described_text
    cases complains : complaint json t.response with
    | none => exact ⟨r, rfl, status, verdict, described⟩
    | some stated =>
      obtain ⟨text, rfl, nonempty⟩ := described_text stated complains
      exact ⟨_, rfl, status, verdict, fun _ => nonempty⟩

end Response

section Request

variable {client : QdrantClient F} {method path : String} {body : Option (Json F)}

/-- The attempt whose response `Request` returns: the first that is not to be
retried, or the last there is. -/
def lastAttempt (reply : Nat → Transfer) : Nat → Nat → Nat
  | 0, attempt => attempt
  | retries + 1, attempt =>
    if retryable (reply attempt).response.status then lastAttempt reply retries (attempt + 1)
    else attempt

/-- The transfers of a call, attempt by attempt. -/
def replies (client : QdrantClient F) (method path : String) (body : Option (Json F)) (attempt : Nat) :
    Transfer :=
  client.transfer attempt (client.httpRequest method path body)

def finalAttempt (client : QdrantClient F) (method path : String) (body : Option (Json F)) : Nat :=
  lastAttempt (replies client method path body) client.config.maxRetries.toNat 0

/-- The status of the response that counts. -/
def finalStatus (client : QdrantClient F) (method path : String) (body : Option (Json F)) : Int :=
  (replies client method path body (finalAttempt client method path body)).response.status

theorem le_lastAttempt (reply : Nat → Transfer) (retries attempt : Nat) :
    attempt ≤ lastAttempt reply retries attempt := by
  induction retries generalizing attempt with
  | zero => exact Nat.le_refl attempt
  | succ retries ih =>
    rw [lastAttempt]
    split
    · exact Nat.le_of_succ_le (ih (attempt + 1))
    · exact Nat.le_refl attempt

theorem retryable_failure {status : Int} (again : retryable status = true) :
    isSuccess status = false := by
  simp only [retryable, decide_eq_true_eq] at again
  simp only [isSuccess, decide_eq_false_iff_not]
  omega

theorem doRequest_ok {attempt : Nat} {r : ApiResult F}
    (read : client.doRequest attempt method path body = .ok r) :
    r.httpStatus = (replies client method path body attempt).response.status ∧
      r.ok = isSuccess (replies client method path body attempt).response.status ∧
      r.body = bodyValue client.json (replies client method path body attempt).response.body :=
  readResponse_ok read

theorem requestFrom_succ (retries attempt : Nat) :
    client.requestFrom method path body (retries + 1) attempt =
      match client.doRequest attempt method path body with
      | .error e => .error e
      | .ok result =>
        if result.ok ∨ retryable result.httpStatus = false then .ok result
        else client.requestFrom method path body retries (attempt + 1) :=
  rfl

/-- The status of a response alone decides whether it is the last. -/
theorem requestFrom_last {retries attempt : Nat}
    (final : retryable (replies client method path body attempt).response.status = false) :
    client.requestFrom method path body (retries + 1) attempt =
      client.doRequest attempt method path body := by
  rw [requestFrom_succ]
  cases read : client.doRequest attempt method path body with
  | error e => rfl
  | ok result =>
    obtain ⟨status, -, -⟩ := doRequest_ok read
    rw [← status] at final
    exact if_pos (.inr final)

theorem requestFrom_again {retries attempt : Nat} {result : ApiResult F}
    (again : retryable (replies client method path body attempt).response.status = true)
    (read : client.doRequest attempt method path body = .ok result) :
    client.requestFrom method path body (retries + 1) attempt =
      client.requestFrom method path body retries (attempt + 1) := by
  obtain ⟨status, ok, -⟩ := doRequest_ok read
  have goes : ¬(result.ok = true ∨ retryable result.httpStatus = false) := by
    rw [ok, status]
    rintro (success | final)
    · exact Bool.false_ne_true ((retryable_failure again).symm.trans success)
    · exact Bool.false_ne_true (final.symm.trans again)
  rw [requestFrom_succ, read]
  exact if_neg goes

theorem requestFrom_throws {retries attempt : Nat} {e : String}
    (read : client.doRequest attempt method path body = .error e) :
    client.requestFrom method path body (retries + 1) attempt = .error e := by
  rw [requestFrom_succ, read]

/-- `Request` returns what its last attempt returns, unless an attempt before throws. -/
theorem requestFrom_ok_iff (retries attempt : Nat) (r : ApiResult F) :
    client.requestFrom method path body retries attempt = .ok r ↔
      (∀ k, attempt ≤ k → k < lastAttempt (replies client method path body) retries attempt →
        Readable client.json (replies client method path body k)) ∧
      client.doRequest (lastAttempt (replies client method path body) retries attempt)
        method path body = .ok r := by
  induction retries generalizing attempt with
  | zero =>
    rw [QdrantClient.requestFrom, lastAttempt]
    constructor
    · intro read
      exact ⟨fun k first last => absurd last (Nat.not_lt_of_le first), read⟩
    · rintro ⟨-, read⟩
      exact read
  | succ retries ih =>
    rw [lastAttempt]
    cases again : retryable (replies client method path body attempt).response.status with
    | false =>
      rw [requestFrom_last again, if_neg Bool.false_ne_true]
      constructor
      · intro read
        exact ⟨fun k first last => absurd last (Nat.not_lt_of_le first), read⟩
      · rintro ⟨-, read⟩
        exact read
    | true =>
      have below := le_lastAttempt (replies client method path body) retries (attempt + 1)
      rw [if_pos rfl]
      constructor
      · intro run
        cases read : client.doRequest attempt method path body with
        | error e =>
          rw [requestFrom_throws read] at run
          cases run
        | ok result =>
          rw [requestFrom_again again read] at run
          obtain ⟨before, last⟩ := (ih (attempt + 1)).mp run
          refine ⟨?_, last⟩
          intro k first later
          by_cases same : k = attempt
          · rw [same]
            exact readResponse_readable.mp ⟨result, read⟩
          · exact before k (by omega) later
      · rintro ⟨before, last⟩
        obtain ⟨result, read⟩ :=
          readResponse_readable.mpr (before attempt (Nat.le_refl attempt) below)
        rw [requestFrom_again again read]
        exact (ih (attempt + 1)).mpr ⟨fun k first => before k (Nat.le_of_succ_le first), last⟩

theorem request_ok_iff (r : ApiResult F) :
    client.request method path body = .ok r ↔
      (∀ k < finalAttempt client method path body,
        Readable client.json (replies client method path body k)) ∧
      client.doRequest (finalAttempt client method path body) method path body = .ok r := by
  rw [QdrantClient.request, requestFrom_ok_iff]
  simp only [Nat.zero_le, true_implies]
  rfl

theorem request_settled :
    Settled (finalStatus client method path body) (client.request method path body) ↔
      (∀ k < finalAttempt client method path body,
        Readable client.json (replies client method path body k)) ∧
      Described client.json
        (replies client method path body (finalAttempt client method path body)) := by
  rw [← readResponse_settled]
  constructor
  · rintro ⟨r, run, verdict⟩
    obtain ⟨before, last⟩ := (request_ok_iff r).mp run
    exact ⟨before, r, last, verdict⟩
  · rintro ⟨before, r, last, verdict⟩
    exact ⟨r, (request_ok_iff r).mpr ⟨before, last⟩, verdict⟩

end Request

section Search

variable [Scalar F] {client : QdrantClient F}

theorem scoredVector_ok_iff (fields : List (String × Json F)) :
    (∃ vector, scoredVector fields = .ok vector) ↔ NumericVector (.object fields) := by
  unfold scoredVector NumericVector
  constructor
  · rintro ⟨vector, read⟩ fields' items same held
    cases same
    rw [held] at read
    exact (getFloats_ok_iff items).mp ⟨vector, read⟩
  · intro numeric
    cases held : findField "vector" fields with
    | none => exact ⟨[], rfl⟩
    | some value =>
      cases value with
      | array items => exact (getFloats_ok_iff items).mpr (numeric fields items rfl held)
      | _ => exact ⟨[], rfl⟩

omit [Scalar F] in
theorem numericVector_other {hit : Json F} (other : ∀ fields, hit ≠ .object fields) :
    NumericVector hit :=
  fun fields _ same => absurd same (other fields)

/-- The loop over the hits throws exactly at a vector that is not one of numbers. -/
theorem scoredPoints_ok_iff (json : JsonLibrary F) (items : List (Json F)) :
    (∃ points, scoredPoints json items = .ok points) ↔ ∀ hit ∈ items, NumericVector hit := by
  induction items with
  | nil => simp [scoredPoints]
  | cons hit rest ih =>
    rw [List.forall_mem_cons, ← ih]
    cases hit with
    | object fields =>
      rw [← scoredVector_ok_iff, scoredPoints]
      cases first : scoredVector fields with
      | error e =>
        constructor
        · rintro ⟨points, read⟩
          cases read
        · rintro ⟨⟨vector, read⟩, -⟩
          cases read
      | ok vector =>
        cases tail : scoredPoints json rest with
        | error e =>
          constructor
          · rintro ⟨points, read⟩
            cases read
          · rintro ⟨-, points, read⟩
            cases read
        | ok points => exact ⟨fun _ => ⟨⟨vector, rfl⟩, points, rfl⟩, fun _ => ⟨_, rfl⟩⟩
    | _ =>
      rw [scoredPoints]
      · exact ⟨fun tail => ⟨numericVector_other fun fields same => (by cases same), tail⟩,
          fun both => both.2⟩
      · intro fields same
        cases same

/-- The attempt that decides a search, and its transfer. -/
def searchAttempt (client : QdrantClient F) (req : SearchRequest F) : Nat :=
  finalAttempt client "POST" (searchPath req) (some (searchBody req))

def searchReplies (client : QdrantClient F) (req : SearchRequest F) (attempt : Nat) : Transfer :=
  replies client "POST" (searchPath req) (some (searchBody req)) attempt

/-- The hits of a successful response. -/
def hits (json : JsonLibrary F) (t : Transfer) : List (Json F) :=
  if isSuccess t.response.status then (resultList (bodyValue json t.response.body)).getD [] else []

/-- A search adds the points of a successful request to its result. -/
theorem search_ok_iff (req : SearchRequest F) (r : SearchResult F) :
    client.search req = .ok r ↔
      ∃ raw, client.request "POST" (searchPath req) (some (searchBody req)) = .ok raw ∧
        ∃ points, (if raw.ok then parseScoredPoints client.json raw.body else .ok []) = .ok points ∧
          r = { raw with points := points } := by
  rw [QdrantClient.search]
  cases client.request "POST" (searchPath req) (some (searchBody req)) with
  | error e => simp
  | ok raw =>
    simp only [Except.ok.injEq, exists_eq_left']
    by_cases success : raw.ok = true
    · rw [if_pos success, if_pos success]
      cases parseScoredPoints client.json raw.body with
      | error e => simp
      | ok points => simp [eq_comm]
    · rw [if_neg success, if_neg success]
      simp [eq_comm]

/-- The part of a search outcome that every call has. -/
def plain (outcome : Except String (SearchResult F)) : Except String (ApiResult F) :=
  match outcome with
  | .error e => .error e
  | .ok r => .ok r.toApiResult

omit [Scalar F] in
/-- A request that has returned is that of its last transfer, and its body has the hits. -/
theorem hits_of_request {req : SearchRequest F} {raw : ApiResult F}
    (run : client.request "POST" (searchPath req) (some (searchBody req)) = .ok raw) :
    raw.ok = isSuccess (searchReplies client req (searchAttempt client req)).response.status ∧
      hits client.json (searchReplies client req (searchAttempt client req)) =
        if raw.ok then (resultList raw.body).getD [] else [] := by
  obtain ⟨-, read⟩ := (request_ok_iff raw).mp run
  obtain ⟨-, ok, body⟩ := doRequest_ok read
  refine ⟨ok, ?_⟩
  rw [ok, body]
  rfl

theorem search_settled (req : SearchRequest F) :
    Settled (searchReplies client req (searchAttempt client req)).response.status
        (plain (client.search req)) ↔
      ((∀ k < searchAttempt client req, Readable client.json (searchReplies client req k)) ∧
        Described client.json (searchReplies client req (searchAttempt client req))) ∧
      ∀ hit ∈ hits client.json (searchReplies client req (searchAttempt client req)),
        NumericVector hit := by
  have requested : Settled (searchReplies client req (searchAttempt client req)).response.status
      (client.request "POST" (searchPath req) (some (searchBody req))) ↔
      (∀ k < searchAttempt client req, Readable client.json (searchReplies client req k)) ∧
        Described client.json (searchReplies client req (searchAttempt client req)) :=
    request_settled
  constructor
  · rintro ⟨r, run, verdict⟩
    cases search : client.search req with
    | error e =>
      rw [search] at run
      cases run
    | ok result =>
      rw [search] at run
      cases run
      obtain ⟨raw, run, points, parsed, rfl⟩ := (search_ok_iff req result).mp search
      obtain ⟨-, found⟩ := hits_of_request run
      refine ⟨requested.mp ⟨raw, run, verdict⟩, ?_⟩
      rw [found]
      by_cases success : raw.ok = true
      · rw [if_pos success] at parsed ⊢
        exact (scoredPoints_ok_iff client.json _).mp ⟨points, parsed⟩
      · rw [if_neg success]
        intro hit mem
        cases mem
  · rintro ⟨settled, numeric⟩
    obtain ⟨raw, run, verdict⟩ := requested.mpr settled
    obtain ⟨-, found⟩ := hits_of_request run
    rw [found] at numeric
    have parsed : ∃ points,
        (if raw.ok then parseScoredPoints client.json raw.body else .ok []) = .ok points := by
      by_cases success : raw.ok = true
      · rw [if_pos success] at numeric ⊢
        exact (scoredPoints_ok_iff client.json _).mpr numeric
      · rw [if_neg success]
        exact ⟨[], rfl⟩
    obtain ⟨points, parsed⟩ := parsed
    have search := (search_ok_iff req _).mpr ⟨raw, run, points, parsed, rfl⟩
    exact ⟨raw, by rw [search]; rfl, verdict⟩

end Search

/-- The calls of the client return a proper result of the response that counts exactly for
these responses: an error that a failure states is a text, and not empty in the response that
counts, and the hits of a search have vectors of numbers. -/
theorem calls_settle_iff [Scalar F] (client : QdrantClient F) :
    (∀ (attempt : Nat) (method path : String) (body : Option (Json F)),
      Settled (replies client method path body attempt).response.status
          (client.doRequest attempt method path body) ↔
        Described client.json (replies client method path body attempt)) ∧
    (∀ (method path : String) (body : Option (Json F)),
      Settled (finalStatus client method path body) (client.request method path body) ↔
        (∀ k < finalAttempt client method path body,
          Readable client.json (replies client method path body k)) ∧
        Described client.json
          (replies client method path body (finalAttempt client method path body))) ∧
    ∀ req : SearchRequest F,
      Settled (searchReplies client req (searchAttempt client req)).response.status
          (plain (client.search req)) ↔
        ((∀ k < searchAttempt client req, Readable client.json (searchReplies client req k)) ∧
          Described client.json (searchReplies client req (searchAttempt client req))) ∧
        ∀ hit ∈ hits client.json (searchReplies client req (searchAttempt client req)),
          NumericVector hit :=
  ⟨fun _ _ _ _ => readResponse_settled, fun _ _ _ => request_settled, search_settled⟩

/-- A client whose every request is answered by one page, which is the JSON text
of a value. -/
def pageClient (status : Int) (page : List UInt8) (value : Json ℚ) : QdrantClient ℚ where
  config := {}
  json :=
    { parse := fun bytes => if bytes = page then .ok value else .error "parse error"
      dump := fun _ => "" }
  transfer := fun _ _ => .performed status page

/-- The page `{"status":{"error":"gone"}}`. -/
def textPage : List UInt8 :=
  [123, 34, 115, 116, 97, 116, 117, 115, 34, 58, 123, 34, 101, 114, 114, 111, 114, 34, 58,
    34, 103, 111, 110, 101, 34, 125, 125]

/-- The page `{"status":{"error":404}}`. -/
def numberPage : List UInt8 :=
  [123, 34, 115, 116, 97, 116, 117, 115, 34, 58, 123, 34, 101, 114, 114, 111, 114, 34, 58,
    52, 48, 52, 125, 125]

theorem textPage_settled :
    Settled 404 ((pageClient 404 textPage
      (.object [("status", .object [("error", .string "gone")])])).doRequest 0 "GET" "/" none) := by
  apply ((calls_settle_iff (pageClient 404 textPage _)).1 0 "GET" "/" none).mpr
  intro stated complains
  cases complains
  exact ⟨"gone", rfl, by decide⟩

/-- An error that is a number makes the client throw. -/
theorem numberPage_throws :
    ¬∀ (client : QdrantClient ℚ) (method path : String) (body : Option (Json ℚ)),
      Settled (finalStatus client method path body) (client.request method path body) := by
  intro always
  obtain ⟨r, run, -⟩ := always (pageClient 404 numberPage
    (.object [("status", .object [("error", .int 404)])])) "GET" "/" none
  cases run

end ResponseTotality
