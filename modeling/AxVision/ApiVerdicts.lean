import AxVision.HttpResponses

/-!
# The verdict of the face server

`FaceServerClient::FromHttp` reads the envelope of a response and decides
whether the push was accepted. A code below zero stands for an envelope
without a code, in the variable that also takes the code of the server.
-/

namespace ApiVerdicts

open PushRequests HttpResponses

universe u

variable {F : Type u}

structure ApiResult (F : Type u) where
  ok : Bool := false
  httpStatus : Int := 0
  code : Int := -1
  message : String := ""
  rawBody : List UInt8 := []
  body : Json F := .null
  error : String := ""

/-- `get<int>`. -/
def getInt : Json F → Except String Int
  | .int i => .ok (int32 i)
  | j => .error (typeError "number" j)

/-- `contains` and `is_number_integer`, then the read. -/
def readCode (body : Json F) (default : Int) : Except String Int :=
  match body.get? "code" with
  | some (.int i) => getInt (.int i : Json F)
  | _ => .ok default

def readMessage (body : Json F) (default : String) : Except String String :=
  match body.get? "message" with
  | some (.string s) => getString (.string s : Json F)
  | _ => .ok default

/-- The block under `try`; an empty body leaves the defaults. -/
def readEnvelope (json : JsonLibrary F) (r : ApiResult F) (bytes : List UInt8) :
    Except String (ApiResult F) :=
  if bytes = [] then .ok r
  else
    match json.parse bytes with
    | .error what => .error what
    | .ok body =>
      match readCode body r.code with
      | .error what => .error what
      | .ok code =>
        match readMessage body r.message with
        | .error what => .error what
        | .ok message => .ok { r with body := body, code := code, message := message }

/-- The end of `FromHttp`, after the envelope. -/
def judge (resp : HttpResponse) (r : ApiResult F) : ApiResult F :=
  if isSuccess resp.status = false then
    { r with
      error :=
        if r.message = "" then if resp.error = "" then httpError resp.status else resp.error
        else r.message }
  else if r.code ≥ 0 then
    if r.code = 0 then { r with ok := true }
    else
      { r with
        error := if r.message = "" then "业务 code=" ++ toString r.code else r.message }
  else { r with ok := true }

def fromHttp (json : JsonLibrary F) (resp : HttpResponse) : ApiResult F :=
  let r : ApiResult F := { httpStatus := resp.status, rawBody := resp.body }
  if resp.status = 0 ∧ resp.ok = false then
    { r with error := if resp.error = "" then "HTTP 传输失败" else resp.error }
  else
    match readEnvelope json r resp.body with
    | .ok r => judge resp r
    | .error what =>
      let error := "响应 JSON 解析失败: " ++ what
      { r with
        error :=
          if isSuccess resp.status = false ∧ error = "" then resp.error else error }

/-- The body is empty or JSON, without an integer code or with the code 0. -/
def Accepted (json : JsonLibrary F) (bytes : List UInt8) : Prop :=
  bytes = [] ∨ ∃ body, json.parse bytes = .ok body ∧
    ∀ i, body.get? "code" = some (.int i) → i = 0

/-- A result is ok exactly for an accepted success, and has an error text otherwise. -/
structure Verdict (json : JsonLibrary F) (resp : HttpResponse) : Prop where
  accepted : (fromHttp json resp).ok = true ↔
    (200 ≤ resp.status ∧ resp.status < 300) ∧ Accepted json resp.body
  explained : (fromHttp json resp).ok = false ↔ (fromHttp json resp).error ≠ ""

/-- The code of a JSON body, if it is an integer. -/
def integerCode (json : JsonLibrary F) (bytes : List UInt8) : Option Int :=
  if bytes = [] then none
  else
    match json.parse bytes with
    | .error _ => none
    | .ok body =>
      match body.get? "code" with
      | some (.int i) => some i
      | _ => none

section Verdict

variable {json : JsonLibrary F} {resp : HttpResponse}

theorem append_ne {start : String} (stated : start ≠ "") (rest : String) : start ++ rest ≠ "" := by
  intro empty
  exact stated (String.append_eq_empty_iff.mp empty).1

theorem readCode_ok (body : Json F) (default : Int) :
    readCode body default = .ok
      (match body.get? "code" with
        | some (.int i) => int32 i
        | _ => default) := by
  unfold readCode
  cases body.get? "code" with
  | none => rfl
  | some value =>
    cases value with
    | int i => rfl
    | _ => rfl

theorem readMessage_ok (body : Json F) (default : String) :
    ∃ message, readMessage body default = .ok message := by
  unfold readMessage
  split
  · exact ⟨_, rfl⟩
  · exact ⟨_, rfl⟩

/-- Only `Json::parse` throws in the block; it leaves the code of the body, cut
to an `int`, or the default. -/
theorem readEnvelope_cases (json : JsonLibrary F) (r : ApiResult F) (bytes : List UInt8) :
    (bytes ≠ [] ∧ ∃ what, json.parse bytes = .error what ∧
        readEnvelope json r bytes = .error what) ∨
      ((bytes = [] ∨ ∃ body, json.parse bytes = .ok body) ∧
        ∃ r', readEnvelope json r bytes = .ok r' ∧ r'.ok = r.ok ∧ r'.error = r.error ∧
          r'.code = ((integerCode json bytes).map int32).getD r.code) := by
  unfold readEnvelope integerCode
  by_cases empty : bytes = []
  · right
    rw [if_pos empty, if_pos empty]
    exact ⟨.inl empty, r, rfl, rfl, rfl, rfl⟩
  · rw [if_neg empty, if_neg empty]
    cases parsed : json.parse bytes with
    | error what => exact .inl ⟨empty, what, rfl, rfl⟩
    | ok body =>
      right
      obtain ⟨message, read⟩ := readMessage_ok body r.message
      simp only [readCode_ok, read]
      refine ⟨.inr ⟨body, rfl⟩, _, rfl, rfl, rfl, ?_⟩
      cases body.get? "code" with
      | none => rfl
      | some value =>
        cases value with
        | int i => rfl
        | _ => rfl

theorem judge_ok (resp : HttpResponse) {r : ApiResult F} (undecided : r.ok = false) :
    (judge resp r).ok = true ↔ isSuccess resp.status = true ∧ r.code ≤ 0 := by
  unfold judge
  cases isSuccess resp.status with
  | false => simp [undecided]
  | true =>
    simp only [Bool.true_eq_false, if_false, true_and]
    split
    · split
      · rename_i zero
        simp [zero]
      · rename_i nonneg nonzero
        simp only [undecided, Bool.false_eq_true, false_iff]
        omega
    · simp only [true_iff]
      omega

/-- A result that is not ok has an error text, and only such a result. -/
theorem judge_explained (resp : HttpResponse) {r : ApiResult F} (undecided : r.ok = false)
    (silent : r.error = "") : (judge resp r).ok = false ↔ (judge resp r).error ≠ "" := by
  unfold judge
  split
  · simp only [undecided, true_iff]
    split
    · split
      · exact httpError_ne resp.status
      · assumption
    · assumption
  · split
    · split
      · simp [silent]
      · simp only [undecided, true_iff]
        split
        · exact append_ne (by decide) _
        · assumption
    · simp [silent]

theorem accepted_iff (readable : resp.body = [] ∨ ∃ body, json.parse resp.body = .ok body) :
    Accepted json resp.body ↔ ∀ i, integerCode json resp.body = some i → i = 0 := by
  unfold Accepted integerCode
  by_cases empty : resp.body = []
  · simp [empty]
  · obtain ⟨body, parsed⟩ := readable.resolve_left empty
    simp only [empty, if_false, parsed, false_or, Except.ok.injEq, exists_eq_left']
    constructor
    · intro zero i code
      split at code
      · rename_i held
        cases code
        exact zero _ held
      · cases code
    · intro zero i held
      apply zero i
      simp only [held]

theorem success_iff (json : JsonLibrary F) (resp : HttpResponse) :
    ((200 ≤ resp.status ∧ resp.status < 300) ∧ Accepted json resp.body) ↔
      isSuccess resp.status = true ∧ Accepted json resp.body := by
  rw [isSuccess_iff]

/-- A response that is given up before its envelope, or for it, is reported rightly. -/
theorem verdict_of_error (failed : (fromHttp json resp).ok = false)
    (stated : (fromHttp json resp).error ≠ "")
    (rightly : ¬(isSuccess resp.status = true ∧ Accepted json resp.body)) : Verdict json resp := by
  constructor
  · rw [success_iff, failed]
    exact ⟨fun ok => absurd ok Bool.false_ne_true, fun both => absurd both rightly⟩
  · exact ⟨fun _ => stated, fun _ => failed⟩

theorem int32_zero : int32 0 = 0 := rfl

/-- Without a transfer there is no success to be wrong about. -/
theorem verdict_untransferred (json : JsonLibrary F) (early : resp.status = 0 ∧ resp.ok = false) :
    isSuccess resp.status = false ∧ Verdict json resp := by
  have lost : isSuccess resp.status = false := by
    rw [early.1]
    rfl
  have result : fromHttp json resp =
      { httpStatus := resp.status, rawBody := resp.body,
        error := if resp.error = "" then "HTTP 传输失败" else resp.error } := if_pos early
  refine ⟨lost, ?_⟩
  apply verdict_of_error
  · rw [result]
  · rw [result]
    dsimp only
    split
    · decide
    · assumption
  · rintro ⟨success, -⟩
    exact absurd (lost.symm.trans success) Bool.false_ne_true

/-- A body that is no JSON is refused, and it has no code. -/
theorem verdict_unparsed {what : String} (late : ¬(resp.status = 0 ∧ resp.ok = false))
    (some_bytes : resp.body ≠ []) (parsed : json.parse resp.body = .error what)
    (read : readEnvelope json { httpStatus := resp.status, rawBody := resp.body } resp.body =
      .error what) :
    integerCode json resp.body = none ∧ Verdict json resp := by
  have stated : "响应 JSON 解析失败: " ++ what ≠ "" := append_ne (by decide) what
  have result : fromHttp json resp =
      { httpStatus := resp.status, rawBody := resp.body,
        error := "响应 JSON 解析失败: " ++ what } := by
    rw [fromHttp, if_neg late, read]
    dsimp only
    rw [if_neg fun both => stated both.2]
  constructor
  · simp only [integerCode, if_neg some_bytes, parsed]
  · apply verdict_of_error
    · rw [result]
    · rw [result]
      exact stated
    · rintro ⟨-, empty | ⟨body, accepted, -⟩⟩
      · exact some_bytes empty
      · rw [parsed] at accepted
        cases accepted

/-- A result that has been judged is right exactly when its code is as good as the body. -/
theorem verdict_judged {r : ApiResult F} (result : fromHttp json resp = judge resp r)
    (undecided : r.ok = false) (silent : r.error = "") :
    Verdict json resp ↔
      ((isSuccess resp.status = true ∧ r.code ≤ 0) ↔
        (isSuccess resp.status = true ∧ Accepted json resp.body)) := by
  rw [← success_iff, ← judge_ok resp undecided, ← result]
  constructor
  · intro verdict
    exact verdict.accepted
  · intro accepted
    refine ⟨accepted, ?_⟩
    rw [result]
    exact judge_explained resp undecided silent

/-- A code below zero reads as no code, whichever way the value came about. -/
theorem code_agrees (success : Prop) (code : Option Int) :
    ((success ∧ (code.map int32).getD (-1) ≤ 0) ↔ (success ∧ ∀ i, code = some i → i = 0)) ↔
      (success → ∀ i, code = some i → i ≠ 0 → 0 < int32 i) := by
  cases code with
  | none => simp
  | some i =>
    simp only [Option.map_some, Option.getD_some, Option.some.injEq, forall_eq']
    constructor
    · intro same success other
      by_contra low
      exact other (same.mp ⟨success, Int.not_lt.mp low⟩).2
    · intro positive
      constructor
      · rintro ⟨success, low⟩
        refine ⟨success, ?_⟩
        by_contra other
        exact absurd (positive success other) (Int.not_lt.mpr low)
      · rintro ⟨success, rfl⟩
        exact ⟨success, Int.le_of_eq int32_zero⟩

/-- The verdict is right exactly when no success carries an integer code other
than 0 that an `int` shows as 0 or below. -/
theorem verdict_iff (json : JsonLibrary F) (resp : HttpResponse) :
    Verdict json resp ↔
      (isSuccess resp.status = true →
        ∀ i, integerCode json resp.body = some i → i ≠ 0 → 0 < int32 i) := by
  by_cases early : resp.status = 0 ∧ resp.ok = false
  · obtain ⟨lost, verdict⟩ := verdict_untransferred json early
    refine ⟨fun _ success => ?_, fun _ => verdict⟩
    exact absurd (lost.symm.trans success) Bool.false_ne_true
  · obtain ⟨some_bytes, what, parsed, read⟩ | ⟨readable, r, read, undecided, silent, code⟩ :=
      readEnvelope_cases json { httpStatus := resp.status, rawBody := resp.body } resp.body
    · obtain ⟨none, verdict⟩ := verdict_unparsed early some_bytes parsed read
      refine ⟨fun _ _ i held => ?_, fun _ => verdict⟩
      rw [none] at held
      cases held
    · have result : fromHttp json resp = judge resp r := by
        rw [fromHttp, if_neg early, read]
      rw [verdict_judged result undecided silent, accepted_iff readable, code]
      exact code_agrees _ _

end Verdict

/-- The library on the page `{"code":n}`. -/
def codeLibrary (page : List UInt8) (code : Int) : JsonLibrary ℚ where
  parse bytes := if bytes = page then .ok (.object [("code", .int code)]) else .error "parse error"
  dump _ := ""

/-- The pages `{"code":7}` and `{"code":-1}`. -/
def refusedPage : List UInt8 := [123, 34, 99, 111, 100, 101, 34, 58, 55, 125]

def negativePage : List UInt8 := [123, 34, 99, 111, 100, 101, 34, 58, 45, 49, 125]

/-- A positive code is reported as a refusal. -/
theorem refused_verdict :
    Verdict (codeLibrary refusedPage 7) ⟨true, 200, refusedPage, ""⟩ := by
  apply (verdict_iff (codeLibrary refusedPage 7) ⟨true, 200, refusedPage, ""⟩).mpr
  intro _ i code _
  cases code
  decide

/-- A negative code is taken for an envelope without a code. -/
theorem negativeCode_accepted :
    ¬∀ (json : JsonLibrary ℚ) (resp : HttpResponse), Verdict json resp := by
  intro always
  have verdict := always (codeLibrary negativePage (-1)) ⟨true, 200, negativePage, ""⟩
  obtain ⟨-, empty | ⟨body, parsed, zero⟩⟩ := verdict.accepted.mp rfl
  · cases empty
  · cases parsed
    have minus := zero (-1) rfl
    cases minus

end ApiVerdicts
