import AxVision.HttpResponses

/-!
# The responses of the vector store

`QdrantClient` sends a request, possibly several times, and reads the response
into a result. What `DoRequest`, `Request` and `Search` throw is the error of
an `Except`.
-/

namespace QdrantResponses

open DetectionTypes PushRequests HttpResponses

universe u

variable {F : Type u}

structure QdrantConfig where
  host : String := "192.168.137.112"
  port : Int := 6333
  useHttps : Bool := false
  apiKey : String := ""
  maxRetries : Int := 2

def QdrantConfig.baseUrl (config : QdrantConfig) : String :=
  (if config.useHttps then "https://" else "http://") ++ config.host ++ ":" ++ toString config.port

structure HttpRequest where
  method : String
  url : String
  headers : List String
  body : Option String
  deriving DecidableEq

/-- A client: its configuration, the JSON library and the transfers of its
requests, the first one and the retries. -/
structure QdrantClient (F : Type u) where
  config : QdrantConfig
  json : JsonLibrary F
  transfer : Nat → HttpRequest → Transfer

structure ApiResult (F : Type u) where
  ok : Bool := false
  httpStatus : Int := 0
  rawBody : List UInt8 := []
  body : Json F := .null
  error : String := ""

def QdrantClient.httpRequest (client : QdrantClient F) (method path : String)
    (body : Option (Json F)) : HttpRequest where
  method := method
  url := client.config.baseUrl ++ path
  headers := ["Content-Type: application/json", "Accept: application/json"] ++
    if client.config.apiKey = "" then [] else ["api-key: " ++ client.config.apiKey]
  body := body.map client.json.dump

/-- The body and the error after `Json::parse`, which an empty body skips. -/
def parseBody (json : JsonLibrary F) (resp : HttpResponse) : Json F × String :=
  if resp.body = [] then (.null, resp.error)
  else
    match json.parse resp.body with
    | .ok j => (j, resp.error)
    | .error what =>
      (.null, if resp.error = "" then "响应体 JSON 解析失败: " ++ what else resp.error)

/-- The error text of an HTTP failure: what the body states, else the one at hand. -/
def failureText (status : Int) (body : Json F) (error : String) : Except String String :=
  let fallback := if error = "" then httpError status else error
  match body.get? "status" with
  | some (.object fields) =>
    match findField "error" fields with
    | some stated => getString stated
    | none => .ok fallback
  | some (.string text) => .ok text
  | _ => .ok fallback

def readResponse (json : JsonLibrary F) (resp : HttpResponse) : Except String (ApiResult F) :=
  let (body, error) := parseBody json resp
  let result : ApiResult F :=
    { httpStatus := resp.status, rawBody := resp.body, body := body, error := error }
  if resp.status = 0 then .ok result
  else if isSuccess resp.status then .ok { result with ok := true, error := "" }
  else
    match failureText resp.status body error with
    | .error e => .error e
    | .ok text => .ok { result with error := text }

def QdrantClient.doRequest (client : QdrantClient F) (attempt : Nat) (method path : String)
    (body : Option (Json F)) : Except String (ApiResult F) :=
  readResponse client.json
    (client.transfer attempt (client.httpRequest method path body)).response

/-- Transport failures, throttling and the server's transient failures. -/
def retryable (status : Int) : Bool :=
  status = 0 ∨ status = 429 ∨ status = 500 ∨ status = 502 ∨ status = 503 ∨ status = 504

/-- The loop of `Request` with the retries that are left. -/
def QdrantClient.requestFrom (client : QdrantClient F) (method path : String)
    (body : Option (Json F)) : Nat → Nat → Except String (ApiResult F)
  | 0, attempt => client.doRequest attempt method path body
  | retries + 1, attempt =>
    match client.doRequest attempt method path body with
    | .error e => .error e
    | .ok result =>
      if result.ok ∨ retryable result.httpStatus = false then .ok result
      else client.requestFrom method path body retries (attempt + 1)

def QdrantClient.request (client : QdrantClient F) (method path : String)
    (body : Option (Json F)) : Except String (ApiResult F) :=
  client.requestFrom method path body client.config.maxRetries.toNat 0

structure ScoredPoint (F : Type u) extends PushRequests.ScoredPoint F where
  idIsNumeric : Bool
  vector : List F

structure SearchResult (F : Type u) extends ApiResult F where
  points : List (ScoredPoint F) := []

/-- What a job of the face plugin reads of a search. -/
def SearchResult.found (r : SearchResult F) : PushRequests.SearchResult F :=
  ⟨r.ok, r.points.map ScoredPoint.toScoredPoint⟩

/-- The list of hits: `result`, or `result.points` in the answer to a query. -/
def resultList (body : Json F) : Option (List (Json F)) :=
  match body.get? "result" with
  | some (.array items) => some items
  | some (.object fields) =>
    match findField "points" fields with
    | some (.array items) => some items
    | _ => none
  | _ => none

/-- The id of a hit and whether it is numeric. -/
def scoredId (json : JsonLibrary F) (fields : List (String × Json F)) : String × Bool :=
  match findField "id" fields with
  | none => ("", true)
  | some (.int i) => (toString (uint64 i), true)
  | some (.string s) => (s, false)
  | some id => (json.dump id, false)

def scoredScore [Scalar F] (fields : List (String × Json F)) : F :=
  match findField "score" fields with
  | some (.int i) => Scalar.ofRat i
  | some (.float x) => x
  | _ => Scalar.ofRat 0

def scoredPayload (fields : List (String × Json F)) : Json F :=
  match findField "payload" fields with
  | some (.object payload) => .object payload
  | _ => .object []

def scoredVector [Scalar F] (fields : List (String × Json F)) : Except String (List F) :=
  match findField "vector" fields with
  | some (.array items) => getFloats items
  | _ => .ok []

/-- The loop of `ParseScoredPoints`; an entry that is no object is passed over. -/
def scoredPoints [Scalar F] (json : JsonLibrary F) :
    List (Json F) → Except String (List (ScoredPoint F))
  | [] => .ok []
  | .object fields :: rest =>
    match scoredVector fields with
    | .error e => .error e
    | .ok vector =>
      match scoredPoints json rest with
      | .error e => .error e
      | .ok points =>
        .ok
          ({ id := (scoredId json fields).1
             idIsNumeric := (scoredId json fields).2
             score := scoredScore fields
             payload := scoredPayload fields
             vector := vector } :: points)
  | _ :: rest => scoredPoints json rest

def parseScoredPoints [Scalar F] (json : JsonLibrary F) (body : Json F) :
    Except String (List (ScoredPoint F)) :=
  scoredPoints json ((resultList body).getD [])

def searchBody (req : SearchRequest F) : Json F :=
  let body := (((Json.null.set "vector" (.array (req.queryVector.map .float))).set
    "limit" (.int req.limit)).set "with_payload" (.bool req.withPayload)).set
    "with_vector" (.bool req.withVector)
  let body :=
    match req.filter with
    | .null => body
    | filter => body.set "filter" filter
  match req.scoreThreshold with
  | some threshold => body.set "score_threshold" (.float threshold)
  | none => body

def searchPath (req : SearchRequest F) : String :=
  "/collections/" ++ req.collection ++ "/points/search"

def QdrantClient.search [Scalar F] (client : QdrantClient F) (req : SearchRequest F) :
    Except String (SearchResult F) :=
  match client.request "POST" (searchPath req) (some (searchBody req)) with
  | .error e => .error e
  | .ok raw =>
    if raw.ok then
      match parseScoredPoints client.json raw.body with
      | .error e => .error e
      | .ok points => .ok { raw with points := points }
    else .ok { raw with points := [] }

end QdrantResponses
