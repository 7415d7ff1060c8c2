import AxVision.PushRequests

/-!
# HTTP responses and the values read from their bodies

`HttpClient::Request` turns a transfer into a response. The JSON library is a
parameter; a typed read of a value of another type throws, and the text of the
exception is all that is kept of it.
-/

namespace HttpResponses

open DetectionTypes PushRequests

universe u

variable {F : Type u}

/-- What `curl` makes of a request. -/
inductive Transfer where
  | noHandle
  | failed (reason : String)
  | performed (status : Int) (body : List UInt8)
  deriving DecidableEq

structure HttpResponse where
  ok : Bool := false
  status : Int := 0
  body : List UInt8 := []
  error : String := ""
  deriving DecidableEq

/-- `status >= 200 && status < 300`. -/
def isSuccess (status : Int) : Bool := 200 ≤ status ∧ status < 300

def httpError (status : Int) : String := "HTTP " ++ toString status

def Transfer.response : Transfer → HttpResponse
  | .noHandle => { error := "curl_easy_init 失败" }
  | .failed reason => { error := "curl 请求失败: " ++ reason }
  | .performed status body =>
    { ok := isSuccess status
      status := status
      body := body
      error := if isSuccess status then "" else httpError status }

/-- `Json::parse` throws on what is not JSON; the strings of a value are valid
UTF-8, so `dump` does not throw. -/
structure JsonLibrary (F : Type u) where
  parse : List UInt8 → Except String (Json F)
  dump : Json F → String

def typeName : Json F → String
  | .null => "null"
  | .bool _ => "boolean"
  | .string _ => "string"
  | .int _ | .float _ => "number"
  | .array _ => "array"
  | .object _ => "object"

/-- The exception of a `get` whose value has another type. -/
def typeError (expected : String) (j : Json F) : String :=
  "[json.exception.type_error.302] type must be " ++ expected ++ ", but is " ++ typeName j

/-- `get<std::string>`. -/
def getString : Json F → Except String String
  | .string s => .ok s
  | j => .error (typeError "string" j)

/-- `get<float>` takes a truth value for a number. -/
def getFloat [Scalar F] : Json F → Except String F
  | .int i => .ok (Scalar.ofRat i)
  | .float x => .ok x
  | .bool b => .ok (Scalar.ofRat (if b then 1 else 0))
  | j => .error (typeError "number" j)

/-- `get<std::vector<float>>` of an array. -/
def getFloats [Scalar F] : List (Json F) → Except String (List F)
  | [] => .ok []
  | j :: rest =>
    match getFloat j with
    | .error e => .error e
    | .ok x =>
      match getFloats rest with
      | .error e => .error e
      | .ok xs => .ok (x :: xs)

/-- `get<uint64_t>` of an integer. -/
def uint64 (i : Int) : Nat := (i % 2 ^ 64).toNat

/-- `get<int>` of an integer. -/
def int32 (i : Int) : Int := (i + 2 ^ 31) % 2 ^ 32 - 2 ^ 31

/-- The values that `get<float>` accepts. -/
def isNumeric : Json F → Bool
  | .int _ | .float _ | .bool _ => true
  | _ => false

theorem httpError_ne (status : Int) : httpError status ≠ "" := by
  intro empty
  have length := congrArg String.length empty
  simp [httpError] at length

@[simp] theorem isSuccess_iff (status : Int) :
    isSuccess status = true ↔ 200 ≤ status ∧ status < 300 := by
  simp [isSuccess]

/-- A response without an error text is a success. -/
theorem response_error (t : Transfer) (unsuccessful : isSuccess t.response.status = false) :
    t.response.error ≠ "" := by
  cases t with
  | noHandle => simp [Transfer.response]
  | failed reason =>
    intro empty
    have length := congrArg String.length empty
    simp [Transfer.response] at length
  | performed status body =>
    have failed : isSuccess status = false := unsuccessful
    simp only [Transfer.response, failed]
    exact httpError_ne status

theorem getFloats_ok_iff [Scalar F] (items : List (Json F)) :
    (∃ xs, getFloats items = .ok xs) ↔ ∀ j ∈ items, isNumeric j = true := by
  induction items with
  | nil => simp [getFloats]
  | cons j rest ih =>
    rw [List.forall_mem_cons, ← ih]
    cases read : getFloat j with
    | ok x =>
      have numeric : isNumeric j = true := by
        cases j with
        | int i => rfl
        | float x => rfl
        | bool b => rfl
        | _ => cases read
      simp only [getFloats, read, numeric, true_and]
      constructor
      · rintro ⟨xs, success⟩
        split at success
        · cases success
        · rename_i ys tail
          exact ⟨ys, tail⟩
      · rintro ⟨xs, tail⟩
        exact ⟨x :: xs, by rw [tail]⟩
    | error e =>
      have other : isNumeric j ≠ true := by
        cases j with
        | int i => cases read
        | float x => cases read
        | bool b => cases read
        | _ => exact Bool.false_ne_true
      simp [getFloats, read, other]

end HttpResponses
