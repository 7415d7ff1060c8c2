import AxVision.DecimalNumerals
import AxVision.QdrantResponses

/-!
# The ids of stored points

A point carries its id as text with a flag. An upsert sends the id by the flag,
a lookup guesses its type from the text, and a response is read by the type of
the value. A `std::string` is the sequence of its characters.
-/

namespace PointIds

open DetectionTypes DecimalNumerals HttpResponses QdrantResponses
open PushRequests hiding SearchResult ScoredPoint

universe u

variable {F : Type u}

/-- `Point::WithNumericId`. -/
def withNumericId (id : UInt64) (vector : List F) (payload : Json F) : Point F :=
  ⟨toString id.toNat, true, vector, payload⟩

def failureName : Failure → String
  | .invalidArgument => "stoull"
  | .outOfRange => "stoull: out of range"

/-- The id of a point in an upsert; `std::stoull` may throw. -/
def upsertId (p : Point F) : Except String (Json F) :=
  if p.idIsNumeric then
    match stoull p.id with
    | .error e => .error (failureName e)
    | .ok (v, _) => .ok (.int v.toNat)
  else .ok (.string p.id)

def pointItem (p : Point F) (id : Json F) : Json F :=
  ((Json.null.set "id" id).set "vector" (.array (p.vector.map .float))).set "payload" p.payload

/-- The items of `BuildPointsPayload`. -/
def buildPointsPayload : List (Point F) → Except String (List (Json F))
  | [] => .ok []
  | p :: rest =>
    match upsertId p with
    | .error e => .error e
    | .ok id =>
      match buildPointsPayload rest with
      | .error e => .error e
      | .ok items => .ok (pointItem p id :: items)

/-- The id of a point in a lookup: a number if all of the text is one. -/
def lookupId (id : String) : Json F :=
  match stoull id with
  | .ok (v, pos) => if pos = id.toList.length then .int v.toNat else .string id
  | .error _ => .string id

/-- The items of `BuildIdArray`. -/
def buildIdArray (ids : List String) : List (Json F) := ids.map lookupId

/-- A point made by one of the two constructors. -/
inductive Built : Point F → Prop where
  | numeric (id : UInt64) (vector : List F) (payload : Json F) :
      Built (withNumericId id vector payload)
  | string (id : String) (vector : List F) (payload : Json F) :
      Built (.withStringId id vector payload)

/-- The upsert and a lookup of a point send one id, and a hit with that id is
read as the id of the point. -/
def Agree [Scalar F] (json : JsonLibrary F) (p : Point F) : Prop :=
  ∃ item id, buildPointsPayload [p] = .ok [item] ∧ item.get? "id" = some id ∧
    buildIdArray [p.id] = [id] ∧
    ∀ fields point, findField "id" fields = some id →
      parseScoredPoints json (.object [("result", .array [.object fields])]) = .ok [point] →
        point.id = p.id ∧ point.idIsNumeric = p.idIsNumeric

section Ids

theorem upsertId_numeric (id : UInt64) (vector : List F) (payload : Json F) :
    upsertId (withNumericId id vector payload) = .ok (.int id.toNat) := by
  unfold upsertId withNumericId
  dsimp only
  rw [if_pos rfl, stoull_toString]

theorem lookupId_numeric (id : UInt64) :
    (lookupId (toString id.toNat) : Json F) = .int id.toNat := by
  unfold lookupId
  rw [stoull_toString]
  exact if_pos rfl

theorem lookupId_text {id : String} (text : ¬WholeNumber id.toList) :
    (lookupId id : Json F) = .string id := by
  unfold lookupId
  split
  · rename_i v pos read
    apply if_neg
    rintro rfl
    exact text ((stoull_whole_iff id).mp ⟨v, read⟩)
  · rfl

theorem lookupId_whole {id : String} (whole : WholeNumber id.toList) :
    ∃ v : UInt64, (lookupId id : Json F) = .int v.toNat := by
  obtain ⟨v, read⟩ := (stoull_whole_iff id).mpr whole
  unfold lookupId
  rw [read]
  exact ⟨v, if_pos rfl⟩

theorem pointItem_id (p : Point F) (id : Json F) : (pointItem p id).get? "id" = some id := by
  simp [pointItem]

/-- The payload of one point has the id of its upsert. -/
theorem payload_id {p : Point F} {id : Json F} (sent : upsertId p = .ok id) :
    buildPointsPayload [p] = .ok [pointItem p id] := by
  simp only [buildPointsPayload, sent]

/-- A point that a response lists takes its id from the field of that name. -/
theorem parsed_id [Scalar F] {json : JsonLibrary F} {fields : List (String × Json F)}
    {point : ScoredPoint F}
    (read : parseScoredPoints json (.object [("result", .array [.object fields])]) = .ok [point]) :
    point.id = (scoredId json fields).1 ∧ point.idIsNumeric = (scoredId json fields).2 := by
  have list : resultList (.object [("result", .array [.object fields])] : Json F) =
      some [.object fields] := rfl
  rw [parseScoredPoints, list, Option.getD_some, scoredPoints] at read
  cases vector : scoredVector fields with
  | error e =>
    rw [vector] at read
    cases read
  | ok xs =>
    rw [vector] at read
    cases read
    exact ⟨rfl, rfl⟩

theorem uint64_toNat (id : UInt64) : uint64 (id.toNat : Int) = id.toNat := by
  have small := id.toNat_lt
  unfold uint64
  omega

variable [Scalar F]

theorem agree_numeric (json : JsonLibrary F) (id : UInt64) (vector : List F) (payload : Json F) :
    Agree json (withNumericId id vector payload) := by
  refine ⟨_, .int id.toNat, payload_id (upsertId_numeric id vector payload), pointItem_id _ _,
    congrArg (fun sent => [sent]) (lookupId_numeric id), ?_⟩
  intro fields point held read
  obtain ⟨same, numeric⟩ := parsed_id read
  simp only [scoredId, held, uint64_toNat] at same numeric
  exact ⟨same, numeric⟩

/-- The encoders agree on every point but one that was given a whole number as a
string: a lookup sends it as a number. -/
theorem agree_iff (json : JsonLibrary F) {p : Point F} (built : Built p) :
    Agree json p ↔ p.idIsNumeric = true ∨ ¬WholeNumber p.id.toList := by
  cases built with
  | numeric id vector payload =>
    exact ⟨fun _ => .inl rfl, fun _ => agree_numeric json id vector payload⟩
  | string id vector payload =>
    have sent : upsertId (.withStringId id vector payload : Point F) = .ok (.string id) := rfl
    constructor
    · rintro ⟨item, id', payload_item, held, looked, -⟩
      right
      intro whole
      obtain ⟨v, number⟩ : ∃ v : UInt64, (lookupId id : Json F) = .int v.toNat :=
        lookupId_whole whole
      rw [payload_id sent] at payload_item
      cases payload_item
      rw [pointItem_id] at held
      have same : lookupId id = id' := List.cons.inj looked |>.1
      rw [number, ← Option.some.inj held] at same
      cases same
    · rintro (numeric | text)
      · cases numeric
      · refine ⟨_, .string id, payload_id sent, pointItem_id _ _,
          congrArg (fun sent => [sent]) (lookupId_text text), ?_⟩
        intro fields point held read
        obtain ⟨same, numeric⟩ := parsed_id read
        simp only [scoredId, held] at same numeric
        exact ⟨same, numeric⟩

end Ids

/-- A library that reads nothing. -/
def noJson : JsonLibrary ℚ := ⟨fun _ => .error "parse error", fun _ => ""⟩

theorem namedPoint_agrees : Agree noJson (.withStringId "7-left" [1] .null) := by
  apply (agree_iff noJson (.string "7-left" [1] .null)).mpr
  right
  intro whole
  obtain ⟨v, read⟩ := (stoull_whole_iff "7-left").mpr whole
  cases read

/-- The upsert sends the text "7" and a lookup the number. -/
theorem numberedPoint_disagrees :
    ¬∀ (json : JsonLibrary ℚ) (p : Point ℚ), Built p → Agree json p := by
  intro always
  obtain ⟨item, id, payload, held, looked, -⟩ :=
    always noJson (.withStringId "7" [1] .null) (.string "7" [1] .null)
  have sent : id = .string "7" := by
    cases payload
    exact (Option.some.inj held).symm
  rw [sent] at looked
  cases looked

end PointIds
