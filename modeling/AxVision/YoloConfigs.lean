import AxVision.TrackerConfigs

/-!
# The configuration of a YOLOv5 detector

`CreateEngine` takes over what a file gives and keeps the defaults for the rest.
The anchors are read up to the first entry that is not a pair; that reading
stopped there is not asked for.
-/

namespace YoloConfigs

open DetectionTypes TrackerConfigs

variable {F : Type}

structure Yolov5Config (F : Type) where
  configPath : String
  modelFile : String
  modelType : String
  inputs : List Int
  probThreshold : F
  nmsThreshold : F
  numAnchors : List Int
  anchors : List (List F)
  strides : List Int
  labels : List String

def defaultAnchors [Scalar F] : List (List F) :=
  [[10, 13], [16, 30], [33, 23], [30, 61], [62, 45], [59, 119], [116, 90], [156, 198], [373, 326]].map
    fun pair => pair.map Scalar.ofRat

def defaultConfig [Scalar F] : Yolov5Config F where
  configPath := ""
  modelFile := "/home/workspace/deepsort/weights/ALL_GEN_fire.axmodel"
  modelType := "yolov5"
  inputs := [1, 3, 640, 640]
  probThreshold := Scalar.ofRat (1 / 5)
  nmsThreshold := Scalar.ofRat (9 / 20)
  numAnchors := [3, 3, 3]
  anchors := defaultAnchors
  strides := [8, 16, 32]
  labels := ["fire", "smoke", "other", "warning"]

section Reading

variable (yaml : YamlLibrary F) (entries : List (Yaml × Yaml))

/-- `ReadOptional`: the value of a key, or what there is. -/
def readOptional {α : Type} (as : Yaml → Except String α) (key : String) (out : α) :
    Except String α :=
  match findKey key entries with
  | some node => as node
  | none => .ok out

/-- `ReadIntVector` and `ReadStringVector`. -/
def readVector {α : Type} (as : Yaml → Except String α) (key : String) (out : List α) :
    Except String (List α) :=
  match findKey key entries with
  | some (.sequence items) => items.mapM as
  | _ => .ok out

/-- The loop of `ReadAnchors`: whether it reached the end, and the pairs so far. -/
def readPairs : List Yaml → Except String (Bool × List (List F))
  | [] => .ok (true, [])
  | .sequence [first, second] :: rest => do
    let width ← yaml.asFloat first
    let height ← yaml.asFloat second
    let (complete, pairs) ← readPairs rest
    return (complete, [width, height] :: pairs)
  | _ :: _ => .ok (false, [])

/-- `ReadAnchors`: the return value and the anchors that are left. -/
def readAnchors (out : List (List F)) : Except String (Bool × List (List F)) :=
  match findKey "anchors" entries with
  | some (.sequence items) => do
    let (complete, pairs) ← readPairs yaml items
    return (complete && !pairs.isEmpty, pairs)
  | _ => .ok (false, out)

/-- `root[key].as<std::string>()`, which throws without the key. -/
def readString (key : String) : Except String String :=
  match findKey key entries with
  | some node => yaml.asString node
  | none => .error "invalid node"

/-- The configuration that a map gives: `ApplyCommon`, then the anchors. -/
def readConfig [Scalar F] (configPath : String) : Except String (Yolov5Config F) := do
  let cfg : Yolov5Config F := defaultConfig
  let modelFile ← readString yaml entries "model_file"
  let modelType ← readString yaml entries "model_type"
  let inputs ← readVector entries yaml.asInt "inputs" cfg.inputs
  let probThreshold ← readOptional entries yaml.asFloat "prob_threshold" cfg.probThreshold
  let nmsThreshold ← readOptional entries yaml.asFloat "nms_threshold" cfg.nmsThreshold
  let strides ← readVector entries yaml.asInt "strides" cfg.strides
  let numAnchors ← readVector entries yaml.asInt "num_anchors" cfg.numAnchors
  let labels ← readVector entries yaml.asString "labels" cfg.labels
  let (_, anchors) ← readAnchors yaml entries cfg.anchors
  return { configPath, modelFile, modelType, inputs, probThreshold, nmsThreshold, numAnchors,
           anchors, strides, labels }

/-- `CreateEngine` for a file of this model type; other types make other engines. -/
def createYolov5 [Scalar F] (configPath : String) (file : Except String Yaml) :
    Option (Yolov5Config F) :=
  if configPath = "" then none
  else
    match file with
    | .ok (.map entries) =>
      if (findKey "model_type" entries).isNone ∨ (findKey "model_file" entries).isNone then none
      else if readString yaml entries "model_type" = .ok "yolov5" then
        (readConfig yaml entries configPath).toOption
      else none
    | _ => none

end Reading

section Anchors

variable {yaml : YamlLibrary F} {entries : List (Yaml × Yaml)} {items : List Yaml}
  {out anchors : List (List F)} {complete : Bool}

/-- The pairs at the front of a list of entries. -/
def leadingPairs (items : List Yaml) : List Yaml :=
  items.takeWhile fun item => match item with
    | .sequence [_, _] => true
    | _ => false

/-- What is left are the pairs in front, with two floats each. -/
theorem readPairs_left (read : readPairs yaml items = .ok (complete, anchors)) :
    anchors.flatten.length = 2 * (leadingPairs items).length := by
  induction items using readPairs.induct generalizing complete anchors with
  | case1 =>
    cases read
    rfl
  | case2 first second rest ih =>
    rw [readPairs] at read
    obtain ⟨width, -, read⟩ := bind_ok read
    obtain ⟨height, -, read⟩ := bind_ok read
    obtain ⟨⟨whole, pairs⟩, others, read⟩ := bind_ok read
    cases read
    rw [List.flatten_cons, List.length_append, ih others, leadingPairs, leadingPairs,
      List.takeWhile_cons_of_pos rfl]
    simp only [List.length_cons, List.length_nil]
    omega
  | case3 item rest other =>
    rw [readPairs] at read
    · cases read
      have stops : leadingPairs (item :: rest) = [] := by
        refine List.takeWhile_cons_of_neg ?_
        split
        · rename_i first second
          exact absurd rfl (other first second)
        · exact Bool.false_ne_true
      rw [stops]
      rfl
    · exact other

/-- The floats that `ReadAnchors` leaves: two for each pair in front, or the old ones. -/
theorem readAnchors_left (read : readAnchors yaml entries out = .ok (complete, anchors)) :
    anchors = out ∨ ∃ items, findKey "anchors" entries = some (.sequence items) ∧
      anchors.flatten.length = 2 * (leadingPairs items).length := by
  rw [readAnchors] at read
  split at read
  · rename_i items found
    obtain ⟨⟨whole, pairs⟩, pairs_read, read⟩ := bind_ok read
    cases read
    exact .inr ⟨items, found, readPairs_left pairs_read⟩
  · cases read
    exact .inl rfl

variable [Scalar F] {config : Yolov5Config F} {configPath : String}

theorem readConfig_anchors (read : readConfig yaml entries configPath = .ok config) :
    config.anchors = defaultAnchors ∨ ∃ items, findKey "anchors" entries = some (.sequence items) ∧
      config.anchors.flatten.length = 2 * (leadingPairs items).length := by
  rw [readConfig] at read
  obtain ⟨modelFile, -, read⟩ := bind_ok read
  obtain ⟨modelType, -, read⟩ := bind_ok read
  obtain ⟨inputs, -, read⟩ := bind_ok read
  obtain ⟨probThreshold, -, read⟩ := bind_ok read
  obtain ⟨nmsThreshold, -, read⟩ := bind_ok read
  obtain ⟨strides, -, read⟩ := bind_ok read
  obtain ⟨numAnchors, -, read⟩ := bind_ok read
  obtain ⟨labels, -, read⟩ := bind_ok read
  obtain ⟨⟨whole, anchors⟩, anchors_read, read⟩ := bind_ok read
  cases read
  exact readAnchors_left anchors_read

/-- A created configuration has the default anchors or the pairs in front in its file. -/
theorem createYolov5_anchors
    (created : createYolov5 yaml configPath (.ok (.map entries)) = some config) :
    config.anchors = defaultAnchors ∨ ∃ items, findKey "anchors" entries = some (.sequence items) ∧
      config.anchors.flatten.length = 2 * (leadingPairs items).length := by
  rw [createYolov5] at created
  split at created
  · cases created
  · split at created
    · cases created
    · split at created
      · cases read : readConfig yaml entries configPath with
        | error =>
          rw [read] at created
          cases created
        | ok loaded =>
          rw [read] at created
          cases created
          exact readConfig_anchors read
      · cases created

end Anchors

end YoloConfigs
