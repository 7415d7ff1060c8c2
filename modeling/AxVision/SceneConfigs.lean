import AxVision.LexicalPaths
import AxVision.TrackerConfigs

/-!
# Loading the configuration of a scene

`LoadSceneConfig` reads a YAML document into a scene component and a list of
processors. Every helper stops at its first error, which names the file and the
field. The YAML library and the files are parameters.
-/

namespace SceneConfigs

open LexicalPaths (Path)
open TrackerConfigs (Yaml findKey bind_ok)

universe u

structure ComponentConfig where
  name : String := ""
  libraryPath : String := ""
  configDir : String := ""
  paramsYaml : String := ""
  apiVersion : UInt32 := 0
  enabled : Bool := true
  deriving DecidableEq, Repr

structure SceneConfig where
  scene : ComponentConfig
  postprocessors : List ComponentConfig
  deriving DecidableEq, Repr

/-- An exception of `LoadFile`: one of the YAML library or another one, with its `what()`. -/
inductive LoadFailure where
  | yaml (what : String)
  | other (what : String)

/-- The YAML library, the files and the working directory. No file has an empty name. -/
structure Environment where
  load : String → Except LoadFailure Yaml
  badFile : String → String
  asString : Yaml → Except String String
  asUint32 : Yaml → Except String UInt32
  asBool : Yaml → Except String Bool
  emit : Yaml → Except String String
  read : String → Option String
  unnamed : read "" = none
  current : Path
  rooted : current.rooted = true

/-- How a helper ends without a result: with a text in `error`, or with an
exception that nobody catches. -/
inductive Failure where
  | told (error : String)
  | threw
  deriving DecidableEq, Repr

def failText (yamlPath field detail : String) : String :=
  yamlPath ++ ": field '" ++ field ++ "' " ++ detail

/-- `Fail`. -/
def fail {T : Type u} (yamlPath field detail : String) : Except Failure T :=
  .error (.told (failText yamlPath field detail))

/-- The absolute normal form of a path below `base`. -/
def resolvePath (env : Environment) (base : Path) (path : String) : Except Failure String :=
  match Path.absolute env.current (Path.append base (.ofString path)) with
  | none => .error .threw
  | some p => .ok p.lexicallyNormal.toString

def unknownField (allowed : List String) (yamlPath field : String) : Yaml × Yaml → List String
  | (.scalar key, _) =>
    if key ∈ allowed then []
    else
      ["WARNING: " ++ yamlPath ++ ": unknown field '" ++
        (if field = "" then key else field ++ "." ++ key) ++ "'\n"]
  | _ => ["WARNING: " ++ yamlPath ++ ": field '" ++ field ++ "' contains a non-string key\n"]

def warnUnknownFields (entries : List (Yaml × Yaml)) (allowed : List String)
    (yamlPath field : String) : List String :=
  entries.flatMap (unknownField allowed yamlPath field)

/-- A field that has to be a scalar which converts to an accepted value. -/
def readScalar {T : Type} (convert : Yaml → Except String T) (accepted : T → Bool)
    (detail yamlPath field : String) : Option Yaml → Except Failure T
  | some (.scalar text) =>
    match convert (.scalar text) with
    | .error what => fail yamlPath field (detail ++ " (" ++ what ++ ")")
    | .ok value => if accepted value then .ok value else fail yamlPath field detail
  | _ => fail yamlPath field detail

section Components

variable (env : Environment) (yamlPath : String)

def readRequiredString (entries : List (Yaml × Yaml)) (key field : String) :
    Except Failure String :=
  readScalar env.asString (· ≠ "") "must be a non-empty string" yamlPath field
    (findKey key entries)

def readApiVersion (entries : List (Yaml × Yaml)) (field : String) : Except Failure UInt32 :=
  readScalar env.asUint32 (· ≠ 0) "must be a positive integer" yamlPath field
    (findKey "api_version" entries)

def emitParams (entries : List (Yaml × Yaml)) (field : String) : Except Failure String :=
  match findKey "params" entries with
  | none => .ok ""
  | some (.map params) =>
    match env.emit (.map params) with
    | .error lastError => fail yamlPath field ("could not be serialized: " ++ lastError)
    | .ok paramsYaml => .ok paramsYaml
  | some _ => fail yamlPath field "must be a map"

def readEnabled (entries : List (Yaml × Yaml)) (field : String) : Except Failure Bool :=
  match findKey "enabled" entries with
  | none => .ok true
  | some node => readScalar env.asBool (fun _ => true) "must be a boolean" yamlPath field (some node)

/-- A field is read if the component needs it or the entry has it. -/
def readIf {T : Type} (required : Bool) (node : Option Yaml) (missing : T)
    (read : Except Failure T) : Except Failure T :=
  if required || node.isSome then read else .ok missing

def readLibrary (configDir : Path) (entries : List (Yaml × Yaml)) (field : String)
    (required : Bool) : Except Failure String :=
  (readIf required (findKey "library" entries) ""
    (readRequiredString env yamlPath entries "library" field)).bind fun libraryPath =>
  if libraryPath ≠ "" then resolvePath env configDir libraryPath else .ok ""

def parseEntries (configDir : Path) (field : String) (allowDisabled : Bool)
    (entries : List (Yaml × Yaml)) : Except Failure ComponentConfig :=
  (readEnabled env yamlPath entries (field ++ ".enabled")).bind fun enabled =>
  let required := !allowDisabled || enabled
  (readIf required (findKey "name" entries) ""
    (readRequiredString env yamlPath entries "name" (field ++ ".name"))).bind fun name =>
  (readLibrary env yamlPath configDir entries (field ++ ".library") required).bind fun library =>
  (readIf required (findKey "api_version" entries) 0
    (readApiVersion env yamlPath entries (field ++ ".api_version"))).bind fun apiVersion =>
  (emitParams env yamlPath entries (field ++ ".params")).bind fun paramsYaml =>
  .ok ⟨name, library, configDir.toString, paramsYaml, apiVersion, enabled⟩

def componentFields : List String := ["name", "library", "params", "api_version", "enabled"]

/-- The warnings of a component and what comes of it. -/
def parseComponent (configDir : Path) (field : String) (allowDisabled : Bool) :
    Yaml → List String × Except Failure ComponentConfig
  | .map entries =>
    (warnUnknownFields entries componentFields yamlPath field,
      parseEntries env yamlPath configDir field allowDisabled entries)
  | _ => ([], fail yamlPath field "must be a map")

/-- The loop over the processors, from the one at `index` on. -/
def parseProcessors (configDir : Path) :
    Nat → List Yaml → List String × Except Failure (List ComponentConfig)
  | _, [] => ([], .ok [])
  | index, item :: rest =>
    let first := parseComponent env yamlPath configDir
      ("postprocessors[" ++ toString index ++ "]") true item
    match first.2 with
    | .error failure => (first.1, .error failure)
    | .ok processor =>
      let later := parseProcessors configDir (index + 1) rest
      (first.1 ++ later.1, later.2.map fun processors => processor :: processors)

def parsePostprocessors (configDir : Path) (root : List (Yaml × Yaml)) :
    List String × Except Failure (List ComponentConfig) :=
  match findKey "postprocessors" root with
  | none => ([], .ok [])
  | some (.sequence items) => parseProcessors env yamlPath configDir 0 items
  | some _ => ([], fail yamlPath "postprocessors" "must be a sequence")

def loadFile : Except LoadFailure Yaml :=
  match env.read yamlPath with
  | none => .error (.yaml (env.badFile yamlPath))
  | some content => env.load content

def loadYaml : Except Failure (List (Yaml × Yaml)) :=
  match loadFile env yamlPath with
  | .error (.yaml what) => .error (.told (yamlPath ++ ": YAML parse failed: " ++ what))
  | .error (.other what) => .error (.told (yamlPath ++ ": could not be read: " ++ what))
  | .ok (.map entries) => .ok entries
  | .ok _ => fail yamlPath "root" "must be a map"

/-- The version has to be 1. -/
def checkVersion (root : List (Yaml × Yaml)) : Except Failure UInt32 :=
  readScalar env.asUint32 (· = 1) "must equal 1" yamlPath "version" (findKey "version" root)

def configDirectory : Except Failure Path :=
  match Path.absolute env.current (.ofString yamlPath) with
  | none => .error .threw
  | some p => .ok p.lexicallyNormal.parentPath

def parseScene (configDir : Path) (root : List (Yaml × Yaml)) :
    List String × Except Failure ComponentConfig :=
  match findKey "scene" root with
  | none => ([], fail yamlPath "scene" "must be a map")
  | some scene => parseComponent env yamlPath configDir "scene" false scene

/-- Everything between the loaded document and the assignment to the caller's configuration. -/
def parseRoot (root : List (Yaml × Yaml)) : List String × Except Failure SceneConfig :=
  let unknown := warnUnknownFields root ["version", "scene", "postprocessors"] yamlPath ""
  match (checkVersion env yamlPath root).bind fun _ => configDirectory env yamlPath with
  | .error failure => (unknown, .error failure)
  | .ok configDir =>
    let scene := parseScene env yamlPath configDir root
    match scene.2 with
    | .error failure => (unknown ++ scene.1, .error failure)
    | .ok component =>
      let processors := parsePostprocessors env yamlPath configDir root
      (unknown ++ scene.1 ++ processors.1,
        processors.2.map fun postprocessors => ⟨component, postprocessors⟩)

/-- What `LoadSceneConfig` returns, leaves in its two arguments and prints. -/
structure Loaded where
  ret : Bool
  config : SceneConfig
  error : String
  warnings : List String

/-- `LoadSceneConfig`; `none` is an exception that leaves it. -/
def loadSceneConfig (config : SceneConfig) : Option Loaded :=
  match loadYaml env yamlPath with
  | .error .threw => none
  | .error (.told error) => some ⟨false, config, error, []⟩
  | .ok root =>
    let parsed := parseRoot env yamlPath root
    match parsed.2 with
    | .error .threw => none
    | .error (.told error) => some ⟨false, config, error, parsed.1⟩
    | .ok scene => some ⟨true, scene, "", parsed.1⟩

end Components

section Specification

variable (env : Environment)

structure Valid (c : ComponentConfig) : Prop where
  name_ne : c.name ≠ ""
  libraryPath_ne : c.libraryPath ≠ ""
  apiVersion_pos : 0 < c.apiVersion

/-- A field has what its node converts to, or its default where there is no node. -/
def FieldOf {T : Type} (convert : Yaml → Except String T) (missing value : T) :
    Option Yaml → Prop
  | none => value = missing
  | some node => convert node = .ok value

/-- The configuration has what the entries say. -/
structure Describes (configDir : Path) (entries : List (Yaml × Yaml)) (c : ComponentConfig) :
    Prop where
  name : FieldOf env.asString "" c.name (findKey "name" entries)
  library : ∃ path, FieldOf env.asString "" path (findKey "library" entries) ∧
    (path = "" ∧ c.libraryPath = "" ∨ resolvePath env configDir path = .ok c.libraryPath)
  configDir_eq : c.configDir = configDir.toString
  params : FieldOf env.emit "" c.paramsYaml (findKey "params" entries)
  apiVersion : FieldOf env.asUint32 0 c.apiVersion (findKey "api_version" entries)
  enabled : FieldOf env.asBool true c.enabled (findKey "enabled" entries)

/-- The processors of a document. -/
def processorItems (root : List (Yaml × Yaml)) : List Yaml :=
  match findKey "postprocessors" root with
  | some (.sequence items) => items
  | _ => []

/-- The scene and every processor of a document, in their order; what is enabled is valid. -/
structure Complete (configDir : Path) (root : List (Yaml × Yaml)) (config : SceneConfig) :
    Prop where
  scene : ∃ entries, findKey "scene" root = some (.map entries) ∧
    Describes env configDir entries config.scene
  scene_valid : Valid config.scene
  processors : List.Forall₂ (fun item c => ∃ entries, item = .map entries ∧
    Describes env configDir entries c) (processorItems root) config.postprocessors
  processors_valid : ∀ c ∈ config.postprocessors, c.enabled = true → Valid c

/-- A failure comes with a text. -/
def Explained {T : Type u} (x : Except Failure T) : Prop :=
  ∀ failure, x = .error failure → ∃ error, failure = .told error ∧ error ≠ ""

end Specification

section Explanations

variable {T : Type u} {S : Type} {env : Environment} {yamlPath field detail : String}
  {configDir : Path}

theorem explained_ok (value : T) : Explained (.ok value) := fun _ same => nomatch same

theorem explained_told {error : String} (stated : error ≠ "") :
    Explained (.error (.told error) : Except Failure T) := by
  rintro _ ⟨⟩
  exact ⟨error, rfl, stated⟩

theorem append_ne {front rest : String} (stated : rest ≠ "") : front ++ rest ≠ "" := by
  intro empty
  exact stated (String.append_eq_empty_iff.mp empty).2

theorem append_ne_of_front {front rest : String} (stated : front ≠ "") : front ++ rest ≠ "" := by
  intro empty
  exact stated (String.append_eq_empty_iff.mp empty).1

theorem explained_fail : Explained (fail yamlPath field detail : Except Failure T) := by
  apply explained_told
  rw [failText, String.append_assoc]
  exact append_ne (append_ne_of_front (by decide))

/-- A failure is handed on as it is. -/
theorem Explained.passed {S : Type u} {failure : Failure}
    (explained : Explained (.error failure : Except Failure T)) :
    Explained (.error failure : Except Failure S) := by
  rintro _ ⟨⟩
  exact explained failure rfl

theorem Explained.bind {S : Type u} {x : Except Failure T} {f : T → Except Failure S}
    (first : Explained x) (later : ∀ value, Explained (f value)) : Explained (x.bind f) := by
  cases x with
  | error failure => exact first.passed
  | ok value => exact later value

theorem explained_readScalar {convert : Yaml → Except String S} {accepted : S → Bool}
    (node : Option Yaml) :
    Explained (readScalar convert accepted detail yamlPath field node) := by
  unfold readScalar
  split
  · split
    · exact explained_fail
    · split
      · exact explained_ok _
      · exact explained_fail
  · exact explained_fail

theorem explained_readIf {required : Bool} {node : Option Yaml} {missing : S}
    {read : Except Failure S} (reads : Explained read) :
    Explained (readIf required node missing read) := by
  unfold readIf
  split
  · exact reads
  · exact explained_ok _

/-- Below an absolute directory every path resolves. -/
theorem resolvePath_ok (env : Environment) (rooted : configDir.rooted = true) (path : String) :
    ∃ resolved, resolvePath env configDir path = .ok resolved ∧ resolved ≠ "" := by
  have joined := Path.append_rooted (p := .ofString path) rooted
  obtain ⟨p, found, absolute⟩ :=
    Path.absolute_rooted env.rooted (Path.rooted_not_empty joined)
  refine ⟨p.lexicallyNormal.toString, by rw [resolvePath, found], ?_⟩
  exact Path.toString_ne (p.lexicallyNormal_rooted.trans absolute)

theorem explained_parseEntries (rooted : configDir.rooted = true) (field : String)
    (allowDisabled : Bool) (entries : List (Yaml × Yaml)) :
    Explained (parseEntries env yamlPath configDir field allowDisabled entries) := by
  refine Explained.bind ?_ fun enabled => Explained.bind ?_ fun name =>
    Explained.bind ?_ fun library => Explained.bind ?_ fun apiVersion =>
    Explained.bind ?_ fun paramsYaml => explained_ok _
  · unfold readEnabled
    split
    · exact explained_ok _
    · exact explained_readScalar _
  · exact explained_readIf (explained_readScalar _)
  · refine Explained.bind (explained_readIf (explained_readScalar _)) fun path => ?_
    split
    · obtain ⟨resolved, found, -⟩ := resolvePath_ok env rooted path
      rw [found]
      exact explained_ok _
    · exact explained_ok _
  · exact explained_readIf (explained_readScalar _)
  · unfold emitParams
    split
    · exact explained_ok _
    · split
      · exact explained_fail
      · exact explained_ok _
    · exact explained_fail

theorem explained_parseComponent (env : Environment) (yamlPath : String)
    (rooted : configDir.rooted = true) (field : String) (allowDisabled : Bool) (node : Yaml) :
    Explained (parseComponent env yamlPath configDir field allowDisabled node).2 := by
  unfold parseComponent
  split
  · exact explained_parseEntries rooted _ _ _
  · exact explained_fail

theorem Explained.map {S : Type u} {x : Except Failure T} (explained : Explained x) (f : T → S) :
    Explained (x.map f) := by
  cases x with
  | error failure => exact explained.passed
  | ok value => exact explained_ok _

theorem explained_parseProcessors (rooted : configDir.rooted = true) (index : Nat)
    (items : List Yaml) :
    Explained (parseProcessors env yamlPath configDir index items).2 := by
  induction items generalizing index with
  | nil => exact explained_ok _
  | cons item rest ih =>
    have first := explained_parseComponent env yamlPath rooted
      ("postprocessors[" ++ toString index ++ "]") true item
    rw [parseProcessors]
    split
    · rename_i failure failed
      rw [failed] at first
      exact first.passed
    · exact (ih (index + 1)).map _

theorem explained_parseScene (env : Environment) (yamlPath : String)
    (rooted : configDir.rooted = true) (root : List (Yaml × Yaml)) :
    Explained (parseScene env yamlPath configDir root).2 := by
  unfold parseScene
  split
  · exact explained_fail
  · exact explained_parseComponent env yamlPath rooted _ _ _

theorem explained_parsePostprocessors (rooted : configDir.rooted = true)
    (root : List (Yaml × Yaml)) :
    Explained (parsePostprocessors env yamlPath configDir root).2 := by
  unfold parsePostprocessors
  split
  · exact explained_ok _
  · exact explained_parseProcessors rooted _ _
  · exact explained_fail

/-- The directory of a document with a name is absolute. -/
theorem configDirectory_ok (env : Environment) (named : yamlPath ≠ "") :
    ∃ dir, configDirectory env yamlPath = .ok dir ∧ dir.rooted = true := by
  obtain ⟨p, found, absolute⟩ := Path.absolute_rooted env.rooted (Path.ofString_not_empty named)
  refine ⟨p.lexicallyNormal.parentPath, by rw [configDirectory, found], ?_⟩
  rw [Path.parentPath_rooted, Path.lexicallyNormal_rooted, absolute]

theorem explained_parseRoot (named : yamlPath ≠ "") (root : List (Yaml × Yaml)) :
    Explained (parseRoot env yamlPath root).2 := by
  obtain ⟨dir, directory, rooted⟩ := configDirectory_ok env named
  have version : Explained (checkVersion env yamlPath root) := explained_readScalar _
  simp only [parseRoot, directory]
  cases checked : checkVersion env yamlPath root with
  | error failure =>
    rw [checked] at version
    exact version.passed
  | ok one =>
    have scene := explained_parseScene env yamlPath rooted root
    cases parsed : (parseScene env yamlPath dir root).2 with
    | error failure =>
      rw [parsed] at scene
      simp only [Except.bind, parsed]
      exact scene.passed
    | ok component =>
      simp only [Except.bind, parsed]
      exact (explained_parsePostprocessors rooted root).map _

/-- A document that is loaded has a name. -/
theorem loadYaml_named {root : List (Yaml × Yaml)} (loaded : loadYaml env yamlPath = .ok root) :
    yamlPath ≠ "" := by
  rintro rfl
  rw [loadYaml, loadFile, env.unnamed] at loaded
  cases loaded

theorem loadYaml_map {root : List (Yaml × Yaml)} (loaded : loadYaml env yamlPath = .ok root) :
    loadFile env yamlPath = .ok (.map root) := by
  unfold loadYaml at loaded
  split at loaded
  · cases loaded
  · cases loaded
  · rename_i entries read
    cases loaded
    exact read
  · cases loaded

theorem explained_loadYaml : Explained (loadYaml env yamlPath) := by
  unfold loadYaml
  split
  · apply explained_told
    rw [String.append_assoc]
    exact append_ne (append_ne_of_front (by decide))
  · apply explained_told
    rw [String.append_assoc]
    exact append_ne (append_ne_of_front (by decide))
  · exact explained_ok _
  · exact explained_fail

end Explanations

section Successes

variable {T S : Type} {env : Environment} {yamlPath field detail : String} {configDir : Path}

theorem readScalar_ok {convert : Yaml → Except String S} {accepted : S → Bool}
    {node : Option Yaml} {value : S}
    (ok : readScalar convert accepted detail yamlPath field node = .ok value) :
    ∃ n, node = some n ∧ convert n = .ok value ∧ accepted value = true := by
  unfold readScalar at ok
  split at ok
  · split at ok
    · cases ok
    · rename_i text read converted
      split at ok
      · rename_i good
        cases ok
        exact ⟨_, rfl, converted, good⟩
      · cases ok
  · cases ok

/-- A field that is read conditionally: it is accepted, or it is missing and not needed. -/
theorem readIf_ok {convert : Yaml → Except String S} {accepted : S → Bool} {required : Bool}
    {node : Option Yaml} {missing value : S}
    (ok : readIf required node missing
      (readScalar convert accepted detail yamlPath field node) = .ok value) :
    FieldOf convert missing value node ∧ (required = true → accepted value = true) := by
  unfold readIf at ok
  split at ok
  · obtain ⟨n, rfl, converted, good⟩ := readScalar_ok ok
    exact ⟨converted, fun _ => good⟩
  · rename_i free
    cases ok
    obtain ⟨optional, absent⟩ := not_or.mp (Bool.or_eq_true _ _ ▸ free)
    rw [Bool.not_eq_true, Option.isSome_eq_false_iff, Option.isNone_iff_eq_none] at absent
    rw [absent]
    exact ⟨rfl, fun needed => absurd needed optional⟩

theorem readEnabled_ok {entries : List (Yaml × Yaml)} {enabled : Bool}
    (ok : readEnabled env yamlPath entries field = .ok enabled) :
    FieldOf env.asBool true enabled (findKey "enabled" entries) := by
  unfold readEnabled at ok
  split at ok
  · rename_i absent
    cases ok
    rw [absent]
    rfl
  · rename_i node present
    obtain ⟨n, same, converted, -⟩ := readScalar_ok ok
    cases same
    rw [present]
    exact converted

theorem emitParams_ok {entries : List (Yaml × Yaml)} {paramsYaml : String}
    (ok : emitParams env yamlPath entries field = .ok paramsYaml) :
    FieldOf env.emit "" paramsYaml (findKey "params" entries) := by
  unfold emitParams at ok
  split at ok
  · rename_i absent
    cases ok
    rw [absent]
    rfl
  · rename_i params present
    split at ok
    · cases ok
    · rename_i text emitted
      cases ok
      rw [present]
      exact emitted
  · cases ok

theorem readLibrary_ok {entries : List (Yaml × Yaml)} {required : Bool} {libraryPath : String}
    (rooted : configDir.rooted = true)
    (ok : readLibrary env yamlPath configDir entries field required = .ok libraryPath) :
    (∃ path, FieldOf env.asString "" path (findKey "library" entries) ∧
        (path = "" ∧ libraryPath = "" ∨ resolvePath env configDir path = .ok libraryPath)) ∧
      (required = true → libraryPath ≠ "") := by
  obtain ⟨path, read, resolved⟩ := bind_ok ok
  obtain ⟨field, good⟩ := readIf_ok read
  split at resolved
  · obtain ⟨q, found, some_path⟩ := resolvePath_ok env rooted path
    cases found.symm.trans resolved
    exact ⟨⟨path, field, Or.inr found⟩, fun _ => some_path⟩
  · rename_i none_left
    have empty : path = "" := not_not.mp none_left
    cases resolved
    refine ⟨⟨path, field, Or.inl ⟨empty, rfl⟩⟩, fun needed => ?_⟩
    exact absurd empty (of_decide_eq_true (good needed))

/-- A component that is parsed is what its entries say, and valid if it is needed. -/
theorem parseEntries_ok {allowDisabled : Bool} {entries : List (Yaml × Yaml)}
    {c : ComponentConfig} (rooted : configDir.rooted = true)
    (ok : parseEntries env yamlPath configDir field allowDisabled entries = .ok c) :
    Describes env configDir entries c ∧
      ((!allowDisabled || c.enabled) = true → Valid c) := by
  obtain ⟨enabled, readEnabled, ok⟩ := bind_ok ok
  obtain ⟨name, readName, ok⟩ := bind_ok ok
  obtain ⟨library, readLibrary, ok⟩ := bind_ok ok
  obtain ⟨apiVersion, readVersion, ok⟩ := bind_ok ok
  obtain ⟨paramsYaml, emitted, ok⟩ := bind_ok ok
  cases ok
  obtain ⟨nameField, nameGood⟩ := readIf_ok readName
  obtain ⟨libraryField, libraryGood⟩ := readLibrary_ok rooted readLibrary
  obtain ⟨versionField, versionGood⟩ := readIf_ok readVersion
  refine ⟨⟨nameField, libraryField, rfl, emitParams_ok emitted, versionField,
    readEnabled_ok readEnabled⟩, fun needed => ⟨?_, libraryGood needed, ?_⟩⟩
  · exact of_decide_eq_true (nameGood needed)
  · exact UInt32.pos_iff_ne_zero.mpr (of_decide_eq_true (versionGood needed))

theorem parseComponent_ok {allowDisabled : Bool} {node : Yaml} {c : ComponentConfig}
    (rooted : configDir.rooted = true)
    (ok : (parseComponent env yamlPath configDir field allowDisabled node).2 = .ok c) :
    ∃ entries, node = .map entries ∧ Describes env configDir entries c ∧
      ((!allowDisabled || c.enabled) = true → Valid c) := by
  unfold parseComponent at ok
  split at ok
  · exact ⟨_, rfl, parseEntries_ok rooted ok⟩
  · cases ok

/-- The loop over the processors keeps their number and order. -/
theorem parseProcessors_ok (rooted : configDir.rooted = true) {index : Nat} {items : List Yaml}
    {configs : List ComponentConfig}
    (ok : (parseProcessors env yamlPath configDir index items).2 = .ok configs) :
    List.Forall₂ (fun item c => ∃ entries, item = .map entries ∧
        Describes env configDir entries c) items configs ∧
      ∀ c ∈ configs, c.enabled = true → Valid c := by
  induction items generalizing index configs with
  | nil =>
    cases ok
    exact ⟨.nil, fun _ mem => nomatch mem⟩
  | cons item rest ih =>
    rw [parseProcessors] at ok
    split at ok
    · cases ok
    · rename_i processor first
      obtain ⟨entries, shape, described, valid⟩ := parseComponent_ok rooted first
      cases later : (parseProcessors env yamlPath configDir (index + 1) rest).2 with
      | error failure =>
        simp only [later] at ok
        cases ok
      | ok processors =>
        simp only [later] at ok
        cases ok
        obtain ⟨all, allValid⟩ := ih later
        exact ⟨.cons ⟨entries, shape, described⟩ all,
          List.forall_mem_cons.mpr ⟨valid, allValid⟩⟩

theorem parsePostprocessors_ok (rooted : configDir.rooted = true) {root : List (Yaml × Yaml)}
    {configs : List ComponentConfig}
    (ok : (parsePostprocessors env yamlPath configDir root).2 = .ok configs) :
    List.Forall₂ (fun item c => ∃ entries, item = .map entries ∧
        Describes env configDir entries c) (processorItems root) configs ∧
      ∀ c ∈ configs, c.enabled = true → Valid c := by
  unfold parsePostprocessors at ok
  unfold processorItems
  split at ok
  · rename_i absent
    cases ok
    rw [absent]
    exact ⟨.nil, fun _ mem => nomatch mem⟩
  · rename_i items present
    rw [present]
    exact parseProcessors_ok rooted ok
  · cases ok

theorem parseScene_ok (rooted : configDir.rooted = true) {root : List (Yaml × Yaml)}
    {c : ComponentConfig} (ok : (parseScene env yamlPath configDir root).2 = .ok c) :
    (∃ entries, findKey "scene" root = some (.map entries) ∧ Describes env configDir entries c) ∧
      Valid c := by
  unfold parseScene at ok
  split at ok
  · cases ok
  · rename_i scene present
    obtain ⟨entries, rfl, described, valid⟩ := parseComponent_ok rooted ok
    exact ⟨⟨entries, present, described⟩, valid rfl⟩

theorem parseRoot_ok (named : yamlPath ≠ "") {root : List (Yaml × Yaml)} {config : SceneConfig}
    (ok : (parseRoot env yamlPath root).2 = .ok config) :
    ∃ dir, configDirectory env yamlPath = .ok dir ∧ Complete env dir root config := by
  obtain ⟨dir, directory, rooted⟩ := configDirectory_ok env named
  refine ⟨dir, directory, ?_⟩
  simp only [parseRoot, directory] at ok
  cases checked : checkVersion env yamlPath root with
  | error failure =>
    simp only [checked] at ok
    cases ok
  | ok one =>
    simp only [checked, Except.bind] at ok
    cases parsed : (parseScene env yamlPath dir root).2 with
    | error failure =>
      simp only [parsed] at ok
      cases ok
    | ok component =>
      simp only [parsed] at ok
      cases all : (parsePostprocessors env yamlPath dir root).2 with
      | error failure =>
        simp only [all] at ok
        cases ok
      | ok processors =>
        simp only [all] at ok
        cases ok
        obtain ⟨scene, valid⟩ := parseScene_ok rooted parsed
        obtain ⟨described, processorsValid⟩ := parsePostprocessors_ok rooted all
        exact ⟨scene, valid, described, processorsValid⟩

end Successes

/-- Loading a scene never throws: it refuses with a text and leaves the caller's
configuration, or it leaves a configuration that is complete for the document. -/
theorem load_all_or_nothing (env : Environment) (yamlPath : String) (config : SceneConfig) :
    ∃ done, loadSceneConfig env yamlPath config = some done ∧
      (done.ret = false ∧ done.config = config ∧ done.error ≠ "" ∨
        done.ret = true ∧ ∃ root dir, loadFile env yamlPath = .ok (.map root) ∧
          configDirectory env yamlPath = .ok dir ∧ Complete env dir root done.config) := by
  unfold loadSceneConfig
  cases loaded : loadYaml env yamlPath with
  | error failure =>
    obtain ⟨error, rfl, stated⟩ := explained_loadYaml failure loaded
    exact ⟨_, rfl, Or.inl ⟨rfl, rfl, stated⟩⟩
  | ok root =>
    have named := loadYaml_named loaded
    cases parsed : (parseRoot env yamlPath root).2 with
    | error failure =>
      obtain ⟨error, rfl, stated⟩ := explained_parseRoot named root failure parsed
      simp only [parsed]
      exact ⟨_, rfl, Or.inl ⟨rfl, rfl, stated⟩⟩
    | ok scene =>
      obtain ⟨dir, directory, complete⟩ := parseRoot_ok named parsed
      simp only [parsed]
      exact ⟨_, rfl, Or.inr ⟨rfl, root, dir, loadYaml_map loaded, directory, complete⟩⟩

section Shop

def mapping (fields : List (String × Yaml)) : Yaml :=
  .map (fields.map fun field => (.scalar field.1, field.2))

/-- A document with one processor that is enabled and one that is not. -/
def shopDocument : Yaml :=
  mapping [("version", .scalar "1"),
    ("scene", mapping [("name", .scalar "shop"), ("library", .scalar "libshop.so"),
      ("api_version", .scalar "2")]),
    ("postprocessors", .sequence [
      mapping [("name", .scalar "tracker"), ("library", .scalar "../plugins/libtracker.so"),
        ("api_version", .scalar "1"), ("params", mapping [("track_buffer", .scalar "30")])],
      mapping [("name", .scalar "face"), ("enabled", .scalar "false")]])]

def shopText (file : String) : Option String :=
  if file = "conf/shop.yaml" then some "version: 1" else none

theorem shopText_unnamed : shopText "" = none := rfl

def shopDirectory : Path := .ofString "/opt/vision"

theorem shopDirectory_rooted : shopDirectory.rooted = true := rfl

/-- A working directory with the document, and the scalars that it has. -/
def shopFiles : Environment where
  load _ := .ok shopDocument
  badFile file := "bad file: " ++ file
  asString
    | .scalar text => .ok text
    | _ => .error "bad conversion"
  asUint32
    | .scalar "1" => .ok 1
    | .scalar "2" => .ok 2
    | _ => .error "bad conversion"
  asBool
    | .scalar "true" => .ok true
    | .scalar "false" => .ok false
    | _ => .error "bad conversion"
  emit _ := .ok "track_buffer: 30"
  read := shopText
  unnamed := shopText_unnamed
  current := shopDirectory
  rooted := shopDirectory_rooted

def shopConfig : SceneConfig where
  scene := ⟨"shop", "/opt/vision/conf/libshop.so", "/opt/vision/conf", "", 2, true⟩
  postprocessors :=
    [⟨"tracker", "/opt/vision/plugins/libtracker.so", "/opt/vision/conf", "track_buffer: 30", 1, true⟩,
      ⟨"face", "", "/opt/vision/conf", "", 0, false⟩]

theorem shop_loaded :
    ∃ root dir, loadSceneConfig shopFiles "conf/shop.yaml" ⟨{}, []⟩ =
        some ⟨true, shopConfig, "", []⟩ ∧
      loadFile shopFiles "conf/shop.yaml" = .ok (.map root) ∧
      configDirectory shopFiles "conf/shop.yaml" = .ok dir ∧ Complete shopFiles dir root shopConfig := by
  have run : loadSceneConfig shopFiles "conf/shop.yaml" ⟨{}, []⟩ =
      some ⟨true, shopConfig, "", []⟩ := by
    rfl
  obtain ⟨done, loaded, ⟨refused, -⟩ | ⟨-, root, dir, read, directory, complete⟩⟩ :=
    load_all_or_nothing shopFiles "conf/shop.yaml" ⟨{}, []⟩
  · rw [run, Option.some.injEq] at loaded
    rw [← loaded] at refused
    cases refused
  · rw [run, Option.some.injEq] at loaded
    rw [← loaded] at complete
    exact ⟨root, dir, run, read, directory, complete⟩

end Shop

end SceneConfigs
