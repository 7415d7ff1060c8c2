import AxVision.DecimalNumerals
import AxVision.TrackerProcessor

/-!
# The configuration of the tracker

`TrackerProcessor::Init` on the YAML text of its parameters: the checks in
their order, what each prints, and what each leaves in the processor. The YAML
library is a parameter: how a text is loaded and how a node converts.
-/

namespace TrackerConfigs

open DetectionTypes ByteTracker KeyedTables TrackerProcessor
open DecimalNumerals (isSpace)

universe u v

section LabelNames

def isBaseDigit (c : Char) (base : Nat) : Bool :=
  if '0' ≤ c ∧ c ≤ '9' then c.toNat - '0'.toNat < base
  else base == 16 && ('a' ≤ c.toLower && c.toLower ≤ 'f')

/-- The loop of `IsDigitSequence`; underscores are skipped. -/
def digitSequence (base : Nat) : List Char → Bool → Bool
  | [], hasDigit => hasDigit
  | c :: rest, hasDigit =>
    if c = '_' then digitSequence base rest hasDigit
    else if isBaseDigit c base then digitSequence base rest true
    else false

def isDigitSequence (value : List Char) (base : Nat) : Bool := digitSequence base value false

/-- Decimal digits and underscores from the front, and whether there was a digit. -/
def scanMantissa : List Char → Bool → Bool × List Char
  | [], mantissaDigit => (mantissaDigit, [])
  | c :: rest, mantissaDigit =>
    if isBaseDigit c 10 || c == '_' then scanMantissa rest (mantissaDigit || c != '_')
    else (mantissaDigit, c :: rest)

def dropSign : List Char → List Char
  | '+' :: rest => rest
  | '-' :: rest => rest
  | value => value

/-- The exponent, or the end of the text. -/
def exponentOk : List Char → Bool
  | [] => true
  | c :: rest => (c == 'e' || c == 'E') && isDigitSequence (dropSign rest) 10

def isDecimal (value : List Char) : Bool :=
  let whole := scanMantissa value false
  let mantissa := match whole.2 with
    | '.' :: rest => scanMantissa rest whole.1
    | _ => whole
  mantissa.1 && exponentOk mantissa.2

def specialNumbers : List String := [".inf", "+.inf", "-.inf", ".nan", "+.nan", "-.nan"]

def isYamlNumeric (value : List Char) : Bool :=
  if String.ofList (value.map Char.toLower) ∈ specialNumbers then true
  else
    match dropSign value with
    | [] => false
    | '0' :: p :: digits =>
      if p.toLower = 'b' then isDigitSequence digits 2
      else if p.toLower = 'o' then isDigitSequence digits 8
      else if p.toLower = 'x' then isDigitSequence digits 16
      else isDecimal ('0' :: p :: digits)
    | rest => isDecimal rest

def trimmed (label : List Char) : List Char :=
  ((label.dropWhile isSpace).reverse.dropWhile isSpace).reverse

/-- `IsValidLabelName`; only an empty name makes the two ends meet. In a name of
blanks the front end lies behind the back end, and the string built from them
throws `std::length_error`, here `none`. -/
def isValidLabelName (label : String) : Option Bool :=
  if label.toList.isEmpty then some false
  else if label.toList.all isSpace then none
  else some (!isYamlNumeric (trimmed label.toList))

example : isValidLabelName " face " = some true := by decide

example : ["91", "0x1F", "-1_0.5e+3", ".NaN", ""].all (isValidLabelName · == some false) := by
  decide

end LabelNames

/-- A loaded document. A map keeps its pairs as they were written. -/
inductive Yaml where
  | null
  | scalar (text : String)
  | sequence (items : List Yaml)
  | map (entries : List (Yaml × Yaml))

/-- `YAML::Load` and `as<T>`; an error is the `what()` of the exception thrown. -/
structure YamlLibrary (F : Type u) where
  load : String → Except String Yaml
  asString : Yaml → Except String String
  asInt : Yaml → Except String Int
  asFloat : Yaml → Except String F

/-- `params[field]`: the value of the first key that is the scalar `field`. -/
def findKey (field : String) : List (Yaml × Yaml) → Option Yaml
  | [] => none
  | (.scalar text, value) :: rest => if text = field then some value else findKey field rest
  | _ :: rest => findKey field rest

/-- A result of two steps, the second of which takes what the first one gives. -/
theorem bind_ok {ε α β : Type} {x : Except ε α} {f : α → Except ε β} {b : β}
    (done : x.bind f = .ok b) : ∃ a, x = .ok a ∧ f a = .ok b := by
  cases x with
  | error => cases done
  | ok a => exact ⟨a, rfl, done⟩

/-- The order in which `unordered_set` iterates its elements. -/
structure IterationOrder where
  order : List String → List String
  perm : ∀ labels, (order labels).Perm labels

def kInvalidConfig : Int := -2

def configError (detail : String) : String :=
  "TrackerProcessor: invalid configuration: " ++ detail ++ "\n"

def unknownParameter (field : String) : String :=
  "TrackerProcessor: warning: unknown tracker parameter '" ++ field ++ "'\n"

def knownFields : List String :=
  ["algorithm", "track_labels", "frame_rate", "track_buffer", "track_thresh", "high_thresh",
    "match_thresh"]

section Checks

variable {F : Type u} (yaml : YamlLibrary F)

/-- The loop over the keys: what it prints and the error it stops at. -/
def checkFields : List (Yaml × Yaml) → List String → List String × Option String
  | [], _ => ([], none)
  | (key, _) :: rest, seenFields =>
    match yaml.asString key with
    | .error what => ([], some ("parameter key: " ++ what))
    | .ok field =>
      if field ∈ seenFields then ([], some ("duplicate key '" ++ field ++ "'"))
      else
        let next := checkFields rest (field :: seenFields)
        (if field ∈ knownFields then next.1 else unknownParameter field :: next.1, next.2)

def checkAlgorithm (params : List (Yaml × Yaml)) : Option String :=
  match findKey "algorithm" params with
  | none => some "algorithm must be 'bytetrack'"
  | some node =>
    match yaml.asString node with
    | .error what => some ("algorithm: " ++ what)
    | .ok algorithm =>
      if algorithm ≠ "bytetrack" then some "algorithm must be 'bytetrack'" else none

/-- The nodes of a nonempty sequence. -/
def labelNodes (params : List (Yaml × Yaml)) : Except String (List Yaml) :=
  match findKey "track_labels" params with
  | some (.sequence (first :: rest)) => .ok (first :: rest)
  | _ => .error "track_labels must be a nonempty sequence"

/-- All checks before the first label is inserted. -/
def checkHead (params : Yaml) : List String × Except String (List (Yaml × Yaml) × List Yaml) :=
  match params with
  | .map entries =>
    let fields := checkFields yaml entries []
    match fields.2 with
    | some detail => (fields.1, .error detail)
    | none =>
      match checkAlgorithm yaml entries with
      | some detail => (fields.1, .error detail)
      | none => (fields.1, (labelNodes entries).map fun labels => (entries, labels))
  | _ => ([], .error "params must be a map")

/-- How the loop over the label nodes ends. -/
inductive LabelsEnd where
  | complete
  | refused (detail : String)
  | threw

/-- `track_labels_` after the loop over the nodes. -/
def insertLabels : List Yaml → List String → List String × LabelsEnd
  | [], trackLabels => (trackLabels, .complete)
  | node :: rest, trackLabels =>
    match yaml.asString node with
    | .error what => (trackLabels, .refused ("track_labels item: " ++ what))
    | .ok label =>
      match isValidLabelName label with
      | some true => insertLabels rest (trackLabels.insert label)
      | some false =>
        (trackLabels,
          .refused "track_labels must contain nonempty label names, not numeric IDs")
      | none => (trackLabels, .threw)

def readOptional {T : Type v} (convert : Yaml → Except String T) (params : List (Yaml × Yaml))
    (field : String) (value : T) : Except String T :=
  match findKey field params with
  | none => .ok value
  | some node =>
    match convert node with
    | .ok read => .ok read
    | .error what => .error (field ++ ": " ++ what)

variable [Scalar F]

def readTrackerConfig (params : List (Yaml × Yaml)) : Except String (BYTETrackerConfig F) :=
  (readOptional yaml.asInt params "frame_rate" 30).bind fun frameRate =>
  (readOptional yaml.asInt params "track_buffer" 30).bind fun trackBuffer =>
  (readOptional yaml.asFloat params "track_thresh" (Scalar.ofRat (1 / 2))).bind fun trackThresh =>
  (readOptional yaml.asFloat params "high_thresh" (Scalar.ofRat (6 / 10))).bind fun highThresh =>
  (readOptional yaml.asFloat params "match_thresh" (Scalar.ofRat (8 / 10))).bind fun matchThresh =>
  .ok ⟨frameRate, trackBuffer, trackThresh, highThresh, matchThresh⟩

def rangeError (config : BYTETrackerConfig F) : Option String :=
  if config.frameRate ≤ 0 then some "frame_rate must be positive"
  else if config.trackBuffer ≤ 0 then some "track_buffer must be positive"
  else if !validThreshold config.trackThresh then some "track_thresh must be in [0, 1]"
  else if !validThreshold config.highThresh then some "high_thresh must be in [0, 1]"
  else if !validThreshold config.matchThresh then some "match_thresh must be in [0, 1]"
  else none

end Checks

section Init

variable {F : Type u}

/-- A new processor, and one after `Shutdown`. -/
def fresh : Processor F := ⟨[], Table.empty, 1⟩

def shutdown (_ : Processor F) : Processor F := fresh

/-- What `Init` returns, prints and leaves; without a code it has thrown. -/
structure Outcome (F : Type u) where
  code : Option Int
  printed : List String
  processor : Processor F

variable [Scalar F] (yaml : YamlLibrary F) (iteration : IterationOrder)

/-- `Init` from the first label on. -/
def loadLabels (p : Processor F) (warnings : List String) (params : List (Yaml × Yaml))
    (nodes : List Yaml) : Outcome F :=
  let inserted := insertLabels yaml nodes []
  let p := { p with trackLabels := iteration.order inserted.1 }
  match inserted.2 with
  | .threw => ⟨none, warnings, p⟩
  | .refused detail => ⟨some kInvalidConfig, warnings ++ [configError detail], p⟩
  | .complete =>
    match readTrackerConfig yaml params with
    | .error detail => ⟨some kInvalidConfig, warnings ++ [configError detail], shutdown p⟩
    | .ok trackerConfig =>
      match rangeError trackerConfig with
      | some detail => ⟨some kInvalidConfig, warnings ++ [configError detail], p⟩
      | none =>
        ⟨some 0, warnings,
          { p with
            trackers := p.trackLabels.foldl
              (fun trackers label => trackers.alter label fun _ => some (.ofConfig trackerConfig))
              p.trackers
            nextTrackId := 1 }⟩

/-- `TrackerProcessor::Init`. -/
def init (p : Processor F) (paramsYaml : String) : Outcome F :=
  let p := shutdown p
  match yaml.load paramsYaml with
  | .error what => ⟨some kInvalidConfig, [configError what], shutdown p⟩
  | .ok params =>
    match checkHead yaml params with
    | (warnings, .error detail) => ⟨some kInvalidConfig, warnings ++ [configError detail], p⟩
    | (warnings, .ok (entries, nodes)) => loadLabels yaml iteration p warnings entries nodes

end Init

section Conditions

variable {F : Type u} (yaml : YamlLibrary F)

/-- A node that is inserted into the labels. -/
def Accepts (node : Yaml) : Prop :=
  ∃ label, yaml.asString node = .ok label ∧ isValidLabelName label = some true

/-- The parameters up to the labels: a map with distinct keys, the one
algorithm there is, and some label nodes. -/
structure Head (params : Yaml) (entries : List (Yaml × Yaml)) (nodes : List Yaml) : Prop where
  params_map : params = .map entries
  keys : ∃ fields : List String, (entries.map fun e => yaml.asString e.1) = fields.map .ok ∧ fields.Nodup
  algorithm : ∃ node, findKey "algorithm" entries = some node ∧
    yaml.asString node = .ok "bytetrack"
  labels : findKey "track_labels" entries = some (.sequence nodes)
  nodes_nonempty : nodes ≠ []

structure InRange [Scalar F] (config : BYTETrackerConfig F) : Prop where
  frameRate_pos : 0 < config.frameRate
  trackBuffer_pos : 0 < config.trackBuffer
  trackThresh_valid : validThreshold config.trackThresh = true
  highThresh_valid : validThreshold config.highThresh = true
  matchThresh_valid : validThreshold config.matchThresh = true

/-- The first label is inserted, and a later label or a number is refused. -/
def Strands [Scalar F] (paramsYaml : String) : Prop :=
  ∃ params entries first rest, yaml.load paramsYaml = .ok params ∧
    Head yaml params entries (first :: rest) ∧ Accepts yaml first ∧
    ((∃ node ∈ rest, ¬Accepts yaml node) ∨
      ∃ config, readTrackerConfig yaml entries = .ok config ∧ ¬InRange config)

theorem checkFields_none (entries : List (Yaml × Yaml)) (seenFields : List String) :
    (checkFields yaml entries seenFields).2 = none ↔
      ∃ fields : List String, (entries.map fun e => yaml.asString e.1) = fields.map .ok ∧ fields.Nodup ∧
        ∀ field ∈ fields, field ∉ seenFields := by
  induction entries generalizing seenFields with
  | nil =>
    refine ⟨fun _ => ⟨[], rfl, by simp, by simp⟩, fun _ => rfl⟩
  | cons e rest ih =>
    rw [checkFields]
    cases read : yaml.asString e.1 with
    | error what =>
      simp only [reduceCtorEq, false_iff]
      rintro ⟨fields, same, -⟩
      cases fields <;> simp [read] at same
    | ok field =>
      by_cases old : field ∈ seenFields
      · simp only [if_pos old, reduceCtorEq, false_iff]
        rintro ⟨fields, same, -, new⟩
        cases fields with
        | nil => simp at same
        | cons first fields =>
          have head : field = first := by simpa [read] using (List.cons.inj same).1
          exact new first List.mem_cons_self (head ▸ old)
      · simp only [if_neg old, ih]
        constructor
        · rintro ⟨fields, same, nodup, new⟩
          refine ⟨field :: fields, by simp [read, same], ?_, ?_⟩
          · refine List.nodup_cons.mpr ⟨fun member => ?_, nodup⟩
            exact new field member List.mem_cons_self
          · intro other member
            rcases List.mem_cons.mp member with rfl | member
            · exact old
            · exact fun held => new other member (List.mem_cons_of_mem _ held)
        · rintro ⟨fields, same, nodup, new⟩
          cases fields with
          | nil => simp at same
          | cons first fields =>
            obtain ⟨head, tail⟩ := List.cons.inj same
            have head : field = first := by simpa [read] using head
            subst head
            obtain ⟨fresh, nodup⟩ := List.nodup_cons.mp nodup
            refine ⟨fields, tail, nodup, ?_⟩
            intro other member held
            rcases List.mem_cons.mp held with rfl | held
            · exact fresh member
            · exact new other (List.mem_cons_of_mem _ member) held

theorem checkAlgorithm_none (entries : List (Yaml × Yaml)) :
    checkAlgorithm yaml entries = none ↔
      ∃ node, findKey "algorithm" entries = some node ∧ yaml.asString node = .ok "bytetrack" := by
  rw [checkAlgorithm]
  cases findKey "algorithm" entries with
  | none => simp
  | some node =>
    cases read : yaml.asString node with
    | error what => simp [read]
    | ok algorithm =>
      by_cases same : algorithm = "bytetrack" <;> simp [read, same]

theorem labelNodes_ok (entries : List (Yaml × Yaml)) (nodes : List Yaml) :
    labelNodes entries = .ok nodes ↔
      findKey "track_labels" entries = some (.sequence nodes) ∧ nodes ≠ [] := by
  rw [labelNodes]
  split
  · next first rest found =>
    rw [found]
    constructor
    · intro same
      obtain rfl : first :: rest = nodes := Except.ok.inj same
      exact ⟨rfl, by simp⟩
    · rintro ⟨same, -⟩
      rw [Yaml.sequence.inj (Option.some.inj same)]
  · next other =>
    simp only [reduceCtorEq, false_iff, not_and]
    intro found empty
    cases nodes with
    | nil => exact empty rfl
    | cons first rest => exact other first rest found

theorem checkHead_ok (params : Yaml) (entries : List (Yaml × Yaml)) (nodes : List Yaml) :
    (checkHead yaml params).2 = .ok (entries, nodes) ↔ Head yaml params entries nodes := by
  cases params with
  | map entries' =>
    have keys := checkFields_none yaml entries' []
    simp only [List.not_mem_nil, not_false_eq_true, implies_true, and_true] at keys
    rw [checkHead]
    cases fields : (checkFields yaml entries' []).2 with
    | some detail =>
      simp only [reduceCtorEq, false_iff]
      rintro ⟨same, distinct, -⟩
      obtain rfl := Yaml.map.inj same
      simp [keys.mpr distinct] at fields
    | none =>
      cases algorithm : checkAlgorithm yaml entries' with
      | some detail =>
        simp only [reduceCtorEq, false_iff]
        rintro ⟨same, -, found, -⟩
        obtain rfl := Yaml.map.inj same
        simp [(checkAlgorithm_none yaml _).mpr found] at algorithm
      | none =>
        constructor
        · intro ok
          cases labels : labelNodes entries' with
          | error detail => simp [labels, Except.map] at ok
          | ok found =>
            obtain ⟨rfl, rfl⟩ : entries' = entries ∧ found = nodes := by
              simpa [labels, Except.map] using ok
            obtain ⟨found, nonempty⟩ := (labelNodes_ok _ _).mp labels
            exact ⟨rfl, keys.mp fields, (checkAlgorithm_none yaml _).mp algorithm, found, nonempty⟩
        · rintro ⟨same, -, -, found, nonempty⟩
          obtain rfl := Yaml.map.inj same
          rw [(labelNodes_ok _ _).mpr ⟨found, nonempty⟩]
          rfl
  | null | scalar _ | sequence _ =>
    simp only [checkHead, reduceCtorEq, false_iff]
    rintro ⟨same, -⟩
    cases same

/-- The loop completes exactly when it inserts every node. -/
theorem insertLabels_complete (nodes : List Yaml) (trackLabels : List String) :
    (insertLabels yaml nodes trackLabels).2 = .complete ↔ ∀ node ∈ nodes, Accepts yaml node := by
  induction nodes generalizing trackLabels with
  | nil => simp [insertLabels]
  | cons node rest ih =>
    rw [insertLabels, List.forall_mem_cons]
    cases read : yaml.asString node with
    | error what => simp [Accepts, read]
    | ok label =>
      cases valid : isValidLabelName label with
      | none => simp [Accepts, read, valid]
      | some ok =>
        cases ok with
        | false => simp [Accepts, read, valid]
        | true =>
          have accepted : Accepts yaml node := ⟨label, read, valid⟩
          simp [valid, ih, accepted]

theorem insertLabels_nodup {nodes : List Yaml} {trackLabels : List String}
    (nodup : trackLabels.Nodup) : (insertLabels yaml nodes trackLabels).1.Nodup := by
  induction nodes generalizing trackLabels with
  | nil => exact nodup
  | cons node rest ih =>
    rw [insertLabels]
    split
    · exact nodup
    · split
      · exact ih nodup.insert
      · exact nodup
      · exact nodup

theorem insertLabels_subset (nodes : List Yaml) (trackLabels : List String) :
    trackLabels ⊆ (insertLabels yaml nodes trackLabels).1 := by
  induction nodes generalizing trackLabels with
  | nil => exact List.Subset.refl _
  | cons node rest ih =>
    rw [insertLabels]
    split
    · exact List.Subset.refl _
    · next label _ =>
      split
      · exact List.Subset.trans (List.subset_insert label trackLabels) (ih _)
      · exact List.Subset.refl _
      · exact List.Subset.refl _

/-- Some label is inserted exactly when the first node is. -/
theorem insertLabels_ne_nil (first : Yaml) (rest : List Yaml) :
    (insertLabels yaml (first :: rest) []).1 ≠ [] ↔ Accepts yaml first := by
  rw [insertLabels]
  cases read : yaml.asString first with
  | error what => simp [Accepts, read]
  | ok label =>
    cases valid : isValidLabelName label with
    | none => simp [Accepts, read, valid]
    | some ok =>
      cases ok with
      | false => simp [Accepts, read, valid]
      | true =>
        have inserted : label ∈ (insertLabels yaml rest ([].insert label)).1 :=
          insertLabels_subset yaml rest _ List.mem_insert_self
        simpa [Accepts, read, valid] using List.ne_nil_of_mem inserted

theorem rangeError_none [Scalar F] (config : BYTETrackerConfig F) :
    rangeError config = none ↔ InRange config := by
  rw [rangeError]
  constructor
  · intro passed
    split at passed
    · simp at passed
    · next frameRate =>
      split at passed
      · simp at passed
      · next trackBuffer =>
        split at passed
        · simp at passed
        · next trackThresh =>
          split at passed
          · simp at passed
          · next highThresh =>
            split at passed
            · simp at passed
            · next matchThresh =>
              exact ⟨by omega, by omega, by simpa using trackThresh, by simpa using highThresh,
                by simpa using matchThresh⟩
  · rintro ⟨frameRate, trackBuffer, trackThresh, highThresh, matchThresh⟩
    rw [if_neg (by omega), if_neg (by omega)]
    simp [trackThresh, highThresh, matchThresh]

end Conditions

end TrackerConfigs
