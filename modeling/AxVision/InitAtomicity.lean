import AxVision.LabelTurns
import AxVision.TrackerConfigs

/-!
# Failed initialisations of the tracker

What a failing `Init` leaves behind, and what later calls of `Process` make of
it. The checks that follow the first inserted label return without the reset
that the other failures make, so labels can outlive a failure without trackers.
-/

namespace InitAtomicity

open DetectionTypes KeyedTables TrackAssociation ByteTracker TrackerProcessor LabelTurns
open TrackerConfigs

universe u

variable {F : Type u} [Scalar F]

/-- Every configured label has its tracker and every tracker its label. -/
structure Configured (p : Processor F) : Prop where
  ready : Ready p
  keys : ∀ label, (p.trackers.lookup label).isSome = true ↔ label ∈ p.trackLabels

/-- Labels without any tracker. -/
structure Stranded (p : Processor F) : Prop where
  labels : p.trackLabels ≠ []
  trackers : p.trackers = Table.empty
  nextTrackId : p.nextTrackId = 1

/-- An `Init` that does not return 0 leaves nothing, one that does leaves a
tracker for every label. -/
def Atomic (o : Outcome F) : Prop :=
  (o.code ≠ some 0 → o.processor.trackLabels = [] ∧ o.processor.trackers = Table.empty ∧
      o.processor.nextTrackId = 1) ∧
    (o.code = some 0 → ∀ label, (o.processor.trackers.lookup label).isSome = true ↔
      label ∈ o.processor.trackLabels)

/-- `Process` with the throw of `trackers_.at`: what is left at the end or at
the throw, and whether it threw. -/
def processAt (backend : Backend F) : List String → Pass F → Pass F × Bool
  | [], s => (s, false)
  | label :: rest, s =>
    match s.processor.trackers.lookup label with
    | none => (s, true)
    | some _ => processAt backend rest (processLabel backend s label)

def process (backend : Backend F) (p : Processor F) (objects : List (Object F)) : Pass F × Bool :=
  processAt backend p.trackLabels ⟨p, objects.map (setTrackId (-1))⟩

/-- The calls a processor receives. -/
inductive Call (F : Type u) where
  | init (paramsYaml : String)
  | process (objects : List (Object F))
  | shutdown

def after (yaml : YamlLibrary F) (iteration : IterationOrder) (backend : Backend F)
    (p : Processor F) : Call F → Processor F
  | .init paramsYaml => (init yaml iteration p paramsYaml).processor
  | .process objects => (process backend p objects).1.processor
  | .shutdown => shutdown p

def run (yaml : YamlLibrary F) (iteration : IterationOrder) (backend : Backend F)
    (calls : List (Call F)) : Processor F :=
  calls.foldl (after yaml iteration backend) fresh

/-- The last call that was not `Process`. -/
def lastReset (calls : List (Call F)) : Option (Call F) :=
  calls.foldl (fun last call =>
    match call with
    | .process _ => last
    | reset => some reset) none

section Init

variable {yaml : YamlLibrary F} {paramsYaml : String} {params : Yaml}
  {entries : List (Yaml × Yaml)} {first : Yaml} {rest : List Yaml}

theorem strands_iff (loaded : yaml.load paramsYaml = .ok params)
    (head : Head yaml params entries (first :: rest)) :
    Strands yaml paramsYaml ↔ Accepts yaml first ∧
      ((∃ node ∈ rest, ¬Accepts yaml node) ∨
        ∃ config, readTrackerConfig yaml entries = .ok config ∧ ¬InRange config) := by
  constructor
  · rintro ⟨params', entries', first', rest', loaded', head', refused⟩
    obtain rfl : params = params' := Except.ok.inj (loaded.symm.trans loaded')
    have same := (checkHead_ok yaml _ _ _).mpr head
    rw [(checkHead_ok yaml _ _ _).mpr head'] at same
    obtain ⟨rfl, rfl, rfl⟩ : entries' = entries ∧ first' = first ∧ rest' = rest := by
      simpa using same
    exact refused
  · intro refused
    exact ⟨params, entries, first, rest, loaded, head, refused⟩

variable (iteration : IterationOrder)

omit [Scalar F] in
/-- The labels that `Init` leaves when it returns without a reset. -/
theorem order_ne_nil (first : Yaml) (rest : List Yaml) :
    iteration.order (insertLabels yaml (first :: rest) []).1 ≠ [] ↔
    Accepts yaml first := by
  rw [← insertLabels_ne_nil yaml first rest, not_iff_not]
  exact List.perm_nil.symm.trans ((iteration.perm _).congr_left []) |>.trans List.perm_nil

/-- The outcomes of `Init`: it fails and leaves nothing, it fails and leaves
labels, or it ends as the start of a configured processor. -/
inductive InitCase (strands : Prop) (o : Outcome F) : Prop
  | failed (code : o.code ≠ some 0) (atomic : ¬strands) (cleared : o.processor = fresh)
  | stranded (code : o.code ≠ some 0) (late : strands) (left : Stranded o.processor)
  | configured (code : o.code = some 0) (atomic : ¬strands) (config : AcceptedConfig F)
      (start : o.processor = .init config)

theorem loadLabels_refused {code : Option Int} {printed : List String} (failed : code ≠ some 0)
    (loaded : yaml.load paramsYaml = .ok params)
    (head : Head yaml params entries (first :: rest))
    (refused : ¬∀ node ∈ first :: rest, Accepts yaml node) :
    InitCase (Strands yaml paramsYaml) (⟨code, printed,
      { (fresh : Processor F) with
        trackLabels := iteration.order (insertLabels yaml (first :: rest) []).1 }⟩ : Outcome F) := by
  by_cases accepted : Accepts yaml first
  · refine .stranded failed ((strands_iff loaded head).mpr ⟨accepted, Or.inl ?_⟩) ?_
    · by_contra none
      apply refused
      rw [List.forall_mem_cons]
      exact ⟨accepted, by simpa using none⟩
    · exact ⟨(order_ne_nil iteration first rest).mpr accepted, rfl, rfl⟩
  · refine .failed failed (fun strands => accepted ((strands_iff loaded head).mp strands).1) ?_
    have none := not_not.mp (mt (order_ne_nil iteration first rest).mp accepted)
    rw [none]
    rfl

theorem loadLabels_cases (warnings : List String) (loaded : yaml.load paramsYaml = .ok params)
    (head : Head yaml params entries (first :: rest)) :
    InitCase (Strands yaml paramsYaml)
      (loadLabels yaml iteration fresh warnings entries (first :: rest)) := by
  have complete := insertLabels_complete yaml (first :: rest) []
  simp only [loadLabels]
  split
  · next threw =>
    rw [threw] at complete
    exact loadLabels_refused iteration (by simp) loaded head (by simpa using complete)
  · next detail refused =>
    rw [refused] at complete
    exact loadLabels_refused iteration (by simp [kInvalidConfig]) loaded head
      (by simpa using complete)
  · next done =>
    have all := complete.mp done
    have ⟨accepted, rest_accepted⟩ := List.forall_mem_cons.mp all
    have later : ¬∃ node ∈ rest, ¬Accepts yaml node := by simpa using rest_accepted
    split
    · next detail read =>
      refine .failed (by simp [kInvalidConfig]) ?_ rfl
      rw [strands_iff loaded head, read]
      simp [later]
    · next trackerConfig read =>
      split
      · next detail range =>
        refine .stranded (by simp [kInvalidConfig]) ?_
          ⟨(order_ne_nil iteration first rest).mpr accepted, rfl, rfl⟩
        refine (strands_iff loaded head).mpr ⟨accepted, Or.inr ⟨trackerConfig, read, ?_⟩⟩
        rw [← rangeError_none, range]
        simp
      · next range =>
        have valid := (rangeError_none trackerConfig).mp range
        refine .configured rfl ?_
          ⟨iteration.order (insertLabels yaml (first :: rest) []).1,
            (iteration.perm _).nodup_iff.mpr (insertLabels_nodup yaml List.nodup_nil),
            (order_ne_nil iteration first rest).mpr accepted, trackerConfig, valid.frameRate_pos,
            valid.trackBuffer_pos, valid.trackThresh_valid, valid.highThresh_valid,
            valid.matchThresh_valid⟩ rfl
        rw [strands_iff loaded head, read]
        simp [later, valid]

theorem init_cases (p : Processor F) (paramsYaml : String) :
    InitCase (Strands yaml paramsYaml) (init yaml iteration p paramsYaml) := by
  simp only [init]
  split
  · next what loaded =>
    refine .failed (by simp [kInvalidConfig]) ?_ rfl
    rintro ⟨params, -, -, -, loaded', -⟩
    simp [loaded] at loaded'
  · next params loaded =>
    split
    · next warnings detail refused =>
      refine .failed (by simp [kInvalidConfig]) ?_ rfl
      rintro ⟨params', entries, first, rest, loaded', head, -⟩
      obtain rfl : params = params' := Except.ok.inj (loaded.symm.trans loaded')
      have ok := (checkHead_ok yaml _ _ _).mpr head
      simp [refused] at ok
    · next warnings entries nodes ok =>
      have head : Head yaml params entries nodes := (checkHead_ok yaml _ _ _).mp (by rw [ok])
      obtain ⟨first, rest, rfl⟩ := List.exists_cons_of_ne_nil head.nodes_nonempty
      exact loadLabels_cases iteration warnings loaded head

end Init

section Process

variable {backend : Backend F}

/-- A turn takes no label's tracker away. -/
theorem processLabel_keeps (s : Pass F) (label other : String)
    (held : (s.processor.trackers.lookup other).isSome = true) :
    ((processLabel backend s label).processor.trackers.lookup other).isSome = true := by
  by_cases same : other = label
  · subst same
    obtain ⟨t, ht⟩ := Option.isSome_iff_exists.mp held
    rw [processLabel_present ht, Table.lookup_alter, if_pos rfl]
    rfl
  · rw [processLabel_lookup s same]
    exact held

theorem processAt_present (labels : List String) (s : Pass F)
    (held : ∀ label ∈ labels, (s.processor.trackers.lookup label).isSome = true) :
    processAt backend labels s = (turns backend labels s, false) := by
  induction labels generalizing s with
  | nil => rfl
  | cons label rest ih =>
    obtain ⟨t, ht⟩ := Option.isSome_iff_exists.mp (held label List.mem_cons_self)
    rw [processAt, ht]
    refine ih (processLabel backend s label) ?_
    intro other member
    exact processLabel_keeps s label other (held other (List.mem_cons_of_mem _ member))

theorem process_configured {p : Processor F} (configured : Configured p)
    (objects : List (Object F)) :
    process backend p objects = (p.process backend objects, false) := by
  refine processAt_present p.trackLabels _ ?_
  intro label member
  exact (configured.keys label).mpr member

theorem process_fresh (objects : List (Object F)) :
    process backend fresh objects = (⟨fresh, blank objects⟩, false) := rfl

/-- The first label has no tracker, and nothing has happened by then. -/
theorem process_stranded {p : Processor F} (stranded : Stranded p) (objects : List (Object F)) :
    process backend p objects = (⟨p, blank objects⟩, true) := by
  obtain ⟨label, rest, labels⟩ := List.exists_cons_of_ne_nil stranded.labels
  rw [process, labels, processAt, stranded.trackers]
  rfl

theorem Configured.process {p : Processor F} (configured : Configured p)
    (objects : List (Object F)) : Configured (p.process backend objects).processor := by
  have labels : (p.process backend objects).processor.trackLabels = p.trackLabels :=
    turns_trackLabels _ _
  refine ⟨configured.ready.process objects, ?_⟩
  intro label
  rw [labels]
  by_cases member : label ∈ p.trackLabels
  · obtain ⟨t, ht⟩ := configured.ready.tracker label member
    simp [member, (process_turn backend configured.ready member ht objects).1]
  · have other : (p.process backend objects).processor.trackers.lookup label =
        p.trackers.lookup label := (turns_other member _).1
    have none := configured.keys label
    rw [← other] at none
    exact none

theorem configured_init (config : AcceptedConfig F) : Configured (Processor.init config) := by
  refine ⟨⟨config.labels_nodup, fun label member => ⟨_, lookup_init config member⟩⟩, ?_⟩
  intro label
  by_cases member : label ∈ config.trackLabels
  · rw [lookup_init config member]
    exact ⟨fun _ => member, fun _ => rfl⟩
  · rw [lookup_init_none config member]
    exact ⟨fun held => absurd held (by simp), fun held => absurd held member⟩

end Process

section Runs

variable (yaml : YamlLibrary F) (iteration : IterationOrder) (backend : Backend F)

/-- What a processor is, by the last call that was not `Process`. -/
inductive Standing : Option (Call F) → Processor F → Prop
  | new : Standing none fresh
  | shutdown : Standing (some .shutdown) fresh
  | failed {paramsYaml : String}
      (code : (init yaml iteration fresh paramsYaml).code ≠ some 0)
      (atomic : ¬Strands yaml paramsYaml) : Standing (some (.init paramsYaml)) fresh
  | stranded {paramsYaml : String} {p : Processor F}
      (code : (init yaml iteration fresh paramsYaml).code ≠ some 0)
      (late : Strands yaml paramsYaml) (left : Stranded p) :
      Standing (some (.init paramsYaml)) p
  | configured {paramsYaml : String} {p : Processor F}
      (code : (init yaml iteration fresh paramsYaml).code = some 0)
      (atomic : ¬Strands yaml paramsYaml) (configured : Configured p) :
      Standing (some (.init paramsYaml)) p

variable {yaml iteration backend}

/-- `Process` keeps the standing, whatever it is. -/
theorem Standing.process {last : Option (Call F)} {p : Processor F}
    (standing : Standing yaml iteration last p) (objects : List (Object F)) :
    Standing yaml iteration last (process backend p objects).1.processor := by
  cases standing with
  | new => exact .new
  | shutdown => exact .shutdown
  | failed code atomic => exact .failed code atomic
  | stranded code late left =>
    rw [process_stranded left]
    exact .stranded code late left
  | configured code atomic configured =>
    rw [process_configured configured]
    exact .configured code atomic (configured.process objects)

/-- `Init` starts over, whatever the processor was. -/
theorem standing_init (p : Processor F) (paramsYaml : String) :
    Standing yaml iteration (some (.init paramsYaml))
      (init yaml iteration p paramsYaml).processor := by
  cases init_cases iteration p paramsYaml with
  | failed code atomic cleared =>
    rw [cleared]
    exact .failed code atomic
  | stranded code late left => exact .stranded code late left
  | configured code atomic config start =>
    rw [start]
    exact .configured code atomic (configured_init config)

theorem run_standing (calls : List (Call F)) :
    Standing yaml iteration (lastReset calls) (run yaml iteration backend calls) := by
  induction calls using List.reverseRecOn with
  | nil => exact .new
  | append_singleton calls call ih =>
    rw [lastReset, run, List.foldl_append, List.foldl_append]
    cases call with
    | init paramsYaml => exact standing_init _ paramsYaml
    | process objects => exact ih.process objects
    | shutdown => exact .shutdown

omit [Scalar F] in
theorem lastReset_mem {calls : List (Call F)} {call : Call F} (last : lastReset calls = some call) :
    call ∈ calls := by
  induction calls using List.reverseRecOn with
  | nil => simp [lastReset] at last
  | append_singleton calls other ih =>
    rw [lastReset, List.foldl_append] at last
    cases other with
    | process objects => exact List.mem_append_left _ (ih last)
    | init paramsYaml | shutdown =>
      obtain rfl := Option.some.inj last
      simp

theorem Standing.throws_iff {last : Option (Call F)} {p : Processor F}
    (standing : Standing yaml iteration last p) (objects : List (Object F)) :
    (InitAtomicity.process backend p objects).2 = true ↔
      ∃ paramsYaml, last = some (.init paramsYaml) ∧ Strands yaml paramsYaml := by
  cases standing with
  | new => simp [process_fresh]
  | shutdown => simp [process_fresh]
  | failed code atomic => simp [process_fresh, atomic]
  | stranded code late left => simp [process_stranded left, late]
  | configured code atomic configured => simp [process_configured configured, atomic]

theorem Standing.blank {last : Option (Call F)} {p : Processor F}
    (standing : Standing yaml iteration last p)
    (failed : ∀ paramsYaml, last = some (.init paramsYaml) →
      (init yaml iteration fresh paramsYaml).code ≠ some 0)
    (objects : List (Object F)) :
    (InitAtomicity.process backend p objects).1.objects = LabelTurns.blank objects := by
  cases standing with
  | new | shutdown | failed => rfl
  | stranded code late left => rw [process_stranded left]
  | configured code => exact absurd code (failed _ rfl)

theorem Standing.keys {last : Option (Call F)} {p : Processor F}
    (standing : Standing yaml iteration last p)
    (atomic : ∀ paramsYaml, last = some (.init paramsYaml) → ¬Strands yaml paramsYaml)
    (label : String) : (p.trackers.lookup label).isSome = true ↔ label ∈ p.trackLabels := by
  cases standing with
  | new | shutdown | failed => simp [fresh, Table.empty, Table.lookup]
  | stranded code late left => exact absurd late (atomic _ rfl)
  | configured code _ configured => exact configured.keys label

/-- `Init` is atomic exactly on the parameters that do not fail behind the first
label. In a run `Process` throws exactly when the last reset was an `Init` that
did, and it gives no id unless that `Init` succeeded. -/
theorem init_atomic_iff (yaml : YamlLibrary F) (iteration : IterationOrder) (backend : Backend F) :
    (∀ p paramsYaml, Atomic (init yaml iteration p paramsYaml) ↔ ¬Strands yaml paramsYaml) ∧
      ∀ calls objects,
        let p := run yaml iteration backend calls
        ((process backend p objects).2 = true ↔
          ∃ paramsYaml, lastReset calls = some (.init paramsYaml) ∧ Strands yaml paramsYaml) ∧
        ((∀ paramsYaml, Call.init paramsYaml ∈ calls → ¬Strands yaml paramsYaml) →
          (process backend p objects).2 = false ∧
            ∀ label, (p.trackers.lookup label).isSome = true ↔ label ∈ p.trackLabels) ∧
        ((∀ paramsYaml, lastReset calls = some (.init paramsYaml) →
            (init yaml iteration fresh paramsYaml).code ≠ some 0) →
          ∀ o ∈ (process backend p objects).1.objects, o.trackId = -1) := by
  constructor
  · intro p paramsYaml
    cases init_cases iteration p paramsYaml with
    | failed code atomic cleared =>
      refine ⟨fun _ => atomic, fun _ => ⟨fun _ => ?_, fun ok => absurd ok code⟩⟩
      rw [cleared]
      exact ⟨rfl, rfl, rfl⟩
    | stranded code late left =>
      refine ⟨fun atomic => absurd (atomic.1 code).1 left.labels, fun atomic => absurd late atomic⟩
    | configured code atomic config start =>
      refine ⟨fun _ => atomic, fun _ => ⟨fun failed => absurd code failed, fun _ => ?_⟩⟩
      rw [start]
      exact (configured_init config).keys
  · intro calls objects
    have standing : Standing yaml iteration (lastReset calls) (run yaml iteration backend calls) :=
      run_standing calls
    refine ⟨standing.throws_iff objects, ?_, ?_⟩
    · intro atomic
      have last : ∀ paramsYaml, lastReset calls = some (.init paramsYaml) →
          ¬Strands yaml paramsYaml := fun paramsYaml last => atomic _ (lastReset_mem last)
      refine ⟨?_, standing.keys last⟩
      rw [← Bool.not_eq_true, standing.throws_iff objects]
      rintro ⟨paramsYaml, reset, late⟩
      exact last paramsYaml reset late
    · intro failed o member
      rw [standing.blank failed] at member
      exact trackId_blank member

end Runs

/-- The parameters of a test of the tracker, with a frame rate of 0. -/
def zeroRate : Yaml :=
  .map [(.scalar "algorithm", .scalar "bytetrack"),
    (.scalar "track_labels", .sequence [.scalar "face"]), (.scalar "frame_rate", .scalar "0")]

def zeroRateText : String := "algorithm: bytetrack\ntrack_labels: [face]\nframe_rate: 0\n"

/-- A library that knows this document. -/
def zeroRateYaml : YamlLibrary ℚ where
  load text := if text = zeroRateText then .ok zeroRate else .ok .null
  asString
    | .scalar text => .ok text
    | _ => .error "bad conversion"
  asInt
    | .scalar "0" => .ok 0
    | _ => .error "bad conversion"
  asFloat _ := .error "bad conversion"

def insertionOrder : IterationOrder := ⟨id, fun _ => .refl _⟩

/-- No solver is ever called. -/
def idleBackend : Backend ℚ := ⟨fun _ _ => none, fun _ rhs => rhs⟩

/-- `Init` returns -2 and keeps the label; the next `Process` throws. -/
theorem zeroRate_strands :
    (init zeroRateYaml insertionOrder fresh zeroRateText).code = some kInvalidConfig ∧
      ¬Atomic (init zeroRateYaml insertionOrder fresh zeroRateText) ∧
      (process idleBackend
        (run zeroRateYaml insertionOrder idleBackend [.init zeroRateText])
        [sampleObject "face" 10]).2 = true := by
  have left : (init zeroRateYaml insertionOrder fresh zeroRateText).processor.trackLabels =
      ["face"] := by decide
  have code : (init zeroRateYaml insertionOrder fresh zeroRateText).code = some kInvalidConfig := by
    decide
  refine ⟨code, fun atomic => ?_, by decide⟩
  have cleared := (atomic.1 (by rw [code]; decide)).1
  rw [left] at cleared
  exact absurd cleared (by simp)

end InitAtomicity
