import AxVision.GreedyAssignments
import AxVision.TrackerUpdates
import Mathlib.Data.List.TakeWhile

/-!
# One frame, label by label

`Process` gives each configured label one turn. A turn reads and writes the
objects of its label and the tracker of its label; all it takes from the turns
before it is the counter.
-/

namespace LabelTurns

open DetectionTypes STracks ByteTracker TrackerProcessor KeyedTables GreedyAssignments TrackerSteps
open ProperAssignments TrackAssociation

universe u

variable {F : Type u}

/-- The objects once their ids are reset. -/
def blank (objects : List (Object F)) : List (Object F) := objects.map (setTrackId (-1))

theorem trackId_blank {objects : List (Object F)} {o : Object F} (h : o ∈ blank objects) :
    o.trackId = -1 := by
  obtain ⟨o', -, rfl⟩ := List.mem_map.mp h
  rfl

variable [Scalar F] {backend : Backend F}

theorem processLabel_present {s : Pass F} {label : String} {t : BYTETracker F}
    (ht : s.processor.trackers.lookup label = some t) :
    processLabel backend s label =
      let detections := groupedDetections s.objects label
      let updated := t.update backend detections s.processor.nextTrackId
      { processor := { s.processor with
          trackers := s.processor.trackers.alter label fun _ => some updated.tracker
          nextTrackId := updated.nextTrackId }
        objects := writeIds (groupedIndices s.objects label)
          (assignTracks detections updated.output []) s.objects } := by
  rw [processLabel, ht]

theorem processLabel_absent {s : Pass F} {label : String}
    (ht : s.processor.trackers.lookup label = none) : processLabel backend s label = s := by
  rw [processLabel, ht]

theorem processLabel_lookup (s : Pass F) {label other : String} (ne : other ≠ label) :
    (processLabel backend s label).processor.trackers.lookup other =
      s.processor.trackers.lookup other := by
  cases ht : s.processor.trackers.lookup label with
  | none => rw [processLabel_absent ht]
  | some t => rw [processLabel_present ht, Table.lookup_alter, if_neg ne]

theorem processLabel_trackLabels (s : Pass F) (label : String) :
    (processLabel backend s label).processor.trackLabels = s.processor.trackLabels := by
  cases ht : s.processor.trackers.lookup label with
  | none => rw [processLabel_absent ht]
  | some t => rw [processLabel_present ht]

theorem processLabel_grouped (s : Pass F) {label other : String} (ne : other ≠ label) :
    groupedDetections (processLabel backend s label).objects other =
      groupedDetections s.objects other := by
  cases ht : s.processor.trackers.lookup label with
  | none => rw [processLabel_absent ht]
  | some t =>
    rw [processLabel_present ht]
    exact grouped_writeIds_other (assignTracks_nodup _ _) ne

theorem processLabel_nextTrackId {s : Pass F} {label : String} {t : BYTETracker F}
    (ht : s.processor.trackers.lookup label = some t) :
    (processLabel backend s label).processor.nextTrackId =
      (t.update backend (groupedDetections s.objects label)
        s.processor.nextTrackId).nextTrackId := by
  rw [processLabel_present ht]

theorem processLabel_tracker {s : Pass F} {label : String} {t : BYTETracker F}
    (ht : s.processor.trackers.lookup label = some t) :
    (processLabel backend s label).processor.trackers.lookup label =
      some (t.update backend (groupedDetections s.objects label)
        s.processor.nextTrackId).tracker := by
  rw [processLabel_present ht, Table.lookup_alter, if_pos rfl]

theorem processLabel_counter (s : Pass F) (label : String) :
    s.processor.nextTrackId ≤ (processLabel backend s label).processor.nextTrackId := by
  cases ht : s.processor.trackers.lookup label with
  | none => rw [processLabel_absent ht]
  | some t =>
    rw [processLabel_nextTrackId ht]
    exact TrackerUpdates.update_next_le _ _ _ _

/-- A turn changes no field of an object but the id, and neither number nor order. -/
theorem processLabel_map {β : Type*} {g : Object F → β}
    (blind : ∀ id o, g (setTrackId id o) = g o) (s : Pass F) (label : String) :
    (processLabel backend s label).objects.map g = s.objects.map g := by
  cases ht : s.processor.trackers.lookup label with
  | none => rw [processLabel_absent ht]
  | some t =>
    rw [processLabel_present ht]
    exact map_writeIds blind _ _ _

section Turns

/-- The turns of some labels, one after the other. -/
def turns (backend : Backend F) (labels : List String) (s : Pass F) : Pass F :=
  labels.foldl (processLabel backend) s

theorem turns_trackLabels (labels : List String) (s : Pass F) :
    (turns backend labels s).processor.trackLabels = s.processor.trackLabels :=
  PointerStores.foldl_same (fun s : Pass F => s.processor.trackLabels) processLabel_trackLabels
    labels s

theorem turns_map {β : Type*} {g : Object F → β} (blind : ∀ id o, g (setTrackId id o) = g o)
    (labels : List String) (s : Pass F) :
    (turns backend labels s).objects.map g = s.objects.map g :=
  PointerStores.foldl_same (fun s : Pass F => s.objects.map g) (processLabel_map blind) labels s

/-- The turns of other labels leave a label's tracker and objects alone. -/
theorem turns_other {labels : List String} {other : String} (h : other ∉ labels) (s : Pass F) :
    (turns backend labels s).processor.trackers.lookup other =
        s.processor.trackers.lookup other ∧
      groupedDetections (turns backend labels s).objects other =
        groupedDetections s.objects other := by
  induction labels generalizing s with
  | nil => exact ⟨rfl, rfl⟩
  | cons label rest ih =>
    have ne : other ≠ label := fun heq => h (heq ▸ List.mem_cons_self)
    obtain ⟨tracker, objects⟩ := ih (fun hmem => h (List.mem_cons_of_mem _ hmem))
      (processLabel backend s label)
    exact ⟨tracker.trans (processLabel_lookup s ne), objects.trans (processLabel_grouped s ne)⟩

theorem turns_counter (backend : Backend F) (labels : List String) (s : Pass F) :
    s.processor.nextTrackId ≤ (turns backend labels s).processor.nextTrackId := by
  induction labels generalizing s with
  | nil => exact le_rfl
  | cons label rest ih => exact (processLabel_counter s label).trans (ih _)

/-- A property that each turn keeps is kept by all turns. -/
theorem turns_induction {P : Pass F → Prop}
    (step : ∀ s label, P s → P (processLabel backend s label)) (labels : List String) {s : Pass F}
    (h : P s) : P (turns backend labels s) := by
  induction labels generalizing s with
  | nil => exact h
  | cons label rest ih => exact ih (step s label h)

end Turns

section Frame

/-- Labels are configured once and each has its tracker. -/
structure Ready (p : Processor F) : Prop where
  labels_nodup : p.trackLabels.Nodup
  tracker : ∀ label ∈ p.trackLabels, ∃ t, p.trackers.lookup label = some t

/-- What a frame is when the turn of a label comes. -/
def beforeTurn (backend : Backend F) (p : Processor F) (objects : List (Object F))
    (label : String) : Pass F :=
  turns backend (p.trackLabels.takeWhile fun l => l ≠ label) ⟨p, blank objects⟩

/-- The counter when the turn of a label comes. -/
def counterAt (backend : Backend F) (p : Processor F) (objects : List (Object F))
    (label : String) : Int :=
  (beforeTurn backend p objects label).processor.nextTrackId

/-- What a label's tracker sees of a frame. -/
def detectionsOf (objects : List (Object F)) (label : String) : List (Object F) :=
  groupedDetections (blank objects) label

/-- The update a label's tracker makes in its turn. -/
def turnUpdate (backend : Backend F) (p : Processor F) (objects : List (Object F))
    (label : String) (t : BYTETracker F) : Updated F :=
  t.update backend (detectionsOf objects label) (counterAt backend p objects label)

/-- The ids a label's objects are given: by position among the objects of the label. -/
def turnAssignment (backend : Backend F) (p : Processor F) (objects : List (Object F))
    (label : String) (t : BYTETracker F) : List (Nat × Int) :=
  assignTracks (detectionsOf objects label) (turnUpdate backend p objects label t).output []

variable {p : Processor F} {label : String} {t : BYTETracker F}

omit [Scalar F] in
theorem detectionsOf_eq (objects : List (Object F)) (label : String) :
    detectionsOf objects label =
      (objects.filter fun o => o.labelName = label).map (setTrackId (-1)) := by
  rw [detectionsOf, groupedDetections_eq_filter, blank, List.filter_map]
  rfl

omit [Scalar F] in
theorem mem_detectionsOf {objects : List (Object F)} {o : Object F}
    (h : o ∈ detectionsOf objects label) : o ∈ blank objects ∧ o.labelName = label := by
  rw [detectionsOf, groupedDetections_eq_filter] at h
  simpa using h

/-- A frame split at the turn of one label. -/
theorem process_split (backend : Backend F) (ready : Ready p) (hlabel : label ∈ p.trackLabels)
    (objects : List (Object F)) :
    ∃ post, label ∉ post ∧
      label ∉ p.trackLabels.takeWhile (fun l => l ≠ label) ∧
      p.process backend objects =
        turns backend post (processLabel backend (beforeTurn backend p objects label) label) := by
  have pre : label ∉ p.trackLabels.takeWhile fun l => l ≠ label := by
    intro hmem
    simpa using List.mem_takeWhile_imp hmem
  have whole := List.takeWhile_append_dropWhile (p := fun l => decide (l ≠ label))
    (l := p.trackLabels)
  cases hdrop : p.trackLabels.dropWhile fun l => l ≠ label with
  | nil =>
    rw [hdrop, List.append_nil] at whole
    rw [whole] at pre
    exact absurd hlabel pre
  | cons first post =>
    have heq : first = label := by
      have := List.head?_dropWhile_not (fun l => decide (l ≠ label)) p.trackLabels
      rw [hdrop] at this
      simpa using this
    subst heq
    refine ⟨post, ?_, pre, ?_⟩
    · have nodup := ready.labels_nodup
      rw [← whole, hdrop, List.nodup_append] at nodup
      exact (List.nodup_cons.mp nodup.2.1).1
    · rw [Processor.process, beforeTurn]
      conv_lhs => rw [← whole, hdrop]
      rw [List.foldl_append, List.foldl_cons]
      rfl

theorem beforeTurn_spec (backend : Backend F) (p : Processor F) (objects : List (Object F))
    (label : String) :
    (beforeTurn backend p objects label).processor.trackers.lookup label =
        p.trackers.lookup label ∧
      groupedDetections (beforeTurn backend p objects label).objects label =
        detectionsOf objects label := by
  refine turns_other ?_ _
  intro hmem
  simpa using List.mem_takeWhile_imp hmem

/-- What a frame makes of the tracker and the objects of one label. -/
theorem process_turn (backend : Backend F) (ready : Ready p) (hlabel : label ∈ p.trackLabels)
    (ht : p.trackers.lookup label = some t) (objects : List (Object F)) :
    (p.process backend objects).processor.trackers.lookup label =
        some (turnUpdate backend p objects label t).tracker ∧
      ∀ k, (groupedDetections (p.process backend objects).objects label)[k]? =
        (detectionsOf objects label)[k]?.map fun o =>
          setTrackId ((lookupIn k (turnAssignment backend p objects label t)).getD (-1)) o := by
  obtain ⟨post, fresh, -, split⟩ := process_split backend ready hlabel objects
  obtain ⟨held, seen⟩ := beforeTurn_spec backend p objects label
  obtain ⟨tracker, rest⟩ := turns_other fresh
    (processLabel backend (beforeTurn backend p objects label) label)
  rw [split, tracker, rest, processLabel_present (held.trans ht)]
  refine ⟨by rw [Table.lookup_alter, if_pos rfl, seen]; rfl, ?_⟩
  intro k
  rw [grouped_writeIds (assignTracks_nodup _ _), seen]
  cases ho : (detectionsOf objects label)[k]? with
  | none => rfl
  | some o =>
    rw [Option.map_some, Option.map_some,
      trackId_blank (mem_detectionsOf (List.mem_of_getElem? ho)).1]
    rfl

/-- The counter before a label's turn, after it, and at the end of the frame. -/
theorem process_counter (backend : Backend F) (ready : Ready p) (hlabel : label ∈ p.trackLabels)
    (ht : p.trackers.lookup label = some t) (objects : List (Object F)) :
    p.nextTrackId ≤ counterAt backend p objects label ∧
      (turnUpdate backend p objects label t).nextTrackId ≤
        (p.process backend objects).processor.nextTrackId := by
  refine ⟨turns_counter _ _ _, ?_⟩
  obtain ⟨post, -, -, split⟩ := process_split backend ready hlabel objects
  obtain ⟨held, seen⟩ := beforeTurn_spec backend p objects label
  rw [split, turnUpdate, counterAt, ← seen, ← processLabel_nextTrackId (held.trans ht)]
  exact turns_counter backend post _

/-- Objects of labels that are not configured keep no id. -/
theorem process_unconfigured (hlabel : label ∉ p.trackLabels) (objects : List (Object F)) :
    groupedDetections (p.process backend objects).objects label = detectionsOf objects label :=
  (turns_other hlabel _).2

theorem process_blank (objects : List (Object F)) :
    (p.process backend objects).objects.map (setTrackId (-1)) =
      objects.map (setTrackId (-1)) := by
  have whole : (turns backend p.trackLabels ⟨p, blank objects⟩).objects.map (setTrackId (-1)) =
      (blank objects).map (setTrackId (-1)) := turns_map (fun _ _ => rfl) _ _
  refine whole.trans ?_
  simp [blank]

theorem mem_process {objects : List (Object F)} {o : Object F}
    (ho : o ∈ (p.process backend objects).objects) :
    ∃ k : Nat, (groupedDetections (p.process backend objects).objects o.labelName)[k]? = some o := by
  have grouped : o ∈ groupedDetections (p.process backend objects).objects o.labelName := by
    rw [groupedDetections_eq_filter]
    simpa using ho
  exact List.mem_iff_getElem?.mp grouped

theorem Ready.process (ready : Ready p) (objects : List (Object F)) :
    Ready (p.process backend objects).processor := by
  have labels : (p.process backend objects).processor.trackLabels = p.trackLabels :=
    turns_trackLabels _ _
  refine ⟨labels ▸ ready.labels_nodup, ?_⟩
  intro label hlabel
  rw [labels] at hlabel
  obtain ⟨t, ht⟩ := ready.tracker label hlabel
  exact ⟨_, (process_turn backend ready hlabel ht objects).1⟩

end Frame

section Run

variable (backend) (config : AcceptedConfig F) (frames : Nat → List (Object F))

theorem lookup_init {label : String} (h : label ∈ config.trackLabels) :
    (Processor.init config).trackers.lookup label = some (.ofConfig config.tracker) := by
  rw [Processor.init, Table.lookup_foldl_alter (fun l : String => l)
    (fun _ _ => some (BYTETracker.ofConfig config.tracker))]
  have some_mem : label ∈ config.trackLabels.filter fun l => l = label := by simpa using h
  have all : ∀ (l : List String), l ≠ [] → ∀ o : Option (BYTETracker F),
      l.foldl (fun _ _ => some (BYTETracker.ofConfig config.tracker)) o =
        some (.ofConfig config.tracker) := by
    intro l hl
    induction l using List.reverseRecOn with
    | nil => exact absurd rfl hl
    | append_singleton rest last _ => intro o; simp
  exact all _ (List.ne_nil_of_mem some_mem) _

theorem lookup_init_none {label : String} (h : label ∉ config.trackLabels) :
    (Processor.init config).trackers.lookup label = none := by
  rw [Processor.init, Table.lookup_foldl_alter (fun l : String => l)
    (fun _ _ => some (BYTETracker.ofConfig config.tracker))]
  have empty : config.trackLabels.filter (fun l => l = label) = [] := by
    apply List.filter_eq_nil_iff.mpr
    intro l hl heq
    exact h (of_decide_eq_true heq ▸ hl)
  rw [empty]
  rfl

theorem after_ready (n : Nat) :
    Ready (Processor.after backend config frames n) ∧
      (Processor.after backend config frames n).trackLabels = config.trackLabels := by
  induction n with
  | zero =>
    exact ⟨⟨config.labels_nodup, fun label h => ⟨_, lookup_init config h⟩⟩, rfl⟩
  | succ n ih => exact ⟨ih.1.process (frames n), (turns_trackLabels _ _).trans ih.2⟩

end Run

end LabelTurns
