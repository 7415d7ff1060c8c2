import AxVision.ExactSolvers
import AxVision.LabelTurns

/-!
# Identities over whole runs

All trackers draw from one counter and keep what they drew. Over any sequence of
frames an id therefore belongs to one label, is given to one object of a frame,
and is not given out again once its tracker has dropped it.
-/

namespace TrackIdentity

open DetectionTypes STracks ByteTracker TrackerProcessor KeyedTables GreedyAssignments TrackerSteps
open ProperAssignments TrackAssociation LabelTurns TrackerUpdates

universe u

variable {F : Type u}

/-- The ids a label's tracker holds, tracked or lost. -/
def held (p : Processor F) (label : String) : List Int :=
  match p.trackers.lookup label with
  | some t => ids (start t)
  | none => []

theorem held_some {p : Processor F} {label : String} {t : BYTETracker F}
    (ht : p.trackers.lookup label = some t) : held p label = ids (start t) := by
  rw [held, ht]

/-- No id is held twice, by one label or by two, and all are below the counter. -/
structure Secure (p : Processor F) : Prop where
  counter : 1 ≤ p.nextTrackId
  sound : ∀ label t, p.trackers.lookup label = some t → Sound t p.nextTrackId
  apart : ∀ label other, label ≠ other → ∀ id ∈ held p label, id ∉ held p other

/-- What a label holds later it held before or drew from the counter since. -/
structure Advances (p p' : Processor F) : Prop where
  counter : p.nextTrackId ≤ p'.nextTrackId
  fresh : ∀ label, ∀ id ∈ held p' label, id ∈ held p label ∨ p.nextTrackId ≤ id

theorem Advances.refl (p : Processor F) : Advances p p :=
  ⟨le_rfl, fun _ _ h => Or.inl h⟩

theorem Advances.trans {p p' p'' : Processor F} (h : Advances p p') (h' : Advances p' p'') :
    Advances p p'' := by
  refine ⟨h.counter.trans h'.counter, ?_⟩
  intro label id hid
  rcases h'.fresh label id hid with hheld | hnew
  · exact h.fresh label id hheld
  · exact Or.inr (h.counter.trans hnew)

/-- An id that was given out and is not held is not held later. -/
theorem Advances.gone {p p' : Processor F} (h : Advances p p') {label : String} {id : Int}
    (drawn : id < p.nextTrackId) (absent : id ∉ held p label) : id ∉ held p' label := by
  intro hid
  rcases h.fresh label id hid with hheld | hnew
  · exact absent hheld
  · omega

theorem Secure.bound {p : Processor F} (h : Secure p) {label : String} {id : Int}
    (hid : id ∈ held p label) : 1 ≤ id ∧ id < p.nextTrackId := by
  cases ht : p.trackers.lookup label with
  | none => simp [held, ht] at hid
  | some t =>
    rw [held_some ht] at hid
    obtain ⟨s, hs, rfl⟩ := List.mem_map.mp hid
    exact (h.sound label t ht).allotted s hs

section Step

variable [Scalar F] {backend : Backend F}

theorem processLabel_advances (valid : Valid backend) {s : Pass F} (h : Secure s.processor)
    (label : String) : Advances s.processor (processLabel backend s label).processor := by
  cases ht : s.processor.trackers.lookup label with
  | none =>
    rw [processLabel_absent ht]
    exact Advances.refl _
  | some t =>
    have sound := h.sound label t ht
    constructor
    · exact processLabel_counter s label
    · intro other id hid
      by_cases ho : other = label
      · subst ho
        rw [held_some (processLabel_tracker ht)] at hid
        rw [held_some ht]
        exact update_ids sound _ valid hid
      · rw [held, processLabel_lookup s ho] at hid
        exact Or.inl hid

theorem processLabel_secure (valid : Valid backend) {s : Pass F} (h : Secure s.processor)
    (label : String) : Secure (processLabel backend s label).processor := by
  have advances := processLabel_advances valid h label
  cases ht : s.processor.trackers.lookup label with
  | none => rwa [processLabel_absent ht]
  | some t =>
    have unchanged : ∀ other, other ≠ label →
        held (processLabel backend s label).processor other = held s.processor other := by
      intro other ne
      rw [held, processLabel_lookup s ne, held]
    -- a label other than the one whose turn it is holds only ids drawn before the turn
    have apart : ∀ other, other ≠ label → ∀ id ∈ held s.processor other,
        id ∉ held (processLabel backend s label).processor label :=
      fun other ne id hid =>
        advances.gone (h.bound hid).2 (h.apart other label ne id hid)
    refine ⟨h.counter.trans advances.counter, ?_, ?_⟩
    · intro other t' ht'
      by_cases ho : other = label
      · subst ho
        have same := Option.some.inj ((processLabel_tracker ht).symm.trans ht')
        rw [← same, processLabel_nextTrackId ht]
        exact (update_sound (h.sound other t ht) h.counter _ valid).1
      · rw [processLabel_lookup s ho] at ht'
        exact (h.sound other t' ht').mono advances.counter
    · intro first second ne id hfirst hsecond
      by_cases hf : first = label
      · subst hf
        rw [unchanged second (Ne.symm ne)] at hsecond
        exact apart second (Ne.symm ne) id hsecond hfirst
      · rw [unchanged first hf] at hfirst
        by_cases hs : second = label
        · exact apart first hf id hfirst (hs ▸ hsecond)
        · rw [unchanged second hs] at hsecond
          exact h.apart first second ne id hfirst hsecond

theorem turns_secure (valid : Valid backend) (labels : List String) {s : Pass F}
    (h : Secure s.processor) :
    Secure (turns backend labels s).processor ∧
      Advances s.processor (turns backend labels s).processor := by
  refine turns_induction (P := fun s' => Secure s'.processor ∧ Advances s.processor s'.processor)
    ?_ labels ⟨h, Advances.refl _⟩
  rintro s' label ⟨secure, advances⟩
  exact ⟨processLabel_secure valid secure label,
    advances.trans (processLabel_advances valid secure label)⟩

theorem process_secure (valid : Valid backend) {p : Processor F} (h : Secure p)
    (objects : List (Object F)) :
    Secure (p.process backend objects).processor ∧
      Advances p (p.process backend objects).processor :=
  turns_secure valid p.trackLabels h

end Step

section Emission

variable [Scalar F] {backend : Backend F} {p : Processor F} {label : String} {t : BYTETracker F}

theorem turnAssignment_ids (objects : List (Object F)) :
    ((turnAssignment backend p objects label t).map Prod.snd).Sublist
      (ids (turnUpdate backend p objects label t).tracker.trackedStracks) :=
  (assignTracks_ids _ _).trans (List.filter_sublist.map _)

/-- An id written by a frame is tracked by the tracker of the object's label. -/
theorem emitted_tracked (ready : Ready p) {objects : List (Object F)} {o : Object F}
    (ho : o ∈ (p.process backend objects).objects) (some_id : o.trackId ≠ -1) :
    o.labelName ∈ p.trackLabels ∧ ∃ t, (p.process backend objects).processor.trackers.lookup
      o.labelName = some t ∧ o.trackId ∈ ids t.trackedStracks := by
  obtain ⟨k, hk⟩ := mem_process ho
  by_cases hlabel : o.labelName ∈ p.trackLabels
  · obtain ⟨t, ht⟩ := ready.tracker _ hlabel
    obtain ⟨after, grouped⟩ := process_turn backend ready hlabel ht objects
    refine ⟨hlabel, _, after, ?_⟩
    rw [grouped] at hk
    obtain ⟨o', -, written⟩ := Option.map_eq_some_iff.mp hk
    cases given : lookupIn k (turnAssignment backend p objects o.labelName t) with
    | none =>
      rw [given] at written
      exact absurd (written ▸ rfl) some_id
    | some id =>
      rw [given] at written
      have same : o.trackId = id := written ▸ rfl
      have mem := (mem_iff_lookupIn (assignTracks_nodup _ _) k id).mpr given
      rw [same]
      exact (turnAssignment_ids objects).subset (List.mem_map_of_mem mem)
  · rw [process_unconfigured hlabel] at hk
    have untouched := (mem_detectionsOf (List.mem_of_getElem? hk)).1
    exact absurd (trackId_blank untouched) some_id

theorem emitted_held (ready : Ready p) {objects : List (Object F)} {o : Object F}
    (ho : o ∈ (p.process backend objects).objects) (some_id : o.trackId ≠ -1) :
    o.trackId ∈ held (p.process backend objects).processor o.labelName := by
  obtain ⟨-, t, ht, hid⟩ := emitted_tracked ready ho some_id
  rw [held_some ht]
  exact ((List.sublist_append_left _ _).map _).subset hid

/-- Two objects of one label never share an id. -/
theorem grouped_pairwise (ready : Ready p) (secure : Secure p) (valid : Valid backend)
    (objects : List (Object F)) (label : String) :
    (groupedDetections (p.process backend objects).objects label).Pairwise
      fun a b => a.trackId = b.trackId → a.trackId = -1 := by
  by_cases hlabel : label ∈ p.trackLabels
  · obtain ⟨t, ht⟩ := ready.tracker label hlabel
    obtain ⟨after, grouped⟩ := process_turn backend ready hlabel ht objects
    have sound := (process_secure valid secure objects).1.sound label _ after
    have tracked : (ids (turnUpdate backend p objects label t).tracker.trackedStracks).Nodup :=
      sound.distinct.sublist ((List.sublist_append_left _ _).map _)
    have distinct := tracked.sublist (turnAssignment_ids objects)
    rw [List.pairwise_iff_getElem]
    intro i j hi hj lt same
    have given : ∀ k (hk : k < (groupedDetections (p.process backend objects).objects
        label).length), (groupedDetections (p.process backend objects).objects label)[k].trackId =
          (lookupIn k (turnAssignment backend p objects label t)).getD (-1) := by
      intro k hk
      have hat := grouped k
      rw [List.getElem?_eq_getElem hk] at hat
      obtain ⟨o, -, written⟩ := Option.map_eq_some_iff.mp hat.symm
      exact written ▸ rfl
    rw [given i hi, given j hj] at same
    rw [given i hi]
    cases hfirst : lookupIn i (turnAssignment backend p objects label t) with
    | none => rfl
    | some id =>
      cases hsecond : lookupIn j (turnAssignment backend p objects label t) with
      | none => rwa [hfirst, hsecond] at same
      | some id' =>
        rw [hfirst, hsecond, Option.getD_some, Option.getD_some] at same
        subst same
        have first := (mem_iff_lookupIn (assignTracks_nodup _ _) i id).mpr hfirst
        have second := (mem_iff_lookupIn (assignTracks_nodup _ _) j id).mpr hsecond
        have := List.inj_on_of_nodup_map distinct first second rfl
        cases this
        omega
  · rw [process_unconfigured hlabel]
    refine List.pairwise_of_forall_mem_list ?_
    intro a ha b hb _
    exact trackId_blank (mem_detectionsOf ha).1

/-- A relation that holds within each group and across groups holds of the list. -/
theorem pairwise_of_groups {α β : Type*} [DecidableEq β] {f : α → β} {R : α → α → Prop}
    {l : List α} (within : ∀ b, (l.filter fun a => f a = b).Pairwise R)
    (across : ∀ a ∈ l, ∀ b ∈ l, f a ≠ f b → R a b) : l.Pairwise R := by
  induction l with
  | nil => exact List.Pairwise.nil
  | cons a rest ih =>
    refine List.pairwise_cons.mpr ⟨?_, ih ?_ ?_⟩
    · intro b hb
      by_cases same : f a = f b
      · have group := within (f a)
        rw [List.filter_cons_of_pos (by simp)] at group
        exact (List.pairwise_cons.mp group).1 b (List.mem_filter.mpr ⟨hb, by simp [same]⟩)
      · exact across a List.mem_cons_self b (List.mem_cons_of_mem a hb) same
    · exact fun b => (within b).sublist ((List.sublist_cons_self a rest).filter _)
    · exact fun b hb c hc => across b (List.mem_cons_of_mem a hb) c (List.mem_cons_of_mem a hc)

/-- No two objects of a frame share an id. -/
theorem process_distinct (ready : Ready p) (secure : Secure p) (valid : Valid backend)
    (objects : List (Object F)) :
    (((p.process backend objects).objects.map Object.trackId).filter fun id => id ≠ -1).Nodup := by
  have pairwise : (p.process backend objects).objects.Pairwise
      fun a b => a.trackId = b.trackId → a.trackId = -1 := by
    refine pairwise_of_groups (f := Object.labelName) ?_ ?_
    · intro label
      rw [← groupedDetections_eq_filter]
      exact grouped_pairwise ready secure valid objects label
    · intro a ha b hb ne same
      by_contra some_id
      have first := emitted_held ready ha some_id
      have second := emitted_held ready hb (same ▸ some_id)
      rw [← same] at second
      exact (process_secure valid secure objects).1.apart _ _ ne _ first second
  rw [List.Nodup, List.pairwise_filter, List.pairwise_map]
  refine pairwise.imp ?_
  intro a b hab ha _ same
  exact of_decide_eq_true ha (hab same)

end Emission

section Run

variable [Scalar F] (backend : Backend F) (config : AcceptedConfig F)
  (frames : Nat → List (Object F))

theorem init_secure : Secure (Processor.init config) := by
  have start_nil : ∀ label t, (Processor.init config).trackers.lookup label = some t →
      t = .ofConfig config.tracker := by
    intro label t ht
    by_cases hlabel : label ∈ config.trackLabels
    · rw [lookup_init config hlabel] at ht
      exact (Option.some.inj ht).symm
    · rw [lookup_init_none config hlabel] at ht
      cases ht
  have empty : ∀ label, held (Processor.init config) label = [] := by
    intro label
    cases ht : (Processor.init config).trackers.lookup label with
    | none => rw [held, ht]
    | some t =>
      rw [held_some ht, start_nil label t ht]
      rfl
  refine ⟨le_rfl, ?_, ?_⟩
  · intro label t ht
    rw [start_nil label t ht]
    exact
      { distinct := List.nodup_nil
        allotted := fun _ h => by cases h
        tracked := fun _ h => by cases h
        lost := fun _ h => by cases h }
  · intro label other _ id hid
    rw [empty] at hid
    cases hid

variable {backend}

theorem after_secure (valid : Valid backend) (n : Nat) :
    Secure (Processor.after backend config frames n) := by
  induction n with
  | zero => exact init_secure config
  | succ n ih => exact (process_secure valid ih (frames n)).1

theorem after_advances (valid : Valid backend) {n m : Nat} (h : n ≤ m) :
    Advances (Processor.after backend config frames n)
      (Processor.after backend config frames m) := by
  induction h with
  | refl => exact Advances.refl _
  | @step m _ ih =>
    exact ih.trans (process_secure valid (after_secure config frames valid m) (frames m)).2

/-- Frame `n` gives some object of the label the id. -/
def Emits (backend : Backend F) (config : AcceptedConfig F) (frames : Nat → List (Object F))
    (n : Nat) (label : String) (id : Int) : Prop :=
  id ≠ -1 ∧ ∃ o ∈ output backend config frames n, o.labelName = label ∧ o.trackId = id

variable {config frames}

theorem Emits.held {n : Nat} {label : String} {id : Int}
    (h : Emits backend config frames n label id) :
    id ∈ held (Processor.after backend config frames (n + 1)) label := by
  obtain ⟨some_id, o, ho, rfl, rfl⟩ := h
  exact emitted_held (after_ready backend config frames n).1 ho some_id

theorem Emits.bound (valid : Valid backend) {n : Nat} {label : String} {id : Int}
    (h : Emits backend config frames n label id) :
    1 ≤ id ∧ id < (Processor.after backend config frames (n + 1)).nextTrackId :=
  (after_secure config frames valid (n + 1)).bound h.held

/-- What a label emits later than another label cannot be an id of the other. -/
theorem Emits.label_le (valid : Valid backend) {n m : Nat} {label other : String} {id : Int}
    (h : Emits backend config frames n label id) (h' : Emits backend config frames m other id)
    (le : n ≤ m) : label = other := by
  by_contra ne
  have absent := (after_secure config frames valid (n + 1)).apart label other ne id h.held
  exact (after_advances config frames valid (Nat.succ_le_succ le)).gone (h.bound valid).2 absent
    h'.held

theorem Emits.label_unique (valid : Valid backend) {n m : Nat} {label other : String} {id : Int}
    (h : Emits backend config frames n label id) (h' : Emits backend config frames m other id) :
    label = other := by
  rcases le_total n m with le | le
  · exact h.label_le valid h' le
  · exact (h'.label_le valid h le).symm

/-- An id that has been given out and is held neither as tracked nor as lost stays away. -/
theorem never_again (valid : Valid backend) {n m : Nat} {label : String} {t : BYTETracker F}
    {id : Int} (ht : (Processor.after backend config frames n).trackers.lookup label = some t)
    (drawn : id < (Processor.after backend config frames n).nextTrackId)
    (tracked : id ∉ ids t.trackedStracks) (lost : id ∉ ids t.lostStracks) (le : n ≤ m) :
    ¬Emits backend config frames m label id := by
  intro emitted
  have absent : id ∉ held (Processor.after backend config frames n) label := by
    rw [held_some ht, start, ids, KeyedLists.keys, List.map_append, List.mem_append]
    exact fun h => h.elim tracked lost
  exact (after_advances config frames valid (le.trans (Nat.le_succ m))).gone drawn absent
    emitted.held

variable (config frames)

/-- Identity safety of `TrackerProcessor` over every run. -/
theorem identity_safety (valid : Valid backend) :
    (∀ n, (((output backend config frames n).map Object.trackId).filter fun id => id ≠ -1).Nodup ∧
      ∀ o ∈ output backend config frames n, o.trackId ≠ -1 → 1 ≤ o.trackId) ∧
    (∀ n, ∀ o ∈ output backend config frames n, o.labelName ∉ config.trackLabels →
      o.trackId = -1) ∧
    (∀ n m label other id, Emits backend config frames n label id →
      Emits backend config frames m other id → label = other) ∧
    (∀ k n m label t id, Emits backend config frames k label id → k < n →
      (Processor.after backend config frames n).trackers.lookup label = some t →
      id ∉ ids t.trackedStracks → id ∉ ids t.lostStracks → n ≤ m →
      ∀ o ∈ output backend config frames m, o.trackId ≠ id) ∧
    (∀ n m label t id, id < (Processor.after backend config frames n).nextTrackId →
      (Processor.after backend config frames n).trackers.lookup label = some t →
      id ∉ ids t.trackedStracks → id ∉ ids t.lostStracks → n ≤ m →
      ¬Emits backend config frames m label id) ∧
    (∀ n, (output backend config frames n).map (setTrackId (-1)) =
      (frames n).map (setTrackId (-1))) := by
  have ready := fun n => after_ready backend config frames n
  have secure := after_secure config frames valid
  refine ⟨?_, ?_, ?_, ?_, ?_, ?_⟩
  · intro n
    refine ⟨process_distinct (ready n).1 (secure n) valid (frames n), ?_⟩
    intro o ho some_id
    have emits : Emits backend config frames n o.labelName o.trackId :=
      ⟨some_id, o, ho, rfl, rfl⟩
    exact (emits.bound valid).1
  · intro n o ho unconfigured
    by_contra some_id
    have configured := (emitted_tracked (ready n).1 ho some_id).1
    rw [(ready n).2] at configured
    exact unconfigured configured
  · exact fun n m label other id h h' => h.label_unique valid h'
  · rintro k n m label t id emitted lt ht tracked lost le o ho rfl
    have later : Emits backend config frames m o.labelName o.trackId :=
      ⟨emitted.1, o, ho, rfl, rfl⟩
    have drawn := (emitted.bound valid).2.trans_le (after_advances config frames valid lt).counter
    exact never_again valid ht drawn tracked lost le (emitted.label_unique valid later ▸ later)
  · exact fun n m label t id drawn ht tracked lost le => never_again valid ht drawn tracked lost le
  · exact fun n => process_blank (frames n)

/-- A face and a person in every frame, in the same place: the sixth frame. -/
theorem face_and_person_apart :
    (((output ExactSolvers.exactBackend (shippedConfig ["face", "person"] (by decide) (by decide))
      (fun _ => [sampleObject "face" 10, sampleObject "person" 10]) 5).map
        Object.trackId).filter fun id => id ≠ -1).Nodup :=
  ((identity_safety _ _ ExactSolvers.exactBackend_optimal.valid).1 5).1

end Run

end TrackIdentity
