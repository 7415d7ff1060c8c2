import AxVision.TrackIdentity
import AxVision.TrackRenaming

/-!
# What a label sees of the others

Two runs that agree on the objects of one label give these objects the same ids
up to a strictly increasing change: other labels only move the counter.
-/

namespace LabelIndependence

open DetectionTypes STracks TrackAssociation ByteTracker TrackerProcessor KeyedTables
open GreedyAssignments LabelTurns TrackIdentity TrackRenaming

universe u

variable {F : Type u}

section Renaming

/-- A change of ids, continued from two counters on by the shift between them. -/
def extend (r : Int → Int) (next next' id : Int) : Int :=
  if id < next then r id else next' + (id - next)

theorem extend_old {r : Int → Int} {next next' id : Int} (h : id < next) :
    extend r next next' id = r id := if_pos h

theorem extend_new {r : Int → Int} {next next' id : Int} (h : next ≤ id) :
    extend r next next' id = next' + (id - next) := if_neg (not_lt.mpr h)

/-- The ids drawn next are above all old ones, on both sides. -/
theorem extend_mono {r : Int → Int} {s : Set Int} {next next' last : Int}
    (mono : StrictMonoOn r s) (below : ∀ id ∈ s, id < next ∧ r id < next') :
    StrictMonoOn (extend r next next') (s ∪ Set.Ico next last) := by
  rintro a (ha | ha) b (hb | hb) lt
  · rw [extend_old (below a ha).1, extend_old (below b hb).1]
    exact mono ha hb lt
  · rw [extend_old (below a ha).1, extend_new hb.1]
    have := (below a ha).2
    have := hb.1
    omega
  · have := (below b hb).1
    have := ha.1
    omega
  · rw [extend_new ha.1, extend_new hb.1]
    omega

theorem renameTracker_congr {r r' : Int → Int} {t : BYTETracker F} {s : Set Int}
    (named : Named s t) (agree : ∀ id ∈ s, r id = r' id) : renameTracker r t = renameTracker r' t := by
  have lists : ∀ l : List (STrack F), (∀ track ∈ l, track ∈ start t ++ t.removedStracks) →
      l.map (rename r) = l.map (rename r') := by
    intro l sub
    refine List.map_congr_left fun track ht => ?_
    rw [rename, rename, agree _ (named track (sub track ht))]
  rw [renameTracker, renameTracker, lists, lists, lists]
  · exact fun track ht => List.mem_append_right _ ht
  · exact fun track ht => List.mem_append_left _ (List.mem_append_right _ ht)
  · exact fun track ht => List.mem_append_left _ (List.mem_append_left _ ht)

end Renaming

variable [Scalar F] {backend : Backend F}

section Frame

/-- The greedy pass looks at boxes and hands on ids. -/
theorem assignTracks_rename (r : Int → Int) (detections : List (Object F))
    (tracks : List (STrack F)) (assigned : List Nat) :
    assignTracks detections (tracks.map (rename r)) assigned =
      (assignTracks detections tracks assigned).map fun a => (a.1, r a.2) := by
  induction tracks generalizing assigned with
  | nil => rfl
  | cons track rest ih =>
    rw [List.map_cons, assignTracks, assignTracks, rename_tlbr]
    cases bestDetection detections assigned track.tlbr with
    | none => exact ih assigned
    | some d => simp only [ih, List.map_cons, rename_trackId]

theorem lookupIn_map {α β : Type*} (f : α → β) (k : Nat) (l : List (Nat × α)) :
    lookupIn k (l.map fun a => (a.1, f a.2)) = (lookupIn k l).map f := by
  induction l with
  | nil => rfl
  | cons a rest ih =>
    obtain ⟨k', b⟩ := a
    by_cases h : k' = k <;> simp [h, ih]

/-- Two processors whose trackers of a label differ in names only. -/
structure Alike (label : String) (r : Int → Int) (s : Set Int) (p p' : Processor F) : Prop where
  tracker : ∃ t, p.trackers.lookup label = some t ∧ Named s t ∧
    p'.trackers.lookup label = some (renameTracker r t)
  mono : StrictMonoOn r s
  bounds : ∀ id ∈ s, 1 ≤ id ∧ id < p.nextTrackId ∧ 1 ≤ r id ∧ r id < p'.nextTrackId
  counters : 1 ≤ p.nextTrackId ∧ 1 ≤ p'.nextTrackId

/-- The objects of two frames, one by one: both without an id, or with corresponding ones. -/
structure Corresponding (r : Int → Int) (s : Set Int) (l l' : List (Object F)) : Prop where
  length : l.length = l'.length
  ids : ∀ (k : Nat) (o o' : Object F), l[k]? = some o → l'[k]? = some o' →
    (o.trackId = -1 ∧ o'.trackId = -1) ∨ (o.trackId ∈ s ∧ o'.trackId = r o.trackId)

omit [Scalar F] in
theorem Corresponding.extended {r r' : Int → Int} {s s' : Set Int} {l l' : List (Object F)}
    (h : Corresponding r s l l') (sub : s ⊆ s') (agree : ∀ id ∈ s, r id = r' id) :
    Corresponding r' s' l l' := by
  refine ⟨h.length, ?_⟩
  intro k o o' ho ho'
  rcases h.ids k o o' ho ho' with none | ⟨mem, same⟩
  · exact Or.inl none
  · exact Or.inr ⟨sub mem, same.trans (agree _ mem)⟩

/-- What two updates from renamed trackers make of the names. -/
structure Continued (r r' : Int → Int) (s s' : Set Int) (next next' : Int) (u u' : Updated F) :
    Prop where
  old : s ⊆ s'
  agree : ∀ id ∈ s, r id = r' id
  drawn : ∀ id ∈ s', id ∈ s ∨ next ≤ id ∧ id < u.nextTrackId ∧ next' ≤ r' id ∧ r' id < u'.nextTrackId
  mono : StrictMonoOn r' s'
  named : Named s' u.tracker
  tracker : u'.tracker = renameTracker r' u.tracker
  output : u'.output = u.output.map (rename r')

theorem alike_update (backend : Backend F) {r : Int → Int} {s : Set Int} {t : BYTETracker F} {next next' : Int}
    (named : Named s t) (mono : StrictMonoOn r s) (below : ∀ id ∈ s, id < next ∧ r id < next')
    (detections : List (Object F)) :
    ∃ r' s', Continued r r' s s' next next' (t.update backend detections next)
      ((renameTracker r t).update backend detections next') := by
  have agree : ∀ id ∈ s, r id = extend r next next' id :=
    fun id hid => (extend_old (below id hid).1).symm
  obtain ⟨last, hlast⟩ : ∃ last, (t.update backend detections next).nextTrackId = last :=
    ⟨_, rfl⟩
  have renames : Renames backend t detections next next' (extend r next next')
      (s ∪ Set.Ico next last) :=
    { mono := extend_mono mono below
      named := fun track ht => Set.mem_union_left _ (named track ht)
      drawn := by
        intro track hnew
        obtain ⟨low, high, -⟩ := TrackerUpdates.newTracks_spec hnew
        exact Set.mem_union_right _ ⟨low, hlast ▸ high⟩
      shift := by
        intro k
        rw [extend_new (by omega)]
        omega }
  obtain ⟨tracker, output, count⟩ := renames.update
  rw [renameTracker_congr named agree]
  refine ⟨extend r next next', s ∪ Set.Ico next last, ?_⟩
  refine ⟨Set.subset_union_left, agree, ?_, renames.mono, renames.update_named, tracker, output⟩
  rintro id (hold | ⟨low, high⟩)
  · exact Or.inl hold
  · rw [hlast] at count ⊢
    rw [extend_new low]
    refine Or.inr ⟨low, high, by omega, ?_⟩
    rw [eq_add_of_sub_eq count]
    omega

variable {label : String} {p p' : Processor F}

/-- One frame in both runs, seen from the label they agree on. -/
theorem alike_process (backend : Backend F) {r : Int → Int} {s : Set Int} (alike : Alike label r s p p')
    (ready : Ready p) (ready' : Ready p') (hlabel : label ∈ p.trackLabels)
    (hlabel' : label ∈ p'.trackLabels) {objects objects' : List (Object F)}
    (same : detectionsOf objects label = detectionsOf objects' label) :
    ∃ r' s', s ⊆ s' ∧ (∀ id ∈ s, r id = r' id) ∧
      Alike label r' s' (p.process backend objects).processor
        (p'.process backend objects').processor ∧
      Corresponding r' s' (groupedDetections (p.process backend objects).objects label)
        (groupedDetections (p'.process backend objects').objects label) := by
  obtain ⟨t, ht, named, ht'⟩ := alike.tracker
  obtain ⟨first, last⟩ := process_counter backend ready hlabel ht objects
  obtain ⟨first', last'⟩ := process_counter backend ready' hlabel' ht' objects'
  obtain ⟨after, grouped⟩ := process_turn backend ready hlabel ht objects
  obtain ⟨after', grouped'⟩ := process_turn backend ready' hlabel' ht' objects'
  have below : ∀ id ∈ s, id < counterAt backend p objects label ∧
      r id < counterAt backend p' objects' label := by
    intro id hid
    obtain ⟨-, lt, -, lt'⟩ := alike.bounds id hid
    exact ⟨lt.trans_le first, lt'.trans_le first'⟩
  obtain ⟨r', s', continued⟩ := alike_update backend named alike.mono below
    (detectionsOf objects label)
  have turn' : turnUpdate backend p' objects' label (renameTracker r t) =
      (renameTracker r t).update backend (detectionsOf objects label)
        (counterAt backend p' objects' label) := by rw [turnUpdate, ← same]
  rw [← turnUpdate, ← turn'] at continued
  have assignment : turnAssignment backend p' objects' label (renameTracker r t) =
      (turnAssignment backend p objects label t).map fun a => (a.1, r' a.2) := by
    rw [turnAssignment, turnAssignment, continued.output, ← same, assignTracks_rename]
  have grow := turns_counter backend p.trackLabels ⟨p, blank objects⟩
  have grow' := turns_counter backend p'.trackLabels ⟨p', blank objects'⟩
  refine ⟨r', s', continued.old, continued.agree,
    ⟨⟨_, after, continued.named, after'.trans (congrArg some continued.tracker)⟩,
      continued.mono, ?_, alike.counters.1.trans grow, alike.counters.2.trans grow'⟩, ?_, ?_⟩
  · intro id hid
    rcases continued.drawn id hid with hold | ⟨low, high, low', high'⟩
    · obtain ⟨one, lt, one', lt'⟩ := alike.bounds id hold
      rw [← continued.agree id hold]
      exact ⟨one, lt.trans_le grow, one', lt'.trans_le grow'⟩
    · exact ⟨(alike.counters.1.trans first).trans low, high.trans_le last,
        (alike.counters.2.trans first').trans low', high'.trans_le last'⟩
  · have lengths : ∀ k : Nat, (groupedDetections (p.process backend objects).objects label)[k]? =
        none ↔ (groupedDetections (p'.process backend objects').objects label)[k]? = none := by
      intro k
      rw [grouped, grouped', ← same]
      simp
    have one := (lengths _).mpr (List.getElem?_eq_none le_rfl)
    have two := (lengths _).mp (List.getElem?_eq_none le_rfl)
    rw [List.getElem?_eq_none_iff] at one two
    exact le_antisymm one two
  · intro k o o' ho ho'
    rw [grouped] at ho
    rw [grouped', ← same, assignment, lookupIn_map] at ho'
    obtain ⟨d, hd, rfl⟩ := Option.map_eq_some_iff.mp ho
    rw [hd] at ho'
    cases ho'
    cases given : lookupIn k (turnAssignment backend p objects label t) with
    | none => exact Or.inl ⟨rfl, rfl⟩
    | some id =>
      refine Or.inr ⟨?_, rfl⟩
      have mem := (mem_iff_lookupIn (assignTracks_nodup _ _) k id).mpr given
      obtain ⟨track, htrack, rfl⟩ := List.mem_map.mp
        ((turnAssignment_ids objects).subset (List.mem_map_of_mem mem))
      exact continued.named track
        (List.mem_append_left _ (List.mem_append_left _ htrack))

end Frame

section Run

variable (backend) (config : AcceptedConfig F) {label : String}
  (hlabel : label ∈ config.trackLabels) {frames frames' : Nat → List (Object F)}
include hlabel

theorem alike_init : Alike label id ∅ (Processor.init config) (Processor.init config) where
  tracker := by
    refine ⟨_, lookup_init config hlabel, ?_, lookup_init config hlabel⟩
    intro track h
    cases h
  mono := fun _ h => absurd h (Set.notMem_empty _)
  bounds := fun _ h => absurd h (Set.notMem_empty _)
  counters := ⟨le_rfl, le_rfl⟩

theorem alike_after (N : Nat)
    (same : ∀ n < N, detectionsOf (frames n) label = detectionsOf (frames' n) label) :
    ∃ r s, Alike label r s (Processor.after backend config frames N)
        (Processor.after backend config frames' N) ∧
      ∀ n < N, Corresponding r s (groupedDetections (output backend config frames n) label)
        (groupedDetections (output backend config frames' n) label) := by
  induction N with
  | zero => exact ⟨id, ∅, alike_init config hlabel, fun n h => absurd h (Nat.not_lt_zero n)⟩
  | succ N ih =>
    obtain ⟨r, s, alike, before⟩ := ih fun n hn => same n (Nat.lt_succ_of_lt hn)
    obtain ⟨ready, labels⟩ := after_ready backend config frames N
    obtain ⟨ready', labels'⟩ := after_ready backend config frames' N
    obtain ⟨r', s', sub, agree, next, now⟩ := alike_process backend alike ready ready'
      (labels ▸ hlabel) (labels' ▸ hlabel) (same N (Nat.lt_succ_self N))
    refine ⟨r', s', next, ?_⟩
    intro n hn
    rcases Nat.lt_succ_iff_lt_or_eq.mp hn with lt | rfl
    · exact (before n lt).extended sub agree
    · exact now

/-- Label independence: runs that agree on the objects of a label give them the same ids up to a
strictly increasing map. -/
theorem label_independence (N : Nat)
    (same : ∀ n < N, ((frames n).filter fun o => o.labelName = label) =
      (frames' n).filter fun o => o.labelName = label) :
    ∃ r : Int → Int,
      StrictMonoOn r {id | ∃ n < N, Emits backend config frames n label id} ∧
      ∀ n < N,
        ((output backend config frames n).filter fun o => o.labelName = label).length =
          ((output backend config frames' n).filter fun o => o.labelName = label).length ∧
        ∀ (k : Nat) (o o' : Object F),
          ((output backend config frames n).filter fun o => o.labelName = label)[k]? = some o →
          ((output backend config frames' n).filter fun o => o.labelName = label)[k]? = some o' →
          (o.trackId = -1 ∧ o'.trackId = -1) ∨
            (o.trackId ≠ -1 ∧ o'.trackId ≠ -1 ∧ o'.trackId = r o.trackId) := by
  have seen : ∀ n < N, detectionsOf (frames n) label = detectionsOf (frames' n) label := by
    intro n hn
    rw [detectionsOf_eq, detectionsOf_eq, same n hn]
  obtain ⟨r, s, alike, all⟩ := alike_after backend config hlabel N seen
  refine ⟨r, alike.mono.mono ?_, ?_⟩
  · rintro id ⟨n, hn, some_id, o, ho, rfl, rfl⟩
    obtain ⟨k, hk⟩ := mem_process ho
    have bound : k < (groupedDetections (output backend config frames' n) o.labelName).length := by
      rw [← (all n hn).length]
      exact (List.getElem?_eq_some_iff.mp hk).1
    rcases (all n hn).ids k o _ hk (List.getElem?_eq_getElem bound) with ⟨none, -⟩ | ⟨mem, -⟩
    · exact absurd none some_id
    · exact mem
  · intro n hn
    have corresponding := all n hn
    rw [groupedDetections_eq_filter, groupedDetections_eq_filter] at corresponding
    refine ⟨corresponding.length, ?_⟩
    intro k o o' ho ho'
    rcases corresponding.ids k o o' ho ho' with none | ⟨mem, shifted⟩
    · exact Or.inl none
    · obtain ⟨one, -, one', -⟩ := alike.bounds _ mem
      exact Or.inr ⟨by omega, by omega, shifted⟩

end Run

/-- The faces in what a run leaves of its first frame, where every frame shows these objects. -/
def facesOut (config : AcceptedConfig ℚ) (objects : List (Object ℚ)) : List (Object ℚ) :=
  (output ExactSolvers.exactBackend config (fun _ => objects) 0).filter
    fun o => o.labelName = "face"

/-- A face alone, and the same face with a person in front of it: the person takes id 1 first,
and the face has id 2. -/
theorem face_alone_or_not :
    let config := shippedConfig ["person", "face"] (by decide) (by decide)
    ∃ r : Int → Int,
      StrictMonoOn r {id | ∃ n < 100, Emits ExactSolvers.exactBackend config
        (fun _ => [sampleObject "face" 10]) n "face" id} ∧
      (facesOut config [sampleObject "face" 10]).map Object.trackId = [1] ∧
      (facesOut config [sampleObject "person" 10, sampleObject "face" 10]).map
        Object.trackId = [2] ∧
      r 1 = 2 := by
  intro config
  have configured : "face" ∈ config.trackLabels := by decide
  have same : ∀ n < 100,
      (((fun _ => [sampleObject "face" 10]) : Nat → List (Object ℚ)) n).filter
          (fun o => o.labelName = "face") =
        (((fun _ => [sampleObject "person" 10, sampleObject "face" 10]) :
          Nat → List (Object ℚ)) n).filter fun o => o.labelName = "face" := fun _ _ => rfl
  have alone : (facesOut config [sampleObject "face" 10]).map Object.trackId = [1] := by
    decide +kernel
  have beside : (facesOut config [sampleObject "person" 10, sampleObject "face" 10]).map
      Object.trackId = [2] := by decide +kernel
  obtain ⟨r, mono, ids⟩ := label_independence ExactSolvers.exactBackend _ configured 100 same
  obtain ⟨o, first, one⟩ := List.map_eq_singleton_iff.mp alone
  obtain ⟨o', first', two⟩ := List.map_eq_singleton_iff.mp beside
  refine ⟨r, mono, alone, beside, ?_⟩
  rcases (ids 0 (by decide)).2 0 o o' (congrArg (fun faces => faces[0]?) first)
      (congrArg (fun faces => faces[0]?) first') with ⟨none, -⟩ | ⟨-, -, renamed⟩
  · rw [one] at none
    cases none
  · rw [← one, ← renamed, two]

end LabelIndependence
