import AxVision.StationaryTracks
import AxVision.TrackIdentity

/-!
# The detection of the tracker and the detection of the processor

`update` matches tracks with detections and forgets which; `Process` looks for a
detection again, by overlap with the track's new box. The two agree exactly where
the detection the tracker used is still free and no other is ahead of it.
-/

namespace Reassociation

open DetectionTypes RoundedArithmetic STracks TrackAssociation ByteTracker TrackerProcessor
open KeyedTables PointerStores
open ProperAssignments TrackerSteps TrackerUpdates GreedyAssignments LabelTurns TrackIdentity

universe u

section Positions

variable {α : Type u} {p : α → Bool} {l : List α}

/-- Where the elements of a filtered list come from. -/
def positions (p : α → Bool) (l : List α) : List Nat :=
  (l.zipIdx.filter fun e => p e.1).map Prod.snd

theorem getElem?_filter (p : α → Bool) (l : List α) (k : Nat) :
    (l.filter p)[k]? = (positions p l)[k]?.bind fun i => l[i]? := by
  have values : l.filter p = (l.zipIdx.filter fun e => p e.1).map Prod.fst := by
    conv_lhs => rw [← List.zipIdx_map_fst 0 l]
    rw [List.filter_map]
    rfl
  rw [values, positions, List.getElem?_map, List.getElem?_map]
  cases hk : (l.zipIdx.filter fun e => p e.1)[k]? with
  | none => rfl
  | some e =>
    have mem := (List.mem_filter.mp (List.mem_of_getElem? hk)).1
    simp [List.mem_zipIdx_iff_getElem?.mp mem]

theorem positions_read {i : Nat} (h : i ∈ positions p l) : ∃ a, l[i]? = some a := by
  obtain ⟨e, he, rfl⟩ := List.mem_map.mp h
  exact ⟨_, List.mem_zipIdx_iff_getElem?.mp (List.mem_filter.mp he).1⟩

end Positions

variable {F : Type u} [Scalar F]

section Used

variable (backend : Backend F) (t : BYTETracker F) (D : List (Object F))

/-- The detection made of the object at a position. -/
def detectionAt (u : Nat) : Option (STrack F) := D[u]?.map newDetection

/-- The positions of `detections`. -/
def highPositions : List Nat := positions (fun o => Scalar.le t.trackThresh (newDetection o).score) D

/-- The positions of `detections_low`. -/
def lowPositions : List Nat :=
  positions (fun o => !Scalar.le t.trackThresh (newDetection o).score) D

/-- The positions of `detections_cp`. -/
def leftPositions : List Nat :=
  (firstAssignment backend t D).unmatchedB.filterMap fun j => (highPositions t D)[j]?

def freshPositions : List Nat :=
  (thirdAssignment backend t D).unmatchedB.filterMap fun j => (leftPositions backend t D)[j]?

/-- The positions of the detections that start tracks. -/
def startedPositions : List Nat :=
  (freshPositions backend t D).filter fun u =>
    (detectionAt D u).any fun det => !Scalar.lt det.score t.highThresh

/-- The update used the object at a position for the track of an id: it matched them in one of
its associations, or started the track with the object. -/
inductive Used (next : Int) : Int → Nat → Prop
  | first {row col p u : Nat} : (row, col) ∈ (firstAssignment backend t D).pairs →
      (strackPool t)[row]? = some p → (highPositions t D)[col]? = some u →
      Used next (idAt (start t) p) u
  | second {row col p u : Nat} : (row, col) ∈ (secondAssignment backend t D).pairs →
      (rTracked backend t D)[row]? = some p → (lowPositions t D)[col]? = some u →
      Used next (idAt (start t) p) u
  | third {row col p u : Nat} : (row, col) ∈ (thirdAssignment backend t D).pairs →
      (unconfirmed t)[row]? = some p → (leftPositions backend t D)[col]? = some u →
      Used next (idAt (start t) p) u
  | started {k u : Nat} : (startedPositions backend t D)[k]? = some u → Used next (next + k) u

theorem getElem?_detectionsHigh (j : Nat) :
    (detectionsHigh t D)[j]? = (highPositions t D)[j]?.bind (detectionAt D) := by
  rw [detectionsHigh, List.filter_map, List.getElem?_map, getElem?_filter, Option.map_bind]
  rfl

theorem getElem?_detectionsLow (j : Nat) :
    (detectionsLow t D)[j]? = (lowPositions t D)[j]?.bind (detectionAt D) := by
  rw [detectionsLow, List.filter_map, List.getElem?_map, getElem?_filter, Option.map_bind]
  rfl

theorem highPositions_read {u : Nat} (h : u ∈ highPositions t D) :
    ∃ det, detectionAt D u = some det := by
  obtain ⟨o, ho⟩ := positions_read h
  exact ⟨newDetection o, by rw [detectionAt, ho]; rfl⟩

theorem lowPositions_read {u : Nat} (h : u ∈ lowPositions t D) :
    ∃ det, detectionAt D u = some det := by
  obtain ⟨o, ho⟩ := positions_read h
  exact ⟨newDetection o, by rw [detectionAt, ho]; rfl⟩

theorem leftPositions_read {u : Nat} (h : u ∈ leftPositions backend t D) :
    ∃ det, detectionAt D u = some det := by
  obtain ⟨j, -, hu⟩ := List.mem_filterMap.mp h
  exact highPositions_read t D (List.mem_of_getElem? hu)

theorem freshPositions_read {u : Nat} (h : u ∈ freshPositions backend t D) :
    ∃ det, detectionAt D u = some det := by
  obtain ⟨j, -, hu⟩ := List.mem_filterMap.mp h
  exact leftPositions_read backend t D (List.mem_of_getElem? hu)

theorem detectionsCp_eq :
    detectionsCp backend t D = (leftPositions backend t D).filterMap (detectionAt D) := by
  rw [detectionsCp, leftPositions, List.filterMap_filterMap]
  exact List.filterMap_congr fun j _ => getElem?_detectionsHigh t D j

theorem freshDetections_eq :
    freshDetections backend t D = (freshPositions backend t D).filterMap (detectionAt D) := by
  rw [freshDetections, freshPositions, List.filterMap_filterMap]
  refine List.filterMap_congr fun j _ => ?_
  rw [detectionsCp_eq]
  exact getElem?_read (fun u hu => leftPositions_read backend t D hu) j

variable {backend t D}

/-- What an update used is one of its objects. -/
theorem Used.read {next id : Int} {u : Nat} (h : Used backend t D next id u) :
    ∃ o, D[u]? = some o := by
  have object : ∀ {u : Nat}, (∃ det, detectionAt D u = some det) → ∃ o, D[u]? = some o := by
    rintro u ⟨det, hdet⟩
    obtain ⟨o, ho, -⟩ := Option.map_eq_some_iff.mp hdet
    exact ⟨o, ho⟩
  cases h with
  | first _ _ hu => exact object (highPositions_read t D (List.mem_of_getElem? hu))
  | second _ _ hu => exact object (lowPositions_read t D (List.mem_of_getElem? hu))
  | third _ _ hu => exact object (leftPositions_read backend t D (List.mem_of_getElem? hu))
  | started hu =>
    exact object (freshPositions_read backend t D
      (List.mem_filter.mp (List.mem_of_getElem? hu)).1)

theorem length_initNew (highThresh : F) (frameId : Int) (dets : List (STrack F)) (next : Int) :
    (initNew highThresh frameId dets next).1.length =
      (dets.filter fun det => !Scalar.lt det.score highThresh).length := by
  induction dets generalizing next with
  | nil => rfl
  | cons det rest ih =>
    rw [initNew]
    by_cases low : Scalar.lt det.score highThresh = true
    · simp [low, ih]
    · simp [low, ih]

theorem length_newTracks (next : Int) :
    (newTracks backend t D next).1.length = (startedPositions backend t D).length := by
  rw [newTracks, length_initNew, freshDetections_eq, List.filter_filterMap, startedPositions,
    List.length_filterMap_eq_countP, ← List.countP_eq_length_filter]
  refine List.countP_congr fun u _ => ?_
  cases detectionAt D u <;> simp

/-- For every track of the output the update used some object. -/
theorem used_of_current {next : Int} {s : STrack F}
    (hs : Current backend t D next s) : ∃ u, Used backend t D next s.trackId u := by
  rcases hs with ⟨p, s', held, hit, rfl⟩ | hnew
  · rw [fate_trackId, ← idAt_start held]
    obtain ⟨⟨q, det⟩, hvisit, rfl⟩ := List.mem_map.mp hit
    rcases List.mem_append.mp hvisit with hfirst | hsecond
    · obtain ⟨m, hm, hp, hdet⟩ := mem_resolve.mp hfirst
      rw [getElem?_detectionsHigh] at hdet
      obtain ⟨u, hu, -⟩ := Option.bind_eq_some_iff.mp hdet
      exact ⟨u, .first hm hp hu⟩
    · obtain ⟨m, hm, hp, hdet⟩ := mem_resolve.mp hsecond
      rw [getElem?_detectionsLow] at hdet
      obtain ⟨u, hu, -⟩ := Option.bind_eq_some_iff.mp hdet
      exact ⟨u, .second hm hp hu⟩
  · obtain ⟨-, allotted, -⟩ := initNew_spec t.highThresh (t.frameId + 1)
      (freshDetections backend t D) next
    have hid : s.trackId ∈ ids (newTracks backend t D next).1 := List.mem_map_of_mem hnew
    rw [newTracks, allotted, List.mem_map] at hid
    obtain ⟨k, hk, same⟩ := hid
    have bound : k < (startedPositions backend t D).length := by
      rw [← length_newTracks next]
      exact List.mem_range.mp hk
    rw [← same]
    exact ⟨_, .started (List.getElem?_eq_getElem bound)⟩

/-- Where the object used for a track comes from, once no track is unconfirmed. -/
theorem Used.source {next id : Int} {u : Nat} (h : Sound t next) (used : Used backend t D next id u) :
    (∃ p s, (start t)[p]? = some s ∧ s.trackId = id ∧
      ((∃ col, (p, col) ∈ (firstAssignment backend t D).pairs ∧
          (highPositions t D)[col]? = some u) ∨
        ∃ row col, (row, col) ∈ (secondAssignment backend t D).pairs ∧
          (rTracked backend t D)[row]? = some p ∧ (lowPositions t D)[col]? = some u)) ∨
      ∃ k : Nat, id = next + k ∧ (startedPositions backend t D)[k]? = some u := by
  have held : ∀ {row p : Nat}, (strackPool t)[row]? = some p →
      row = p ∧ ∃ s, (start t)[p]? = some s ∧ s.trackId = idAt (start t) p := by
    intro row p hp
    obtain ⟨same, bound⟩ := h.pool_getElem?.mp hp
    exact ⟨same, _, List.getElem?_eq_getElem bound, (idAt_start (List.getElem?_eq_getElem bound)).symm⟩
  cases used with
  | @first row col p u hpair hp hu =>
    obtain ⟨rfl, s, hs, same⟩ := held hp
    exact Or.inl ⟨row, s, hs, same, Or.inl ⟨col, hpair, hu⟩⟩
  | @second row col p u hpair hp hu =>
    have pooled : p ∈ strackPool t := by
      have mem := (List.mem_filter.mp (List.mem_of_getElem? hp)).1
      obtain ⟨i, -, hi⟩ := List.mem_filterMap.mp mem
      exact List.mem_of_getElem? hi
    obtain ⟨i, hi⟩ := List.mem_iff_getElem?.mp pooled
    obtain ⟨-, s, hs, same⟩ := held hi
    exact Or.inl ⟨p, s, hs, same, Or.inr ⟨row, col, hpair, hp, hu⟩⟩
  | @third row col p u _ hp _ =>
    rw [h.unconfirmed_nil] at hp
    cases hp
  | @started k u hu => exact Or.inr ⟨k, rfl, hu⟩

/-- An update uses one object for a track. -/
theorem Used.unique {next id : Int} {u u' : Nat} (h : Sound t next) (valid : Valid backend)
    (used : Used backend t D next id u) (used' : Used backend t D next id u') : u = u' := by
  have first := h.first_proper D valid
  have second := h.second_proper D valid
  -- a pointer the first association matched is not in the second
  have apart : ∀ {p col row : Nat}, (p, col) ∈ (firstAssignment backend t D).pairs →
      (rTracked backend t D)[row]? = some p → False := by
    intro p col row hpair hp
    exact ((h.mem_rTracked D valid).mp (List.mem_of_getElem? hp)).1 (List.mem_map_of_mem hpair)
  rcases used.source h with ⟨p, s, hs, same, matched⟩ | ⟨k, rfl, hk⟩
  · rcases used'.source h with ⟨p', s', hs', same', matched'⟩ | ⟨k', new, -⟩
    · have hpp := h.pointer_inj hs hs' (same.trans same'.symm)
      subst hpp
      rcases matched with ⟨col, hpair, hu⟩ | ⟨row, col, hpair, hp, hu⟩
      · rcases matched' with ⟨col', hpair', hu'⟩ | ⟨row', col', -, hp', -⟩
        · have hcol := List.inj_on_of_nodup_map first.rows_nodup hpair hpair' rfl
          cases hcol
          exact Option.some.inj (hu.symm.trans hu')
        · exact (apart hpair hp').elim
      · rcases matched' with ⟨col', hpair', -⟩ | ⟨row', col', hpair', hp', hu'⟩
        · exact (apart hpair' hp).elim
        · have hrow : row = row' := (List.getElem?_inj (List.getElem?_eq_some_iff.mp hp).1
            (h.rTracked_nodup D valid)).mp (hp.trans hp'.symm)
          subst hrow
          have hcol := List.inj_on_of_nodup_map second.rows_nodup hpair hpair' rfl
          cases hcol
          exact Option.some.inj (hu.symm.trans hu')
    · have := (h.allotted s (List.mem_of_getElem? hs)).2
      omega
  · rcases used'.source h with ⟨p', s', hs', same', -⟩ | ⟨k', new, hk'⟩
    · have := (h.allotted s' (List.mem_of_getElem? hs')).2
      omega
    · have hkk : k = k' := by omega
      subst hkk
      exact Option.some.inj (hk.symm.trans hk')

end Used

section Write

variable {number : F → Prop} {D : List (Object F)} {assigned : List Nat} {box : Tlbr F}

/-- An untaken object no other is ahead of is the last best one, if there is one. -/
theorem lastBest_iff (line : NumberLine F number) {k u : Nat} {o : Object F}
    (best : LastBest D assigned box k) (hu : D[u]? = some o) :
    k = u ↔ u ∉ assigned ∧ ∀ e, e ∉ assigned → ¬Ahead D box e u := by
  constructor
  · rintro rfl
    exact ⟨best.free, best.largest⟩
  · rintro ⟨free, largest⟩
    refine best.unique line ⟨free, ⟨o, hu, ?_⟩, largest⟩
    obtain ⟨o', hk, enough⟩ := best.enough
    refine line.trans _ _ _ enough ?_
    by_contra lt
    refine largest k best.free ⟨o', o, hk, hu, (overlap_total line o o' box).resolve_right lt, ?_⟩
    exact Or.inl (Bool.eq_false_of_not_eq_true lt)

variable {backend : Backend F}

/-- The objects taken by the output tracks before the one at a place. -/
def taken (detections : List (Object F)) (tracks : List (STrack F)) (i : Nat) : List Nat :=
  (assignTracks detections (tracks.take i) []).map Prod.fst

/-- What holds when the `k`-th object of a label is given an id: it is the last of largest overlap
with the box of an output track of this id, among those not taken before. The update used one object
for the track, and it is this one exactly if it is not taken and no untaken object is ahead of it. -/
def Reassociated (backend : Backend F) (p : Processor F) (objects : List (Object F))
    (label : String) (t : BYTETracker F) (k : Nat) (id : Int) : Prop :=
  let detections := detectionsOf objects label
  let tracks := (turnUpdate backend p objects label t).output
  ∃ i track u, tracks[i]? = some track ∧ track.trackId = id ∧
    LastBest detections (taken detections tracks i) track.tlbr k ∧
    (∀ u', Used backend t detections (counterAt backend p objects label) id u' ↔ u' = u) ∧
    (k = u ↔ u ∉ taken detections tracks i ∧
      ∀ e, e ∉ taken detections tracks i → ¬Ahead detections track.tlbr e u)

/-- Where a written object is the object that the update used. -/
theorem written_iff_used (valid : Valid backend) (line : NumberLine F number)
    (config : AcceptedConfig F) (frames : Nat → List (Object F)) (n : Nat) {label : String}
    {k : Nat} {o : Object F}
    (ho : ((output backend config frames n).filter fun o => o.labelName = label)[k]? = some o)
    (some_id : o.trackId ≠ -1) :
    ∃ t, (Processor.after backend config frames n).trackers.lookup label = some t ∧
      Reassociated backend (Processor.after backend config frames n) (frames n) label t k
        o.trackId := by
  obtain ⟨ready, -⟩ := after_ready backend config frames n
  have secure := after_secure config frames valid n
  rw [output] at ho
  generalize Processor.after backend config frames n = p at *
  have mem := List.mem_filter.mp (List.mem_of_getElem? ho)
  have hlabel : o.labelName = label := of_decide_eq_true mem.2
  have configured := hlabel ▸ (emitted_tracked ready mem.1 some_id).1
  obtain ⟨t, ht⟩ := ready.tracker label configured
  refine ⟨t, ht, ?_⟩
  obtain ⟨after, grouped⟩ := process_turn backend ready configured ht (frames n)
  have counter := (process_counter backend ready configured ht (frames n)).1
  have sound := (secure.sound label t ht).mono counter
  rw [← groupedDetections_eq_filter, grouped] at ho
  obtain ⟨o', -, written⟩ := Option.map_eq_some_iff.mp ho
  cases given : lookupIn k (turnAssignment backend p (frames n) label t) with
  | none =>
    rw [given] at written
    exact absurd (written ▸ rfl) some_id
  | some id =>
    rw [given] at written
    have same : o.trackId = id := written ▸ rfl
    obtain ⟨i, track, held, hid, best⟩ := assignTracks_lastBest line given
    rw [List.nil_append] at best
    have current : Current backend t (detectionsOf (frames n) label)
        (counterAt backend p (frames n) label) track := by
      refine (mem_trackedMerged sound _ valid).mp ((tracked_sublist _).subset ?_)
      exact (List.mem_filter.mp (List.mem_of_getElem? held)).1
    obtain ⟨u, used⟩ := used_of_current current
    obtain ⟨object, hu⟩ := used.read
    rw [hid, ← same] at used
    refine ⟨i, track, u, held, hid.trans same.symm, best, ?_, lastBest_iff line best hu⟩
    intro u'
    constructor
    · exact fun used' => used'.unique sound valid used
    · rintro rfl
      exact used

end Write

section Twins

open ExactSolvers

/-- The claim that a written object is the one the update used, for one frame and label. -/
def Faithful (backend : Backend F) (config : AcceptedConfig F) (frames : Nat → List (Object F))
    (n : Nat) (label : String) : Prop :=
  ∀ t k o, (Processor.after backend config frames n).trackers.lookup label = some t →
    ((output backend config frames n).filter fun o => o.labelName = label)[k]? = some o →
    o.trackId ≠ -1 →
    Used backend t (detectionsOf (frames n) label)
      (counterAt backend (Processor.after backend config frames n) (frames n) label) o.trackId k

/-- Two faces in one place, in every frame. -/
def twins (_ : Nat) : List (Object ℚ) := [sampleObject "face" 10, sampleObject "face" 10]

/-- Each started its own track, and the track of the first is given the second. -/
theorem twins_swapped :
    ((output exactBackend (shippedConfig ["face"] (by decide) (by decide)) twins 0).filter
      fun o => o.labelName = "face").map Object.trackId = [2, 1] := by
  decide +kernel

theorem twins_written : ∃ o : Object ℚ,
    ((output exactBackend (shippedConfig ["face"] (by decide) (by decide)) twins 0).filter
      fun o => o.labelName = "face")[0]? = some o ∧ o.trackId = 2 := by
  have first := congrArg (·[0]?) twins_swapped
  rw [List.getElem?_map] at first
  exact Option.map_eq_some_iff.mp first

/-- The id of the second track is on the first object, which the update used for the first. -/
theorem twins_unfaithful :
    ¬Faithful exactBackend (shippedConfig ["face"] (by decide) (by decide)) twins 0 "face" := by
  intro faithful
  have configured : "face" ∈ (shippedConfig ["face"] (by decide) (by decide)).trackLabels := by
    decide
  have held := lookup_init (shippedConfig ["face"] (by decide) (by decide)) configured
  have sound := (after_secure (shippedConfig ["face"] (by decide) (by decide)) twins
    exactBackend_optimal.valid 0).sound "face" _ held
  obtain ⟨o, written, second⟩ := twins_written
  have used := faithful _ 0 o held written (by rw [second]; decide)
  rcases used.source sound with ⟨p, s, empty, -⟩ | ⟨k, new, started⟩
  · cases empty
  · have counter : (Processor.after exactBackend
        (shippedConfig ["face"] (by decide) (by decide)) twins 0).nextTrackId = 1 := rfl
    rw [second, counter] at new
    have once : k = 1 := by omega
    have positions : startedPositions exactBackend (BYTETracker.ofConfig shippedTracker)
        (detectionsOf (twins 0) "face") = [0, 1] := by
      decide +kernel
    subst once
    change (startedPositions exactBackend (BYTETracker.ofConfig shippedTracker)
      (detectionsOf (twins 0) "face"))[1]? = some 0 at started
    rw [positions] at started
    cases started

/-- What does hold of the first twin: its id is that of the last of two equal overlaps. -/
theorem twins_reassociated :
    ∃ o : Object ℚ, o.trackId = 2 ∧ ∃ t, (Processor.after exactBackend
        (shippedConfig ["face"] (by decide) (by decide)) twins 0).trackers.lookup "face" = some t ∧
      Reassociated exactBackend (Processor.after exactBackend
        (shippedConfig ["face"] (by decide) (by decide)) twins 0) (twins 0) "face" t 0
        o.trackId := by
  obtain ⟨o, written, second⟩ := twins_written
  exact ⟨o, second, written_iff_used exactBackend_optimal.valid numberLine_rat _ _ _ written
    (by rw [second]; decide)⟩

end Twins

end Reassociation
