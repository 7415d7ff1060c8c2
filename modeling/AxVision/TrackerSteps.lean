import AxVision.ByteTracker
import AxVision.ProperAssignments
import AxVision.PointerStores

/-!
# One update, track by track

What one call of `BYTETracker::update` does to each track it holds: the track is
hit by a detection, or missed and turned lost, or left lost. All properties of
runs of the tracker start from the two membership theorems at the end.
-/

namespace TrackerSteps

open DetectionTypes STracks TrackAssociation ByteTracker ProperAssignments PointerStores
open KeyedTables

universe u

variable {F : Type u}

def ids (l : List (STrack F)) : List Int := KeyedLists.keys STrack.trackId l

/-- What holds of a tracker between two updates; `next` is the counter. -/
structure Sound (t : BYTETracker F) (next : Int) : Prop where
  distinct : (ids (start t)).Nodup
  allotted : ∀ s ∈ start t, 1 ≤ s.trackId ∧ s.trackId < next
  tracked : ∀ s ∈ t.trackedStracks,
    s.isActivated = true ∧ s.state = .tracked ∧ s.frameId = t.frameId
  lost : ∀ s ∈ t.lostStracks, s.state ≠ .tracked ∧ s.frameId < t.frameId

section Pool

variable {t : BYTETracker F} {next : Int}

theorem Sound.mono (h : Sound t next) {later : Int} (le : next ≤ later) : Sound t later :=
  { h with allotted := fun s hs => ⟨(h.allotted s hs).1, lt_of_lt_of_le (h.allotted s hs).2 le⟩ }

theorem Sound.activated (h : Sound t next) {p : Nat} (hp : p < t.trackedStracks.length) :
    isActivatedAt t p = true := by
  rw [isActivatedAt, List.getElem?_eq_getElem hp]
  exact (h.tracked _ (List.getElem_mem hp)).1

theorem Sound.unconfirmed_nil (h : Sound t next) : unconfirmed t = [] := by
  apply List.filter_eq_nil_iff.mpr
  intro p hp
  simp [h.activated (List.mem_range.mp hp)]

theorem idAt_start {p : Nat} {s : STrack F} (held : (start t)[p]? = some s) :
    idAt (start t) p = s.trackId := by
  simp [idAt, held]

/-- The store holds one track per id. -/
theorem Sound.pointer_inj (h : Sound t next) {p q : Nat} {s s' : STrack F}
    (hp : (start t)[p]? = some s) (hq : (start t)[q]? = some s') (same : s.trackId = s'.trackId) :
    p = q := by
  have ids : (ids (start t))[p]? = (ids (start t))[q]? := by
    simp [TrackerSteps.ids, KeyedLists.keys, hp, hq, same]
  refine (List.getElem?_inj ?_ h.distinct).mp ids
  simpa [TrackerSteps.ids, KeyedLists.keys] using (List.getElem?_eq_some_iff.mp hp).1

/-- The pool is the whole store, in order. -/
theorem Sound.pool_eq (h : Sound t next) : strackPool t = List.range (start t).length := by
  have all : trackedPtrs t = List.range t.trackedStracks.length := by
    apply List.filter_eq_self.mpr
    intro p hp
    exact h.activated (List.mem_range.mp hp)
  have held : ∀ p, p < (start t).length → ∃ s, (start t)[p]? = some s :=
    fun p hp => ⟨_, List.getElem?_eq_getElem hp⟩
  have length : (start t).length = t.trackedStracks.length + t.lostStracks.length := by
    simp [start]
  have inj : ∀ p q, p < (start t).length → q < (start t).length →
      idAt (start t) p = idAt (start t) q → p = q := by
    intro p q hp hq same
    obtain ⟨s, hs⟩ := held p hp
    obtain ⟨s', hs'⟩ := held q hq
    rw [idAt_start hs, idAt_start hs'] at same
    exact h.pointer_inj hs hs' same
  rw [strackPool, all, KeyedLists.union_eq_append, lostPtrs, length, List.range_add]
  · refine List.Nodup.map_on ?_ (List.nodup_range.map fun _ _ h => by omega)
    intro p hp q hq same
    simp only [lostPtrs, List.mem_map, List.mem_range] at hp hq
    exact inj p q (by omega) (by omega) same
  · intro q hq hmem
    simp only [lostPtrs, List.mem_map, List.mem_range] at hq
    obtain ⟨p, hp, same⟩ := List.mem_map.mp hmem
    rw [List.mem_range] at hp
    have := inj p q (by omega) (by omega) same
    omega

theorem deref_range (store : Store F) : deref store (List.range store.length) = store := by
  apply List.ext_getElem?
  intro p
  have all : ∀ k, k ≤ store.length →
      (List.range k).filterMap (fun p => store[p]?) = store.take k := by
    intro k
    induction k with
    | zero => simp
    | succ k ih =>
      intro hk
      rw [List.range_succ, List.filterMap_append, ih (by omega), List.take_add_one]
      have : k < store.length := by omega
      simp [List.getElem?_eq_getElem this]
  rw [deref, all _ le_rfl, List.take_length]

theorem length_deref {store : Store F} {ptrs : List Nat} (bound : ∀ p ∈ ptrs, p < store.length) :
    (deref store ptrs).length = ptrs.length := by
  induction ptrs with
  | nil => rfl
  | cons p rest ih =>
    have hp := bound p List.mem_cons_self
    have tail := ih fun q hq => bound q (List.mem_cons_of_mem p hq)
    simpa [deref, List.filterMap_cons, List.getElem?_eq_getElem hp] using tail

end Pool

section Predict

variable [Scalar F] {t : BYTETracker F} {next : Int}

@[simp] theorem predict_trackId (s : STrack F) : s.predict.trackId = s.trackId := rfl
@[simp] theorem predict_state (s : STrack F) : s.predict.state = s.state := rfl
@[simp] theorem predict_frameId (s : STrack F) : s.predict.frameId = s.frameId := rfl
@[simp] theorem predict_startFrame (s : STrack F) : s.predict.startFrame = s.startFrame := rfl
@[simp] theorem predict_tlbr (s : STrack F) : s.predict.tlbr = s.tlbr := rfl

theorem Sound.predicted_eq (h : Sound t next) : predicted t = (start t).map STrack.predict := by
  rw [predicted, h.pool_eq]
  exact foldl_modify_range (f := STrack.predict) (start t)

theorem Sound.deref_pool (h : Sound t next) : deref (predicted t) (strackPool t) = predicted t := by
  rw [h.pool_eq, show (start t).length = (predicted t).length by simp [h.predicted_eq]]
  exact deref_range _

end Predict

section Resolve

theorem mem_resolve {ptrs : List Nat} {detections : List (STrack F)} {pairs : List (Nat × Nat)}
    {p : Nat} {det : STrack F} :
    (p, det) ∈ resolve ptrs detections pairs ↔
      ∃ m ∈ pairs, ptrs[m.1]? = some p ∧ detections[m.2]? = some det := by
  simp only [resolve, List.mem_filterMap]
  constructor
  · rintro ⟨m, hm, h⟩
    split at h
    · next p' det' hp hdet =>
      cases h
      exact ⟨m, hm, hp, hdet⟩
    · cases h
  · rintro ⟨m, hm, hp, hdet⟩
    exact ⟨m, hm, by simp [hp, hdet]⟩

theorem resolve_nodup {ptrs : List Nat} {detections : List (STrack F)} {pairs : List (Nat × Nat)}
    (hptrs : ptrs.Nodup) (hrows : (pairs.map Prod.fst).Nodup) :
    ((resolve ptrs detections pairs).map Prod.fst).Nodup := by
  rw [resolve, List.map_filterMap, List.Nodup, List.pairwise_filterMap]
  refine (List.pairwise_map.mp hrows).imp ?_
  intro m m' hne p hp p' hp' same
  obtain ⟨⟨q, det⟩, hm, rfl⟩ := Option.map_eq_some_iff.mp hp
  obtain ⟨⟨q', det'⟩, hm', rfl⟩ := Option.map_eq_some_iff.mp hp'
  have first : ptrs[m.1]? = some q := by
    split at hm
    · next hq _ =>
      cases hm
      exact hq
    · cases hm
  have second : ptrs[m'.1]? = some q' := by
    split at hm'
    · next hq _ =>
      cases hm'
      exact hq
    · cases hm'
  simp only at same
  rw [← same, ← first] at second
  exact hne ((List.getElem?_inj (List.getElem?_eq_some_iff.mp first).1 hptrs).mp second.symm)

/-- Every matched row that has a pointer is visited, as all columns are detections. -/
theorem mem_resolve_ptrs {ptrs : List Nat} {detections : List (STrack F)} {a : Assignment}
    (proper : Proper a ptrs.length detections.length) {p : Nat} :
    p ∈ (resolve ptrs detections a.pairs).map Prod.fst ↔
      ∃ i ∈ a.pairs.map Prod.fst, ptrs[i]? = some p := by
  constructor
  · intro h
    obtain ⟨⟨q, det⟩, hmem, rfl⟩ := List.mem_map.mp h
    obtain ⟨m, hm, hq, -⟩ := mem_resolve.mp hmem
    exact ⟨m.1, List.mem_map_of_mem hm, hq⟩
  · rintro ⟨i, hi, hp⟩
    obtain ⟨m, hm, rfl⟩ := List.mem_map.mp hi
    have bound := (proper.pair_lt m hm).2
    exact List.mem_map.mpr ⟨(p, detections[m.2]),
      mem_resolve.mpr ⟨m, hm, hp, List.getElem?_eq_getElem bound⟩, rfl⟩

end Resolve

section Visits

variable [Scalar F] (backend : Backend F) (t : BYTETracker F) (objects : List (Object F))

/-- The pointers hit in the two associations, each with its detection. -/
def visits : List (Nat × STrack F) :=
  resolve (strackPool t) (detectionsHigh t objects) (firstAssignment backend t objects).pairs ++
    resolve (rTracked backend t objects) (detectionsLow t objects)
      (secondAssignment backend t objects).pairs

def Hit (p : Nat) : Prop := p ∈ (visits backend t objects).map Prod.fst

theorem afterSecond_eq :
    afterSecond backend t objects =
      (visits backend t objects).foldl (applyMatch backend (t.frameId + 1))
        { store := predicted t } := by
  rw [visits, List.foldl_append]
  rfl

/-- What a detection does to the track it hits. -/
def hitBy (frameId : Int) (det track : STrack F) : STrack F :=
  if track.state = .tracked then track.update backend.lltSolve det frameId
  else track.reActivate backend.lltSolve det frameId

theorem applyMatch_store (frameId : Int) (l : Locals F) (m : Nat × STrack F) :
    (applyMatch backend frameId l m).store = l.store.modify m.1 (hitBy backend frameId m.2) := by
  apply List.ext_getElem?
  intro p
  rw [applyMatch, List.getElem?_modify]
  cases held : l.store[m.1]? with
  | none =>
    by_cases hp : m.1 = p
    · simp [← hp, held]
    · simp [hp]
  | some track =>
    obtain ⟨bound, heq⟩ := List.getElem?_eq_some_iff.mp held
    by_cases hp : m.1 = p
    · subst hp
      by_cases hs : track.state = .tracked <;> simp [hs, hitBy, heq, bound]
    · by_cases hs : track.state = .tracked <;> simp [hs, hp]

def activates (frameId : Int) (det track : STrack F) : Option (STrack F) :=
  if track.state = .tracked then some (hitBy backend frameId det track) else none

def refinds (frameId : Int) (det track : STrack F) : Option (STrack F) :=
  if track.state = .tracked then none else some (hitBy backend frameId det track)

theorem applyMatch_activated (frameId : Int) (l : Locals F) (m : Nat × STrack F) :
    (applyMatch backend frameId l m).activated = l.activated ++
      ((l.store[m.1]?).bind (activates backend frameId m.2)).toList := by
  rw [applyMatch]
  cases l.store[m.1]? with
  | none => simp
  | some track => by_cases hs : track.state = .tracked <;> simp [hs, hitBy, activates]

theorem applyMatch_refind (frameId : Int) (l : Locals F) (m : Nat × STrack F) :
    (applyMatch backend frameId l m).refind = l.refind ++
      ((l.store[m.1]?).bind (refinds backend frameId m.2)).toList := by
  rw [applyMatch]
  cases l.store[m.1]? with
  | none => simp
  | some track => by_cases hs : track.state = .tracked <;> simp [hs, hitBy, refinds]

theorem applyMatch_rest (frameId : Int) (l : Locals F) (m : Nat × STrack F) :
    (applyMatch backend frameId l m).lost = l.lost ∧
      (applyMatch backend frameId l m).removed = l.removed := by
  rw [applyMatch]
  split
  · exact ⟨rfl, rfl⟩
  · split <;> exact ⟨rfl, rfl⟩

/-- A hit keeps the identity of a track and makes it tracked, seen now. -/
theorem hitBy_spec (frameId : Int) (det track : STrack F) :
    (hitBy backend frameId det track).trackId = track.trackId ∧
      (hitBy backend frameId det track).state = .tracked ∧
      (hitBy backend frameId det track).isActivated = true ∧
      (hitBy backend frameId det track).frameId = frameId ∧
      (hitBy backend frameId det track).startFrame = track.startFrame := by
  have static : ∀ s : STrack F, s.staticTlwh.staticTlbr.trackId = s.trackId ∧
      s.staticTlwh.staticTlbr.startFrame = s.startFrame ∧
      s.staticTlwh.staticTlbr.frameId = s.frameId := by
    intro s
    simp only [STrack.staticTlwh, STrack.staticTlbr]
    split <;> exact ⟨rfl, rfl, rfl⟩
  rw [hitBy]
  split
  · simp only [STrack.update, static, and_self]
  · simp only [STrack.reActivate, static, and_self]

variable {backend t objects} {next : Int}

theorem Sound.first_proper (h : Sound t next) (objects : List (Object F)) (valid : Valid backend) :
    Proper (firstAssignment backend t objects) (start t).length
      (detectionsHigh t objects).length := by
  have proper := linearAssignment_proper valid (predicted t) (detectionsHigh t objects)
    t.matchThresh
  have length : (predicted t).length = (start t).length := by simp [h.predicted_eq]
  rw [firstAssignment, h.deref_pool, h.pool_eq, List.length_range]
  rwa [length] at proper

omit [Scalar F] in
theorem Sound.pool_getElem? (h : Sound t next) {i p : Nat} :
    (strackPool t)[i]? = some p ↔ i = p ∧ p < (start t).length := by
  rw [h.pool_eq, List.getElem?_eq_some_iff]
  simp only [List.getElem_range, List.length_range]
  constructor
  · rintro ⟨hi, rfl⟩
    exact ⟨rfl, hi⟩
  · rintro ⟨rfl, hp⟩
    exact ⟨hp, rfl⟩

theorem Sound.firstVisits_nodup (h : Sound t next) (objects : List (Object F)) (valid : Valid backend) :
    ((resolve (strackPool t) (detectionsHigh t objects)
      (firstAssignment backend t objects).pairs).map Prod.fst).Nodup :=
  resolve_nodup (h.pool_eq ▸ List.nodup_range) (h.first_proper objects valid).rows_nodup

/-- The pointers hit in the first association are its matched rows. -/
theorem Sound.mem_firstVisits (h : Sound t next) (objects : List (Object F)) (valid : Valid backend) {p : Nat} :
    p ∈ (resolve (strackPool t) (detectionsHigh t objects)
        (firstAssignment backend t objects).pairs).map Prod.fst ↔
      p ∈ (firstAssignment backend t objects).pairs.map Prod.fst := by
  have proper := h.first_proper objects valid
  rw [mem_resolve_ptrs (by rw [h.pool_eq, List.length_range]; exact proper)]
  constructor
  · rintro ⟨i, hi, hp⟩
    rw [h.pool_getElem?] at hp
    exact hp.1 ▸ hi
  · intro hp
    obtain ⟨m, hm, rfl⟩ := List.mem_map.mp hp
    exact ⟨m.1, hp, h.pool_getElem?.mpr ⟨rfl, (proper.pair_lt m hm).1⟩⟩

/-- The pointers of the first association that it did not match. -/
theorem Sound.first_unmatched (h : Sound t next) (objects : List (Object F)) (valid : Valid backend) :
    (firstAssignment backend t objects).unmatchedA.filterMap (fun i => (strackPool t)[i]?) =
      (firstAssignment backend t objects).unmatchedA := by
  have same : ∀ i ∈ (firstAssignment backend t objects).unmatchedA,
      (strackPool t)[i]? = some i := by
    intro i hi
    exact h.pool_getElem?.mpr ⟨rfl, (((h.first_proper objects valid).unmatchedA_iff i).mp hi).1⟩
  rw [List.filterMap_congr same, List.filterMap_some]

theorem Sound.store_first (h : Sound t next) (objects : List (Object F)) (valid : Valid backend) (p : Nat) :
    (afterFirst backend t objects).store[p]? = (start t)[p]?.map fun s =>
      written (hitBy backend (t.frameId + 1)) (resolve (strackPool t) (detectionsHigh t objects)
        (firstAssignment backend t objects).pairs) p s.predict := by
  have visits := getElem?_foldl_write Locals.store (hitBy backend (t.frameId + 1))
    (applyMatch_store backend (t.frameId + 1)) (h.firstVisits_nodup objects valid)
    { store := predicted t } p
  rw [afterFirst, visits, h.predicted_eq, List.getElem?_map, Option.map_map]
  rfl

theorem Sound.mem_rTracked (h : Sound t next) (objects : List (Object F)) (valid : Valid backend) {p : Nat} :
    p ∈ rTracked backend t objects ↔
      p ∉ (firstAssignment backend t objects).pairs.map Prod.fst ∧
        ∃ s, (start t)[p]? = some s ∧ s.state = .tracked := by
  rw [rTracked, h.first_unmatched objects valid, List.mem_filter,
    (h.first_proper objects valid).unmatchedA_iff, stateAt, h.store_first objects valid]
  constructor
  · rintro ⟨⟨bound, unmatched⟩, state⟩
    refine ⟨unmatched, (start t)[p], List.getElem?_eq_getElem bound, ?_⟩
    rw [List.getElem?_eq_getElem bound] at state
    simpa [written_absent (mt (h.mem_firstVisits objects valid).mp unmatched)] using state
  · rintro ⟨unmatched, s, held, state⟩
    refine ⟨⟨(List.getElem?_eq_some_iff.mp held).1, unmatched⟩, ?_⟩
    simpa [held, written_absent (mt (h.mem_firstVisits objects valid).mp unmatched)] using state

theorem Sound.rTracked_nodup (h : Sound t next) (objects : List (Object F)) (valid : Valid backend) :
    (rTracked backend t objects).Nodup := by
  rw [rTracked, h.first_unmatched objects valid]
  exact (h.first_proper objects valid).unmatchedA_nodup.filter _

theorem Sound.length_rTracked (h : Sound t next) (objects : List (Object F))
    (valid : Valid backend) :
    (deref (afterFirst backend t objects).store (rTracked backend t objects)).length =
      (rTracked backend t objects).length := by
  refine length_deref fun p hp => ?_
  obtain ⟨-, s, held, -⟩ := (h.mem_rTracked objects valid).mp hp
  have stored := h.store_first objects valid p
  rw [held] at stored
  exact (List.getElem?_eq_some_iff.mp stored).1

theorem Sound.second_proper (h : Sound t next) (objects : List (Object F)) (valid : Valid backend) :
    Proper (secondAssignment backend t objects) (rTracked backend t objects).length
      (detectionsLow t objects).length := by
  have proper := linearAssignment_proper valid
    (deref (afterFirst backend t objects).store (rTracked backend t objects))
    (detectionsLow t objects) (Scalar.ofRat (1 / 2))
  rw [h.length_rTracked objects valid] at proper
  exact proper

theorem Sound.secondVisits_nodup (h : Sound t next) (objects : List (Object F)) (valid : Valid backend) :
    ((resolve (rTracked backend t objects) (detectionsLow t objects)
      (secondAssignment backend t objects).pairs).map Prod.fst).Nodup :=
  resolve_nodup (h.rTracked_nodup objects valid) (h.second_proper objects valid).rows_nodup

theorem Sound.visits_nodup (h : Sound t next) (objects : List (Object F)) (valid : Valid backend) :
    ((visits backend t objects).map Prod.fst).Nodup := by
  rw [visits, List.map_append, List.nodup_append]
  refine ⟨h.firstVisits_nodup objects valid, h.secondVisits_nodup objects valid, ?_⟩
  rintro p hfirst p' hsecond rfl
  obtain ⟨i, -, hp⟩ := (mem_resolve_ptrs (h.second_proper objects valid)).mp hsecond
  exact ((h.mem_rTracked objects valid).mp (List.mem_of_getElem? hp)).1
    ((h.mem_firstVisits objects valid).mp hfirst)

theorem Sound.mem_missed (h : Sound t next) (objects : List (Object F)) (valid : Valid backend) {p : Nat} :
    p ∈ missed backend t objects ↔
      ¬Hit backend t objects p ∧ ∃ s, (start t)[p]? = some s ∧ s.state = .tracked := by
  have second := h.second_proper objects valid
  have index : p ∈ missed backend t objects ↔
      ∃ i ∈ (secondAssignment backend t objects).unmatchedA,
        (rTracked backend t objects)[i]? = some p := by
    simp [missed]
  rw [index, Hit, visits, List.map_append, List.mem_append, not_or, h.mem_firstVisits objects valid,
    mem_resolve_ptrs second]
  constructor
  · rintro ⟨i, hi, hp⟩
    obtain ⟨unmatched, s, held, state⟩ := (h.mem_rTracked objects valid).mp (List.mem_of_getElem? hp)
    refine ⟨⟨unmatched, ?_⟩, s, held, state⟩
    rintro ⟨i', hi', hp'⟩
    have same : i = i' := (List.getElem?_inj (List.getElem?_eq_some_iff.mp hp).1
      (h.rTracked_nodup objects valid)).mp (hp.trans hp'.symm)
    exact ((second.unmatchedA_iff i).mp hi).2 (same ▸ hi')
  · rintro ⟨⟨unmatched, unhit⟩, s, held, state⟩
    obtain ⟨i, hp⟩ := List.mem_iff_getElem?.mp
      ((h.mem_rTracked objects valid).mpr ⟨unmatched, s, held, state⟩)
    refine ⟨i, (second.unmatchedA_iff i).mpr ⟨(List.getElem?_eq_some_iff.mp hp).1, ?_⟩, hp⟩
    intro hi
    exact unhit ⟨i, hi, hp⟩

theorem Sound.missed_nodup (h : Sound t next) (objects : List (Object F)) (valid : Valid backend) :
    (missed backend t objects).Nodup := by
  refine List.Nodup.filterMap ?_ (h.second_proper objects valid).unmatchedA_nodup
  intro i i' p hp hp'
  exact (List.getElem?_inj (List.getElem?_eq_some_iff.mp hp).1 (h.rTracked_nodup objects valid)).mp
    (hp.trans hp'.symm)

/-- What one update makes of the track at a pointer. -/
def fate (backend : Backend F) (t : BYTETracker F) (objects : List (Object F)) (p : Nat)
    (s : STrack F) : STrack F :=
  match lookupIn p (visits backend t objects) with
  | some det => hitBy backend (t.frameId + 1) det s.predict
  | none => if s.state = .tracked then s.predict.markLost else s.predict

theorem hit_iff_lookup {p : Nat} :
    Hit backend t objects p ↔ ∃ det, lookupIn p (visits backend t objects) = some det := by
  rw [Hit, ← not_iff_not, ← lookupIn_eq_none, ← Option.ne_none_iff_exists']
  exact not_not.symm

theorem fate_hit {p : Nat} {s : STrack F} (hit : Hit backend t objects p) :
    (fate backend t objects p s).trackId = s.trackId ∧
      (fate backend t objects p s).state = .tracked ∧
      (fate backend t objects p s).isActivated = true ∧
      (fate backend t objects p s).frameId = t.frameId + 1 := by
  obtain ⟨det, hdet⟩ := hit_iff_lookup.mp hit
  obtain ⟨id, state, active, frame, -⟩ := hitBy_spec backend (t.frameId + 1) det s.predict
  rw [fate, hdet]
  exact ⟨id, state, active, frame⟩

theorem fate_unhit {p : Nat} {s : STrack F} (unhit : ¬Hit backend t objects p) :
    fate backend t objects p s = if s.state = .tracked then s.predict.markLost else s.predict := by
  rw [fate, lookupIn_eq_none.mpr unhit]

theorem fate_unhit_spec {p : Nat} {s : STrack F} (unhit : ¬Hit backend t objects p) :
    (fate backend t objects p s).trackId = s.trackId ∧
      (fate backend t objects p s).frameId = s.frameId ∧
      (fate backend t objects p s).state = if s.state = .tracked then .lost else s.state := by
  rw [fate_unhit unhit]
  split <;> exact ⟨rfl, rfl, rfl⟩

theorem fate_trackId {p : Nat} {s : STrack F} :
    (fate backend t objects p s).trackId = s.trackId := by
  by_cases hit : Hit backend t objects p
  · exact (fate_hit hit).1
  · exact (fate_unhit_spec hit).1

def loseIn (_ : Unit) (s : STrack F) : STrack F := if s.state ≠ .lost then s.markLost else s

def loses (_ : Unit) (s : STrack F) : Option (STrack F) :=
  if s.state ≠ .lost then some s.markLost else none

omit [Scalar F] in
theorem markLostAt_store (l : Locals F) (m : Nat × Unit) :
    (markLostAt l m.1).store = l.store.modify m.1 (loseIn m.2) := by
  apply List.ext_getElem?
  intro p
  rw [markLostAt, List.getElem?_modify]
  cases held : l.store[m.1]? with
  | none =>
    by_cases hp : m.1 = p
    · simp [← hp, held]
    · simp [hp]
  | some track =>
    obtain ⟨bound, heq⟩ := List.getElem?_eq_some_iff.mp held
    by_cases hp : m.1 = p
    · subst hp
      by_cases hs : track.state = .lost <;> simp [hs, heq, bound, loseIn]
    · by_cases hs : track.state = .lost <;> simp [hs, hp]

omit [Scalar F] in
theorem markLostAt_lost (l : Locals F) (m : Nat × Unit) :
    (markLostAt l m.1).lost = l.lost ++ ((l.store[m.1]?).bind (loses m.2)).toList := by
  rw [markLostAt]
  cases l.store[m.1]? with
  | none => simp
  | some track => by_cases hs : track.state = .lost <;> simp [hs, loses]

omit [Scalar F] in
theorem markLostAt_rest (l : Locals F) (m : Nat × Unit) :
    (markLostAt l m.1).activated = l.activated ∧ (markLostAt l m.1).refind = l.refind ∧
      (markLostAt l m.1).removed = l.removed := by
  rw [markLostAt]
  split
  · exact ⟨rfl, rfl, rfl⟩
  · split <;> exact ⟨rfl, rfl, rfl⟩

theorem afterLost_eq :
    afterLost backend t objects =
      ((missed backend t objects).map fun p => (p, ())).foldl (fun l m => markLostAt l m.1)
        (afterSecond backend t objects) := by
  rw [afterLost, List.foldl_map]

theorem Sound.store_second (h : Sound t next) (objects : List (Object F)) (valid : Valid backend) (p : Nat) :
    (afterSecond backend t objects).store[p]? = (start t)[p]?.map fun s =>
      written (hitBy backend (t.frameId + 1)) (visits backend t objects) p s.predict := by
  have visits := getElem?_foldl_write Locals.store (hitBy backend (t.frameId + 1))
    (applyMatch_store backend (t.frameId + 1)) (h.visits_nodup objects valid)
    { store := predicted t } p
  rw [afterSecond_eq, visits, h.predicted_eq, List.getElem?_map, Option.map_map]
  rfl

/-- Unconfirmed tracks never exist between updates. -/
theorem Sound.thirdAssignment_eq (h : Sound t next) :
    thirdAssignment backend t objects =
      ⟨[], [], List.range (detectionsCp backend t objects).length⟩ := by
  simp [thirdAssignment, h.unconfirmed_nil, linearAssignment, iouDistance, deref]

/-- So step three changes nothing. -/
theorem Sound.afterThird_eq (h : Sound t next) :
    afterThird backend t objects = afterLost backend t objects := by
  simp [afterThird, h.thirdAssignment_eq, resolve]

theorem Sound.freshDetections_eq (h : Sound t next) :
    freshDetections backend t objects = detectionsCp backend t objects := by
  rw [freshDetections, h.thirdAssignment_eq]
  exact deref_range _

theorem Sound.missed_visits_nodup (h : Sound t next) (objects : List (Object F)) (valid : Valid backend) :
    (((missed backend t objects).map fun p => (p, ())).map Prod.fst).Nodup := by
  simpa [Function.comp_def] using h.missed_nodup objects valid

/-- The store at the end of the associations. -/
theorem Sound.store_fate (h : Sound t next) (objects : List (Object F)) (valid : Valid backend) (p : Nat) :
    (afterThird backend t objects).store[p]? = (start t)[p]?.map (fate backend t objects p) := by
  have marks := getElem?_foldl_write Locals.store loseIn markLostAt_store
    (h.missed_visits_nodup objects valid) (afterSecond backend t objects) p
  rw [h.afterThird_eq, afterLost_eq, marks, h.store_second objects valid, Option.map_map]
  cases held : (start t)[p]? with
  | none => rfl
  | some s =>
    simp only [Option.map_some, Function.comp_apply, Option.some.injEq]
    by_cases hit : Hit backend t objects p
    · obtain ⟨det, hdet⟩ := hit_iff_lookup.mp hit
      rw [written_absent, written, fate, hdet]
      simp only [List.map_map, Function.comp_def, List.map_id']
      exact fun missed => ((h.mem_missed objects valid).mp missed).1 hit
    · rw [fate_unhit hit, written_absent hit]
      by_cases state : s.state = .tracked
      · have found : lookupIn p ((missed backend t objects).map fun p => (p, ())) = some () :=
          (mem_iff_lookupIn (h.missed_visits_nodup objects valid) p ()).mp
            (by simpa using (h.mem_missed objects valid).mpr ⟨hit, s, held, state⟩)
        simp [written, found, state, loseIn]
      · rw [written_absent, if_neg state]
        simp only [List.map_map, Function.comp_def, List.map_id']
        intro missed
        obtain ⟨-, s', held', state'⟩ := (h.mem_missed objects valid).mp missed
        rw [held] at held'
        cases held'
        exact state state'

theorem Sound.store_length (h : Sound t next) (objects : List (Object F)) (valid : Valid backend) :
    (afterThird backend t objects).store.length = (start t).length := by
  apply le_antisymm
  · by_contra longer
    have none := h.store_fate objects valid (start t).length
    simp at none
    omega
  · by_contra shorter
    have none := h.store_fate objects valid
      (afterThird backend t objects).store.length
    simp at none
    omega

theorem Sound.removed_nil (h : Sound t next) : (afterThird backend t objects).removed = [] := by
  rw [h.afterThird_eq, afterLost_eq, foldl_same Locals.removed
    (fun l m => (markLostAt_rest l m).2.2), afterSecond_eq, foldl_same Locals.removed
    (fun l m => (applyMatch_rest backend _ l m).2)]

theorem Sound.visited (h : Sound t next) {p : Nat} {g : STrack F → Option (STrack F)}
    {s' : STrack F} (hs : ((predicted t)[p]?).bind g = some s') :
    ∃ s, (start t)[p]? = some s ∧ g s.predict = some s' := by
  obtain ⟨s, hs, hg⟩ := Option.bind_eq_some_iff.mp hs
  rw [h.predicted_eq, List.getElem?_map] at hs
  obtain ⟨s, held, rfl⟩ := Option.map_eq_some_iff.mp hs
  exact ⟨s, held, hg⟩

theorem Sound.fate_visited (h : Sound t next) (objects : List (Object F)) (valid : Valid backend)
    {p : Nat} {det : STrack F} (hvisit : (p, det) ∈ visits backend t objects) (s : STrack F) :
    hitBy backend (t.frameId + 1) det s.predict = fate backend t objects p s := by
  rw [fate, (mem_iff_lookupIn (h.visits_nodup objects valid) p det).mp hvisit]

/-- Tracked tracks that were hit are activated, others refound; both as their fate says. -/
theorem Sound.mem_activated (h : Sound t next) (objects : List (Object F)) (valid : Valid backend) {s' : STrack F} :
    s' ∈ (afterThird backend t objects).activated ↔ ∃ p s, (start t)[p]? = some s ∧
      Hit backend t objects p ∧ s.state = .tracked ∧ s' = fate backend t objects p s := by
  have output := foldl_output Locals.store Locals.activated (hitBy backend (t.frameId + 1))
    (activates backend (t.frameId + 1)) (applyMatch_store backend (t.frameId + 1))
    (applyMatch_activated backend (t.frameId + 1)) (h.visits_nodup objects valid)
    { store := predicted t }
  rw [h.afterThird_eq, afterLost_eq, foldl_same Locals.activated
    (fun l m => (markLostAt_rest l m).1), afterSecond_eq, output, List.nil_append,
    List.mem_filterMap]
  constructor
  · rintro ⟨⟨p, det⟩, hvisit, hs⟩
    obtain ⟨s, held, emitted⟩ := h.visited hs
    by_cases state : s.predict.state = .tracked
    · rw [activates, if_pos state, Option.some.injEq, h.fate_visited objects valid hvisit s]
        at emitted
      exact ⟨p, s, held, List.mem_map_of_mem hvisit, state, emitted.symm⟩
    · rw [activates, if_neg state] at emitted
      cases emitted
  · rintro ⟨p, s, held, hit, state, rfl⟩
    obtain ⟨⟨q, det⟩, hvisit, rfl⟩ := List.mem_map.mp hit
    refine ⟨(q, det), hvisit, ?_⟩
    simp [h.predicted_eq, held, activates, state, h.fate_visited objects valid hvisit s]

theorem Sound.mem_refind (h : Sound t next) (objects : List (Object F)) (valid : Valid backend)
    {s' : STrack F} :
    s' ∈ (afterThird backend t objects).refind ↔ ∃ p s, (start t)[p]? = some s ∧
      Hit backend t objects p ∧ s.state ≠ .tracked ∧ s' = fate backend t objects p s := by
  have output := foldl_output Locals.store Locals.refind (hitBy backend (t.frameId + 1))
    (refinds backend (t.frameId + 1)) (applyMatch_store backend (t.frameId + 1))
    (applyMatch_refind backend (t.frameId + 1)) (h.visits_nodup objects valid)
    { store := predicted t }
  rw [h.afterThird_eq, afterLost_eq, foldl_same Locals.refind
    (fun l m => (markLostAt_rest l m).2.1), afterSecond_eq, output, List.nil_append,
    List.mem_filterMap]
  constructor
  · rintro ⟨⟨p, det⟩, hvisit, hs⟩
    obtain ⟨s, held, emitted⟩ := h.visited hs
    by_cases state : s.predict.state = .tracked
    · rw [refinds, if_pos state] at emitted
      cases emitted
    · rw [refinds, if_neg state, Option.some.injEq, h.fate_visited objects valid hvisit s]
        at emitted
      exact ⟨p, s, held, List.mem_map_of_mem hvisit, state, emitted.symm⟩
  · rintro ⟨p, s, held, hit, state, rfl⟩
    obtain ⟨⟨q, det⟩, hvisit, rfl⟩ := List.mem_map.mp hit
    refine ⟨(q, det), hvisit, ?_⟩
    simp [h.predicted_eq, held, refinds, state, h.fate_visited objects valid hvisit s]

/-- The newly lost tracks are the tracked ones that nothing hit. -/
theorem Sound.mem_lost (h : Sound t next) (objects : List (Object F)) (valid : Valid backend)
    {s' : STrack F} :
    s' ∈ (afterThird backend t objects).lost ↔ ∃ p s, (start t)[p]? = some s ∧
      ¬Hit backend t objects p ∧ s.state = .tracked ∧ s' = fate backend t objects p s := by
  have output := foldl_output Locals.store Locals.lost loseIn loses markLostAt_store
    markLostAt_lost (h.missed_visits_nodup objects valid) (afterSecond backend t objects)
  have none : (afterSecond backend t objects).lost = [] := by
    rw [afterSecond_eq, foldl_same Locals.lost (fun l m => (applyMatch_rest backend _ l m).1)]
  rw [h.afterThird_eq, afterLost_eq, output, none, List.nil_append, List.filterMap_map,
    List.mem_filterMap]
  constructor
  · rintro ⟨p, hp, hs⟩
    obtain ⟨unhit, s, held, state⟩ := (h.mem_missed objects valid).mp hp
    refine ⟨p, s, held, unhit, state, ?_⟩
    simp only [Function.comp_apply, h.store_second objects valid, held, Option.map_some,
      Option.bind_some, written_absent unhit, loses, predict_state, state, ne_eq, reduceCtorEq,
      not_false_eq_true, if_true, Option.some.injEq] at hs
    rw [fate_unhit unhit, if_pos state, hs]
  · rintro ⟨p, s, held, unhit, state, rfl⟩
    refine ⟨p, (h.mem_missed objects valid).mpr ⟨unhit, s, held, state⟩, ?_⟩
    simp [h.store_second objects valid, held, written_absent unhit, loses, state, fate_unhit unhit]

end Visits

end TrackerSteps
