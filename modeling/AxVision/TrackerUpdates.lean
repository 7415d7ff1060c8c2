import AxVision.TrackerSteps

/-!
# The lists after one update

Which tracks an update holds as tracked, as lost and as removed, told by the
fate of each track it started with, and that the update keeps a tracker sound.
-/

namespace TrackerUpdates

open DetectionTypes STracks TrackAssociation ByteTracker ProperAssignments TrackerSteps
open KeyedLists

universe u

variable {F : Type u} [Scalar F]

section New

/-- New tracks take the ids from the counter on, one each, in order. -/
theorem initNew_spec (highThresh : F) (frameId : Int) (dets : List (STrack F)) (next : Int) :
    (initNew highThresh frameId dets next).2 =
        next + (initNew highThresh frameId dets next).1.length ∧
      ids (initNew highThresh frameId dets next).1 =
        (List.range (initNew highThresh frameId dets next).1.length).map (fun k : Nat => next + (k : Int)) ∧
      ∀ s ∈ (initNew highThresh frameId dets next).1, ∃ det ∈ dets,
        Scalar.lt det.score highThresh = false ∧ s = det.activate frameId s.trackId := by
  induction dets generalizing next with
  | nil => simp [initNew, ids, keys]
  | cons det rest ih =>
    rw [initNew]
    split
    · obtain ⟨count, allotted, source⟩ := ih next
      refine ⟨count, allotted, ?_⟩
      intro s hs
      obtain ⟨d, hd, high⟩ := source s hs
      exact ⟨d, List.mem_cons_of_mem _ hd, high⟩
    · next high =>
      obtain ⟨count, allotted, source⟩ := ih (next + 1)
      have first : (det.activate frameId next).trackId = next := by
        simp only [STrack.activate, STrack.staticTlwh, STrack.staticTlbr]
        split <;> rfl
      refine ⟨by simp only [List.length_cons]; omega, ?_, ?_⟩
      · simp only [ids, keys, List.map_cons, List.length_cons, List.range_succ_eq_map, first,
          List.map_map] at allotted ⊢
        rw [allotted]
        simp only [List.cons.injEq, Nat.cast_zero, Int.add_zero, true_and]
        refine List.map_congr_left fun k _ => ?_
        simp only [Function.comp_apply, Nat.cast_succ]
        omega
      · intro s hs
        rcases List.mem_cons.mp hs with rfl | htail
        · exact ⟨det, List.mem_cons_self, by simpa using high, by rw [first]⟩
        · obtain ⟨d, hd, high⟩ := source s htail
          exact ⟨d, List.mem_cons_of_mem _ hd, high⟩

/-- Detections that all score high each start a track, in order. -/
theorem initNew_getElem? {highThresh : F} {dets : List (STrack F)}
    (high : ∀ det ∈ dets, Scalar.lt det.score highThresh = false) (frameId next : Int) (p : Nat) :
    (initNew highThresh frameId dets next).1[p]? =
      dets[p]?.map fun det => det.activate frameId (next + p) := by
  induction dets generalizing next p with
  | nil => rfl
  | cons det rest ih =>
    have tail := ih (fun d hd => high d (List.mem_cons_of_mem det hd)) (next + 1)
    rw [initNew, high det List.mem_cons_self]
    cases p with
    | zero => simp
    | succ p =>
      have shift : next + 1 + (p : Int) = next + ((p + 1 : Nat) : Int) := by push_cast; omega
      simpa [shift] using tail p

theorem activate_spec (s : STrack F) (frameId trackId : Int) :
    (s.activate frameId trackId).trackId = trackId ∧
      (s.activate frameId trackId).state = .tracked ∧
      (s.activate frameId trackId).isActivated = true ∧
      (s.activate frameId trackId).frameId = frameId := by
  simp only [STrack.activate, STrack.staticTlwh, STrack.staticTlbr]
  split <;> simp

variable (backend : Backend F) (t : BYTETracker F) (objects : List (Object F)) (next : Int)

theorem newTracks_next_le : next ≤ (newTracks backend t objects next).2 := by
  have count := (initNew_spec t.highThresh (t.frameId + 1) (freshDetections backend t objects)
    next).1
  rw [newTracks, count]
  omega

theorem update_nextTrackId :
    (t.update backend objects next).nextTrackId = (newTracks backend t objects next).2 := rfl

theorem update_next_le : next ≤ (t.update backend objects next).nextTrackId := by
  rw [update_nextTrackId]
  exact newTracks_next_le backend t objects next

theorem newTracks_nodup : (ids (newTracks backend t objects next).1).Nodup := by
  rw [newTracks, (initNew_spec _ _ _ _).2.1]
  exact List.nodup_range.map fun _ _ h => by omega

variable {backend t objects next}

theorem newTracks_spec {s : STrack F} (h : s ∈ (newTracks backend t objects next).1) :
    next ≤ s.trackId ∧ s.trackId < (newTracks backend t objects next).2 ∧ s.state = .tracked ∧
      s.isActivated = true ∧ s.frameId = t.frameId + 1 := by
  obtain ⟨count, allotted, source⟩ := initNew_spec t.highThresh (t.frameId + 1)
    (freshDetections backend t objects) next
  have hid : s.trackId ∈ ids (newTracks backend t objects next).1 := List.mem_map_of_mem h
  rw [newTracks, allotted, List.mem_map] at hid
  obtain ⟨k, hk, hid⟩ := hid
  obtain ⟨det, -, -, hs⟩ := source s h
  obtain ⟨-, state, active, frame⟩ := activate_spec det (t.frameId + 1) s.trackId
  rw [List.mem_range] at hk
  rw [newTracks, count]
  rw [← hs] at state active frame
  exact ⟨by omega, by omega, state, active, frame⟩

end New

section Merge

variable {backend : Backend F} {t : BYTETracker F} {next : Int}

omit [Scalar F] in
/-- The first list of the store is the tracked tracks, the second the others. -/
theorem tracked_iff (h : Sound t next) {p : Nat} {s : STrack F}
    (held : (start t)[p]? = some s) : s.state = .tracked ↔ p < t.trackedStracks.length := by
  rw [start, List.getElem?_append] at held
  split at held
  · next hp => exact ⟨fun _ => hp, fun _ => (h.tracked s (List.mem_of_getElem? held)).2.1⟩
  · next hp =>
    exact ⟨fun state => absurd state (h.lost s (List.mem_of_getElem? held)).1,
      fun hlt => absurd hlt hp⟩

theorem mem_stillTracked (h : Sound t next) (objects : List (Object F))
    (valid : Valid backend) {s' : STrack F} :
    s' ∈ stillTracked backend t objects ↔ ∃ p s, (start t)[p]? = some s ∧
      Hit backend t objects p ∧ s.state = .tracked ∧ s' = fate backend t objects p s := by
  rw [stillTracked, List.mem_filter, List.mem_iff_getElem?]
  constructor
  · rintro ⟨⟨p, hp⟩, state⟩
    rw [List.getElem?_take] at hp
    split at hp
    · next bound =>
      rw [h.store_fate objects valid] at hp
      obtain ⟨s, held, rfl⟩ := Option.map_eq_some_iff.mp hp
      have before := (tracked_iff h held).mpr bound
      refine ⟨p, s, held, ?_, before, rfl⟩
      by_contra unhit
      simp [(fate_unhit_spec unhit).2.2, before] at state
    · cases hp
  · rintro ⟨p, s, held, hit, state, rfl⟩
    refine ⟨⟨p, ?_⟩, by simp [(fate_hit hit).2.1]⟩
    rw [List.getElem?_take, if_pos ((tracked_iff h held).mp state),
      h.store_fate objects valid, held]
    rfl

theorem mem_dropped (h : Sound t next) (objects : List (Object F)) (valid : Valid backend)
    {s' : STrack F} :
    s' ∈ (afterThird backend t objects).store.drop t.trackedStracks.length ↔
      ∃ p s, (start t)[p]? = some s ∧ s.state ≠ .tracked ∧ s' = fate backend t objects p s := by
  rw [List.mem_iff_getElem?]
  constructor
  · rintro ⟨i, hi⟩
    rw [List.getElem?_drop, h.store_fate objects valid] at hi
    obtain ⟨s, held, rfl⟩ := Option.map_eq_some_iff.mp hi
    exact ⟨_, s, held, fun state => by have := (tracked_iff h held).mp state; omega, rfl⟩
  · rintro ⟨p, s, held, state, rfl⟩
    have beyond : t.trackedStracks.length ≤ p :=
      not_lt.mp fun hp => state ((tracked_iff h held).mpr hp)
    refine ⟨p - t.trackedStracks.length, ?_⟩
    rw [List.getElem?_drop, h.store_fate objects valid,
      show t.trackedStracks.length + (p - t.trackedStracks.length) = p by omega, held]
    rfl

/-- The tracks an update holds as tracked before duplicates go: hit or new. -/
def Current (backend : Backend F) (t : BYTETracker F) (objects : List (Object F)) (next : Int)
    (s' : STrack F) : Prop :=
  (∃ p s, (start t)[p]? = some s ∧ Hit backend t objects p ∧ s' = fate backend t objects p s) ∨
    s' ∈ (newTracks backend t objects next).1

omit [Scalar F] in
theorem id_lt (h : Sound t next) {p : Nat} {s : STrack F} (held : (start t)[p]? = some s) :
    1 ≤ s.trackId ∧ s.trackId < next :=
  h.allotted s (List.mem_of_getElem? held)

theorem current_unique (h : Sound t next) {objects : List (Object F)} {a b : STrack F}
    (ha : Current backend t objects next a) (hb : Current backend t objects next b)
    (same : a.trackId = b.trackId) : a = b := by
  rcases ha with ⟨p, s, held, hit, rfl⟩ | hnew
  · rcases hb with ⟨q, s', held', hit', rfl⟩ | hnew'
    · rw [fate_trackId, fate_trackId] at same
      have hpq := h.pointer_inj held held' same
      subst hpq
      rw [held] at held'
      cases held'
      rfl
    · have := (id_lt h held).2
      have := (newTracks_spec hnew').1
      rw [fate_trackId] at same
      omega
  · rcases hb with ⟨q, s', held', hit', rfl⟩ | hnew'
    · have := (id_lt h held').2
      have := (newTracks_spec hnew).1
      rw [fate_trackId] at same
      omega
    · exact List.inj_on_of_nodup_map (newTracks_nodup backend t objects next) hnew hnew' same

theorem mem_trackedMerged (h : Sound t next) (objects : List (Object F))
    (valid : Valid backend) {s' : STrack F} :
    s' ∈ trackedMerged backend t objects next ↔ Current backend t objects next s' := by
  have old : ∀ s' ∈ stillTracked backend t objects, Current backend t objects next s' := by
    intro s' hs
    obtain ⟨p, s, held, hit, -, heq⟩ := (mem_stillTracked h objects valid).mp hs
    exact Or.inl ⟨p, s, held, hit, heq⟩
  have active : ∀ s' ∈ activatedStracks backend t objects next,
      Current backend t objects next s' := by
    intro s' hs
    rcases List.mem_append.mp hs with hold | hnew
    · obtain ⟨p, s, held, hit, -, heq⟩ := (h.mem_activated objects valid).mp hold
      exact Or.inl ⟨p, s, held, hit, heq⟩
    · exact Or.inr hnew
  have found : ∀ s' ∈ refindStracks backend t objects, Current backend t objects next s' := by
    intro s' hs
    obtain ⟨p, s, held, hit, -, heq⟩ := (h.mem_refind objects valid).mp hs
    exact Or.inl ⟨p, s, held, hit, heq⟩
  have inner : ∀ s' ∈ jointStracks (stillTracked backend t objects)
      (activatedStracks backend t objects next), Current backend t objects next s' := by
    intro s' hs
    rcases mem_union_sub hs with hold | hactive
    · exact old s' hold
    · exact active s' hactive
  have unique : ∀ {l : List (STrack F)}, (∀ s ∈ l, Current backend t objects next s) →
      Consistent STrack.trackId l :=
    fun all a ha b hb same => current_unique h (all a ha) (all b hb) same
  rw [trackedMerged, jointStracks,
    mem_union (unique (List.forall_mem_append.mpr ⟨inner, found⟩)), jointStracks,
    mem_union (unique (List.forall_mem_append.mpr ⟨old, active⟩))]
  constructor
  · rintro ((hold | hactive) | hfound)
    · exact old s' hold
    · exact active s' hactive
    · exact found s' hfound
  · rintro (⟨p, s, held, hit, rfl⟩ | hnew)
    · by_cases state : s.state = .tracked
      · exact Or.inl (Or.inl ((mem_stillTracked h objects valid).mpr
          ⟨p, s, held, hit, state, rfl⟩))
      · exact Or.inr ((h.mem_refind objects valid).mpr ⟨p, s, held, hit, state, rfl⟩)
    · exact Or.inl (Or.inr (List.mem_append_right _ hnew))

theorem ids_store (h : Sound t next) (objects : List (Object F)) (valid : Valid backend) :
    ids (afterThird backend t objects).store = ids (start t) := by
  apply List.ext_getElem?
  intro p
  rw [ids, ids, keys, keys, List.getElem?_map, List.getElem?_map, h.store_fate objects valid,
    Option.map_map]
  cases (start t)[p]? with
  | none => rfl
  | some s => simp [fate_trackId]

theorem trackedMerged_nodup (h : Sound t next) (objects : List (Object F))
    (valid : Valid backend) : (ids (trackedMerged backend t objects next)).Nodup := by
  apply union_nodup
  apply union_nodup
  have sub : (stillTracked backend t objects).Sublist (afterThird backend t objects).store :=
    List.filter_sublist.trans (List.take_sublist _ _)
  have all : (keys STrack.trackId (afterThird backend t objects).store).Nodup := by
    have := h.distinct
    rwa [← ids_store h objects valid] at this
  exact all.sublist (sub.map _)

def markIfOverdue (t : BYTETracker F) (s : STrack F) : STrack F :=
  if overdue t s then s.markRemoved else s

omit [Scalar F] in
theorem markIfOverdue_spec (t : BYTETracker F) (s : STrack F) :
    (markIfOverdue t s).trackId = s.trackId ∧ (markIfOverdue t s).frameId = s.frameId ∧
      (s.state ≠ .tracked → (markIfOverdue t s).state ≠ .tracked) := by
  rw [markIfOverdue]
  split
  · exact ⟨rfl, rfl, fun _ h => by cases h⟩
  · exact ⟨rfl, rfl, id⟩

/-- The tracks an update holds as lost before duplicates go: lost before or just
missed, and not among the removals of the frame before. -/
def Missing (backend : Backend F) (t : BYTETracker F) (objects : List (Object F))
    (s' : STrack F) : Prop :=
  ∃ p s, (start t)[p]? = some s ∧ ¬Hit backend t objects p ∧
    s' = if s.state = .tracked then fate backend t objects p s
      else markIfOverdue t (fate backend t objects p s)

theorem missing_trackId {objects : List (Object F)} {p : Nat} {s : STrack F} :
    (if s.state = .tracked then fate backend t objects p s
      else markIfOverdue t (fate backend t objects p s)).trackId = s.trackId := by
  split
  · exact fate_trackId
  · rw [(markIfOverdue_spec t _).1, fate_trackId]

theorem missing_unique (h : Sound t next) {objects : List (Object F)} {a b : STrack F}
    (ha : Missing backend t objects a) (hb : Missing backend t objects b)
    (same : a.trackId = b.trackId) : a = b := by
  obtain ⟨p, s, held, -, rfl⟩ := ha
  obtain ⟨q, s', held', -, rfl⟩ := hb
  rw [missing_trackId, missing_trackId] at same
  have hpq := h.pointer_inj held held' same
  subst hpq
  rw [held] at held'
  cases held'
  rfl

/-- No track is both hit and missing, and no new id is an old one. -/
theorem missing_not_current (h : Sound t next) {objects : List (Object F)} {a b : STrack F}
    (ha : Missing backend t objects a) (hb : Current backend t objects next b) :
    a.trackId ≠ b.trackId := by
  intro same
  obtain ⟨p, s, held, unhit, rfl⟩ := ha
  rw [missing_trackId] at same
  rcases hb with ⟨q, s', held', hit, rfl⟩ | hnew
  · rw [fate_trackId] at same
    have hpq := h.pointer_inj held held' same
    subst hpq
    exact unhit hit
  · have := (id_lt h held).2
    have := (newTracks_spec hnew).1
    omega

theorem mem_lostMerged (h : Sound t next) (objects : List (Object F)) (valid : Valid backend)
    {s' : STrack F} :
    s' ∈ lostMerged backend t objects next ↔
      Missing backend t objects s' ∧ s'.trackId ∉ ids t.removedStracks := by
  have marked : ∀ s', s' ∈ lostMarked backend t objects ↔ ∃ p s, (start t)[p]? = some s ∧
      s.state ≠ .tracked ∧ s' = markIfOverdue t (fate backend t objects p s) := by
    intro s'
    rw [lostMarked, List.mem_map]
    constructor
    · rintro ⟨x, hx, rfl⟩
      obtain ⟨p, s, held, state, rfl⟩ := (mem_dropped h objects valid).mp hx
      exact ⟨p, s, held, state, rfl⟩
    · rintro ⟨p, s, held, state, rfl⟩
      exact ⟨_, (mem_dropped h objects valid).mpr ⟨p, s, held, state, rfl⟩, rfl⟩
  have still : ∀ s', s' ∈ subStracks (lostMarked backend t objects)
      (trackedMerged backend t objects next) ↔ ∃ p s, (start t)[p]? = some s ∧
        s.state ≠ .tracked ∧ ¬Hit backend t objects p ∧
          s' = markIfOverdue t (fate backend t objects p s) := by
    intro s'
    have consistent : Consistent STrack.trackId (lostMarked backend t objects) := by
      intro a ha b hb same
      obtain ⟨p, s, held, -, rfl⟩ := (marked a).mp ha
      obtain ⟨q, s', held', -, rfl⟩ := (marked b).mp hb
      rw [(markIfOverdue_spec t _).1, (markIfOverdue_spec t _).1, fate_trackId,
        fate_trackId] at same
      have hpq := h.pointer_inj held held' same
      subst hpq
      rw [held] at held'
      cases held'
      rfl
    rw [subStracks, mem_difference consistent, marked]
    constructor
    · rintro ⟨⟨p, s, held, state, rfl⟩, fresh⟩
      refine ⟨p, s, held, state, ?_, rfl⟩
      intro hit
      apply fresh
      refine List.mem_map.mpr ⟨fate backend t objects p s,
        (mem_trackedMerged h objects valid).mpr (Or.inl ⟨p, s, held, hit, rfl⟩), ?_⟩
      exact (markIfOverdue_spec t _).1.symm
    · rintro ⟨p, s, held, state, unhit, rfl⟩
      refine ⟨⟨p, s, held, state, rfl⟩, ?_⟩
      intro hmem
      obtain ⟨b, hb, same⟩ := List.mem_map.mp hmem
      have missing : Missing backend t objects (markIfOverdue t (fate backend t objects p s)) :=
        ⟨p, s, held, unhit, by rw [if_neg state]⟩
      exact missing_not_current h missing ((mem_trackedMerged h objects valid).mp hb) same.symm
  have both : ∀ s', s' ∈ subStracks (lostMarked backend t objects)
      (trackedMerged backend t objects next) ++ (afterThird backend t objects).lost ↔
        Missing backend t objects s' := by
    intro s'
    rw [List.mem_append, still, h.mem_lost objects valid]
    constructor
    · rintro (⟨p, s, held, state, unhit, rfl⟩ | ⟨p, s, held, unhit, state, rfl⟩)
      · exact ⟨p, s, held, unhit, by rw [if_neg state]⟩
      · exact ⟨p, s, held, unhit, by rw [if_pos state]⟩
    · rintro ⟨p, s, held, unhit, rfl⟩
      by_cases state : s.state = .tracked
      · exact Or.inr ⟨p, s, held, unhit, state, by rw [if_pos state]⟩
      · exact Or.inl ⟨p, s, held, state, unhit, by rw [if_neg state]⟩
  have consistent : Consistent STrack.trackId (subStracks (lostMarked backend t objects)
      (trackedMerged backend t objects next) ++ (afterThird backend t objects).lost) :=
    fun a ha b hb same => missing_unique h ((both a).mp ha) ((both b).mp hb) same
  rw [lostMerged, subStracks, mem_difference consistent, both, ids]

theorem lostMerged_nodup (objects : List (Object F)) :
    (ids (lostMerged backend t objects next)).Nodup :=
  (difference_ordered _ _).nodup

/-- `removed_stracks` after an update: the lost tracks that were overdue. -/
theorem mem_removedNow (h : Sound t next) (objects : List (Object F)) (valid : Valid backend)
    {s' : STrack F} :
    s' ∈ removedNow backend t objects ↔ ∃ p s, (start t)[p]? = some s ∧ s.state ≠ .tracked ∧
      overdue t (fate backend t objects p s) = true ∧
        s' = (fate backend t objects p s).markRemoved := by
  rw [removedNow, h.removed_nil, List.nil_append, List.mem_filterMap]
  constructor
  · rintro ⟨x, hx, hs⟩
    obtain ⟨p, s, held, state, rfl⟩ := (mem_dropped h objects valid).mp hx
    by_cases late : overdue t (fate backend t objects p s) = true
    · rw [if_pos late] at hs
      cases hs
      exact ⟨p, s, held, state, late, rfl⟩
    · rw [if_neg late] at hs
      cases hs
  · rintro ⟨p, s, held, state, late, rfl⟩
    exact ⟨_, (mem_dropped h objects valid).mpr ⟨p, s, held, state, rfl⟩, by rw [if_pos late]⟩

omit [Scalar F] in
theorem dropIndices_nil (l : List (STrack F)) : dropIndices l [] = l := by
  rw [dropIndices, List.filter_eq_self.mpr (by simp), List.zipIdx_map_fst]

/-- Without lost tracks there are no duplicates. -/
theorem removeDuplicateStracks_nil (a : List (STrack F)) :
    removeDuplicateStracks a [] = (a, []) := by
  simp only [removeDuplicateStracks, duplicatePairs, iouDistance, List.length_nil, Nat.mul_zero,
    if_true, List.zipIdx_nil, List.flatMap_nil, List.filter_nil, List.map_nil, dropIndices_nil]

theorem nil_removeDuplicateStracks (b : List (STrack F)) :
    removeDuplicateStracks [] b = ([], b) := by
  simp only [removeDuplicateStracks, duplicatePairs, iouDistance, List.length_nil, Nat.zero_mul,
    if_true, List.zipIdx_nil, List.flatMap_nil, List.filter_nil, List.map_nil, dropIndices_nil]

end Merge

section Update

variable {backend : Backend F} {t : BYTETracker F} {next : Int}

theorem tracked_sublist (objects : List (Object F)) :
    (t.update backend objects next).tracker.trackedStracks.Sublist
      (trackedMerged backend t objects next) :=
  (removeDuplicateStracks_sublist _ _).1

theorem lost_sublist (objects : List (Object F)) :
    (t.update backend objects next).tracker.lostStracks.Sublist
      (lostMerged backend t objects next) :=
  (removeDuplicateStracks_sublist _ _).2

theorem current_spec {objects : List (Object F)} {s : STrack F}
    (h : Current backend t objects next s) :
    s.isActivated = true ∧ s.state = .tracked ∧ s.frameId = t.frameId + 1 := by
  rcases h with ⟨p, s, -, hit, rfl⟩ | hnew
  · obtain ⟨-, state, active, frame⟩ := fate_hit (s := s) hit
    exact ⟨active, state, frame⟩
  · obtain ⟨-, -, state, active, frame⟩ := newTracks_spec hnew
    exact ⟨active, state, frame⟩

theorem missing_spec (h : Sound t next) {objects : List (Object F)} {s : STrack F}
    (hs : Missing backend t objects s) : s.state ≠ .tracked ∧ s.frameId ≤ t.frameId := by
  obtain ⟨p, s, held, unhit, rfl⟩ := hs
  obtain ⟨-, frame, state⟩ := fate_unhit_spec (s := s) unhit
  have old : s.frameId ≤ t.frameId := by
    rcases List.mem_append.mp (List.mem_of_getElem? held) with htracked | hlost
    · exact le_of_eq (h.tracked s htracked).2.2
    · exact le_of_lt (h.lost s hlost).2
  split
  · next was =>
    rw [state, if_pos was, frame]
    exact ⟨by simp, old⟩
  · next was =>
    obtain ⟨-, same, untracked⟩ := markIfOverdue_spec t (fate backend t objects p s)
    refine ⟨untracked ?_, by rw [same, frame]; exact old⟩
    rw [state, if_neg was]
    exact was

/-- A tracker that holds nothing starts tracks for all detections that score high. -/
theorem update_empty (h : Sound t next) (objects : List (Object F)) (valid : Valid backend)
    (empty : start t = []) :
    (t.update backend objects next).tracker.trackedStracks =
        (initNew t.highThresh (t.frameId + 1) (detectionsHigh t objects) next).1 ∧
      (t.update backend objects next).tracker.lostStracks = [] := by
  have fresh : freshDetections backend t objects = detectionsHigh t objects := by
    have pool : strackPool t = [] := by rw [h.pool_eq, empty]; rfl
    rw [h.freshDetections_eq, detectionsCp, firstAssignment, pool]
    simpa [linearAssignment, iouDistance, deref] using deref_range (detectionsHigh t objects)
  have current : ∀ s, Current backend t objects next s →
      s ∈ (newTracks backend t objects next).1 := by
    rintro s (⟨p, s', held, -⟩ | hnew)
    · simp [empty] at held
    · exact hnew
  have still : stillTracked backend t objects = [] := by
    refine List.eq_nil_iff_forall_not_mem.mpr fun s hs => ?_
    obtain ⟨p, s', held, -⟩ := (mem_stillTracked h objects valid).mp hs
    simp [empty] at held
  have activated : (afterThird backend t objects).activated = [] := by
    refine List.eq_nil_iff_forall_not_mem.mpr fun s hs => ?_
    obtain ⟨p, s', held, -⟩ := (h.mem_activated objects valid).mp hs
    simp [empty] at held
  have refind : refindStracks backend t objects = [] := by
    refine List.eq_nil_iff_forall_not_mem.mpr fun s hs => ?_
    obtain ⟨p, s', held, -⟩ := (h.mem_refind objects valid).mp hs
    simp [empty] at held
  have merged : trackedMerged backend t objects next = (newTracks backend t objects next).1 := by
    rw [trackedMerged, still, refind, activatedStracks, activated, List.nil_append, jointStracks,
      jointStracks, union_of_subset (m := []) (by simp),
      union_eq_append (newTracks_nodup backend t objects next) (by simp [keys]), List.nil_append]
  have lost : lostMerged backend t objects next = [] := by
    refine List.eq_nil_iff_forall_not_mem.mpr fun s hs => ?_
    obtain ⟨⟨p, s', held, -⟩, -⟩ := (mem_lostMerged h objects valid).mp hs
    simp [empty] at held
  simp only [BYTETracker.update, merged, lost, removeDuplicateStracks_nil, newTracks, fresh,
    and_self]

theorem unhit_nothing (p : Nat) : ¬Hit backend t [] p := by
  intro hit
  obtain ⟨⟨q, det⟩, hvisit, -⟩ := List.mem_map.mp hit
  rcases List.mem_append.mp hvisit with hfirst | hsecond
  · obtain ⟨m, -, -, hdet⟩ := mem_resolve.mp hfirst
    simp [detectionsHigh] at hdet
  · obtain ⟨m, -, -, hdet⟩ := mem_resolve.mp hsecond
    simp [detectionsLow] at hdet

/-- A frame without detections hits nothing, starts nothing and finds no duplicates. -/
theorem update_nothing (h : Sound t next) (valid : Valid backend) :
    trackedMerged backend t [] next = [] ∧
      (t.update backend [] next).tracker.lostStracks = lostMerged backend t [] next ∧
      (t.update backend [] next).nextTrackId = next := by
  have fresh : freshDetections backend t [] = [] := by
    rw [h.freshDetections_eq, detectionsCp]
    simp [detectionsHigh]
  have none : trackedMerged backend t [] next = [] := by
    refine List.eq_nil_iff_forall_not_mem.mpr fun s hs => ?_
    rcases (mem_trackedMerged h [] valid).mp hs with ⟨p, s', -, hit, -⟩ | hnew
    · exact unhit_nothing p hit
    · rw [newTracks, fresh] at hnew
      cases hnew
  refine ⟨none, ?_, ?_⟩
  · simp only [BYTETracker.update, none, nil_removeDuplicateStracks]
  · simp only [BYTETracker.update, newTracks, fresh, initNew]

/-- Where every track is hit and nothing is new, the tracks stay as they stand. -/
theorem update_all_hit (h : Sound t next) (objects : List (Object F)) (valid : Valid backend)
    (lost : t.lostStracks = []) (hit : ∀ p, p < (start t).length → Hit backend t objects p)
    (fresh : freshDetections backend t objects = []) :
    (t.update backend objects next).tracker.trackedStracks = (afterThird backend t objects).store ∧
      (t.update backend objects next).tracker.lostStracks = [] := by
  have tracked : ∀ {p : Nat} {s : STrack F}, (start t)[p]? = some s → s.state = .tracked := by
    intro p s held
    have bound := (List.getElem?_eq_some_iff.mp held).1
    rw [tracked_iff h held]
    simpa [start, lost] using bound
  have new : (newTracks backend t objects next).1 = [] := by rw [newTracks, fresh]; rfl
  have still : stillTracked backend t objects = (afterThird backend t objects).store := by
    have length := h.store_length objects valid
    rw [stillTracked, List.take_of_length_le (by rw [length, start, lost]; simp),
      List.filter_eq_self.mpr]
    intro s hs
    obtain ⟨p, hp⟩ := List.mem_iff_getElem?.mp hs
    rw [h.store_fate objects valid] at hp
    obtain ⟨s', held, rfl⟩ := Option.map_eq_some_iff.mp hp
    simp [(fate_hit (hit p (List.getElem?_eq_some_iff.mp held).1)).2.1]
  have activated : ∀ s ∈ activatedStracks backend t objects next,
      s.trackId ∈ keys STrack.trackId (afterThird backend t objects).store := by
    intro s hs
    rw [activatedStracks, new, List.append_nil] at hs
    obtain ⟨p, s', held, -, -, rfl⟩ := (h.mem_activated objects valid).mp hs
    change _ ∈ ids _
    rw [ids_store h objects valid, fate_trackId]
    exact List.mem_map_of_mem (List.mem_of_getElem? held)
  have refind : refindStracks backend t objects = [] := by
    refine List.eq_nil_iff_forall_not_mem.mpr fun s hs => ?_
    obtain ⟨p, s', held, -, state, -⟩ := (h.mem_refind objects valid).mp hs
    exact state (tracked held)
  have merged : trackedMerged backend t objects next = (afterThird backend t objects).store := by
    rw [trackedMerged, still, refind, jointStracks, jointStracks,
      union_of_subset (m := []) (by simp), union_of_subset activated]
  have none : lostMerged backend t objects next = [] := by
    refine List.eq_nil_iff_forall_not_mem.mpr fun s hs => ?_
    obtain ⟨⟨p, s', held, unhit, -⟩, -⟩ := (mem_lostMerged h objects valid).mp hs
    exact unhit (hit p (List.getElem?_eq_some_iff.mp held).1)
  simp only [BYTETracker.update, merged, none, removeDuplicateStracks_nil, and_self]

/-- The tracks an update holds were held before or are new. -/
theorem update_ids (h : Sound t next) (objects : List (Object F)) (valid : Valid backend) {id : Int}
    (hid : id ∈ ids (start (t.update backend objects next).tracker)) :
    id ∈ ids (start t) ∨ next ≤ id := by
  obtain ⟨s, hs, rfl⟩ := List.mem_map.mp hid
  have old : ∀ (p : Nat) (s : STrack F), (start t)[p]? = some s → s.trackId ∈ ids (start t) :=
    fun p s held => List.mem_map_of_mem (List.mem_of_getElem? held)
  rcases List.mem_append.mp hs with htracked | hlost
  · have current := (mem_trackedMerged h objects valid).mp ((tracked_sublist objects).subset htracked)
    rcases current with ⟨p, s, held, -, rfl⟩ | hnew
    · rw [fate_trackId]
      exact Or.inl (old p s held)
    · exact Or.inr (newTracks_spec hnew).1
  · obtain ⟨⟨p, s, held, -, rfl⟩, -⟩ :=
      (mem_lostMerged h objects valid).mp ((lost_sublist objects).subset hlost)
    rw [missing_trackId]
    exact Or.inl (old p s held)

/-- An update keeps a tracker sound and only moves the counter forward. -/
theorem update_sound (h : Sound t next) (one_le : 1 ≤ next) (objects : List (Object F))
    (valid : Valid backend) :
    Sound (t.update backend objects next).tracker (t.update backend objects next).nextTrackId ∧
      next ≤ (t.update backend objects next).nextTrackId := by
  have forward := update_next_le backend t objects next
  have current : ∀ s ∈ (t.update backend objects next).tracker.trackedStracks,
      Current backend t objects next s :=
    fun s hs => (mem_trackedMerged h objects valid).mp ((tracked_sublist objects).subset hs)
  have missing : ∀ s ∈ (t.update backend objects next).tracker.lostStracks,
      Missing backend t objects s :=
    fun s hs => ((mem_lostMerged h objects valid).mp ((lost_sublist objects).subset hs)).1
  refine ⟨⟨?_, ?_, ?_, ?_⟩, forward⟩
  · rw [ids, start, keys, List.map_append, List.nodup_append]
    refine ⟨(trackedMerged_nodup h objects valid).sublist ((tracked_sublist objects).map _),
      (lostMerged_nodup objects).sublist ((lost_sublist objects).map _), ?_⟩
    rintro k hk k' hk' rfl
    obtain ⟨a, ha, rfl⟩ := List.mem_map.mp hk
    obtain ⟨b, hb, same⟩ := List.mem_map.mp hk'
    exact missing_not_current h (missing b hb) (current a ha) same
  · intro s hs
    rcases List.mem_append.mp hs with htracked | hlost
    · rcases current s htracked with ⟨p, s, held, -, rfl⟩ | hnew
      · have := id_lt h held
        rw [fate_trackId]
        exact ⟨this.1, lt_of_lt_of_le this.2 forward⟩
      · have := newTracks_spec hnew
        rw [update_nextTrackId]
        exact ⟨le_trans one_le this.1, this.2.1⟩
    · obtain ⟨p, s, held, -, rfl⟩ := missing s hlost
      have := id_lt h held
      rw [missing_trackId]
      exact ⟨this.1, lt_of_lt_of_le this.2 forward⟩
  · intro s hs
    obtain ⟨active, state, frame⟩ := current_spec (current s hs)
    exact ⟨active, state, frame⟩
  · intro s hs
    obtain ⟨state, frame⟩ := missing_spec h (missing s hs)
    exact ⟨state, Int.lt_add_one_of_le frame⟩

end Update

end TrackerUpdates
