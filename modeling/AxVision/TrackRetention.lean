import AxVision.StationaryTracks

/-!
# How long a lost track is kept

A track that is no longer matched stays lost for `max_time_lost` frames and one
more: it is marked overdue in one frame and taken out, through the list of
removals, in the next.
-/

namespace TrackRetention

open DetectionTypes STracks TrackAssociation ByteTracker ProperAssignments TrackerSteps
open TrackerUpdates

universe u

variable {F : Type u} [Scalar F]

section Removals

variable {backend : Backend F} {t : BYTETracker F} {next : Int}

/-- The removals of the last frame are the lost tracks that were overdue in it. -/
structure RemovalsAgree (t : BYTETracker F) : Prop where
  lost : ∀ s ∈ t.lostStracks,
    s.trackId ∈ ids t.removedStracks ↔ t.maxTimeLost < t.frameId - s.frameId
  tracked : ∀ s ∈ t.trackedStracks, s.trackId ∉ ids t.removedStracks

theorem removed_iff (h : Sound t next) (objects : List (Object F)) (valid : Valid backend)
    {p : Nat} {s : STrack F} (held : (start t)[p]? = some s) :
    s.trackId ∈ ids (removedNow backend t objects) ↔
      s.state ≠ .tracked ∧ overdue t (fate backend t objects p s) = true := by
  constructor
  · intro hid
    obtain ⟨s', hs', same⟩ := List.mem_map.mp hid
    obtain ⟨q, s'', held', state, late, rfl⟩ := (mem_removedNow h objects valid).mp hs'
    have hpq : q = p := h.pointer_inj held' held (fate_trackId.symm.trans same)
    subst hpq
    rw [held] at held'
    cases held'
    exact ⟨state, late⟩
  · rintro ⟨state, late⟩
    refine List.mem_map.mpr ⟨_, (mem_removedNow h objects valid).mpr ⟨p, s, held, state, late, rfl⟩, ?_⟩
    exact fate_trackId

/-- A track seen in this frame is not overdue, however often it was lost before. -/
theorem not_overdue_hit (long : 1 ≤ t.maxTimeLost) {objects : List (Object F)} {p : Nat}
    {s : STrack F} (hit : Hit backend t objects p) :
    overdue t (fate backend t objects p s) = false := by
  have frame := (fate_hit (s := s) hit).2.2.2
  simp only [overdue, STrack.endFrame, frame, decide_eq_false_iff_not]
  omega

theorem overdue_unhit {objects : List (Object F)} {p : Nat} {s : STrack F}
    (unhit : ¬Hit backend t objects p) :
    overdue t (fate backend t objects p s) = true ↔
      t.maxTimeLost < t.frameId + 1 - s.frameId := by
  rw [overdue, STrack.endFrame, (fate_unhit_spec unhit).2.1, decide_eq_true_eq]

theorem missing_frameId {objects : List (Object F)} {p : Nat} {s : STrack F}
    (unhit : ¬Hit backend t objects p) :
    (if s.state = .tracked then fate backend t objects p s
      else markIfOverdue t (fate backend t objects p s)).frameId = s.frameId := by
  have frame := (fate_unhit_spec (s := s) unhit).2.1
  split
  · exact frame
  · exact (markIfOverdue_spec t _).2.1.trans frame

/-- Whatever the list of removals was before, an update brings it in line. -/
theorem update_removals (h : Sound t next) (long : 1 ≤ t.maxTimeLost) (objects : List (Object F))
    (valid : Valid backend) : RemovalsAgree (t.update backend objects next).tracker := by
  refine ⟨?_, ?_⟩
  · intro s' hs'
    obtain ⟨⟨p, s, held, unhit, rfl⟩, -⟩ :=
      (mem_lostMerged h objects valid).mp ((lost_sublist objects).subset hs')
    rw [missing_trackId, missing_frameId unhit]
    refine (removed_iff h objects valid held).trans ?_
    rw [overdue_unhit unhit]
    change _ ↔ t.maxTimeLost < t.frameId + 1 - s.frameId
    refine ⟨fun h => h.2, fun late => ⟨?_, late⟩⟩
    -- a track that was tracked until now has been missing for one frame only
    intro state
    have before := (tracked_iff h held).mp state
    rw [start, List.getElem?_append_left before] at held
    have := (h.tracked s (List.mem_of_getElem? held)).2.2
    omega
  · intro s' hs' removed
    rcases (mem_trackedMerged h objects valid).mp ((tracked_sublist objects).subset hs') with
      ⟨p, s, held, hit, rfl⟩ | hnew
    · rw [fate_trackId] at removed
      have late := ((removed_iff h objects valid held).mp removed).2
      rw [not_overdue_hit long hit] at late
      cases late
    · obtain ⟨x, hx, same⟩ := List.mem_map.mp removed
      obtain ⟨p, s, held, -, -, rfl⟩ := (mem_removedNow h objects valid).mp hx
      have old := (id_lt h held).2
      have fresh := (newTracks_spec hnew).1
      have : s.trackId = s'.trackId := fate_trackId.symm.trans same
      omega

end Removals

section Calls

/-- The arguments of the calls of `update`: frame `n + 1` is call `n`. -/
structure Calls (F : Type u) where
  objects : Nat → List (Object F)
  nextTrackId : Nat → Int

variable (backend : Backend F) (config : BYTETrackerConfig F) (calls : Calls F)

/-- The tracker at the end of each frame. -/
def atEnd : Nat → BYTETracker F
  | 0 => .ofConfig config
  | n + 1 => ((atEnd n).update backend (calls.objects n) (calls.nextTrackId n)).tracker

/-- The caller hands in the counter it got back, or a later value. -/
structure Counted : Prop where
  one_le : 1 ≤ calls.nextTrackId 0
  grows : ∀ n, ((atEnd backend config calls n).update backend (calls.objects n)
    (calls.nextTrackId n)).nextTrackId ≤ calls.nextTrackId (n + 1)

/-- A frame matches or creates a track of the id. -/
def Matched : Nat → Int → Prop
  | 0, _ => False
  | n + 1, id =>
    id ∈ ids (activatedStracks backend (atEnd backend config calls n) (calls.objects n)
      (calls.nextTrackId n)) ∨
    id ∈ ids (refindStracks backend (atEnd backend config calls n) (calls.objects n))

/-- `remove_duplicate_stracks` takes a track of the id out of the lists of a frame. -/
def Dropped : Nat → Int → Prop
  | 0, _ => False
  | n + 1, id =>
    (id ∈ ids (trackedMerged backend (atEnd backend config calls n) (calls.objects n)
        (calls.nextTrackId n)) ∨
      id ∈ ids (lostMerged backend (atEnd backend config calls n) (calls.objects n)
        (calls.nextTrackId n))) ∧
    id ∉ ids (atEnd backend config calls (n + 1)).trackedStracks ∧
    id ∉ ids (atEnd backend config calls (n + 1)).lostStracks

/-- A track of the id is in the pool of the first association of frame `n + 1`. -/
def Candidate (n : Nat) (id : Int) : Prop :=
  id ∈ (strackPool (atEnd backend config calls n)).map (idAt (start (atEnd backend config calls n)))

/-- From frame `f` to frame `g` a track is not matched again and not taken as a duplicate. -/
structure Undisturbed (f g : Nat) (id : Int) : Prop where
  unmatched : ∀ h, f < h → h ≤ g → ¬Matched backend config calls h id
  kept : ∀ h, f ≤ h → h ≤ g → ¬Dropped backend config calls h id

variable {backend config calls}

theorem Undisturbed.earlier {f g : Nat} {id : Int}
    (h : Undisturbed backend config calls f (g + 1) id) :
    Undisturbed backend config calls f g id :=
  ⟨fun k lt le => h.unmatched k lt (le.trans (Nat.le_succ g)),
    fun k le le' => h.kept k le (le'.trans (Nat.le_succ g))⟩

theorem atEnd_frameId (n : Nat) :
    (atEnd backend config calls n).frameId = n ∧
      (atEnd backend config calls n).maxTimeLost =
        (BYTETracker.ofConfig config).maxTimeLost := by
  induction n with
  | zero => exact ⟨rfl, rfl⟩
  | succ n ih =>
    refine ⟨?_, ih.2⟩
    change (atEnd backend config calls n).frameId + 1 = _
    rw [ih.1, Nat.cast_succ]

theorem ofConfig_sound (config : BYTETrackerConfig F) : Sound (BYTETracker.ofConfig config) 1 where
  distinct := List.nodup_nil
  allotted := fun _ h => by cases h
  tracked := fun _ h => by cases h
  lost := fun _ h => by cases h

theorem atEnd_sound (valid : Valid backend) (counted : Counted backend config calls) (n : Nat) :
    Sound (atEnd backend config calls n) (calls.nextTrackId n) ∧ 1 ≤ calls.nextTrackId n := by
  induction n with
  | zero => exact ⟨(ofConfig_sound config).mono counted.one_le, counted.one_le⟩
  | succ n ih =>
    obtain ⟨sound, forward⟩ := update_sound ih.1 ih.2 (calls.objects n) valid
    exact ⟨sound.mono (counted.grows n), ih.2.trans (forward.trans (counted.grows n))⟩

theorem atEnd_removals (valid : Valid backend) (counted : Counted backend config calls)
    (long : 1 ≤ (BYTETracker.ofConfig config).maxTimeLost) (n : Nat) :
    RemovalsAgree (atEnd backend config calls n) := by
  cases n with
  | zero => exact ⟨fun _ h => (by cases h), fun _ h => (by cases h)⟩
  | succ n =>
    have lasting : (atEnd backend config calls n).maxTimeLost = _ := (atEnd_frameId n).2
    exact update_removals (atEnd_sound valid counted n).1 (lasting ▸ long) _ valid

/-- A frame matches a track exactly if it holds it as tracked before duplicates go. -/
theorem matched_iff (valid : Valid backend) (counted : Counted backend config calls) {n : Nat}
    {id : Int} : Matched backend config calls (n + 1) id ↔
      id ∈ ids (trackedMerged backend (atEnd backend config calls n) (calls.objects n)
        (calls.nextTrackId n)) := by
  have sound := (atEnd_sound valid counted n).1
  constructor
  · intro h
    have merged : ∀ s, Current backend (atEnd backend config calls n) (calls.objects n)
        (calls.nextTrackId n) s → s.trackId ∈ ids (trackedMerged backend
          (atEnd backend config calls n) (calls.objects n) (calls.nextTrackId n)) :=
      fun s hs => List.mem_map_of_mem ((mem_trackedMerged sound _ valid).mpr hs)
    rcases h with h | h
    · obtain ⟨s, hs, rfl⟩ := List.mem_map.mp h
      rcases List.mem_append.mp hs with hold | hnew
      · obtain ⟨p, s', held, hit, -, heq⟩ := (sound.mem_activated _ valid).mp hold
        exact merged s (Or.inl ⟨p, s', held, hit, heq⟩)
      · exact merged s (Or.inr hnew)
    · obtain ⟨s, hs, rfl⟩ := List.mem_map.mp h
      obtain ⟨p, s', held, hit, -, heq⟩ := (sound.mem_refind _ valid).mp hs
      exact merged s (Or.inl ⟨p, s', held, hit, heq⟩)
  · intro h
    obtain ⟨s, hs, rfl⟩ := List.mem_map.mp h
    rcases (mem_trackedMerged sound _ valid).mp hs with ⟨p, s', held, hit, rfl⟩ | hnew
    · by_cases state : s'.state = .tracked
      · exact Or.inl (List.mem_map_of_mem (List.mem_append_left _
          ((sound.mem_activated _ valid).mpr ⟨p, s', held, hit, state, rfl⟩)))
      · exact Or.inr (List.mem_map_of_mem
          ((sound.mem_refind _ valid).mpr ⟨p, s', held, hit, state, rfl⟩))
    · exact Or.inl (List.mem_map_of_mem (List.mem_append_right _ hnew))

/-- A held track that a frame does not match is missing in it, and is lost at its end
unless it was among the removals or is a duplicate. -/
theorem unmatched_step (valid : Valid backend) (counted : Counted backend config calls) {n : Nat}
    {s : STrack F} (hs : s ∈ start (atEnd backend config calls n))
    (unmatched : ¬Matched backend config calls (n + 1) s.trackId) :
    (s.trackId ∈ ids (lostMerged backend (atEnd backend config calls n) (calls.objects n)
        (calls.nextTrackId n)) ↔ s.trackId ∉ ids (atEnd backend config calls n).removedStracks) ∧
      ∀ s' ∈ (atEnd backend config calls (n + 1)).lostStracks, s'.trackId = s.trackId →
        s'.frameId = s.frameId := by
  have sound := (atEnd_sound valid counted n).1
  obtain ⟨p, held⟩ := List.mem_iff_getElem?.mp hs
  have unhit : ¬Hit backend (atEnd backend config calls n) (calls.objects n) p := by
    intro hit
    refine unmatched ((matched_iff valid counted).mpr ?_)
    exact List.mem_map.mpr ⟨_, (mem_trackedMerged sound _ valid).mpr
      (Or.inl ⟨p, s, held, hit, rfl⟩), fate_trackId⟩
  refine ⟨?_, ?_⟩
  · constructor
    · intro h
      obtain ⟨s', hs', same⟩ := List.mem_map.mp h
      exact same ▸ ((mem_lostMerged sound _ valid).mp hs').2
    · intro h
      refine List.mem_map.mpr ⟨_, (mem_lostMerged sound _ valid).mpr
        ⟨⟨p, s, held, unhit, rfl⟩, ?_⟩, missing_trackId⟩
      rw [missing_trackId]
      exact h
  · intro s' hs' same
    obtain ⟨⟨q, s'', held', unhit', rfl⟩, -⟩ :=
      (mem_lostMerged sound _ valid).mp ((lost_sublist _).subset hs')
    rw [missing_trackId] at same
    have hpq := sound.pointer_inj held' held same
    subst hpq
    rw [held] at held'
    cases held'
    exact missing_frameId unhit'

/-- A track that a frame matched and kept is tracked at its end. -/
theorem tracked_of_matched (valid : Valid backend) (counted : Counted backend config calls)
    {f : Nat} {id : Int} (seen : Matched backend config calls f id)
    (kept : ¬Dropped backend config calls f id) :
    ∃ s ∈ (atEnd backend config calls f).trackedStracks, s.trackId = id := by
  cases f with
  | zero => exact seen.elim
  | succ n =>
    have sound := (atEnd_sound valid counted n).1
    have merged := (matched_iff valid counted).mp seen
    by_contra untracked
    refine kept ⟨Or.inl merged, fun h => untracked (List.mem_map.mp h), ?_⟩
    intro hlost
    obtain ⟨a, ha, same⟩ := List.mem_map.mp hlost
    obtain ⟨b, hb, same'⟩ := List.mem_map.mp merged
    exact missing_not_current sound
      ((mem_lostMerged sound _ valid).mp ((lost_sublist _).subset ha)).1
      ((mem_trackedMerged sound _ valid).mp hb) (same.trans same'.symm)

theorem lost_of_merged (valid : Valid backend) (counted : Counted backend config calls)
    {n : Nat} {id : Int} (kept : ¬Dropped backend config calls (n + 1) id)
    (unmatched : ¬Matched backend config calls (n + 1) id)
    (merged : id ∈ ids (lostMerged backend (atEnd backend config calls n) (calls.objects n)
      (calls.nextTrackId n))) :
    id ∈ ids (atEnd backend config calls (n + 1)).lostStracks := by
  by_contra absent
  refine kept ⟨Or.inr merged, ?_, absent⟩
  intro htracked
  exact unmatched ((matched_iff valid counted).mpr
    (((tracked_sublist _).map _).subset htracked))

/-- What is not held is not matched and not held later. -/
theorem gone_stays (valid : Valid backend) (counted : Counted backend config calls) {n : Nat}
    {id : Int} (drawn : id < calls.nextTrackId n)
    (absent : id ∉ ids (start (atEnd backend config calls n))) :
    ¬Matched backend config calls (n + 1) id ∧
      id ∉ ids (start (atEnd backend config calls (n + 1))) := by
  have sound := (atEnd_sound valid counted n).1
  refine ⟨?_, ?_⟩
  · intro h
    obtain ⟨s, hs, rfl⟩ := List.mem_map.mp ((matched_iff valid counted).mp h)
    rcases (mem_trackedMerged sound _ valid).mp hs with ⟨p, s', held, -, rfl⟩ | hnew
    · rw [fate_trackId] at absent
      exact absent (List.mem_map_of_mem (List.mem_of_getElem? held))
    · have := (newTracks_spec hnew).1
      omega
  · intro h
    rcases update_ids sound _ valid h with hold | hnew
    · exact absent hold
    · omega

theorem counter_mono (valid : Valid backend) (counted : Counted backend config calls) {n m : Nat}
    (h : n ≤ m) : calls.nextTrackId n ≤ calls.nextTrackId m := by
  induction h with
  | refl => exact le_rfl
  | @step m _ ih =>
    obtain ⟨sound, one_le⟩ := atEnd_sound valid counted m
    exact ih.trans ((update_sound sound one_le _ valid).2.trans (counted.grows m))

omit [Scalar F] in
theorem ids_start (t : BYTETracker F) :
    ids (start t) = ids t.trackedStracks ++ ids t.lostStracks := List.map_append

theorem seen_drawn (valid : Valid backend) (counted : Counted backend config calls) {f : Nat}
    {id : Int} (seen : Matched backend config calls f id)
    (kept : ¬Dropped backend config calls f id) {g : Nat} (le : f ≤ g) :
    id < calls.nextTrackId g := by
  obtain ⟨s, hs, rfl⟩ := tracked_of_matched valid counted seen kept
  have bound := (atEnd_sound valid counted f).1.allotted s (List.mem_append_left _ hs)
  exact bound.2.trans_le (counter_mono valid counted le)

/-- The track seen last in frame `f`, as it stands among the lost tracks of frame `g`. -/
def LostSince (backend : Backend F) (config : BYTETrackerConfig F) (calls : Calls F) (f g : Nat)
    (id : Int) : Prop :=
  ∃ s ∈ (atEnd backend config calls g).lostStracks, s.trackId = id ∧ s.frameId = f

/-- One frame without a match: a tracked track becomes lost. -/
theorem lost_after_tracked (valid : Valid backend) (counted : Counted backend config calls)
    (long : 1 ≤ (BYTETracker.ofConfig config).maxTimeLost) {f : Nat} {id : Int}
    (seen : Matched backend config calls f id)
    (quiet : Undisturbed backend config calls f (f + 1) id) :
    LostSince backend config calls f (f + 1) id := by
  obtain ⟨s, hs, rfl⟩ := tracked_of_matched valid counted seen
    (quiet.kept f le_rfl (Nat.le_succ f))
  have sound := (atEnd_sound valid counted f).1
  have unmatched := quiet.unmatched (f + 1) (Nat.lt_succ_self f) le_rfl
  obtain ⟨merged, frame⟩ := unmatched_step valid counted (List.mem_append_left _ hs) unmatched
  have unremoved := (atEnd_removals valid counted long f).tracked s hs
  obtain ⟨s', hs', same⟩ := List.mem_map.mp (lost_of_merged valid counted
    (quiet.kept (f + 1) (Nat.le_succ f) le_rfl) unmatched (merged.mpr unremoved))
  refine ⟨s', hs', same, ?_⟩
  rw [frame s' hs' same, (sound.tracked s hs).2.2, (atEnd_frameId f).1]

/-- One more frame without a match: the track stays lost unless it was overdue. -/
theorem lost_step (valid : Valid backend) (counted : Counted backend config calls)
    (long : 1 ≤ (BYTETracker.ofConfig config).maxTimeLost) {f g : Nat} {id : Int}
    (lost : LostSince backend config calls f g id) (later : f < g)
    (quiet : Undisturbed backend config calls f (g + 1) id) :
    ((g : Int) ≤ f + (BYTETracker.ofConfig config).maxTimeLost →
        LostSince backend config calls f (g + 1) id) ∧
      (f + (BYTETracker.ofConfig config).maxTimeLost < (g : Int) →
        id ∉ ids (start (atEnd backend config calls (g + 1)))) := by
  obtain ⟨s, hs, rfl, last⟩ := lost
  have unmatched := quiet.unmatched (g + 1) (later.trans (Nat.lt_succ_self g)) le_rfl
  obtain ⟨merged, frame⟩ := unmatched_step valid counted (List.mem_append_right _ hs) unmatched
  have removed := (atEnd_removals valid counted long g).lost s hs
  rw [last, (atEnd_frameId g).1, (atEnd_frameId g).2] at removed
  refine ⟨?_, ?_⟩
  · intro early
    have unremoved := mt removed.mp (by omega)
    obtain ⟨s', hs', same⟩ := List.mem_map.mp (lost_of_merged valid counted
      (quiet.kept (g + 1) (later.le.trans (Nat.le_succ g)) le_rfl) unmatched
      (merged.mpr unremoved))
    exact ⟨s', hs', same, (frame s' hs' same).trans last⟩
  · intro late
    rw [ids_start, List.mem_append]
    rintro (htracked | hlost)
    · exact unmatched ((matched_iff valid counted).mpr (((tracked_sublist _).map _).subset htracked))
    · exact merged.mp (((lost_sublist _).map _).subset hlost) (removed.mpr (by omega))

/-- While a track is left alone it is lost up to the end of its window, then gone. -/
theorem window (valid : Valid backend) (counted : Counted backend config calls)
    (long : 1 ≤ (BYTETracker.ofConfig config).maxTimeLost) {f : Nat} {id : Int}
    (seen : Matched backend config calls f id) (k : Nat)
    (quiet : Undisturbed backend config calls f (f + k + 1) id) :
    ((k : Int) ≤ (BYTETracker.ofConfig config).maxTimeLost →
        LostSince backend config calls f (f + k + 1) id) ∧
      ((BYTETracker.ofConfig config).maxTimeLost < (k : Int) →
        id ∉ ids (start (atEnd backend config calls (f + k + 1)))) := by
  induction k with
  | zero =>
    exact ⟨fun _ => lost_after_tracked valid counted long seen quiet, fun h => by omega⟩
  | succ k ih =>
    obtain ⟨lost, gone⟩ := ih quiet.earlier
    have drawn := seen_drawn valid counted seen (quiet.kept f le_rfl (by omega))
      (g := f + k + 1) (by omega)
    rcases le_or_gt (k : Int) (BYTETracker.ofConfig config).maxTimeLost with early | late
    · obtain ⟨stays, leaves⟩ := lost_step valid counted long (lost early) (by omega) quiet
      exact ⟨fun h => stays (by push_cast at h ⊢; omega),
        fun h => leaves (by push_cast at h ⊢; omega)⟩
    · exact ⟨fun h => by push_cast at h; omega,
        fun _ => (gone_stays valid counted drawn (gone late)).2⟩

theorem candidate_iff (valid : Valid backend) (counted : Counted backend config calls) {n : Nat}
    {id : Int} : Candidate backend config calls n id ↔
      id ∈ ids (start (atEnd backend config calls n)) := by
  have sound := (atEnd_sound valid counted n).1
  rw [Candidate, sound.pool_eq, List.mem_map]
  constructor
  · rintro ⟨p, hp, rfl⟩
    have held := List.getElem?_eq_getElem (List.mem_range.mp hp)
    rw [idAt_start held]
    exact List.mem_map_of_mem (List.getElem_mem _)
  · intro h
    obtain ⟨s, hs, rfl⟩ := List.mem_map.mp h
    obtain ⟨p, held⟩ := List.mem_iff_getElem?.mp hs
    exact ⟨p, List.mem_range.mpr (List.getElem?_eq_some_iff.mp held).1, idAt_start held⟩

/-- The retention window of a track last matched or created in frame `f`: lost at the end of the
frames `f + 1` to `f + m + 1`, gone from frame `f + m + 2` on, and open to a match up to that frame. -/
theorem retention_window (valid : Valid backend) (counted : Counted backend config calls)
    (long : 1 ≤ (BYTETracker.ofConfig config).maxTimeLost) {f : Nat} {id : Int}
    (seen : Matched backend config calls f id) :
    (∀ g, f < g → Undisturbed backend config calls f g id →
      ((g : Int) ≤ f + (BYTETracker.ofConfig config).maxTimeLost + 1 →
        id ∈ ids (atEnd backend config calls g).lostStracks) ∧
      (f + (BYTETracker.ofConfig config).maxTimeLost + 2 ≤ (g : Int) →
        id ∉ ids (atEnd backend config calls g).trackedStracks ∧
          id ∉ ids (atEnd backend config calls g).lostStracks)) ∧
    (∀ g, f ≤ g → Undisturbed backend config calls f g id →
      (Candidate backend config calls g id ↔
        ((g + 1 : Nat) : Int) ≤ f + (BYTETracker.ofConfig config).maxTimeLost + 2) ∧
      (Matched backend config calls (g + 1) id → Candidate backend config calls g id)) := by
  refine ⟨?_, ?_⟩
  · intro g later quiet
    obtain ⟨k, rfl⟩ : ∃ k, g = f + k + 1 := ⟨g - f - 1, by omega⟩
    obtain ⟨lost, gone⟩ := window valid counted long seen k quiet
    refine ⟨?_, ?_⟩
    · intro early
      obtain ⟨s, hs, same, -⟩ := lost (by push_cast at early; omega)
      exact same ▸ List.mem_map_of_mem hs
    · intro late
      have absent := gone (by push_cast at late; omega)
      rw [ids_start, List.mem_append, not_or] at absent
      exact absent
  · intro g le quiet
    have kept := quiet.kept f le_rfl le
    have held : id ∈ ids (start (atEnd backend config calls g)) ↔
        ((g + 1 : Nat) : Int) ≤ f + (BYTETracker.ofConfig config).maxTimeLost + 2 := by
      rcases le.eq_or_lt with rfl | later
      · obtain ⟨s, hs, rfl⟩ := tracked_of_matched valid counted seen kept
        refine iff_of_true (List.mem_map_of_mem (List.mem_append_left _ hs)) ?_
        push_cast
        omega
      · obtain ⟨k, rfl⟩ : ∃ k, g = f + k + 1 := ⟨g - f - 1, by omega⟩
        obtain ⟨lost, gone⟩ := window valid counted long seen k quiet
        constructor
        · intro h
          by_contra late
          exact gone (by push_cast at late; omega) h
        · intro early
          obtain ⟨s, hs, same, -⟩ := lost (by push_cast at early; omega)
          exact same ▸ List.mem_map_of_mem (List.mem_append_right _ hs)
    rw [candidate_iff valid counted]
    refine ⟨held, ?_⟩
    intro again
    by_contra absent
    exact (gone_stays valid counted (seen_drawn valid counted seen kept le) absent).1 again

/-- A tracker that is the only one on its counter. -/
def alone (backend : Backend F) (config : BYTETrackerConfig F) (objects : Nat → List (Object F)) :
    Nat → BYTETracker F × Int
  | 0 => (.ofConfig config, 1)
  | n + 1 =>
    let before := alone backend config objects n
    let updated := before.1.update backend (objects n) before.2
    (updated.tracker, updated.nextTrackId)

def Calls.alone (backend : Backend F) (config : BYTETrackerConfig F)
    (objects : Nat → List (Object F)) : Calls F :=
  ⟨objects, fun n => (TrackRetention.alone backend config objects n).2⟩

theorem atEnd_alone (objects : Nat → List (Object F)) (n : Nat) :
    atEnd backend config (.alone backend config objects) n = (alone backend config objects n).1 := by
  induction n with
  | zero => rfl
  | succ n ih =>
    rw [atEnd, ih]
    rfl

theorem alone_counted (objects : Nat → List (Object F)) :
    Counted backend config (.alone backend config objects) := by
  constructor
  · exact le_rfl
  · intro n
    rw [atEnd_alone]
    simp only [Calls.alone, alone, le_refl]

/-- A frame without detections leaves every track alone. -/
theorem quiet_frame (valid : Valid backend) (counted : Counted backend config calls) {n : Nat}
    (nothing : calls.objects n = []) (id : Int) :
    ¬Matched backend config calls (n + 1) id ∧ ¬Dropped backend config calls (n + 1) id := by
  have sound := (atEnd_sound valid counted n).1
  obtain ⟨none, lost, -⟩ := update_nothing sound valid
  have unmatched : ¬Matched backend config calls (n + 1) id := by
    rw [matched_iff valid counted, nothing, none]
    exact List.not_mem_nil
  refine ⟨unmatched, ?_⟩
  rintro ⟨merged, -, absent⟩
  rcases merged with tracked | merged
  · exact unmatched ((matched_iff valid counted).mpr tracked)
  · refine absent ?_
    change id ∈ ids ((atEnd backend config calls n).update backend (calls.objects n)
      (calls.nextTrackId n)).tracker.lostStracks
    rw [nothing] at merged ⊢
    rwa [lost]

end Calls

section Shipped

open TrackerProcessor ExactSolvers StationaryTracks

/-- One face in the first frame, and nothing after it. -/
def passingFace : Calls ℚ :=
  .alone exactBackend shippedTracker fun n => if n = 0 then [sampleObject "face" 10] else []

theorem shipped_maxTimeLost : (BYTETracker.ofConfig shippedTracker).maxTimeLost = 25 := by
  change Int.tdiv ((25 : ℚ) / 30 * 30).num ((25 : ℚ) / 30 * 30).den = 25
  norm_num

theorem passingFace_tracked :
    (1 : Int) ∈ ids (atEnd exactBackend shippedTracker passingFace 1).trackedStracks := by
  have first := (update_empty (ofConfig_sound shippedTracker) [sampleObject "face" 10]
    exactBackend_optimal.valid rfl).1
  have seen : detectionsHigh (BYTETracker.ofConfig shippedTracker) [sampleObject "face" 10] =
      [newDetection (sampleObject "face" 10)] := by
    norm_num [detectionsHigh, BYTETracker.ofConfig, shippedTracker, sampleObject]
  have high : ∀ det ∈ [newDetection (sampleObject "face" 10)],
      Scalar.lt det.score (BYTETracker.ofConfig shippedTracker).highThresh = false := by
    norm_num [BYTETracker.ofConfig, shippedTracker, sampleObject]
  have started := initNew_getElem? high 1 1 0
  change (1 : Int) ∈ ids (((BYTETracker.ofConfig shippedTracker).update exactBackend
    [sampleObject "face" 10] 1).tracker.trackedStracks)
  rw [first, seen]
  exact List.mem_map.mpr ⟨_, List.mem_of_getElem? started, (activate_spec _ _ _).1⟩

/-- The window of the passing face: lost in frame 27 and gone in frame 28. -/
theorem passingFace_window :
    (1 : Int) ∈ ids (atEnd exactBackend shippedTracker passingFace 27).lostStracks ∧
      (1 : Int) ∉ ids (atEnd exactBackend shippedTracker passingFace 28).trackedStracks ∧
        (1 : Int) ∉ ids (atEnd exactBackend shippedTracker passingFace 28).lostStracks := by
  have valid := exactBackend_optimal.valid
  have counted : Counted exactBackend shippedTracker passingFace := alone_counted _
  have seen : Matched exactBackend shippedTracker passingFace 1 1 :=
    (matched_iff valid counted).mpr (((tracked_sublist _).map _).subset passingFace_tracked)
  have quiet : ∀ h, 1 < h → ¬Matched exactBackend shippedTracker passingFace h 1 ∧
      ¬Dropped exactBackend shippedTracker passingFace h 1 := by
    intro h later
    obtain ⟨n, rfl⟩ : ∃ n, h = n + 1 := ⟨h - 1, by omega⟩
    exact quiet_frame valid counted (if_neg (by omega)) 1
  have kept : ¬Dropped exactBackend shippedTracker passingFace 1 1 :=
    fun dropped => dropped.2.1 passingFace_tracked
  have window : ∀ g : Nat, 1 < g →
      ((g : Int) ≤ 27 →
        (1 : Int) ∈ ids (atEnd exactBackend shippedTracker passingFace g).lostStracks) ∧
      (28 ≤ (g : Int) →
        (1 : Int) ∉ ids (atEnd exactBackend shippedTracker passingFace g).trackedStracks ∧
          (1 : Int) ∉ ids (atEnd exactBackend shippedTracker passingFace g).lostStracks) := by
    intro g later
    have undisturbed : Undisturbed exactBackend shippedTracker passingFace 1 g 1 := by
      refine ⟨fun h lt _ => (quiet h lt).1, ?_⟩
      intro h le _
      rcases le.eq_or_lt with rfl | lt
      · exact kept
      · exact (quiet h lt).2
    have window := (retention_window valid counted (by rw [shipped_maxTimeLost]; norm_num)
      seen).1 g later undisturbed
    rw [shipped_maxTimeLost] at window
    exact ⟨fun h => window.1 (by push_cast; omega), fun h => window.2 (by push_cast; omega)⟩
  constructor
  · exact (window 27 (by omega)).1 (by omega)
  · exact (window 28 (by omega)).2 (by omega)

end Shipped

end TrackRetention
