import AxVision.StaticScenes
import AxVision.TrackRetention

/-!
# A track that returns

An object that leaves and comes back to where it was, within the window of its
lost track, is given its old id again.
-/

namespace ReturningTracks

open DetectionTypes STracks TrackAssociation ByteTracker TrackerProcessor KeyedTables
open ProperAssignments ExactSolvers TrackerSteps TrackerUpdates TrackRetention LabelTurns
open GreedyAssignments TrackIdentity StationaryTracks StaticScenes

section Lone

variable {backend : Backend ℚ} {t : BYTETracker ℚ} {next : Int} {D : List (Object ℚ)}
  {o : Object ℚ} {s : STrack ℚ}

/-- A tracker that holds one track, at rest at an object and not taken out. -/
structure Lone (o : Object ℚ) (s : STrack ℚ) (t : BYTETracker ℚ) : Prop where
  held : start t = [s]
  rests : Resting o s
  old : s.state ≠ .new
  kept : s.trackId ∉ ids t.removedStracks

theorem Lone.only (lone : Lone o s t) {p : Nat} {s' : STrack ℚ}
    (held : (start t)[p]? = some s') : p = 0 ∧ s' = s := by
  have bound := (List.getElem?_eq_some_iff.mp held).1
  rw [lone.held] at bound held
  have first : p = 0 := by simpa using bound
  subst first
  exact ⟨rfl, (Option.some.inj held).symm⟩

theorem eq_singleton {α : Type*} {l : List α} {a : α} (nodup : l.Nodup) (mem : ∀ b, b ∈ l ↔ b = a) :
    l = [a] := by
  refine List.perm_singleton.mp ((List.perm_ext_iff_of_nodup nodup (List.nodup_singleton a)).mpr ?_)
  intro b
  rw [mem, List.mem_singleton]

/-- A frame without detections keeps the track where it is, unless it is overdue. -/
theorem Lone.away (lone : Lone o s t) (empty : D = []) (h : Sound t next) (valid : Valid backend)
    (early : t.frameId + 1 - s.frameId ≤ t.maxTimeLost) :
    ∃ s', Lone o s' (t.update backend D next).tracker ∧ s'.trackId = s.trackId ∧
      s'.frameId = s.frameId := by
  subst empty
  obtain ⟨none, lost, -⟩ := update_nothing h valid
  have held : (start t)[0]? = some s := by rw [lone.held]; rfl
  have unhit : ¬Hit backend t [] 0 := unhit_nothing 0
  obtain ⟨id, frame, state⟩ := fate_unhit_spec (s := s) unhit
  have timely : overdue t (fate backend t [] 0 s) = false := by
    rw [Bool.eq_false_iff]
    intro late
    have := (overdue_unhit unhit).mp late
    omega
  have missing : ∀ s', Missing backend t [] s' ↔ s' = fate backend t [] 0 s := by
    have stays : (if s.state = .tracked then fate backend t [] 0 s
        else markIfOverdue t (fate backend t [] 0 s)) = fate backend t [] 0 s := by
      rw [markIfOverdue, timely]
      split <;> rfl
    intro s'
    constructor
    · rintro ⟨p, s'', held', -, rfl⟩
      obtain ⟨rfl, rfl⟩ := lone.only held'
      exact stays
    · rintro rfl
      exact ⟨0, s, held, unhit, stays.symm⟩
  have only : start (t.update backend [] next).tracker = [fate backend t [] 0 s] := by
    have tracked : (t.update backend [] next).tracker.trackedStracks.Sublist
        (trackedMerged backend t [] next) := tracked_sublist []
    rw [none, List.sublist_nil] at tracked
    rw [start, tracked, lost, List.nil_append]
    refine eq_singleton (lostMerged_nodup []).of_map ?_
    intro s'
    rw [mem_lostMerged h [] valid, missing]
    refine ⟨fun hs => hs.1, ?_⟩
    rintro rfl
    exact ⟨rfl, id ▸ lone.kept⟩
  refine ⟨_, ⟨only, ?_, ?_, ?_⟩, id, frame⟩
  · rw [fate_unhit unhit]
    split
    · exact ⟨(predict_rests lone.rests).mean, (predict_rests lone.rests).tlbr⟩
    · exact predict_rests lone.rests
  · rw [state]
    split
    · exact fun h => by cases h
    · exact lone.old
  · rw [id]
    intro removed
    have late := ((removed_iff h [] valid held).mp removed).2
    rw [timely] at late
    cases late

/-- The detection it rests at finds the track again. -/
theorem Lone.back (lone : Lone o s t) (single : D = [o]) (h : Sound t next)
    (optimal : OptimalSolver backend) (spread : Spread D) (admits : Admits t D) :
    Settled D (t.update backend D next).tracker ∧
      ids (t.update backend D next).tracker.trackedStracks = [s.trackId] := by
  subst single
  have held : (start t)[0]? = some s := by rw [lone.held]; rfl
  have fits : Fits [o] t := by
    refine ⟨by rw [lone.held]; rfl, ?_, ?_⟩
    · intro p o' s' ho hs
      obtain ⟨rfl, rfl⟩ := lone.only hs
      cases ho
      exact lone.rests
    · intro s' hs
      rw [lone.held, List.mem_singleton] at hs
      exact hs ▸ lone.old
  have hit := fits.hit h optimal spread admits (List.getElem?_eq_some_iff.mp held).1
  have current : ∀ s', Current backend t [o] next s' ↔ s' = fate backend t [o] 0 s := by
    intro s'
    constructor
    · rintro (⟨p, s'', held', -, rfl⟩ | hnew)
      · obtain ⟨rfl, rfl⟩ := lone.only held'
        rfl
      · rw [newTracks, fits.fresh h optimal spread admits] at hnew
        cases hnew
    · rintro rfl
      exact Or.inl ⟨0, s, held, hit, rfl⟩
  have merged : trackedMerged backend t [o] next = [fate backend t [o] 0 s] := by
    refine eq_singleton (trackedMerged_nodup h [o] optimal.valid).of_map ?_
    intro s'
    rw [mem_trackedMerged h [o] optimal.valid, current]
  have none : lostMerged backend t [o] next = [] := by
    refine List.eq_nil_iff_forall_not_mem.mpr fun s' hs => ?_
    obtain ⟨⟨p, s'', held', unhit, -⟩, -⟩ := (mem_lostMerged h [o] optimal.valid).mp hs
    obtain ⟨rfl, rfl⟩ := lone.only held'
    exact unhit hit
  have tracked : (t.update backend [o] next).tracker.trackedStracks = [fate backend t [o] 0 s] := by
    simp only [BYTETracker.update, merged, none, removeDuplicateStracks_nil]
  have lost : (t.update backend [o] next).tracker.lostStracks = [] := by
    simp only [BYTETracker.update, merged, none, removeDuplicateStracks_nil]
  have only : start (t.update backend [o] next).tracker = [fate backend t [o] 0 s] := by
    rw [start, tracked, lost]
    rfl
  refine ⟨⟨⟨by rw [only]; rfl, ?_, ?_⟩, lost⟩, ?_⟩
  · intro p o' s' ho hs
    have bound := (List.getElem?_eq_some_iff.mp ho).1
    have first : p = 0 := by simpa using bound
    subst first
    rw [only] at hs
    cases hs
    exact fits.fate_rests h optimal spread admits ho held
  · intro s' hs
    rw [only, List.mem_singleton] at hs
    rw [hs, (fate_hit hit).2.1]
    exact fun h => by cases h
  · rw [tracked, ids, KeyedLists.keys, List.map_singleton, fate_trackId]

/-- A settled tracker of one object that has just removed nothing. -/
theorem lone_of_settled (settled : Settled D t) (single : D = [o])
    (removed : t.removedStracks = []) : ∃ s, Lone o s t := by
  subst single
  obtain ⟨s, hs⟩ := List.length_eq_one_iff.mp settled.fits.length
  have held : (start t)[0]? = some s := by rw [hs]; rfl
  refine ⟨s, hs, settled.fits.rests 0 o s rfl held, ?_, by rw [removed]; exact List.not_mem_nil⟩
  exact settled.fits.old s (hs ▸ List.mem_singleton.mpr rfl)

end Lone

section Gap

variable {backend : Backend ℚ} {config : AcceptedConfig ℚ} {o : Object ℚ} {gap : Nat}

/-- An object in the first frame, absent for some frames, and there again. -/
def absence (o : Object ℚ) (gap n : Nat) : List (Object ℚ) :=
  if n = 0 ∨ n = gap + 1 then [o] else []

theorem detectionsOf_own (o : Object ℚ) : detectionsOf [o] o.labelName = [setTrackId (-1) o] := by
  simp [detectionsOf_eq]

theorem detectionsOf_nil (label : String) : detectionsOf ([] : List (Object ℚ)) label = [] := by
  simp [detectionsOf_eq]

/-- An object whose label's tracker settles on it is given the id of the one track. -/
theorem single_process {p : Processor ℚ} {t : BYTETracker ℚ} {id : Int}
    (optimal : OptimalSolver backend) (ready : Ready p) (secure : Secure p)
    (configured : o.labelName ∈ p.trackLabels) (held : p.trackers.lookup o.labelName = some t)
    (spread : Spread (detectionsOf [o] o.labelName))
    (settled : Settled (detectionsOf [o] o.labelName)
      (turnUpdate backend p [o] o.labelName t).tracker)
    (tracked : ids (turnUpdate backend p [o] o.labelName t).tracker.trackedStracks = [id]) :
    (p.process backend [o]).objects = [setTrackId id o] := by
  have place := settled_objects ready secure optimal.valid configured held spread settled 0
  rw [tracked, detectionsOf_own, groupedDetections_eq_filter] at place
  have whole : (p.process backend [o]).objects.map (setTrackId (-1)) = [setTrackId (-1) o] :=
    process_blank [o]
  obtain ⟨x, only, -⟩ := List.map_eq_singleton_iff.mp whole
  rw [only] at place ⊢
  have given := (List.mem_filter.mp (List.mem_of_getElem? place)).1
  rw [List.mem_singleton] at given
  rw [← given]
  rfl

/-- The first frame leaves one track, seen in it. -/
theorem first_lone (optimal : OptimalSolver backend) (positive : 0 < config.tracker.matchThresh)
    (scene : StaticScene config [o]) :
    ∃ s, s.frameId = 1 ∧ Lone (setTrackId (-1) o) s
        (turnUpdate backend (.init config) [o] o.labelName (.ofConfig config.tracker)).tracker ∧
      (Processor.process backend (.init config) [o]).objects = [setTrackId s.trackId o] := by
  have configured := scene.configured o List.mem_cons_self
  have held := lookup_init config configured
  have ready : Ready (Processor.init config) := (after_ready backend config (fun _ => [o]) 0).1
  have secure : Secure (Processor.init config) := init_secure config
  have sound := (secure.sound o.labelName _ held).mono
    (process_counter backend ready configured held [o]).1
  have settled : Settled (detectionsOf [o] o.labelName) (turnUpdate backend (.init config) [o]
      o.labelName (.ofConfig config.tracker)).tracker :=
    first_settles sound optimal (scene.admits positive ⟨rfl, rfl, rfl⟩ o.labelName) rfl
  have removed : (turnUpdate backend (.init config) [o] o.labelName
      (.ofConfig config.tracker)).tracker.removedStracks = [] := by
    refine List.eq_nil_iff_forall_not_mem.mpr fun s hs => ?_
    obtain ⟨p, s', held', -⟩ := (mem_removedNow sound _ optimal.valid).mp hs
    cases held'
  obtain ⟨s, lone⟩ := lone_of_settled settled (detectionsOf_own o) removed
  have tracked := lone.held
  rw [settled.tracked] at tracked
  refine ⟨s, ?_, lone, single_process optimal ready secure configured held (scene.spread _) settled
    (by rw [tracked]; rfl)⟩
  have mem : s ∈ start (turnUpdate backend (.init config) [o] o.labelName
      (.ofConfig config.tracker)).tracker := lone.held ▸ List.mem_singleton.mpr rfl
  rw [settled.tracked] at mem
  have after := (process_turn backend ready configured held [o]).1
  have seen := (((process_secure optimal.valid secure [o]).1.sound o.labelName _ after).tracked
    s mem).2.2
  have frame : (turnUpdate backend (.init config) [o] o.labelName
      (.ofConfig config.tracker)).tracker.frameId = 1 := rfl
  exact seen.trans frame

/-- The tracker of the object's label after `n` frames of its absence. -/
structure Absent (config : AcceptedConfig ℚ) (o : Object ℚ) (id : Int) (n : Nat)
    (t : BYTETracker ℚ) : Prop where
  configured : Configured config.tracker t
  frame : t.frameId = n + 1
  window : t.maxTimeLost = (BYTETracker.ofConfig config.tracker).maxTimeLost
  lone : ∃ s, Lone (setTrackId (-1) o) s t ∧ s.trackId = id ∧ s.frameId = 1

theorem absence_keeps (optimal : OptimalSolver backend) (positive : 0 < config.tracker.matchThresh)
    (scene : StaticScene config [o])
    (short : (gap : Int) ≤ (BYTETracker.ofConfig config.tracker).maxTimeLost) :
    ∃ id, output backend config (absence o gap) 0 = [setTrackId id o] ∧
      ∀ n, n ≤ gap → ∃ t, Absent config o id n t ∧
        (Processor.after backend config (absence o gap) (n + 1)).trackers.lookup o.labelName =
          some t := by
  have ready := fun n => after_ready backend config (absence o gap) n
  have secure := after_secure config (absence o gap) optimal.valid
  have configured : ∀ n, o.labelName ∈ (Processor.after backend config (absence o gap)
      n).trackLabels := fun n => (ready n).2.symm ▸ scene.configured o List.mem_cons_self
  have first : absence o gap 0 = [o] := by simp [absence]
  obtain ⟨s, seen, lone, given⟩ := first_lone optimal positive scene
  refine ⟨s.trackId, by rw [output, first]; exact given, ?_⟩
  intro n
  induction n with
  | zero =>
    intro _
    have held := lookup_init config (scene.configured o List.mem_cons_self)
    have after := (process_turn backend (ready 0).1 (configured 0) held (absence o gap 0)).1
    rw [first] at after
    refine ⟨(turnUpdate backend (.init config) [o] o.labelName
      (.ofConfig config.tracker)).tracker, ⟨⟨rfl, rfl, rfl⟩, rfl, rfl, s, lone, rfl, seen⟩, ?_⟩
    rw [Processor.after, first]
    exact after
  | succ n ih =>
    intro le
    obtain ⟨t, ⟨thresholds, frame, window, s', lone', same, seen'⟩, held⟩ := ih (by omega)
    have sound := ((secure (n + 1)).sound o.labelName _ held).mono
      (process_counter backend (ready (n + 1)).1 (configured (n + 1)) held
        (absence o gap (n + 1))).1
    have empty : absence o gap (n + 1) = [] := if_neg (by omega)
    have nothing : detectionsOf (absence o gap (n + 1)) o.labelName = [] := by
      rw [empty, detectionsOf_nil]
    obtain ⟨s'', lone'', same', seen''⟩ := lone'.away nothing sound optimal.valid (by omega)
    have after := (process_turn backend (ready (n + 1)).1 (configured (n + 1)) held
      (absence o gap (n + 1))).1
    refine ⟨(turnUpdate backend (Processor.after backend config (absence o gap) (n + 1))
      (absence o gap (n + 1)) o.labelName t).tracker,
      ⟨⟨thresholds.track, thresholds.high, thresholds.matching⟩, ?_, window, s'', lone'',
        same'.trans same, seen''.trans seen'⟩, after⟩
    have next : (turnUpdate backend (Processor.after backend config (absence o gap) (n + 1))
        (absence o gap (n + 1)) o.labelName t).tracker.frameId = t.frameId + 1 := rfl
    rw [next, frame]
    push_cast
    rfl

/-- An object that is back where it was after a gap within the window has its id back. -/
theorem returns_with_id (optimal : OptimalSolver backend)
    (positive : 0 < config.tracker.matchThresh) (scene : StaticScene config [o])
    (short : (gap : Int) ≤ (BYTETracker.ofConfig config.tracker).maxTimeLost) :
    ∃ id, ∀ n, n ≤ gap + 1 → output backend config (absence o gap) n =
      (absence o gap n).map (setTrackId id) := by
  have ready := fun n => after_ready backend config (absence o gap) n
  have secure := after_secure config (absence o gap) optimal.valid
  obtain ⟨id, first, keeps⟩ := absence_keeps optimal positive scene short
  refine ⟨id, ?_⟩
  intro n le
  rcases Nat.eq_zero_or_pos n with rfl | later
  · rw [first]
    simp [absence]
  · rcases le.eq_or_lt with rfl | away
    · have again : absence o gap (gap + 1) = [o] := by simp [absence]
      obtain ⟨t, ⟨thresholds, -, -, s, lone, same, -⟩, held⟩ := keeps gap le_rfl
      have configured : o.labelName ∈ (Processor.after backend config (absence o gap)
          (gap + 1)).trackLabels := (ready (gap + 1)).2.symm ▸ scene.configured o List.mem_cons_self
      have sound := ((secure (gap + 1)).sound o.labelName _ held).mono
        (process_counter backend (ready (gap + 1)).1 configured held [o]).1
      obtain ⟨settled, tracked⟩ := lone.back (detectionsOf_own o) sound optimal (scene.spread _)
        (scene.admits positive thresholds _)
      rw [output, again]
      exact single_process optimal (ready (gap + 1)).1 (secure (gap + 1)) configured held
        (scene.spread _) settled (tracked.trans (by rw [same]))
    · have empty : absence o gap n = [] := if_neg (by omega)
      have whole : ((Processor.after backend config (absence o gap) n).process backend
          []).objects.map (setTrackId (-1)) = [] := process_blank []
      rw [output, empty]
      exact List.map_eq_nil_iff.mp whole

end Gap

end ReturningTracks
