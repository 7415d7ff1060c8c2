import AxVision.ReturningTracks
import AxVision.StrangerAlerts

/-!
# Tracker and face plugin in one scene

`SceneRuntime::Process` runs the tracker over the objects of a frame and hands
them to the face plugin, whose jobs run beside it. The tracker gives a target
its id back for as long as its window lasts, the plugin forgets an id after 60
frames without it: an id may come back to a plugin that no longer knows it.
-/

namespace SceneRuns

open TransitionRuns DetectionTypes TrackAssociation TrackerProcessor KeyedTables FaceRecognition
open FrameSteps InflightTracks StrangerAlerts ProperAssignments LabelTurns TrackIdentity

universe u v

variable {F : Type u} {P : Type v}

/-- `handed` holds the objects of a frame between the tracker and `OnFrame`;
`sighted` is the frame in which the plugin last saw a track id. -/
structure Scene (F : Type u) (P : Type v) where
  processor : Processor F
  runtime : Runtime F P
  handed : Option (List (Object F)) := none
  sighted : Int → Option Int := fun _ => none

inductive Action (F : Type u) (P : Type v) where
  | process (objects : List (Object F))
  | swap
  | frame (out : FrameOutcomes F P)
  | start (i : Nat) (out : JobOutcomes F P)
  | perform (j : Nat)

/-- The frame numbers of the last sightings once `OnFrame` has seen some objects. -/
def sightings (s : Scene F P) (objects : List (Object F)) (tid : Int) : Option Int :=
  if tid ∈ trackIds objects then some (s.runtime.plugin.frameSeq + 1) else s.sighted tid

variable [Scalar F]

/-- A step of the frame thread in the plugin, or of a worker. -/
def advance (s : Scene F P) (l : Label F P) : Option (Scene F P) :=
  (InflightTracks.step s.runtime l).map fun r => { s with runtime := r }

def step (backend : Backend F) (s : Scene F P) : Action F P → Option (Scene F P)
  | .process objects =>
    if s.handed.isSome then none
    else
      let passed := s.processor.process backend (objects.map (setTrackId (-1)))
      some { s with processor := passed.processor, handed := some passed.objects }
  | .swap => if s.handed.isNone then none else advance s .swap
  | .frame out =>
    match s.handed with
    | none => none
    | some objects =>
      (InflightTracks.step s.runtime (.frame objects out)).map fun r =>
        { s with runtime := r, handed := none, sighted := sightings s objects }
  | .start i out => advance s (.start i out)
  | .perform j => advance s (.perform j)

/-- A scene after a successful `Init` of its tracker and of the plugin. -/
def scene (backend : Backend F) (config : AcceptedConfig F) (face : Config F) :
    Machine (Scene F P) (Action F P) where
  start := { processor := .init config, runtime := (machine face).start }
  step := step backend

section Steps

variable {backend : Backend F} {s t : Scene F P} {a : Action F P}

/-- A step is a pass of the tracker, a frame of the plugin, or leaves the frame as it is. -/
theorem step_cases (hstep : step backend s a = some t) :
    (∃ objects, a = .process objects ∧ s.handed = none ∧
      t = { s with
        processor := (s.processor.process backend (objects.map (setTrackId (-1)))).processor
        handed := some (s.processor.process backend (objects.map (setTrackId (-1)))).objects }) ∨
    (∃ objects out r, a = .frame out ∧ s.handed = some objects ∧
      InflightTracks.step s.runtime (.frame objects out) = some r ∧
      t = { s with runtime := r, handed := none, sighted := sightings s objects }) ∨
    ∃ l r, (∀ objects out, l ≠ .frame objects out) ∧ InflightTracks.step s.runtime l = some r ∧
      t = { s with runtime := r } := by
  have advanced : ∀ l, (∀ objects out, l ≠ .frame objects out) → advance s l = some t →
      ∃ l r, (∀ objects out, l ≠ .frame objects out) ∧ InflightTracks.step s.runtime l = some r ∧
        t = { s with runtime := r } := by
    intro l other h
    obtain ⟨r, hr, rfl⟩ := Option.map_eq_some_iff.mp h
    exact ⟨l, r, other, hr, rfl⟩
  cases a with
  | process objects =>
    simp only [step] at hstep
    split at hstep
    · cases hstep
    · next free =>
      cases hstep
      exact Or.inl ⟨objects, rfl, by simpa using free, rfl⟩
  | swap =>
    simp only [step] at hstep
    split at hstep
    · cases hstep
    · exact Or.inr (Or.inr (advanced _ (fun _ _ h => by cases h) hstep))
  | frame out =>
    simp only [step] at hstep
    split at hstep
    · cases hstep
    · next objects handed =>
      obtain ⟨r, hr, rfl⟩ := Option.map_eq_some_iff.mp hstep
      exact Or.inr (Or.inl ⟨objects, out, r, rfl, handed, hr, rfl⟩)
  | start i out => exact Or.inr (Or.inr (advanced _ (fun _ _ h => by cases h) hstep))
  | perform j => exact Or.inr (Or.inr (advanced _ (fun _ _ h => by cases h) hstep))

/-- The tracker is in order and what it hands over names no track twice. -/
structure Tracked (s : Scene F P) : Prop where
  ready : Ready s.processor
  secure : Secure s.processor
  distinct : ∀ objects, s.handed = some objects → (trackIds objects).Nodup

theorem tracked_step (valid : Valid backend) (h : Tracked s) (hstep : step backend s a = some t) :
    Tracked t := by
  rcases step_cases hstep with ⟨objects, -, -, rfl⟩ | ⟨objects, out, r, -, -, -, rfl⟩ |
    ⟨l, r, -, -, rfl⟩
  · refine ⟨h.ready.process _, (process_secure valid h.secure _).1, ?_⟩
    rintro _ ⟨⟩
    have all := process_distinct h.ready h.secure valid (objects.map (setTrackId (-1)))
    rw [List.filter_map] at all
    refine all.sublist (List.Sublist.map _ ?_)
    refine List.monotone_filter_right _ ?_
    intro o ho
    have nonneg : o.trackId ≥ 0 := of_decide_eq_true ho
    simp only [Function.comp_apply, decide_eq_true_eq]
    omega
  · exact ⟨h.ready, h.secure, fun _ h => by cases h⟩
  · exact ⟨h.ready, h.secure, h.distinct⟩

end Steps

section Alerts

variable {backend : Backend F}

/-- No track id of the frame was sighted before and has lost its entry since. -/
def NoneReturns (s : Scene F P) : Action F P → Prop
  | .frame _ => ∀ objects, s.handed = some objects → ∀ tid ∈ trackIds objects,
      s.runtime.plugin.trackPending.lookup tid = none → s.sighted tid = none
  | _ => True

/-- Only sighted tracks have been alerted or may be, and each of them once. -/
structure Accounted (s : Scene F P) : Prop where
  unsighted : ∀ tid, s.sighted tid = none → exposure s.runtime tid = 0
  once : ∀ tid, exposure s.runtime tid ≤ 1

theorem accounted_step {s t : Scene F P} {a : Action F P} (tracked : Tracked s)
    (ok : NoneReturns s a) (hstep : step backend s a = some t) (h : Accounted s) :
    Accounted t := by
  rcases step_cases hstep with ⟨objects, -, -, rfl⟩ | ⟨objects, out, r, rfl, handed, hr, rfl⟩ |
    ⟨l, r, other, hr, rfl⟩
  · exact ⟨h.unsighted, h.once⟩
  · have distinct : DistinctTracks s.runtime (.frame objects out) :=
      tracked.distinct objects handed
    have after := fun tid => exposure_step distinct hr tid
    refine ⟨?_, ?_⟩
    · intro tid unsighted
      simp only [sightings] at unsighted
      split at unsighted
      · cases unsighted
      · next unseen =>
        have bound := after tid
        rw [h.unsighted tid unsighted, creates, if_neg fun h => unseen h.1] at bound
        exact Nat.le_zero.mp bound
    · intro tid
      refine (after tid).trans ?_
      rw [creates]
      split
      · next created =>
        rw [h.unsighted tid (ok objects handed tid created.1 created.2)]
      · exact h.once tid
  · have distinct : DistinctTracks s.runtime l := by
      cases l with
      | frame objects out => exact absurd rfl (other objects out)
      | _ => trivial
    have none : ∀ tid, creates s.runtime tid l = 0 := by
      intro tid
      cases l with
      | frame objects out => exact absurd rfl (other objects out)
      | _ => rfl
    have after : ∀ tid, exposure r tid ≤ exposure s.runtime tid := by
      intro tid
      have bound := exposure_step distinct hr tid
      rwa [none] at bound
    refine ⟨fun tid unsighted => ?_, fun tid => (after tid).trans (h.once tid)⟩
    exact Nat.le_zero.mp ((after tid).trans_eq (h.unsighted tid unsighted))

/-- In a run in which no id comes back after its entry is gone, no id is alerted twice, whatever
the calls return and in whatever order the jobs run. -/
theorem alerts_le_one (valid : Valid backend) {config : AcceptedConfig F} {face : Config F}
    {s : Scene F P} (h : ReachableBy (scene backend config face) NoneReturns s) (tid : Int) :
    alerts s.runtime tid ≤ 1 := by
  have inv : Tracked s ∧ Accounted s := by
    refine ReachableBy.invariant (I := fun u => Tracked u ∧ Accounted u) ⟨?_, ?_⟩ ?_ h
    · exact ⟨(after_ready backend config (fun _ => []) 0).1, init_secure config,
        fun _ h => by cases h⟩
    · refine ⟨fun tid _ => ?_, fun tid => ?_⟩ <;>
        simp [exposure, claimed, alerts, scene, machine, FacePlugin.init, entryWeight]
    · rintro u a u' ⟨tracked, accounted⟩ ok hstep
      exact ⟨tracked_step valid tracked hstep, accounted_step tracked ok hstep accounted⟩
  exact (alerts_le_exposure s.runtime tid).trans (inv.2.once tid)

end Alerts

section Gaps

variable {backend : Backend F}

/-- A sighted track has an entry of its last sighting, or was away for too long. -/
def Remembers (s : Scene F P) : Prop :=
  ∀ tid f, s.sighted tid = some f → lastSeen s.runtime.plugin.trackPending tid = some f ∨
    s.runtime.plugin.trackPending.lookup tid = none ∧
      kTrackPruneFrames < s.runtime.plugin.frameSeq - f

/-- Between the frames the plugin keeps its entries and its frame number. -/
theorem step_keeps {r r' : Runtime F P} {l : Label F P} (hstep : InflightTracks.step r l = some r')
    (other : ∀ objects out, l ≠ .frame objects out) :
    r'.plugin.trackPending = r.plugin.trackPending ∧ r'.plugin.frameSeq = r.plugin.frameSeq := by
  cases l with
  | swap =>
    simp only [InflightTracks.step] at hstep
    split at hstep
    · cases hstep
    · cases hstep
      exact ⟨rfl, rfl⟩
  | frame objects out => exact absurd rfl (other objects out)
  | start i out =>
    simp only [InflightTracks.step] at hstep
    split at hstep
    · cases hstep
    · cases hstep
      exact ⟨rfl, rfl⟩
  | perform j =>
    simp only [InflightTracks.step] at hstep
    split at hstep
    · next e rest _ =>
      cases hstep
      exact ⟨(applyEffect_tracks r.plugin e).1, by cases e <;> rfl⟩
    · cases hstep

theorem remembers_step {s t : Scene F P} {a : Action F P} (hstep : step backend s a = some t)
    (h : Remembers s) : Remembers t := by
  rcases step_cases hstep with ⟨objects, -, -, rfl⟩ | ⟨objects, out, r, -, handed, hr, rfl⟩ |
    ⟨l, r, other, hr, rfl⟩
  · exact h
  · intro tid f sighted
    simp only [InflightTracks.step] at hr
    split at hr
    · cases hr
    · next results _ =>
      cases hr
      have frame : (if tid ∈ trackIds objects then some (s.runtime.plugin.frameSeq + 1)
          else lastSeen s.runtime.plugin.trackPending tid) = some f → _ :=
        fun seen => frame_lastSeen s.runtime.plugin results objects out seen
      simp only [sightings] at sighted
      by_cases seen : tid ∈ trackIds objects
      · rw [if_pos seen] at sighted
        exact frame (by rw [if_pos seen]; exact sighted)
      · rw [if_neg seen] at sighted
        rcases h tid f sighted with held | ⟨gone, late⟩
        · exact frame (by rw [if_neg seen]; exact held)
        · refine Or.inr ⟨?_, ?_⟩
          · have absent : (seenTracks s.runtime.plugin results objects out).lookup tid = none := by
              rw [seenTracks, observeAll_unseen seen, drain_none gone]
            have unsubmitted := submission_lastSeen s.runtime.plugin results objects out tid
            rw [lastSeen, lastSeen, absent, Option.map_none, Option.map_eq_none_iff] at unsubmitted
            rw [onFrame_eq, pruneTracks_lookup, unsubmitted]
            rfl
          · refine late.trans ?_
            change s.runtime.plugin.frameSeq - f < s.runtime.plugin.frameSeq + 1 - f
            omega
  · obtain ⟨entries, frames⟩ := step_keeps hr other
    intro tid f sighted
    have before := h tid f sighted
    rwa [← entries, ← frames] at before

/-- An id has lost its entry only after more than 60 frames without it. -/
theorem forgotten_late {config : AcceptedConfig F} {face : Config F} {s : Scene F P}
    (h : Reachable (scene backend config face) s) {tid f : Int} (sighted : s.sighted tid = some f)
    (gone : s.runtime.plugin.trackPending.lookup tid = none) :
    kTrackPruneFrames < s.runtime.plugin.frameSeq - f := by
  have inv : Remembers s := by
    refine Reachable.invariant (I := Remembers) ?_ (fun _ _ _ hu hstep => remembers_step hstep hu) h
    intro tid f none
    cases none
  rcases inv tid f sighted with held | ⟨-, late⟩
  · rw [lastSeen, gone] at held
    cases held
  · exact late

end Gaps

section Replay

variable {backend : Backend F} {config : AcceptedConfig F} {face : Config F}

/-- The steps of the workers. -/
def Worker : Label F P → Prop
  | .start _ _ => True
  | .perform _ => True
  | _ => False

theorem replay_jobs {ok : Scene F P → Action F P → Prop} (starts : ∀ s i out, ok s (.start i out))
    (performs : ∀ s j, ok s (.perform j)) {jobs : List (Label F P)}
    (workers : ∀ l ∈ jobs, Worker l) {s : Scene F P} {r : Runtime F P}
    (h : (machine face).exec s.runtime jobs = some r) :
    Steps (scene backend config face) ok s { s with runtime := r } := by
  induction jobs generalizing s with
  | nil =>
    cases h
    exact .refl s
  | cons l rest ih =>
    rw [Machine.exec, Option.bind_eq_some_iff] at h
    obtain ⟨mid, hmid, hrest⟩ := h
    have mid_step : advance s l = some { s with runtime := mid } :=
      Option.map_eq_some_iff.mpr ⟨mid, hmid, rfl⟩
    have worker := workers l List.mem_cons_self
    refine Steps.trans ?_ (ih (fun l' hl' => workers l' (List.mem_cons_of_mem l hl'))
      (s := { s with runtime := mid }) hrest)
    cases l with
    | swap => exact worker.elim
    | frame objects out => exact worker.elim
    | start i out => exact Steps.single (l := .start i out) (starts s i out) mid_step
    | perform j => exact Steps.single (l := .perform j) (performs s j) mid_step

theorem replay_frame {ok : Scene F P → Action F P → Prop} {s : Scene F P} {r : Runtime F P}
    {objects : List (Object F)} {out : FrameOutcomes F P} (free : s.handed = none)
    (all : ∀ u a, u.sighted = s.sighted → ok u a)
    (h : (machine face).exec s.runtime
      [.swap, .frame (s.processor.process backend objects).objects out] = some r) :
    ∃ t, Steps (scene backend config face) ok s t ∧ t.runtime = r ∧
      t.processor = (s.processor.process backend objects).processor ∧ t.handed = none := by
  simp only [Machine.exec, Option.bind_eq_some_iff, Option.some.injEq] at h
  obtain ⟨drained, swapped, r', framed, rfl⟩ := h
  have again : s.processor.process backend (objects.map (setTrackId (-1))) =
      s.processor.process backend objects := by
    simp [Processor.process, Function.comp_def, GreedyAssignments.setTrackId_setTrackId]
  have first : step backend s (.process objects) = some { s with
      processor := (s.processor.process backend objects).processor
      handed := some (s.processor.process backend objects).objects } := by
    simp [step, free, again]
  have second : step backend { s with
      processor := (s.processor.process backend objects).processor
      handed := some (s.processor.process backend objects).objects } .swap = some { s with
      processor := (s.processor.process backend objects).processor
      handed := some (s.processor.process backend objects).objects
      runtime := drained } :=
    Option.map_eq_some_iff.mpr ⟨drained, swapped, rfl⟩
  have third : ∃ t, step backend { s with
      processor := (s.processor.process backend objects).processor
      handed := some (s.processor.process backend objects).objects
      runtime := drained } (.frame out) = some t ∧ t.runtime = r' ∧
        t.processor = (s.processor.process backend objects).processor ∧ t.handed = none :=
    ⟨_, Option.map_eq_some_iff.mpr ⟨r', framed, rfl⟩, rfl, rfl, rfl⟩
  obtain ⟨t, last, parts⟩ := third
  exact ⟨t, .snoc (l := .frame out) (.snoc (l := .swap) (.snoc (l := .process objects) (.refl s)
    (all _ _ rfl) first) (all _ _ rfl) second) (all _ _ rfl) last, parts⟩

/-- A run of the plugin over the frames the tracker leaves is part of a run of the scene. -/
theorem replay {frames given : Nat → List (Object F)} {out : FrameOutcomes F P}
    {jobs : Nat → List (Label F P)} (workers : ∀ n, ∀ l ∈ jobs n, Worker l) {m : Nat}
    (same : ∀ n, n < m → output backend config frames n = given n) {r : Runtime F P}
    (h : (machine face).exec (machine face).start
      ((List.range m).flatMap fun n => [.swap, .frame (given n) out] ++ jobs n) = some r) :
    ∃ s, Reachable (scene backend config face) s ∧ s.runtime = r ∧
      s.processor = Processor.after backend config frames m ∧ s.handed = none := by
  induction m generalizing r with
  | zero =>
    cases h
    exact ⟨_, .refl _, rfl, rfl, rfl⟩
  | succ m ih =>
    rw [List.range_succ, List.flatMap_append, Machine.exec_append, Option.bind_eq_some_iff] at h
    obtain ⟨before, hbefore, hlast⟩ := h
    rw [List.flatMap_singleton, Machine.exec_append, Option.bind_eq_some_iff] at hlast
    obtain ⟨framed, hframe, hjobs⟩ := hlast
    obtain ⟨s, reached, rfl, processor, free⟩ := ih (fun n hn => same n (by omega)) hbefore
    rw [← same m (Nat.lt_succ_self m), output, ← processor] at hframe
    obtain ⟨t, run, rfl, processor', free'⟩ := replay_frame free (fun _ _ _ => trivial) hframe
    refine ⟨_, (reached.trans run).trans (replay_jobs (fun _ _ _ => trivial) (fun _ _ => trivial)
      (workers m) hjobs), rfl, ?_, free'⟩
    rw [processor', processor]
    rfl

end Replay

section Repeated

open ByteTracker ReturningTracks StaticScenes ExactSolvers IdentifyJobs

/-- A tracker that keeps a lost track for 100 frames. -/
def patientConfig : AcceptedConfig ℚ where
  trackLabels := ["face"]
  labels_nodup := by decide
  labels_nonempty := by decide
  tracker := { shippedTracker with frameRate := 30, trackBuffer := 100 }
  frameRate_pos := by decide
  trackBuffer_pos := by decide
  trackThresh_valid := by norm_num [validThreshold_rat, shippedTracker]
  highThresh_valid := by norm_num [validThreshold_rat, shippedTracker]
  matchThresh_valid := by norm_num [validThreshold_rat, shippedTracker]

theorem patient_maxTimeLost :
    (BYTETracker.ofConfig patientConfig.tracker).maxTimeLost = 100 := by
  change Int.tdiv ((30 : ℚ) / 30 * 100).num ((30 : ℚ) / 30 * 100).den = 100
  norm_num

def doorFace : Object ℚ := sampleObject "face" 10

/-- The face at the door, absent for 61 frames, with the id of its track. -/
def trackedFace (n : Nat) : List (Object ℚ) := (absence doorFace 61 n).map (setTrackId 1)

theorem trackedFace_output (n : Nat) (hn : n < 63) :
    output exactBackend patientConfig (absence doorFace 61) n = trackedFace n := by
  have scene : StaticScene patientConfig [doorFace] :=
    { configured := by simp [doorFace, sampleObject, patientConfig]
      width := by simp [doorFace, sampleObject]
      height := by simp [doorFace, sampleObject]
      score := by norm_num [doorFace, sampleObject, patientConfig, shippedTracker]
      separated := List.pairwise_singleton _ _ }
  have short : ((61 : Nat) : Int) ≤
      (BYTETracker.ofConfig patientConfig.tracker).maxTimeLost := by
    rw [patient_maxTimeLost]
    norm_num
  obtain ⟨id, all⟩ := returns_with_id exactBackend_optimal
    (by norm_num [patientConfig, shippedTracker]) scene short
  have first : (output exactBackend patientConfig (absence doorFace 61) 0).map Object.trackId =
      [1] := by decide +kernel
  rw [all 0 (by norm_num)] at first
  have one : id = 1 := by simpa [absence] using first
  rw [all n (by omega), one, trackedFace]

/-- At the first and at the last sighting the job finds a stranger. -/
def strangerJobs (n : Nat) : List (Label ℚ Unit) :=
  if n = 0 then .start 0 (noHitOutcomes 0 [255]) :: List.replicate 5 (.perform 0)
  else if n = 62 then .start 0 (noHitOutcomes 0 [255]) :: List.replicate 5 (.perform 1)
  else []

theorem strangerJobs_workers (n : Nat) : ∀ l ∈ strangerJobs n, Worker l := by
  intro l hl
  rw [strangerJobs] at hl
  split at hl
  · rcases List.mem_cons.mp hl with rfl | h
    · trivial
    · rw [(List.mem_replicate.mp h).2]
      trivial
  · split at hl
    · rcases List.mem_cons.mp hl with rfl | h
      · trivial
      · rw [(List.mem_replicate.mp h).2]
        trivial
    · cases hl

/-- After its first sighting the face is alerted, and once. -/
theorem first_sighting_alerted :
    ∃ s : Scene ℚ Unit, alerts s.runtime 1 = 1 ∧ ∀ tid, alerts s.runtime tid ≤ 1 := by
  have once : ((machine ⟨"face_embeddings", 0⟩).exec (machine ⟨"face_embeddings", 0⟩).start
      ([.swap, .frame (trackedFace 0) smoothFrame] ++ strangerJobs 0)).map (alerts · 1) =
        some 1 := by
    decide +kernel
  obtain ⟨r, hr, one⟩ := Option.map_eq_some_iff.mp once
  rw [Machine.exec_append, Option.bind_eq_some_iff] at hr
  obtain ⟨framed, hframe, hjobs⟩ := hr
  rw [← trackedFace_output 0 (by norm_num)] at hframe
  have unsighted : ∀ (u : Scene ℚ Unit) a, u.sighted = (fun _ => none) → NoneReturns u a := by
    intro u a new
    cases a with
    | frame out => exact fun objects _ tid _ _ => congrFun new tid
    | _ => trivial
  obtain ⟨t, run, rfl, -⟩ : ∃ t, Steps (scene exactBackend patientConfig ⟨"face_embeddings", 0⟩)
      NoneReturns (scene exactBackend patientConfig ⟨"face_embeddings", 0⟩).start t ∧ _ :=
    replay_frame rfl unsighted hframe
  have jobs : Steps (scene exactBackend patientConfig ⟨"face_embeddings", 0⟩) NoneReturns t
      { t with runtime := r } :=
    replay_jobs (fun _ _ _ => trivial) (fun _ _ => trivial) (strangerJobs_workers 0) hjobs
  exact ⟨_, one, alerts_le_one exactBackend_optimal.valid (Steps.trans run jobs)⟩

/-- The face comes back to a plugin that has forgotten its id, and is alerted again. -/
theorem returning_stranger_alerted_twice :
    ¬∀ s : Scene ℚ Unit, Reachable (scene exactBackend patientConfig ⟨"face_embeddings", 0⟩) s →
      ∀ tid, alerts s.runtime tid ≤ 1 := by
  intro once
  have twice : ((machine ⟨"face_embeddings", 0⟩).exec (machine ⟨"face_embeddings", 0⟩).start
      ((List.range 63).flatMap fun n =>
        [.swap, .frame (trackedFace n) smoothFrame] ++ strangerJobs n)).map (alerts · 1) =
          some 2 := by
    decide +kernel
  obtain ⟨r, hr, two⟩ := Option.map_eq_some_iff.mp twice
  obtain ⟨s, reached, rfl, -⟩ := replay strangerJobs_workers trackedFace_output hr
  have := once s reached 1
  omega

end Repeated

end SceneRuns
