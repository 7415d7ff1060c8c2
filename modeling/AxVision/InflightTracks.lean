import AxVision.TransitionRuns
import AxVision.IdentifyJobs
import AxVision.FrameSteps

/-!
# Frames and identify jobs side by side

The frame thread and the pool's workers meet in the result list. `OnFrame` is
two steps, the swap of that list and the rest; a job is taken from the queue in
any order and then leaves its effects one by one, between the steps of
everybody else. Jobs run to their end unless they stop for ever.
-/

namespace InflightTracks

open TransitionRuns DetectionTypes KeyedTables PushRequests FaceRecognition FrameSteps IdentifyJobs

universe u v

variable {F : Type u} {P : Type v}

/-- `draining` holds the results an `OnFrame` in progress has swapped out;
`running` the effects each started job has still to leave; `done` those left. -/
structure Runtime (F : Type u) (P : Type v) where
  plugin : FacePlugin F P
  draining : Option (List IdentifyResult) := none
  queued : List (Job F P) := []
  running : List (List (Effect F)) := []
  done : List (Effect F) := []

inductive Label (F : Type u) (P : Type v) where
  | swap
  | frame (objects : List (Object F)) (out : FrameOutcomes F P)
  | start (i : Nat) (out : JobOutcomes F P)
  | perform (j : Nat)

def applyEffect (plugin : FacePlugin F P) : Effect F → FacePlugin F P
  | .post r => plugin.postIdentifyResult r
  | _ => plugin

def step [Scalar F] (s : Runtime F P) : Label F P → Option (Runtime F P)
  | .swap =>
    if s.draining.isSome || !s.plugin.host then none
    else
      some { s with
        plugin := { s.plugin with identifyResults := [] }
        draining := some s.plugin.identifyResults }
  | .frame objects out =>
    match s.draining with
    | none => none
    | some results =>
      some { s with
        plugin := (s.plugin.onFrame results objects out).1
        draining := none
        queued := s.queued ++ (s.plugin.onFrame results objects out).2 }
  | .start i out =>
    match s.queued[i]? with
    | none => none
    | some job =>
      some { s with
        queued := s.queued.eraseIdx i
        running := s.running ++ [job.run s.plugin out] }
  | .perform j =>
    match s.running[j]? with
    | some (e :: rest) =>
      some { s with
        plugin := applyEffect s.plugin e
        running := s.running.set j rest
        done := s.done ++ [e] }
    | _ => none

/-- The plugin after a successful `Init`. -/
def machine [Scalar F] (config : Config F) : Machine (Runtime F P) (Label F P) where
  start := { plugin := FacePlugin.init config }
  step := step

/-- The non-negative track ids of a frame are pairwise distinct. -/
def DistinctTracks (_ : Runtime F P) : Label F P → Prop
  | .frame objects _ => (trackIds objects).Nodup
  | _ => True

/-- A result of the track is still to come or still to be drained. -/
inductive Awaited (s : Runtime F P) (tid : Int) : Prop where
  | queued (job : Job F P) : job ∈ s.queued → tid ∈ identifyIds job → Awaited s tid
  | running (trace : List (Effect F)) (ok : Bool) :
      trace ∈ s.running → .post ⟨tid, ok⟩ ∈ trace → Awaited s tid
  | posted (ok : Bool) : ⟨tid, ok⟩ ∈ s.plugin.identifyResults → Awaited s tid
  | draining (results : List IdentifyResult) (ok : Bool) :
      s.draining = some results → ⟨tid, ok⟩ ∈ results → Awaited s tid

def InflightAwaited (s : Runtime F P) : Prop :=
  ∀ tid p, s.plugin.trackPending.lookup tid = some p → p.identifyInflight = true → Awaited s tid

theorem applyEffect_tracks (plugin : FacePlugin F P) (e : Effect F) :
    (applyEffect plugin e).trackPending = plugin.trackPending ∧
      (applyEffect plugin e).host = plugin.host := by
  cases e <;> exact ⟨rfl, rfl⟩

section Steps

variable [Scalar F]

theorem run_posts {plugin : FacePlugin F P} {job : Job F P} (out : JobOutcomes F P) {tid : Int}
    (host : plugin.host = true) (h : tid ∈ identifyIds job) :
    ∃ ok, Effect.post ⟨tid, ok⟩ ∈ job.run plugin out := by
  cases job with
  | identify batch frame captureMsgId curTime curCreatedAt =>
    obtain ⟨item, hitem, rfl⟩ := List.mem_map.mp h
    rw [Job.run, host]
    exact item_posted hitem
  | lostTrack _ _ _ _ _ _ => cases h

/-- Starting a job turns its queued items into results to come. -/
theorem awaited_start {s t : Runtime F P} {i : Nat} {out : JobOutcomes F P} {tid : Int}
    (host : s.plugin.host = true) (hstep : step s (.start i out) = some t) (h : Awaited s tid) :
    Awaited t tid := by
  simp only [step] at hstep
  split at hstep
  · cases hstep
  · next job hjob =>
    cases hstep
    cases h with
    | queued job' hmem hid =>
      obtain ⟨k, hk⟩ := List.mem_iff_getElem?.mp hmem
      by_cases hki : k = i
      · subst hki
        rw [hjob] at hk
        cases hk
        obtain ⟨ok, hok⟩ := run_posts out host hid
        exact .running _ ok (List.mem_append_right _ (List.mem_singleton.mpr rfl)) hok
      · exact .queued job' (List.mem_eraseIdx_iff_getElem?.mpr ⟨k, hki, hk⟩) hid
    | running trace ok hmem hok => exact .running trace ok (List.mem_append_left _ hmem) hok
    | posted ok hmem => exact .posted ok hmem
    | draining results ok hdrain hmem => exact .draining results ok hdrain hmem

/-- A job's next effect either is the awaited result, which is then posted, or
leaves it to come. -/
theorem awaited_perform {s t : Runtime F P} {j : Nat} {tid : Int}
    (hstep : step s (.perform j) = some t) (h : Awaited s tid) : Awaited t tid := by
  simp only [step] at hstep
  split at hstep
  · next e rest hj =>
    cases hstep
    cases h with
    | queued job hmem hid => exact .queued job hmem hid
    | running trace ok hmem hok =>
      obtain ⟨k, hk⟩ := List.mem_iff_getElem?.mp hmem
      by_cases hkj : k = j
      · subst hkj
        rw [hj] at hk
        cases hk
        rcases List.mem_cons.mp hok with rfl | hrest
        · exact .posted ok (List.mem_append_right _ (List.mem_singleton.mpr rfl))
        · refine .running rest ok ?_ hrest
          exact List.mem_of_getElem? (List.getElem?_set_self (List.getElem?_eq_some_iff.mp hj).1)
      · refine .running trace ok ?_ hok
        exact List.mem_of_getElem? ((List.getElem?_set_ne (Ne.symm hkj)).trans hk)
    | posted ok hmem =>
      refine .posted ok ?_
      cases e with
      | post r => exact List.mem_append_left _ hmem
      | search _ => exact hmem
      | upsertPoints _ _ => exact hmem
      | pushAlert _ => exact hmem
      | pushVisitor _ => exact hmem
    | draining results ok hdrain hmem => exact .draining results ok hdrain hmem
  · cases hstep

theorem inflightAwaited_step {s t : Runtime F P} {l : Label F P}
    (inv : s.plugin.host = true ∧ InflightAwaited s) (hstep : step s l = some t) :
    t.plugin.host = true ∧ InflightAwaited t := by
  obtain ⟨host, awaited⟩ := inv
  cases l with
  | swap =>
    simp only [step] at hstep
    split at hstep
    · cases hstep
    · next idle =>
      cases hstep
      refine ⟨host, ?_⟩
      intro tid p held inflight
      cases awaited tid p held inflight with
      | queued job hmem hid => exact .queued job hmem hid
      | running trace ok hmem hok => exact .running trace ok hmem hok
      | posted ok hmem => exact .draining _ ok rfl hmem
      | draining results ok hdrain hmem => simp [hdrain] at idle
  | frame objects out =>
    simp only [step] at hstep
    split at hstep
    · cases hstep
    · next results hdrain =>
      cases hstep
      refine ⟨host, ?_⟩
      intro tid q kept inflight
      obtain ⟨p, hp, -, rfl | ⟨job, hjob, hid⟩⟩ := kept_from_seen kept
      · obtain ⟨old, hold, was, undrained⟩ := seen_inflight hp inflight
        cases awaited tid old hold was with
        | queued job hmem hid => exact .queued job (List.mem_append_left _ hmem) hid
        | running trace ok hmem hok => exact .running trace ok hmem hok
        | posted ok hmem => exact .posted ok hmem
        | draining results' ok hdrain' hmem =>
          rw [hdrain] at hdrain'
          cases hdrain'
          exact absurd hmem (undrained ok)
      · exact .queued job (List.mem_append_right _ hjob) hid
  | start i out =>
    have kept : t.plugin = s.plugin := by
      simp only [step] at hstep
      split at hstep <;> cases hstep
      rfl
    refine ⟨kept ▸ host, ?_⟩
    intro tid p held inflight
    rw [kept] at held
    exact awaited_start host hstep (awaited tid p held inflight)
  | perform j =>
    have kept : t.plugin.trackPending = s.plugin.trackPending ∧ t.plugin.host = s.plugin.host := by
      simp only [step] at hstep
      split at hstep <;> cases hstep
      exact applyEffect_tracks _ _
    refine ⟨kept.2.trans host, ?_⟩
    intro tid p held inflight
    rw [kept.1] at held
    exact awaited_perform hstep (awaited tid p held inflight)

/-- `feat_done` of an entry that survives a step survives with it. -/
theorem featDone_step {s t : Runtime F P} {l : Label F P} {tid : Int} {p q : TrackPending F P}
    (hstep : step s l = some t) (held : s.plugin.trackPending.lookup tid = some p)
    (done : p.featDone = true) (kept : t.plugin.trackPending.lookup tid = some q) :
    q.featDone = true := by
  have same : t.plugin.trackPending = s.plugin.trackPending → q.featDone = true := by
    intro tracks
    rw [tracks, held] at kept
    cases kept
    exact done
  cases l with
  | swap =>
    simp only [step] at hstep
    split at hstep <;> cases hstep
    exact same rfl
  | frame objects out =>
    simp only [step] at hstep
    split at hstep
    · cases hstep
    · next results hdrain =>
      cases hstep
      obtain ⟨p', hp', flag, -⟩ := kept_from_seen kept
      obtain ⟨d, hd, ddone, -⟩ := drain_some results held
      obtain ⟨q', hq', qdone, -⟩ := seen_flags objects out hd
      rw [hp'] at hq'
      cases hq'
      rw [flag, qdone, ddone, done, Bool.true_or]
  | start i out =>
    simp only [step] at hstep
    split at hstep <;> cases hstep
    exact same rfl
  | perform j =>
    simp only [step] at hstep
    split at hstep <;> cases hstep
    exact same (applyEffect_tracks _ _).1

omit [Scalar F] in
/-- An entry that is done or in flight is not open after the sightings. -/
theorem not_open {plugin : FacePlugin F P} {results : List IdentifyResult} (objects : List (Object F))
    (out : FrameOutcomes F P) {tid : Int} {d : TrackPending F P}
    (held : (drainIdentifyResults results plugin.trackPending).lookup tid = some d)
    (busy : d.featDone = true ∨ d.identifyInflight = true) :
    ¬∃ q, (seenTracks plugin results objects out).lookup tid = some q ∧ q.featDone = false ∧
      q.identifyInflight = false := by
  rintro ⟨q, hq, notDone, notInflight⟩
  obtain ⟨q', hq', done, inflight⟩ := seen_flags objects out held
  rw [hq] at hq'
  cases hq'
  rcases busy with hdone | hinflight
  · simp [notDone, hdone] at done
  · simp [notInflight, hinflight] at inflight

/-- In every state between the steps an entry in flight still has its result to
come; `feat_done` lasts as long as the entry; a frame gives no job to an entry
that is done or in flight, and at most one to any track, and it puts no such entry into its
batch and none twice, whatever becomes of the job. -/
theorem inflight_conservation {config : Config F} {s : Runtime F P}
    (h : ReachableBy (machine config) DistinctTracks s) :
    InflightAwaited s ∧
    (∀ t tid p q,
      Steps (machine config)
        (fun u l => DistinctTracks u l ∧ (u.plugin.trackPending.lookup tid).isSome) s t →
      s.plugin.trackPending.lookup tid = some p → p.featDone = true →
      t.plugin.trackPending.lookup tid = some q → q.featDone = true) ∧
    (∀ results objects out, s.draining = some results → (trackIds objects).Nodup →
      ((s.plugin.onFrame results objects out).2.flatMap jobIds).Nodup ∧
      ∀ tid p, (drainIdentifyResults results s.plugin.trackPending).lookup tid = some p →
        p.featDone = true ∨ p.identifyInflight = true →
        ∀ job ∈ (s.plugin.onFrame results objects out).2, tid ∉ jobIds job) ∧
    (∀ results objects out, s.draining = some results → (trackIds objects).Nodup →
      (batchIds (frameBatch s.plugin results objects out)).Nodup ∧
      ∀ tid p, (drainIdentifyResults results s.plugin.trackPending).lookup tid = some p →
        p.featDone = true ∨ p.identifyInflight = true →
        tid ∉ batchIds (frameBatch s.plugin results objects out)) := by
  refine ⟨?_, ?_, ?_, ?_⟩
  · have inv : s.plugin.host = true ∧ InflightAwaited s := by
      refine ReachableBy.invariant (I := fun u => u.plugin.host = true ∧ InflightAwaited u)
        ⟨rfl, ?_⟩ (fun u l t hu _ hstep => inflightAwaited_step hu hstep) h
      intro tid p held
      cases held
    exact inv.2
  · intro t tid p q run held done kept
    have carried : ∀ q, t.plugin.trackPending.lookup tid = some q → q.featDone = true := by
      clear kept
      induction run with
      | refl =>
        intro q hq
        rw [held] at hq
        cases hq
        exact done
      | snoc _ hok hstep ih =>
        intro q hq
        obtain ⟨mid, hmid⟩ := Option.isSome_iff_exists.mp hok.2
        exact featDone_step hstep hmid (ih mid hmid) hq
    exact carried q kept
  · intro results objects out _ distinct
    exact ⟨jobs_nodup distinct, fun tid d held busy job hjob htid =>
      not_open objects out held busy (job_of_open hjob htid)⟩
  · intro results objects out _ distinct
    exact ⟨frameBatch_nodup s.plugin results out distinct, fun tid d held busy inBatch =>
      not_open objects out held busy (frameBatch_open inBatch).2⟩

end Steps

/-- Every call of the frame succeeds and every face gets a feature. -/
def smoothFrame : FrameOutcomes ℚ Unit where
  captureMsgId := "msg"
  curTime := "time"
  curCreatedAt := 0
  cloneLast := fun _ => (0, ⟨some ()⟩)
  computeFrontalScore := fun _ => 0
  inferFaces := fun faces => (faces.map fun _ => ⟨some ()⟩, faces.map fun _ => [1])
  vectorsReady := true
  notifyReady := true
  cloneFrame := (0, ⟨some ()⟩)
  submitIdentify := true
  notifyReadyLost := fun _ => true
  cloneLost := fun _ => (0, ⟨some ()⟩)
  lostMsgId := fun _ => "lost"
  lostTime := fun _ => "time"
  submitLost := fun _ => true

/-- The face of track 7 after one frame: its identify job is queued. -/
def doorQueued : Runtime ℚ Unit where
  plugin := ((FacePlugin.init ⟨"face_embeddings", 0⟩).onFrame [] [doorItem.face] smoothFrame).1
  queued := ((FacePlugin.init ⟨"face_embeddings", 0⟩).onFrame [] [doorItem.face] smoothFrame).2

theorem door_inflight_awaited :
    ((doorQueued.plugin.trackPending.lookup 7).map TrackPending.identifyInflight = some true) ∧
      InflightAwaited doorQueued := by
  have run : ReachableBy (machine ⟨"face_embeddings", 0⟩) DistinctTracks doorQueued :=
    .snoc (l := .frame [doorItem.face] smoothFrame)
      (.snoc (l := .swap) (.refl _) trivial rfl)
      (by simp [DistinctTracks, trackIds, tracked, doorItem]) rfl
  exact ⟨by decide, (inflight_conservation run).1⟩

end InflightTracks
