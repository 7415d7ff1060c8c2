import AxVision.InflightTracks
import AxVision.Ledgers

/-!
# Alerts per track over whole runs

Each entry that is neither done nor in flight may still lead to one alert. That
claim moves from the entry to a job, from a failed search back to the entry,
and at last to a pushed alert; it is never doubled. A new claim arises only
when an entry is created.
-/

namespace StrangerAlerts

open TransitionRuns DetectionTypes KeyedTables PushRequests FaceRecognition FrameSteps
open IdentifyJobs InflightTracks Ledgers

universe u v

variable {F : Type u} {P : Type v}

/-- How often a call hands the track to `PushAlert`. -/
def alertCount (tid : Int) : Effect F → Nat
  | .pushAlert req => req.trackIds.count tid
  | _ => 0

/-- The alerts of the identify path and of the lost-track path so far. -/
def alerts (s : Runtime F P) (tid : Int) : Nat := total (alertCount tid) s.done

def resultWeight (tid : Int) (r : IdentifyResult) : Nat :=
  if r.trackId = tid ∧ r.ok = false then 1 else 0

/-- An alert, or a failed search that gives the claim back to the entry. -/
def effectWeight (tid : Int) : Effect F → Nat
  | .post r => resultWeight tid r
  | .pushAlert req => req.trackIds.count tid
  | _ => 0

def jobWeight (tid : Int) : Job F P → Nat
  | .identify batch _ _ _ _ => (batchIds batch).count tid
  | .lostTrack _ _ _ alertDescription _ _ => ((alertDescription.map describedIds).getD []).count tid

def entryWeight : Option (TrackPending F P) → Nat
  | some p => if p.featDone || p.identifyInflight then 0 else 1
  | none => 0

/-- Everything outside `track_pending_` that has alerted the track or still may. -/
def claimed (s : Runtime F P) (tid : Int) : Nat :=
  total (jobWeight tid) s.queued + total (total (effectWeight tid)) s.running +
    total (resultWeight tid) s.plugin.identifyResults + alerts s tid

def exposure (s : Runtime F P) (tid : Int) : Nat :=
  entryWeight (s.plugin.trackPending.lookup tid) + claimed s tid +
    total (resultWeight tid) (s.draining.getD [])

theorem alerts_le_exposure (s : Runtime F P) (tid : Int) : alerts s tid ≤ exposure s tid := by
  simp only [exposure, claimed]
  omega

section Jobs

variable [Scalar F]

/-- Each item of the loop is a failed search, a stranger, or neither. -/
theorem loop_weight (tid : Int) (collection captureMsgId : String) (curCreatedAt : Int)
    (out : JobOutcomes F P) (i : Nat) (batch : List (IdentifyItem F P)) (acc : Identified F P) :
    total (effectWeight tid)
        (identifyLoop collection captureMsgId curCreatedAt out i batch acc).1 +
      ((strangersFrom out i batch).map IdentifyItem.trackId).count tid ≤
        (batchIds batch).count tid := by
  induction batch generalizing i acc with
  | nil => simp [identifyLoop, strangersFrom]
  | cons item rest ih =>
    rw [identifyLoop, strangersFrom]
    simp only [total_cons, batchIds, List.map_cons, List.count_cons, effectWeight, resultWeight]
    cases hok : (out.search i).ok with
    | false =>
      have tail := ih (i + 1) acc
      simp only [batchIds] at tail
      by_cases hid : item.trackId = tid <;> simp [hid] <;> omega
    | true =>
      cases hs : isStranger (out.search i) with
      | false =>
        have tail := ih (i + 1) (acc.add captureMsgId curCreatedAt (out.generateUuid i) item
          (out.search i))
        simp only [batchIds] at tail
        by_cases hid : item.trackId = tid <;> simp [hid] <;> omega
      | true =>
        have tail := ih (i + 1) (acc.add captureMsgId curCreatedAt (out.generateUuid i) item
          (out.search i))
        simp only [batchIds] at tail
        by_cases hid : item.trackId = tid <;> simp [hid] <;> omega

omit [Scalar F] in
theorem report_weight (tid : Int) (captureMsgId curTime : String) (out : JobOutcomes F P)
    (found : Identified F P) :
    total (effectWeight tid) (report captureMsgId curTime out found) ≤
      (((makeStrangerAlertDescription found.alertStrangerFaces).map describedIds).getD []).count
        tid := by
  have visitors : ∀ oriImg,
      total (effectWeight tid) (visitorEffects captureMsgId curTime out found oriImg) = 0 := by
    intro oriImg
    simp only [visitorEffects]
    split <;> simp [effectWeight]
  have named : ∀ oriImg, (alertRequest captureMsgId curTime
      (makeStrangerAlertDescription found.alertStrangerFaces) oriImg).trackIds =
        ((makeStrangerAlertDescription found.alertStrangerFaces).map describedIds).getD [] := by
    intro oriImg
    simp only [AlertPushRequest.trackIds, alertRequest]
    cases makeStrangerAlertDescription found.alertStrangerFaces <;> rfl
  simp only [report]
  split
  · simp
  · cases frameJpeg out with
    | none => simp
    | some frame =>
      rw [total_append, visitors, alertEffects]
      split
      · simp [effectWeight, named]
      · simp

/-- A job leaves no more claims than it was queued with. -/
theorem run_weight (tid : Int) (plugin : FacePlugin F P) (out : JobOutcomes F P) (job : Job F P) :
    total (effectWeight tid) (job.run plugin out) ≤ jobWeight tid job := by
  cases job with
  | identify batch frame captureMsgId curTime curCreatedAt =>
    rw [Job.run, runIdentifyAndPush, jobWeight]
    split
    · simp
    · split
      · apply le_of_eq
        rw [batchIds]
        induction batch with
        | nil => rfl
        | cons item rest ih =>
          rw [List.map_cons, total_cons, ih, List.map_cons, List.count_cons]
          by_cases hid : item.trackId = tid <;> simp [effectWeight, resultWeight, hid, Nat.add_comm]
      · have loop := loop_weight tid plugin.config.collection captureMsgId curCreatedAt out 0
          batch {}
        have alert := report_weight tid captureMsgId curTime out
          (identifyLoop plugin.config.collection captureMsgId curCreatedAt out 0 batch {}).2
        have upsert : ∀ found : Identified F P, total (effectWeight tid)
            (upsertEffects plugin.config.collection found) = 0 := by
          intro found
          rw [upsertEffects]
          split <;> simp [effectWeight]
        have named : (((makeStrangerAlertDescription (identifyLoop plugin.config.collection
            captureMsgId curCreatedAt out 0 batch {}).2.alertStrangerFaces).map
              describedIds).getD []).count tid ≤
            ((strangersFrom out 0 batch).map IdentifyItem.trackId).count tid := by
          rw [described_ids, loop_strangers, List.nil_append, List.map_map]
          exact List.Sublist.count_le tid List.filter_sublist
        simp only [total_append, upsert]
        omega
  | lostTrack lostMsgId lostTime lostTrackId alertDescription face frame =>
    rw [Job.run, runLostTrack, jobWeight]
    split
    · split
      · simp
      · cases alertDescription <;> simp [effectWeight, AlertPushRequest.trackIds, alertRequest]
    · simp

end Jobs

section Frames

/-- Submitting or erasing an entry in the last loop uses up its claim. -/
theorem pruneEntry_weight (out : FrameOutcomes F P) (frameSeq tid : Int) (p : TrackPending F P) :
    entryWeight (pruneEntry out frameSeq tid p).1 +
      ((pruneEntry out frameSeq tid p).2.elim 0 (jobWeight tid)) ≤ entryWeight (some p) := by
  rcases pruneEntry_cases out frameSeq tid p with same | ⟨-, erased | ⟨done, inflight, erased⟩⟩
  · simp [same]
  · simp [erased, entryWeight]
  · cases hface : p.lastFace with
    | none => simp [erased, entryWeight, jobWeight, hface]
    | some face =>
      have once : (describedIds (strangerDescription tid face)).count tid ≤ 1 := by
        rw [describedIds_single]
        split <;> simp
      simpa [erased, entryWeight, jobWeight, hface, done, inflight] using once

/-- A lost-track job names its own track only. -/
theorem pruneEntry_other (out : FrameOutcomes F P) (frameSeq : Int) {tid other : Int}
    (ne : other ≠ tid) (p : TrackPending F P) :
    (pruneEntry out frameSeq other p).2.elim 0 (jobWeight tid) = 0 := by
  rcases pruneEntry_cases out frameSeq other p with same | ⟨-, erased | ⟨-, -, erased⟩⟩
  · simp [same]
  · simp [erased]
  · cases hface : p.lastFace with
    | none => simp [erased, jobWeight, hface]
    | some face =>
      simp only [erased, jobWeight, hface, Option.elim_some, Option.map_some, Option.getD_some,
        describedIds_single]
      split <;> simp [ne]

theorem prune_jobs_weight (out : FrameOutcomes F P) (frameSeq tid : Int)
    (tracks : Table Int (TrackPending F P)) :
    total (jobWeight tid) (pruneTracks out frameSeq tracks).2 =
      (tracks.lookup tid).elim 0 fun p =>
        (pruneEntry out frameSeq tid p).2.elim 0 (jobWeight tid) := by
  obtain ⟨l, distinct⟩ := tracks
  simp only [pruneTracks, Table.lookup]
  induction l with
  | nil => rfl
  | cons e rest ih =>
    obtain ⟨other, p⟩ := e
    obtain ⟨fresh, tail⟩ := List.nodup_cons.mp distinct
    have head : ∀ jobs : List (Job F P),
        total (jobWeight tid) (((pruneEntry out frameSeq other p).2.toList) ++ jobs) =
          (pruneEntry out frameSeq other p).2.elim 0 (jobWeight tid) +
            total (jobWeight tid) jobs := by
      intro jobs
      cases (pruneEntry out frameSeq other p).2 <;> simp
    have split : ((other, p) :: rest).filterMap
        (fun e => (pruneEntry out frameSeq e.1 e.2).2) =
          (pruneEntry out frameSeq other p).2.toList ++
            rest.filterMap fun e => (pruneEntry out frameSeq e.1 e.2).2 := by
      rw [List.filterMap_cons]
      cases (pruneEntry out frameSeq other p).2 <;> rfl
    rw [split, head, ih tail, lookupIn_cons]
    by_cases hid : other = tid
    · subst hid
      have absent : lookupIn other rest = none := lookupIn_eq_none.mpr fresh
      simp [absent]
    · simp [hid, pruneEntry_other out frameSeq hid p]

variable [Scalar F] {s : FacePlugin F P} {results : List IdentifyResult} {objects : List (Object F)}
  {out : FrameOutcomes F P}

/-- The batch takes the claims of its entries with it. -/
theorem submission_weight (s : FacePlugin F P) (results : List IdentifyResult)
    (out : FrameOutcomes F P) (distinct : (trackIds objects).Nodup) (tid : Int) :
    entryWeight ((submission s results objects out).1.lookup tid) +
        total (jobWeight tid) (submission s results objects out).2 ≤
      entryWeight ((seenTracks s results objects out).lookup tid) := by
  rcases submission_cases s results objects out with
    ⟨jobs, same⟩ | ⟨jobs, marked⟩
  · simp [jobs, same]
  · rw [jobs, marked]
    by_cases hin : tid ∈ batchIds (frameBatch s results objects out)
    · obtain ⟨-, p, hp, done, inflight⟩ := frameBatch_open hin
      have once := List.nodup_iff_count_le_one.mp (frameBatch_nodup s results out distinct) tid
      simpa [hin, hp, entryWeight, setInflight, done, inflight, jobWeight] using once
    · simp [hin, jobWeight, List.count_eq_zero_of_not_mem hin]

/-- After the sightings a track's claims are those left by its entry. -/
theorem frame_weight (s : FacePlugin F P) (results : List IdentifyResult)
    (out : FrameOutcomes F P) (distinct : (trackIds objects).Nodup) (tid : Int) :
    entryWeight ((s.onFrame results objects out).1.trackPending.lookup tid) +
        total (jobWeight tid) (s.onFrame results objects out).2 ≤
      entryWeight ((seenTracks s results objects out).lookup tid) := by
  have submitted := submission_weight s results out distinct tid
  rw [onFrame_eq, total_append, prune_jobs_weight, pruneTracks_lookup]
  cases held : (submission s results objects out).1.lookup tid with
  | none =>
    rw [held] at submitted
    simpa [entryWeight] using submitted
  | some p =>
    have pruned := pruneEntry_weight out (s.frameSeq + 1) tid p
    rw [held] at submitted
    simp only [Option.bind_some, Option.elim_some]
    omega

omit [Scalar F] in
/-- A drained failure may reopen the entry, at the price of its own claim. -/
theorem seen_weight (results : List IdentifyResult) (objects : List (Object F))
    (out : FrameOutcomes F P) {tid : Int} {p : TrackPending F P} (held : s.trackPending.lookup tid = some p) :
    entryWeight ((seenTracks s results objects out).lookup tid) ≤
      entryWeight (s.trackPending.lookup tid) + total (resultWeight tid) results := by
  obtain ⟨d, hd, ddone, dinflight⟩ := drain_some results held
  obtain ⟨q, hq, done, inflight⟩ := seen_flags objects out hd
  rw [hq, held, entryWeight, entryWeight, done, inflight, ddone, dinflight]
  cases hpd : p.featDone with
  | true => simp
  | false =>
    cases hpi : p.identifyInflight with
    | false => simp only [Bool.false_or, Bool.false_and]; split <;> simp
    | true =>
      by_cases reopened : total (resultWeight tid) results = 0
      · have closed : ((results.any fun r => r.trackId = tid && r.ok) ||
            !(results.any fun r => r.trackId = tid)) = true := by
          by_cases any : results.any (fun r => r.trackId = tid) = true
          · obtain ⟨r, hr, hid⟩ := List.any_eq_true.mp any
            have good := total_eq_zero_iff.mp reopened r hr
            have hok : r.ok = true := by
              cases hok : r.ok with
              | true => rfl
              | false => simp [resultWeight, hok, of_decide_eq_true hid] at good
            have good : results.any (fun r => r.trackId = tid && r.ok) = true :=
              List.any_eq_true.mpr ⟨r, hr, by simp [hok, of_decide_eq_true hid]⟩
            simp [good]
          · simp [Bool.eq_false_iff.mpr any]
        simp only [Bool.false_or, Bool.true_and, closed]
        simp
      · simp only [Bool.false_or, Bool.true_and]
        split
        · simp
        · simp only [if_true, Nat.zero_add]
          omega

omit [Scalar F] in
theorem unseen_weight (results : List IdentifyResult) (out : FrameOutcomes F P) {tid : Int} (absent : s.trackPending.lookup tid = none)
    (unseen : tid ∉ trackIds objects) :
    entryWeight ((seenTracks s results objects out).lookup tid) = 0 := by
  rw [seenTracks, observeAll_unseen unseen, drain_none absent, entryWeight]

omit [Scalar F] in
theorem entryWeight_le_one (o : Option (TrackPending F P)) : entryWeight o ≤ 1 := by
  cases o with
  | none => simp [entryWeight]
  | some p =>
    rw [entryWeight]
    split <;> simp

end Frames

section Runs

/-- Whether a step creates an entry for a track. -/
def creates (s : Runtime F P) (tid : Int) : Label F P → Nat
  | .frame objects _ =>
    if tid ∈ trackIds objects ∧ s.plugin.trackPending.lookup tid = none then 1 else 0
  | _ => 0

variable [Scalar F]

/-- A step adds no claim but the one of an entry it creates. -/
theorem exposure_step {s t : Runtime F P} {l : Label F P} (distinct : DistinctTracks s l)
    (hstep : step s l = some t) (tid : Int) :
    exposure t tid ≤ exposure s tid + creates s tid l := by
  cases l with
  | swap =>
    simp only [step] at hstep
    split at hstep
    · cases hstep
    · next idle =>
      cases hstep
      have drained : s.draining = none := by
        cases hd : s.draining with
        | none => rfl
        | some results => simp [hd] at idle
      simp only [exposure, claimed, alerts, drained, Option.getD_none, Option.getD_some,
        total_nil]
      omega
  | frame objects out =>
    simp only [step] at hstep
    split at hstep
    · cases hstep
    · next results hdrain =>
      cases hstep
      have frame := frame_weight s.plugin results out distinct tid
      have undrained : (s.plugin.onFrame results objects out).1.identifyResults =
          s.plugin.identifyResults := rfl
      simp only [exposure, claimed, alerts, hdrain, total_append, Option.getD_none,
        Option.getD_some, total_nil, undrained, creates]
      cases held : s.plugin.trackPending.lookup tid with
      | some p =>
        have seen := seen_weight results objects out held
        rw [held] at seen
        omega
      | none =>
        by_cases seen : tid ∈ trackIds objects
        · have fresh := entryWeight_le_one
            ((seenTracks s.plugin results objects out).lookup tid)
          rw [if_pos ⟨seen, rfl⟩]
          omega
        · have gone := unseen_weight results out held seen
          omega
  | start i out =>
    simp only [step] at hstep
    split at hstep
    · cases hstep
    · next job hjob =>
      cases hstep
      have left := run_weight tid s.plugin out job
      have taken := total_eraseIdx (jobWeight tid) hjob
      simp only [exposure, claimed, alerts, total_append, total_cons, total_nil]
      omega
  | perform j =>
    simp only [step] at hstep
    split at hstep
    · next e rest hj =>
      cases hstep
      have moved := total_set (total (effectWeight tid)) hj rest
      have effect : total (resultWeight tid) (applyEffect s.plugin e).identifyResults +
          alertCount tid e =
            total (resultWeight tid) s.plugin.identifyResults + effectWeight tid e := by
        cases e <;> simp [applyEffect, FacePlugin.postIdentifyResult, alertCount, effectWeight]
      simp only [exposure, claimed, alerts, total_append, total_cons, total_nil,
        (applyEffect_tracks s.plugin e).1] at moved effect ⊢
      omega
    · cases hstep

end Runs

end StrangerAlerts
