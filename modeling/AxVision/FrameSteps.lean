import AxVision.FaceRecognition

/-!
# One frame of the face plugin, track by track

What each phase of `OnFrame` does to the entry of one track id, and which jobs
the frame submits. Later arguments about runs use only these statements.
-/

namespace FrameSteps

open DetectionTypes KeyedTables PushRequests FaceRecognition

universe u v

variable {F : Type u} {P : Type v}

def trackIds (objects : List (Object F)) : List Int :=
  (tracked objects).map Object.trackId

def batchIds (batch : List (IdentifyItem F P)) : List Int :=
  batch.map IdentifyItem.trackId

def identifyIds : Job F P → List Int
  | .identify batch _ _ _ _ => batchIds batch
  | .lostTrack _ _ _ _ _ _ => []

def lostIds : Job F P → List Int
  | .identify _ _ _ _ _ => []
  | .lostTrack _ _ lostTrackId _ _ _ => [lostTrackId]

/-- The track ids a job acts for. -/
def jobIds (job : Job F P) : List Int := identifyIds job ++ lostIds job

section Drain

theorem lookup_drain (results : List IdentifyResult) (tracks : Table Int (TrackPending F P))
    (tid : Int) :
    (drainIdentifyResults results tracks).lookup tid =
      (results.filter fun r => r.trackId = tid).foldl
        (fun o r => o.map (applyResult r)) (tracks.lookup tid) :=
  Table.lookup_foldl_alter _ _ _ _ _

theorem drain_none {results : List IdentifyResult} {tracks : Table Int (TrackPending F P)}
    {tid : Int} (absent : tracks.lookup tid = none) :
    (drainIdentifyResults results tracks).lookup tid = none := by
  rw [lookup_drain, absent]
  induction results.filter fun r => r.trackId = tid with
  | nil => rfl
  | cons r rest ih => exact ih

/-- Draining keeps an entry, closes it if some result was good, and clears the
flag if there was any result at all. -/
theorem drain_some (results : List IdentifyResult) {tracks : Table Int (TrackPending F P)}
    {tid : Int} {p : TrackPending F P} (held : tracks.lookup tid = some p) :
    ∃ q, (drainIdentifyResults results tracks).lookup tid = some q ∧
      q.featDone = (p.featDone || results.any fun r => r.trackId = tid && r.ok) ∧
      q.identifyInflight = (p.identifyInflight && !results.any fun r => r.trackId = tid) := by
  rw [lookup_drain, held]
  clear held
  induction results generalizing p with
  | nil => exact ⟨p, rfl, by simp, by simp⟩
  | cons r rest ih =>
    by_cases hr : r.trackId = tid
    · obtain ⟨q, hq, done, inflight⟩ := ih (p := applyResult r p)
      refine ⟨q, by simpa [hr] using hq, ?_, ?_⟩
      · rw [done]
        cases hok : r.ok <;> simp [applyResult, hok, hr]
      · rw [inflight]
        cases hok : r.ok <;> simp [applyResult, hok, hr]
    · obtain ⟨q, hq, done, inflight⟩ := ih (p := p)
      exact ⟨q, by simpa [hr] using hq, by simpa [hr] using done, by simpa [hr] using inflight⟩

/-- The frame in which a track with an entry was last seen. -/
def lastSeen (tracks : Table Int (TrackPending F P)) (tid : Int) : Option Int :=
  (tracks.lookup tid).map TrackPending.lastSeenFrame

theorem drain_lastSeen (results : List IdentifyResult) (tracks : Table Int (TrackPending F P))
    (tid : Int) : lastSeen (drainIdentifyResults results tracks) tid = lastSeen tracks tid := by
  rw [lastSeen, lookup_drain, lastSeen]
  generalize tracks.lookup tid = o
  induction results.filter fun r => r.trackId = tid generalizing o with
  | nil => rfl
  | cons r rest ih =>
    rw [List.foldl_cons, ih, Option.map_map]
    refine congrArg (Option.map · o) (funext fun p => ?_)
    rw [Function.comp_apply, applyResult]
    split <;> rfl

end Drain

section Observe

theorem lookup_observeAll (frameSeq : Int) (clone : Int → Int × ImageData P)
    (objects : List (Object F)) (tracks : Table Int (TrackPending F P)) (tid : Int) :
    (observeAll frameSeq clone objects tracks).lookup tid =
      ((tracked objects).filter fun f => f.trackId = tid).foldl
        (fun o f => observe frameSeq clone f o) (tracks.lookup tid) :=
  Table.lookup_foldl_alter _ _ _ _ _

theorem observe_some (frameSeq : Int) (clone : Int → Int × ImageData P) (f : Object F)
    (o : Option (TrackPending F P)) :
    ∃ q, observe frameSeq clone f o = some q ∧ q.featDone = (o.getD {}).featDone ∧
      q.identifyInflight = (o.getD {}).identifyInflight ∧ q.lastSeenFrame = frameSeq := by
  rw [observe]
  split
  · exact ⟨_, rfl, rfl, rfl, rfl⟩
  · exact ⟨_, rfl, rfl, rfl, rfl⟩

/-- A track of the frame has an entry with the old flags, or a fresh one, seen now. -/
theorem observeAll_seen (frameSeq : Int) (clone : Int → Int × ImageData P)
    {objects : List (Object F)} (tracks : Table Int (TrackPending F P)) {tid : Int}
    (seen : tid ∈ trackIds objects) :
    ∃ q, (observeAll frameSeq clone objects tracks).lookup tid = some q ∧
      q.featDone = ((tracks.lookup tid).getD {}).featDone ∧
      q.identifyInflight = ((tracks.lookup tid).getD {}).identifyInflight ∧
      q.lastSeenFrame = frameSeq := by
  rw [lookup_observeAll]
  obtain ⟨f, hf, rfl⟩ := List.mem_map.mp seen
  have some_sighting : (tracked objects).filter (fun g => g.trackId = f.trackId) ≠ [] := by
    apply List.ne_nil_of_mem
    exact List.mem_filter.mpr ⟨hf, by simp⟩
  generalize (tracked objects).filter (fun g => g.trackId = f.trackId) = sightings at some_sighting
  generalize tracks.lookup f.trackId = o
  induction sightings generalizing o with
  | nil => exact absurd rfl some_sighting
  | cons g rest ih =>
    obtain ⟨q, hq, done, inflight, seenNow⟩ := observe_some frameSeq clone g o
    rw [List.foldl_cons, hq]
    cases rest with
    | nil => exact ⟨q, rfl, done, inflight, seenNow⟩
    | cons g' rest =>
      obtain ⟨q', hq', done', inflight', seenNow'⟩ := ih (by simp) (some q)
      exact ⟨q', hq', by rw [done', ← done]; rfl, by rw [inflight', ← inflight]; rfl, seenNow'⟩

theorem observeAll_unseen {frameSeq : Int} {clone : Int → Int × ImageData P}
    {objects : List (Object F)} {tracks : Table Int (TrackPending F P)} {tid : Int}
    (unseen : tid ∉ trackIds objects) :
    (observeAll frameSeq clone objects tracks).lookup tid = tracks.lookup tid := by
  rw [lookup_observeAll]
  have none_sighted : (tracked objects).filter (fun g => g.trackId = tid) = [] := by
    apply List.filter_eq_nil_iff.mpr
    intro f hf hid
    exact unseen (List.mem_map.mpr ⟨f, hf, by simpa using hid⟩)
  rw [none_sighted]
  rfl

end Observe

section Batch

variable [Scalar F] {thresh : F} {score : Object F → F} {tracks : Table Int (TrackPending F P)}
  {objects : List (Object F)}

theorem toProcess_sublist : (toProcess thresh score tracks objects).Sublist (tracked objects) :=
  List.filter_sublist

theorem toProcess_open {f : Object F} {p : TrackPending F P}
    (hf : f ∈ toProcess thresh score tracks objects) (held : tracks.lookup f.trackId = some p) :
    p.featDone = false ∧ p.identifyInflight = false := by
  have wanted := (List.mem_filter.mp hf).2
  simp only [wantsIdentify, held, Bool.and_eq_true, Bool.not_eq_true', Bool.or_eq_false_iff] at wanted
  exact wanted.1

omit [Scalar F] in
/-- An item of the batch is a face of the list, which had an entry. -/
theorem identifyItem_some {faces : List (Object F)} {imgs : List (ImageData P)}
    {feat : List F × Nat} {item : IdentifyItem F P}
    (h : identifyItem tracks faces imgs feat = some item) :
    ∃ face, faces[feat.2]? = some face ∧ item.trackId = face.trackId ∧
      (tracks.lookup item.trackId).isSome := by
  simp only [identifyItem] at h
  split at h
  · cases h
  · split at h
    · next face img hface himg =>
      split at h
      · next hentry =>
        cases h
        exact ⟨face, hface, rfl, hentry⟩
      · cases h
    · cases h

omit [Scalar F] in
theorem batch_item {faces : List (Object F)} {imgs : List (ImageData P)} {feats : List (List F)}
    {tid : Int} (h : tid ∈ batchIds (identifyBatch tracks faces imgs feats)) :
    ∃ face ∈ faces, face.trackId = tid ∧ (tracks.lookup tid).isSome := by
  obtain ⟨item, hitem, rfl⟩ := List.mem_map.mp h
  obtain ⟨feat, -, hfeat⟩ := List.mem_filterMap.mp hitem
  obtain ⟨face, hface, hid, hentry⟩ := identifyItem_some hfeat
  exact ⟨face, List.mem_of_getElem? hface, hid.symm, hentry⟩

omit [Scalar F] in
/-- Faces with distinct ids give a batch with distinct ids. -/
theorem batch_nodup {faces : List (Object F)} {imgs : List (ImageData P)}
    {feats : List (List F)} (distinct : (faces.map Object.trackId).Nodup) :
    (batchIds (identifyBatch tracks faces imgs feats)).Nodup := by
  have positions : feats.zipIdx.Pairwise fun a b => a.2 ≠ b.2 := by
    have indices : (feats.zipIdx.map Prod.snd).Nodup := by
      rw [List.zipIdx_map_snd]
      exact List.nodup_range'
    exact List.pairwise_map.mp indices
  rw [batchIds, identifyBatch, List.map_filterMap, List.Nodup, List.pairwise_filterMap]
  refine positions.imp ?_
  intro a b hab x hx y hy hxy
  obtain ⟨item, hitem, rfl⟩ := Option.map_eq_some_iff.mp hx
  obtain ⟨item', hitem', rfl⟩ := Option.map_eq_some_iff.mp hy
  obtain ⟨face, hface, hid, -⟩ := identifyItem_some hitem
  obtain ⟨face', hface', hid', -⟩ := identifyItem_some hitem'
  have same : (faces.map Object.trackId)[a.2]? = (faces.map Object.trackId)[b.2]? := by
    simp [hface, hface', ← hid, ← hid', hxy]
  obtain ⟨bound, -⟩ := List.getElem?_eq_some_iff.mp hface
  exact hab ((List.getElem?_inj (by simpa using bound) distinct).mp same)

end Batch

section Submit

theorem lookup_mark (ids : List Int) (tracks : Table Int (TrackPending F P)) (tid : Int) :
    (markInflight ids tracks).lookup tid =
      if tid ∈ ids then (tracks.lookup tid).map setInflight else tracks.lookup tid :=
  Table.lookup_foldl_map (g := setInflight) (fun _ => rfl) ids tracks tid

theorem lookup_rollback (ids : List Int) (tracks : Table Int (TrackPending F P)) (tid : Int) :
    (rollbackInflight ids tracks).lookup tid =
      if tid ∈ ids then (tracks.lookup tid).map clearInflight else tracks.lookup tid :=
  Table.lookup_foldl_map (g := clearInflight) (fun _ => rfl) ids tracks tid

theorem clear_set {p : TrackPending F P} (clear : p.identifyInflight = false) :
    clearInflight (setInflight p) = p := by
  obtain ⟨face, frame, done, inflight, seen⟩ := p
  simp_all [clearInflight, setInflight]

/-- Rolling the marks of idle entries back restores every entry. -/
theorem rollback_mark {ids : List Int} {tracks : Table Int (TrackPending F P)}
    (idle : ∀ tid ∈ ids, ∀ p, tracks.lookup tid = some p → p.identifyInflight = false)
    (tid : Int) :
    (rollbackInflight ids (markInflight ids tracks)).lookup tid = tracks.lookup tid := by
  rw [lookup_rollback, lookup_mark]
  by_cases h : tid ∈ ids
  · cases held : tracks.lookup tid with
    | none => simp
    | some p => simp [h, clear_set (idle tid h p held)]
  · simp [h]

/-- Either the batch becomes a job and its tracks stay marked, or nothing is
submitted and every entry is as before the marks. -/
theorem submitBatch_cases (out : FrameOutcomes F P) {batch : List (IdentifyItem F P)}
    {tracks : Table Int (TrackPending F P)}
    (idle : ∀ tid ∈ batchIds batch, ∀ p, tracks.lookup tid = some p → p.identifyInflight = false) :
    ((submitBatch out batch (markInflight (batchIds batch) tracks)).2 = [] ∧
      ∀ tid, (submitBatch out batch (markInflight (batchIds batch) tracks)).1.lookup tid =
        tracks.lookup tid) ∨
    (submitBatch out batch (markInflight (batchIds batch) tracks) =
      (markInflight (batchIds batch) tracks,
        [.identify batch out.cloneFrame.2 out.captureMsgId out.curTime out.curCreatedAt])) := by
  simp only [submitBatch]
  split
  · next hempty =>
    rw [List.isEmpty_iff] at hempty
    subst hempty
    exact Or.inl ⟨rfl, fun _ => rfl⟩
  · split
    · exact Or.inl ⟨rfl, rollback_mark idle⟩
    · split
      · exact Or.inl ⟨rfl, rollback_mark idle⟩
      · split
        · exact Or.inr rfl
        · exact Or.inl ⟨rfl, rollback_mark idle⟩

end Submit

section Prune

/-- An entry is kept as it is, or is old and erased; only an idle old entry that
was never identified leaves a job, and the job names its track. -/
theorem pruneEntry_cases (out : FrameOutcomes F P) (frameSeq tid : Int) (p : TrackPending F P) :
    pruneEntry out frameSeq tid p = (some p, none) ∨
      kTrackPruneFrames < frameSeq - p.lastSeenFrame ∧
        (pruneEntry out frameSeq tid p = (none, none) ∨
          p.featDone = false ∧ p.identifyInflight = false ∧
            pruneEntry out frameSeq tid p =
              (none, some (.lostTrack (out.lostMsgId tid) (out.lostTime tid) tid
                (p.lastFace.map (strangerDescription tid)) p.lastFace (out.cloneLost tid).2))) := by
  simp only [pruneEntry]
  split
  · exact Or.inl rfl
  · next old =>
    have old : kTrackPruneFrames < frameSeq - p.lastSeenFrame := not_le.mp old
    split
    · exact Or.inr ⟨old, Or.inl rfl⟩
    · next done =>
      split
      · split
        · exact Or.inr ⟨old, Or.inl rfl⟩
        · exact Or.inl rfl
      · next inflight =>
        split
        · exact Or.inr ⟨old, Or.inl rfl⟩
        · split
          · exact Or.inr ⟨old, Or.inl rfl⟩
          · split
            · exact Or.inr ⟨old, Or.inr ⟨by simpa using done, by simpa using inflight, rfl⟩⟩
            · exact Or.inl rfl

theorem pruneTracks_lookup (out : FrameOutcomes F P) (frameSeq : Int)
    (tracks : Table Int (TrackPending F P)) (tid : Int) :
    (pruneTracks out frameSeq tracks).1.lookup tid =
      (tracks.lookup tid).bind fun p => (pruneEntry out frameSeq tid p).1 :=
  Table.lookup_filterMap _ _ _

/-- What the last loop keeps, it keeps unchanged. -/
theorem pruneTracks_kept {out : FrameOutcomes F P} {frameSeq : Int}
    {tracks : Table Int (TrackPending F P)} {tid : Int} {q : TrackPending F P}
    (kept : (pruneTracks out frameSeq tracks).1.lookup tid = some q) :
    tracks.lookup tid = some q ∧ pruneEntry out frameSeq tid q = (some q, none) := by
  rw [pruneTracks_lookup, Option.bind_eq_some_iff] at kept
  obtain ⟨p, hp, hq⟩ := kept
  rcases pruneEntry_cases out frameSeq tid p with same | ⟨-, erased | ⟨-, -, erased⟩⟩
  · rw [same] at hq
    cases hq
    exact ⟨hp, same⟩
  · rw [erased] at hq
    cases hq
  · rw [erased] at hq
    cases hq

theorem pruneTracks_job {out : FrameOutcomes F P} {frameSeq : Int}
    {tracks : Table Int (TrackPending F P)} {job : Job F P}
    (hjob : job ∈ (pruneTracks out frameSeq tracks).2) :
    ∃ tid p, identifyIds job = [] ∧ lostIds job = [tid] ∧ tracks.lookup tid = some p ∧ p.featDone = false ∧
      p.identifyInflight = false ∧ kTrackPruneFrames < frameSeq - p.lastSeenFrame := by
  obtain ⟨e, he, hjob⟩ := List.mem_filterMap.mp hjob
  rcases pruneEntry_cases out frameSeq e.1 e.2 with same | ⟨old, erased | ⟨done, inflight, erased⟩⟩
  · rw [same] at hjob
    cases hjob
  · rw [erased] at hjob
    cases hjob
  · rw [erased] at hjob
    cases hjob
    exact ⟨e.1, e.2, rfl, rfl, Table.mem_entries.mp he, done, inflight, old⟩

/-- Each entry leaves at most one job, for its own track. -/
theorem pruneTracks_ids_sublist (out : FrameOutcomes F P) (frameSeq : Int)
    (tracks : Table Int (TrackPending F P)) :
    ((pruneTracks out frameSeq tracks).2.flatMap jobIds).Sublist
      (tracks.entries.map Prod.fst) := by
  simp only [pruneTracks]
  induction tracks.entries with
  | nil => simp
  | cons e rest ih =>
    rcases pruneEntry_cases out frameSeq e.1 e.2 with same | ⟨-, erased | ⟨-, -, erased⟩⟩
    · simpa [same] using ih.cons e.1
    · simpa [erased] using ih.cons e.1
    · simpa [erased, jobIds, identifyIds, lostIds] using ih.cons_cons e.1

end Prune

section Frame

theorem trackIds_nonneg {objects : List (Object F)} {tid : Int} (h : tid ∈ trackIds objects) :
    0 ≤ tid := by
  obtain ⟨f, hf, rfl⟩ := List.mem_map.mp h
  simpa using (List.mem_filter.mp hf).2

variable [Scalar F]

/-- The entries after the results were drained and the frame's tracks were seen. -/
def seenTracks (s : FacePlugin F P) (results : List IdentifyResult) (objects : List (Object F))
    (out : FrameOutcomes F P) : Table Int (TrackPending F P) :=
  observeAll (s.frameSeq + 1) out.cloneLast objects (drainIdentifyResults results s.trackPending)

def frameBatch (s : FacePlugin F P) (results : List IdentifyResult) (objects : List (Object F))
    (out : FrameOutcomes F P) : List (IdentifyItem F P) :=
  let seen := seenTracks s results objects out
  let faces := toProcess s.config.frontalScoreThresh out.computeFrontalScore seen objects
  identifyBatch seen faces (out.inferFaces faces).1 (out.inferFaces faces).2

def submission (s : FacePlugin F P) (results : List IdentifyResult) (objects : List (Object F))
    (out : FrameOutcomes F P) : Table Int (TrackPending F P) × List (Job F P) :=
  submitBatch out (frameBatch s results objects out)
    (markInflight (batchIds (frameBatch s results objects out)) (seenTracks s results objects out))

variable {s : FacePlugin F P} {results : List IdentifyResult} {objects : List (Object F)}
  {out : FrameOutcomes F P}

theorem onFrame_eq :
    s.onFrame results objects out =
      ({ s with
          trackPending := (pruneTracks out (s.frameSeq + 1) (submission s results objects out).1).1
          frameSeq := s.frameSeq + 1 },
        (submission s results objects out).2 ++
          (pruneTracks out (s.frameSeq + 1) (submission s results objects out).1).2) :=
  rfl

theorem frameBatch_open {tid : Int} (h : tid ∈ batchIds (frameBatch s results objects out)) :
    tid ∈ trackIds objects ∧ ∃ p, (seenTracks s results objects out).lookup tid = some p ∧
      p.featDone = false ∧ p.identifyInflight = false := by
  obtain ⟨face, hface, rfl, hentry⟩ := batch_item h
  obtain ⟨p, hp⟩ := Option.isSome_iff_exists.mp hentry
  exact ⟨List.mem_map_of_mem (toProcess_sublist.subset hface), p, hp, toProcess_open hface hp⟩

theorem frameBatch_nodup (s : FacePlugin F P) (results : List IdentifyResult)
    (out : FrameOutcomes F P) (distinct : (trackIds objects).Nodup) :
    (batchIds (frameBatch s results objects out)).Nodup :=
  batch_nodup (distinct.sublist (toProcess_sublist.map _))

/-- Every batch the plugin builds has only non-negative track ids. -/
theorem frameBatch_nonneg {item : IdentifyItem F P} (h : item ∈ frameBatch s results objects out) :
    0 ≤ item.trackId :=
  trackIds_nonneg (frameBatch_open (List.mem_map_of_mem h)).1

theorem submission_cases (s : FacePlugin F P) (results : List IdentifyResult)
    (objects : List (Object F)) (out : FrameOutcomes F P) :
    ((submission s results objects out).2 = [] ∧
      ∀ tid, (submission s results objects out).1.lookup tid =
        (seenTracks s results objects out).lookup tid) ∨
    ((submission s results objects out).2 =
        [.identify (frameBatch s results objects out) out.cloneFrame.2 out.captureMsgId
          out.curTime out.curCreatedAt] ∧
      ∀ tid, (submission s results objects out).1.lookup tid =
        if tid ∈ batchIds (frameBatch s results objects out) then
          ((seenTracks s results objects out).lookup tid).map setInflight
        else (seenTracks s results objects out).lookup tid) := by
  have idle : ∀ tid ∈ batchIds (frameBatch s results objects out), ∀ p,
      (seenTracks s results objects out).lookup tid = some p → p.identifyInflight = false := by
    intro tid htid p hp
    obtain ⟨-, q, hq, -, clear⟩ := frameBatch_open htid
    rw [hq] at hp
    cases hp
    exact clear
  rcases submitBatch_cases out idle with none | submitted
  · exact Or.inl none
  · refine Or.inr ⟨by rw [submission, submitted], fun tid => ?_⟩
    rw [submission, submitted]
    exact lookup_mark _ _ _

omit [Scalar F] in
/-- An entry still in flight after the sightings was so before the frame, and no
drained result was its own. -/
theorem seen_inflight {tid : Int} {q : TrackPending F P}
    (held : (seenTracks s results objects out).lookup tid = some q)
    (inflight : q.identifyInflight = true) :
    ∃ p, s.trackPending.lookup tid = some p ∧ p.identifyInflight = true ∧
      ∀ ok, ⟨tid, ok⟩ ∉ results := by
  obtain ⟨d, hd, flag⟩ : ∃ d, (drainIdentifyResults results s.trackPending).lookup tid = some d ∧
      d.identifyInflight = true := by
    by_cases seen : tid ∈ trackIds objects
    · obtain ⟨q', hq', -, flag, -⟩ := observeAll_seen (s.frameSeq + 1) out.cloneLast
        (drainIdentifyResults results s.trackPending) seen
      rw [seenTracks, hq'] at held
      cases held
      rw [flag] at inflight
      cases hd : (drainIdentifyResults results s.trackPending).lookup tid with
      | none => simp [hd] at inflight
      | some d => exact ⟨d, rfl, by simpa [hd] using inflight⟩
    · rw [seenTracks, observeAll_unseen seen] at held
      exact ⟨q, held, inflight⟩
  cases hp : s.trackPending.lookup tid with
  | none =>
    rw [drain_none hp] at hd
    cases hd
  | some p =>
    obtain ⟨d', hd', -, flag'⟩ := drain_some results hp
    rw [hd] at hd'
    cases hd'
    rw [flag, eq_comm, Bool.and_eq_true] at flag'
    refine ⟨p, rfl, flag'.1, ?_⟩
    intro ok hmem
    exact absurd rfl ((by simpa using flag'.2 : ∀ r ∈ results, ¬r.trackId = tid) _ hmem)

omit [Scalar F] in
/-- The sightings leave the flags of a drained entry alone. -/
theorem seen_flags (objects : List (Object F)) (out : FrameOutcomes F P) {tid : Int} {d : TrackPending F P}
    (held : (drainIdentifyResults results s.trackPending).lookup tid = some d) :
    ∃ q, (seenTracks s results objects out).lookup tid = some q ∧ q.featDone = d.featDone ∧
      q.identifyInflight = d.identifyInflight := by
  by_cases seen : tid ∈ trackIds objects
  · obtain ⟨q, hq, done, inflight, -⟩ := observeAll_seen (s.frameSeq + 1) out.cloneLast
      (drainIdentifyResults results s.trackPending) seen
    rw [held] at done inflight
    exact ⟨q, hq, done, inflight⟩
  · exact ⟨d, by rw [seenTracks, observeAll_unseen seen, held], rfl, rfl⟩

/-- What the frame keeps was there after the sightings, with the same `feat_done`,
and is newly in flight only if it went into the submitted batch. -/
theorem kept_from_seen {tid : Int} {q : TrackPending F P}
    (kept : (s.onFrame results objects out).1.trackPending.lookup tid = some q) :
    ∃ p, (seenTracks s results objects out).lookup tid = some p ∧ q.featDone = p.featDone ∧
      (q = p ∨ ∃ job ∈ (s.onFrame results objects out).2, tid ∈ identifyIds job) := by
  rw [onFrame_eq] at kept ⊢
  obtain ⟨held, -⟩ := pruneTracks_kept kept
  rcases submission_cases s results objects out with
    ⟨-, same⟩ | ⟨jobs, marked⟩
  · rw [same] at held
    exact ⟨q, held, rfl, Or.inl rfl⟩
  · rw [marked] at held
    split at held
    · next hin =>
      obtain ⟨p, hp, rfl⟩ := Option.map_eq_some_iff.mp held
      have hjob : Job.identify (frameBatch s results objects out) out.cloneFrame.2
          out.captureMsgId out.curTime out.curCreatedAt ∈
            (submission s results objects out).2 := by simp [jobs]
      exact ⟨p, hp, rfl, Or.inr ⟨_, List.mem_append_left _ hjob, hin⟩⟩
    · exact ⟨q, held, rfl, Or.inl rfl⟩

/-- A job of the frame acts only for entries that were neither done nor in flight. -/
theorem job_of_open {tid : Int} {job : Job F P} (hjob : job ∈ (s.onFrame results objects out).2)
    (htid : tid ∈ jobIds job) :
    ∃ p, (seenTracks s results objects out).lookup tid = some p ∧ p.featDone = false ∧
      p.identifyInflight = false := by
  rw [onFrame_eq] at hjob
  rcases List.mem_append.mp hjob with submitted | pruned
  · rcases submission_cases s results objects out with
      ⟨jobs, -⟩ | ⟨jobs, -⟩
    · simp [jobs] at submitted
    · rw [jobs, List.mem_singleton] at submitted
      subst submitted
      have hin : tid ∈ batchIds (frameBatch s results objects out) := by
        simpa [jobIds, identifyIds, lostIds] using htid
      exact (frameBatch_open hin).2
  · obtain ⟨tid', p, hident, hlost, held, done, inflight, -⟩ := pruneTracks_job pruned
    have same : tid = tid' := by simpa [jobIds, hident, hlost] using htid
    subst same
    rcases submission_cases s results objects out with
      ⟨-, same⟩ | ⟨-, marked⟩
    · rw [same] at held
      exact ⟨p, held, done, inflight⟩
    · rw [marked] at held
      split at held
      · obtain ⟨p', -, rfl⟩ := Option.map_eq_some_iff.mp held
        simp [setInflight] at inflight
      · exact ⟨p, held, done, inflight⟩

omit [Scalar F] in
theorem seen_lastSeen (s : FacePlugin F P) (results : List IdentifyResult)
    (objects : List (Object F)) (out : FrameOutcomes F P) (tid : Int) :
    lastSeen (seenTracks s results objects out) tid =
      if tid ∈ trackIds objects then some (s.frameSeq + 1) else lastSeen s.trackPending tid := by
  split
  · next seen =>
    obtain ⟨q, hq, -, -, seenNow⟩ := observeAll_seen (s.frameSeq + 1) out.cloneLast
      (drainIdentifyResults results s.trackPending) seen
    rw [lastSeen, seenTracks, hq, Option.map_some, seenNow]
  · next unseen =>
    rw [lastSeen, seenTracks, observeAll_unseen unseen]
    exact drain_lastSeen results s.trackPending tid

theorem submission_lastSeen (s : FacePlugin F P) (results : List IdentifyResult)
    (objects : List (Object F)) (out : FrameOutcomes F P) (tid : Int) :
    lastSeen (submission s results objects out).1 tid =
      lastSeen (seenTracks s results objects out) tid := by
  rcases submission_cases s results objects out with ⟨-, same⟩ | ⟨-, marked⟩
  · rw [lastSeen, same, lastSeen]
  · rw [lastSeen, marked, lastSeen]
    split
    · rw [Option.map_map]
      rfl
    · rfl

/-- An entry outlives the frame unless its track is unseen for more than 60 frames. -/
theorem frame_lastSeen (s : FacePlugin F P) (results : List IdentifyResult)
    (objects : List (Object F)) (out : FrameOutcomes F P) {tid f : Int}
    (seen : (if tid ∈ trackIds objects then some (s.frameSeq + 1)
      else lastSeen s.trackPending tid) = some f) :
    lastSeen (s.onFrame results objects out).1.trackPending tid = some f ∨
      (s.onFrame results objects out).1.trackPending.lookup tid = none ∧
        kTrackPruneFrames < s.frameSeq + 1 - f := by
  rw [← seen_lastSeen s results objects out, ← submission_lastSeen] at seen
  obtain ⟨p, hp, rfl⟩ := Option.map_eq_some_iff.mp seen
  rw [onFrame_eq, lastSeen, pruneTracks_lookup, hp, Option.bind_some]
  rcases pruneEntry_cases out (s.frameSeq + 1) tid p with same | ⟨old, erased | ⟨-, -, erased⟩⟩
  · exact Or.inl (by rw [same]; rfl)
  · exact Or.inr ⟨by rw [erased], old⟩
  · exact Or.inr ⟨by rw [erased], old⟩

/-- A track of the frame was just seen and leaves no lost-track job. -/
theorem lost_unseen {tid : Int} {job : Job F P}
    (hjob : job ∈ (pruneTracks out (s.frameSeq + 1) (submission s results objects out).1).2)
    (htid : tid ∈ lostIds job) : tid ∉ trackIds objects := by
  intro seen
  obtain ⟨tid', p, -, hlost, held, -, -, old⟩ := pruneTracks_job hjob
  have same : tid = tid' := by simpa [hlost] using htid
  subst same
  have now := submission_lastSeen s results objects out tid
  rw [seen_lastSeen, if_pos seen, lastSeen, held] at now
  have now : p.lastSeenFrame = s.frameSeq + 1 := Option.some.inj now
  rw [now] at old
  simp [kTrackPruneFrames] at old

/-- With distinct tracks in the frame, no track has two of the frame's jobs. -/
theorem jobs_nodup (distinct : (trackIds objects).Nodup) :
    ((s.onFrame results objects out).2.flatMap jobIds).Nodup := by
  rw [onFrame_eq, List.flatMap_append, List.nodup_append]
  have pruned := (submission s results objects out).1.keys_nodup.sublist
    (pruneTracks_ids_sublist out (s.frameSeq + 1) (submission s results objects out).1)
  rcases submission_cases s results objects out with
    ⟨jobs, -⟩ | ⟨jobs, -⟩
  · simp only [jobs, List.flatMap_nil, List.nodup_nil, List.not_mem_nil, true_and]
    exact ⟨pruned, fun _ h => h.elim⟩
  · have ids : (submission s results objects out).2.flatMap jobIds =
        batchIds (frameBatch s results objects out) := by
      simp [jobs, jobIds, identifyIds, lostIds]
    refine ⟨ids ▸ frameBatch_nodup s results out distinct, pruned, ?_⟩
    rintro tid hbatch tid' hprune rfl
    rw [ids] at hbatch
    obtain ⟨job, hjob, htid⟩ := List.mem_flatMap.mp hprune
    obtain ⟨-, -, hident, -⟩ := pruneTracks_job hjob
    exact lost_unseen hjob (by simpa [jobIds, hident] using htid) (frameBatch_open hbatch).1

end Frame

end FrameSteps
