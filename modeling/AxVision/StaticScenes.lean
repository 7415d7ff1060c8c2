import AxVision.StationaryTracks
import AxVision.TrackIdentity

/-!
# Scenes that stand still

The same list of boxes in every frame, boxes of one label apart. Each box starts
a track in the first frame; from then on the track rests at its box, the least
assignment matches the two, and the greedy pass gives the box the same id.
-/

namespace StaticScenes

open DetectionTypes RoundedArithmetic STracks TrackAssociation ByteTracker TrackerProcessor
open KeyedTables
open ProperAssignments ExactSolvers OptimalAssignments TrackerSteps TrackerUpdates
open GreedyAssignments LabelTurns TrackIdentity StationaryTracks

section Assignment

theorem entry_iouDistance {a b : List (STrack ℚ)} {i j : Nat} {s d : STrack ℚ}
    (hi : a[i]? = some s) (hj : b[j]? = some d) (default : ℚ) :
    entry (iouDistance a b) i j default = 1 - iou s.tlbr d.tlbr := by
  have ha : a.length ≠ 0 := by
    have := (List.getElem?_eq_some_iff.mp hi).1
    omega
  have hb : b.length ≠ 0 := by
    have := (List.getElem?_eq_some_iff.mp hj).1
    omega
  rw [entry, iouDistance, if_neg (Nat.mul_ne_zero ha hb)]
  simp [hi, hj]

/-- Tracks and detections that fit one to one, and only so, are matched so. -/
theorem matched_diagonal {backend : Backend ℚ} (optimal : OptimalSolver backend) {thresh : ℚ}
    (positive : 0 < thresh) (small : thresh ≤ 1) {a b : List (STrack ℚ)}
    (length : a.length = b.length)
    (own : ∀ (i : Nat) (s d : STrack ℚ), a[i]? = some s → b[i]? = some d → iou s.tlbr d.tlbr = 1)
    (others : ∀ (i j : Nat) (s d : STrack ℚ), i ≠ j → a[i]? = some s → b[j]? = some d →
      iou s.tlbr d.tlbr = 0) {i : Nat} (hi : i < a.length) :
    (i, i) ∈ (linearAssignment backend (iouDistance a b) a.length b.length thresh).pairs := by
  have nonempty : iouDistance a b ≠ [] := by
    rw [iouDistance, if_neg (by rw [← length]; exact Nat.mul_ne_zero (by omega) (by omega))]
    intro h
    simp only [List.map_eq_nil_iff] at h
    simp [h] at hi
  obtain ⟨rows, cols⟩ := iouDistance_shape nonempty
  rw [← length] at cols
  obtain ⟨σ, solved, least⟩ := optimal (a.length + a.length)
    (extendedCost (iouDistance a b) a.length a.length thresh)
  have fill : fillCost (iouDistance a b) thresh = thresh / 2 := by
    have below : thresh < 2 ^ 63 - 1 := small.trans_lt (by norm_num)
    simp [fillCost, longMax, below]
  have real : ∀ i j : Nat, i < a.length → j < a.length →
      entry (iouDistance a b) i j (thresh / 2) = if i = j then 0 else 1 := by
    intro i j hi hj
    have hs := List.getElem?_eq_getElem hi
    have hd := List.getElem?_eq_getElem (length ▸ hj : j < b.length)
    rw [entry_iouDistance hs hd]
    split
    · next same =>
      subst same
      rw [own i _ _ hs hd, sub_self]
    · next ne => rw [others i j _ _ ne hs hd, sub_zero]
  have cost : ∀ i j : Fin (a.length + a.length),
      costAt (extendedCost (iouDistance a b) a.length a.length thresh) i j =
        if i.val < a.length ∧ j.val < a.length then if i.val = j.val then 0 else 1
        else if a.length ≤ i.val ∧ a.length ≤ j.val then 0
        else thresh / 2 := by
    intro i j
    rw [costAt, entry_extendedCost _ _ i.isLt j.isLt, fill]
    split
    · next h => exact real i j h.1 h.2
    · rfl
  have nonneg : ∀ i j : Fin (a.length + a.length), 0 ≤ costAt (extendedCost (iouDistance a b) a.length a.length thresh) i j := by
    intro i j
    rw [cost]
    split
    · split <;> norm_num
    · split
      · exact le_rfl
      · linarith
  have free : ∀ i : Fin (a.length + a.length),
      costAt (extendedCost (iouDistance a b) a.length a.length thresh) i
        (Equiv.refl (Fin (a.length + a.length)) i) = 0 := by
    intro i
    rw [cost, Equiv.refl_apply]
    by_cases hi : i.val < a.length
    · simp [hi]
    · simp [hi, not_lt.mp hi]
  have fixed : (σ ⟨i, by omega⟩ : Nat) = i := by
    have zero := least.entry_eq_zero nonneg free ⟨i, by omega⟩
    rw [cost] at zero
    by_cases hj : (σ ⟨i, by omega⟩ : Nat) < a.length
    · rw [if_pos ⟨hi, hj⟩] at zero
      by_contra ne
      rw [if_neg (Ne.symm ne)] at zero
      norm_num at zero
    · rw [if_neg (fun h => hj h.2), if_neg (fun h => absurd h.1 (not_le.mpr hi))] at zero
      linarith
  rw [linearAssignment, if_neg (by simpa using nonempty)]
  refine mem_pairs.mpr ?_
  rw [lapjv_solved (by omega) (by rw [rows, cols]; exact solved), rows, cols]
  rw [List.getElem?_map, List.getElem?_take, if_pos hi,
    getElem?_solution.mpr ⟨by omega, rfl⟩, fixed]
  simp [hi]

end Assignment

section Greedy

variable {D : List (Object ℚ)}

/-- Boxes of positive size, any two of them apart. -/
structure Spread (D : List (Object ℚ)) : Prop where
  width : ∀ o ∈ D, 0 < o.rect.width
  height : ∀ o ∈ D, 0 < o.rect.height
  separated : D.Pairwise Separated

theorem Spread.apart (h : Spread D) {i j : Nat} {a b : Object ℚ} (ne : i ≠ j)
    (hi : D[i]? = some a) (hj : D[j]? = some b) : Separated a b := by
  obtain ⟨bound, rfl⟩ := List.getElem?_eq_some_iff.mp hi
  obtain ⟨bound', rfl⟩ := List.getElem?_eq_some_iff.mp hj
  rcases Nat.lt_or_gt_of_ne ne with lt | gt
  · exact List.pairwise_iff_getElem.mp h.separated i j bound bound' lt
  · exact (List.pairwise_iff_getElem.mp h.separated j i bound' bound gt).symm

/-- The greedy scan for a box that stands at a detection finds this detection. -/
theorem bestDetection_own (h : Spread D) {assigned : List Nat} {k : Nat} {o : Object ℚ}
    (hk : D[k]? = some o) (free : k ∉ assigned) :
    bestDetection D assigned (boxTlbr o) = some k := by
  have mem := List.mem_of_getElem? hk
  have own := intersectionOverUnion_self (h.width o mem) (h.height o mem)
  refine (bestDetection_iff numberLine_rat).mpr ⟨free, ⟨o, hk, ?_⟩, ?_⟩
  · rw [own, kMinimumAssignmentIou, ofRat_rat, le_rat]
    norm_num
  · rintro e - ⟨a, b, ha, hb, le, lt⟩
    rw [hk] at hb
    cases hb
    by_cases same : e = k
    · subst same
      rw [hk] at ha
      cases ha
      rcases lt with lt | lt
      · rw [own, le_rat, decide_eq_false_iff_not] at lt
        exact lt le_rfl
      · exact lt_irrefl e lt
    · rw [own, intersectionOverUnion_separated (h.apart same ha hk), le_rat,
        decide_eq_true_eq] at le
      norm_num at le

/-- Tracks that stand at the detections, one each and in order, get them in order. -/
theorem assignTracks_own (h : Spread D) {tracks : List (STrack ℚ)} {assigned : List Nat} {k : Nat}
    (taken : ∀ d ∈ assigned, d < k)
    (boxes : ∀ (i : Nat) (s : STrack ℚ), tracks[i]? = some s →
      ∃ o, D[k + i]? = some o ∧ s.tlbr = boxTlbr o) (i : Nat) :
    lookupIn (k + i) (assignTracks D tracks assigned) = (ids tracks)[i]? := by
  induction tracks generalizing assigned k i with
  | nil => rfl
  | cons track rest ih =>
    obtain ⟨o, ho, box⟩ := boxes 0 track rfl
    rw [Nat.add_zero] at ho
    have best := bestDetection_own h ho fun hmem => absurd (taken k hmem) (lt_irrefl k)
    rw [assignTracks, box, best]
    cases i with
    | zero => simp [ids, KeyedLists.keys]
    | succ i =>
      rw [lookupIn_cons, if_neg (by omega), show k + (i + 1) = k + 1 + i by omega,
        ih (List.forall_mem_cons.mpr ⟨Nat.lt_succ_self k, fun d hd => (taken d hd).trans
          (Nat.lt_succ_self k)⟩)]
      · rfl
      · intro j s hs
        obtain ⟨o', ho', box'⟩ := boxes (j + 1) s hs
        exact ⟨o', by rw [← ho']; congr 1; omega, box'⟩

end Greedy

section Rest

variable {backend : Backend ℚ} {t : BYTETracker ℚ} {next : Int} {D : List (Object ℚ)}

/-- One track for each detection, in order, and each at rest at its own. -/
structure Fits (D : List (Object ℚ)) (t : BYTETracker ℚ) : Prop where
  length : (start t).length = D.length
  rests : ∀ (p : Nat) (o : Object ℚ) (s : STrack ℚ), D[p]? = some o → (start t)[p]? = some s →
    Resting o s
  old : ∀ s ∈ start t, s.state ≠ .new

/-- Thresholds under which a detection both matches and starts a track. -/
structure Admits (t : BYTETracker ℚ) (D : List (Object ℚ)) : Prop where
  positive : 0 < t.matchThresh
  small : t.matchThresh ≤ 1
  track : ∀ o ∈ D, t.trackThresh ≤ o.prob
  high : ∀ o ∈ D, t.highThresh ≤ o.prob

theorem Admits.detectionsHigh (h : Admits t D) : detectionsHigh t D = D.map newDetection := by
  apply List.filter_eq_self.mpr
  intro d hd
  obtain ⟨o, ho, rfl⟩ := List.mem_map.mp hd
  simpa using h.track o ho

theorem Fits.own (fits : Fits D t) {p : Nat} {s : STrack ℚ} (held : (start t)[p]? = some s) :
    ∃ o, D[p]? = some o ∧ Resting o s := by
  have bound := (List.getElem?_eq_some_iff.mp held).1
  have own := List.getElem?_eq_getElem (fits.length ▸ bound : p < D.length)
  exact ⟨_, own, fits.rests p _ s own held⟩

/-- The first association matches every track with its own detection. -/
theorem Fits.pairs (fits : Fits D t) (h : Sound t next) (optimal : OptimalSolver backend)
    (spread : Spread D) (admits : Admits t D) {p : Nat} (hp : p < (start t).length) :
    (p, p) ∈ (firstAssignment backend t D).pairs := by
  have predicted_length : (predicted t).length = (start t).length := by simp [h.predicted_eq]
  have at_rest : ∀ (i : Nat) (s : STrack ℚ), (predicted t)[i]? = some s →
      ∃ o, D[i]? = some o ∧ s.tlbr = boxTlbr o := by
    intro i s hs
    rw [h.predicted_eq, List.getElem?_map] at hs
    obtain ⟨s', held, rfl⟩ := Option.map_eq_some_iff.mp hs
    obtain ⟨o, ho, rests⟩ := fits.own held
    exact ⟨o, ho, rests.tlbr⟩
  rw [firstAssignment, h.deref_pool, h.pool_eq, List.length_range, admits.detectionsHigh,
    ← predicted_length]
  refine matched_diagonal optimal admits.positive admits.small ?_ ?_ ?_ (predicted_length ▸ hp)
  · rw [predicted_length, fits.length, List.length_map]
  · intro i s d hs hd
    obtain ⟨o, ho, box⟩ := at_rest i s hs
    rw [List.getElem?_map, ho] at hd
    cases hd
    have mem := List.mem_of_getElem? ho
    rw [box, newDetection_tlbr]
    exact iou_self (spread.width o mem) (spread.height o mem)
  · intro i j s d ne hs hd
    obtain ⟨o, ho, box⟩ := at_rest i s hs
    rw [List.getElem?_map] at hd
    obtain ⟨o', ho', rfl⟩ := Option.map_eq_some_iff.mp hd
    rw [box, newDetection_tlbr]
    exact iou_separated (spread.apart ne ho ho')

theorem Fits.visited (fits : Fits D t) (h : Sound t next) (optimal : OptimalSolver backend)
    (spread : Spread D) (admits : Admits t D) {p : Nat} {o : Object ℚ} (ho : D[p]? = some o) :
    lookupIn p (visits backend t D) = some (newDetection o) := by
  have bound : p < (start t).length := fits.length ▸ (List.getElem?_eq_some_iff.mp ho).1
  refine (mem_iff_lookupIn (h.visits_nodup D optimal.valid) p _).mp (List.mem_append_left _ ?_)
  refine mem_resolve.mpr ⟨(p, p), fits.pairs h optimal spread admits bound, ?_, ?_⟩
  · exact h.pool_getElem?.mpr ⟨rfl, bound⟩
  · rw [admits.detectionsHigh, List.getElem?_map, ho]
    rfl

theorem Fits.hit (fits : Fits D t) (h : Sound t next) (optimal : OptimalSolver backend)
    (spread : Spread D) (admits : Admits t D) {p : Nat} (hp : p < (start t).length) :
    Hit backend t D p :=
  hit_iff_lookup.mpr ⟨_, fits.visited h optimal spread admits
    (List.getElem?_eq_getElem (fits.length ▸ hp : p < D.length))⟩

theorem Fits.fresh (fits : Fits D t) (h : Sound t next) (optimal : OptimalSolver backend)
    (spread : Spread D) (admits : Admits t D) : freshDetections backend t D = [] := by
  have proper := h.first_proper D optimal.valid
  have none : (firstAssignment backend t D).unmatchedB = [] := by
    refine List.eq_nil_iff_forall_not_mem.mpr fun j hj => ?_
    obtain ⟨bound, unmatched⟩ := (proper.unmatchedB_iff j).mp hj
    rw [admits.detectionsHigh, List.length_map, ← fits.length] at bound
    exact unmatched (List.mem_map_of_mem (fits.pairs h optimal spread admits bound))
  rw [h.freshDetections_eq, detectionsCp, none]
  rfl

/-- A track at rest stays at rest at the detection that hits it. -/
theorem Fits.fate_rests (fits : Fits D t) (h : Sound t next) (optimal : OptimalSolver backend)
    (spread : Spread D) (admits : Admits t D) {p : Nat} {o : Object ℚ} {s : STrack ℚ}
    (ho : D[p]? = some o) (held : (start t)[p]? = some s) :
    Resting o (fate backend t D p s) := by
  rw [fate, fits.visited h optimal spread admits ho]
  refine hitBy_rests (spread.height o (List.mem_of_getElem? ho)).ne'
    (predict_rests (fits.rests p o s ho held)) ?_ backend _
  exact fits.old s (List.mem_of_getElem? held)

/-- A tracker that holds exactly one resting track for each detection. -/
structure Settled (D : List (Object ℚ)) (t : BYTETracker ℚ) : Prop where
  fits : Fits D t
  lost : t.lostStracks = []

theorem Settled.tracked (settled : Settled D t) : start t = t.trackedStracks := by
  rw [start, settled.lost, List.append_nil]

/-- An update of a settled tracker keeps every track and its place. -/
theorem Settled.update (settled : Settled D t) (h : Sound t next) (optimal : OptimalSolver backend)
    (spread : Spread D) (admits : Admits t D) :
    Settled D (t.update backend D next).tracker ∧
      ids (t.update backend D next).tracker.trackedStracks = ids t.trackedStracks := by
  obtain ⟨fits, lost⟩ := settled
  obtain ⟨tracked, none⟩ := update_all_hit h D optimal.valid lost
    (fun p hp => fits.hit h optimal spread admits hp) (fits.fresh h optimal spread admits)
  have store : start (t.update backend D next).tracker = (afterThird backend t D).store := by
    rw [start, tracked, none, List.append_nil]
  refine ⟨⟨⟨?_, ?_, ?_⟩, none⟩, ?_⟩
  · rw [store, h.store_length D optimal.valid, fits.length]
  · intro p o s ho hs
    rw [store, h.store_fate D optimal.valid] at hs
    obtain ⟨s', held, rfl⟩ := Option.map_eq_some_iff.mp hs
    exact fits.fate_rests h optimal spread admits ho held
  · intro s hs
    obtain ⟨p, hp⟩ := List.mem_iff_getElem?.mp hs
    rw [store, h.store_fate D optimal.valid] at hp
    obtain ⟨s', held, rfl⟩ := Option.map_eq_some_iff.mp hp
    have hit := fits.hit h optimal spread admits (List.getElem?_eq_some_iff.mp held).1
    rw [(fate_hit hit).2.1]
    exact fun h => by cases h
  · rw [tracked, ids_store h D optimal.valid, start, lost, List.append_nil]

/-- The first frame settles an empty tracker. -/
theorem first_settles (h : Sound t next) (optimal : OptimalSolver backend) (admits : Admits t D)
    (empty : start t = []) : Settled D (t.update backend D next).tracker := by
  obtain ⟨tracked, none⟩ := update_empty h D optimal.valid empty
  have all : ∀ det ∈ D.map newDetection, Scalar.lt det.score t.highThresh = false := by
    intro det hdet
    obtain ⟨o, ho, rfl⟩ := List.mem_map.mp hdet
    simpa using admits.high o ho
  have started : start (t.update backend D next).tracker =
      D.mapIdx fun p o => (newDetection o).activate (t.frameId + 1) (next + p) := by
    apply List.ext_getElem?
    intro p
    rw [start, tracked, none, List.append_nil, admits.detectionsHigh, initNew_getElem? all,
      List.getElem?_map, Option.map_map, List.getElem?_mapIdx]
    rfl
  refine ⟨⟨?_, ?_, ?_⟩, none⟩
  · rw [started, List.length_mapIdx]
  · intro p o s ho hs
    rw [started, List.getElem?_mapIdx, ho] at hs
    cases hs
    exact activate_resting o _ _
  · intro s hs
    rw [started, List.mem_mapIdx] at hs
    obtain ⟨p, hp, rfl⟩ := hs
    rw [(activate_spec _ _ _).2.1]
    exact fun h => by cases h

end Rest

section Frames

variable {backend : Backend ℚ} {config : AcceptedConfig ℚ} {objects : List (Object ℚ)}

/-- Boxes of configured labels, large and certain enough, apart within each label. -/
structure StaticScene (config : AcceptedConfig ℚ) (objects : List (Object ℚ)) : Prop where
  configured : ∀ o ∈ objects, o.labelName ∈ config.trackLabels
  width : ∀ o ∈ objects, 0 < o.rect.width
  height : ∀ o ∈ objects, 0 < o.rect.height
  score : ∀ o ∈ objects, max config.tracker.trackThresh config.tracker.highThresh ≤ o.prob
  separated : objects.Pairwise fun a b => a.labelName = b.labelName → Separated a b

theorem StaticScene.spread (scene : StaticScene config objects) (label : String) :
    Spread (detectionsOf objects label) := by
  have source : ∀ o ∈ detectionsOf objects label, ∃ o' ∈ objects, o = setTrackId (-1) o' := by
    intro o ho
    rw [detectionsOf_eq] at ho
    obtain ⟨o', ho', rfl⟩ := List.mem_map.mp ho
    exact ⟨o', (List.mem_filter.mp ho').1, rfl⟩
  refine ⟨?_, ?_, ?_⟩
  · intro o ho
    obtain ⟨o', ho', rfl⟩ := source o ho
    exact scene.width o' ho'
  · intro o ho
    obtain ⟨o', ho', rfl⟩ := source o ho
    exact scene.height o' ho'
  · rw [detectionsOf_eq, List.pairwise_map, List.pairwise_filter]
    refine scene.separated.imp ?_
    intro a b hab ha hb
    exact hab ((of_decide_eq_true ha).trans (of_decide_eq_true hb).symm)

/-- The thresholds of a tracker are those of the configuration. -/
structure Configured (config : BYTETrackerConfig ℚ) (t : BYTETracker ℚ) : Prop where
  track : t.trackThresh = config.trackThresh
  high : t.highThresh = config.highThresh
  matching : t.matchThresh = config.matchThresh

theorem StaticScene.admits (scene : StaticScene config objects)
    (positive : 0 < config.tracker.matchThresh) {t : BYTETracker ℚ}
    (configured : Configured config.tracker t) (label : String) :
    Admits t (detectionsOf objects label) := by
  have source : ∀ o ∈ detectionsOf objects label, ∃ o' ∈ objects, o.prob = o'.prob := by
    intro o ho
    rw [detectionsOf_eq] at ho
    obtain ⟨o', ho', rfl⟩ := List.mem_map.mp ho
    exact ⟨o', (List.mem_filter.mp ho').1, rfl⟩
  refine ⟨configured.matching ▸ positive, ?_, ?_, ?_⟩
  · rw [configured.matching]
    exact ((validThreshold_rat _).mp config.matchThresh_valid).2
  · intro o ho
    obtain ⟨o', ho', same⟩ := source o ho
    rw [configured.track, same]
    exact (le_max_left _ _).trans (scene.score o' ho')
  · intro o ho
    obtain ⟨o', ho', same⟩ := source o ho
    rw [configured.high, same]
    exact (le_max_right _ _).trans (scene.score o' ho')

/-- The objects of a label once each has the id of the track at its place. -/
theorem settled_objects {p : Processor ℚ} {label : String} {t : BYTETracker ℚ} (ready : Ready p)
    (secure : Secure p) (valid : Valid backend) (hlabel : label ∈ p.trackLabels)
    (ht : p.trackers.lookup label = some t) (spread : Spread (detectionsOf objects label))
    (settled : Settled (detectionsOf objects label)
      (turnUpdate backend p objects label t).tracker) (k : Nat) :
    (groupedDetections (p.process backend objects).objects label)[k]? =
      (detectionsOf objects label)[k]?.map fun o =>
        setTrackId ((ids (turnUpdate backend p objects label t).tracker.trackedStracks)[k]?.getD
          (-1)) o := by
  obtain ⟨after, grouped⟩ := process_turn backend ready hlabel ht objects
  have sound := (process_secure valid secure objects).1.sound label _ after
  have output : (turnUpdate backend p objects label t).output =
      (turnUpdate backend p objects label t).tracker.trackedStracks := by
    apply List.filter_eq_self.mpr
    exact fun s hs => (sound.tracked s hs).1
  have boxes : ∀ (i : Nat) (s : STrack ℚ),
      (turnUpdate backend p objects label t).tracker.trackedStracks[i]? = some s →
        ∃ o, (detectionsOf objects label)[0 + i]? = some o ∧ s.tlbr = boxTlbr o := by
    intro i s hs
    rw [← settled.tracked] at hs
    obtain ⟨o, ho, rests⟩ := settled.fits.own hs
    exact ⟨o, by rwa [Nat.zero_add], rests.tlbr⟩
  have own := assignTracks_own spread (fun _ h => absurd h List.not_mem_nil) boxes k
  rw [Nat.zero_add] at own
  rw [grouped, turnAssignment, output, own]

/-- Each label's tracker settles in the first frame and keeps its tracks from then on. -/
theorem scene_settles (optimal : OptimalSolver backend)
    (positive : 0 < config.tracker.matchThresh) (scene : StaticScene config objects)
    {label : String} (hlabel : label ∈ config.trackLabels) :
    ∃ kept : List Int, ∀ n, ∃ t u,
      (Processor.after backend config (fun _ => objects) n).trackers.lookup label = some t ∧
      Configured config.tracker t ∧
      u = (turnUpdate backend (Processor.after backend config (fun _ => objects) n) objects label
        t).tracker ∧
      Settled (detectionsOf objects label) u ∧ ids u.trackedStracks = kept := by
  have spread := scene.spread label
  have ready := fun n => after_ready backend config (fun _ => objects) n
  have secure := after_secure config (fun _ => objects) optimal.valid
  have counter : ∀ n t, (Processor.after backend config (fun _ => objects) n).trackers.lookup
      label = some t → Sound t (counterAt backend (Processor.after backend config
        (fun _ => objects) n) objects label) := by
    intro n t ht
    exact ((secure n).sound label t ht).mono (turns_secure optimal.valid _ (secure n)).2.counter
  refine ⟨ids (turnUpdate backend (Processor.init config) objects label
    (.ofConfig config.tracker)).tracker.trackedStracks, ?_⟩
  intro n
  induction n with
  | zero =>
    have held := lookup_init config hlabel
    have configured : Configured config.tracker (.ofConfig config.tracker) := ⟨rfl, rfl, rfl⟩
    exact ⟨_, _, held, configured, rfl, first_settles (counter 0 _ held) optimal
      (scene.admits positive configured label) rfl, rfl⟩
  | succ n ih =>
    obtain ⟨t, u, held, configured, rfl, settled, kept⟩ := ih
    have hn : label ∈ (Processor.after backend config (fun _ => objects) n).trackLabels :=
      (ready n).2.symm ▸ hlabel
    have next := (process_turn backend (ready n).1 hn held objects).1
    have configured' : Configured config.tracker (turnUpdate backend (Processor.after backend config
        (fun _ => objects) n) objects label t).tracker :=
      ⟨configured.track, configured.high, configured.matching⟩
    obtain ⟨again, same⟩ := settled.update (counter (n + 1) _ next) optimal spread
      (scene.admits positive configured' label)
    exact ⟨_, _, next, configured', rfl, again, same.trans kept⟩

/-- Two lists with the same labels in the same places and the same objects of each label. -/
theorem eq_of_grouped {l m : List (Object ℚ)}
    (labels : l.map Object.labelName = m.map Object.labelName)
    (groups : ∀ label, groupedDetections l label = groupedDetections m label) : l = m := by
  have at_place : ∀ {l m : List (Object ℚ)}, l.map Object.labelName = m.map Object.labelName →
      (∀ label, groupedDetections l label = groupedDetections m label) →
      ∀ (i : Nat) (o : Object ℚ), l[i]? = some o → m[i]? = some o := by
    intro l m labels groups i o ho
    obtain ⟨k, hk⟩ := List.mem_iff_getElem?.mp
      (mem_groupedIndices.mpr ⟨o, ho, rfl⟩ : i ∈ groupedIndices l o.labelName)
    have found : (groupedDetections l o.labelName)[k]? = some o := by
      rw [getElem?_groupedDetections, hk]
      exact ho
    rw [groups, getElem?_groupedDetections, ← groupedIndices_congr labels, hk] at found
    exact found
  apply List.ext_getElem?
  intro i
  apply Option.ext
  intro o
  exact ⟨at_place labels groups i o, at_place labels.symm (fun label => (groups label).symm) i o⟩

/-- In a scene that stands still every object has, in every frame, the id of the first frame, and
no two objects share one. -/
theorem static_scene_stable (optimal : OptimalSolver backend)
    (positive : 0 < config.tracker.matchThresh) (scene : StaticScene config objects) :
    (∀ n, output backend config (fun _ => objects) n = output backend config (fun _ => objects) 0) ∧
      ((output backend config (fun _ => objects) 0).map Object.trackId).Nodup ∧
      ∀ n, ∀ o ∈ output backend config (fun _ => objects) n, o.trackId ≠ -1 := by
  have ready := fun n => after_ready backend config (fun _ => objects) n
  have secure := after_secure config (fun _ => objects) optimal.valid
  have labels : ∀ n, (output backend config (fun _ => objects) n).map Object.labelName =
      objects.map Object.labelName := by
    intro n
    exact (turns_map labelName_setTrackId _ _).trans (by simp)
  have placed : ∀ label ∈ config.trackLabels, ∃ kept : List Int, ∀ n (k : Nat),
      kept.length = (detectionsOf objects label).length ∧
      (∀ id ∈ kept, 1 ≤ id) ∧
      (groupedDetections (output backend config (fun _ => objects) n) label)[k]? =
        (detectionsOf objects label)[k]?.map fun o => setTrackId (kept[k]?.getD (-1)) o := by
    intro label hlabel
    obtain ⟨kept, all⟩ := scene_settles optimal positive scene hlabel
    refine ⟨kept, ?_⟩
    intro n k
    obtain ⟨t, u, held, -, rfl, settled, rfl⟩ := all n
    have hn : label ∈ (Processor.after backend config (fun _ => objects) n).trackLabels :=
      (ready n).2.symm ▸ hlabel
    have next := (process_turn backend (ready n).1 hn held objects).1
    refine ⟨?_, ?_, settled_objects (ready n).1 (secure n) optimal.valid hn held
      (scene.spread label) settled k⟩
    · rw [← settled.fits.length, settled.tracked, ids, KeyedLists.keys, List.length_map]
    · intro id hid
      obtain ⟨s, hs, rfl⟩ := List.mem_map.mp hid
      exact (((secure (n + 1)).sound label _ next).allotted s (List.mem_append_left _ hs)).1
  have some_id : ∀ n, ∀ o ∈ output backend config (fun _ => objects) n, o.trackId ≠ -1 := by
    intro n o ho
    have configured : o.labelName ∈ config.trackLabels := by
      have mem : o.labelName ∈ objects.map Object.labelName := labels n ▸ List.mem_map_of_mem ho
      obtain ⟨o', ho', same⟩ := List.mem_map.mp mem
      exact same ▸ scene.configured o' ho'
    obtain ⟨kept, all⟩ := placed o.labelName configured
    obtain ⟨k, hk⟩ := mem_process ho
    obtain ⟨length, ids, place⟩ := all n k
    rw [output] at place
    rw [place] at hk
    obtain ⟨o', ho', written⟩ := Option.map_eq_some_iff.mp hk
    have bound : k < kept.length := length ▸ (List.getElem?_eq_some_iff.mp ho').1
    have id := ids _ (List.getElem_mem bound)
    rw [List.getElem?_eq_getElem bound, Option.getD_some] at written
    have : o.trackId = kept[k] := written ▸ rfl
    omega
  refine ⟨?_, ?_, some_id⟩
  · intro n
    refine eq_of_grouped ((labels n).trans (labels 0).symm) ?_
    intro label
    by_cases hlabel : label ∈ config.trackLabels
    · obtain ⟨kept, all⟩ := placed label hlabel
      apply List.ext_getElem?
      intro k
      rw [(all n k).2.2, (all 0 k).2.2]
    · have unconfigured : ∀ n, groupedDetections (output backend config (fun _ => objects) n)
          label = detectionsOf objects label :=
        fun n => process_unconfigured ((ready n).2.symm ▸ hlabel) objects
      rw [unconfigured, unconfigured]
  · have distinct := process_distinct (ready 0).1 (secure 0) optimal.valid objects
    rwa [List.filter_eq_self.mpr] at distinct
    intro id hid
    obtain ⟨o, ho, rfl⟩ := List.mem_map.mp hid
    simpa using some_id 0 o ho

/-- Two faces and a person that do not move: the hundredth frame is the first one. -/
theorem two_faces_and_a_person :
    output exactBackend (shippedConfig ["face", "person"] (by decide) (by decide))
        (fun _ => [sampleObject "face" 10, sampleObject "person" 10, sampleObject "face" 60]) 99 =
      output exactBackend (shippedConfig ["face", "person"] (by decide) (by decide))
        (fun _ => [sampleObject "face" 10, sampleObject "person" 10, sampleObject "face" 60]) 0 :=
  (static_scene_stable exactBackend_optimal (by norm_num [shippedConfig, shippedTracker])
    { configured := by simp [sampleObject, shippedConfig]
      width := by simp [sampleObject]
      height := by simp [sampleObject]
      score := by norm_num [sampleObject, shippedConfig, shippedTracker]
      separated := by
        norm_num [sampleObject, Separated]
        decide }).1 99

end Frames

end StaticScenes
