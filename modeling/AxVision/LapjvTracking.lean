import AxVision.LapjvPaths
import AxVision.ThresholdedAssignments
import AxVision.TrackIdentity
import AxVision.TrackRenaming
import Mathlib.Algebra.Order.Field.Basic

/-!
# The tracker on its own solver

`BYTETracker::lapjv` calls the assignment solver that stands beside it. In every
run it asks for matrices whose entries are costs between 0 and 1, far from
`LARGE`, so on these the solver returns least assignments, and the tracker runs
as it would on a solver that always does. The linear systems are solved outside.
-/

namespace LapjvTracking

open DetectionTypes KalmanFilter STracks TrackAssociation ByteTracker TrackerProcessor
open KeyedTables OptimalAssignments ExactSolvers ThresholdedAssignments ProperAssignments
open TrackerSteps LabelTurns TrackIdentity LapjvPaths

universe u

section Backend

variable {F : Type u} [Scalar F]

/-- An index as the solution vectors hold it. -/
def index {n : Nat} (x : Option (Fin n)) : Int := x.elim (-1) fun j => ((j : Nat) : Int)

/-- The solver of the repository. It is never called without rows, where its
column loop would start below 0. -/
def codeBackend (lltSolve : Mat F 4 4 → Mat F 4 8 → Mat F 4 8) : Backend F where
  lapjvInternal
    | 0, _ => none
    | n + 1, cost =>
      (@LapjvSolver.lapjvInternal F _ (n + 1) Nat.instNeZeroSucc
          fun i j => entry cost i j (Scalar.ofRat 0)).map
        fun s => (List.ofFn fun i => index (s.x i), List.ofFn fun j => index (s.y j))
  lltSolve := lltSolve

end Backend

section Bounds

/-- All entries are costs between 0 and 1. -/
def Bounded (cost : List (List ℚ)) : Prop := ∀ row ∈ cost, ∀ c ∈ row, 0 ≤ c ∧ c ≤ 1

instance (cost : List (List ℚ)) : Decidable (Bounded cost) :=
  inferInstanceAs (Decidable (∀ row ∈ cost, ∀ c ∈ row, 0 ≤ c ∧ c ≤ 1))

variable {cost : List (List ℚ)}

theorem Bounded.entry (h : Bounded cost) {default : ℚ} (within : 0 ≤ default ∧ default ≤ 1)
    (i j : Nat) : 0 ≤ entry cost i j default ∧ entry cost i j default ≤ 1 := by
  rw [TrackAssociation.entry]
  cases held : cost[i]?.bind fun row => row[j]? with
  | none => exact within
  | some c =>
    obtain ⟨row, inside, place⟩ := Option.bind_eq_some_iff.mp held
    exact h row (List.mem_of_getElem? inside) c (List.mem_of_getElem? place)

/-- What two boxes share is no more than what they cover. -/
theorem iou_bounds (a b : Tlbr ℚ) : 0 ≤ iou a b ∧ iou a b ≤ 1 := by
  simp only [iou, ofRat_rat, lt_rat, stdMin_rat, stdMax_rat, decide_eq_true_eq]
  split
  · next wide =>
    split
    · next high =>
      have width : min a.right b.right - max a.left b.left + 1 ≤ a.right - a.left + 1 := by
        linarith only [min_le_left a.right b.right, le_max_left a.left b.left]
      have height : min a.bottom b.bottom - max a.top b.top + 1 ≤ a.bottom - a.top + 1 := by
        linarith only [min_le_left a.bottom b.bottom, le_max_left a.top b.top]
      have width' : min a.right b.right - max a.left b.left + 1 ≤ b.right - b.left + 1 := by
        linarith only [min_le_right a.right b.right, le_max_right a.left b.left]
      have height' : min a.bottom b.bottom - max a.top b.top + 1 ≤ b.bottom - b.top + 1 := by
        linarith only [min_le_right a.bottom b.bottom, le_max_right a.top b.top]
      have first := mul_le_mul width height high.le (wide.le.trans width)
      have second := mul_le_mul width' height' high.le (wide.le.trans width')
      have shared := mul_pos wide high
      constructor
      · exact div_nonneg shared.le (by linarith only [first, second, shared])
      · rw [div_le_one (by linarith only [first, second, shared])]
        linarith only [first, second]
    · exact ⟨le_rfl, zero_le_one⟩
  · exact ⟨le_rfl, zero_le_one⟩

theorem iouDistance_bounded (a b : List (STrack ℚ)) : Bounded (iouDistance a b) := by
  intro row member c inside
  rw [iouDistance] at member
  split at member
  · cases member
  · obtain ⟨t, -, rfl⟩ := List.mem_map.mp member
    obtain ⟨d, -, rfl⟩ := List.mem_map.mp inside
    obtain ⟨lower, upper⟩ := iou_bounds t.tlbr d.tlbr
    rw [ofRat_rat]
    exact ⟨sub_nonneg.mpr upper, sub_le_self 1 lower⟩

theorem below_longMax {thresh : ℚ} (small : thresh ≤ 1) : thresh < longMax := by
  refine small.trans_lt ?_
  norm_num [longMax]

theorem extendedCost_bounded (h : Bounded cost) (n m : Nat) {thresh : ℚ}
    (valid : 0 ≤ thresh ∧ thresh ≤ 1) : Bounded (extendedCost cost n m thresh) := by
  have fill : 0 ≤ fillCost cost thresh ∧ fillCost cost thresh ≤ 1 := by
    have twice : fillCost cost thresh + fillCost cost thresh = thresh :=
      fillCost_below (below_longMax valid.2)
    constructor
    · linarith only [twice, valid.1]
    · linarith only [twice, valid.2]
  intro row member c inside
  obtain ⟨i, -, rfl⟩ := List.mem_map.mp member
  obtain ⟨j, -, rfl⟩ := List.mem_map.mp inside
  split
  · exact h.entry fill i j
  · split
    · exact ⟨le_rfl, zero_le_one⟩
    · exact fill

/-- On these matrices the solver returns a least permutation. -/
theorem codeBackend_solves (lltSolve : Mat ℚ 4 4 → Mat ℚ 4 8 → Mat ℚ 4 8) {n : Nat} (pos : 0 < n)
    (h : Bounded cost) :
    ∃ σ : Equiv.Perm (Fin n),
      (codeBackend lltSolve).lapjvInternal n cost = some (solution σ, solution σ⁻¹) ∧
        Optimal (costAt cost) σ := by
  cases n with
  | zero => exact absurd pos (lt_irrefl 0)
  | succ n =>
    have bounds : ∀ i j : Fin (n + 1), 0 ≤ costAt cost i j ∧ costAt cost i j ≤ 1 :=
      fun i j => h.entry ⟨le_rfl, zero_le_one⟩ i j
    have spread : LapjvReductions.Spread (costAt (n := n + 1) cost) 0 1 :=
      ⟨fun i j => (bounds i j).1, fun i j => (bounds i j).2, by norm_num, by norm_num⟩
    obtain ⟨s, run, solved⟩ := lapjvInternal_reduced spread
    obtain ⟨σ, seats, owners, least⟩ := solution_of_reduced solved
    refine ⟨σ, ?_, least⟩
    have solved : LapjvSolver.lapjvInternal
        (fun i j : Fin (n + 1) => entry cost i j (Scalar.ofRat 0)) = some s := run
    simp only [codeBackend, solved, Option.map_some, seats, owners]
    rfl

end Bounds

section Agreement

/-- The same answers wherever the tracker asks. -/
structure Agree (backend backend' : Backend ℚ) : Prop where
  solver : ∀ n cost, 0 < n → Bounded cost →
    backend.lapjvInternal n cost = backend'.lapjvInternal n cost
  lltSolve : backend.lltSolve = backend'.lltSolve

/-- The solver of the repository, with a search where the tracker never asks. -/
def searching (lltSolve : Mat ℚ 4 4 → Mat ℚ 4 8 → Mat ℚ 4 8) : Backend ℚ where
  lapjvInternal n cost :=
    if 0 < n ∧ Bounded cost then (codeBackend lltSolve).lapjvInternal n cost
    else exactBackend.lapjvInternal n cost
  lltSolve := lltSolve

variable (lltSolve : Mat ℚ 4 4 → Mat ℚ 4 8 → Mat ℚ 4 8)

theorem searching_optimal : OptimalSolver (searching lltSolve) := by
  intro n cost
  rw [searching]
  dsimp only
  split
  · next asked => exact codeBackend_solves lltSolve asked.1 asked.2
  · exact exactBackend_optimal n cost

theorem searching_agrees : Agree (codeBackend lltSolve) (searching lltSolve) where
  solver _ _ pos bounded := (if_pos ⟨pos, bounded⟩).symm
  lltSolve := rfl

variable {lltSolve} {backend backend' : Backend ℚ} {t : BYTETracker ℚ}

theorem Agree.linearAssignment (agree : Agree backend backend') (a b : List (STrack ℚ))
    (rows cols : Nat) {thresh : ℚ} (valid : 0 ≤ thresh ∧ thresh ≤ 1) :
    linearAssignment backend (iouDistance a b) rows cols thresh =
      linearAssignment backend' (iouDistance a b) rows cols thresh := by
  rw [TrackAssociation.linearAssignment, TrackAssociation.linearAssignment]
  split
  · rfl
  · next nonempty =>
    have pos : 0 < (iouDistance a b).length :=
      List.length_pos_of_ne_nil (by simpa using nonempty)
    have same := agree.solver _ _
      (Nat.add_pos_left pos ((iouDistance a b).headD []).length)
      (extendedCost_bounded (iouDistance_bounded a b) (iouDistance a b).length
        ((iouDistance a b).headD []).length valid)
    simp only [lapjv, Bool.true_or, if_true, same]

theorem Agree.applyMatch (agree : Agree backend backend') :
    applyMatch backend = applyMatch backend' := by
  funext frameId l m
  rw [ByteTracker.applyMatch, ByteTracker.applyMatch, agree.lltSolve]

theorem Agree.confirmMatch (agree : Agree backend backend') :
    confirmMatch backend = confirmMatch backend' := by
  funext frameId l m
  rw [ByteTracker.confirmMatch, ByteTracker.confirmMatch, agree.lltSolve]

theorem Agree.update (agree : Agree backend backend')
    (valid : 0 ≤ t.matchThresh ∧ t.matchThresh ≤ 1) (objects : List (Object ℚ)) (next : Int) :
    t.update backend objects next = t.update backend' objects next := by
  have first : firstAssignment backend t objects = firstAssignment backend' t objects :=
    agree.linearAssignment _ _ _ _ valid
  have afterFirst_eq : afterFirst backend t objects = afterFirst backend' t objects := by
    rw [afterFirst, afterFirst, first, agree.applyMatch]
  have rTracked_eq : rTracked backend t objects = rTracked backend' t objects := by
    rw [rTracked, rTracked, first, afterFirst_eq]
  have second : secondAssignment backend t objects = secondAssignment backend' t objects := by
    rw [secondAssignment, secondAssignment, afterFirst_eq, rTracked_eq]
    exact agree.linearAssignment _ _ _ _ (by norm_num)
  have afterSecond_eq : afterSecond backend t objects = afterSecond backend' t objects := by
    rw [afterSecond, afterSecond, rTracked_eq, second, afterFirst_eq, agree.applyMatch]
  have afterLost_eq : afterLost backend t objects = afterLost backend' t objects := by
    rw [afterLost, afterLost, missed, missed, second, rTracked_eq, afterSecond_eq]
  have detectionsCp_eq : detectionsCp backend t objects = detectionsCp backend' t objects := by
    rw [detectionsCp, detectionsCp, first]
  have third : thirdAssignment backend t objects = thirdAssignment backend' t objects := by
    rw [thirdAssignment, thirdAssignment, afterLost_eq, detectionsCp_eq]
    exact agree.linearAssignment _ _ _ _ (by norm_num)
  have afterThird_eq : afterThird backend t objects = afterThird backend' t objects := by
    rw [afterThird, afterThird, third, detectionsCp_eq, afterLost_eq, agree.confirmMatch]
  simp only [BYTETracker.update, trackedMerged, lostMerged, stillTracked, activatedStracks,
    refindStracks, lostMarked, removedNow, newTracks, freshDetections, third, detectionsCp_eq,
    afterThird_eq]

end Agreement

section Runs

/-- Every tracker has a threshold that `Init` accepts. -/
def Accepted (p : Processor ℚ) : Prop :=
  ∀ label t, p.trackers.lookup label = some t → 0 ≤ t.matchThresh ∧ t.matchThresh ≤ 1

variable {backend backend' : Backend ℚ}

theorem init_accepted (config : AcceptedConfig ℚ) : Accepted (Processor.init config) := by
  intro label t held
  by_cases member : label ∈ config.trackLabels
  · rw [lookup_init config member] at held
    cases held
    exact (validThreshold_rat _).mp config.matchThresh_valid
  · rw [lookup_init_none config member] at held
    cases held

/-- A turn of a label keeps the thresholds, and two solvers that agree take it alike. -/
theorem Agree.processLabel (agree : Agree backend backend') {s : Pass ℚ}
    (h : Accepted s.processor) (label : String) :
    processLabel backend s label = processLabel backend' s label ∧
      Accepted (processLabel backend s label).processor := by
  cases held : s.processor.trackers.lookup label with
  | none =>
    rw [processLabel_absent held, processLabel_absent held]
    exact ⟨rfl, h⟩
  | some t =>
    have valid := h label t held
    constructor
    · rw [processLabel_present held, processLabel_present held]
      simp only [agree.update valid]
    · intro other u inside
      by_cases here : other = label
      · subst here
        rw [processLabel_tracker held] at inside
        cases inside
        exact valid
      · rw [processLabel_lookup s here] at inside
        exact h other u inside

theorem Agree.turns (agree : Agree backend backend') {labels : List String} {s : Pass ℚ}
    (h : Accepted s.processor) :
    turns backend labels s = turns backend' labels s ∧
      Accepted (turns backend labels s).processor := by
  induction labels generalizing s with
  | nil =>
    have none : ∀ b : Backend ℚ, LabelTurns.turns b [] s = s := fun _ => rfl
    rw [none, none]
    exact ⟨rfl, h⟩
  | cons label rest ih =>
    obtain ⟨same, kept⟩ := agree.processLabel h label
    have first : ∀ b : Backend ℚ, LabelTurns.turns b (label :: rest) s =
        LabelTurns.turns b rest (TrackerProcessor.processLabel b s label) := fun _ => rfl
    rw [first, first, ← same]
    exact ih kept

variable {config : AcceptedConfig ℚ} {frames : Nat → List (Object ℚ)}

theorem Agree.after (agree : Agree backend backend') (config : AcceptedConfig ℚ)
    (frames : Nat → List (Object ℚ)) (n : Nat) :
    Processor.after backend config frames n = Processor.after backend' config frames n ∧
      Accepted (Processor.after backend config frames n) := by
  induction n with
  | zero => exact ⟨rfl, init_accepted config⟩
  | succ n ih =>
    obtain ⟨same, accepted⟩ := ih
    obtain ⟨step, kept⟩ := agree.turns (s := ⟨_, blank (frames n)⟩) accepted
    refine ⟨?_, kept⟩
    rw [Processor.after, Processor.after, ← same]
    exact congrArg Pass.processor step

theorem Agree.output (agree : Agree backend backend') (n : Nat) :
    output backend config frames n = output backend' config frames n := by
  obtain ⟨same, accepted⟩ := agree.after config frames n
  rw [TrackerProcessor.output, TrackerProcessor.output, ← same]
  exact congrArg Pass.objects (agree.turns (s := ⟨_, blank (frames n)⟩) accepted).1

/-- In every run the repository's solver does for the tracker what an optimal one does. -/
theorem codeBackend_runs (lltSolve : Mat ℚ 4 4 → Mat ℚ 4 8 → Mat ℚ 4 8) :
    ∃ backend, OptimalSolver backend ∧ backend.lltSolve = lltSolve ∧
      ∀ config frames n,
        Processor.after (codeBackend lltSolve) config frames n =
            Processor.after backend config frames n ∧
          output (codeBackend lltSolve) config frames n = output backend config frames n :=
  ⟨searching lltSolve, searching_optimal lltSolve, rfl, fun _ _ n =>
    ⟨((searching_agrees lltSolve).after _ _ n).1, (searching_agrees lltSolve).output n⟩⟩

/-- The pairs of tracks and boxes are a least matching under the threshold. -/
theorem distances_solved {backend : Backend ℚ} (optimal : OptimalSolver backend)
    (a b : List (STrack ℚ)) {thresh : ℚ} (small : thresh ≤ 1) :
    Solves (iouDistance a b) a.length b.length thresh
      (linearAssignment backend (iouDistance a b) a.length b.length thresh) := by
  have shape := iouDistance_matrix a b
  by_cases empty : iouDistance a b = []
  · rw [empty, linearAssignment_nil]
    exact solves_empty (empty ▸ shape) rfl thresh
  · have sides : 0 < a.length ∧ 0 < b.length := by
      have := mt shape.empty empty
      omega
    obtain ⟨σ, found, least⟩ := optimal (a.length + b.length)
      (extendedCost (iouDistance a b) a.length b.length thresh)
    have proper := linearAssignment_proper optimal.valid a b thresh
    have matched := least_restrict shape least
    rw [← pairs_eq shape sides.1 sides.2 found (Proper.matching proper),
      fillCost_below (below_longMax small)] at matched
    exact solves_of_least proper matched

/-- In every frame of every run the high detections are matched with the tracks that are
held, and the low ones with tracks that are left over, at the least cost. -/
theorem associations_least (lltSolve : Mat ℚ 4 4 → Mat ℚ 4 8 → Mat ℚ 4 8)
    {config : AcceptedConfig ℚ} {frames : Nat → List (Object ℚ)} {n : Nat} {label : String}
    {t : BYTETracker ℚ}
    (held : (Processor.after (codeBackend lltSolve) config frames n).trackers.lookup label =
      some t) :
    let objects := detectionsOf (frames n) label
    let left := rTracked (codeBackend lltSolve) t objects
    Solves (iouDistance (start t) (detectionsHigh t objects)) (start t).length
        (detectionsHigh t objects).length t.matchThresh
        (firstAssignment (codeBackend lltSolve) t objects) ∧
      Solves
        (iouDistance (deref (afterFirst (codeBackend lltSolve) t objects).store left)
          (detectionsLow t objects))
        left.length (detectionsLow t objects).length (1 / 2)
        (secondAssignment (codeBackend lltSolve) t objects) := by
  intro objects left
  have agree := searching_agrees lltSolve
  have optimal := searching_optimal lltSolve
  obtain ⟨same, accepted⟩ := agree.after config frames n
  have valid := accepted label t held
  have sound : Sound t (Processor.after (searching lltSolve) config frames n).nextTrackId :=
    (after_secure config frames optimal.valid n).sound label t (same ▸ held)
  constructor
  · have boxes : ((start t).map STrack.predict).map STrack.tlbr =
        (start t).map STrack.tlbr := by
      rw [List.map_map]
      rfl
    rw [firstAssignment, sound.deref_pool, sound.predicted_eq, sound.pool_eq, List.length_range,
      TrackRenaming.iouDistance_congr boxes rfl, agree.linearAssignment _ _ _ _ valid]
    exact distances_solved optimal _ _ valid.2
  · have first : firstAssignment (codeBackend lltSolve) t objects =
        firstAssignment (searching lltSolve) t objects := agree.linearAssignment _ _ _ _ valid
    have moved : afterFirst (codeBackend lltSolve) t objects =
        afterFirst (searching lltSolve) t objects := by
      rw [afterFirst, afterFirst, first, agree.applyMatch]
    have pointers : left = rTracked (searching lltSolve) t objects := by
      change rTracked (codeBackend lltSolve) t objects = _
      rw [rTracked, rTracked, first, moved]
    change Solves _ _ _ _ (linearAssignment _
      (iouDistance (deref (afterFirst (codeBackend lltSolve) t objects).store left) _)
      left.length _ (1 / 2))
    rw [agree.linearAssignment _ _ _ _ (by norm_num), moved, pointers,
      ← sound.length_rTracked objects optimal.valid]
    exact distances_solved optimal _ _ (by norm_num)

theorem oneLabel_nodup : ["face"].Nodup := List.nodup_singleton _

theorem oneLabel_nonempty : ["face"] ≠ [] := List.cons_ne_nil _ _

def oneFace : AcceptedConfig ℚ := shippedConfig ["face"] oneLabel_nodup oneLabel_nonempty

def oneFaceFrames : Nat → List (Object ℚ) := fun _ => [sampleObject "face" 10]

/-- The tracker of one face after the first frame. -/
def secondFrameTracker : BYTETracker ℚ :=
  (turnUpdate (codeBackend exactBackend.lltSolve) (Processor.init oneFace) (oneFaceFrames 0) "face"
    (.ofConfig shippedTracker)).tracker

theorem secondFrame_least :
    let objects := detectionsOf (oneFaceFrames 1) "face"
    let backend := codeBackend exactBackend.lltSolve
    let left := rTracked backend secondFrameTracker objects
    Solves (iouDistance (start secondFrameTracker) (detectionsHigh secondFrameTracker objects))
        (start secondFrameTracker).length (detectionsHigh secondFrameTracker objects).length
        secondFrameTracker.matchThresh (firstAssignment backend secondFrameTracker objects) ∧
      Solves
        (iouDistance (deref (afterFirst backend secondFrameTracker objects).store left)
          (detectionsLow secondFrameTracker objects))
        left.length (detectionsLow secondFrameTracker objects).length (1 / 2)
        (secondAssignment backend secondFrameTracker objects) :=
  @associations_least exactBackend.lltSolve oneFace oneFaceFrames 1 "face" secondFrameTracker
    (process_turn _ (after_ready _ oneFace oneFaceFrames 0).1 List.mem_cons_self
      (lookup_init oneFace List.mem_cons_self) (oneFaceFrames 0)).1

end Runs

end LapjvTracking
