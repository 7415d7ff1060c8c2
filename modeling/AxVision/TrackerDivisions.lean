import AxVision.ExecutedDivisions
import AxVision.RoundedArithmetic
import AxVision.ScrfdDecoding
import AxVision.StationaryTracks
import AxVision.TrackIdentity
import AxVision.TrackRenaming

/-!
# The divisors of the tracker

Whether an update divides by 0, over any number type. The quotient of an overlap
never does, whatever is rounded. The height of a box is not looked at before it
is divided by, and it is the height that is left of it in the lower edge.
-/

namespace TrackerDivisions

open DetectionTypes RoundedArithmetic KalmanFilter STracks TrackAssociation ByteTracker
open TrackerProcessor ProperAssignments TrackerSteps LabelTurns TrackIdentity ExecutedDivisions

universe u

variable {F : Type u} [Scalar F]

/-- `d == 0`. -/
def IsZero (d : F) : Prop :=
  Scalar.le d (Scalar.ofRat 0) = true ∧ Scalar.le (Scalar.ofRat 0) d = true

theorem isZero_rat {d : ℚ} : IsZero d ↔ d = 0 := by
  simp only [IsZero, le_rat, ofRat_rat, decide_eq_true_eq]
  exact ⟨fun h => le_antisymm h.1 h.2, fun h => ⟨h.le, h.ge⟩⟩

section Processing

variable (backend : Backend F)

/-- The divisors of the turn of a label. -/
def turnDivisors (s : Pass F) (label : String) : List F :=
  match s.processor.trackers.lookup label with
  | none => []
  | some t => updateDivisors backend t (groupedDetections s.objects label) s.processor.nextTrackId

/-- The divisors of all updates of one call of `Process`. -/
def processDivisors (p : Processor F) (objects : List (Object F)) : List F :=
  p.trackLabels.flatMap fun label => turnDivisors backend (beforeTurn backend p objects label) label

end Processing

section Overlaps

variable {number : F → Prop}

/-- Where two boxes share pixels their union is not 0. -/
theorem iouDivisor_nonzero (rounding : Rounding F number) {a b : Tlbr F} {ua : F}
    (h : iouDivisor a b = some ua) : ¬IsZero ua := by
  simp only [iouDivisor] at h
  split at h
  · rename_i wide
    split at h
    · rename_i high
      have width := rounding.of_pos wide
      have height := rounding.of_pos high
      have pos := rounding.union_pos wide high (rounding.succ_mul_pos _ _ wide high)
        (rounding.shared_le width) (rounding.shared_le height)
      rw [← Option.some.inj h]
      exact fun zero => Bool.false_ne_true (pos.symm.trans zero.1)
    · cases h
  · cases h

theorem distanceDivisors_nonzero (rounding : Rounding F number) {a b : List (STrack F)} {d : F}
    (h : d ∈ distanceDivisors a b) : ¬IsZero d := by
  obtain ⟨t, -, ht⟩ := List.mem_flatMap.mp h
  obtain ⟨det, -, hd⟩ := List.mem_filterMap.mp ht
  exact iouDivisor_nonzero rounding hd

end Overlaps

section Pairings

variable (backend : Backend F) (t : BYTETracker F) (objects : List (Object F))

def highObjects : List (Object F) := objects.filter fun o => Scalar.le t.trackThresh o.prob

def lowObjects : List (Object F) := objects.filter fun o => !Scalar.le t.trackThresh o.prob

/-- `linear_assignment` of some tracks and the boxes of some objects. -/
def pairing (tracks : List (STrack F)) (objects : List (Object F)) (thresh : F) : Assignment :=
  linearAssignment backend (iouDistance tracks (objects.map newDetection)) tracks.length
    objects.length thresh

/-- The high objects against all tracks that are held. -/
def highPairing : Assignment := pairing backend (start t) (highObjects t objects) t.matchThresh

/-- The tracked tracks among those that the high objects leave. -/
def leftTracked : List (STrack F) :=
  (highPairing backend t objects).unmatchedA.filterMap fun i => t.trackedStracks[i]?

/-- The low objects against these. -/
def lowPairing : Assignment :=
  pairing backend (leftTracked backend t objects) (lowObjects t objects) (Scalar.ofRat (1 / 2))

theorem detectionsHigh_eq : detectionsHigh t objects = (highObjects t objects).map newDetection := by
  rw [detectionsHigh, List.filter_map, highObjects]
  rfl

theorem detectionsLow_eq : detectionsLow t objects = (lowObjects t objects).map newDetection := by
  rw [detectionsLow, List.filter_map, lowObjects]
  rfl

variable {backend t objects} {next : Int}

/-- No prediction moves a box before the association, so it is one of the boxes held. -/
theorem firstAssignment_eq (h : Sound t next) :
    firstAssignment backend t objects = highPairing backend t objects := by
  have boxes : ((start t).map STrack.predict).map STrack.tlbr = (start t).map STrack.tlbr := by
    rw [List.map_map]
    rfl
  rw [firstAssignment, h.deref_pool, h.predicted_eq, h.pool_eq, List.length_range,
    detectionsHigh_eq, List.length_map, TrackRenaming.iouDistance_congr boxes rfl]
  rfl

omit [Scalar F] in
/-- The tracked tracks come first in the store. -/
theorem tracked_getElem? (h : Sound t next) (p : Nat) :
    ((start t)[p]?.bind fun s => if s.state = .tracked then some s.tlbr else none) =
      (t.trackedStracks[p]?).map STrack.tlbr := by
  rw [start, List.getElem?_append]
  split
  · rename_i bound
    rw [List.getElem?_eq_getElem bound]
    exact if_pos (h.tracked _ (List.getElem_mem bound)).2.1
  · rename_i beyond
    rw [List.getElem?_eq_none (not_lt.mp beyond)]
    cases held : t.lostStracks[p - t.trackedStracks.length]? with
    | none => rfl
    | some s => exact if_neg (h.lost s (List.mem_of_getElem? held)).1

/-- What the first association leaves has the boxes it had. -/
theorem leftTracked_tlbr (h : Sound t next) (objects : List (Object F)) (valid : Valid backend) :
    (deref (afterFirst backend t objects).store (rTracked backend t objects)).map STrack.tlbr =
      (leftTracked backend t objects).map STrack.tlbr := by
  rw [deref, rTracked, h.first_unmatched objects valid, leftTracked, ← firstAssignment_eq h,
    List.filterMap_filter, List.map_filterMap, List.map_filterMap]
  refine List.filterMap_congr fun p unmatched => ?_
  have absent : p ∉ (resolve (strackPool t) (detectionsHigh t objects)
      (firstAssignment backend t objects).pairs).map Prod.fst := by
    rw [h.mem_firstVisits objects valid]
    exact (((h.first_proper objects valid).unmatchedA_iff p).mp unmatched).2
  rw [← tracked_getElem? h, stateAt, h.store_first objects valid]
  simp only [PointerStores.written_absent absent]
  cases (start t)[p]? with
  | none => rfl
  | some s =>
    by_cases state : s.state = .tracked
    · simp [state]
    · simp [state]

theorem secondAssignment_eq (h : Sound t next) (valid : Valid backend) :
    secondAssignment backend t objects = lowPairing backend t objects := by
  have boxes := leftTracked_tlbr h objects valid
  have length : (rTracked backend t objects).length = (leftTracked backend t objects).length := by
    rw [← h.length_rTracked objects valid]
    simpa only [List.length_map] using congrArg List.length boxes
  rw [secondAssignment, length, detectionsLow_eq, List.length_map,
    TrackRenaming.iouDistance_congr boxes rfl]
  rfl

end Pairings

section Heights

/-- What is left of the height of a box that is kept by its edges. -/
def keptHeight (o : Object F) : F := o.rect.y + o.rect.height - o.rect.y

theorem newDetection_divisors (o : Object F) :
    aspectDivisor (newDetection o).tlwh = keptHeight o ∧
      aspectDivisor (newDetection o).rawTlwh = keptHeight o := ⟨rfl, rfl⟩

/-- No object is paired of whose height nothing is left. -/
def Upright (objects : List (Object F)) (a : Assignment) : Prop :=
  ∀ m ∈ a.pairs, ∀ o, objects[m.2]? = some o → ¬IsZero (keptHeight o)

theorem matchDivisors_nonzero_iff {ptrs : List Nat} {objects : List (Object F)} {a : Assignment}
    (proper : Proper a ptrs.length objects.length) :
    (∀ d ∈ matchDivisors (resolve ptrs (objects.map newDetection) a.pairs), ¬IsZero d) ↔
      Upright objects a := by
  rw [matchDivisors, List.forall_mem_map]
  constructor
  · intro nonzero m hm o ho
    have bound := (proper.pair_lt m hm).1
    have held : ptrs[m.1]? = some ptrs[m.1] := List.getElem?_eq_getElem bound
    have seen : (objects.map newDetection)[m.2]? = some (newDetection o) := by
      rw [List.getElem?_map, ho]
      rfl
    have height := nonzero _ (mem_resolve.mpr ⟨m, hm, held, seen⟩)
    rwa [(newDetection_divisors o).1] at height
  · rintro upright ⟨p, det⟩ hmem
    obtain ⟨m, hm, -, seen⟩ := mem_resolve.mp hmem
    rw [List.getElem?_map] at seen
    obtain ⟨o, ho, rfl⟩ := Option.map_eq_some_iff.mp seen
    rw [(newDetection_divisors o).1]
    exact upright m hm o ho

/-- What a call of `update` may be given: no object of whose height nothing is left is paired
with a track, and none scores high enough to start one. -/
structure Spared (backend : Backend F) (t : BYTETracker F) (objects : List (Object F)) : Prop where
  high : Upright (highObjects t objects) (highPairing backend t objects)
  low : Upright (lowObjects t objects) (lowPairing backend t objects)
  fresh : ∀ o ∈ objects, Scalar.le t.trackThresh o.prob = true →
    Scalar.lt o.prob t.highThresh = false → ¬IsZero (keptHeight o)

variable {backend : Backend F} {t : BYTETracker F} {objects : List (Object F)} {next : Int}

theorem firstMatch_nonzero_iff (h : Sound t next) (valid : Valid backend) :
    (∀ d ∈ matchDivisors (resolve (strackPool t) (detectionsHigh t objects)
        (firstAssignment backend t objects).pairs), ¬IsZero d) ↔
      Upright (highObjects t objects) (highPairing backend t objects) := by
  have proper := h.first_proper objects valid
  rw [detectionsHigh_eq, List.length_map, ← List.length_range (n := (start t).length),
    ← h.pool_eq] at proper
  rw [detectionsHigh_eq, matchDivisors_nonzero_iff proper, firstAssignment_eq h]

theorem secondMatch_nonzero_iff (h : Sound t next) (valid : Valid backend) :
    (∀ d ∈ matchDivisors (resolve (rTracked backend t objects) (detectionsLow t objects)
        (secondAssignment backend t objects).pairs), ¬IsZero d) ↔
      Upright (lowObjects t objects) (lowPairing backend t objects) := by
  have proper := h.second_proper objects valid
  rw [detectionsLow_eq, List.length_map] at proper
  rw [detectionsLow_eq, matchDivisors_nonzero_iff proper, secondAssignment_eq h valid]

theorem startDivisors_nonzero_iff (h : Sound t next) :
    (∀ d ∈ startDivisors t.highThresh (freshDetections backend t objects), ¬IsZero d) ↔
      ∀ j ∈ (highPairing backend t objects).unmatchedB, ∀ o, (highObjects t objects)[j]? = some o →
        Scalar.lt o.prob t.highThresh = false → ¬IsZero (keptHeight o) := by
  have source (det : STrack F) : det ∈ freshDetections backend t objects ↔
      ∃ j ∈ (highPairing backend t objects).unmatchedB,
        ∃ o, (highObjects t objects)[j]? = some o ∧ newDetection o = det := by
    rw [h.freshDetections_eq, detectionsCp, firstAssignment_eq h, List.mem_filterMap,
      detectionsHigh_eq]
    simp only [List.getElem?_map, Option.map_eq_some_iff]
  rw [startDivisors, List.forall_mem_map]
  constructor
  · intro nonzero j hj o ho high
    have fresh : newDetection o ∈ freshDetections backend t objects :=
      (source _).mpr ⟨j, hj, o, ho, rfl⟩
    have height := nonzero (newDetection o)
      (List.mem_filter.mpr ⟨fresh, (Bool.not_eq_true' _).mpr high⟩)
    rwa [(newDetection_divisors o).2] at height
  · intro spared det hdet
    obtain ⟨fresh, high⟩ := List.mem_filter.mp hdet
    obtain ⟨j, hj, o, ho, rfl⟩ := (source det).mp fresh
    rw [(newDetection_divisors o).2]
    exact spared j hj o ho ((Bool.not_eq_true' _).mp high)

/-- Every high object is paired or left over, so what scores high enough to start
a track is divided by in either case. -/
theorem heights_iff (h : Sound t next) (objects : List (Object F)) (valid : Valid backend) :
    (Upright (highObjects t objects) (highPairing backend t objects) ∧
        ∀ j ∈ (highPairing backend t objects).unmatchedB, ∀ o,
          (highObjects t objects)[j]? = some o → Scalar.lt o.prob t.highThresh = false →
            ¬IsZero (keptHeight o)) ↔
      Upright (highObjects t objects) (highPairing backend t objects) ∧
        ∀ o ∈ objects, Scalar.le t.trackThresh o.prob = true →
          Scalar.lt o.prob t.highThresh = false → ¬IsZero (keptHeight o) := by
  have proper := h.first_proper objects valid
  rw [firstAssignment_eq h, detectionsHigh_eq, List.length_map] at proper
  refine and_congr_right fun upright => ?_
  constructor
  · intro left o ho track high
    have member : o ∈ highObjects t objects :=
      List.mem_filter.mpr ⟨ho, track⟩
    obtain ⟨j, hj⟩ := List.mem_iff_getElem?.mp member
    have bound := (List.getElem?_eq_some_iff.mp hj).1
    by_cases matched : j ∈ (highPairing backend t objects).pairs.map Prod.snd
    · obtain ⟨m, hm, rfl⟩ := List.mem_map.mp matched
      exact upright m hm o hj
    · exact left j ((proper.unmatchedB_iff j).mpr ⟨bound, matched⟩) o hj high
  · intro fresh j _ o ho high
    obtain ⟨member, track⟩ := List.mem_filter.mp (List.mem_of_getElem? ho)
    exact fresh o member track high

/-- A call of `update` never divides by 0 exactly where it is spared flat boxes. -/
theorem updateDivisors_nonzero_iff {number : F → Prop} (rounding : Rounding F number)
    (h : Sound t next) (valid : Valid backend) (nextTrackId : Int) :
    (∀ d ∈ updateDivisors backend t objects nextTrackId, ¬IsZero d) ↔ Spared backend t objects := by
  have overlaps (a b : List (STrack F)) : (∀ d ∈ distanceDivisors a b, ¬IsZero d) ↔ True :=
    iff_true_intro fun _ => distanceDivisors_nonzero rounding
  have third : matchDivisors (resolve (unconfirmed t) (detectionsCp backend t objects)
      (thirdAssignment backend t objects).pairs) = [] := by
    rw [h.thirdAssignment_eq]
    rfl
  simp only [updateDivisors, List.forall_mem_append, overlaps, third, List.append_nil, true_and,
    and_true, firstMatch_nonzero_iff h valid, secondMatch_nonzero_iff h valid, startDivisors_nonzero_iff h]
  have heights := heights_iff h objects valid
  constructor
  · rintro ⟨⟨high, low⟩, left⟩
    exact ⟨high, low, (heights.mp ⟨high, left⟩).2⟩
  · rintro ⟨high, low, fresh⟩
    exact ⟨⟨high, low⟩, (heights.mpr ⟨high, fresh⟩).2⟩

end Heights

section Runs

variable {backend : Backend F}

/-- Every label's tracker is spared what the frame has for it. -/
def SparedFrame (backend : Backend F) (p : Processor F) (objects : List (Object F)) : Prop :=
  ∀ label ∈ p.trackLabels, ∀ t, p.trackers.lookup label = some t →
    Spared backend t (detectionsOf objects label)

theorem processDivisors_nonzero_iff {number : F → Prop} (rounding : Rounding F number)
    (valid : Valid backend) {p : Processor F} (secure : Secure p) (objects : List (Object F)) :
    (∀ d ∈ processDivisors backend p objects, ¬IsZero d) ↔ SparedFrame backend p objects := by
  rw [processDivisors, List.forall_mem_flatMap, SparedFrame]
  refine forall₂_congr fun label _ => ?_
  obtain ⟨held, seen⟩ := beforeTurn_spec backend p objects label
  rw [turnDivisors, held, seen]
  cases ht : p.trackers.lookup label with
  | none => simp
  | some t => simp [updateDivisors_nonzero_iff rounding (secure.sound label t ht) valid]

/-- An update depends on the division at the divisors of its list and at 2 only, and
up to any frame of any run none of them is 0 exactly where no frame has a box that is paired
with a track or starts one and of whose height nothing is left. -/
theorem divisors_iff {number : F → Prop} (rounding : Rounding F number) (valid : Valid backend)
    (config : AcceptedConfig F) (frames : Nat → List (Object F)) (N : Nat) :
    (∀ (div : F → F → F) (t : BYTETracker F) (objects : List (Object F)) (next : Int),
      AgreesAt div [Scalar.ofRat 2] → AgreesAt div (updateDivisors backend t objects next) →
        @BYTETracker.update F (dividing div) backend t objects next =
          t.update backend objects next) ∧
    ((∀ n < N, ∀ d ∈ processDivisors backend (Processor.after backend config frames n) (frames n),
        ¬IsZero d) ↔
      ∀ n < N, SparedFrame backend (Processor.after backend config frames n) (frames n)) := by
  constructor
  · exact fun div t objects next halves agrees => update_dividing halves agrees
  · exact forall₂_congr fun n _ =>
      processDivisors_nonzero_iff rounding valid (after_secure config frames valid n) _

theorem upright_of_heights {objects : List (Object F)} (a : Assignment)
    (heights : ∀ o ∈ objects, ¬IsZero (keptHeight o)) : Upright objects a :=
  fun _ _ o ho => heights o (List.mem_of_getElem? ho)

/-- A frame without boxes of which no height is left is spared them by every tracker. -/
theorem sparedFrame_of_heights (p : Processor F) {objects : List (Object F)}
    (heights : ∀ o ∈ objects, ¬IsZero (keptHeight o)) : SparedFrame backend p objects := by
  intro label _ t _
  have seen : ∀ o ∈ detectionsOf objects label, ¬IsZero (keptHeight o) := by
    intro o ho
    obtain ⟨o', mem, rfl⟩ := List.mem_map.mp (mem_detectionsOf ho).1
    exact heights o' mem
  exact {
    high := upright_of_heights _ fun o ho => seen o (List.mem_of_mem_filter ho)
    low := upright_of_heights _ fun o ho => seen o (List.mem_of_mem_filter ho)
    fresh := fun o ho _ _ => seen o ho }

end Runs

section Faces

/-- The runs over a configuration that show one object again and again. -/
def shownAgain (config : AcceptedConfig ℚ) (o : Object ℚ) (n : Nat) : Processor ℚ :=
  Processor.after ExactSolvers.exactBackend config (fun _ => [o]) n

/-- A face that stays starts a track in the first frame, where its height of 40 pixels is divided
by, and is paired with it in all others. -/
theorem sampleObject_undivided :
    let config := shippedConfig ["face"] (by decide) (by decide)
    processDivisors ExactSolvers.exactBackend (shownAgain config (sampleObject "face" 10) 0)
        [sampleObject "face" 10] = [40] ∧
      ∀ n < 100, ∀ d ∈ processDivisors ExactSolvers.exactBackend
        (shownAgain config (sampleObject "face" 10) n) [sampleObject "face" 10], ¬IsZero d := by
  intro config
  have high : ¬IsZero (keptHeight (sampleObject "face" 10)) := by
    rw [isZero_rat]
    decide +kernel
  refine ⟨by decide +kernel, ?_⟩
  refine (divisors_iff rounding_rat ExactSolvers.exactBackend_optimal.valid _ _ 100).2.mpr
    fun n _ => sparedFrame_of_heights _ fun o ho => ?_
  rwa [List.mem_singleton.mp ho]

/-- A face whose sides truncate to 8 and 0 pixels. -/
def flatFace : Object ℚ :=
  { sampleObject "face" 10 with rect := ScrfdDecoding.wholeRect 10 20 8 (1 / 2) }

/-- It starts a track in the first frame, and its width is divided by 0. -/
theorem flatFace_divided :
    ¬∀ (backend : Backend ℚ) (config : AcceptedConfig ℚ) (frames : Nat → List (Object ℚ)),
      Valid backend →
        (∀ n, ∀ o ∈ frames n, ∃ x y width height,
          o.rect = ScrfdDecoding.wholeRect x y width height) →
        ∀ n, ∀ d ∈ processDivisors backend (Processor.after backend config frames n) (frames n),
          ¬IsZero d := by
  intro safe
  have valid : Valid ExactSolvers.exactBackend := ExactSolvers.exactBackend_optimal.valid
  have divisors := safe ExactSolvers.exactBackend
    (shippedConfig ["face"] (by decide) (by decide)) (fun _ => [flatFace]) valid
    (fun _ o ho => ⟨10, 20, 8, 1 / 2, by rw [List.mem_singleton.mp ho]; rfl⟩) 0
  have spared := (processDivisors_nonzero_iff rounding_rat valid (init_secure _) [flatFace]).mp
    divisors "face" List.mem_cons_self _ (lookup_init _ List.mem_cons_self)
  have seen : setTrackId (-1) flatFace ∈ detectionsOf [flatFace] "face" := by
    rw [detectionsOf_eq]
    exact List.mem_map_of_mem (List.mem_filter.mpr ⟨List.mem_cons_self, by decide⟩)
  have high : (1 / 2 : ℚ) ≤ 95 / 100 ∧ (3 / 5 : ℚ) ≤ 95 / 100 := by norm_num
  exact spared.fresh _ seen (decide_eq_true high.1)
    (decide_eq_false (not_lt.mpr high.2)) (isZero_rat.mpr (by decide +kernel))

end Faces

end TrackerDivisions
