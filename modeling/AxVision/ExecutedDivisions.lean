import AxVision.ByteTracker

/-!
# The divisions of an update

The quotients of `update` are the overlaps in its distance matrices and the
aspect ratios of the boxes that are matched or start a track; what else it
divides is divided by the literal 2. That the list is complete is said by
exchanging the division: an update depends on it at these divisors only.
-/

namespace ExecutedDivisions

open DetectionTypes KalmanFilter STracks TrackAssociation ByteTracker

universe u

variable {F : Type u} [Scalar F]

section Divisors

/-- The pixels that two boxes share, where they share any. -/
def sharedArea (a b : Tlbr F) : F :=
  (stdMin a.right b.right - stdMax a.left b.left + Scalar.ofRat 1) *
    (stdMin a.bottom b.bottom - stdMax a.top b.top + Scalar.ofRat 1)

/-- The divisor of an entry of `ious`, where the entry is a quotient. -/
def iouDivisor (a b : Tlbr F) : Option F :=
  let one : F := Scalar.ofRat 1
  let zero : F := Scalar.ofRat 0
  let boxArea := (b.right - b.left + one) * (b.bottom - b.top + one)
  let iw := stdMin a.right b.right - stdMax a.left b.left + one
  if Scalar.lt zero iw then
    let ih := stdMin a.bottom b.bottom - stdMax a.top b.top + one
    if Scalar.lt zero ih then
      some ((a.right - a.left + one) * (a.bottom - a.top + one) + boxArea - iw * ih)
    else none
  else none

theorem iou_eq (a b : Tlbr F) :
    iou a b = match iouDivisor a b with
      | some ua => sharedArea a b / ua
      | none => Scalar.ofRat 0 := by
  simp only [iou, iouDivisor]
  split
  · split <;> rfl
  · rfl

/-- The divisors of `iou_distance`. -/
def distanceDivisors (a b : List (STrack F)) : List F :=
  a.flatMap fun t => b.filterMap fun d => iouDivisor t.tlbr d.tlbr

/-- The divisor of `tlwh_to_xyah`. -/
def aspectDivisor (b : Tlwh F) : F := b.height

/-- `update` and `re_activate` of matched tracks divide by heights of their detections. -/
def matchDivisors (matched : List (Nat × STrack F)) : List F :=
  matched.map fun m => aspectDivisor m.2.tlwh

/-- Step 4 activates what scores high. -/
def startDivisors (highThresh : F) (dets : List (STrack F)) : List F :=
  (dets.filter fun det => !Scalar.lt det.score highThresh).map fun det =>
    aspectDivisor det.rawTlwh

variable (backend : Backend F)

/-- The divisors of one call of `update`, in its order. -/
def updateDivisors (t : BYTETracker F) (objects : List (Object F)) (nextTrackId : Int) : List F :=
  distanceDivisors (deref (predicted t) (strackPool t)) (detectionsHigh t objects) ++
    matchDivisors (resolve (strackPool t) (detectionsHigh t objects)
      (firstAssignment backend t objects).pairs) ++
    distanceDivisors (deref (afterFirst backend t objects).store (rTracked backend t objects))
      (detectionsLow t objects) ++
    matchDivisors (resolve (rTracked backend t objects) (detectionsLow t objects)
      (secondAssignment backend t objects).pairs) ++
    distanceDivisors (deref (afterLost backend t objects).store (unconfirmed t))
      (detectionsCp backend t objects) ++
    matchDivisors (resolve (unconfirmed t) (detectionsCp backend t objects)
      (thirdAssignment backend t objects).pairs) ++
    startDivisors t.highThresh (freshDetections backend t objects) ++
    distanceDivisors (trackedMerged backend t objects nextTrackId)
      (lostMerged backend t objects nextTrackId)

end Divisors

section Exchanged

/-- The number type with another division. -/
@[reducible] def dividing (div : F → F → F) : Scalar F :=
  { (inferInstance : Scalar F) with div := div }

/-- The division is that of the type at these divisors. -/
def AgreesAt (div : F → F → F) (divisors : List F) : Prop :=
  ∀ d ∈ divisors, ∀ x, div x d = x / d

variable {div : F → F → F}

theorem iou_dividing {a b : Tlbr F} (agrees : ∀ d ∈ iouDivisor a b, ∀ x, div x d = x / d) :
    @iou F (dividing div) a b = iou a b := by
  have exchanged : @iou F (dividing div) a b = match iouDivisor a b with
      | some ua => div (sharedArea a b) ua
      | none => Scalar.ofRat 0 := @iou_eq F (dividing div) a b
  rw [exchanged, iou_eq]
  cases same : iouDivisor a b with
  | none => rfl
  | some ua => exact agrees ua same _

theorem iouDistance_dividing {a b : List (STrack F)} (agrees : AgreesAt div (distanceDivisors a b)) :
    @iouDistance F (dividing div) a b = iouDistance a b := by
  have rows : (a.map fun t => b.map fun d => Scalar.ofRat 1 - @iou F (dividing div) t.tlbr d.tlbr) =
      a.map fun t => b.map fun d => Scalar.ofRat 1 - iou t.tlbr d.tlbr := by
    refine List.map_congr_left fun t ht => List.map_congr_left fun d hd => ?_
    rw [iou_dividing]
    intro ua here
    exact agrees ua (List.mem_flatMap.mpr ⟨t, ht, List.mem_filterMap.mpr ⟨d, hd, here⟩⟩)
  have exchanged : @iouDistance F (dividing div) a b =
      if a.length * b.length = 0 then []
      else a.map fun t => b.map fun d => Scalar.ofRat 1 - @iou F (dividing div) t.tlbr d.tlbr := rfl
  rw [exchanged, rows, iouDistance]

variable (halves : AgreesAt div [(Scalar.ofRat 2 : F)])

include halves

theorem half_dividing (x : F) : div x (Scalar.ofRat 2) = x / Scalar.ofRat 2 :=
  halves _ List.mem_cons_self x

theorem tlwhToXyah_dividing {b : Tlwh F} (agrees : AgreesAt div [aspectDivisor b]) :
    @tlwhToXyah F (dividing div) b = tlwhToXyah b := by
  have height : div b.width b.height = b.width / b.height := agrees _ List.mem_cons_self _
  have exchanged : @tlwhToXyah F (dividing div) b =
      ![b.left + div b.width (Scalar.ofRat 2), b.top + div b.height (Scalar.ofRat 2),
        div b.width b.height, b.height] := rfl
  rw [exchanged, half_dividing halves, half_dividing halves, height]
  rfl

theorem staticTlwh_dividing (s : STrack F) : @STrack.staticTlwh F (dividing div) s = s.staticTlwh := by
  unfold STrack.staticTlwh
  split
  · rfl
  · exact congrArg₂ (fun left top => { s with tlwh := ⟨s.mean 0 - left, s.mean 1 - top,
      s.mean 2 * s.mean 3, s.mean 3⟩ }) (half_dividing halves _) (half_dividing halves _)

theorem activate_dividing {s : STrack F} (agrees : AgreesAt div [aspectDivisor s.rawTlwh])
    (frameId trackId : Int) :
    @STrack.activate F (dividing div) s frameId trackId = s.activate frameId trackId := by
  simp only [STrack.activate, staticTlwh_dividing halves, tlwhToXyah_dividing halves agrees]
  rfl

theorem update_track_dividing {det : STrack F} (agrees : AgreesAt div [aspectDivisor det.tlwh])
    (lltSolve : Mat F 4 4 → Mat F 4 8 → Mat F 4 8) (s : STrack F) (frameId : Int) :
    @STrack.update F (dividing div) lltSolve s det frameId = s.update lltSolve det frameId := by
  simp only [STrack.update, staticTlwh_dividing halves, tlwhToXyah_dividing halves agrees]
  rfl

theorem reActivate_dividing {det : STrack F} (agrees : AgreesAt div [aspectDivisor det.tlwh])
    (lltSolve : Mat F 4 4 → Mat F 4 8 → Mat F 4 8) (s : STrack F) (frameId : Int) :
    @STrack.reActivate F (dividing div) lltSolve s det frameId =
      s.reActivate lltSolve det frameId := by
  simp only [STrack.reActivate, staticTlwh_dividing halves, tlwhToXyah_dividing halves agrees]
  rfl

theorem linearAssignment_dividing (backend : Backend F) (cost : List (List F)) (rows cols : Nat)
    (thresh : F) :
    @linearAssignment F (dividing div) backend cost rows cols thresh =
      linearAssignment backend cost rows cols thresh := by
  have fill : @fillCost F (dividing div) cost thresh = fillCost cost thresh := by
    have exchanged : @fillCost F (dividing div) cost thresh =
        if Scalar.lt thresh longMax then div thresh (Scalar.ofRat 2)
        else
          cost.flatten.foldl (fun m c => if Scalar.lt m c then c else m) (Scalar.ofRat (-1)) +
            Scalar.ofRat 1 := rfl
    rw [exchanged, half_dividing halves]
    rfl
  have extended (n m : Nat) : @extendedCost F (dividing div) cost n m thresh =
      extendedCost cost n m thresh := by
    simp only [extendedCost, fill]
    rfl
  simp only [linearAssignment, lapjv, extended]
  rfl

section Update

variable {backend : Backend F} {t : BYTETracker F} {objects : List (Object F)}

theorem applyMatch_dividing {m : Nat × STrack F} (agrees : AgreesAt div [aspectDivisor m.2.tlwh])
    (frameId : Int) (l : Locals F) :
    @applyMatch F (dividing div) backend frameId l m = applyMatch backend frameId l m := by
  simp only [applyMatch, update_track_dividing halves agrees, reActivate_dividing halves agrees]

theorem applyMatches_dividing {matched : List (Nat × STrack F)}
    (agrees : AgreesAt div (matchDivisors matched)) (frameId : Int) (l : Locals F) :
    matched.foldl (@applyMatch F (dividing div) backend frameId) l =
      matched.foldl (applyMatch backend frameId) l := by
  refine List.foldl_ext _ _ _ fun l m hm => applyMatch_dividing halves ?_ frameId l
  intro d hd
  rw [List.mem_singleton.mp hd]
  exact agrees _ (List.mem_map_of_mem hm)

theorem confirmMatches_dividing {matched : List (Nat × STrack F)}
    (agrees : AgreesAt div (matchDivisors matched)) (frameId : Int) (l : Locals F) :
    matched.foldl (@confirmMatch F (dividing div) backend frameId) l =
      matched.foldl (confirmMatch backend frameId) l := by
  refine List.foldl_ext _ _ _ fun l m hm => ?_
  have height : AgreesAt div [aspectDivisor m.2.tlwh] := by
    intro d hd
    rw [List.mem_singleton.mp hd]
    exact agrees _ (List.mem_map_of_mem hm)
  simp only [confirmMatch, update_track_dividing halves height]

theorem initNew_dividing {highThresh : F} {dets : List (STrack F)}
    (agrees : AgreesAt div (startDivisors highThresh dets)) (frameId next : Int) :
    @initNew F (dividing div) highThresh frameId dets next = initNew highThresh frameId dets next := by
  induction dets generalizing next with
  | nil => rfl
  | cons det rest ih =>
    have later : AgreesAt div (startDivisors highThresh rest) := by
      intro d hd
      obtain ⟨s, hs, same⟩ := List.mem_map.mp hd
      obtain ⟨member, high⟩ := List.mem_filter.mp hs
      exact agrees d (List.mem_map.mpr
        ⟨s, List.mem_filter.mpr ⟨List.mem_cons_of_mem det member, high⟩, same⟩)
    have exchanged : @initNew F (dividing div) highThresh frameId (det :: rest) next =
        if Scalar.lt det.score highThresh then
          @initNew F (dividing div) highThresh frameId rest next
        else
          (@STrack.activate F (dividing div) det frameId next ::
              (@initNew F (dividing div) highThresh frameId rest (next + 1)).1,
            (@initNew F (dividing div) highThresh frameId rest (next + 1)).2) := rfl
    rw [exchanged, initNew, ih later, ih later]
    split
    · rfl
    · rename_i high
      have height : AgreesAt div [aspectDivisor det.rawTlwh] := by
        intro d hd
        rw [List.mem_singleton.mp hd]
        exact agrees _ (List.mem_map_of_mem (List.mem_filter.mpr
          ⟨List.mem_cons_self, by simpa using high⟩))
      rw [activate_dividing halves height]

end Update

omit halves

/-- The division is that of the type wherever one call of `update` divides. -/
structure Agreeing (div : F → F → F) (backend : Backend F) (t : BYTETracker F)
    (objects : List (Object F)) (next : Int) : Prop where
  halves : AgreesAt div [(Scalar.ofRat 2 : F)]
  firstDistances : AgreesAt div
    (distanceDivisors (deref (predicted t) (strackPool t)) (detectionsHigh t objects))
  firstMatches : AgreesAt div (matchDivisors
    (resolve (strackPool t) (detectionsHigh t objects) (firstAssignment backend t objects).pairs))
  secondDistances : AgreesAt div (distanceDivisors
    (deref (afterFirst backend t objects).store (rTracked backend t objects))
    (detectionsLow t objects))
  secondMatches : AgreesAt div (matchDivisors (resolve (rTracked backend t objects)
    (detectionsLow t objects) (secondAssignment backend t objects).pairs))
  thirdDistances : AgreesAt div (distanceDivisors
    (deref (afterLost backend t objects).store (unconfirmed t)) (detectionsCp backend t objects))
  thirdMatches : AgreesAt div (matchDivisors (resolve (unconfirmed t)
    (detectionsCp backend t objects) (thirdAssignment backend t objects).pairs))
  starts : AgreesAt div (startDivisors t.highThresh (freshDetections backend t objects))
  duplicates : AgreesAt div (distanceDivisors (trackedMerged backend t objects next)
    (lostMerged backend t objects next))

theorem agreeing_of_updateDivisors {backend : Backend F} {t : BYTETracker F}
    {objects : List (Object F)} {next : Int} (halves : AgreesAt div [(Scalar.ofRat 2 : F)])
    (agrees : AgreesAt div (updateDivisors backend t objects next)) :
    Agreeing div backend t objects next := by
  simp only [AgreesAt, updateDivisors, List.forall_mem_append] at agrees
  obtain ⟨⟨⟨⟨⟨⟨⟨first, firsts⟩, second⟩, seconds⟩, third⟩, thirds⟩, starts⟩, duplicates⟩ := agrees
  exact ⟨halves, first, firsts, second, seconds, third, thirds, starts, duplicates⟩

namespace Agreeing

variable {backend : Backend F} {t : BYTETracker F} {objects : List (Object F)} {next : Int}
  (agreeing : Agreeing div backend t objects next)

include agreeing

theorem firstAssignment : @firstAssignment F (dividing div) backend t objects =
    ByteTracker.firstAssignment backend t objects := by
  have exchanged : @ByteTracker.firstAssignment F (dividing div) backend t objects =
      @linearAssignment F (dividing div) backend
        (@iouDistance F (dividing div) (deref (predicted t) (strackPool t))
          (detectionsHigh t objects))
        (strackPool t).length (detectionsHigh t objects).length t.matchThresh := rfl
  rw [exchanged, iouDistance_dividing agreeing.firstDistances,
    linearAssignment_dividing agreeing.halves]
  rfl

theorem afterFirst : @afterFirst F (dividing div) backend t objects =
    ByteTracker.afterFirst backend t objects := by
  have exchanged : @ByteTracker.afterFirst F (dividing div) backend t objects =
      (resolve (strackPool t) (detectionsHigh t objects)
        (@ByteTracker.firstAssignment F (dividing div) backend t objects).pairs).foldl
        (@applyMatch F (dividing div) backend (t.frameId + 1)) { store := predicted t } := rfl
  rw [exchanged, agreeing.firstAssignment,
    applyMatches_dividing agreeing.halves agreeing.firstMatches]
  rfl

theorem rTracked : @rTracked F (dividing div) backend t objects =
    ByteTracker.rTracked backend t objects := by
  unfold ByteTracker.rTracked
  rw [agreeing.firstAssignment, agreeing.afterFirst]

theorem secondAssignment : @secondAssignment F (dividing div) backend t objects =
    ByteTracker.secondAssignment backend t objects := by
  have exchanged : @ByteTracker.secondAssignment F (dividing div) backend t objects =
      @linearAssignment F (dividing div) backend
        (@iouDistance F (dividing div)
          (deref (@ByteTracker.afterFirst F (dividing div) backend t objects).store
            (@ByteTracker.rTracked F (dividing div) backend t objects))
          (detectionsLow t objects))
        (@ByteTracker.rTracked F (dividing div) backend t objects).length
        (detectionsLow t objects).length (Scalar.ofRat (1 / 2)) := rfl
  rw [exchanged, agreeing.afterFirst, agreeing.rTracked,
    iouDistance_dividing agreeing.secondDistances, linearAssignment_dividing agreeing.halves]
  rfl

theorem afterLost : @afterLost F (dividing div) backend t objects =
    ByteTracker.afterLost backend t objects := by
  have second : @afterSecond F (dividing div) backend t objects = afterSecond backend t objects := by
    have exchanged : @afterSecond F (dividing div) backend t objects =
        (resolve (@ByteTracker.rTracked F (dividing div) backend t objects) (detectionsLow t objects)
          (@ByteTracker.secondAssignment F (dividing div) backend t objects).pairs).foldl
          (@applyMatch F (dividing div) backend (t.frameId + 1))
          (@ByteTracker.afterFirst F (dividing div) backend t objects) := rfl
    rw [exchanged, agreeing.afterFirst, agreeing.rTracked, agreeing.secondAssignment,
      applyMatches_dividing agreeing.halves agreeing.secondMatches]
    rfl
  have left : @missed F (dividing div) backend t objects = missed backend t objects := by
    unfold missed
    rw [agreeing.secondAssignment, agreeing.rTracked]
  unfold ByteTracker.afterLost
  rw [second, left]

theorem detectionsCp : @detectionsCp F (dividing div) backend t objects =
    ByteTracker.detectionsCp backend t objects := by
  unfold ByteTracker.detectionsCp
  rw [agreeing.firstAssignment]
  rfl

theorem thirdAssignment : @thirdAssignment F (dividing div) backend t objects =
    ByteTracker.thirdAssignment backend t objects := by
  have exchanged : @ByteTracker.thirdAssignment F (dividing div) backend t objects =
      @linearAssignment F (dividing div) backend
        (@iouDistance F (dividing div)
          (deref (@ByteTracker.afterLost F (dividing div) backend t objects).store (unconfirmed t))
          (@ByteTracker.detectionsCp F (dividing div) backend t objects))
        (unconfirmed t).length (@ByteTracker.detectionsCp F (dividing div) backend t objects).length
        (Scalar.ofRat (7 / 10)) := rfl
  rw [exchanged, agreeing.afterLost, agreeing.detectionsCp,
    iouDistance_dividing agreeing.thirdDistances, linearAssignment_dividing agreeing.halves]
  rfl

theorem afterThird : @afterThird F (dividing div) backend t objects =
    ByteTracker.afterThird backend t objects := by
  have exchanged : @ByteTracker.afterThird F (dividing div) backend t objects =
      ((@ByteTracker.thirdAssignment F (dividing div) backend t objects).unmatchedA.filterMap
        fun i => (unconfirmed t)[i]?).foldl removeAt
        ((resolve (unconfirmed t) (@ByteTracker.detectionsCp F (dividing div) backend t objects)
          (@ByteTracker.thirdAssignment F (dividing div) backend t objects).pairs).foldl
          (@confirmMatch F (dividing div) backend (t.frameId + 1))
          (@ByteTracker.afterLost F (dividing div) backend t objects)) := rfl
  rw [exchanged, agreeing.afterLost, agreeing.detectionsCp, agreeing.thirdAssignment,
    confirmMatches_dividing agreeing.halves agreeing.thirdMatches]
  rfl

theorem newTracks : @newTracks F (dividing div) backend t objects next =
    ByteTracker.newTracks backend t objects next := by
  have fresh : @freshDetections F (dividing div) backend t objects =
      freshDetections backend t objects := by
    unfold freshDetections
    rw [agreeing.thirdAssignment, agreeing.detectionsCp]
  have exchanged : @ByteTracker.newTracks F (dividing div) backend t objects next =
      @initNew F (dividing div) t.highThresh (t.frameId + 1)
        (@freshDetections F (dividing div) backend t objects) next := rfl
  rw [exchanged, fresh, initNew_dividing agreeing.halves agreeing.starts]
  rfl

theorem trackedMerged : @trackedMerged F (dividing div) backend t objects next =
    ByteTracker.trackedMerged backend t objects next := by
  unfold ByteTracker.trackedMerged stillTracked activatedStracks refindStracks
  rw [agreeing.afterThird, agreeing.newTracks]

theorem lostMerged : @lostMerged F (dividing div) backend t objects next =
    ByteTracker.lostMerged backend t objects next := by
  unfold ByteTracker.lostMerged lostMarked
  rw [agreeing.trackedMerged, agreeing.afterThird]

end Agreeing

/-- An update depends on the division at its divisors and at 2 only. -/
theorem update_dividing {backend : Backend F} {t : BYTETracker F} {objects : List (Object F)}
    {next : Int} (halves : AgreesAt div [(Scalar.ofRat 2 : F)])
    (agrees : AgreesAt div (updateDivisors backend t objects next)) :
    @BYTETracker.update F (dividing div) backend t objects next = t.update backend objects next := by
  have agreeing := agreeing_of_updateDivisors halves agrees
  have duplicates : @removeDuplicateStracks F (dividing div) (trackedMerged backend t objects next)
      (lostMerged backend t objects next) =
      removeDuplicateStracks (trackedMerged backend t objects next)
        (lostMerged backend t objects next) := by
    unfold removeDuplicateStracks duplicatePairs
    rw [iouDistance_dividing agreeing.duplicates]
    rfl
  have removed : @removedNow F (dividing div) backend t objects = removedNow backend t objects := by
    unfold removedNow
    rw [agreeing.afterThird]
  unfold BYTETracker.update
  rw [agreeing.trackedMerged, agreeing.lostMerged, duplicates, removed, agreeing.newTracks]

end Exchanged

end ExecutedDivisions
