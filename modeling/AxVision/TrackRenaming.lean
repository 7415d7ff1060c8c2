import AxVision.TrackerProcessor
import Mathlib.Data.Int.ConditionallyCompleteOrder
import Mathlib.Order.Interval.Set.Defs

/-!
# Ids are only names

A strictly increasing change of ids commutes with every step of `update`: ids are
compared and put in order, and looked at in no other way.
-/

namespace TrackRenaming

open DetectionTypes STracks TrackAssociation ByteTracker TrackerProcessor KeyedTables
open KeyedLists (keys)

universe u

variable {F : Type u}

def rename (r : Int → Int) (s : STrack F) : STrack F := { s with trackId := r s.trackId }

section Fields

variable (r : Int → Int) (s : STrack F)

@[simp] theorem rename_trackId : (rename r s).trackId = r s.trackId := rfl
@[simp] theorem rename_state : (rename r s).state = s.state := rfl
@[simp] theorem rename_isActivated : (rename r s).isActivated = s.isActivated := rfl
@[simp] theorem rename_frameId : (rename r s).frameId = s.frameId := rfl
@[simp] theorem rename_startFrame : (rename r s).startFrame = s.startFrame := rfl
@[simp] theorem rename_tlbr : (rename r s).tlbr = s.tlbr := rfl
@[simp] theorem rename_markLost : (rename r s).markLost = rename r s.markLost := rfl
@[simp] theorem rename_markRemoved : (rename r s).markRemoved = rename r s.markRemoved := rfl

variable [Scalar F]

theorem rename_predict : (rename r s).predict = rename r s.predict := rfl

theorem rename_update (backend : Backend F) (det : STrack F) (frameId : Int) :
    (rename r s).update backend.lltSolve det frameId =
      rename r (s.update backend.lltSolve det frameId) := by
  by_cases h : s.state = .new <;>
    simp [STrack.update, STrack.staticTlwh, STrack.staticTlbr, rename, h]

theorem rename_reActivate (backend : Backend F) (det : STrack F) (frameId : Int) :
    (rename r s).reActivate backend.lltSolve det frameId =
      rename r (s.reActivate backend.lltSolve det frameId) := by
  by_cases h : s.state = .new <;>
    simp [STrack.reActivate, STrack.staticTlwh, STrack.staticTlbr, rename, h]

theorem rename_activate (det : STrack F) (frameId id : Int) :
    rename r (det.activate frameId id) = det.activate frameId (r id) := by
  by_cases h : det.state = .new <;>
    simp [STrack.activate, STrack.staticTlwh, STrack.staticTlbr, rename, h]

end Fields

section Lists

variable [Scalar F] {a a' b b' : List (STrack F)}

/-- Distances look at boxes only. -/
theorem iouDistance_congr (ha : a.map STrack.tlbr = a'.map STrack.tlbr)
    (hb : b.map STrack.tlbr = b'.map STrack.tlbr) : iouDistance a b = iouDistance a' b' := by
  have la : a.length = a'.length := by simpa using congrArg List.length ha
  have lb : b.length = b'.length := by simpa using congrArg List.length hb
  have row : ∀ box : Tlbr F, (b.map fun d => Scalar.ofRat 1 - iou box d.tlbr) =
      b'.map fun d => Scalar.ofRat 1 - iou box d.tlbr := by
    intro box
    have := congrArg (List.map fun box' => Scalar.ofRat 1 - iou box box') hb
    simpa [Function.comp_def] using this
  have rows := congrArg
    (List.map fun box => b'.map fun d => (Scalar.ofRat 1 - iou box d.tlbr : F)) ha
  rw [iouDistance, iouDistance, la, lb]
  split
  · rfl
  · simp only [row]
    simpa [Function.comp_def] using rows

omit [Scalar F] in
theorem map_rename_tlbr (r : Int → Int) (l : List (STrack F)) :
    (l.map (rename r)).map STrack.tlbr = l.map STrack.tlbr := by
  simp [Function.comp_def]

omit [Scalar F] in
theorem dropIndices_map (f : STrack F → STrack F) (l : List (STrack F)) (dropped : List Nat) :
    dropIndices (l.map f) dropped = (dropIndices l dropped).map f := by
  rw [dropIndices, dropIndices, List.zipIdx_map, List.filter_map, List.map_map, List.map_map]
  rfl

theorem removeDuplicateStracks_rename (r : Int → Int) (a b : List (STrack F)) :
    removeDuplicateStracks (a.map (rename r)) (b.map (rename r)) =
      ((removeDuplicateStracks a b).1.map (rename r),
        (removeDuplicateStracks a b).2.map (rename r)) := by
  have pairs : duplicatePairs (a.map (rename r)) (b.map (rename r)) = duplicatePairs a b := by
    rw [duplicatePairs, duplicatePairs, iouDistance_congr (map_rename_tlbr r a)
      (map_rename_tlbr r b)]
  have older : ∀ pair, firstOlder (a.map (rename r)) (b.map (rename r)) pair =
      firstOlder a b pair := by
    intro pair
    rw [firstOlder, firstOlder, List.getElem?_map, List.getElem?_map]
    cases a[pair.1]? <;> cases b[pair.2]? <;> rfl
  simp only [removeDuplicateStracks, pairs, older, dropIndices_map]

omit [Scalar F] in
theorem deref_map (f : STrack F → STrack F) (store : Store F) (ptrs : List Nat) :
    deref (store.map f) ptrs = (deref store ptrs).map f := by
  simp only [deref, List.map_filterMap, List.getElem?_map]

omit [Scalar F] in
theorem stateAt_map (r : Int → Int) (store : Store F) (p : Nat) :
    stateAt (store.map (rename r)) p = stateAt store p := by
  rw [stateAt, stateAt, List.getElem?_map, Option.map_map]
  rfl

end Lists

section Keyed

variable {r : Int → Int} {s : Set Int} {a b : List (STrack F)}

theorem jointStracks_rename (inj : Set.InjOn r s) (named : ∀ track ∈ a ++ b, track.trackId ∈ s) :
    jointStracks (a.map (rename r)) (b.map (rename r)) = (jointStracks a b).map (rename r) :=
  KeyedLists.union_map (fun _ _ => rfl) inj named

theorem subStracks_rename (mono : StrictMonoOn r s) (named : ∀ track ∈ a ++ b, track.trackId ∈ s) :
    subStracks (a.map (rename r)) (b.map (rename r)) = (subStracks a b).map (rename r) :=
  KeyedLists.difference_map (fun _ _ => rfl) mono named

end Keyed

section Loops

def renameLocals (r : Int → Int) (l : Locals F) : Locals F where
  store := l.store.map (rename r)
  activated := l.activated.map (rename r)
  refind := l.refind.map (rename r)
  lost := l.lost.map (rename r)
  removed := l.removed.map (rename r)

variable (r : Int → Int) (l : Locals F)

theorem markLostAt_rename (p : Nat) :
    markLostAt (renameLocals r l) p = renameLocals r (markLostAt l p) := by
  rw [markLostAt, markLostAt]
  simp only [renameLocals, List.getElem?_map]
  cases l.store[p]? with
  | none => rfl
  | some s => by_cases h : s.state = .lost <;> simp [h, List.map_set]

theorem removeAt_rename (p : Nat) :
    removeAt (renameLocals r l) p = renameLocals r (removeAt l p) := by
  rw [removeAt, removeAt]
  simp only [renameLocals, List.getElem?_map]
  cases l.store[p]? with
  | none => rfl
  | some s => simp [List.map_set]

variable [Scalar F] (backend : Backend F) (frameId : Int)

theorem applyMatch_rename (m : Nat × STrack F) :
    applyMatch backend frameId (renameLocals r l) m =
      renameLocals r (applyMatch backend frameId l m) := by
  rw [applyMatch, applyMatch]
  simp only [renameLocals, List.getElem?_map]
  cases l.store[m.1]? with
  | none => rfl
  | some s =>
    by_cases h : s.state = .tracked <;> simp [h, List.map_set, rename_update, rename_reActivate]

theorem confirmMatch_rename (m : Nat × STrack F) :
    confirmMatch backend frameId (renameLocals r l) m =
      renameLocals r (confirmMatch backend frameId l m) := by
  rw [confirmMatch, confirmMatch]
  simp only [renameLocals, List.getElem?_map]
  cases l.store[m.1]? with
  | none => rfl
  | some s => simp [List.map_set, rename_update]

end Loops

section Update

def renameTracker (r : Int → Int) (t : BYTETracker F) : BYTETracker F :=
  { t with
    trackedStracks := t.trackedStracks.map (rename r)
    lostStracks := t.lostStracks.map (rename r)
    removedStracks := t.removedStracks.map (rename r) }

/-- The ids in the three lists of a tracker. -/
def Named (s : Set Int) (t : BYTETracker F) : Prop :=
  ∀ track ∈ start t ++ t.removedStracks, track.trackId ∈ s

variable {r : Int → Int} {s : Set Int} (t : BYTETracker F)

@[simp] theorem renameTracker_tracked :
    (renameTracker r t).trackedStracks = t.trackedStracks.map (rename r) := rfl

@[simp] theorem renameTracker_lost :
    (renameTracker r t).lostStracks = t.lostStracks.map (rename r) := rfl

@[simp] theorem renameTracker_frameId : (renameTracker r t).frameId = t.frameId := rfl

@[simp] theorem renameTracker_removed :
    (renameTracker r t).removedStracks = t.removedStracks.map (rename r) := rfl

theorem start_rename : start (renameTracker r t) = (start t).map (rename r) := by
  simp [start]

theorem isActivatedAt_rename (p : Nat) :
    isActivatedAt (renameTracker r t) p = isActivatedAt t p := by
  simp only [isActivatedAt, renameTracker_tracked, List.getElem?_map, Option.map_map]
  rfl

theorem unconfirmed_rename : unconfirmed (renameTracker r t) = unconfirmed t := by
  simp only [unconfirmed, isActivatedAt_rename, renameTracker_tracked, List.length_map]

theorem trackedPtrs_rename : trackedPtrs (renameTracker r t) = trackedPtrs t := by
  simp only [trackedPtrs, isActivatedAt_rename, renameTracker_tracked, List.length_map]

theorem lostPtrs_rename : lostPtrs (renameTracker r t) = lostPtrs t := by
  simp only [lostPtrs, renameTracker_tracked, renameTracker_lost, List.length_map]

theorem pointers_held {p : Nat} (h : p ∈ trackedPtrs t ++ lostPtrs t) :
    ∃ track, (start t)[p]? = some track := by
  have bound : p < (start t).length := by
    rw [start, List.length_append]
    rcases List.mem_append.mp h with htracked | hlost
    · have := List.mem_range.mp (List.mem_filter.mp htracked).1
      omega
    · simp only [lostPtrs, List.mem_map, List.mem_range] at hlost
      omega
  exact ⟨_, List.getElem?_eq_getElem bound⟩

theorem strackPool_rename (inj : Set.InjOn r s) (named : Named s t) :
    strackPool (renameTracker r t) = strackPool t := by
  have pool : KeyedLists.union (idAt (start (renameTracker r t))) ((trackedPtrs t).map id)
      ((lostPtrs t).map id) = (strackPool t).map id := by
    refine KeyedLists.union_map (r := r) ?_ inj ?_
    · intro p hp
      obtain ⟨track, held⟩ := pointers_held t hp
      simp [idAt, start_rename, held]
    · intro p hp
      obtain ⟨track, held⟩ := pointers_held t hp
      have mem := named track (List.mem_append_left _ (List.mem_of_getElem? held))
      simpa [idAt, held] using mem
  rw [strackPool, trackedPtrs_rename, lostPtrs_rename]
  simpa using pool

variable [Scalar F]

theorem predicted_rename (inj : Set.InjOn r s) (named : Named s t) :
    predicted (renameTracker r t) = (predicted t).map (rename r) := by
  rw [predicted, predicted, strackPool_rename t inj named, start_rename]
  refine List.foldl_hom (List.map (rename r)) fun store p => ?_
  apply List.ext_getElem?
  intro q
  simp only [List.getElem?_modify, List.getElem?_map]
  cases store[q]? with
  | none => rfl
  | some track => by_cases h : p = q <;> simp [h, rename_predict]

variable (backend : Backend F) (objects : List (Object F))

theorem detectionsHigh_rename :
    detectionsHigh (renameTracker r t) objects = detectionsHigh t objects := rfl

theorem detectionsLow_rename :
    detectionsLow (renameTracker r t) objects = detectionsLow t objects := rfl

theorem firstAssignment_rename (inj : Set.InjOn r s) (named : Named s t) :
    firstAssignment backend (renameTracker r t) objects = firstAssignment backend t objects := by
  rw [firstAssignment, firstAssignment, strackPool_rename t inj named,
    predicted_rename t inj named, deref_map, detectionsHigh_rename,
    iouDistance_congr (map_rename_tlbr r _) rfl]
  rfl

theorem afterFirst_rename (inj : Set.InjOn r s) (named : Named s t) :
    afterFirst backend (renameTracker r t) objects =
      renameLocals r (afterFirst backend t objects) := by
  have base : ({ store := (predicted t).map (rename r) } : Locals F) =
      renameLocals r { store := predicted t } := rfl
  rw [afterFirst, afterFirst, strackPool_rename t inj named, predicted_rename t inj named,
    firstAssignment_rename t backend objects inj named, detectionsHigh_rename, base]
  exact List.foldl_hom (renameLocals r) fun l m => applyMatch_rename r l backend _ m

theorem detectionsCp_rename (inj : Set.InjOn r s) (named : Named s t) :
    detectionsCp backend (renameTracker r t) objects = detectionsCp backend t objects := by
  rw [detectionsCp, detectionsCp, firstAssignment_rename t backend objects inj named,
    detectionsHigh_rename]

theorem rTracked_rename (inj : Set.InjOn r s) (named : Named s t) :
    rTracked backend (renameTracker r t) objects = rTracked backend t objects := by
  rw [rTracked, rTracked, firstAssignment_rename t backend objects inj named,
    strackPool_rename t inj named, afterFirst_rename t backend objects inj named]
  simp only [renameLocals, stateAt_map]

theorem secondAssignment_rename (inj : Set.InjOn r s) (named : Named s t) :
    secondAssignment backend (renameTracker r t) objects = secondAssignment backend t objects := by
  rw [secondAssignment, secondAssignment, rTracked_rename t backend objects inj named,
    afterFirst_rename t backend objects inj named, detectionsLow_rename, renameLocals, deref_map,
    iouDistance_congr (map_rename_tlbr r _) rfl]

theorem afterSecond_rename (inj : Set.InjOn r s) (named : Named s t) :
    afterSecond backend (renameTracker r t) objects =
      renameLocals r (afterSecond backend t objects) := by
  rw [afterSecond, afterSecond, rTracked_rename t backend objects inj named,
    secondAssignment_rename t backend objects inj named, detectionsLow_rename,
    afterFirst_rename t backend objects inj named]
  exact List.foldl_hom (renameLocals r) fun l m => applyMatch_rename r l backend _ m

theorem afterLost_rename (inj : Set.InjOn r s) (named : Named s t) :
    afterLost backend (renameTracker r t) objects =
      renameLocals r (afterLost backend t objects) := by
  rw [afterLost, afterLost, missed, missed, rTracked_rename t backend objects inj named,
    secondAssignment_rename t backend objects inj named,
    afterSecond_rename t backend objects inj named]
  exact List.foldl_hom (renameLocals r) fun l p => markLostAt_rename r l p

theorem thirdAssignment_rename (inj : Set.InjOn r s) (named : Named s t) :
    thirdAssignment backend (renameTracker r t) objects = thirdAssignment backend t objects := by
  rw [thirdAssignment, thirdAssignment, unconfirmed_rename,
    detectionsCp_rename t backend objects inj named,
    afterLost_rename t backend objects inj named, renameLocals, deref_map,
    iouDistance_congr (map_rename_tlbr r _) rfl]

theorem afterThird_rename (inj : Set.InjOn r s) (named : Named s t) :
    afterThird backend (renameTracker r t) objects =
      renameLocals r (afterThird backend t objects) := by
  have confirmed (matched : List (Nat × STrack F)) (l : Locals F) :
      matched.foldl (confirmMatch backend (t.frameId + 1)) (renameLocals r l) =
        renameLocals r (matched.foldl (confirmMatch backend (t.frameId + 1)) l) :=
    List.foldl_hom (renameLocals r) fun l m => confirmMatch_rename r l backend _ m
  rw [afterThird, afterThird, unconfirmed_rename, thirdAssignment_rename t backend objects inj named,
    detectionsCp_rename t backend objects inj named, afterLost_rename t backend objects inj named,
    renameTracker_frameId, confirmed]
  exact List.foldl_hom (renameLocals r) fun l p => removeAt_rename r l p

theorem freshDetections_rename (inj : Set.InjOn r s) (named : Named s t) :
    freshDetections backend (renameTracker r t) objects = freshDetections backend t objects := by
  rw [freshDetections, freshDetections, thirdAssignment_rename t backend objects inj named,
    detectionsCp_rename t backend objects inj named]

/-- From the two counters on the renaming is a shift. -/
theorem initNew_rename (highThresh : F) (frameId : Int) (dets : List (STrack F))
    {next next' : Int} (shift : ∀ k : Nat, r (next + k) = next' + k) :
    (initNew highThresh frameId dets next').1 =
        (initNew highThresh frameId dets next).1.map (rename r) ∧
      (initNew highThresh frameId dets next').2 - next' =
        (initNew highThresh frameId dets next).2 - next := by
  induction dets generalizing next next' with
  | nil => exact ⟨rfl, by simp [initNew]⟩
  | cons det rest ih =>
    rw [initNew, initNew]
    split
    · exact ih shift
    · have here : r next = next' := by simpa using shift 0
      have there : ∀ k : Nat, r (next + 1 + k) = next' + 1 + k := by
        intro k
        have := shift (k + 1)
        push_cast at this
        rw [show next + 1 + (k : Int) = next + (k + 1) by omega, this]
        omega
      obtain ⟨tracks, count⟩ := ih there
      refine ⟨?_, by simp only; omega⟩
      simp only [List.map_cons, rename_activate, here, tracks]

theorem newTracks_rename (inj : Set.InjOn r s) (named : Named s t) {next next' : Int}
    (shift : ∀ k : Nat, r (next + k) = next' + k) :
    (newTracks backend (renameTracker r t) objects next').1 =
        (newTracks backend t objects next).1.map (rename r) ∧
      (newTracks backend (renameTracker r t) objects next').2 - next' =
        (newTracks backend t objects next).2 - next := by
  rw [newTracks, newTracks, freshDetections_rename t backend objects inj named]
  exact initNew_rename _ _ _ shift

end Update

section Names

/-- All tracks of the association loops. -/
def everywhere (l : Locals F) : List (STrack F) :=
  l.store ++ l.activated ++ l.refind ++ l.lost ++ l.removed

/-- No track has an id that was not there before. -/
def NoNewIds (l l' : Locals F) : Prop :=
  ∀ track ∈ everywhere l', ∃ track' ∈ everywhere l, track'.trackId = track.trackId

theorem NoNewIds.refl (l : Locals F) : NoNewIds l l := fun track ht => ⟨track, ht, rfl⟩

theorem NoNewIds.trans {l l' l'' : Locals F} (h : NoNewIds l l') (h' : NoNewIds l' l'') :
    NoNewIds l l'' := by
  intro track ht
  obtain ⟨track', ht', same'⟩ := h' track ht
  obtain ⟨track'', ht'', same''⟩ := h track' ht'
  exact ⟨track'', ht'', same''.trans same'⟩

theorem NoNewIds.foldl {β : Type*} {step : Locals F → β → Locals F}
    (h : ∀ l m, NoNewIds l (step l m)) (ms : List β) (l : Locals F) :
    NoNewIds l (ms.foldl step l) := by
  induction ms generalizing l with
  | nil => exact NoNewIds.refl l
  | cons m rest ih => exact (h l m).trans (ih (step l m))

/-- Rewriting one track under its id and appending it to a list brings no id. -/
theorem noNewIds_of_set {l l' : Locals F} {p : Nat} {track : STrack F} (track' : STrack F)
    (held : l.store[p]? = some track) (same : track'.trackId = track.trackId)
    (h : ∀ x ∈ everywhere l', x ∈ everywhere l ∨ x ∈ l.store.set p track' ∨ x = track') :
    NoNewIds l l' := by
  have source : track ∈ everywhere l := by
    simp [everywhere, List.mem_of_getElem? held]
  intro x hx
  rcases h x hx with hold | hset | rfl
  · exact ⟨x, hold, rfl⟩
  · rcases List.mem_or_eq_of_mem_set hset with hstore | rfl
    · exact ⟨x, by simp [everywhere, hstore], rfl⟩
    · exact ⟨track, source, same.symm⟩
  · exact ⟨track, source, same.symm⟩

theorem markLostAt_noNewIds (l : Locals F) (p : Nat) : NoNewIds l (markLostAt l p) := by
  rw [markLostAt]
  cases held : l.store[p]? with
  | none => exact NoNewIds.refl l
  | some track =>
    by_cases h : track.state = .lost
    · simpa only [h, ne_eq, not_true, if_false] using NoNewIds.refl l
    · refine noNewIds_of_set track.markLost held rfl ?_
      intro x hx
      simp only [ne_eq, h, not_false_eq_true, if_true, everywhere, List.mem_append,
        List.mem_singleton] at hx ⊢
      tauto

theorem removeAt_noNewIds (l : Locals F) (p : Nat) : NoNewIds l (removeAt l p) := by
  rw [removeAt]
  cases held : l.store[p]? with
  | none => exact NoNewIds.refl l
  | some track =>
    refine noNewIds_of_set track.markRemoved held rfl ?_
    intro x hx
    simp only [everywhere, List.mem_append, List.mem_singleton] at hx ⊢
    tauto

variable [Scalar F] (backend : Backend F) (frameId : Int)

theorem update_trackId (s det : STrack F) :
    (s.update backend.lltSolve det frameId).trackId = s.trackId := by
  by_cases h : s.state = .new <;>
    simp [STrack.update, STrack.staticTlwh, STrack.staticTlbr, h]

theorem reActivate_trackId (s det : STrack F) :
    (s.reActivate backend.lltSolve det frameId).trackId = s.trackId := by
  by_cases h : s.state = .new <;>
    simp [STrack.reActivate, STrack.staticTlwh, STrack.staticTlbr, h]

theorem applyMatch_noNewIds (l : Locals F) (m : Nat × STrack F) :
    NoNewIds l (applyMatch backend frameId l m) := by
  rw [applyMatch]
  cases held : l.store[m.1]? with
  | none => exact NoNewIds.refl l
  | some track =>
    by_cases h : track.state = .tracked
    · refine noNewIds_of_set _ held (update_trackId backend frameId track m.2) ?_
      intro x hx
      simp only [h, if_true, everywhere, List.mem_append, List.mem_singleton] at hx ⊢
      tauto
    · refine noNewIds_of_set _ held (reActivate_trackId backend frameId track m.2) ?_
      intro x hx
      simp only [h, if_false, everywhere, List.mem_append, List.mem_singleton] at hx ⊢
      tauto

theorem confirmMatch_noNewIds (l : Locals F) (m : Nat × STrack F) :
    NoNewIds l (confirmMatch backend frameId l m) := by
  rw [confirmMatch]
  cases held : l.store[m.1]? with
  | none => exact NoNewIds.refl l
  | some track =>
    refine noNewIds_of_set _ held (update_trackId backend frameId track m.2) ?_
    intro x hx
    simp only [everywhere, List.mem_append, List.mem_singleton] at hx ⊢
    tauto

variable (t : BYTETracker F) (objects : List (Object F)) {s : Set Int}

theorem predicted_named {track : STrack F} (h : track ∈ predicted t) :
    ∃ track' ∈ start t, track'.trackId = track.trackId := by
  have fold : ∀ (ptrs : List Nat) (store : Store F),
      track ∈ ptrs.foldl (fun store p => store.modify p STrack.predict) store →
        ∃ track' ∈ store, track'.trackId = track.trackId := by
    intro ptrs
    induction ptrs with
    | nil => exact fun store h => ⟨track, h, rfl⟩
    | cons p rest ih =>
      intro store h
      obtain ⟨track', ht', same⟩ := ih _ h
      obtain ⟨q, hq⟩ := List.mem_iff_getElem?.mp ht'
      rw [List.getElem?_modify] at hq
      obtain ⟨source, hsource, rfl⟩ := Option.map_eq_some_iff.mp hq
      refine ⟨source, List.mem_of_getElem? hsource, ?_⟩
      rw [← same]
      split <;> rfl
  exact fold _ _ h

theorem afterThird_named (named : Named s t) {track : STrack F}
    (h : track ∈ everywhere (afterThird backend t objects)) : track.trackId ∈ s := by
  have first : NoNewIds { store := predicted t } (afterFirst backend t objects) :=
    NoNewIds.foldl (applyMatch_noNewIds backend _) _ _
  have second : NoNewIds (afterFirst backend t objects) (afterSecond backend t objects) :=
    NoNewIds.foldl (applyMatch_noNewIds backend _) _ _
  have lost : NoNewIds (afterSecond backend t objects) (afterLost backend t objects) :=
    NoNewIds.foldl markLostAt_noNewIds _ _
  have third : NoNewIds (afterLost backend t objects) (afterThird backend t objects) :=
    (NoNewIds.foldl (confirmMatch_noNewIds backend _) _ _).trans
      (NoNewIds.foldl removeAt_noNewIds _ _)
  obtain ⟨track', ht', same⟩ := ((first.trans second).trans (lost.trans third)) track h
  have stored : track' ∈ predicted t := by simpa [everywhere] using ht'
  obtain ⟨track'', ht'', same'⟩ := predicted_named t stored
  rw [← same, ← same']
  exact named track'' (List.mem_append_left _ ht'')

end Names

section Merge

variable [Scalar F] {backend : Backend F} {t : BYTETracker F} {objects : List (Object F)}
  {next next' : Int} {r : Int → Int} {s : Set Int}

/-- What a change of ids must do for one update: keep the order of the ids a tracker holds and
draws, and shift the drawn ones from one counter to the other. -/
structure Renames (backend : Backend F) (t : BYTETracker F) (objects : List (Object F))
    (next next' : Int) (r : Int → Int) (s : Set Int) : Prop where
  mono : StrictMonoOn r s
  named : Named s t
  drawn : ∀ track ∈ (newTracks backend t objects next).1, track.trackId ∈ s
  shift : ∀ k : Nat, r (next + k) = next' + k

variable (h : Renames backend t objects next next' r s)
include h

theorem Renames.afterThird : afterThird backend (renameTracker r t) objects =
    renameLocals r (afterThird backend t objects) :=
  afterThird_rename t backend objects h.mono.injOn h.named

theorem Renames.stillTracked_named : ∀ track ∈ stillTracked backend t objects,
    track.trackId ∈ s := by
  intro track ht
  refine afterThird_named backend t objects h.named ?_
  have stored := List.mem_of_mem_take (List.mem_filter.mp ht).1
  simp [everywhere, stored]

theorem Renames.activated_named : ∀ track ∈ activatedStracks backend t objects next,
    track.trackId ∈ s := by
  intro track ht
  rcases List.mem_append.mp ht with hold | hnew
  · exact afterThird_named backend t objects h.named (by simp [everywhere, hold])
  · exact h.drawn track hnew

theorem Renames.refind_named : ∀ track ∈ refindStracks backend t objects, track.trackId ∈ s := by
  intro track ht
  have found : track ∈ (TrackRenaming.everywhere (ByteTracker.afterThird backend t objects)) := by
    simp only [refindStracks] at ht
    simp [everywhere, ht]
  exact afterThird_named backend t objects h.named found

theorem Renames.stillTracked : stillTracked backend (renameTracker r t) objects =
    (stillTracked backend t objects).map (rename r) := by
  rw [ByteTracker.stillTracked, ByteTracker.stillTracked, h.afterThird, renameTracker_tracked,
    List.length_map, renameLocals, ← List.map_take, List.filter_map]
  rfl

theorem Renames.activated : activatedStracks backend (renameTracker r t) objects next' =
    (activatedStracks backend t objects next).map (rename r) := by
  rw [activatedStracks, activatedStracks, h.afterThird,
    (newTracks_rename t backend objects h.mono.injOn h.named h.shift).1, List.map_append,
    renameLocals]

theorem Renames.refind : refindStracks backend (renameTracker r t) objects =
    (refindStracks backend t objects).map (rename r) := by
  rw [refindStracks, refindStracks, h.afterThird, renameLocals]

theorem Renames.inner_named : ∀ track ∈ jointStracks (ByteTracker.stillTracked backend t objects)
    (activatedStracks backend t objects next) ++ refindStracks backend t objects,
    track.trackId ∈ s := by
  intro track ht
  rcases List.mem_append.mp ht with hjoint | hrefind
  · rcases KeyedLists.mem_union_sub hjoint with hstill | hactive
    · exact h.stillTracked_named track hstill
    · exact h.activated_named track hactive
  · exact h.refind_named track hrefind

theorem Renames.trackedMerged : trackedMerged backend (renameTracker r t) objects next' =
    (trackedMerged backend t objects next).map (rename r) := by
  rw [ByteTracker.trackedMerged, ByteTracker.trackedMerged, h.stillTracked, h.activated, h.refind,
    jointStracks_rename h.mono.injOn
      (List.forall_mem_append.mpr ⟨h.stillTracked_named, h.activated_named⟩),
    jointStracks_rename h.mono.injOn h.inner_named]

theorem Renames.trackedMerged_named : ∀ track ∈ ByteTracker.trackedMerged backend t objects next,
    track.trackId ∈ s := by
  intro track ht
  exact h.inner_named track (List.mem_append.mpr (KeyedLists.mem_union_sub ht))

theorem Renames.lostMarked : lostMarked backend (renameTracker r t) objects =
    (lostMarked backend t objects).map (rename r) := by
  rw [ByteTracker.lostMarked, ByteTracker.lostMarked, h.afterThird, renameTracker_tracked,
    List.length_map, renameLocals, ← List.map_drop, List.map_map, List.map_map]
  refine List.map_congr_left fun track _ => ?_
  simp only [Function.comp_apply]
  change (if overdue t track then _ else _) = _
  split <;> rfl

theorem Renames.lostMarked_named : ∀ track ∈ ByteTracker.lostMarked backend t objects,
    track.trackId ∈ s := by
  intro track ht
  obtain ⟨source, hsource, rfl⟩ := List.mem_map.mp ht
  have stored := List.mem_of_mem_drop hsource
  have named : source.trackId ∈ s :=
    afterThird_named backend t objects h.named (by simp [everywhere, stored])
  split <;> exact named

theorem Renames.removedNow : removedNow backend (renameTracker r t) objects =
    (removedNow backend t objects).map (rename r) := by
  rw [ByteTracker.removedNow, ByteTracker.removedNow, h.afterThird, renameTracker_tracked,
    List.length_map, renameLocals, ← List.map_drop, List.map_append, List.filterMap_map,
    List.map_filterMap]
  congr 1
  refine List.filterMap_congr fun track _ => ?_
  simp only [Function.comp_apply]
  change (if overdue t track then _ else _) = _
  split <;> rfl

theorem Renames.lostMerged_base_named : ∀ track ∈ subStracks
    (ByteTracker.lostMarked backend t objects) (ByteTracker.trackedMerged backend t objects next) ++
      (ByteTracker.afterThird backend t objects).lost, track.trackId ∈ s := by
  intro track ht
  rcases List.mem_append.mp ht with hold | hlost
  · exact h.lostMarked_named track (KeyedLists.mem_difference_sub hold).1
  · exact afterThird_named backend t objects h.named (by simp [everywhere, hlost])

theorem Renames.lostMerged : lostMerged backend (renameTracker r t) objects next' =
    (lostMerged backend t objects next).map (rename r) := by
  rw [ByteTracker.lostMerged, ByteTracker.lostMerged, h.lostMarked, h.trackedMerged, h.afterThird,
    renameTracker_removed, renameLocals, subStracks_rename h.mono
      (List.forall_mem_append.mpr ⟨h.lostMarked_named, h.trackedMerged_named⟩), ← List.map_append]
  refine subStracks_rename h.mono (List.forall_mem_append.mpr ⟨h.lostMerged_base_named, ?_⟩)
  exact fun track ht => h.named track (List.mem_append_right _ ht)

/-- An update of a renamed tracker is the renamed update. -/
theorem Renames.update :
    ((renameTracker r t).update backend objects next').tracker =
        renameTracker r (t.update backend objects next).tracker ∧
      ((renameTracker r t).update backend objects next').output =
        (t.update backend objects next).output.map (rename r) ∧
      ((renameTracker r t).update backend objects next').nextTrackId - next' =
        (t.update backend objects next).nextTrackId - next := by
  have drawn := (newTracks_rename t backend objects h.mono.injOn h.named h.shift).2
  refine ⟨?_, ?_, by simpa only [BYTETracker.update] using drawn⟩
  · simp only [BYTETracker.update, h.trackedMerged, h.lostMerged, h.removedNow,
      removeDuplicateStracks_rename]
    rfl
  · simp only [BYTETracker.update, h.trackedMerged, h.lostMerged, removeDuplicateStracks_rename,
      List.filter_map]
    rfl

/-- The ids a tracker holds after an update it held before or drew. -/
theorem Renames.update_named : Named s (t.update backend objects next).tracker := by
  intro track ht
  rcases List.mem_append.mp ht with hheld | hremoved
  · rcases List.mem_append.mp hheld with htracked | hlost
    · exact h.trackedMerged_named track ((dropIndices_sublist _ _).subset htracked)
    · exact h.lostMerged_base_named track
        (KeyedLists.mem_difference_sub ((dropIndices_sublist _ _).subset hlost)).1
  · rcases List.mem_append.mp hremoved with hfirst | hoverdue
    · exact afterThird_named backend t objects h.named (by simp [everywhere, hfirst])
    · obtain ⟨source, hsource, marked⟩ := List.mem_filterMap.mp hoverdue
      have stored := List.mem_of_mem_drop hsource
      have named : source.trackId ∈ s :=
        afterThird_named backend t objects h.named (by simp [everywhere, stored])
      split at marked
      · cases marked
        exact named
      · cases marked

end Merge

end TrackRenaming
