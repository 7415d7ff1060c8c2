import AxVision.RoundedArithmetic
import AxVision.TrackerProcessor
import AxVision.TrackerSteps
import AxVision.ReplacedEntries
import Mathlib.Data.List.Induction

/-!
# Writing ids back

The second association of `TrackerProcessor`, one label at a time: which
detections the greedy loop may take, and where the ids of the taken ones land in
the list of all objects.
-/

namespace GreedyAssignments

open DetectionTypes RoundedArithmetic STracks TrackerProcessor KeyedTables PointerStores
open TrackerSteps
  ReplacedEntries

universe u

variable {F : Type u}

section Greedy

variable [Scalar F] {detections : List (Object F)}

theorem bestDetection_spec {assigned : List Nat} {box : Tlbr F} {d : Nat}
    (h : bestDetection detections assigned box = some d) :
    d < detections.length ∧ d ∉ assigned := by
  have scan : ∀ (l : List (Object F × Nat)) (best : F × Option Nat),
      (∀ d, best.2 = some d → d < detections.length ∧ d ∉ assigned) →
      (∀ c ∈ l, c.2 < detections.length) →
      ∀ d, (l.foldl (betterDetection assigned box) best).2 = some d →
        d < detections.length ∧ d ∉ assigned := by
    intro l
    induction l with
    | nil => exact fun best hbest _ => hbest
    | cons c rest ih =>
      intro best hbest hl
      refine ih _ ?_ fun c' hc' => hl c' (List.mem_cons_of_mem c hc')
      intro d hd
      rw [betterDetection] at hd
      split at hd
      · exact hbest d hd
      · next free =>
        simp only at hd
        split at hd
        · cases hd
          exact ⟨hl c List.mem_cons_self, free⟩
        · exact hbest d hd
  refine scan detections.zipIdx _ (by simp) ?_ d h
  intro c hc
  exact (List.mem_zipIdx' hc).1

theorem assignTracks_free {tracks : List (STrack F)} {assigned : List Nat} {a : Nat × Int}
    (h : a ∈ assignTracks detections tracks assigned) :
    a.1 < detections.length ∧ a.1 ∉ assigned := by
  induction tracks generalizing assigned with
  | nil => cases h
  | cons track rest ih =>
    rw [assignTracks] at h
    split at h
    · exact ih h
    · next d hd =>
      rcases List.mem_cons.mp h with rfl | hrest
      · exact bestDetection_spec hd
      · obtain ⟨bound, free⟩ := ih hrest
        exact ⟨bound, fun hmem => free (List.mem_cons_of_mem d hmem)⟩

/-- No detection is taken twice. -/
theorem assignTracks_nodup (tracks : List (STrack F)) (assigned : List Nat) :
    ((assignTracks detections tracks assigned).map Prod.fst).Nodup := by
  induction tracks generalizing assigned with
  | nil => exact List.nodup_nil
  | cons track rest ih =>
    rw [assignTracks]
    split
    · exact ih assigned
    · next d hd =>
      refine List.nodup_cons.mpr ⟨?_, ih (d :: assigned)⟩
      intro hmem
      obtain ⟨a, ha, rfl⟩ := List.mem_map.mp hmem
      exact (assignTracks_free ha).2 List.mem_cons_self

/-- Each output track takes at most one detection, in output order. -/
theorem assignTracks_ids (tracks : List (STrack F)) (assigned : List Nat) :
    ((assignTracks detections tracks assigned).map Prod.snd).Sublist (ids tracks) := by
  induction tracks generalizing assigned with
  | nil => exact .slnil
  | cons track rest ih =>
    rw [assignTracks]
    split
    · exact (ih assigned).cons track.trackId
    · next d hd => exact (ih (d :: assigned)).cons_cons track.trackId

end Greedy

section Scan

variable [Scalar F] {number : F → Prop} {detections : List (Object F)} {assigned : List Nat}
  {box : Tlbr F}

/-- The overlap is a number whatever the boxes are: the quotient is formed only where the union
is positive. -/
theorem intersectionOverUnion_number (line : NumberLine F number) (detection : Rect F)
    (box : Tlbr F) : number (intersectionOverUnion detection box) := by
  simp only [intersectionOverUnion]
  split
  · rename_i positive
    refine line.div_number _ _ ?_ positive
    exact line.mul_nonneg _ _ (line.stdMax_zero_nonneg _) (line.stdMax_zero_nonneg _)
      (line.sub_number _ _ positive)
  · exact line.constant 0

theorem overlap_total (line : NumberLine F number) (o o' : Object F) (box : Tlbr F) :
    Scalar.le (intersectionOverUnion o.rect box) (intersectionOverUnion o'.rect box) = true ∨
      Scalar.le (intersectionOverUnion o'.rect box) (intersectionOverUnion o.rect box) = true :=
  line.total _ _ (intersectionOverUnion_number line _ _) (intersectionOverUnion_number line _ _)

theorem minimum_total (line : NumberLine F number) (o : Object F) (box : Tlbr F) :
    Scalar.le kMinimumAssignmentIou (intersectionOverUnion o.rect box) = true ∨
      Scalar.le (intersectionOverUnion o.rect box) kMinimumAssignmentIou = true :=
  line.total _ _ (line.constant _) (intersectionOverUnion_number line _ _)

/-- A larger overlap with the box, or the same overlap at a later place. -/
def Ahead (detections : List (Object F)) (box : Tlbr F) (e d : Nat) : Prop :=
  ∃ o o', detections[e]? = some o ∧ detections[d]? = some o' ∧
    Scalar.le (intersectionOverUnion o'.rect box) (intersectionOverUnion o.rect box) = true ∧
    (Scalar.le (intersectionOverUnion o.rect box) (intersectionOverUnion o'.rect box) = false ∨
      d < e)

/-- Among the detections not yet taken, the last one of largest overlap, if that suffices. -/
structure LastBest (detections : List (Object F)) (assigned : List Nat) (box : Tlbr F)
    (d : Nat) : Prop where
  free : d ∉ assigned
  enough : ∃ o, detections[d]? = some o ∧
    Scalar.le kMinimumAssignmentIou (intersectionOverUnion o.rect box) = true
  largest : ∀ e, e ∉ assigned → ¬Ahead detections box e d

theorem Ahead.of_snoc {last : Object F} {e d : Nat} (h : Ahead (detections ++ [last]) box e d)
    (hd : d < detections.length) : Ahead detections box e d ∨ e = detections.length := by
  obtain ⟨o, o', he, hd', le, lt⟩ := h
  rcases appended_cases he with hrest | ⟨rfl, -⟩
  · rw [List.getElem?_append_left hd] at hd'
    exact Or.inl ⟨o, o', hrest, hd', le, lt⟩
  · exact Or.inr rfl

/-- What the inner loop has found after any number of detections. -/
inductive Scanned (detections : List (Object F)) (assigned : List Nat) (box : Tlbr F) :
    F × Option Nat → Prop
  | found {d : Nat} {o : Object F} : detections[d]? = some o →
      LastBest detections assigned box d →
      Scanned detections assigned box (intersectionOverUnion o.rect box, some d)
  | nothing : (∀ (e : Nat) (o : Object F), detections[e]? = some o → e ∉ assigned →
        Scalar.le kMinimumAssignmentIou (intersectionOverUnion o.rect box) = false) →
      Scanned detections assigned box (kMinimumAssignmentIou, none)

/-- No earlier detection is ahead of the last one if its overlap is not larger. -/
theorem not_ahead_last {e : Nat} {o last : Object F} (he : detections[e]? = some o)
    (le : Scalar.le (intersectionOverUnion o.rect box)
      (intersectionOverUnion last.rect box) = true) :
    ¬Ahead (detections ++ [last]) box e detections.length := by
  rintro ⟨a, b, ha, hb, -, lt⟩
  rw [appended_old he] at ha
  rw [List.getElem?_concat_length] at hb
  cases ha
  cases hb
  have := lt_of_entry he
  rcases lt with lt | lt
  · rw [le] at lt
    cases lt
  · omega

theorem not_ahead_self (line : NumberLine F number) (last : Object F) :
    ¬Ahead (detections ++ [last]) box detections.length detections.length := by
  rintro ⟨a, b, ha, hb, -, lt⟩
  rw [List.getElem?_concat_length] at ha hb
  cases ha
  cases hb
  rcases lt with lt | lt
  · rw [(overlap_total line last last box).elim id id] at lt
    cases lt
  · omega

/-- The last detection is the one to take if no free detection before it overlaps more. -/
theorem lastBest_last (line : NumberLine F number) {last : Object F}
    (free : detections.length ∉ assigned)
    (enough : Scalar.le kMinimumAssignmentIou (intersectionOverUnion last.rect box) = true)
    (smaller : ∀ (e : Nat) (o : Object F), detections[e]? = some o → e ∉ assigned →
      Scalar.le (intersectionOverUnion o.rect box) (intersectionOverUnion last.rect box) = true) :
    LastBest (detections ++ [last]) assigned box detections.length := by
  refine ⟨free, ⟨last, List.getElem?_concat_length, enough⟩, ?_⟩
  intro e unassigned ahead
  have ⟨a, _, ha, _⟩ := ahead
  rcases appended_cases ha with hrest | ⟨rfl, -⟩
  · exact not_ahead_last hrest (smaller e a hrest unassigned) ahead
  · exact not_ahead_self line last ahead

/-- The one to take stays so if the last detection is taken already or overlaps less. -/
theorem LastBest.of_snoc {d : Nat} {o last : Object F} (best : LastBest detections assigned box d)
    (hd : detections[d]? = some o)
    (beaten : detections.length ∈ assigned ∨ ¬Scalar.le (intersectionOverUnion o.rect box)
      (intersectionOverUnion last.rect box) = true) :
    LastBest (detections ++ [last]) assigned box d := by
  obtain ⟨o', ho', enough⟩ := best.enough
  refine ⟨best.free, ⟨o', appended_old ho', enough⟩, ?_⟩
  intro e free ahead
  rcases ahead.of_snoc (lt_of_entry hd) with hrest | rfl
  · exact best.largest e free hrest
  · rcases beaten with taken | less
    · exact free taken
    · obtain ⟨a, b, ha, hb, le, -⟩ := ahead
      rw [List.getElem?_concat_length] at ha
      rw [appended_old hd] at hb
      cases ha
      cases hb
      exact less le

/-- No free detection overlaps more than the best one. -/
theorem LastBest.le (line : NumberLine F number) {d e : Nat} {o a : Object F}
    (best : LastBest detections assigned box d) (hd : detections[d]? = some o)
    (he : detections[e]? = some a) (free : e ∉ assigned) :
    Scalar.le (intersectionOverUnion a.rect box) (intersectionOverUnion o.rect box) = true := by
  by_contra lt
  have reverse := (overlap_total line o a box).resolve_right lt
  exact best.largest e free ⟨a, o, he, hd, reverse, Or.inl (Bool.eq_false_of_not_eq_true lt)⟩

theorem scanned_step (line : NumberLine F number) {last : Object F} {best : F × Option Nat}
    (h : Scanned detections assigned box best) :
    Scanned (detections ++ [last]) assigned box
      (betterDetection assigned box best (last, detections.length)) := by
  by_cases taken : detections.length ∈ assigned
  · simp only [betterDetection, if_pos taken]
    cases h with
    | found hd best =>
      exact .found (appended_old hd) (best.of_snoc hd (Or.inl taken))
    | nothing small =>
      refine .nothing ?_
      intro e o he free
      rcases appended_cases he with hrest | ⟨rfl, -⟩
      · exact small e o hrest free
      · exact absurd taken free
  · simp only [betterDetection, if_neg taken]
    cases h with
    | @found d o hd best =>
      by_cases better : Scalar.le (intersectionOverUnion o.rect box)
          (intersectionOverUnion last.rect box) = true
      · rw [if_pos better]
        obtain ⟨o', ho', enough⟩ := best.enough
        have same : o' = o := Option.some.inj (ho'.symm.trans hd)
        subst same
        refine .found (List.getElem?_concat_length) ?_
        refine lastBest_last line taken (line.trans _ _ _ enough better) ?_
        intro e a ha free
        exact line.trans _ _ _ (best.le line hd ha free) better
      · rw [if_neg better]
        exact .found (appended_old hd) (best.of_snoc hd (Or.inr better))
    | nothing small =>
      by_cases better : Scalar.le kMinimumAssignmentIou (intersectionOverUnion last.rect box) = true
      · rw [if_pos better]
        refine .found (List.getElem?_concat_length) (lastBest_last line taken better ?_)
        intro e a ha free
        have low := small e a ha free
        refine line.trans _ _ _ ?_ better
        exact (minimum_total line a box).resolve_left (by rw [low]; exact Bool.false_ne_true)
      · rw [if_neg better]
        refine .nothing ?_
        intro e o he free
        rcases appended_cases he with hrest | ⟨rfl, rfl⟩
        · exact small e o hrest free
        · exact Bool.eq_false_of_not_eq_true better

theorem scanned (line : NumberLine F number) (detections : List (Object F)) (assigned : List Nat)
    (box : Tlbr F) : Scanned detections assigned box
      (detections.zipIdx.foldl (betterDetection assigned box) (kMinimumAssignmentIou, none)) := by
  induction detections using List.reverseRecOn with
  | nil => exact .nothing (by simp)
  | append_singleton rest last ih =>
    rw [List.zipIdx_append, List.foldl_append, Nat.zero_add]
    exact scanned_step line ih

/-- Of two untaken detections neither ahead of the other, only one can be the last best. -/
theorem LastBest.unique (line : NumberLine F number) {d d' : Nat}
    (h : LastBest detections assigned box d) (h' : LastBest detections assigned box d') :
    d = d' := by
  obtain ⟨o, ho, -⟩ := h.enough
  obtain ⟨o', ho', -⟩ := h'.enough
  by_contra ne
  have first := h'.largest d h.free
  have second := h.largest d' h'.free
  rcases overlap_total line o o' box with le | le
  · refine second ⟨o', o, ho', ho, le, ?_⟩
    by_contra close
    rw [not_or] at close
    have back : Scalar.le (intersectionOverUnion o'.rect box)
        (intersectionOverUnion o.rect box) = true := by simpa using close.1
    exact first ⟨o, o', ho, ho', back, Or.inr (by omega)⟩
  · refine first ⟨o, o', ho, ho', le, ?_⟩
    by_contra close
    rw [not_or] at close
    have back : Scalar.le (intersectionOverUnion o.rect box)
        (intersectionOverUnion o'.rect box) = true := by simpa using close.1
    exact second ⟨o', o, ho', ho, back, Or.inr (by omega)⟩

theorem LastBest.congr {taken : List Nat} {d : Nat} (h : LastBest detections assigned box d)
    (same : ∀ e, e ∈ taken ↔ e ∈ assigned) : LastBest detections taken box d :=
  ⟨mt (same d).mp h.free, h.enough, fun e free => h.largest e (mt (same e).mpr free)⟩

/-- The greedy choice is the last best detection. -/
theorem bestDetection_iff (line : NumberLine F number) {d : Nat} :
    bestDetection detections assigned box = some d ↔ LastBest detections assigned box d := by
  rw [bestDetection]
  generalize hscan : detections.zipIdx.foldl (betterDetection assigned box)
    (kMinimumAssignmentIou, none) = scan
  have found := hscan ▸ scanned line detections assigned box
  cases found with
  | @found d' o hd best =>
    constructor
    · intro h
      cases h
      exact best
    · exact fun best' => congrArg some (best.unique line best')
  | nothing small =>
    constructor
    · intro h
      cases h
    · intro best
      obtain ⟨o, ho, enough⟩ := best.enough
      rw [small d o ho best.free] at enough
      cases enough

/-- Each detection that is given an id is the last best one left for its track. -/
theorem assignTracks_lastBest (line : NumberLine F number) {tracks : List (STrack F)}
    {assigned : List Nat} {k : Nat} {id : Int}
    (given : lookupIn k (assignTracks detections tracks assigned) = some id) :
    ∃ (i : Nat) (track : STrack F), tracks[i]? = some track ∧ track.trackId = id ∧
      LastBest detections
        (assigned ++ (assignTracks detections (tracks.take i) assigned).map Prod.fst)
        track.tlbr k := by
  induction tracks generalizing assigned with
  | nil => cases given
  | cons track rest ih =>
    rw [assignTracks] at given
    cases best : bestDetection detections assigned track.tlbr with
    | none =>
      rw [best] at given
      obtain ⟨i, track', held, same, last⟩ := ih given
      refine ⟨i + 1, track', held, same, ?_⟩
      rw [List.take_succ_cons, assignTracks, best]
      exact last
    | some d =>
      rw [best] at given
      simp only [lookupIn_cons] at given
      by_cases hd : d = k
      · subst hd
        rw [if_pos rfl] at given
        refine ⟨0, track, rfl, Option.some.inj given, ?_⟩
        simpa [assignTracks] using (bestDetection_iff line).mp best
      · rw [if_neg hd] at given
        obtain ⟨i, track', held, same, last⟩ := ih given
        refine ⟨i + 1, track', held, same, ?_⟩
        rw [List.take_succ_cons, assignTracks, best]
        refine last.congr fun e => ?_
        simp only [List.map_cons, List.mem_append, List.mem_cons]
        tauto

end Scan

section Grouped

variable {objects : List (Object F)} {label : String}

theorem mem_groupedIndices {i : Nat} :
    i ∈ groupedIndices objects label ↔ ∃ o, objects[i]? = some o ∧ o.labelName = label := by
  rw [groupedIndices, List.mem_filter, List.mem_range, decide_eq_true_eq,
    Option.map_eq_some_iff]
  constructor
  · exact fun h => h.2
  · rintro ⟨o, ho, hlabel⟩
    exact ⟨(List.getElem?_eq_some_iff.mp ho).1, o, ho, hlabel⟩

theorem groupedIndices_nodup : (groupedIndices objects label).Nodup :=
  List.nodup_range.filter _

theorem groupedIndices_congr {objects' : List (Object F)}
    (same : objects.map Object.labelName = objects'.map Object.labelName) :
    groupedIndices objects label = groupedIndices objects' label := by
  have length : objects.length = objects'.length := by
    have := congrArg List.length same
    simpa using this
  rw [groupedIndices, groupedIndices, length]
  refine List.filter_congr fun i _ => ?_
  rw [← List.getElem?_map, ← List.getElem?_map, same]

theorem getElem?_groupedDetections (k : Nat) :
    (groupedDetections objects label)[k]? =
      (groupedIndices objects label)[k]?.bind fun i => objects[i]? := by
  refine getElem?_read (fun i hi => ?_) k
  obtain ⟨o, ho, -⟩ := mem_groupedIndices.mp hi
  exact ⟨o, ho⟩

theorem groupedDetections_eq_filter :
    groupedDetections objects label = objects.filter fun o => o.labelName = label := by
  induction objects using List.reverseRecOn with
  | nil => rfl
  | append_singleton rest o ih =>
    have before : ∀ i ∈ List.range rest.length, (rest ++ [o])[i]? = rest[i]? :=
      fun i hi => List.getElem?_append_left (List.mem_range.mp hi)
    have head : (List.range rest.length).filter
        (fun i => ((rest ++ [o])[i]?.map Object.labelName) = some label) =
          groupedIndices rest label := by
      refine List.filter_congr fun i hi => ?_
      rw [before i hi]
    have values : (groupedIndices rest label).filterMap (fun i => (rest ++ [o])[i]?) =
        groupedDetections rest label := by
      refine List.filterMap_congr fun i hi => before i ?_
      exact (List.mem_filter.mp hi).1
    rw [groupedDetections, groupedIndices, List.length_append, List.length_singleton,
      List.range_succ, List.filter_append, head, List.filterMap_append, values, ih,
      List.filter_append]
    congr 1
    by_cases h : o.labelName = label <;> simp [h]

end Grouped

section Write

variable {grouped : List Nat} {assignment : List (Nat × Int)}

/-- The objects an assignment marks, each with its id. -/
def marks (grouped : List Nat) (assignment : List (Nat × Int)) : List (Nat × Int) :=
  assignment.filterMap fun a => grouped[a.1]?.map fun i => (i, a.2)

theorem mem_marks {i : Nat} {id : Int} :
    (i, id) ∈ marks grouped assignment ↔ ∃ k, (k, id) ∈ assignment ∧ grouped[k]? = some i := by
  simp [marks, List.mem_filterMap]

theorem marks_nodup (hgrouped : grouped.Nodup) (distinct : (assignment.map Prod.fst).Nodup) :
    ((marks grouped assignment).map Prod.fst).Nodup := by
  rw [marks, List.map_filterMap, List.Nodup, List.pairwise_filterMap]
  refine (List.pairwise_map.mp distinct).imp ?_
  intro a a' hne i hi i' hi' same
  simp only [Option.map_map, Option.map_eq_some_iff, Function.comp_apply] at hi hi'
  obtain ⟨j, hj, rfl⟩ := hi
  obtain ⟨j', hj', rfl⟩ := hi'
  rw [← same, ← hj] at hj'
  exact hne ((List.getElem?_inj (List.getElem?_eq_some_iff.mp hj).1 hgrouped).mp hj'.symm)

/-- The object at position `k` of its label is marked with the id `k` was given. -/
theorem lookupIn_marks (hgrouped : grouped.Nodup) (distinct : (assignment.map Prod.fst).Nodup)
    {k i : Nat} (hk : grouped[k]? = some i) :
    lookupIn i (marks grouped assignment) = lookupIn k assignment := by
  apply Option.ext
  intro id
  rw [← mem_iff_lookupIn (marks_nodup hgrouped distinct), ← mem_iff_lookupIn distinct, mem_marks]
  constructor
  · rintro ⟨k', hmem, hk'⟩
    rw [← hk] at hk'
    have bound : k' < grouped.length := by
      rw [hk] at hk'
      exact (List.getElem?_eq_some_iff.mp hk').1
    exact (List.getElem?_inj bound hgrouped).mp hk' ▸ hmem
  · exact fun hmem => ⟨k, hmem, hk⟩

theorem writeIds_eq_foldl (grouped : List Nat) (assignment : List (Nat × Int))
    (objects : List (Object F)) :
    writeIds grouped assignment objects =
      (marks grouped assignment).foldl (fun objects m => objects.modify m.1 (setTrackId m.2))
        objects := by
  induction assignment generalizing objects with
  | nil => rfl
  | cons a rest ih =>
    rw [writeIds, List.foldl_cons, marks, List.filterMap_cons]
    cases hk : grouped[a.1]? with
    | none => exact ih objects
    | some i => exact ih (objects.modify i (setTrackId a.2))

theorem getElem?_writeIds (hgrouped : grouped.Nodup) (distinct : (assignment.map Prod.fst).Nodup)
    (objects : List (Object F)) (i : Nat) :
    (writeIds grouped assignment objects)[i]? =
      objects[i]?.map (written setTrackId (marks grouped assignment) i) := by
  rw [writeIds_eq_foldl]
  exact getElem?_foldl_write (fun objects : List (Object F) => objects) setTrackId
    (fun _ _ => rfl) (marks_nodup hgrouped distinct) objects i

/-- Writing ids changes nothing but ids. -/
theorem map_writeIds {β : Type*} {g : Object F → β} (blind : ∀ id o, g (setTrackId id o) = g o)
    (grouped : List Nat) (assignment : List (Nat × Int)) (objects : List (Object F)) :
    (writeIds grouped assignment objects).map g = objects.map g := by
  rw [writeIds_eq_foldl]
  refine foldl_same (List.map g) ?_ _ objects
  intro objects m
  apply List.ext_getElem?
  intro i
  rw [List.getElem?_map, List.getElem?_map, List.getElem?_modify]
  by_cases hi : m.1 = i <;> cases objects[i]? <;> simp [hi, blind]

@[simp] theorem labelName_setTrackId (id : Int) (o : Object F) :
    (setTrackId id o).labelName = o.labelName := rfl

@[simp] theorem trackId_setTrackId (id : Int) (o : Object F) :
    (setTrackId id o).trackId = id := rfl

@[simp] theorem setTrackId_setTrackId (id id' : Int) (o : Object F) :
    setTrackId id (setTrackId id' o) = setTrackId id o := rfl

variable {objects : List (Object F)} {label : String}

/-- The objects of one label after its ids were written. -/
theorem grouped_writeIds (distinct : (assignment.map Prod.fst).Nodup) (k : Nat) :
    (groupedDetections (writeIds (groupedIndices objects label) assignment objects) label)[k]? =
      (groupedDetections objects label)[k]?.map fun o =>
        setTrackId ((lookupIn k assignment).getD o.trackId) o := by
  rw [getElem?_groupedDetections, getElem?_groupedDetections,
    groupedIndices_congr (map_writeIds labelName_setTrackId _ _ objects)]
  cases hk : (groupedIndices objects label)[k]? with
  | none => rfl
  | some i =>
    simp only [Option.bind_some]
    rw [getElem?_writeIds groupedIndices_nodup distinct]
    refine congrArg (fun f => objects[i]?.map f) (funext fun o => ?_)
    rw [written, lookupIn_marks groupedIndices_nodup distinct hk]
    cases lookupIn k assignment <;> rfl

/-- The objects of another label stay as they are. -/
theorem grouped_writeIds_other (distinct : (assignment.map Prod.fst).Nodup) {other : String}
    (ne : other ≠ label) :
    groupedDetections (writeIds (groupedIndices objects label) assignment objects) other =
      groupedDetections objects other := by
  apply List.ext_getElem?
  intro k
  rw [getElem?_groupedDetections, getElem?_groupedDetections,
    groupedIndices_congr (map_writeIds labelName_setTrackId _ _ objects)]
  cases hk : (groupedIndices objects other)[k]? with
  | none => rfl
  | some i =>
    simp only [Option.bind_some]
    have unmarked : i ∉ (marks (groupedIndices objects label) assignment).map Prod.fst := by
      intro hmem
      obtain ⟨⟨j, id⟩, hmark, rfl⟩ := List.mem_map.mp hmem
      obtain ⟨_, -, hj⟩ := mem_marks.mp hmark
      obtain ⟨o, ho, hlabel⟩ := mem_groupedIndices.mp (List.mem_of_getElem? hj)
      obtain ⟨o', ho', hother⟩ := mem_groupedIndices.mp (List.mem_of_getElem? hk)
      rw [ho] at ho'
      cases ho'
      exact ne (hother.symm.trans hlabel)
    rw [getElem?_writeIds groupedIndices_nodup distinct]
    cases objects[i]? <;> simp [written_absent unmarked]

end Write

end GreedyAssignments
