import AxVision.ConflictGraphs
import AxVision.TrackAssociation

/-!
# Duplicate tracks

`remove_duplicate_stracks` decides every close pair on its own, by the two
lifetimes. What it keeps has no close pair left, and a track it drops is
followed, pair by pair, to one that lives at least as long and is kept.
-/

namespace DuplicateTracks

open DetectionTypes STracks TrackAssociation ConflictGraphs

universe u

variable {F : Type u}

def lifetime (track : STrack F) : Int := track.frameId - track.startFrame

variable [Scalar F]

/-- The distance of the pair is below the threshold. -/
def Duplicate (p q : STrack F) : Prop :=
  Scalar.lt (Scalar.ofRat 1 - iou p.tlbr q.tlbr) (Scalar.ofRat (15 / 100)) = true

/-- A track of one list is a duplicate of one of the other that lives as long
or longer. -/
inductive Linked (a b : List (STrack F)) : STrack F ⊕ STrack F → STrack F ⊕ STrack F → Prop
  | toLost {p q : STrack F} (hp : p ∈ a) (hq : q ∈ b) (close : Duplicate p q)
      (le : lifetime p ≤ lifetime q) : Linked a b (.inl p) (.inr q)
  | toTracked {p q : STrack F} (hp : p ∈ a) (hq : q ∈ b) (close : Duplicate p q)
      (le : lifetime q ≤ lifetime p) : Linked a b (.inr q) (.inl p)

/-- The left side are the tracked targets, the right side the lost ones. -/
def Listed (a b : List (STrack F)) : STrack F ⊕ STrack F → Prop
  | .inl p => p ∈ a
  | .inr q => q ∈ b

def Kept (a b : List (STrack F)) : STrack F ⊕ STrack F → Prop
  | .inl p => p ∈ (removeDuplicateStracks a b).1
  | .inr q => q ∈ (removeDuplicateStracks a b).2

theorem iouDistance_eq (a b : List (STrack F)) (i j : Nat) (d : F) :
    (∃ row, (iouDistance a b)[i]? = some row ∧ row[j]? = some d) ↔
      ∃ p q, a[i]? = some p ∧ b[j]? = some q ∧ Scalar.ofRat 1 - iou p.tlbr q.tlbr = d := by
  rw [iouDistance]
  split
  · next empty =>
    rcases Nat.mul_eq_zero.mp empty with none | none
    · simp [List.length_eq_zero_iff.mp none]
    · simp [List.length_eq_zero_iff.mp none]
  · constructor
    · rintro ⟨row, hrow, hd⟩
      rw [List.getElem?_map, Option.map_eq_some_iff] at hrow
      obtain ⟨p, hp, rfl⟩ := hrow
      rw [List.getElem?_map, Option.map_eq_some_iff] at hd
      obtain ⟨q, hq, rfl⟩ := hd
      exact ⟨p, q, hp, hq, rfl⟩
    · rintro ⟨p, q, hp, hq, rfl⟩
      exact ⟨b.map fun d => Scalar.ofRat 1 - iou p.tlbr d.tlbr, by simp [hp], by simp [hq]⟩

theorem mem_duplicatePairs {a b : List (STrack F)} {i j : Nat} :
    (i, j) ∈ duplicatePairs a b ↔
      ∃ p q, a[i]? = some p ∧ b[j]? = some q ∧ Duplicate p q := by
  have pair : (i, j) ∈ duplicatePairs a b ↔
      ∃ d, (∃ row, (iouDistance a b)[i]? = some row ∧ row[j]? = some d) ∧
        Scalar.lt d (Scalar.ofRat (15 / 100)) = true := by
    simp only [duplicatePairs, List.mem_flatMap, List.mem_filterMap, Prod.exists,
      List.mk_mem_zipIdx_iff_getElem?]
    constructor
    · rintro ⟨row, i', hrow, d, j', hd, kept⟩
      split at kept
      · next close =>
        obtain ⟨rfl, rfl⟩ : i' = i ∧ j' = j := by simpa using kept
        exact ⟨d, ⟨row, hrow, hd⟩, close⟩
      · simp at kept
    · rintro ⟨d, ⟨row, hrow, hd⟩, close⟩
      exact ⟨row, i, hrow, d, j, hd, if_pos close⟩
  rw [pair]
  constructor
  · rintro ⟨d, held, close⟩
    obtain ⟨p, q, hp, hq, rfl⟩ := (iouDistance_eq a b i j d).mp held
    exact ⟨p, q, hp, hq, close⟩
  · rintro ⟨p, q, hp, hq, close⟩
    exact ⟨_, (iouDistance_eq a b i j _).mpr ⟨p, q, hp, hq, rfl⟩, close⟩

omit [Scalar F] in
theorem firstOlder_iff {a b : List (STrack F)} {i j : Nat} {p q : STrack F} (hp : a[i]? = some p)
    (hq : b[j]? = some q) : firstOlder a b (i, j) = true ↔ lifetime q < lifetime p := by
  simp [firstOlder, hp, hq, lifetime]

omit [Scalar F] in
/-- A track is dropped by its place; a place is dropped by its track. -/
theorem mem_dropIndices (loses : STrack F → Prop) {l : List (STrack F)} {dropped : List Nat}
    (places : ∀ i p, l[i]? = some p → (i ∈ dropped ↔ loses p)) {p : STrack F} :
    p ∈ dropIndices l dropped ↔ p ∈ l ∧ ¬loses p := by
  simp only [dropIndices, List.mem_map, List.mem_filter, decide_eq_true_eq, Prod.exists,
    List.mk_mem_zipIdx_iff_getElem?]
  constructor
  · rintro ⟨p, i, ⟨hp, kept⟩, rfl⟩
    refine ⟨List.mem_of_getElem? hp, ?_⟩
    rwa [← places i p hp]
  · rintro ⟨member, kept⟩
    obtain ⟨i, hp⟩ := List.mem_iff_getElem?.mp member
    refine ⟨p, i, ⟨hp, ?_⟩, rfl⟩
    rwa [places i p hp]

variable {a b : List (STrack F)}

/-- The clash of two tracks that are both in their lists. -/
def Clash (a b : List (STrack F)) (p q : STrack F) : Prop := p ∈ a ∧ q ∈ b ∧ Duplicate p q

theorem mem_tracked {p : STrack F} :
    p ∈ (removeDuplicateStracks a b).1 ↔
      p ∈ a ∧ ¬∃ q, Clash a b p q ∧ lifetime p ≤ lifetime q := by
  refine mem_dropIndices (fun p => ∃ q, Clash a b p q ∧ lifetime p ≤ lifetime q) ?_
  intro i p hp
  simp only [List.mem_map, List.mem_filter, Bool.not_eq_true', Prod.exists]
  constructor
  · rintro ⟨i', j, ⟨pair, older⟩, rfl⟩
    obtain ⟨p', q, hp', hq, close⟩ := mem_duplicatePairs.mp pair
    obtain rfl : p = p' := Option.some.inj (hp.symm.trans hp')
    refine ⟨q, ⟨List.mem_of_getElem? hp, List.mem_of_getElem? hq, close⟩, ?_⟩
    rw [← not_lt, ← firstOlder_iff hp hq, older]
    simp
  · rintro ⟨q, ⟨-, hq, close⟩, le⟩
    obtain ⟨j, hq⟩ := List.mem_iff_getElem?.mp hq
    refine ⟨i, j, ⟨mem_duplicatePairs.mpr ⟨p, q, hp, hq, close⟩, ?_⟩, rfl⟩
    rw [← Bool.not_eq_true, firstOlder_iff hp hq]
    exact not_lt.mpr le

theorem mem_lost {q : STrack F} :
    q ∈ (removeDuplicateStracks a b).2 ↔
      q ∈ b ∧ ¬∃ p, Clash a b p q ∧ lifetime q < lifetime p := by
  refine mem_dropIndices (fun q => ∃ p, Clash a b p q ∧ lifetime q < lifetime p) ?_
  intro j q hq
  simp only [List.mem_map, List.mem_filter, Prod.exists]
  constructor
  · rintro ⟨i, j', ⟨pair, older⟩, rfl⟩
    obtain ⟨p, q', hp, hq', close⟩ := mem_duplicatePairs.mp pair
    obtain rfl : q = q' := Option.some.inj (hq.symm.trans hq')
    exact ⟨p, ⟨List.mem_of_getElem? hp, List.mem_of_getElem? hq, close⟩,
      (firstOlder_iff hp hq).mp older⟩
  · rintro ⟨p, ⟨hp, -, close⟩, lt⟩
    obtain ⟨i, hp⟩ := List.mem_iff_getElem?.mp hp
    exact ⟨i, j, ⟨mem_duplicatePairs.mpr ⟨p, q, hp, hq, close⟩, (firstOlder_iff hp hq).mpr lt⟩, rfl⟩

/-- Every decision of the code is the decision of the clash alone. -/
theorem kept_iff_survives {v : STrack F ⊕ STrack F} (member : Listed a b v) :
    Kept a b v ↔ Survives (Beats (Clash a b) lifetime lifetime) v := by
  cases v with
  | inl p =>
    have member : p ∈ a := member
    rw [Kept, mem_tracked, survives_left]
    simp [member]
  | inr q =>
    have member : q ∈ b := member
    rw [Kept, mem_lost, survives_right]
    simp [member]

theorem linked_of_yields {v w : STrack F ⊕ STrack F}
    (yields : Yields (Beats (Clash a b) lifetime lifetime) v w) : Linked a b v w := by
  cases yields with
  | right clash le => exact .toLost clash.1 clash.2.1 clash.2.2 le
  | left clash lt => exact .toTracked clash.1 clash.2.1 clash.2.2 (le_of_lt lt)

theorem beats_member {v w : STrack F ⊕ STrack F}
    (beaten : Beats (Clash a b) lifetime lifetime w v) : Listed a b w := by
  cases beaten with
  | right clash _ => exact clash.2.1
  | left clash _ => exact clash.1

theorem kept_reached {v : STrack F ⊕ STrack F} (member : Listed a b v) :
    ∃ w, Relation.ReflTransGen (Linked a b) v w ∧ Kept a b w := by
  have finite : {v | Listed a b v}.Finite := by
    refine ((a.finite_toSet.image Sum.inl).union (b.finite_toSet.image Sum.inr)).subset ?_
    rintro (p | q) held
    · exact Or.inl ⟨p, held, rfl⟩
    · exact Or.inr ⟨q, held, rfl⟩
  obtain ⟨w, chain, survives⟩ := exists_survivor (Beats (Clash a b) lifetime lifetime)
    (key lifetime lifetime) finite (fun w v => beats_member) (fun w v => Beats.key_lt) v
  have held : Listed a b w := by
    rcases chain.cases_tail with rfl | ⟨u, -, last⟩
    · exact member
    · exact beats_member last
  exact ⟨w, Relation.ReflTransGen.mono (fun _ _ => linked_of_yields) _ _ chain,
    (kept_iff_survives held).mpr survives⟩

/-- No close pair is left, the kept lists are sublists, and every track of
either list is linked to a kept one that lives at least as long. -/
theorem duplicates_resolved (a b : List (STrack F)) :
    (∀ p ∈ (removeDuplicateStracks a b).1, ∀ q ∈ (removeDuplicateStracks a b).2,
        ¬Duplicate p q) ∧
      (removeDuplicateStracks a b).1.Sublist a ∧ (removeDuplicateStracks a b).2.Sublist b ∧
      ∀ v, Listed a b v →
        ∃ w, Relation.ReflTransGen (Linked a b) v w ∧ Kept a b w := by
  refine ⟨?_, ?_, ?_, fun v => kept_reached⟩
  · intro p hp q hq close
    have left := (mem_tracked.mp hp).1
    have right := (mem_lost.mp hq).1
    exact not_both_survive ⟨left, right, close⟩ ((kept_iff_survives (v := .inl p) left).mp hp)
      ((kept_iff_survives (v := .inr q) right).mp hq)
  · exact (removeDuplicateStracks_sublist a b).1
  · exact (removeDuplicateStracks_sublist a b).2

end DuplicateTracks
