import AxVision.TrackAssociation

/-!
# What an assignment promises

A solver that returns a permutation and its inverse, or an error, makes every
`linear_assignment` a partial matching: rows and columns are used at most once,
and what is not matched is reported as unmatched, exactly once.
-/

namespace ProperAssignments

open DetectionTypes STracks TrackAssociation

universe u

variable {F : Type u}

/-- `x` is a permutation of `0, …, n - 1` and `y` its inverse. -/
structure InversePair (n : Nat) (x y : List Int) : Prop where
  x_length : x.length = n
  y_length : y.length = n
  x_inverse : ∀ (i : Nat) (v : Int), x[i]? = some v → ∃ j : Nat, v = j ∧ j < n ∧ y[j]? = some (i : Int)
  y_inverse : ∀ (j : Nat) (v : Int), y[j]? = some v → ∃ i : Nat, v = i ∧ i < n ∧ x[i]? = some (j : Int)

/-- The solver returns a valid permutation or an error. -/
def Valid (backend : Backend F) : Prop :=
  ∀ n cost x y, backend.lapjvInternal n cost = some (x, y) → InversePair n x y

structure Proper (a : Assignment) (rows cols : Nat) : Prop where
  rows_nodup : (a.pairs.map Prod.fst).Nodup
  cols_nodup : (a.pairs.map Prod.snd).Nodup
  pair_lt : ∀ m ∈ a.pairs, m.1 < rows ∧ m.2 < cols
  unmatchedA_nodup : a.unmatchedA.Nodup
  unmatchedA_iff : ∀ i, i ∈ a.unmatchedA ↔ i < rows ∧ i ∉ a.pairs.map Prod.fst
  unmatchedB_nodup : a.unmatchedB.Nodup
  unmatchedB_iff : ∀ j, j ∈ a.unmatchedB ↔ j < cols ∧ j ∉ a.pairs.map Prod.snd

/-- A row solution and a column solution that agree; -1 stands for no partner. -/
structure Linked (rows cols : Nat) (rowsol colsol : List Int) : Prop where
  rows_length : rowsol.length = rows
  cols_length : colsol.length = cols
  row : ∀ (i : Nat) (v : Int), rowsol[i]? = some v → v = -1 ∨ ∃ j : Nat, v = j ∧ colsol[j]? = some (i : Int)
  col : ∀ (j : Nat) (v : Int), colsol[j]? = some v → v = -1 ∨ ∃ i : Nat, v = i ∧ rowsol[i]? = some (j : Int)

section Read

variable {rowsol colsol : List Int}

theorem mem_pairs {i j : Nat} :
    (i, j) ∈ (readSolution rowsol colsol).pairs ↔ rowsol[i]? = some (j : Int) := by
  simp only [readSolution, List.mem_filterMap, List.mem_zipIdx_iff_getElem?, Prod.exists]
  constructor
  · rintro ⟨v, k, hv, hpair⟩
    split at hpair
    · next nonneg =>
      cases hpair
      rw [hv, Int.toNat_of_nonneg nonneg]
    · cases hpair
  · intro h
    exact ⟨j, i, h, by simp⟩

theorem mem_unmatchedA {i : Nat} :
    i ∈ (readSolution rowsol colsol).unmatchedA ↔ ∃ v, rowsol[i]? = some v ∧ v < 0 := by
  simp only [readSolution, List.mem_filterMap, List.mem_zipIdx_iff_getElem?, Prod.exists]
  constructor
  · rintro ⟨v, k, hv, hk⟩
    split at hk
    · cases hk
    · next neg =>
      cases hk
      exact ⟨v, hv, not_le.mp neg⟩
  · rintro ⟨v, hv, neg⟩
    exact ⟨v, i, hv, by simp [neg]⟩

theorem mem_unmatchedB {j : Nat} :
    j ∈ (readSolution rowsol colsol).unmatchedB ↔ ∃ v, colsol[j]? = some v ∧ v < 0 := by
  simp only [readSolution, List.mem_filterMap, List.mem_zipIdx_iff_getElem?, Prod.exists]
  constructor
  · rintro ⟨v, k, hv, hk⟩
    split at hk
    · next neg =>
      cases hk
      exact ⟨v, hv, neg⟩
    · cases hk
  · rintro ⟨v, hv, neg⟩
    exact ⟨v, j, hv, by simp [neg]⟩

/-- A scan that reports positions reports each at most once. -/
theorem positions_nodup {g : Int × Nat → Option Nat} (position : ∀ v k, g v = some k → k = v.2)
    (l : List Int) : (l.zipIdx.filterMap g).Nodup := by
  have indices : (l.zipIdx.map Prod.snd).Nodup := by
    rw [List.zipIdx_map_snd]
    exact List.nodup_range'
  rw [List.Nodup, List.pairwise_filterMap]
  refine (List.pairwise_map.mp indices).imp ?_
  intro a b hab k hk k' hk' same
  rw [position a k hk, position b k' hk'] at same
  exact hab same

theorem Linked.proper {rows cols : Nat} (h : Linked rows cols rowsol colsol) :
    Proper (readSolution rowsol colsol) rows cols := by
  have bound : ∀ (i : Nat) (v : Int), rowsol[i]? = some v → i < rows := by
    intro i v hv
    rw [← h.rows_length]
    exact (List.getElem?_eq_some_iff.mp hv).1
  have boundB : ∀ (j : Nat) (v : Int), colsol[j]? = some v → j < cols := by
    intro j v hv
    rw [← h.cols_length]
    exact (List.getElem?_eq_some_iff.mp hv).1
  have partner : ∀ i j : Nat, rowsol[i]? = some (j : Int) → colsol[j]? = some (i : Int) := by
    intro i j hij
    rcases h.row i j hij with neg | ⟨j', hj, hcol⟩
    · omega
    · rwa [Int.ofNat_inj.mp hj]
  have rows_nodup : ((readSolution rowsol colsol).pairs.map Prod.fst).Nodup := by
    simp only [readSolution, List.map_filterMap]
    apply positions_nodup
    rintro ⟨v, k⟩ k' hk
    simp only at hk
    split at hk
    · simpa using hk.symm
    · cases hk
  refine ⟨rows_nodup, ?_, ?_, ?_, ?_, ?_, ?_⟩
  · refine List.Nodup.map_on ?_ (List.Nodup.of_map _ rows_nodup)
    rintro ⟨i, j⟩ hij ⟨i', j'⟩ hij' (rfl : j = j')
    have first := partner i j (mem_pairs.mp hij)
    have second := partner i' j (mem_pairs.mp hij')
    rw [first, Option.some.injEq, Int.ofNat_inj] at second
    rw [second]
  · rintro ⟨i, j⟩ hij
    have hrow := mem_pairs.mp hij
    exact ⟨bound i j hrow, boundB j i (partner i j hrow)⟩
  · apply positions_nodup
    rintro ⟨v, k⟩ k' hk
    simp only at hk
    split at hk
    · cases hk
    · simpa using hk.symm
  · intro i
    rw [mem_unmatchedA]
    constructor
    · rintro ⟨v, hv, neg⟩
      refine ⟨bound i v hv, ?_⟩
      intro hmem
      obtain ⟨⟨i', j⟩, hij, rfl⟩ := List.mem_map.mp hmem
      rw [mem_pairs.mp hij] at hv
      cases hv
      omega
    · rintro ⟨hi, unmatched⟩
      obtain ⟨v, hv⟩ : ∃ v, rowsol[i]? = some v :=
        ⟨_, List.getElem?_eq_getElem (h.rows_length ▸ hi)⟩
      refine ⟨v, hv, ?_⟩
      rcases h.row i v hv with rfl | ⟨j, rfl, -⟩
      · omega
      · exact absurd (List.mem_map_of_mem (mem_pairs.mpr hv)) unmatched
  · apply positions_nodup
    rintro ⟨v, k⟩ k' hk
    simp only at hk
    split at hk
    · simpa using hk.symm
    · cases hk
  · intro j
    rw [mem_unmatchedB]
    constructor
    · rintro ⟨v, hv, neg⟩
      refine ⟨boundB j v hv, ?_⟩
      intro hmem
      obtain ⟨⟨i, j'⟩, hij, rfl⟩ := List.mem_map.mp hmem
      rw [partner i j' (mem_pairs.mp hij)] at hv
      cases hv
      omega
    · rintro ⟨hj, unmatched⟩
      obtain ⟨v, hv⟩ : ∃ v, colsol[j]? = some v :=
        ⟨_, List.getElem?_eq_getElem (h.cols_length ▸ hj)⟩
      refine ⟨v, hv, ?_⟩
      rcases h.col j v hv with rfl | ⟨i, rfl, hrow⟩
      · omega
      · exact absurd (List.mem_map_of_mem (mem_pairs.mpr hrow)) unmatched

end Read

section Solve

/-- Cutting an inverse pair down to the real rows and columns keeps it linked. -/
theorem InversePair.linked {rows cols : Nat} {x y : List Int} (h : InversePair (rows + cols) x y) :
    Linked rows cols ((x.take rows).map fun v : Int => if v ≥ cols then -1 else v)
      ((y.take cols).map fun v : Int => if v ≥ rows then -1 else v) := by
  have clip : ∀ (l : List Int) (k bound : Nat) (i : Nat) (v : Int),
      ((l.take k).map fun v : Int => if v ≥ bound then -1 else v)[i]? = some v →
        ∃ w, i < k ∧ l[i]? = some w ∧ v = if w ≥ bound then -1 else w := by
    intro l k bound i v hv
    rw [List.getElem?_map, List.getElem?_take] at hv
    split at hv
    · next hi =>
      obtain ⟨w, hw, rfl⟩ := Option.map_eq_some_iff.mp hv
      exact ⟨w, hi, hw, rfl⟩
    · cases hv
  refine ⟨by simp [h.x_length], by simp [h.y_length], ?_, ?_⟩
  · intro i v hv
    obtain ⟨w, hi, hw, rfl⟩ := clip _ _ _ _ _ hv
    obtain ⟨j, rfl, -, hy⟩ := h.x_inverse i w hw
    by_cases hj : (j : Int) ≥ cols
    · exact Or.inl (if_pos hj)
    · refine Or.inr ⟨j, if_neg hj, ?_⟩
      rw [List.getElem?_map, List.getElem?_take, if_pos (by omega), hy]
      simp only [Option.map_some]
      rw [if_neg (by omega)]
  · intro j v hv
    obtain ⟨w, hj, hw, rfl⟩ := clip _ _ _ _ _ hv
    obtain ⟨i, rfl, -, hx⟩ := h.y_inverse j w hw
    by_cases hi : (i : Int) ≥ rows
    · exact Or.inl (if_pos hi)
    · refine Or.inr ⟨i, if_neg hi, ?_⟩
      rw [List.getElem?_map, List.getElem?_take, if_pos (by omega), hx]
      simp only [Option.map_some]
      rw [if_neg (by omega)]

theorem failed_linked (rows cols : Nat) :
    Linked rows cols (List.replicate rows (-1)) (List.replicate cols (-1)) := by
  refine ⟨by simp, by simp, ?_, ?_⟩
  · intro i v hv
    exact Or.inl (List.eq_of_mem_replicate (List.mem_of_getElem? hv))
  · intro j v hv
    exact Or.inl (List.eq_of_mem_replicate (List.mem_of_getElem? hv))

variable [Scalar F] {backend : Backend F}

theorem lapjv_failed {cost : List (List F)} (costLimit : F)
    (failed : backend.lapjvInternal (cost.length + (cost.headD []).length)
      (extendedCost cost cost.length (cost.headD []).length costLimit) = none) :
    lapjv backend cost true costLimit =
      (List.replicate cost.length (-1), List.replicate (cost.headD []).length (-1)) := by
  simp only [lapjv, Bool.true_eq_false, and_false, if_false, Bool.true_or, if_true, failed]

theorem lapjv_solved {cost : List (List F)} {costLimit : F} {x y : List Int}
    (columns : 0 < (cost.headD []).length)
    (solved : backend.lapjvInternal (cost.length + (cost.headD []).length)
      (extendedCost cost cost.length (cost.headD []).length costLimit) = some (x, y)) :
    lapjv backend cost true costLimit =
      ((x.take cost.length).map fun v : Int => if v ≥ (cost.headD []).length then -1 else v,
        (y.take (cost.headD []).length).map fun v : Int => if v ≥ cost.length then -1 else v) := by
  have extended : cost.length + (cost.headD []).length ≠ cost.length := by omega
  simp only [lapjv, Bool.true_eq_false, and_false, if_false, Bool.true_or, if_true, solved,
    if_pos extended]

/-- A matrix with columns has its two solutions linked. -/
theorem lapjv_linked (valid : Valid backend) {cost : List (List F)} (costLimit : F)
    (columns : 0 < (cost.headD []).length) :
    Linked cost.length (cost.headD []).length (lapjv backend cost true costLimit).1
      (lapjv backend cost true costLimit).2 := by
  cases h : backend.lapjvInternal (cost.length + (cost.headD []).length)
      (extendedCost cost cost.length (cost.headD []).length costLimit) with
  | none =>
    rw [lapjv_failed costLimit h]
    exact failed_linked _ _
  | some solution =>
    rw [lapjv_solved columns h]
    exact (valid _ _ _ _ h).linked

theorem iouDistance_shape {a b : List (STrack F)} (h : iouDistance a b ≠ []) :
    (iouDistance a b).length = a.length ∧ ((iouDistance a b).headD []).length = b.length := by
  simp only [iouDistance] at h ⊢
  split at h
  · exact absurd rfl h
  · next hsize =>
    rw [if_neg hsize]
    cases a with
    | nil => simp at hsize
    | cons t rest => simp

theorem linearAssignment_nil (rows cols : Nat) (thresh : F) :
    linearAssignment backend [] rows cols thresh = ⟨[], List.range rows, List.range cols⟩ := rfl

theorem unmatched_proper (rows cols : Nat) :
    Proper ⟨[], List.range rows, List.range cols⟩ rows cols where
  rows_nodup := by simp
  cols_nodup := by simp
  pair_lt := by simp
  unmatchedA_nodup := List.nodup_range
  unmatchedA_iff := by simp
  unmatchedB_nodup := List.nodup_range
  unmatchedB_iff := by simp

/-- An assignment for a matrix with columns is a partial matching. -/
theorem solved_proper (valid : Valid backend) (cost : List (List F)) (thresh : F)
    (columns : 0 < (cost.headD []).length) :
    Proper (linearAssignment backend cost cost.length (cost.headD []).length thresh)
      cost.length (cost.headD []).length := by
  have nonempty : cost ≠ [] := by
    rintro rfl
    simp at columns
  rw [linearAssignment, if_neg (by simpa using nonempty)]
  exact (lapjv_linked valid thresh columns).proper

/-- Every call of `linear_assignment` made by the tracker is a partial matching. -/
theorem linearAssignment_proper (valid : Valid backend) (a b : List (STrack F)) (thresh : F) :
    Proper (linearAssignment backend (iouDistance a b) a.length b.length thresh)
      a.length b.length := by
  by_cases empty : iouDistance a b = []
  · rw [empty, linearAssignment_nil]
    exact unmatched_proper a.length b.length
  · obtain ⟨rows, cols⟩ := iouDistance_shape empty
    have columns : 0 < b.length := by
      rw [Nat.pos_iff_ne_zero]
      intro none
      exact empty (by simp [iouDistance, none])
    have proper := solved_proper valid (iouDistance a b) thresh (by rwa [cols])
    rwa [rows, cols] at proper

end Solve

end ProperAssignments
