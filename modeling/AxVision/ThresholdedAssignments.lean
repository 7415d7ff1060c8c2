import AxVision.ExactSolvers
import AxVision.PartialMatchings

/-!
# Assignments under a threshold

`linear_assignment` borders its matrix with half the threshold and lets an
outside solver find a least permutation of the square. What it reads back is a
least partial matching, each pair charged against the threshold.
-/

namespace ThresholdedAssignments

open DetectionTypes STracks TrackAssociation ProperAssignments OptimalAssignments ExactSolvers
open PartialMatchings

/-- An `n × m` matrix as the distances are passed: no rows at all where one side
is empty. -/
structure Shape (n m : Nat) (cost : List (List ℚ)) : Prop where
  empty : n = 0 ∨ m = 0 → cost = []
  rows : 0 < n → 0 < m → cost.length = n
  cols : 0 < n → 0 < m → ∀ row ∈ cost, row.length = m

/-- The solver fails, or it returns a least permutation and its inverse. -/
def LeastOrFails (backend : Backend ℚ) : Prop :=
  ∀ n cost x y, backend.lapjvInternal n cost = some (x, y) → ∃ σ : Equiv.Perm (Fin n),
    x = solution σ ∧ y = solution σ⁻¹ ∧ Optimal (costAt cost) σ

/-- Pairs of a row and a column in which neither occurs twice. -/
structure Matching (n m : Nat) (pairs : List (Nat × Nat)) : Prop where
  rows_nodup : (pairs.map Prod.fst).Nodup
  cols_nodup : (pairs.map Prod.snd).Nodup
  pair_lt : ∀ p ∈ pairs, p.1 < n ∧ p.2 < m

/-- The sum of `cost - limit` over the pairs. -/
def excess (cost : List (List ℚ)) (limit : ℚ) (pairs : List (Nat × Nat)) : ℚ :=
  (pairs.map fun p => entry cost p.1 p.2 0 - limit).sum

structure Solves (cost : List (List ℚ)) (n m : Nat) (limit : ℚ) (a : Assignment) : Prop where
  proper : Proper a n m
  within : ∀ p ∈ a.pairs, entry cost p.1 p.2 0 ≤ limit
  least : ∀ pairs, Matching n m pairs → excess cost limit a.pairs ≤ excess cost limit pairs

theorem LeastOrFails.valid {backend : Backend ℚ} (solver : LeastOrFails backend) :
    Valid backend := by
  intro n cost x y returned
  obtain ⟨σ, rfl, rfl, -⟩ := solver n cost x y returned
  exact solution_inverse σ

theorem OptimalSolver.leastOrFails {backend : Backend ℚ} (optimal : OptimalSolver backend) :
    LeastOrFails backend := by
  intro n cost x y returned
  obtain ⟨σ, solved, least⟩ := optimal n cost
  rw [returned] at solved
  cases solved
  exact ⟨σ, rfl, rfl, least⟩

theorem iouDistance_matrix (a b : List (STrack ℚ)) :
    Shape a.length b.length (iouDistance a b) := by
  refine ⟨?_, ?_, ?_⟩
  · rintro (none | none) <;> simp [iouDistance, none]
  · intro rows cols
    rw [iouDistance, if_neg (Nat.mul_ne_zero (by omega) (by omega)), List.length_map]
  · intro rows cols row member
    rw [iouDistance, if_neg (Nat.mul_ne_zero (by omega) (by omega))] at member
    obtain ⟨t, -, rfl⟩ := List.mem_map.mp member
    rw [List.length_map]

section Pairs

variable {n m : Nat} {pairs : List (Nat × Nat)}

def finPairs (matching : Matching n m pairs) : List (Fin n × Fin m) :=
  pairs.pmap (fun p lt => (⟨p.1, lt.1⟩, ⟨p.2, lt.2⟩)) matching.pair_lt

theorem map_finPairs (matching : Matching n m pairs) {γ : Type} (g : Nat × Nat → γ) :
    ((finPairs matching).map fun p => g (p.1, p.2)) = pairs.map g := by
  rw [finPairs, List.map_pmap]
  simp

/-- The partial matching of the rows and the columns that the pairs are. -/
def matchingOf (matching : Matching n m pairs) : Fin n ≃. Fin m :=
  ofPairs (finPairs matching)
    (List.Nodup.of_map Fin.val (by
      rw [List.map_map]
      exact (map_finPairs matching Prod.fst).symm ▸ matching.rows_nodup))
    (List.Nodup.of_map Fin.val (by
      rw [List.map_map]
      exact (map_finPairs matching Prod.snd).symm ▸ matching.cols_nodup))

theorem matchingOf_eq_some (matching : Matching n m pairs) {i : Fin n} {j : Fin m} :
    matchingOf matching i = some j ↔ ((i : Nat), (j : Nat)) ∈ pairs := by
  rw [matchingOf, ofPairs_eq_some, finPairs, List.mem_pmap]
  constructor
  · rintro ⟨⟨i, j⟩, member, same⟩
    cases same
    exact member
  · intro member
    exact ⟨(i, j), member, rfl⟩

theorem excess_eq (matching : Matching n m pairs) (cost : List (List ℚ)) (limit : ℚ) :
    excess cost limit pairs =
      weight (fun i j : Fin _ => entry cost i j 0 - limit) (matchingOf matching) := by
  rw [matchingOf, weight_ofPairs, excess]
  congr 1
  exact (map_finPairs matching fun p => entry cost p.1 p.2 0 - limit).symm

end Pairs

section Square

variable {n m : Nat}

/-- The columns of the square: the real ones, then one for each row. -/
def columns (n m : Nat) : Fin m ⊕ Fin n ≃ Fin (n + m) :=
  finSumFinEquiv.trans (finCongr (Nat.add_comm m n))

/-- A permutation of the square, with its borders told apart. -/
def borders (σ : Equiv.Perm (Fin (n + m))) : Fin n ⊕ Fin m ≃ Fin m ⊕ Fin n :=
  (finSumFinEquiv.trans σ).trans (columns n m).symm

theorem columns_inl (j : Fin m) : (columns n m (.inl j) : Nat) = j := rfl

theorem columns_inr (i : Fin n) : (columns n m (.inr i) : Nat) = m + i := rfl

variable {cost : List (List ℚ)} {thresh : ℚ}

theorem Shape.held (shape : Shape n m cost) (i : Fin n) (j : Fin m) :
    ∃ row ∈ cost, cost[i.val]? = some row ∧ ∃ v ∈ row, row[j.val]? = some v := by
  have rows := shape.rows (Fin.pos i) (Fin.pos j)
  have row := List.getElem?_eq_getElem (l := cost) (i := i) (by omega)
  have cols := shape.cols (Fin.pos i) (Fin.pos j) _ (List.mem_of_getElem? row)
  have entry := List.getElem?_eq_getElem (l := cost[i.val]) (i := j) (by omega)
  exact ⟨_, List.mem_of_getElem? row, row, _, List.mem_of_getElem? entry, entry⟩

theorem Shape.entry_eq (shape : Shape n m cost) (i : Fin n) (j : Fin m) (default : ℚ) :
    entry cost i j default = entry cost i j 0 := by
  obtain ⟨row, -, hrow, v, -, hv⟩ := shape.held i j
  simp [entry, hrow, hv]

/-- The extended matrix is the bordered one. -/
theorem costAt_extended (shape : Shape n m cost) (x : Fin n ⊕ Fin m) (y : Fin m ⊕ Fin n) :
    costAt (extendedCost cost n m thresh) (finSumFinEquiv x) (columns n m y) =
      bordered (fun (i : Fin n) (j : Fin m) => entry cost i j 0) (fillCost cost thresh) x y := by
  rw [costAt, entry_extendedCost _ _ (Fin.isLt _) (Fin.isLt _)]
  rcases x with i | j <;> rcases y with j' | i'
  · rw [columns_inl, finSumFinEquiv_apply_left, Fin.val_castAdd, if_pos ⟨i.isLt, j'.isLt⟩]
    exact shape.entry_eq i j' _
  · rw [columns_inr, finSumFinEquiv_apply_left, Fin.val_castAdd, if_neg (by omega),
      if_neg (by omega)]
    rfl
  · rw [columns_inl, finSumFinEquiv_apply_right, Fin.val_natAdd, if_neg (by omega),
      if_neg (by omega)]
    rfl
  · rw [columns_inr, finSumFinEquiv_apply_right, Fin.val_natAdd, if_neg (by omega),
      if_pos (by omega)]
    rfl

theorem total_extended (shape : Shape n m cost) (e : Fin n ⊕ Fin m ≃ Fin m ⊕ Fin n) :
    totalCost (costAt (extendedCost cost n m thresh))
        ((finSumFinEquiv.symm.trans e).trans (columns n m)) =
      ∑ x, bordered (fun (i : Fin n) (j : Fin m) => entry cost i j 0) (fillCost cost thresh)
        x (e x) := by
  rw [totalCost, ← Equiv.sum_comp finSumFinEquiv]
  refine Finset.sum_congr rfl ?_
  intro x _
  rw [← costAt_extended shape]
  simp

/-- A least permutation of the extended matrix is a least matching of the real
rows and columns, each pair charged against two fills. -/
theorem least_restrict (shape : Shape n m cost) {σ : Equiv.Perm (Fin (n + m))}
    (least : Optimal (costAt (extendedCost cost n m thresh)) σ) :
    Least (fun (i : Fin n) (j : Fin m) =>
        entry cost i j 0 - (fillCost cost thresh + fillCost cost thresh))
      (restrict (borders σ)) := by
  refine restrict_least ?_
  intro e
  rw [← total_extended shape, ← total_extended shape]
  have same : (finSumFinEquiv.symm.trans (borders σ)).trans (columns n m) = σ := by
    ext x
    simp [borders]
  rw [same]
  exact least _

theorem borders_eq_some {σ : Equiv.Perm (Fin (n + m))} {i : Fin n} {j : Fin m} :
    restrict (borders σ) i = some j ↔ (σ (Fin.castAdd m i) : Nat) = j := by
  have real : restrict (borders σ) i = some j ↔ borders σ (.inl i) = .inl j :=
    Sum.getLeft?_eq_some_iff
  rw [real, borders, Equiv.trans_apply, Equiv.symm_apply_eq, ← Fin.val_inj, columns_inl]
  rfl

end Square

section Solve

variable {backend : Backend ℚ} {n m : Nat} {cost : List (List ℚ)} {thresh : ℚ}

theorem Proper.matching {a : Assignment} (proper : Proper a n m) : Matching n m a.pairs :=
  ⟨proper.rows_nodup, proper.cols_nodup, proper.pair_lt⟩

theorem Shape.headD_length (shape : Shape n m cost) (rows : 0 < n) (cols : 0 < m) :
    (cost.headD []).length = m := by
  have length := shape.rows rows cols
  cases cost with
  | nil => simp at length; omega
  | cons row rest => exact shape.cols rows cols row List.mem_cons_self

/-- The pairs that are read back are the real pairs of the permutation. -/
theorem pairs_eq (shape : Shape n m cost) (rows : 0 < n) (cols : 0 < m)
    {σ : Equiv.Perm (Fin (n + m))}
    (solved : backend.lapjvInternal (n + m) (extendedCost cost n m thresh) =
      some (solution σ, solution σ⁻¹))
    (matching : Matching n m (linearAssignment backend cost n m thresh).pairs) :
    matchingOf matching = restrict (borders σ) := by
  have height := shape.rows rows cols
  have width := shape.headD_length rows cols
  have nonempty : cost ≠ [] := List.ne_nil_of_length_pos (by omega)
  have rowsol : (lapjv backend cost true thresh).1 =
      ((solution σ).take n).map fun v : Int => if v ≥ m then -1 else v := by
    rw [lapjv_solved (by omega) (by rw [height, width]; exact solved), height, width]
  ext1 i
  refine Option.ext fun j => ?_
  rw [matchingOf_eq_some, borders_eq_some, linearAssignment, if_neg (by simpa using nonempty),
    mem_pairs, rowsol, List.getElem?_map, List.getElem?_take, if_pos i.isLt,
    getElem?_solution.mpr ⟨by omega, rfl⟩, Option.map_some, Option.some.injEq]
  change (if ((σ (Fin.castAdd m i) : Nat) : Int) ≥ m then -1
    else ((σ (Fin.castAdd m i) : Nat) : Int)) = (j : Nat) ↔ _
  split
  · next border => omega
  · next real => omega

theorem solves_of_least {a : Assignment} {limit : ℚ} (proper : Proper a n m)
    (least : Least (fun (i : Fin n) (j : Fin m) => entry cost i j 0 - limit)
      (matchingOf (Proper.matching proper))) :
    Solves cost n m limit a := by
  refine ⟨proper, ?_, ?_⟩
  · rintro ⟨i, j⟩ member
    obtain ⟨hi, hj⟩ := proper.pair_lt _ member
    have pair : matchingOf (Proper.matching proper) ⟨i, hi⟩ = some ⟨j, hj⟩ :=
      (matchingOf_eq_some _).mpr member
    exact sub_nonpos.mp (least.entry_nonpos pair)
  · intro pairs matching
    rw [excess_eq (Proper.matching proper), excess_eq matching]
    exact least _

/-- Without rows or without columns there is nothing to match. -/
theorem solves_empty (shape : Shape n m cost) (empty : cost = []) (limit : ℚ) :
    Solves cost n m limit ⟨[], List.range n, List.range m⟩ := by
  refine ⟨unmatched_proper n m, by simp, ?_⟩
  intro pairs matching
  have none : pairs = [] := by
    refine List.eq_nil_iff_forall_not_mem.mpr ?_
    intro p member
    obtain ⟨row, col⟩ := matching.pair_lt p member
    have rows := shape.rows (by omega) (by omega)
    rw [empty, List.length_nil] at rows
    omega
  rw [none]

/-- The scan for the greatest entry starts at -1. -/
theorem le_greatest (l : List ℚ) (start : ℚ) :
    start ≤ l.foldl (fun m c => if Scalar.lt m c then c else m) start ∧
      ∀ c ∈ l, c ≤ l.foldl (fun m c => if Scalar.lt m c then c else m) start := by
  induction l generalizing start with
  | nil => simp
  | cons head rest ih =>
    obtain ⟨above, all⟩ := ih (if Scalar.lt start head then head else start)
    have next : start ≤ (if Scalar.lt start head then head else start) ∧
        head ≤ (if Scalar.lt start head then head else start) := by
      simp only [lt_rat, decide_eq_true_eq]
      split
      · next lt => exact ⟨le_of_lt lt, le_rfl⟩
      · next le => exact ⟨le_rfl, not_lt.mp le⟩
    rw [List.foldl_cons, List.forall_mem_cons]
    exact ⟨next.1.trans above, next.2.trans above, all⟩

theorem fillCost_below (below : thresh < longMax) :
    fillCost cost thresh + fillCost cost thresh = thresh := by
  rw [fillCost, if_pos (by simpa using below)]
  simp

/-- Without a limit no entry comes up to two fills. -/
theorem entry_lt_fills (shape : Shape n m cost) (unlimited : ¬thresh < longMax) (i : Fin n)
    (j : Fin m) : entry cost i j 0 < fillCost cost thresh + fillCost cost thresh := by
  obtain ⟨row, member, hrow, v, inside, hv⟩ := shape.held i j
  have value : entry cost i j 0 = v := by simp [entry, hrow, hv]
  obtain ⟨above, all⟩ := le_greatest cost.flatten (-1)
  have le := all v (List.mem_flatten_of_mem member inside)
  rw [value, fillCost, if_neg (by simpa using unlimited)]
  simp only [ofRat_rat] at le above ⊢
  linarith

theorem filterMap_replicate {γ : Type} {v : Int} (k : Nat) {g : Int × Nat → Option γ}
    {f : Nat → γ} (each : ∀ i, g (v, i) = some (f i)) :
    (List.replicate k v).zipIdx.filterMap g = (List.range k).map f := by
  have all : ∀ e ∈ (List.replicate k v).zipIdx, g e = some (f e.2) := by
    rintro ⟨w, i⟩ member
    obtain rfl := List.eq_of_mem_replicate (List.fst_mem_of_mem_zipIdx member)
    exact each i
  have same : (f ∘ Prod.snd : Int × Nat → γ) = fun e => f e.2 := rfl
  rw [List.filterMap_congr all, List.filterMap_eq_map', ← same, ← List.map_map,
    List.zipIdx_map_snd, List.length_replicate, List.range_eq_range']

theorem filterMap_replicate_none {γ : Type} {v : Int} (k : Nat) {g : Int × Nat → Option γ}
    (each : ∀ i, g (v, i) = none) : (List.replicate k v).zipIdx.filterMap g = [] := by
  refine List.filterMap_eq_nil_iff.mpr ?_
  rintro ⟨w, i⟩ member
  obtain rfl := List.eq_of_mem_replicate (List.fst_mem_of_mem_zipIdx member)
  exact each i

/-- Every position of a failed solution is unmatched. -/
theorem readSolution_failed (n m : Nat) :
    readSolution (List.replicate n (-1)) (List.replicate m (-1)) =
      ⟨[], List.range n, List.range m⟩ := by
  rw [readSolution, filterMap_replicate_none n fun i => by simp,
    filterMap_replicate n (f := id) fun i => by simp, filterMap_replicate m (f := id) fun i => by simp,
    List.map_id, List.map_id]

/-- The solver's failure leaves everything unmatched. Otherwise the pairs are a
least partial matching under the limit: the threshold, or where that is not
below `LONG_MAX` twice the fill, which no entry reaches. -/
theorem linearAssignment_solves (solver : LeastOrFails backend) (shape : Shape n m cost)
    (thresh : ℚ) :
    let a := linearAssignment backend cost n m thresh
    let solved := backend.lapjvInternal (n + m) (extendedCost cost n m thresh)
    (cost ≠ [] → solved = none → a = ⟨[], List.range n, List.range m⟩) ∧
      (cost = [] ∨ solved ≠ none →
        Solves cost n m (fillCost cost thresh + fillCost cost thresh) a ∧
          (thresh < longMax ∨ (∀ i j, i < n → j < m → entry cost i j 0 ≤ thresh) →
            Solves cost n m thresh a)) := by
  intro a solved
  have sides : cost ≠ [] → 0 < n ∧ 0 < m := by
    intro nonempty
    have := mt shape.empty nonempty
    omega
  constructor
  · intro nonempty failed
    obtain ⟨rows, cols⟩ := sides nonempty
    have height := shape.rows rows cols
    have width := shape.headD_length rows cols
    have solution := lapjv_failed thresh (by rw [height, width]; exact failed)
    rw [height, width] at solution
    change linearAssignment backend cost n m thresh = _
    rw [linearAssignment, if_neg (by simpa using nonempty), solution, readSolution_failed]
  · intro returned
    by_cases empty : cost = []
    · have none : a = ⟨[], List.range n, List.range m⟩ := by
        change linearAssignment backend cost n m thresh = _
        rw [empty, linearAssignment_nil]
      rw [none]
      exact ⟨solves_empty shape empty _, fun _ => solves_empty shape empty _⟩
    · obtain ⟨rows, cols⟩ := sides empty
      obtain ⟨⟨x, y⟩, found⟩ := Option.ne_none_iff_exists'.mp (returned.resolve_left empty)
      obtain ⟨σ, rfl, rfl, optimal⟩ := solver _ _ _ _ found
      have proper : Proper a n m := by
        have proper := solved_proper solver.valid cost thresh
          (by rw [shape.headD_length rows cols]; exact cols)
        rwa [shape.rows rows cols, shape.headD_length rows cols] at proper
      have least := least_restrict shape optimal
      rw [← pairs_eq shape rows cols found (Proper.matching proper)] at least
      refine ⟨solves_of_least proper least, ?_⟩
      intro within
      refine solves_of_least proper ?_
      by_cases below : thresh < longMax
      · rwa [fillCost_below below] at least
      · have bounded := within.resolve_left below
        exact least.shift (entry_lt_fills shape below)
          (fun i j => bounded i j i.isLt j.isLt)

end Solve

theorem square_shape (a b c d : ℚ) : Shape 2 2 [[a, b], [c, d]] where
  empty := by omega
  rows _ _ := rfl
  cols _ _ := by simp

/-- The crosswise pairs cost less than the straight ones. -/
theorem crosswise_solved :
    linearAssignment exactBackend [[1 / 4, 1 / 5], [1 / 5, 9 / 10]] 2 2 (4 / 5) =
        ⟨[(0, 1), (1, 0)], [], []⟩ ∧
      Solves [[1 / 4, 1 / 5], [1 / 5, 9 / 10]] 2 2 (4 / 5)
        (linearAssignment exactBackend [[1 / 4, 1 / 5], [1 / 5, 9 / 10]] 2 2 (4 / 5)) := by
  have solves := linearAssignment_solves (OptimalSolver.leastOrFails exactBackend_optimal)
    (square_shape (1 / 4) (1 / 5) (1 / 5) (9 / 10)) (4 / 5)
  refine ⟨by decide +kernel, ?_⟩
  exact (solves.2 (Or.inr (Option.some_ne_none _))).2 (Or.inl (by norm_num [longMax]))

/-- Of rows without columns the square is as large as the matrix, and the solution keeps the
zeros of its resize: every row is matched to a column there is not. -/
theorem columnless_matched (backend : Backend ℚ) (n : Nat) (thresh : ℚ)
    (solved : backend.lapjvInternal (n + 1)
      (extendedCost (List.replicate (n + 1) []) (n + 1) 0 thresh) ≠ none) :
    linearAssignment backend (List.replicate (n + 1) []) (n + 1) 0 thresh =
      ⟨(List.range (n + 1)).map fun i => (i, 0), [], []⟩ := by
  obtain ⟨solution, found⟩ := Option.ne_none_iff_exists'.mp solved
  have vectors : lapjv backend (List.replicate (n + 1) []) true thresh =
      (List.replicate (n + 1) 0, []) := by
    rw [List.replicate_succ] at found ⊢
    simp only [lapjv, List.length_cons, List.length_replicate, List.headD_cons, List.length_nil,
      Bool.true_or, if_true, Nat.add_zero, found]
    simp
  have zeros : readSolution (List.replicate (n + 1) 0) [] =
      ⟨(List.range (n + 1)).map fun i => (i, 0), [], []⟩ := by
    rw [readSolution, filterMap_replicate (n + 1) (f := fun i => (i, 0)) fun i => by simp,
      filterMap_replicate_none (n + 1) fun i => by simp]
    rfl
  rw [linearAssignment, if_neg (by simp), vectors, zeros]

/-- From `LONG_MAX` on a threshold is no limit: an entry of twice as much is matched. And
two rows without columns are matched. -/
theorem unlimited_exceeds :
    LeastOrFails exactBackend ∧
      (Shape 1 1 [[2 ^ 64]] ∧
        exactBackend.lapjvInternal 2 (extendedCost [[2 ^ 64]] 1 1 (2 ^ 63)) ≠ none ∧
        linearAssignment exactBackend [[2 ^ 64]] 1 1 (2 ^ 63) = ⟨[(0, 0)], [], []⟩ ∧
        ¬Solves [[2 ^ 64]] 1 1 (2 ^ 63)
          (linearAssignment exactBackend [[2 ^ 64]] 1 1 (2 ^ 63))) ∧
      exactBackend.lapjvInternal 2 (extendedCost [[], []] 2 0 (4 / 5)) ≠ none ∧
      linearAssignment exactBackend [[], []] 2 0 (4 / 5) = ⟨[(0, 0), (1, 0)], [], []⟩ ∧
      ¬Solves [[], []] 2 0 (4 / 5) (linearAssignment exactBackend [[], []] 2 0 (4 / 5)) := by
  have matched : linearAssignment exactBackend [[2 ^ 64]] 1 1 (2 ^ 63) = ⟨[(0, 0)], [], []⟩ := by
    decide +kernel
  have columnless : linearAssignment exactBackend [[], []] 2 0 (4 / 5) =
      ⟨[(0, 0), (1, 0)], [], []⟩ :=
    columnless_matched exactBackend 1 (4 / 5) (Option.some_ne_none _)
  refine ⟨OptimalSolver.leastOrFails exactBackend_optimal, ⟨⟨by omega, fun _ _ => rfl, by simp⟩,
    Option.some_ne_none _, matched, ?_⟩, Option.some_ne_none _, columnless, ?_⟩
  · rw [matched]
    intro solves
    have within := solves.within (0, 0) List.mem_cons_self
    norm_num [entry] at within
  · rw [columnless]
    intro solves
    exact absurd (solves.proper.pair_lt (0, 0) List.mem_cons_self).2 (Nat.not_lt_zero 0)

end ThresholdedAssignments
