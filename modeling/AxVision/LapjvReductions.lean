import AxVision.LapjvSolver
import AxVision.PricedAssignments
import Mathlib.Tactic.Ring

/-!
# The reductions of the assignment solver

In exact arithmetic, on entries whose spread is under half of `LARGE`, column
reduction and row reduction leave a partial assignment in which every row holds
a cheapest column after prices, and list the rows without one.
-/

namespace LapjvReductions

open DetectionTypes LapjvSolver PricedAssignments

variable {n : Nat} {cost : Fin n → Fin n → ℚ} {lo hi : ℚ}

/-- The entries are in an interval that `LARGE` is far beyond. -/
structure Spread (cost : Fin n → Fin n → ℚ) (lo hi : ℚ) : Prop where
  lower : ∀ i j, lo ≤ cost i j
  upper : ∀ i j, cost i j ≤ hi
  below : hi < 1000000
  narrow : 2 * (hi - lo) < 1000000

/-- As long as a column is free, no price is far below the entries. -/
def Roomy (lo hi : ℚ) (y : Fin n → Option (Fin n)) (v : Fin n → ℚ) : Prop :=
  ∀ k, y k = none → lo ≤ v k ∧ ∀ j, 2 * lo - hi ≤ v j

/-- What holds between the phases, with the list of the rows that have no column. -/
structure Reduced (cost : Fin n → Fin n → ℚ) (free : List (Fin n)) (s : Solution ℚ n) : Prop where
  seated : Seated s.x s.y
  priced : Priced cost s.v s.y
  nodup : free.Nodup
  free_iff : ∀ i, i ∈ free ↔ ¬Held s.y i

section ColumnReduction

theorem columnFold (cost : Fin n → Fin n → ℚ) (j : Fin n) (l : List (Fin n)) (acc : ℚ × Fin n) :
    let best := l.foldl
      (fun least i => if Scalar.lt (cost i j) least.1 then (cost i j, i) else least) acc
    (best = acc ∨ best.1 = cost best.2 j) ∧ best.1 ≤ acc.1 ∧ ∀ i ∈ l, best.1 ≤ cost i j := by
  induction l generalizing acc with
  | nil => exact ⟨Or.inl rfl, le_rfl, fun i mem => absurd mem List.not_mem_nil⟩
  | cons i rest ih =>
    simp only [List.foldl_cons, lt_rat, decide_eq_true_eq]
    split
    · next lower =>
      obtain ⟨shape, le, all⟩ := ih (cost i j, i)
      simp only [lt_rat, decide_eq_true_eq] at shape le all
      refine ⟨Or.inr ?_, le.trans lower.le, ?_⟩
      · rcases shape with same | at_row
        · rw [same]
        · exact at_row
      · intro k mem
        rcases List.mem_cons.mp mem with rfl | later
        · exact le
        · exact all k later
    · next higher =>
      obtain ⟨shape, le, all⟩ := ih acc
      simp only [lt_rat, decide_eq_true_eq] at shape le all
      refine ⟨shape, le, ?_⟩
      intro k mem
      rcases List.mem_cons.mp mem with rfl | later
      · exact le.trans (not_lt.mp higher)
      · exact all k later

theorem rowFold (cost : Fin n → Fin n → ℚ) (v : Fin n → ℚ) (i j : Fin n) (l : List (Fin n))
    (acc : ℚ) :
    let least := l.foldl
      (fun least k =>
        if k = j then least
        else if Scalar.lt (cost i k - v k) least then cost i k - v k
        else least) acc
    (least = acc ∨ ∃ k, k ≠ j ∧ least = reduced cost v i k) ∧
      least ≤ acc ∧ ∀ k ∈ l, k ≠ j → least ≤ reduced cost v i k := by
  induction l generalizing acc with
  | nil => exact ⟨Or.inl rfl, le_rfl, fun k mem => absurd mem List.not_mem_nil⟩
  | cons k rest ih =>
    simp only [List.foldl_cons]
    split
    · next here =>
      obtain ⟨shape, le, all⟩ := ih acc
      refine ⟨shape, le, ?_⟩
      intro l mem other
      rcases List.mem_cons.mp mem with rfl | later
      · exact absurd here other
      · exact all l later other
    · next other =>
      split
      · next lower =>
        have lower : reduced cost v i k < acc := by simpa [reduced] using lower
        obtain ⟨shape, le, all⟩ := ih (cost i k - v k)
        refine ⟨Or.inr ?_, le.trans lower.le, ?_⟩
        · rcases shape with same | other_row
          · exact ⟨k, other, same⟩
          · exact other_row
        · intro l mem apart
          rcases List.mem_cons.mp mem with rfl | later
          · exact le
          · exact all l later apart
      · next higher =>
        have higher : acc ≤ reduced cost v i k := by simpa [reduced] using higher
        obtain ⟨shape, le, all⟩ := ih acc
        refine ⟨shape, le, ?_⟩
        intro l mem apart
        rcases List.mem_cons.mp mem with rfl | later
        · exact le.trans higher
        · exact all l later apart

theorem rowMinimum_le (cost : Fin n → Fin n → ℚ) (v : Fin n → ℚ) (i : Fin n) {j k : Fin n}
    (other : k ≠ j) :
    rowMinimum cost v i j ≤ reduced cost v i k :=
  (rowFold cost v i j (List.finRange n) large).2.2 k (List.mem_finRange k) other

theorem rowMinimum_nonneg {v : Fin n → ℚ} {i : Fin n} (nonneg : ∀ k, 0 ≤ reduced cost v i k)
    (j : Fin n) : 0 ≤ rowMinimum cost v i j := by
  rcases (rowFold cost v i j (List.finRange n) large).1 with same | ⟨k, -, same⟩
  · exact (by norm_num : (0 : ℚ) ≤ 1000000).trans_eq same.symm
  · exact (nonneg k).trans_eq same.symm

/-- Between two turns: the columns not yet visited still name their row. -/
structure Claiming (row : Fin n → Fin n) (left : List (Fin n)) (x y : Fin n → Option (Fin n)) :
    Prop where
  left_row : ∀ j ∈ left, y j = some (row j)
  row_eq : ∀ j i, y j = some i → row j = i
  taken : ∀ i j, x i = some j → j ∉ left ∧ y j = some i
  holds : ∀ j i, j ∉ left → y j = some i → x i = some j

theorem claim_claiming {row : Fin n → Fin n} {j : Fin n} {left : List (Fin n)} {s : Claims n}
    (h : Claiming row (j :: left) s.x s.y) (fresh : j ∉ left) :
    Claiming row left (claim row s j).x (claim row s j).y := by
  have here := h.left_row j List.mem_cons_self
  unfold claim
  split
  · next unseated =>
    change Claiming row left (Function.update s.x (row j) (some j)) s.y
    refine ⟨fun k mem => h.left_row k (List.mem_cons_of_mem _ mem), h.row_eq, ?_, ?_⟩
    · intro i k hx
      by_cases same : i = row j
      · subst same
        rw [Function.update_self] at hx
        cases hx
        exact ⟨fresh, here⟩
      · rw [Function.update_of_ne same] at hx
        obtain ⟨outside, held⟩ := h.taken i k hx
        exact ⟨fun mem => outside (List.mem_cons_of_mem _ mem), held⟩
    · intro k i outside held
      by_cases same : k = j
      · subst same
        rw [h.row_eq k i held, Function.update_self]
      · have out : k ∉ j :: left := by simp [same, outside]
        have seat := h.holds k i out held
        have other : i ≠ row j := by
          rintro rfl
          rw [unseated] at seat
          cases seat
        rw [Function.update_of_ne other]
        exact seat
  · change Claiming row left s.x (Function.update s.y j none)
    refine ⟨?_, ?_, ?_, ?_⟩
    · intro k mem
      have other : k ≠ j := by
        rintro rfl
        exact fresh mem
      rw [Function.update_of_ne other]
      exact h.left_row k (List.mem_cons_of_mem _ mem)
    · intro k i held
      by_cases same : k = j
      · subst same
        rw [Function.update_self] at held
        cases held
      · rw [Function.update_of_ne same] at held
        exact h.row_eq k i held
    · intro i k hx
      obtain ⟨outside, held⟩ := h.taken i k hx
      have other : k ≠ j := by
        rintro rfl
        exact outside List.mem_cons_self
      rw [Function.update_of_ne other]
      exact ⟨fun mem => outside (List.mem_cons_of_mem _ mem), held⟩
    · intro k i outside held
      have other : k ≠ j := by
        rintro rfl
        rw [Function.update_self] at held
        cases held
      rw [Function.update_of_ne other] at held
      exact h.holds k i (by simp [other, outside]) held

theorem fold_claiming {row : Fin n → Fin n} {left : List (Fin n)} {s : Claims n}
    (h : Claiming row left s.x s.y) (nodup : left.Nodup) :
    Claiming row [] (left.foldl (claim row) s).x (left.foldl (claim row) s).y := by
  induction left generalizing s with
  | nil => exact h
  | cons j rest ih =>
    have parts := List.nodup_cons.mp nodup
    exact ih (claim_claiming h parts.1) parts.2

theorem claims_claiming (row : Fin n → Fin n) :
    Claiming row [] (claims row).x (claims row).y := by
  refine fold_claiming ⟨fun j _ => rfl, fun j i held => Option.some.inj held, ?_, ?_⟩
    (List.nodup_reverse.mpr (List.nodup_finRange n))
  · intro i j hx
    cases hx
  · intro j i outside
    exact absurd (List.mem_reverse.mpr (List.mem_finRange j)) outside

variable [NeZero n]

theorem columnMinimum_le (cost : Fin n → Fin n → ℚ) (j i : Fin n) :
    (columnMinimum cost j).1 ≤ cost i j :=
  (columnFold cost j (List.finRange n) (large, 0)).2.2 i (List.mem_finRange i)

theorem columnMinimum_row (spread : Spread cost lo hi) (j : Fin n) :
    (columnMinimum cost j).1 = cost (columnMinimum cost j).2 j := by
  rcases (columnFold cost j (List.finRange n) (large, 0)).1 with same | row
  · have under := columnMinimum_le cost j 0
    have large : (columnMinimum cost j).1 = 1000000 := congrArg Prod.fst same
    have upper := spread.upper 0 j
    linarith [spread.below]
  · exact row

/-- Between two turns of the reduction transfer, which has met the rows `seen`. -/
structure Transferred (cost : Fin n → Fin n → ℚ) (lo hi : ℚ) (s : Claims n)
    (seen free : List (Fin n)) (v : Fin n → ℚ) : Prop where
  free_eq : free = seen.filter fun i => s.x i = none
  untouched : ∀ k, (∀ i ∈ seen, s.x i ≠ some k) → v k = (columnMinimum cost k).1
  fallen : ∀ k, v k ≤ (columnMinimum cost k).1
  priced : Priced cost v s.y
  roomy : Roomy lo hi s.y v

theorem transfer_transferred {s : Claims n} {seen free : List (Fin n)} {v : Fin n → ℚ}
    {i : Fin n} (spread : Spread cost lo hi)
    (claimed : Claiming (fun j => (columnMinimum cost j).2) [] s.x s.y)
    (h : Transferred cost lo hi s seen free v) (new : i ∉ seen) :
    Transferred cost lo hi s (seen ++ [i]) (transfer cost s (free, v) i).1
      (transfer cost s (free, v) i).2 := by
  have still : ∀ k, (∀ r ∈ seen ++ [i], s.x r ≠ some k) → v k = (columnMinimum cost k).1 :=
    fun k none => h.untouched k fun r mem => none r (List.mem_append_left _ mem)
  unfold transfer
  cases seat : s.x i with
  | none =>
    refine ⟨?_, still, h.fallen, h.priced, h.roomy⟩
    simp [List.filter_append, h.free_eq, seat]
  | some j =>
    have same : (seen ++ [i]).filter (fun i => s.x i = none) =
        seen.filter fun i => s.x i = none := by
      simp [List.filter_append, seat]
    have held := (claimed.taken i j seat).2
    have ours : v j = (columnMinimum cost j).1 := by
      refine h.untouched j fun r mem other => ?_
      have same := (claimed.taken r j other).2
      rw [held] at same
      cases same
      exact new mem
    have zero : reduced cost v i j = 0 := by
      rw [reduced, ours, columnMinimum_row spread, claimed.row_eq j i held, sub_self]
    have nonneg : ∀ k, 0 ≤ reduced cost v i k := by
      intro k
      have under := (h.fallen k).trans (columnMinimum_le cost k i)
      simpa [reduced] using under
    have least := rowMinimum_nonneg nonneg j
    dsimp only
    split
    · change Transferred cost lo hi s (seen ++ [i]) free
        (Function.update v j (v j - rowMinimum cost v i j))
      have owner : Function.update s.y j (some i) = s.y := by
        rw [← held, Function.update_eq_self]
      have lower : v j - rowMinimum cost v i j ≤ v j := by linarith only [least]
      refine ⟨h.free_eq.trans same.symm, ?_, ?_, ?_, ?_⟩
      · intro k none
        have other : k ≠ j := by
          rintro rfl
          exact none i (by simp) seat
        rw [Function.update_of_ne other]
        exact still k none
      · intro k
        by_cases here : k = j
        · subst here
          rw [Function.update_self]
          exact lower.trans (h.fallen k)
        · rw [Function.update_of_ne here]
          exact h.fallen k
      · rw [← owner]
        refine h.priced.give lower ?_
        intro k
        by_cases here : k = j
        · subst here
          rw [reduced, Function.update_self]
        · have cheap := rowMinimum_le cost v i here
          rw [reduced, Function.update_of_ne here, ← reduced]
          rw [reduced] at zero
          linarith only [cheap, zero]
      · intro k none
        have other : k ≠ j := by
          rintro rfl
          rw [held] at none
          cases none
        obtain ⟨room, all⟩ := h.roomy k none
        rw [Function.update_of_ne other]
        refine ⟨room, fun l => ?_⟩
        by_cases here : l = j
        · subst here
          rw [Function.update_self]
          have cheap := rowMinimum_le cost v i other
          have top := spread.upper i k
          have bottom := spread.lower (columnMinimum cost l).2 l
          rw [← columnMinimum_row spread, ← ours] at bottom
          rw [reduced] at cheap
          linarith only [cheap, top, bottom, room]
        · rw [Function.update_of_ne here]
          exact all l
    · exact ⟨h.free_eq.trans same.symm, still, h.fallen, h.priced, h.roomy⟩

theorem fold_transferred {s : Claims n} {left seen : List (Fin n)}
    (acc : List (Fin n) × (Fin n → ℚ)) (spread : Spread cost lo hi)
    (claimed : Claiming (fun j => (columnMinimum cost j).2) [] s.x s.y)
    (h : Transferred cost lo hi s seen acc.1 acc.2) (nodup : (seen ++ left).Nodup) :
    Transferred cost lo hi s (seen ++ left) (left.foldl (transfer cost s) acc).1
      (left.foldl (transfer cost s) acc).2 := by
  induction left generalizing seen acc with
  | nil => simpa using h
  | cons i rest ih =>
    have new : i ∉ seen := fun mem =>
      (List.nodup_append.mp nodup).2.2 i mem i List.mem_cons_self rfl
    rw [List.append_cons] at nodup ⊢
    exact ih _ (transfer_transferred spread claimed h new) nodup

theorem ccrrt_reduced (spread : Spread cost lo hi) :
    Reduced cost (ccrrtDense cost).1 (ccrrtDense cost).2 ∧
      Roomy lo hi (ccrrtDense cost).2.y (ccrrtDense cost).2.v := by
  have claimed := claims_claiming fun j => (columnMinimum cost j).2
  have start : Transferred cost lo hi (claims fun j => (columnMinimum cost j).2) [] []
      fun j => (columnMinimum cost j).1 := by
    refine ⟨rfl, fun k _ => rfl, fun k => le_rfl, ?_, ?_⟩
    · intro j i held k
      have row := columnMinimum_row spread j
      rw [claimed.row_eq j i held] at row
      rw [reduced, reduced, ← row, sub_self, sub_nonneg]
      exact columnMinimum_le cost k i
    · intro k _
      have bottom : ∀ j, lo ≤ (columnMinimum cost j).1 := fun j =>
        (spread.lower _ j).trans_eq (columnMinimum_row spread j).symm
      have ordered := (spread.lower 0 0).trans (spread.upper 0 0)
      exact ⟨bottom k, fun j => by linarith only [bottom j, ordered]⟩
  have final := fold_transferred ([], _) spread claimed start
    (by simpa using List.nodup_finRange n)
  rw [List.nil_append] at final
  refine ⟨⟨?_, final.priced, ?_, ?_⟩, final.roomy⟩
  · intro j i held
    exact claimed.holds j i List.not_mem_nil held
  · rw [ccrrtDense, final.free_eq]
    exact (List.nodup_finRange n).filter _
  · intro i
    rw [ccrrtDense, final.free_eq, List.mem_filter]
    simp only [List.mem_finRange, true_and, decide_eq_true_eq]
    constructor
    · rintro none ⟨j, held⟩
      rw [claimed.holds j i List.not_mem_nil held] at none
      cases none
    · intro unheld
      by_contra seated
      obtain ⟨j, seat⟩ := Option.ne_none_iff_exists'.mp seated
      exact unheld ⟨j, (claimed.taken i j seat).2⟩

end ColumnReduction

section RowReduction

/-- The two cheapest columns among those seen. -/
structure Cheapest (cost : Fin n → Fin n → ℚ) (v : Fin n → ℚ) (i : Fin n) (seen : Fin n → Prop)
    (m : Minima ℚ n) : Prop where
  v1_eq : m.v1 = reduced cost v i m.j1
  v1_le : ∀ k, seen k → m.v1 ≤ reduced cost v i k
  v2_le : ∀ k, seen k → k ≠ m.j1 → m.v2 ≤ reduced cost v i k
  ordered : m.v1 ≤ m.v2
  j2_eq : ∀ k, m.j2 = some k → reduced cost v i k = m.v2

variable {v : Fin n → ℚ} {i : Fin n} {m : Minima ℚ n}

theorem nextMinimum_cheapest {seen : Fin n → Prop} (h : Cheapest cost v i seen m) (j : Fin n) :
    Cheapest cost v i (fun k => seen k ∨ k = j) (nextMinimum cost v i m j) := by
  have c_eq : cost i j - v j = reduced cost v i j := rfl
  simp only [nextMinimum, lt_rat, le_rat, decide_eq_true_eq, c_eq]
  split
  · next under =>
    split
    · next above =>
      refine ⟨h.v1_eq, ?_, ?_, above, ?_⟩
      · rintro k (old | rfl)
        · exact h.v1_le k old
        · exact above
      · rintro k (old | rfl) other
        · exact under.le.trans (h.v2_le k old other)
        · exact le_rfl
      · intro k same
        cases same
        rfl
    · next below =>
      have below := not_le.mp below
      refine ⟨rfl, ?_, ?_, below.le, ?_⟩
      · rintro k (old | rfl)
        · exact below.le.trans (h.v1_le k old)
        · exact le_rfl
      · rintro k (old | rfl) other
        · exact h.v1_le k old
        · exact absurd rfl other
      · intro k same
        cases same
        exact h.v1_eq.symm
  · next above =>
    have above := not_lt.mp above
    refine ⟨h.v1_eq, ?_, ?_, h.ordered, h.j2_eq⟩
    · rintro k (old | rfl)
      · exact h.v1_le k old
      · exact h.ordered.trans above
    · rintro k (old | rfl) other
      · exact h.v2_le k old other
      · exact above

theorem fold_cheapest {seen : Fin n → Prop} (h : Cheapest cost v i seen m) (l : List (Fin n)) :
    Cheapest cost v i (fun k => seen k ∨ k ∈ l) (l.foldl (nextMinimum cost v i) m) := by
  induction l generalizing seen m with
  | nil => simpa using h
  | cons j rest ih =>
    have final := ih (nextMinimum_cheapest h j)
    simpa only [List.mem_cons, or_assoc, List.foldl_cons] using final

section Turns

variable [NeZero n]

theorem zero_or_mem_drop (k : Fin n) : k = 0 ∨ k ∈ (List.finRange n).drop 1 := by
  obtain ⟨m, rfl⟩ := Nat.exists_eq_succ_of_ne_zero (NeZero.ne n)
  rw [List.finRange_succ, List.drop_one, List.tail_cons]
  cases k using Fin.cases with
  | zero => exact Or.inl rfl
  | succ k => exact Or.inr (List.mem_map_of_mem (List.mem_finRange k))

theorem twoMinima_cheapest (small : reduced cost v i 0 ≤ 1000000) :
    Cheapest cost v i (fun _ => True) (twoMinima cost v i) := by
  have first : Cheapest cost v i (fun k => k = 0)
      { j1 := 0, v1 := cost i 0 - v 0, j2 := none, v2 := large } := by
    refine ⟨rfl, ?_, ?_, small, ?_⟩
    · rintro k rfl
      exact le_rfl
    · rintro k rfl other
      exact absurd rfl other
    · intro k same
      cases same
  have all := fold_cheapest first ((List.finRange n).drop 1)
  exact ⟨all.v1_eq, fun k _ => all.v1_le k (zero_or_mem_drop k),
    fun k _ => all.v2_le k (zero_or_mem_drop k), all.ordered, all.j2_eq⟩

end Turns

/-- The row takes a column that is cheapest once its price has fallen to `new`. -/
structure Takes (cost : Fin n → Fin n → ℚ) (v : Fin n → ℚ) (i : Fin n) (m : Minima ℚ n)
    (j : Fin n) (v' : Fin n → ℚ) (new : ℚ) : Prop where
  prices : v' = Function.update v j new
  lower : new ≤ v j
  cheapest : ∀ k, cost i j - new ≤ reduced cost v' i k
  fallen : new = v j ∨ j = m.j1 ∧ new = cost i j - m.v2

theorem takes_of_cheapest {j : Fin n} (cheapest : ∀ k, reduced cost v i j ≤ reduced cost v i k) :
    Takes cost v i m j v (v j) :=
  ⟨(Function.update_eq_self j v).symm, le_rfl, cheapest, Or.inl rfl⟩

theorem choice_takes {s : Solution ℚ n} (h : Cheapest cost s.v i (fun _ => True) m)
    (early : Bool) :
    ∃ new, Takes cost s.v i m (choice s m early).1 (choice s m early).2 new := by
  have plain : Takes cost s.v i m m.j1 s.v (s.v m.j1) :=
    takes_of_cheapest fun k => h.v1_eq ▸ h.v1_le k trivial
  unfold choice
  split
  · split
    · next lowers =>
      have new_eq : s.v m.j1 - (m.v2 - m.v1) = cost i m.j1 - m.v2 := by
        rw [h.v1_eq, reduced]
        ring
      refine ⟨s.v m.j1 - (m.v2 - m.v1), rfl, by linarith only [h.ordered], ?_,
        Or.inr ⟨rfl, new_eq⟩⟩
      intro k
      dsimp only
      by_cases here : k = m.j1
      · subst here
        rw [reduced, Function.update_self]
      · rw [reduced, Function.update_of_ne here, new_eq, ← reduced]
        linarith only [h.v2_le k trivial here]
    · next stays =>
      split
      · next i0 j2 hy hj2 =>
        refine ⟨s.v j2, takes_of_cheapest fun k => ?_⟩
        have tie : m.v2 ≤ m.v1 := by
          simp only [v1Lowers, lt_rat, decide_eq_true_eq, not_lt] at stays
          linarith only [stays]
        rw [h.j2_eq j2 hj2]
        exact tie.trans (h.v1_le k trivial)
      · exact ⟨_, plain⟩
  · exact ⟨_, plain⟩

variable {free left : List (Fin n)} {s : Solution ℚ n}

theorem Reduced.perm {free' : List (Fin n)} (h : Reduced cost free s) (same : free.Perm free') :
    Reduced cost free' s :=
  ⟨h.seated, h.priced, same.nodup_iff.mp h.nodup, fun i => same.mem_iff.symm.trans (h.free_iff i)⟩

/-- The row leaves the list, and the row that held the column joins it. -/
theorem Reduced.give (h : Reduced cost (i :: left) s) {j : Fin n} {v' : Fin n → ℚ} {new : ℚ}
    (takes : Takes cost s.v i m j v' new) (after : List (Fin n))
    (after_eq : after = (s.y j).toList ++ left) :
    Reduced cost after
      { x := Function.update s.x i (some j), y := Function.update s.y j (some i), v := v' } := by
  have unheld : ¬Held s.y i := (h.free_iff i).mp List.mem_cons_self
  have parts := List.nodup_cons.mp h.nodup
  have left_iff : ∀ r, r ∈ left ↔ r ≠ i ∧ ¬Held s.y r := by
    intro r
    rw [← h.free_iff r, List.mem_cons]
    constructor
    · intro mem
      exact ⟨fun same => parts.1 (same ▸ mem), Or.inr mem⟩
    · rintro ⟨other, same | mem⟩
      · exact absurd same other
      · exact mem
  refine ⟨h.seated.give unheld j, ?_, ?_, ?_⟩
  · rw [takes.prices]
    exact h.priced.give takes.lower fun k => takes.prices ▸ takes.cheapest k
  · rw [after_eq]
    cases held : s.y j with
    | none => exact parts.2
    | some i0 =>
      refine List.nodup_cons.mpr ⟨fun mem => ?_, parts.2⟩
      exact ((left_iff i0).mp mem).2 ⟨j, held⟩
  · intro r
    rw [held_give h.seated i j, after_eq, List.mem_append, left_iff]
    cases held : s.y j with
    | none => simp
    | some i0 =>
      have here : Held s.y i0 := ⟨j, held⟩
      have other : i0 ≠ i := by
        rintro rfl
        exact unheld here
      by_cases same : r = i0
      · subst same
        simp [other]
      · simp [same, Ne.symm same]

theorem Roomy.give (roomy : Roomy lo hi s.y s.v) (spread : Spread cost lo hi)
    (cheapest : Cheapest cost s.v i (fun _ => True) m) {j : Fin n} {v' : Fin n → ℚ} {new : ℚ}
    (takes : Takes cost s.v i m j v' new) :
    Roomy lo hi (Function.update s.y j (some i)) v' := by
  intro k none
  have other : k ≠ j := by
    rintro rfl
    rw [Function.update_self] at none
    cases none
  rw [Function.update_of_ne other] at none
  obtain ⟨room, all⟩ := roomy k none
  rw [takes.prices, Function.update_of_ne other]
  refine ⟨room, fun l => ?_⟩
  by_cases here : l = j
  · subst here
    rw [Function.update_self]
    rcases takes.fallen with same | ⟨rfl, same⟩
    · rw [same]
      exact all l
    · have second := cheapest.v2_le k trivial other
      have top := spread.upper i k
      have bottom := spread.lower i m.j1
      rw [reduced] at second
      linarith only [same, second, top, bottom, room]
  · rw [Function.update_of_ne here]
    exact all l

variable [NeZero n]

/-- Between two turns, with `total` rows at the start. -/
structure Reducing (cost : Fin n → Fin n → ℚ) (lo hi : ℚ) (total : Nat) (s : Rows ℚ n) : Prop where
  reduced : Reduced cost (s.pending ++ s.fresh) s.solution
  roomy : Roomy lo hi s.solution.y s.solution.v
  count : s.current + s.pending.length = total

/-- A bound on the turns that are left. -/
def turnsLeft (total : Nat) (s : Rows ℚ n) : Nat := s.pending.length + (total * n - s.rrCnt)

theorem carrStep_reducing {total : Nat} {s : Rows ℚ n} {freeI : Fin n} {rest : List (Fin n)}
    (spread : Spread cost lo hi) (h : Reducing cost lo hi total s)
    (next : s.pending = freeI :: rest) :
    Reducing cost lo hi total (carrStep cost s freeI rest) ∧
      turnsLeft total (carrStep cost s freeI rest) < turnsLeft total s := by
  have reduced := h.reduced
  rw [next] at reduced
  obtain ⟨k, none⟩ := reduced.seated.exists_free ((reduced.free_iff freeI).mp List.mem_cons_self)
  have small : PricedAssignments.reduced cost s.solution.v freeI 0 ≤ 1000000 := by
    have room := (h.roomy k none).2 0
    rw [PricedAssignments.reduced]
    linarith only [room, spread.upper freeI 0, spread.narrow]
  have cheapest := twoMinima_cheapest small
  have count := h.count
  rw [next, List.length_cons] at count
  have turns : turnsLeft total s = rest.length + 1 + (total * n - s.rrCnt) := by
    rw [turnsLeft, next, List.length_cons]
  obtain ⟨new, takes⟩ := choice_takes cheapest (decide (s.rrCnt + 1 < (s.current + 1) * n))
  have roomy := h.roomy.give spread cheapest takes
  have after := reduced.give takes
  unfold carrStep
  dsimp only
  split
  · next held =>
    refine ⟨⟨after _ (by rw [held]; rfl), roomy, ?_⟩, ?_⟩
    · change s.current + 1 + rest.length = total
      omega
    · rw [turns]
      change rest.length + (total * n - (s.rrCnt + 1)) < _
      omega
  · next i0 held =>
    split
    · next again =>
      simp only [Bool.and_eq_true, decide_eq_true_eq] at again
      have under : (s.current + 1) * n ≤ total * n := Nat.mul_le_mul_right n (by omega)
      refine ⟨⟨after _ (by rw [held]; rfl), roomy, ?_⟩, ?_⟩
      · change s.current + 1 - 1 + (rest.length + 1) = total
        omega
      · rw [turns]
        change rest.length + 1 + (total * n - (s.rrCnt + 1)) < _
        omega
    · refine ⟨⟨?_, roomy, ?_⟩, ?_⟩
      · refine (after (i0 :: (rest ++ s.fresh)) (by rw [held]; rfl)).perm ?_
        change (i0 :: (rest ++ s.fresh)).Perm (rest ++ (s.fresh ++ [i0]))
        rw [← List.append_assoc]
        exact (List.perm_append_singleton i0 _).symm
      · change s.current + 1 + rest.length = total
        omega
      · rw [turns]
        change rest.length + (total * n - (s.rrCnt + 1)) < _
        omega

theorem carrLoop_reduced {total fuel : Nat} {s : Rows ℚ n} (spread : Spread cost lo hi)
    (h : Reducing cost lo hi total s) (enough : turnsLeft total s < fuel) :
    ∃ t, carrLoop cost fuel s = some t ∧ Reduced cost t.fresh t.solution ∧
      Roomy lo hi t.solution.y t.solution.v := by
  induction fuel generalizing s with
  | zero => omega
  | succ fuel ih =>
    cases next : s.pending with
    | nil =>
      have reduced := h.reduced
      rw [next] at reduced
      exact ⟨s, by rw [carrLoop, next], reduced, h.roomy⟩
    | cons freeI rest =>
      obtain ⟨after, fewer⟩ := carrStep_reducing spread h next
      obtain ⟨t, run, final⟩ := ih after (by omega)
      exact ⟨t, by rw [carrLoop, next]; exact run, final⟩

/-- Both rounds of row reduction come to an end and keep what column reduction set up. -/
theorem reduceRows_reduced {acc : List (Fin n) × Solution ℚ n} (spread : Spread cost lo hi)
    (h : Reduced cost acc.1 acc.2) (roomy : Roomy lo hi acc.2.y acc.2.v) :
    ∃ out, reduceRows cost acc = some out ∧ Reduced cost out.1 out.2 ∧
      Roomy lo hi out.2.y out.2.v := by
  unfold reduceRows
  split
  · exact ⟨acc, rfl, h, roomy⟩
  · have start : Reducing cost lo hi acc.1.length ⟨acc.2, acc.1, [], 0, 0⟩ :=
      ⟨by simpa using h, roomy, Nat.zero_add _⟩
    have enough : turnsLeft acc.1.length (⟨acc.2, acc.1, [], 0, 0⟩ : Rows ℚ n) <
        acc.1.length * n + acc.1.length + 1 := by
      simp only [turnsLeft]
      omega
    obtain ⟨t, run, final⟩ := carrLoop_reduced spread start enough
    exact ⟨(t.fresh, t.solution), by rw [carrDense, run]; rfl, final⟩

end RowReduction

end LapjvReductions
