import Mathlib.Analysis.Real.Sqrt
import Mathlib.Tactic.Linarith
import Mathlib.Tactic.Ring

/-!
# The midpoint walk around a circle

The walk starts at (r, 0) and goes up one row a turn. An error term decides
whether the column is kept or decreased, and the walk ends where it crosses the
diagonal. The rows to the walked columns, and the same with rows and columns
exchanged, fill a disc.
-/

namespace MidpointCircles

structure Turn where
  x : Int
  y : Int
  err : Int

def Turn.next (s : Turn) : Turn :=
  if s.err ≤ 0 then ⟨s.x, s.y + 1, s.err + 2 * (s.y + 1) + 1⟩
  else ⟨s.x - 1, s.y + 1, s.err + 2 * (s.y + 1 - (s.x - 1)) + 1⟩

/-- The states of the walk, also after its end. -/
def turn (r : Int) : Nat → Turn
  | 0 => ⟨r, 0, 1 - r⟩
  | k + 1 => (turn r k).next

/-- The column of a row. -/
def column (r : Int) (k : Nat) : Int := (turn r k).x

variable {r : Int} {k i n : Nat} {a b : Int}

theorem turn_y (r : Int) (k : Nat) : (turn r k).y = k := by
  induction k with
  | zero => rfl
  | succ k ih =>
    rw [turn, Turn.next]
    split <;> simp only [ih] <;> omega

/-- Four times the error is the distance of the next midpoint from the circle. -/
theorem turn_err (r : Int) (k : Nat) :
    (turn r k).err = (k + 1) ^ 2 + column r k ^ 2 - column r k - r ^ 2 := by
  induction k with
  | zero =>
    simp only [turn, column]
    push_cast
    ring
  | succ k ih =>
    have row := turn_y r k
    simp only [column] at ih ⊢
    rw [turn, Turn.next]
    split
    · simp only [ih, row]
      push_cast
      ring
    · simp only [ih, row]
      push_cast
      ring

/-- A turn keeps the column, or leaves a point that is beyond the circle. -/
theorem column_succ (r : Int) (k : Nat) :
    (column r (k + 1) = column r k ∧ (k + 1) ^ 2 + column r k ^ 2 - column r k ≤ r ^ 2) ∨
      (column r (k + 1) = column r k - 1 ∧
        r ^ 2 < (k + 1) ^ 2 + column r k ^ 2 - column r k) := by
  have err := turn_err r k
  rw [column, turn, Turn.next]
  split
  · left
    refine ⟨rfl, ?_⟩
    rename_i inside
    rw [err] at inside
    omega
  · right
    refine ⟨rfl, ?_⟩
    rename_i outside
    rw [err] at outside
    omega

theorem column_antitone (le : i ≤ k) : column r k ≤ column r i := by
  induction k, le using Nat.le_induction with
  | base => exact le_refl _
  | succ k _ ih => rcases column_succ r k with ⟨same, -⟩ | ⟨less, -⟩ <;> omega

/-- A column that is passed is left at some turn. -/
theorem exists_left (low : i ≤ n) (before : b ≤ column r i) (after : column r n < b) :
    ∃ k, i ≤ k ∧ k < n ∧ column r k = b ∧ column r (k + 1) = b - 1 := by
  induction n, low using Nat.le_induction with
  | base => omega
  | succ n low ih =>
    by_cases earlier : column r n < b
    · obtain ⟨k, low, high, here⟩ := ih earlier
      exact ⟨k, low, by omega, here⟩
    · rcases column_succ r n with ⟨same, -⟩ | ⟨less, -⟩
      · omega
      · exact ⟨n, low, by omega, by omega, by omega⟩

section Ends

theorem exists_crossed (r : Int) : ∃ n : Nat, column r n < n := by
  refine ⟨(r + 1).toNat, ?_⟩
  have : column r (r + 1).toNat ≤ r := column_antitone (Nat.zero_le _)
  omega

/-- The number of turns up to the diagonal. -/
def turns (r : Int) : Nat := Nat.find (exists_crossed r)

theorem crossed (r : Int) : column r (turns r) < turns r := Nat.find_spec (exists_crossed r)

theorem not_crossed (h : k < turns r) : (k : Int) ≤ column r k :=
  Int.not_lt.mp (Nat.find_min (exists_crossed r) h)

end Ends

/-- Up to the diagonal the column is the last one near the circle. -/
theorem column_near (pos : 0 < r) (h : k < turns r) :
    column r k ^ 2 - column r k + k ^ 2 ≤ r ^ 2 ∧ r ^ 2 ≤ column r k ^ 2 + column r k + k ^ 2 := by
  induction k with
  | zero =>
    have start : column r 0 = r := rfl
    rw [start]
    constructor
    · push_cast
      nlinarith
    · push_cast
      nlinarith
  | succ k ih =>
    obtain ⟨below, above⟩ := ih (by omega)
    have here := not_crossed h
    rcases column_succ r k with ⟨same, inside⟩ | ⟨less, outside⟩
    · rw [same]
      constructor
      · push_cast
        linarith
      · push_cast
        nlinarith
    · rw [less] at here ⊢
      push_cast at here ⊢
      constructor
      · nlinarith
      · nlinarith

section Discs

/-- The first quarter of the filled disc. -/
def Quarter (r : Int) (a b : Int) : Prop :=
  ∃ k < turns r, (b = k ∧ a ≤ column r k) ∨ (b = column r k ∧ a ≤ k)

def Disc (r : Int) : Set (Int × Int) := {p | Quarter r |p.1| |p.2|}

/-- The two families of rows leave no row uncovered. -/
theorem quarter_swap (ha : 0 ≤ a) (hb : 0 ≤ b) (h : Quarter r a b) : Quarter r b a := by
  obtain ⟨k, hk, ⟨rfl, le⟩ | ⟨rfl, le⟩⟩ := h
  · obtain ⟨j, rfl⟩ := Int.eq_ofNat_of_zero_le ha
    have diagonal := not_crossed hk
    by_cases row : j < turns r
    · refine ⟨j, row, Or.inl ⟨rfl, ?_⟩⟩
      rcases Nat.le_total j k with earlier | later
      · exact diagonal.trans (column_antitone earlier)
      · have := not_crossed row
        omega
    · have end_ := crossed r
      obtain ⟨m, low, high, here, -⟩ := exists_left hk.le le (by omega)
      exact ⟨m, high, Or.inr ⟨here.symm, by omega⟩⟩
  · obtain ⟨j, rfl⟩ := Int.eq_ofNat_of_zero_le ha
    exact ⟨j, by omega, Or.inl ⟨rfl, column_antitone (by omega)⟩⟩

theorem quarter_contains (pos : 0 < r) (ha : 0 ≤ a) (hb : 0 ≤ b)
    (inside : a ^ 2 + b ^ 2 ≤ r ^ 2) : Quarter r a b := by
  obtain ⟨j, rfl⟩ := Int.eq_ofNat_of_zero_le hb
  by_cases row : j < turns r
  · refine ⟨j, row, Or.inl ⟨rfl, ?_⟩⟩
    by_contra beyond
    have near := (column_near pos row).2
    have := not_crossed row
    nlinarith
  · have end_ := crossed r
    have first : (j : Int) ≤ column r 0 := by
      have start : column r 0 = r := rfl
      rw [start]
      nlinarith
    obtain ⟨m, -, high, here, next⟩ := exists_left (Nat.zero_le (turns r)) first (by omega)
    refine ⟨m, high, Or.inr ⟨here.symm, ?_⟩⟩
    by_contra beyond
    rcases column_succ r m with ⟨same, -⟩ | ⟨-, outside⟩
    · omega
    · rw [here] at outside
      nlinarith

theorem quarter_within (pos : 0 < r) (ha : 0 ≤ a) (hb : 0 ≤ b) (h : Quarter r a b) :
    a ^ 2 + b ^ 2 ≤ r ^ 2 + r := by
  obtain ⟨k, hk, part⟩ := h
  have near := (column_near pos hk).1
  have widest : column r k ≤ r := column_antitone (Nat.zero_le k)
  have diagonal := not_crossed hk
  rcases part with ⟨rfl, le⟩ | ⟨rfl, le⟩
  · nlinarith
  · nlinarith

/-- The column is the last one whose midpoint is not beyond the circle. -/
theorem column_last (pos : 0 < r) (h : k < turns r) :
    r ^ 2 < column r k ^ 2 + column r k + k ^ 2 := by
  induction k with
  | zero =>
    have start : column r 0 = r := rfl
    rw [start]
    push_cast
    nlinarith
  | succ k ih =>
    have above := ih (by omega)
    rcases column_succ r k with ⟨same, inside⟩ | ⟨less, outside⟩
    · rw [same]
      push_cast
      nlinarith
    · rw [less]
      push_cast
      nlinarith

/-- Behind the diagonal every midpoint is beyond the circle. -/
theorem diagonal_beyond (pos : 0 < r) {n : Int} (late : turns r ≤ n) :
    r ^ 2 < n ^ 2 - n + n ^ 2 := by
  have some_turn : turns r ≠ 0 := by
    intro none
    have crossed := crossed r
    have start : column r 0 = r := rfl
    rw [none, start] at crossed
    push_cast at crossed
    omega
  obtain ⟨m, last⟩ := Nat.exists_eq_succ_of_ne_zero some_turn
  have before : m < turns r := by omega
  have crossed := crossed r
  have reached := not_crossed before
  have near := column_last pos before
  rw [last] at crossed late
  push_cast at crossed late
  have grown : ((m : Int) + 1) ^ 2 - (m + 1) + (m + 1) ^ 2 ≤ n ^ 2 - n + n ^ 2 := by nlinarith
  rcases column_succ r m with ⟨same, -⟩ | ⟨less, outside⟩
  · rw [same] at crossed
    have corner : column r m = m := by omega
    rw [corner] at near
    nlinarith
  · rw [less] at crossed
    obtain corner | corner : column r m = m ∨ column r m = m + 1 := by omega
    · rw [corner] at outside
      nlinarith
    · rw [corner] at outside
      nlinarith

theorem triangle_le {m n : Int} (nonneg : 0 ≤ m) (le : m ≤ n) : m ^ 2 - m ≤ n ^ 2 - n := by
  rcases le.eq_or_lt with rfl | less
  · exact le_rfl
  · nlinarith [mul_nonneg (sub_nonneg.mpr le) (show (0 : Int) ≤ n + m - 1 by omega)]

/-- The quarter in closed form: of the two distances, the midpoint before the larger one is not
beyond the circle. -/
theorem quarter_iff (pos : 0 < r) (ha : 0 ≤ a) (hb : 0 ≤ b) :
    Quarter r a b ↔ max a b ^ 2 - max a b + min a b ^ 2 ≤ r ^ 2 := by
  have wide {a b : Int} (ha : 0 ≤ a) (hb : 0 ≤ b) (le : b ≤ a) :
      Quarter r a b ↔ a ^ 2 - a + b ^ 2 ≤ r ^ 2 := by
    constructor
    · rintro ⟨k, hk, ⟨rfl, within⟩ | ⟨rfl, within⟩⟩
      · have near := (column_near pos hk).1
        have inner := triangle_le ha within
        linarith
      · have near := (column_near pos hk).1
        have diagonal := not_crossed hk
        have same : a = column r k := by omega
        have corner : (k : Int) = column r k := by omega
        rw [corner] at near
        rw [same]
        exact near
    · intro inside
      obtain ⟨j, rfl⟩ := Int.eq_ofNat_of_zero_le hb
      have early : j < turns r := by
        by_contra late
        have beyond := diagonal_beyond pos (n := j) (by omega)
        have outer := triangle_le hb le
        linarith
      refine ⟨j, early, Or.inl ⟨rfl, ?_⟩⟩
      by_contra beyond
      have last := column_last pos early
      have := not_crossed early
      nlinarith
  rcases le_total b a with le | le
  · rw [max_eq_left le, min_eq_right le]
    exact wide ha hb le
  · rw [max_eq_right le, min_eq_left le]
    exact ⟨fun h => (wide hb ha le).mp (quarter_swap ha hb h),
      fun h => quarter_swap hb ha ((wide hb ha le).mpr h)⟩

/-- The Euclidean distance of a pixel from the centre. -/
noncomputable def distance (p : Int × Int) : ℝ := Real.sqrt ((p.1 : ℝ) ^ 2 + (p.2 : ℝ) ^ 2)

variable {p : Int × Int}

theorem disc_contains (pos : 0 < r) (near : distance p ≤ r) : p ∈ Disc r := by
  have squares : ((p.1 : ℝ) ^ 2 + (p.2 : ℝ) ^ 2) ≤ (r : ℝ) ^ 2 := (Real.sqrt_le_iff.mp near).2
  have exact_ : p.1 ^ 2 + p.2 ^ 2 ≤ r ^ 2 := by exact_mod_cast squares
  refine quarter_contains pos (abs_nonneg _) (abs_nonneg _) ?_
  rwa [sq_abs, sq_abs]

theorem disc_within (pos : 0 < r) (h : p ∈ Disc r) : distance p < r + 1 / 2 := by
  have inside := quarter_within pos (abs_nonneg _) (abs_nonneg _) h
  rw [sq_abs, sq_abs] at inside
  have squares : ((p.1 : ℝ) ^ 2 + (p.2 : ℝ) ^ 2) ≤ (r : ℝ) ^ 2 + r := by exact_mod_cast inside
  have half : (0 : ℝ) < r + 1 / 2 := by
    have : (0 : ℝ) < r := by exact_mod_cast pos
    linarith
  refine (Real.sqrt_lt' half).mpr ?_
  nlinarith

theorem disc_reflect (dx dy : Int) :
    ((-dx, dy) ∈ Disc r ↔ (dx, dy) ∈ Disc r) ∧ ((dx, -dy) ∈ Disc r ↔ (dx, dy) ∈ Disc r) := by
  constructor
  · show Quarter r |(-dx)| |dy| ↔ Quarter r |dx| |dy|
    rw [abs_neg]
  · show Quarter r |dx| |(-dy)| ↔ Quarter r |dx| |dy|
    rw [abs_neg]

theorem disc_exchange (dx dy : Int) : (dy, dx) ∈ Disc r ↔ (dx, dy) ∈ Disc r :=
  ⟨quarter_swap (abs_nonneg _) (abs_nonneg _), quarter_swap (abs_nonneg _) (abs_nonneg _)⟩

end Discs

end MidpointCircles
