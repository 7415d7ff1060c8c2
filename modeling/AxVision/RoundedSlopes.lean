import Mathlib.Algebra.Order.Round
import Mathlib.Tactic.LinearCombination
import Mathlib.Tactic.Linarith

/-!
# Rounded multiples of a slope

The multiples of a slope between 0 and 1, each rounded to an integer. They grow
by 0 or 1, and the error of one decides the next: nothing has to be divided.
-/

namespace RoundedSlopes

variable {α : Type*} [Field α] [LinearOrder α] [IsStrictOrderedRing α] [FloorRing α]

/-- The `k`-th multiple, to the nearest integer. -/
def rounded (slope : α) (k : Nat) : Int := round (k * slope)

/-- The error of the `k`-th multiple. -/
def error (slope : α) (k : Nat) : α := k * slope - rounded slope k

variable {slope : α}

omit [IsStrictOrderedRing α] in
theorem error_add_rounded (slope : α) (k : Nat) : error slope k + rounded slope k = k * slope :=
  sub_add_cancel _ _

theorem error_range (slope : α) (k : Nat) :
    -(1 / 2) ≤ error slope k ∧ error slope k < 1 / 2 := by
  have low : (rounded slope k : α) ≤ k * slope + 1 / 2 := by
    rw [rounded, round_eq]
    exact Int.floor_le _
  have high : (k * slope + 1 / 2 : α) < rounded slope k + 1 := by
    rw [rounded, round_eq]
    exact Int.lt_floor_add_one _
  constructor
  · linarith only [low, error_add_rounded slope k]
  · linarith only [high, error_add_rounded slope k]

/-- The error is in its range for one integer only. -/
theorem rounded_eq_iff {k : Nat} {m : Int} :
    rounded slope k = m ↔ -(1 / 2) ≤ k * slope - m ∧ k * slope - m < 1 / 2 := by
  constructor
  · rintro rfl
    exact error_range slope k
  · rintro ⟨low, high⟩
    rw [rounded, round_eq, Int.floor_eq_iff]
    constructor <;> linarith only [low, high]

theorem rounded_near (slope : α) (k : Nat) : |(rounded slope k : α) - k * slope| ≤ 1 / 2 := by
  obtain ⟨low, high⟩ := error_range slope k
  rw [error] at low high
  exact abs_le.mpr ⟨by linarith only [high], by linarith only [low]⟩

theorem rounded_zero (slope : α) : rounded slope 0 = 0 := by
  rw [rounded, Nat.cast_zero, zero_mul, round_zero]

theorem rounded_one (k : Nat) : rounded (1 : α) k = k := by
  rw [rounded, mul_one, round_natCast]

/-- The multiple by the run of a slope is its rise. -/
theorem rounded_run {run : Nat} {rise : Int} (pos : 0 < run) :
    rounded ((rise : α) / run) run = rise := by
  have run_ne : (run : α) ≠ 0 := Nat.cast_ne_zero.mpr pos.ne'
  rw [rounded, mul_div_cancel₀ _ run_ne, round_intCast]

/-- The next rounded multiple, from the error of the one before. -/
theorem rounded_succ (nonneg : 0 ≤ slope) (le : slope ≤ 1) (k : Nat) :
    rounded slope (k + 1) = rounded slope k + if 1 / 2 ≤ error slope k + slope then 1 else 0 := by
  obtain ⟨low, high⟩ := error_range slope k
  have same := error_add_rounded slope k
  rw [rounded_eq_iff]
  push_cast
  split
  · rename_i carry
    constructor <;> linarith only [low, high, same, carry, le]
  · rename_i kept
    constructor <;> linarith only [low, high, same, not_le.mp kept, nonneg]

theorem rounded_grows (nonneg : 0 ≤ slope) (le : slope ≤ 1) (k : Nat) :
    rounded slope k ≤ rounded slope (k + 1) ∧ rounded slope (k + 1) ≤ rounded slope k + 1 := by
  rw [rounded_succ nonneg le]
  split <;> omega

end RoundedSlopes
