import AxVision.DetectionTypes
import Mathlib.Tactic.Linarith

/-!
# Rounded arithmetic

What the number types of the detectors and of the tracker share: the laws of
`float`, whose operations round, may leave an infinity and may leave the one
value that is no number.
-/

namespace RoundedArithmetic

open DetectionTypes

universe u

/-- What holds of the order and the operations of a number type whose values are the numbers and
perhaps others, such as the NaN of `float`. -/
structure NumberLine (F : Type u) [Scalar F] (number : F → Prop) : Prop where
  constant : ∀ q : ℚ, number (Scalar.ofRat q : F)
  total : ∀ a b : F, number a → number b → Scalar.le a b = true ∨ Scalar.le b a = true
  trans : ∀ a b c : F, Scalar.le a b = true → Scalar.le b c = true → Scalar.le a c = true
  le_of_lt : ∀ a b : F, Scalar.lt a b = true → Scalar.le a b = true
  mul_nonneg : ∀ a b : F, Scalar.le (Scalar.ofRat 0) a = true → Scalar.le (Scalar.ofRat 0) b = true →
    number (a * b) → Scalar.le (Scalar.ofRat 0) (a * b) = true
  /-- A positive difference has a number behind the minus. -/
  sub_number : ∀ a b : F, Scalar.lt (Scalar.ofRat 0) (a - b) = true → number b
  /-- It has no infinity there either, so it divides what it has there. -/
  div_number : ∀ a b : F, Scalar.le (Scalar.ofRat 0) b = true →
    Scalar.lt (Scalar.ofRat 0) (a - b) = true → number (b / (a - b))

/-- Rounding is monotone and keeps powers of two, and an operation on what is no number gives
no number. -/
structure Rounding (F : Type u) [Scalar F] (number : F → Prop) : Prop extends NumberLine F number where
  of_le : ∀ a b : F, Scalar.le a b = true → number a ∧ number b
  of_not_lt : ∀ a b : F, number a → number b → Scalar.lt a b = false → Scalar.le b a = true
  of_add : ∀ a b : F, number (a + b) → number a ∧ number b
  of_sub : ∀ a b : F, number (a - b) → number a ∧ number b
  of_mul : ∀ a b : F, number (a * b) → number a ∧ number b
  add_le : ∀ a b c : F, Scalar.le a b = true → number (a + c) → number (b + c) →
    Scalar.le (a + c) (b + c) = true
  sub_le : ∀ a b c d : F, Scalar.le a b = true → Scalar.le c d = true → number (a - d) →
    number (b - c) → Scalar.le (a - d) (b - c) = true
  mul_le : ∀ a b c d : F, Scalar.le (Scalar.ofRat 0) a = true → Scalar.le a b = true →
    Scalar.le (Scalar.ofRat 0) c = true → Scalar.le c d = true → number (a * c) → number (b * d) →
      Scalar.le (a * c) (b * d) = true
  /-- Next to 0 a sum with 1 has no small values, so no product of two of them vanishes. -/
  succ_mul_pos : ∀ a b : F, Scalar.lt (Scalar.ofRat 0) (a + Scalar.ofRat 1) = true →
    Scalar.lt (Scalar.ofRat 0) (b + Scalar.ofRat 1) = true →
      Scalar.lt (Scalar.ofRat 0) ((a + Scalar.ofRat 1) * (b + Scalar.ofRat 1)) = true
  /-- Twice a positive number is exact or infinite, so less than that of a sum leaves a rest. -/
  sum_sub_pos : ∀ a b c : F, Scalar.lt (Scalar.ofRat 0) c = true → Scalar.le c a = true →
    Scalar.le c b = true → Scalar.le (a + b - c) (Scalar.ofRat 0) = false

section Exact

theorem numberLine_rat : NumberLine ℚ fun _ => True where
  constant _ := trivial
  total a b _ _ := by simpa using le_total a b
  trans a b c := by simpa using le_trans
  le_of_lt a b := by simpa using le_of_lt
  mul_nonneg a b ha hb _ := by
    rw [le_rat, decide_eq_true_eq, ofRat_rat] at *
    exact mul_nonneg ha hb
  sub_number _ _ _ := trivial
  div_number _ _ _ _ := trivial

theorem rounding_rat : Rounding ℚ fun _ => True where
  toNumberLine := numberLine_rat
  of_le _ _ _ := ⟨trivial, trivial⟩
  of_not_lt a b _ _ := by simp
  of_add _ _ _ := ⟨trivial, trivial⟩
  of_sub _ _ _ := ⟨trivial, trivial⟩
  of_mul _ _ _ := ⟨trivial, trivial⟩
  add_le a b c le _ _ := by simpa using le
  sub_le a b c d le le' _ _ := by
    rw [le_rat, decide_eq_true_eq] at *
    exact sub_le_sub le le'
  mul_le a b c d nonneg le nonneg' le' _ _ := by
    rw [le_rat, decide_eq_true_eq] at *
    exact mul_le_mul le le' nonneg' (nonneg.trans le)
  succ_mul_pos a b pos pos' := by
    rw [lt_rat, decide_eq_true_eq] at *
    exact mul_pos pos pos'
  sum_sub_pos a b c pos le le' := by
    simp only [lt_rat, le_rat, decide_eq_true_eq, decide_eq_false_iff_not, ofRat_rat] at *
    linarith

end Exact

variable {F : Type u} [Scalar F] {number : F → Prop}

theorem NumberLine.refl (line : NumberLine F number) {a : F} (ha : number a) :
    Scalar.le a a = true := (line.total a a ha ha).elim id id

theorem NumberLine.stdMax_zero_nonneg (line : NumberLine F number) (a : F) :
    Scalar.le (Scalar.ofRat 0) (stdMax (Scalar.ofRat 0) a) = true := by
  rw [stdMax]
  split
  · exact line.le_of_lt _ _ ‹_›
  · exact line.refl (line.constant 0)

namespace Rounding

variable {a b c d : F}

theorem of_pos (rounding : Rounding F number) (pos : Scalar.lt (Scalar.ofRat 0) a = true) :
    number a := (rounding.of_le _ _ (rounding.le_of_lt _ _ pos)).2

theorem stdMin_le (rounding : Rounding F number) (ha : number a) (hb : number b) :
    Scalar.le (stdMin a b) a = true ∧ Scalar.le (stdMin a b) b = true := by
  rw [stdMin]
  split
  · exact ⟨rounding.le_of_lt _ _ ‹_›, rounding.refl hb⟩
  · exact ⟨rounding.refl ha, rounding.of_not_lt b a hb ha (Bool.eq_false_of_not_eq_true ‹_›)⟩

theorem le_stdMax (rounding : Rounding F number) (ha : number a) (hb : number b) :
    Scalar.le a (stdMax a b) = true ∧ Scalar.le b (stdMax a b) = true := by
  rw [stdMax]
  split
  · exact ⟨rounding.le_of_lt _ _ ‹_›, rounding.refl hb⟩
  · exact ⟨rounding.refl ha, rounding.of_not_lt a b ha hb (Bool.eq_false_of_not_eq_true ‹_›)⟩

/-- What two closed ranges share is no longer than either of them. -/
theorem shared_le (rounding : Rounding F number)
    (shared : number (stdMin b d - stdMax a c + Scalar.ofRat 1))
    (first : number (b - a + Scalar.ofRat 1)) (second : number (d - c + Scalar.ofRat 1)) :
    Scalar.le (stdMin b d - stdMax a c + Scalar.ofRat 1) (b - a + Scalar.ofRat 1) = true ∧
      Scalar.le (stdMin b d - stdMax a c + Scalar.ofRat 1) (d - c + Scalar.ofRat 1) = true := by
  have length := (rounding.of_add _ _ shared).1
  have length_first := (rounding.of_add _ _ first).1
  have length_second := (rounding.of_add _ _ second).1
  obtain ⟨hb, ha⟩ := rounding.of_sub _ _ length_first
  obtain ⟨hd, hc⟩ := rounding.of_sub _ _ length_second
  have right := rounding.stdMin_le hb hd
  have left := rounding.le_stdMax ha hc
  constructor
  · exact rounding.add_le _ _ _ (rounding.sub_le _ _ _ _ right.1 left.1 length length_first)
      shared first
  · exact rounding.add_le _ _ _ (rounding.sub_le _ _ _ _ right.2 left.2 length length_second)
      shared second

/-- The union of two rectangles that share pixels is not 0. -/
theorem union_pos (rounding : Rounding F number) {wide high wide' high' width height : F}
    (pos : Scalar.lt (Scalar.ofRat 0) width = true) (pos' : Scalar.lt (Scalar.ofRat 0) height = true)
    (shares : Scalar.lt (Scalar.ofRat 0) (width * height) = true)
    (columns : number wide → number wide' →
      Scalar.le width wide = true ∧ Scalar.le width wide' = true)
    (rows : number high → number high' →
      Scalar.le height high = true ∧ Scalar.le height high' = true) :
    Scalar.le (wide * high + wide' * high' - width * height) (Scalar.ofRat 0) = false := by
  by_contra closed
  have le_zero := Bool.eq_true_of_not_eq_false closed
  obtain ⟨sum, product⟩ := rounding.of_sub _ _ (rounding.of_le _ _ le_zero).1
  obtain ⟨area, area'⟩ := rounding.of_add _ _ sum
  obtain ⟨hwide, hhigh⟩ := rounding.of_mul _ _ area
  obtain ⟨hwide', hhigh'⟩ := rounding.of_mul _ _ area'
  have left := rounding.le_of_lt _ _ pos
  have top := rounding.le_of_lt _ _ pos'
  have first := rounding.mul_le _ _ _ _ left (columns hwide hwide').1 top (rows hhigh hhigh').1
    product area
  have second := rounding.mul_le _ _ _ _ left (columns hwide hwide').2 top (rows hhigh hhigh').2
    product area'
  exact closed (rounding.sum_sub_pos _ _ _ shares first second)

end Rounding

end RoundedArithmetic
