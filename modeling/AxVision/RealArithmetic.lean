import AxVision.DetectionTypes
import Mathlib.Algebra.Order.Archimedean.Real.Basic

/-!
# Exact arithmetic of real numbers

The second exact number type, beside the rational numbers: it has the roots, the
exponentials and the regions that these lack, and none of it is evaluated.
-/

namespace RealArithmetic

open DetectionTypes

noncomputable scoped instance exactReal : Scalar ℝ where
  ofRat q := (q : ℝ)
  lt a b := decide (a < b)
  le a b := decide (a ≤ b)
  toInt r := if 0 ≤ r then ⌊r⌋ else ⌈r⌉

theorem ofRat_real (q : ℚ) : (Scalar.ofRat q : ℝ) = q := rfl

end RealArithmetic
