import Mathlib.Algebra.Order.Field.Rat

/-!
# Detected objects and their numbers

The records that pass between detector, tracker and business plugin. The code
computes with `float`; the model takes any number type with the operations and
the two comparisons the code uses, and assumes no law about them unless a
result is stated for exact arithmetic.
-/

namespace DetectionTypes

universe u

/-- Operations of the number type. `ofRat` reads a literal of the source and
`toInt` is the conversion to `int`, which truncates. -/
class Scalar (F : Type u) extends Add F, Sub F, Mul F, Div F where
  ofRat : ℚ → F
  lt : F → F → Bool
  le : F → F → Bool
  toInt : F → Int

/-- Exact arithmetic. -/
instance : Scalar ℚ where
  ofRat q := q
  lt a b := decide (a < b)
  le a b := decide (a ≤ b)
  toInt q := Int.tdiv q.num q.den

variable {F : Type u}

/-- An integer as a number. -/
def ofInt [Scalar F] (i : Int) : F := Scalar.ofRat i

/-- `std::max` keeps its first argument unless it is smaller. -/
def stdMax [Scalar F] (a b : F) : F := if Scalar.lt a b then b else a

/-- `std::min` keeps its first argument unless the second is smaller. -/
def stdMin [Scalar F] (a b : F) : F := if Scalar.lt b a then b else a

structure Rect (F : Type u) where
  x : F
  y : F
  width : F
  height : F
  deriving DecidableEq

structure Point2f (F : Type u) where
  x : F
  y : F
  deriving DecidableEq

/-- `detection::Object`; `trackId` is -1 until a tracker associates the object. -/
structure Object (F : Type u) where
  rect : Rect F
  label : Int
  prob : F
  landmark : Vector (Point2f F) 5
  mask : List (List F)
  maskFeat : List F
  kpsFeat : List F
  angle : F
  modelName : String
  labelName : String
  trackId : Int := -1
  deriving DecidableEq

def Rect.area [Mul F] (r : Rect F) : F := r.width * r.height

/-- Only the pixel buffer's presence steers the modelled code. -/
structure ImageData (P : Type u) where
  data : Option P := none
  deriving DecidableEq

@[simp] theorem lt_rat (a b : ℚ) : Scalar.lt a b = decide (a < b) := rfl

@[simp] theorem le_rat (a b : ℚ) : Scalar.le a b = decide (a ≤ b) := rfl

@[simp] theorem ofRat_rat (q : ℚ) : (Scalar.ofRat q : ℚ) = q := rfl

@[simp] theorem stdMax_rat (a b : ℚ) : stdMax a b = max a b := by
  simp only [stdMax, lt_rat, decide_eq_true_eq]
  split
  · exact (max_eq_right (le_of_lt ‹a < b›)).symm
  · exact (max_eq_left (not_lt.mp ‹¬a < b›)).symm

@[simp] theorem stdMin_rat (a b : ℚ) : stdMin a b = min a b := by
  simp only [stdMin, lt_rat, decide_eq_true_eq]
  split
  · exact (min_eq_right (le_of_lt ‹b < a›)).symm
  · exact (min_eq_left (not_lt.mp ‹¬b < a›)).symm

end DetectionTypes
