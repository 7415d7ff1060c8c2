import AxVision.DetectionTypes
import Mathlib.Data.Fin.VecNotation

/-!
# The Kalman filter of the tracker

`ByteKalmanFilter` over any number type. Products are written out over the
operations of the type; the Cholesky solve of the linear-algebra library is a
parameter of `update`.
-/

namespace KalmanFilter

open DetectionTypes

universe u

variable {F : Type u}

-- The literals of the measurement and the state indices.
scoped instance measured : NeZero 4 := ⟨by decide⟩
scoped instance estimated : NeZero 8 := ⟨by decide⟩

abbrev Vec (F : Type u) (n : Nat) := Fin n → F
abbrev Mat (F : Type u) (m n : Nat) := Fin m → Fin n → F

/-- Centre, aspect ratio and height of a box. -/
abbrev DetectBox (F : Type u) := Vec F 4
abbrev KalMean (F : Type u) := Vec F 8
abbrev KalCova (F : Type u) := Mat F 8 8

section Products

variable [Scalar F]

/-- Terms are added from left to right. -/
def dot {n : Nat} (a b : Vec F (n + 1)) : F :=
  (List.finRange n).foldl (fun acc i => acc + a i.succ * b i.succ) (a 0 * b 0)

theorem foldl_sum {M ι : Type*} [AddMonoid M] (f : ι → M) (l : List ι) (z : M) :
    l.foldl (fun acc i => acc + f i) z = z + (l.map f).sum := by
  induction l generalizing z with
  | nil => rw [List.foldl_nil, List.map_nil, List.sum_nil, add_zero]
  | cons i rest ih => rw [List.foldl_cons, ih, List.map_cons, List.sum_cons, add_assoc]

def matMul {m n k : Nat} (a : Mat F m (n + 1)) (b : Mat F (n + 1) k) : Mat F m k :=
  fun i j => dot (a i) fun l => b l j

def matVec {m n : Nat} (a : Mat F m (n + 1)) (v : Vec F (n + 1)) : Vec F m :=
  fun i => dot (a i) v

def transpose {m n : Nat} (a : Mat F m n) : Mat F n m := fun i j => a j i

def identity (m n : Nat) : Mat F m n :=
  fun i j => if i.val = j.val then Scalar.ofRat 1 else Scalar.ofRat 0

/-- `asDiagonal` of the squared entries. -/
def squaredDiagonal {n : Nat} (std : Vec F n) : Mat F n n :=
  fun i j => if i = j then std i * std i else Scalar.ofRat 0

def matAdd {m n : Nat} (a b : Mat F m n) : Mat F m n := fun i j => a i j + b i j

def matSub {m n : Nat} (a b : Mat F m n) : Mat F m n := fun i j => a i j - b i j

end Products

variable [Scalar F]

def stdWeightPosition : F := Scalar.ofRat (1 / 20)
def stdWeightVelocity : F := Scalar.ofRat (1 / 160)

/-- `_motion_mat`: the identity, with a unit time step above the diagonal. -/
def motionMat : Mat F 8 8 :=
  fun i j => if j.val = i.val + 4 then Scalar.ofRat 1 else identity 8 8 i j

def updateMat : Mat F 4 8 := identity 4 8

def initiate (measurement : DetectBox F) : KalMean F × KalCova F :=
  let mean : KalMean F := fun i =>
    if h : i.val < 4 then measurement ⟨i.val, h⟩ else Scalar.ofRat 0
  let position := Scalar.ofRat 2 * stdWeightPosition * measurement 3
  let velocity := Scalar.ofRat 10 * stdWeightVelocity * measurement 3
  let std : Vec F 8 := ![position, position, Scalar.ofRat (1 / 100), position,
    velocity, velocity, Scalar.ofRat (1 / 100000), velocity]
  (mean, squaredDiagonal std)

def predict (mean : KalMean F) (covariance : KalCova F) : KalMean F × KalCova F :=
  let position := stdWeightPosition * mean 3
  let velocity := stdWeightVelocity * mean 3
  let std : Vec F 8 := ![position, position, Scalar.ofRat (1 / 100), position,
    velocity, velocity, Scalar.ofRat (1 / 100000), velocity]
  (matVec motionMat mean,
    matAdd (matMul (matMul motionMat covariance) (transpose motionMat)) (squaredDiagonal std))

def project (mean : KalMean F) (covariance : KalCova F) : Vec F 4 × Mat F 4 4 :=
  let position := stdWeightPosition * mean 3
  let std : Vec F 4 := ![position, position, Scalar.ofRat (1 / 10), position]
  (matVec updateMat mean,
    matAdd (matMul (matMul updateMat covariance) (transpose updateMat)) (squaredDiagonal std))

/-- `lltSolve s b` is the library's solution of `s * x = b`. -/
def update (lltSolve : Mat F 4 4 → Mat F 4 8 → Mat F 4 8) (mean : KalMean F)
    (covariance : KalCova F) (measurement : DetectBox F) : KalMean F × KalCova F :=
  let projected := project mean covariance
  let b := transpose (matMul covariance (transpose updateMat))
  let kalmanGain := transpose (lltSolve projected.2 b)
  let innovation : Vec F 4 := fun i => measurement i - projected.1 i
  (fun i => mean i + dot innovation (kalmanGain i),
    matSub covariance (matMul (matMul kalmanGain projected.2) (transpose kalmanGain)))

end KalmanFilter
