import AxVision.STracks
import AxVision.KeyedLists

/-!
# Distances, assignments and list operations of the tracker

The helpers of `BYTETracker::update`. The assignment solver and the Cholesky
solve come from outside and are parameters.
-/

namespace TrackAssociation

open DetectionTypes KalmanFilter STracks

universe u

variable {F : Type u}

/-- `lapjvInternal n cost` is the row and the column solution, or `none` for a
return code other than 0. -/
structure Backend (F : Type u) where
  lapjvInternal : Nat → List (List F) → Option (List Int × List Int)
  lltSolve : Mat F 4 4 → Mat F 4 8 → Mat F 4 8

def jointStracks (a b : List (STrack F)) : List (STrack F) :=
  KeyedLists.union STrack.trackId a b

def subStracks (a b : List (STrack F)) : List (STrack F) :=
  KeyedLists.difference STrack.trackId a b

section Distances

variable [Scalar F]

/-- One entry of `ious`: boxes are closed pixel ranges, hence the `+ 1`. -/
def iou (a b : Tlbr F) : F :=
  let one : F := Scalar.ofRat 1
  let zero : F := Scalar.ofRat 0
  let boxArea := (b.right - b.left + one) * (b.bottom - b.top + one)
  let iw := stdMin a.right b.right - stdMax a.left b.left + one
  if Scalar.lt zero iw then
    let ih := stdMin a.bottom b.bottom - stdMax a.top b.top + one
    if Scalar.lt zero ih then
      let ua := (a.right - a.left + one) * (a.bottom - a.top + one) + boxArea - iw * ih
      iw * ih / ua
    else zero
  else zero

/-- Both overloads; without rows or columns the matrix is empty. -/
def iouDistance (a b : List (STrack F)) : List (List F) :=
  if a.length * b.length = 0 then []
  else a.map fun t => b.map fun d => Scalar.ofRat 1 - iou t.tlbr d.tlbr

/-- Pairs of `remove_duplicate_stracks`, row by row. -/
def duplicatePairs (a b : List (STrack F)) : List (Nat × Nat) :=
  (iouDistance a b).zipIdx.flatMap fun row =>
    row.1.zipIdx.filterMap fun d =>
      if Scalar.lt d.1 (Scalar.ofRat (15 / 100)) then some (row.2, d.2) else none

/-- The older track of a pair stays; the second list wins a tie. -/
def firstOlder (a b : List (STrack F)) (pair : Nat × Nat) : Bool :=
  match a[pair.1]?, b[pair.2]? with
  | some p, some q => q.frameId - q.startFrame < p.frameId - p.startFrame
  | _, _ => false

def dropIndices (l : List (STrack F)) (dropped : List Nat) : List (STrack F) :=
  (l.zipIdx.filter fun e => e.2 ∉ dropped).map Prod.fst

def removeDuplicateStracks (a b : List (STrack F)) : List (STrack F) × List (STrack F) :=
  let pairs := duplicatePairs a b
  let dupb := (pairs.filter fun pair => firstOlder a b pair).map Prod.snd
  let dupa := (pairs.filter fun pair => !firstOlder a b pair).map Prod.fst
  (dropIndices a dupa, dropIndices b dupb)

omit [Scalar F] in
theorem dropIndices_sublist (l : List (STrack F)) (dropped : List Nat) :
    (dropIndices l dropped).Sublist l := by
  have sub := (List.filter_sublist (p := fun e => decide (e.2 ∉ dropped))
    (l := l.zipIdx)).map Prod.fst
  rwa [List.zipIdx_map_fst] at sub

theorem removeDuplicateStracks_sublist (a b : List (STrack F)) :
    (removeDuplicateStracks a b).1.Sublist a ∧ (removeDuplicateStracks a b).2.Sublist b :=
  ⟨dropIndices_sublist _ _, dropIndices_sublist _ _⟩

end Distances

section Assignment

variable [Scalar F]

/-- `LONG_MAX` as a number. -/
def longMax : F := Scalar.ofRat (2 ^ 63 - 1)

def entry (cost : List (List F)) (i j : Nat) (default : F) : F :=
  (cost[i]?.bind fun row => row[j]?).getD default

/-- The fill of the rows and columns added by the extension. -/
def fillCost (cost : List (List F)) (costLimit : F) : F :=
  if Scalar.lt costLimit longMax then costLimit / Scalar.ofRat 2
  else
    cost.flatten.foldl (fun m c => if Scalar.lt m c then c else m) (Scalar.ofRat (-1)) +
      Scalar.ofRat 1

def extendedCost (cost : List (List F)) (nRows nCols : Nat) (costLimit : F) : List (List F) :=
  let fill := fillCost cost costLimit
  (List.range (nRows + nCols)).map fun i => (List.range (nRows + nCols)).map fun j =>
    if i < nRows ∧ j < nCols then entry cost i j fill
    else if nRows ≤ i ∧ nCols ≤ j then Scalar.ofRat 0
    else fill

/-- `BYTETracker::lapjv` without its return value, which no caller reads. Where
the solved matrix has as many rows as the given one, without the extension or
without columns, the solution vectors keep the zeros of their resize. -/
def lapjv (backend : Backend F) (cost : List (List F)) (extendCost : Bool) (costLimit : F) :
    List Int × List Int :=
  let nRows := cost.length
  let nCols := (cost.headD []).length
  let failed := (List.replicate nRows (-1 : Int), List.replicate nCols (-1 : Int))
  if nRows ≠ nCols ∧ extendCost = false then failed
  else
    let extended := extendCost || Scalar.lt costLimit longMax
    let n := if extended then nRows + nCols else nRows
    match backend.lapjvInternal n
        (if extended then extendedCost cost nRows nCols costLimit else cost) with
    | none => failed
    | some (x, y) =>
      if n ≠ nRows then
        ((x.take nRows).map fun v : Int => if v ≥ nCols then -1 else v,
          (y.take nCols).map fun v : Int => if v ≥ nRows then -1 else v)
      else (List.replicate nRows 0, List.replicate nCols 0)

/-- `pairs` are the matches in row order. -/
structure Assignment where
  pairs : List (Nat × Nat)
  unmatchedA : List Nat
  unmatchedB : List Nat
  deriving DecidableEq, Repr

def readSolution (rowsol colsol : List Int) : Assignment where
  pairs := rowsol.zipIdx.filterMap fun v => if v.1 ≥ 0 then some (v.2, v.1.toNat) else none
  unmatchedA := rowsol.zipIdx.filterMap fun v => if v.1 ≥ 0 then none else some v.2
  unmatchedB := colsol.zipIdx.filterMap fun v => if v.1 < 0 then some v.2 else none

def linearAssignment (backend : Backend F) (cost : List (List F)) (rows cols : Nat)
    (thresh : F) : Assignment :=
  if cost.isEmpty then ⟨[], List.range rows, List.range cols⟩
  else
    let solution := lapjv backend cost true thresh
    readSolution solution.1 solution.2

end Assignment

end TrackAssociation
