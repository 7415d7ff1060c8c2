import AxVision.DetectionTypes
import Mathlib.Data.List.FinRange
import Mathlib.Data.List.Rotate
import Mathlib.Logic.Function.Basic

/-!
# The assignment solver

`lapjv_internal` on a square matrix: column reduction, two rounds of augmenting
row reduction, then one shortest path for every row that is left. The arrays
are functions of an index, -1 is `none`, and the row and column lists that the
code keeps in one array are lists; an index the code would read from nowhere
makes the model return `none`.
-/

namespace LapjvSolver

open DetectionTypes

universe u

variable {F : Type u} [Scalar F] {n : Nat}

/-- `LARGE` -/
def large : F := Scalar.ofRat 1000000

/-- The arrays `x`, `y` and `v`. -/
structure Solution (F : Type u) (n : Nat) where
  x : Fin n → Option (Fin n)
  y : Fin n → Option (Fin n)
  v : Fin n → F

section ColumnReduction

variable [NeZero n] (cost : Fin n → Fin n → F)

/-- The least entry of a column and the first row that has it. -/
def columnMinimum (j : Fin n) : F × Fin n :=
  (List.finRange n).foldl
    (fun least i => if Scalar.lt (cost i j) least.1 then (cost i j, i) else least) (large, 0)

structure Claims (n : Nat) where
  x : Fin n → Option (Fin n)
  y : Fin n → Option (Fin n)
  unique : Fin n → Bool

/-- The row of a column's minimum takes the column, unless it has one. -/
def claim (row : Fin n → Fin n) (s : Claims n) (j : Fin n) : Claims n :=
  if s.x (row j) = none then
    { s with x := Function.update s.x (row j) (some j) }
  else
    { s with
      unique := Function.update s.unique (row j) false
      y := Function.update s.y j none }

/-- The columns claim their rows from the last one on. -/
def claims (row : Fin n → Fin n) : Claims n :=
  (List.finRange n).reverse.foldl (claim row)
    { x := fun _ => none, y := fun j => some (row j), unique := fun _ => true }

def rowMinimum (v : Fin n → F) (i j : Fin n) : F :=
  (List.finRange n).foldl
    (fun least k =>
      if k = j then least
      else if Scalar.lt (cost i k - v k) least then cost i k - v k
      else least)
    large

/-- The free rows so far, and the prices. -/
def transfer (s : Claims n) (acc : List (Fin n) × (Fin n → F)) (i : Fin n) :
    List (Fin n) × (Fin n → F) :=
  match s.x i with
  | none => (acc.1 ++ [i], acc.2)
  | some j =>
    if s.unique i then
      (acc.1, Function.update acc.2 j (acc.2 j - rowMinimum cost acc.2 i j))
    else acc

/-- `_ccrrt_dense` -/
def ccrrtDense : List (Fin n) × Solution F n :=
  let s := claims fun j => (columnMinimum cost j).2
  let acc := (List.finRange n).foldl (transfer cost s) ([], fun j => (columnMinimum cost j).1)
  (acc.1, { x := s.x, y := s.y, v := acc.2 })

end ColumnReduction

section RowReduction

variable [NeZero n] (cost : Fin n → Fin n → F)

structure Minima (F : Type u) (n : Nat) where
  j1 : Fin n
  v1 : F
  j2 : Option (Fin n)
  v2 : F

def nextMinimum (v : Fin n → F) (i : Fin n) (m : Minima F n) (j : Fin n) : Minima F n :=
  let c := cost i j - v j
  if Scalar.lt c m.v2 then
    if Scalar.le m.v1 c then { m with v2 := c, j2 := some j }
    else { j1 := j, v1 := c, j2 := some m.j1, v2 := m.v1 }
  else m

/-- The two cheapest columns of a row. -/
def twoMinima (v : Fin n → F) (i : Fin n) : Minima F n :=
  ((List.finRange n).drop 1).foldl (nextMinimum cost v i)
    { j1 := 0, v1 := cost i 0 - v 0, j2 := none, v2 := large }

/-- `pending` is `free_rows` from `current` on, `fresh` its first `new_free_rows`
entries. -/
structure Rows (F : Type u) (n : Nat) where
  solution : Solution F n
  pending : List (Fin n)
  fresh : List (Fin n)
  current : Nat
  rrCnt : Nat

/-- Does the price of the cheapest column fall? -/
def v1Lowers (v : Fin n → F) (m : Minima F n) : Bool :=
  Scalar.lt (v m.j1 - (m.v2 - m.v1)) (v m.j1)

/-- The column that the row takes, and the prices then; `early` is
`rr_cnt < current * n`. -/
def choice (s : Solution F n) (m : Minima F n) (early : Bool) : Fin n × (Fin n → F) :=
  if early then
    if v1Lowers s.v m then (m.j1, Function.update s.v m.j1 (s.v m.j1 - (m.v2 - m.v1)))
    else
      match s.y m.j1, m.j2 with
      | some _, some j2 => (j2, s.v)
      | _, _ => (m.j1, s.v)
  else (m.j1, s.v)

/-- One turn of the loop, at the row `freeI`. -/
def carrStep (s : Rows F n) (freeI : Fin n) (rest : List (Fin n)) : Rows F n :=
  let rrCnt := s.rrCnt + 1
  let current := s.current + 1
  let early := decide (rrCnt < current * n)
  let m := twoMinima cost s.solution.v freeI
  let (j, v) := choice s.solution m early
  let solution : Solution F n :=
    { x := Function.update s.solution.x freeI (some j)
      y := Function.update s.solution.y j (some freeI)
      v := v }
  match s.solution.y j with
  | none => ⟨solution, rest, s.fresh, current, rrCnt⟩
  | some i0 =>
    if early && v1Lowers s.solution.v m then
      ⟨solution, i0 :: rest, s.fresh, current - 1, rrCnt⟩
    else ⟨solution, rest, s.fresh ++ [i0], current, rrCnt⟩

def carrLoop : Nat → Rows F n → Option (Rows F n)
  | 0, _ => none
  | fuel + 1, s =>
    match s.pending with
    | [] => some s
    | freeI :: rest => carrLoop fuel (carrStep cost s freeI rest)

/-- `_carr_dense`. Every turn adds to `rr_cnt`, and from `n_free_rows * n` on
every turn uses up a row. -/
def carrDense (freeRows : List (Fin n)) (s : Solution F n) : Option (List (Fin n) × Solution F n) :=
  (carrLoop cost (freeRows.length * n + freeRows.length + 1) ⟨s, freeRows, [], 0, 0⟩).map
    fun rows => (rows.fresh, rows.solution)

end RowReduction

section Paths

variable (cost : Fin n → Fin n → F)

/-- The arrays `d` and `pred`. -/
structure Labels (F : Type u) (n : Nat) where
  d : Fin n → F
  pred : Fin n → Fin n

def Labels.set (labels : Labels F n) (j : Fin n) (cred : F) (i : Fin n) : Labels F n where
  d := Function.update labels.d j cred
  pred := Function.update labels.pred j i

section Set

omit [Scalar F]

variable (labels : Labels F n) (j : Fin n) (cred : F) (i : Fin n)

@[simp] theorem Labels.set_d_self : (labels.set j cred i).d j = cred :=
  Function.update_self ..

@[simp] theorem Labels.set_pred_self : (labels.set j cred i).pred j = i :=
  Function.update_self ..

variable {labels j cred i} {k : Fin n}

theorem Labels.set_d_of_ne (other : k ≠ j) : (labels.set j cred i).d k = labels.d k :=
  Function.update_of_ne other ..

theorem Labels.set_pred_of_ne (other : k ≠ j) : (labels.set j cred i).pred k = labels.pred k :=
  Function.update_of_ne other ..

end Set

/-- One column of the loop in `_find_dense`. `scan` is `cols[lo, hi)` and `passed`
is `cols[hi, k)`: the column at `k` moves to `hi`, and the one there to `k`. -/
def findStep (d : Fin n → F) (s : F × List (Fin n) × List (Fin n)) (j : Fin n) :
    F × List (Fin n) × List (Fin n) :=
  let (mind, scan, passed) := s
  if Scalar.le (d j) mind then
    if Scalar.lt (d j) mind then (d j, [j], (scan ++ passed).rotate 1)
    else (mind, scan ++ [j], passed.rotate 1)
  else (mind, scan, passed ++ [j])

/-- `_find_dense` on the columns from `lo` on: those of least `d`, and the others. -/
def findDense (d : Fin n → F) (first : Fin n) (rest : List (Fin n)) :
    List (Fin n) × List (Fin n) :=
  (rest.foldl (findStep d) (d first, [first], [])).2

/-- The last column of the list that no row has. -/
def lastFree (y : Fin n → Option (Fin n)) (cols : List (Fin n)) : Option (Fin n) :=
  cols.foldl (fun found j => if y j = none then some j else found) none

inductive Relaxed (F : Type u) (n : Nat) where
  | free (j : Fin n) (labels : Labels F n)
  | exhausted (scan todo : List (Fin n)) (labels : Labels F n)

/-- The inner loop of `_scan_dense`: the columns from `k` on, those of
`cols[lo, hi)` and those of `cols[hi, k)`. -/
def relax (y : Fin n → Option (Fin n)) (v : Fin n → F) (i : Fin n) (h mind : F) :
    List (Fin n) → List (Fin n) → List (Fin n) → Labels F n → Relaxed F n
  | [], scan, passed, labels => .exhausted scan passed labels
  | j :: rest, scan, passed, labels =>
    let cred := cost i j - v j - h
    if Scalar.lt cred (labels.d j) then
      let labels := labels.set j cred i
      if Scalar.le cred mind && Scalar.le mind cred then
        if y j = none then .free j labels
        else relax y v i h mind rest (scan ++ [j]) (passed.rotate 1) labels
      else relax y v i h mind rest scan (passed ++ [j]) labels
    else relax y v i h mind rest scan (passed ++ [j]) labels

inductive Scanned (F : Type u) (n : Nat) where
  | free (j : Fin n) (labels : Labels F n)
  | exhausted (done todo : List (Fin n)) (labels : Labels F n)

/-- `_scan_dense`; every turn takes a column that was on neither list before. -/
def scanDense (y : Fin n → Option (Fin n)) (v : Fin n → F) :
    Nat → List (Fin n) → List (Fin n) → List (Fin n) → Labels F n → Option (Scanned F n)
  | _, done, [], todo, labels => some (.exhausted done todo labels)
  | 0, _, _ :: _, _, _ => none
  | fuel + 1, done, j :: scan, todo, labels =>
    match y j with
    | none => none
    | some i =>
      let mind := labels.d j
      match relax cost y v i (cost i j - v j - mind) mind todo scan [] labels with
      | .free k labels => some (.free k labels)
      | .exhausted scan todo labels => scanDense y v fuel (done ++ [j]) scan todo labels

/-- Where the search ended: the free column, the columns that were done at the
last call of `_find_dense`, and `cols[lo]`. -/
structure Target (F : Type u) (n : Nat) where
  finalJ : Fin n
  ready : List (Fin n)
  lo : Fin n
  labels : Labels F n

/-- The loop of `find_path_dense`, entered with an empty SCAN list. -/
def searchLoop (y : Fin n → Option (Fin n)) (v : Fin n → F) :
    Nat → List (Fin n) → List (Fin n) → Labels F n → Option (Target F n)
  | 0, _, _, _ => none
  | _ + 1, _, [], _ => none
  | fuel + 1, ready, first :: rest, labels =>
    match findDense labels.d first rest with
    | ([], _) => none
    | (lo :: scan, todo) =>
      match lastFree y (lo :: scan) with
      | some j => some ⟨j, ready, lo, labels⟩
      | none =>
        match scanDense cost y v n [] (lo :: scan) todo labels with
        | none => none
        | some (.free j labels) => some ⟨j, ready, lo, labels⟩
        | some (.exhausted done todo labels) => searchLoop y v fuel (ready ++ done) todo labels

/-- `find_path_dense`: the free column it ends at, `pred` and the new prices. -/
def findPathDense (startI : Fin n) (y : Fin n → Option (Fin n)) (v : Fin n → F) :
    Option (Fin n × (Fin n → Fin n) × (Fin n → F)) :=
  (searchLoop cost y v (n + 1) [] (List.finRange n)
    { d := fun j => cost startI j - v j, pred := fun _ => startI }).map fun target =>
      let mind := target.labels.d target.lo
      (target.finalJ, target.labels.pred,
        target.ready.foldl
          (fun v j => Function.update v j (v j + (target.labels.d j - mind))) v)

/-- The path back to the row `freeI`: each row takes the column before it and
gives up its own. -/
def augment (pred : Fin n → Fin n) (freeI : Fin n) :
    Nat → Fin n → (Fin n → Option (Fin n)) × (Fin n → Option (Fin n)) →
      Option ((Fin n → Option (Fin n)) × (Fin n → Option (Fin n)))
  | 0, _, _ => none
  | fuel + 1, j, (x, y) =>
    let i := pred j
    let y := Function.update y j (some i)
    let next := x i
    let x := Function.update x i (some j)
    if i = freeI then some (x, y)
    else
      match next with
      | none => none
      | some j => augment pred freeI fuel j (x, y)

/-- `_ca_dense` -/
def caDense : List (Fin n) → Solution F n → Option (Solution F n)
  | [], s => some s
  | freeI :: rest, s =>
    match findPathDense cost freeI s.y s.v with
    | none => none
    | some (j, pred, v) =>
      match augment pred freeI n j (s.x, s.y) with
      | none => none
      | some (x, y) => caDense rest { x := x, y := y, v := v }

end Paths

variable [NeZero n] (cost : Fin n → Fin n → F)

/-- `_carr_dense` as long as rows are free. -/
def reduceRows (acc : List (Fin n) × Solution F n) : Option (List (Fin n) × Solution F n) :=
  if acc.1 = [] then some acc else carrDense cost acc.1 acc.2

/-- `lapjv_internal` -/
def lapjvInternal : Option (Solution F n) := do
  let first ← reduceRows cost (ccrrtDense cost)
  let second ← reduceRows cost first
  caDense cost second.1 second.2

end LapjvSolver
