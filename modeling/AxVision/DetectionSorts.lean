import AxVision.DetectionTypes
import AxVision.RangePermutations

/-!
# Sorting the detections

`qsort_descent_inplace` sorts a vector by score with a two-sided partition and
then sorts both parts in parallel sections. The vector is a function of its
index; a read or a swap at an index outside makes the model return `none`. Which
section runs first is left open, by range.
-/

namespace DetectionSorts

open DetectionTypes RangePermutations

universe u

variable {F : Type u} [Scalar F] {T : Type} (prob : T → F) {n : Nat}

section Sorting

def index (n : Nat) (i : Int) : Option (Fin n) :=
  if h : 0 ≤ i ∧ i < n then some ⟨i.toNat, by omega⟩ else none

/-- `while (faceobjects[i].prob > p) i++` -/
def scanUp (a : Fin n → T) (p : F) : Nat → Int → Option Int
  | 0, _ => none
  | fuel + 1, i =>
    match index n i with
    | none => none
    | some k => if Scalar.lt p (prob (a k)) then scanUp a p fuel (i + 1) else some i

/-- `while (faceobjects[j].prob < p) j--` -/
def scanDown (a : Fin n → T) (p : F) : Nat → Int → Option Int
  | 0, _ => none
  | fuel + 1, j =>
    match index n j with
    | none => none
    | some k => if Scalar.lt (prob (a k)) p then scanDown a p fuel (j - 1) else some j

def exchange (a : Fin n → T) (i j : Int) : Option (Fin n → T) :=
  match index n i, index n j with
  | some k, some l => some (a ∘ Equiv.swap k l)
  | _, _ => none

/-- The outer loop, with the vector and both indices behind it. -/
def partitionLoop (p : F) : Nat → (Fin n → T) → Int → Int → Option ((Fin n → T) × Int × Int)
  | 0, _, _, _ => none
  | fuel + 1, a, i, j =>
    if i ≤ j then do
      let i ← scanUp prob a p n i
      let j ← scanDown prob a p n j
      if i ≤ j then
        let a ← exchange a i j
        partitionLoop p fuel a (i + 1) (j - 1)
      else partitionLoop p fuel a i j
    else some (a, i, j)

/-- `qsort_descent_inplace` of a range; `leftFirst` tells for each range which of
its two sections runs first. -/
def qsortRange (leftFirst : Int → Int → Bool) :
    Nat → (Fin n → T) → Int → Int → Option (Fin n → T)
  | 0, _, _, _ => none
  | fuel + 1, a, left, right => do
    let m ← index n ((left + right).tdiv 2)
    let (a, i, j) ← partitionLoop prob (prob (a m)) (n + 1) a left right
    let sortLeft (a : Fin n → T) :=
      if left < j then qsortRange leftFirst fuel a left j else some a
    let sortRight (a : Fin n → T) :=
      if i < right then qsortRange leftFirst fuel a i right else some a
    if leftFirst left right then sortLeft a >>= sortRight else sortRight a >>= sortLeft

/-- `qsort_descent_inplace` of a vector. -/
def qsortDescentInplace (leftFirst : Int → Int → Bool) (a : Fin n → T) : Option (Fin n → T) :=
  if n = 0 then some a else qsortRange prob leftFirst n a 0 (n - 1)

end Sorting

section Scans

variable {s : Fin n → F} {p : F} {left right i j : Int}

theorem index_val (k : Fin n) : index n k = some k := by
  rw [index, dif_pos ⟨by omega, by omega⟩]
  rfl

theorem index_of_mem (lower : 0 ≤ i) {k : Fin n} (upper : i ≤ k) :
    ∃ l : Fin n, (l : Int) = i ∧ index n i = some l := by
  have bound : i.toNat < n := by omega
  have same : ((⟨i.toNat, bound⟩ : Fin n) : Int) = i := by
    change ((i.toNat : Nat) : Int) = i
    omega
  exact ⟨⟨i.toNat, bound⟩, same, by rw [← index_val, same]⟩

/-- The scan from the left stops at the first score that is not above the pivot,
and looks no further. -/
theorem scanUp_stops (fuel : Nat) (lower : 0 ≤ i) {k : Fin n} (here : i ≤ k)
    (stop : Scalar.lt p (s k) = false) (enough : (k : Int) - i < fuel) :
    ∃ m : Fin n, i ≤ m ∧ m ≤ k ∧ Scalar.lt p (s m) = false ∧
      (∀ l : Fin n, i ≤ l → l < m → Scalar.lt p (s l) = true) ∧
      ∀ a : Fin n → T, SameOn i k (prob ∘ a) s → scanUp prob a p fuel i = some (m : Int) := by
  induction fuel generalizing i with
  | zero => omega
  | succ fuel ih =>
    obtain ⟨l, rfl, found⟩ := index_of_mem lower here
    cases test : Scalar.lt p (s l) with
    | false =>
      refine ⟨l, le_rfl, by omega, test, fun l' low high => by omega, ?_⟩
      intro a same
      have score : prob (a l) = s l := same l le_rfl here
      rw [scanUp, found]
      simp only [score, test, Bool.false_eq_true, if_false]
    | true =>
      have further : l ≠ k := by
        rintro rfl
        rw [test] at stop
        cases stop
      have next : (l : Int) + 1 ≤ k := by omega
      obtain ⟨m, low, high, stopped, above, run⟩ := ih (by omega) next (by omega)
      refine ⟨m, by omega, high, stopped, ?_, ?_⟩
      · intro l' low' high'
        by_cases first : l' = l
        · exact first ▸ test
        · exact above l' (by omega) high'
      · intro a same
        have score : prob (a l) = s l := same l le_rfl here
        rw [scanUp, found]
        simp only [score, test, if_true]
        exact run a (same.mono (by omega) le_rfl)

/-- The scan from the right stops at the last score that is not below the pivot. -/
theorem scanDown_stops (fuel : Nat) {k l : Fin n} (here : (k : Int) ≤ j) (upper : j ≤ l)
    (stop : Scalar.lt (s k) p = false) (enough : j - (k : Int) < fuel) :
    ∃ m : Fin n, k ≤ m ∧ (m : Int) ≤ j ∧ Scalar.lt (s m) p = false ∧
      (∀ l : Fin n, m < l → (l : Int) ≤ j → Scalar.lt (s l) p = true) ∧
      ∀ a : Fin n → T, SameOn k j (prob ∘ a) s → scanDown prob a p fuel j = some (m : Int) := by
  induction fuel generalizing j with
  | zero => omega
  | succ fuel ih =>
    obtain ⟨e, rfl, found⟩ := index_of_mem (by omega) upper
    cases test : Scalar.lt (s e) p with
    | false =>
      refine ⟨e, by omega, le_rfl, test, fun l' low high => by omega, ?_⟩
      intro a same
      have score : prob (a e) = s e := same e here le_rfl
      rw [scanDown, found]
      simp only [score, test, Bool.false_eq_true, if_false]
    | true =>
      have further : e ≠ k := by
        rintro rfl
        rw [test] at stop
        cases stop
      have next : (k : Int) ≤ e - 1 := by omega
      obtain ⟨m, low, high, stopped, below, run⟩ := ih next (by omega) (by omega)
      refine ⟨m, low, by omega, stopped, ?_, ?_⟩
      · intro l' low' high'
        by_cases last : l' = e
        · exact last ▸ test
        · exact below l' low' (by omega)
      · intro a same
        have score : prob (a e) = s e := same e here le_rfl
        rw [scanDown, found]
        simp only [score, test, if_true]
        exact run a (same.mono le_rfl (by omega))

end Scans

section Partition

variable {s : Fin n → F} {p : F} {left right i j : Int}

/-- No two scores are each below the other; so it is with NaN among them. -/
def Asymmetric (F : Type u) [Scalar F] : Prop :=
  ∀ a b : F, Scalar.lt a b = true → Scalar.lt b a = false

theorem Asymmetric.irrefl (asymm : Asymmetric F) (a : F) : Scalar.lt a a = false := by
  cases test : Scalar.lt a a with
  | false => rfl
  | true => rw [← test, asymm a a test]

/-- What has been scanned is on its side, and either both scans have moved or the
pivot is still between them. -/
structure Split (s : Fin n → F) (p : F) (left right i j : Int) : Prop where
  front : 0 ≤ left
  back : right < n
  left_le : left ≤ i
  le_right : j ≤ right
  low : ∀ k : Fin n, left ≤ k → (k : Int) < i → Scalar.lt (s k) p = false
  high : ∀ k : Fin n, j < k → (k : Int) ≤ right → Scalar.lt p (s k) = false
  moved : (∃ m : Fin n, i ≤ m ∧ (m : Int) ≤ j ∧ Scalar.lt p (s m) = false ∧
    Scalar.lt (s m) p = false) ∨ (left < i ∧ j < right)

/-- Both scans have something to stop at. -/
theorem Split.stops (h : Split s p left right i j) (meet : i ≤ j) :
    (∃ k : Fin n, i ≤ k ∧ (k : Int) ≤ right ∧ Scalar.lt p (s k) = false) ∧
      ∃ k : Fin n, left ≤ k ∧ (k : Int) ≤ j ∧ Scalar.lt (s k) p = false := by
  obtain ⟨front, back, lower, upper, before, after, moved⟩ := h
  rcases moved with ⟨m, low, high, up, down⟩ | ⟨low, high⟩
  · exact ⟨⟨m, low, by omega, up⟩, m, by omega, high, down⟩
  · have bound : (j + 1).toNat < n := by omega
    have bound' : (i - 1).toNat < n := by omega
    refine ⟨⟨⟨(j + 1).toNat, bound⟩, ?_, ?_, after _ ?_ ?_⟩,
      ⟨(i - 1).toNat, bound'⟩, ?_, ?_, before _ ?_ ?_⟩ <;> dsimp only <;> omega

/-- Where both scans stop. -/
structure Stopped (s : Fin n → F) (p : F) (left right i j : Int) (m l : Fin n) : Prop where
  lower : i ≤ m
  upper : (l : Int) ≤ j
  le_right : (m : Int) ≤ right
  left_le : left ≤ l
  up : Scalar.lt p (s m) = false
  down : Scalar.lt (s l) p = false
  above : ∀ k : Fin n, i ≤ k → k < m → Scalar.lt p (s k) = true
  below : ∀ k : Fin n, l < k → (k : Int) ≤ j → Scalar.lt (s k) p = true

theorem Split.scans (h : Split s p left right i j) (meet : i ≤ j) :
    ∃ m l : Fin n, Stopped s p left right i j m l ∧
      ∀ a : Fin n → T, SameOn left right (prob ∘ a) s →
        scanUp prob a p n i = some (m : Int) ∧ scanDown prob a p n j = some (l : Int) := by
  obtain ⟨⟨k, here, inside, stop⟩, k', inside', here', stop'⟩ := h.stops meet
  have front := h.front.trans h.left_le
  have back := h.le_right.trans_lt h.back
  obtain ⟨m, lower, le, up, above, run⟩ :=
    scanUp_stops prob n front here stop (by omega)
  have last : j ≤ (⟨j.toNat, by omega⟩ : Fin n) := by
    dsimp only
    omega
  obtain ⟨l, le', upper, down, below, run'⟩ :=
    scanDown_stops prob n here' last stop' (by omega)
  refine ⟨m, l, ⟨lower, upper, by omega, by omega, up, down, above, below⟩, ?_⟩
  intro a same
  exact ⟨run a (same.mono h.left_le inside), run' a (same.mono inside' h.le_right)⟩

/-- The scans have met: all is on its side. -/
theorem Split.met {m l : Fin n} (h : Split s p left right i j) (asymm : Asymmetric F)
    (stopped : Stopped s p left right i j m l) (met : l < m) : Split s p left right m l where
  front := h.front
  back := h.back
  left_le := h.left_le.trans stopped.lower
  le_right := stopped.upper.trans h.le_right
  low k inside before := by
    by_cases old : (k : Int) < i
    · exact h.low k inside old
    · exact asymm _ _ (stopped.above k (by omega) (by omega))
  high k after inside := by
    by_cases old : j < k
    · exact h.high k old inside
    · exact asymm _ _ (stopped.below k (by omega) (by omega))
  moved := by
    obtain ⟨lower, upper, -, -, -, -, above, below⟩ := stopped
    rcases h.moved with ⟨k, low, high, up, down⟩ | ⟨low, high⟩
    · by_cases before : k < m
      · rw [above k low before] at up
        cases up
      · rw [below k (by omega) high] at down
        cases down
    · exact Or.inr ⟨by omega, by omega⟩

/-- The scans have stopped at two elements, which change sides. -/
theorem Split.exchanged {m l : Fin n} (h : Split s p left right i j) (asymm : Asymmetric F)
    (stopped : Stopped s p left right i j m l) (apart : m ≤ l) :
    Split (s ∘ Equiv.swap m l) p left right (m + 1) (l - 1) := by
  obtain ⟨lower, upper, -, -, up, down, above, below⟩ := stopped
  have left_le := h.left_le
  have le_right := h.le_right
  refine ⟨h.front, h.back, by omega, by omega, ?_, ?_, Or.inr ⟨by omega, by omega⟩⟩
  · intro k inside before
    by_cases here : k = m
    · rw [Function.comp_apply, here, Equiv.swap_apply_left]
      exact down
    · have other : k ≠ l := by omega
      rw [Function.comp_apply, Equiv.swap_apply_of_ne_of_ne here other]
      by_cases old : (k : Int) < i
      · exact h.low k inside old
      · exact asymm _ _ (above k (by omega) (by omega))
  · intro k after inside
    by_cases here : k = l
    · rw [Function.comp_apply, here, Equiv.swap_apply_right]
      exact up
    · have other : k ≠ m := by omega
      rw [Function.comp_apply, Equiv.swap_apply_of_ne_of_ne other here]
      by_cases old : j < k
      · exact h.high k old inside
      · exact asymm _ _ (below k (by omega) (by omega))

/-- The loop ends with the range in two parts, and has looked at nothing outside. -/
theorem partitionLoop_splits (asymm : Asymmetric F) (fuel : Nat) (h : Split s p left right i j)
    (enough : j - i + 1 < fuel) (some_fuel : 0 < fuel) :
    ∃ (σ : Equiv.Perm (Fin n)) (i' j' : Int), Within left right σ ∧
      Split (s ∘ σ) p left right i' j' ∧ j' < i' ∧
      ∀ a : Fin n → T, SameOn left right (prob ∘ a) s →
        partitionLoop prob p fuel a i j = some (a ∘ σ, i', j') := by
  induction fuel generalizing s i j with
  | zero => omega
  | succ fuel ih =>
    by_cases meet : i ≤ j
    · obtain ⟨m, l, stopped, run⟩ := h.scans prob meet
      have reach := stopped.lower
      have reach' := stopped.upper
      have lower := h.left_le.trans reach
      have upper := reach'.trans h.le_right
      by_cases apart : m ≤ l
      · have swap : Within left right (Equiv.swap m l) :=
          Within.swap ⟨lower, stopped.le_right⟩ ⟨stopped.left_le, upper⟩
        obtain ⟨σ, i', j', within, split, crossed, later⟩ :=
          ih (h.exchanged asymm stopped apart) (by omega) (by omega)
        refine ⟨Equiv.swap m l * σ, i', j', swap.mul within, split, crossed, ?_⟩
        intro a same
        obtain ⟨up, down⟩ := run a same
        rw [partitionLoop, if_pos meet, up, down]
        have ordered : (m : Int) ≤ l := by omega
        have moved : exchange a (m : Int) (l : Int) = some (a ∘ Equiv.swap m l) := by
          rw [exchange, index_val, index_val]
        simp only [Option.bind_eq_bind, Option.bind_some, if_pos ordered, moved]
        exact later (a ∘ Equiv.swap m l) (same.comp swap)
      · have split := h.met asymm stopped (not_le.mp apart)
        have crossed : ¬(m : Int) ≤ l := by omega
        refine ⟨1, m, l, Within.one, split, by omega, ?_⟩
        intro a same
        obtain ⟨up, down⟩ := run a same
        rw [partitionLoop, if_pos meet, up, down]
        simp only [Option.bind_eq_bind, Option.bind_some, if_neg crossed]
        obtain ⟨fuel, rfl⟩ := Nat.exists_eq_succ_of_ne_zero (by omega : fuel ≠ 0)
        rw [partitionLoop, if_neg crossed]
        rfl
    · refine ⟨1, i, j, Within.one, h, by omega, ?_⟩
      intro a _
      rw [partitionLoop, if_neg meet]
      rfl

end Partition

section Ranges

variable {s : Fin n → F} {left right : Int}

/-- Of two scores that differ, any third one differs from the one or the other. -/
def Ranked (s : Fin n → F) : Prop :=
  ∀ i j k, Scalar.lt (s i) (s k) = true →
    Scalar.lt (s i) (s j) = true ∨ Scalar.lt (s j) (s k) = true

theorem Ranked.comp (h : Ranked s) (σ : Equiv.Perm (Fin n)) : Ranked (s ∘ σ) :=
  fun i j k => h (σ i) (σ j) (σ k)

def Descending (left right : Int) (s : Fin n → F) : Prop :=
  ∀ k l : Fin n, left ≤ k → k < l → (l : Int) ≤ right → Scalar.lt (s k) (s l) = false

/-- Two sorted parts on their sides of a pivot are sorted. -/
theorem descending_of_parts {i j : Int} {p : F}
    (pivot : ∀ k l, Scalar.lt (s k) (s l) = true →
      Scalar.lt (s k) p = true ∨ Scalar.lt p (s l) = true)
    (low : ∀ k : Fin n, left ≤ k → (k : Int) < i → Scalar.lt (s k) p = false)
    (high : ∀ k : Fin n, j < k → (k : Int) ≤ right → Scalar.lt p (s k) = false)
    (first : Descending left j s) (second : Descending i right s) : Descending left right s := by
  intro k l lower before upper
  by_cases inLeft : (l : Int) ≤ j
  · exact first k l lower before inLeft
  · by_cases inRight : i ≤ k
    · exact second k l inRight before upper
    · refine Bool.eq_false_iff.mpr fun below => ?_
      rcases pivot k l below with below | below
      · rw [low k lower (by omega)] at below
        cases below
      · rw [high l (by omega) upper] at below
        cases below

/-- Sorting both parts of a split range sorts the range. -/
theorem Split.descending {i j : Int} {p : F} {σ τ : Equiv.Perm (Fin n)}
    (split : Split s p left right i j) (crossed : j < i)
    (pivot : ∀ k l, Scalar.lt (s k) (s l) = true →
      Scalar.lt (s k) p = true ∨ Scalar.lt p (s l) = true)
    (within : Within left j σ) (within' : Within i right τ)
    (first : Descending left j (s ∘ σ)) (second : Descending i right (s ∘ τ)) :
    Descending left right (s ∘ (σ * τ)) := by
  have atLeft : ∀ k : Fin n, (k : Int) < i → (σ * τ) k = σ k := by
    intro k before
    rw [Equiv.Perm.mul_apply, within' k (Or.inl before)]
  have atRight : ∀ k : Fin n, j < k → (k : Int) ≤ right → (σ * τ) k = τ k := by
    intro k after upper
    rw [within.commute within' crossed, Equiv.Perm.mul_apply, within k (Or.inr after)]
  have lower := split.left_le
  have upper := split.le_right
  refine descending_of_parts (i := i) (j := j) (fun k l => pivot _ _) ?_ ?_ ?_ ?_
  · intro k inside before
    rw [Function.comp_apply, atLeft k before]
    by_cases moved : (k : Int) ≤ j
    · obtain ⟨low, high⟩ := within.inside inside moved
      exact split.low (σ k) low (by omega)
    · rw [within k (by omega)]
      exact split.low k inside before
  · intro k after inside
    rw [Function.comp_apply, atRight k after inside]
    by_cases moved : i ≤ k
    · obtain ⟨low, high⟩ := within'.inside moved inside
      exact split.high (τ k) (by omega) high
    · rw [within' k (by omega)]
      exact split.high k after inside
  · intro k l low before high
    rw [Function.comp_apply, Function.comp_apply, atLeft k (by omega), atLeft l (by omega)]
    exact first k l low before high
  · intro k l low before high
    rw [Function.comp_apply, Function.comp_apply, atRight k (by omega) (by omega),
      atRight l (by omega) high]
    exact second k l low before high

/-- A run on a range does one permutation within it, whatever stands outside and
whichever sections run first, and sorts what can be ranked. -/
theorem qsortRange_rearranges (asymm : Asymmetric F) (fuel : Nat) (front : 0 ≤ left)
    (ordered : left ≤ right) (back : right < n) (enough : right - left < fuel) :
    ∃ σ : Equiv.Perm (Fin n), Within left right σ ∧
      (∀ leftFirst, ∀ a : Fin n → T, SameOn left right (prob ∘ a) s →
        qsortRange prob leftFirst fuel a left right = some (a ∘ σ)) ∧
      (Ranked s → Descending left right (s ∘ σ)) := by
  induction fuel generalizing s left right with
  | zero => omega
  | succ fuel ih =>
    -- A section sorts its range, or there is nothing to sort in it.
    have part : ∀ (s : Fin n → F) (lo hi : Int), 0 ≤ lo → hi < n → hi - lo < fuel →
        ∃ σ : Equiv.Perm (Fin n), Within lo hi σ ∧
          (∀ leftFirst, ∀ a : Fin n → T, SameOn lo hi (prob ∘ a) s →
            (if lo < hi then qsortRange prob leftFirst fuel a lo hi else some a) =
              some (a ∘ σ)) ∧
          (Ranked s → Descending lo hi (s ∘ σ)) := by
      intro s lo hi front back enough
      by_cases wide : lo < hi
      · simp only [if_pos wide]
        exact ih front wide.le back enough
      · simp only [if_neg wide]
        exact ⟨1, Within.one, fun _ _ _ => rfl, fun _ k l low before high => by omega⟩
    have mid : left ≤ (left + right).tdiv 2 ∧ (left + right).tdiv 2 ≤ right := by
      rw [Int.tdiv_eq_ediv_of_nonneg (by omega)]
      omega
    have last : (left + right).tdiv 2 ≤ (⟨right.toNat, by omega⟩ : Fin n) := by
      dsimp only
      omega
    obtain ⟨m, place, found⟩ := index_of_mem (by omega) last
    have here : left ≤ m ∧ (m : Int) ≤ right := by
      rw [place]
      exact mid
    have start : Split s (s m) left right left right :=
      ⟨front, back, le_rfl, le_rfl, fun k low high => by omega, fun k low high => by omega,
        Or.inl ⟨m, here.1, here.2, asymm.irrefl _, asymm.irrefl _⟩⟩
    obtain ⟨τ, i, j, within, split, crossed, partitioned⟩ :=
      partitionLoop_splits prob asymm (n + 1) start (by omega) (by omega)
    obtain ⟨lower, upper⟩ : left < i ∧ j < right := by
      rcases split.moved with ⟨k, low, high, -, -⟩ | moved
      · omega
      · exact moved
    obtain ⟨σ₁, within₁, run₁, sorted₁⟩ := part (s ∘ τ) left j front (by omega) (by omega)
    obtain ⟨σ₂, within₂, run₂, sorted₂⟩ := part (s ∘ τ) i right (by omega) back (by omega)
    refine ⟨τ * (σ₁ * σ₂), within.mul ((within₁.mono le_rfl upper.le).mul
      (within₂.mono lower.le le_rfl)), ?_, ?_⟩
    · intro leftFirst a same
      have pivot : prob (a m) = s m := same m here.1 here.2
      have moved : SameOn left right (prob ∘ (a ∘ τ)) (s ∘ τ) := same.comp within
      have onLeft := moved.mono le_rfl upper.le
      have onRight := moved.mono lower.le le_rfl
      rw [qsortRange, found]
      simp only [Option.bind_eq_bind, Option.bind_some, pivot, partitioned a same]
      split
      · rw [run₁ leftFirst (a ∘ τ) onLeft, Option.bind_some,
          run₂ leftFirst ((a ∘ τ) ∘ σ₁) (onRight.comp_left within₁ (Or.inl crossed))]
        rfl
      · rw [run₂ leftFirst (a ∘ τ) onRight, Option.bind_some,
          run₁ leftFirst ((a ∘ τ) ∘ σ₂) (onLeft.comp_left within₂ (Or.inr crossed)),
          within₁.commute within₂ crossed]
        rfl
    · intro ranked
      exact split.descending crossed (fun k l => ranked _ m _) within₁ within₂
        (sorted₁ (ranked.comp τ)) (sorted₂ (ranked.comp τ))

/-- The vector is rearranged, and sorted where its scores can be ranked. -/
theorem qsort_vector (asymm : Asymmetric F) (a : Fin n → T) :
    ∃ σ : Equiv.Perm (Fin n),
      (∀ leftFirst, qsortDescentInplace prob leftFirst a = some (a ∘ σ)) ∧
      (Ranked (prob ∘ a) → ∀ k l : Fin n, k < l →
        Scalar.lt (prob (a (σ k))) (prob (a (σ l))) = false) := by
  by_cases empty : n = 0
  · refine ⟨1, fun leftFirst => ?_, fun _ k => absurd k.isLt (by omega)⟩
    rw [qsortDescentInplace, if_pos empty]
    rfl
  · obtain ⟨σ, -, run, sorted⟩ := qsortRange_rearranges prob (s := prob ∘ a) asymm n le_rfl
      (by omega : (0 : Int) ≤ n - 1) (by omega) (by omega)
    refine ⟨σ, fun leftFirst => ?_, fun ranked k l before => ?_⟩
    · rw [qsortDescentInplace, if_neg empty]
      exact run leftFirst a fun _ _ _ => rfl
    · exact sorted ranked k l (by omega) before (by omega)

/-- A call of `qsort_descent_inplace` ends. It looks at nothing outside its range and
moves nothing there, so that its sections do not disturb each other; it leaves the
same whichever of them run first, also with NaN among the scores; and without NaN
the range is sorted. -/
theorem qsortRange_sorts (asymm : Asymmetric F) (front : 0 ≤ left) (ordered : left ≤ right)
    (back : right < n) (s : Fin n → F) :
    ∃ σ : Equiv.Perm (Fin n), Within left right σ ∧
      (∀ leftFirst, ∀ a : Fin n → T, SameOn left right (prob ∘ a) s →
        qsortRange prob leftFirst n a left right = some (a ∘ σ)) ∧
      (Ranked s → Descending left right (s ∘ σ)) :=
  qsortRange_rearranges prob asymm n front ordered back (by omega)

theorem asymmetric_rat : Asymmetric ℚ := by
  intro a b lt
  simp only [lt_rat, decide_eq_true_eq, decide_eq_false_iff_not] at lt ⊢
  exact lt.asymm

/-- The last two of three scores. -/
theorem lastTwo_sorted :
    ∃ σ : Equiv.Perm (Fin 3), Within 1 2 σ ∧
      (∀ leftFirst, ∀ a : Fin 3 → ℚ, SameOn 1 2 (id ∘ a) (fun k => (k : Nat)) →
        qsortRange id leftFirst 3 a 1 2 = some (a ∘ σ)) ∧
      (Ranked (fun k : Fin 3 => ((k : Nat) : ℚ)) →
        Descending 1 2 ((fun k : Fin 3 => ((k : Nat) : ℚ)) ∘ σ)) :=
  qsortRange_sorts id asymmetric_rat (by decide) (by decide) (by decide) _

end Ranges

end DetectionSorts
