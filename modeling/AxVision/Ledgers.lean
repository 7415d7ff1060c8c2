import Mathlib.Algebra.BigOperators.Group.List.Basic
import Mathlib.Algebra.GroupWithZero.Nat

/-!
# Weighted totals of a list of records

A ledger gives every record of a list a natural weight. Replacing one record
moves the total by the difference of the two weights, stated without
subtraction. Counting is the case of weights zero and one.
-/

namespace Ledgers

universe u

variable {α : Type u}

def total (w : α → Nat) (l : List α) : Nat := (l.map w).sum

@[simp] theorem total_nil (w : α → Nat) : total w [] = 0 := rfl

@[simp] theorem total_cons (w : α → Nat) (a : α) (l : List α) :
    total w (a :: l) = w a + total w l := by
  simp [total]

@[simp] theorem total_append (w : α → Nat) (l m : List α) :
    total w (l ++ m) = total w l + total w m := by
  simp [total]

theorem total_set (w : α → Nat) {l : List α} {i : Nat} {a : α} (held : l[i]? = some a) (b : α) :
    total w (l.set i b) + w a = total w l + w b := by
  induction l generalizing i with
  | nil => simp at held
  | cons c rest ih =>
    cases i with
    | zero =>
      have hc : c = a := by simpa using held
      subst hc
      simp only [List.set_cons_zero, total_cons]
      omega
    | succ i =>
      have tail := ih (i := i) (by simpa using held)
      simp only [List.set_cons_succ, total_cons]
      omega

theorem total_eraseIdx (w : α → Nat) {l : List α} {i : Nat} {a : α} (held : l[i]? = some a) :
    total w (l.eraseIdx i) + w a = total w l := by
  induction l generalizing i with
  | nil => simp at held
  | cons c rest ih =>
    cases i with
    | zero =>
      have hc : c = a := by simpa using held
      subst hc
      simp only [List.eraseIdx_cons_zero, total_cons]
      omega
    | succ i =>
      have tail := ih (i := i) (by simpa using held)
      simp only [List.eraseIdx_cons_succ, total_cons]
      omega

theorem total_congr {w v : α → Nat} {l : List α} (same : ∀ a ∈ l, w a = v a) :
    total w l = total v l := by
  unfold total
  rw [List.map_congr_left same]

theorem total_add (w v : α → Nat) (l : List α) :
    total (fun a => w a + v a) l = total w l + total v l := by
  induction l with
  | nil => rfl
  | cons a rest ih =>
    simp only [total_cons, ih]
    omega

theorem le_total (w : α → Nat) {l : List α} {a : α} (ha : a ∈ l) : w a ≤ total w l := by
  induction l with
  | nil => cases ha
  | cons c rest ih =>
    rcases List.mem_cons.mp ha with rfl | hrest
    · simp
    · have := ih hrest
      simp only [total_cons]
      omega

theorem total_eq_zero_iff {w : α → Nat} {l : List α} : total w l = 0 ↔ ∀ a ∈ l, w a = 0 := by
  constructor
  · intro zero a ha
    have := le_total w ha
    omega
  · intro all
    rw [total_congr all]
    induction l with
    | nil => rfl
    | cons _ rest ih =>
      simp only [total_cons, Nat.zero_add]
      exact ih fun a ha => all a (List.mem_cons_of_mem _ ha)

theorem exists_of_total_pos {w : α → Nat} {l : List α} (pos : 0 < total w l) :
    ∃ (i : Nat) (a : α), l[i]? = some a ∧ 0 < w a := by
  by_contra none
  have zero : total w l = 0 := by
    apply total_eq_zero_iff.mpr
    intro a ha
    obtain ⟨i, hi⟩ := List.mem_iff_getElem?.mp ha
    by_contra hne
    exact none ⟨i, a, hi, by omega⟩
  omega

end Ledgers
