import Mathlib.GroupTheory.Perm.Support

/-!
# Permutations within a range

Permutations of the positions of an array that move nothing outside a range of
positions. Ranges are closed and their ends are integers, so that an empty range
at the front has an end.
-/

namespace RangePermutations

universe u

variable {n : Nat} {left right lo hi : Int} {σ τ : Equiv.Perm (Fin n)} {α : Type u}

def Within (left right : Int) (σ : Equiv.Perm (Fin n)) : Prop :=
  ∀ k : Fin n, (k : Int) < left ∨ right < k → σ k = k

theorem Within.one : Within left right (1 : Equiv.Perm (Fin n)) := fun _ _ => rfl

theorem Within.mul (h : Within left right σ) (h' : Within left right τ) :
    Within left right (σ * τ) := by
  intro k outside
  rw [Equiv.Perm.mul_apply, h' k outside, h k outside]

theorem Within.mono (h : Within lo hi σ) (lower : left ≤ lo) (upper : hi ≤ right) :
    Within left right σ := by
  intro k outside
  exact h k (by omega)

theorem Within.swap {i j : Fin n} (hi : left ≤ i ∧ (i : Int) ≤ right)
    (hj : left ≤ j ∧ (j : Int) ≤ right) : Within left right (Equiv.swap i j) := by
  intro k outside
  refine Equiv.swap_apply_of_ne_of_ne ?_ ?_
  · rintro rfl
    omega
  · rintro rfl
    omega

/-- What is in the range stays in the range. -/
theorem Within.inside (h : Within left right σ) {k : Fin n} (lower : left ≤ k)
    (upper : (k : Int) ≤ right) : left ≤ σ k ∧ (σ k : Int) ≤ right := by
  by_contra outside
  have fixed := σ.injective (h (σ k) (by omega))
  rw [fixed] at outside
  exact outside ⟨lower, upper⟩

/-- Permutations within ranges that do not meet can be done in any order. -/
theorem Within.commute (h : Within left hi σ) (h' : Within lo right τ) (apart : hi < lo) :
    σ * τ = τ * σ := by
  have disjoint : Equiv.Perm.Disjoint σ τ := by
    intro k
    by_cases inside : (k : Int) ≤ hi
    · exact Or.inr (h' k (by omega))
    · exact Or.inl (h k (by omega))
  exact disjoint.commute

/-- Two arrays hold the same in a range. -/
def SameOn (left right : Int) (a b : Fin n → α) : Prop :=
  ∀ k : Fin n, left ≤ k → (k : Int) ≤ right → a k = b k

theorem SameOn.mono {a b : Fin n → α} (h : SameOn left right a b) (lower : left ≤ lo)
    (upper : hi ≤ right) : SameOn lo hi a b :=
  fun k low high => h k (by omega) (by omega)

theorem SameOn.comp {a b : Fin n → α} (h : SameOn left right a b) (within : Within left right σ) :
    SameOn left right (a ∘ σ) (b ∘ σ) := by
  intro k lower upper
  obtain ⟨lower, upper⟩ := within.inside lower upper
  exact h (σ k) lower upper

/-- A permutation within another range leaves the range alone. -/
theorem SameOn.comp_left {a b : Fin n → α} (h : SameOn left right a b) (within : Within lo hi σ)
    (apart : hi < left ∨ right < lo) : SameOn left right (a ∘ σ) b := by
  intro k lower upper
  rw [Function.comp_apply, within k (by omega)]
  exact h k lower upper

end RangePermutations
