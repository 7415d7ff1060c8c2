import Mathlib.Data.List.Infix

/-!
# Searching a text for a pattern

`find` gives the first position, from a given one on, where a pattern starts,
as `std::string::find` does.
-/

namespace TextSearch

universe u

variable {α : Type u} [DecidableEq α]

/-- The first position of the pattern in a text that starts at `i`. -/
def findFrom (pat : List α) : List α → Nat → Option Nat
  | [], i => if pat.isPrefixOf [] then some i else none
  | c :: rest, i => if pat.isPrefixOf (c :: rest) then some i else findFrom pat rest (i + 1)

def find (pat text : List α) (pos : Nat) : Option Nat :=
  if text.length < pos then none else findFrom pat (text.drop pos) pos

section Positions

variable {pat text before behind : List α} {i k pos : Nat}

theorem findFrom_nil (pat : List α) (i : Nat) :
    findFrom pat [] i = if pat.isPrefixOf [] then some i else none :=
  rfl

theorem findFrom_cons (pat : List α) (c : α) (rest : List α) (i : Nat) :
    findFrom pat (c :: rest) i =
      if pat.isPrefixOf (c :: rest) then some i else findFrom pat rest (i + 1) :=
  rfl

theorem findFrom_spec (found : findFrom pat text i = some k) :
    ∃ before behind, text = before ++ pat ++ behind ∧ k = i + before.length := by
  induction text generalizing i with
  | nil =>
    rw [findFrom_nil] at found
    split at found
    · rename_i starts
      obtain ⟨behind, same⟩ := List.isPrefixOf_iff_prefix.mp starts
      exact ⟨[], behind, same.symm, (Option.some.inj found).symm⟩
    · cases found
  | cons c rest ih =>
    rw [findFrom_cons] at found
    split at found
    · rename_i starts
      obtain ⟨behind, same⟩ := List.isPrefixOf_iff_prefix.mp starts
      exact ⟨[], behind, same.symm, (Option.some.inj found).symm⟩
    · obtain ⟨before, behind, rfl, rfl⟩ := ih found
      refine ⟨c :: before, behind, rfl, ?_⟩
      rw [List.length_cons]
      omega

/-- What is found is in the text, at the position or behind it. -/
theorem find_le (found : find pat text pos = some k) : pos ≤ k ∧ k + pat.length ≤ text.length := by
  rw [find] at found
  split at found
  · cases found
  · rename_i inside
    obtain ⟨before, behind, same, rfl⟩ := findFrom_spec found
    have length := congrArg List.length same
    simp only [List.length_drop, List.length_append] at length
    omega

theorem findFrom_none (absent : ¬pat <:+: text) (i : Nat) : findFrom pat text i = none := by
  induction text generalizing i with
  | nil =>
    rw [findFrom_nil, if_neg]
    exact fun starts => absent (List.isPrefixOf_iff_prefix.mp starts).isInfix
  | cons c rest ih =>
    rw [findFrom_cons, if_neg fun starts => absent (List.isPrefixOf_iff_prefix.mp starts).isInfix]
    exact ih (fun inside => absent (inside.trans (List.suffix_cons c rest).isInfix)) _

/-- A pattern that is in the text is found. -/
theorem findFrom_isSome (here : pat <:+: text) (i : Nat) : (findFrom pat text i).isSome := by
  induction text generalizing i with
  | nil =>
    rw [List.infix_nil.mp here]
    rfl
  | cons c rest ih =>
    rw [findFrom_cons]
    split
    · rfl
    · rename_i later
      obtain starts | inside := List.infix_cons_iff.mp here
      · exact absurd (List.isPrefixOf_iff_prefix.mpr starts) later
      · exact ih inside _

/-- The first place of a pattern is behind a text in which it does not start. -/
theorem findFrom_first (absent : ¬pat <:+: before ++ pat.dropLast) (behind : List α) (i : Nat) :
    findFrom pat (before ++ (pat ++ behind)) i = some (i + before.length) := by
  induction before generalizing i with
  | nil =>
    have starts : pat.isPrefixOf (pat ++ behind) = true :=
      List.isPrefixOf_iff_prefix.mpr (List.prefix_append _ _)
    cases whole : pat ++ behind with
    | nil =>
      rw [whole] at starts
      rw [List.nil_append, findFrom_nil, if_pos starts]
      rfl
    | cons c rest =>
      rw [whole] at starts
      rw [List.nil_append, findFrom_cons, if_pos starts]
      rfl
  | cons c rest ih =>
    have later : ¬pat.isPrefixOf (c :: rest ++ (pat ++ behind)) = true := by
      intro starts
      have front : c :: rest ++ pat.dropLast <+: c :: rest ++ (pat ++ behind) := by
        rw [List.prefix_append_right_inj]
        exact (List.dropLast_prefix pat).trans (List.prefix_append _ _)
      have starts := List.isPrefixOf_iff_prefix.mp starts
      refine absent (List.prefix_of_prefix_length_le starts front ?_).isInfix
      simp only [List.length_append, List.length_cons, List.length_dropLast]
      omega
    have further : ¬pat <:+: rest ++ pat.dropLast :=
      fun inside => absent (inside.trans (List.suffix_cons c _).isInfix)
    rw [List.cons_append] at later ⊢
    rw [findFrom_cons, if_neg later, ih further, List.length_cons]
    congr 1
    omega

theorem find_first (absent : ¬pat <:+: before ++ pat.dropLast) (front behind : List α) :
    find pat (front ++ (before ++ (pat ++ behind))) front.length =
      some (front.length + before.length) := by
  rw [find, if_neg (by simp), List.drop_left, findFrom_first absent]

/-- The first place of a character. -/
theorem find_mark {mark : α} (absent : mark ∉ before) (behind : List α) :
    find [mark] (before ++ ([mark] ++ behind)) 0 = some before.length := by
  have none : ¬[mark] <:+: before ++ List.dropLast [mark] := by
    intro inside
    have mem := inside.subset (List.mem_singleton_self mark)
    rw [List.dropLast_singleton, List.append_nil] at mem
    exact absent mem
  have found := find_first none [] behind
  rwa [List.nil_append, List.length_nil, Nat.zero_add] at found

omit [DecidableEq α] in
theorem drop_past (before pat behind : List α) :
    (before ++ (pat ++ behind)).drop (before.length + pat.length) = behind := by
  rw [← List.append_assoc, List.drop_left' List.length_append]

theorem find_none (absent : ¬pat <:+: text) (front : List α) :
    find pat (front ++ text) front.length = none := by
  rw [find, if_neg (by simp), List.drop_left, findFrom_none absent]

/-- What is found starts nowhere before. -/
theorem findFrom_least (some_char : pat ≠ []) (found : findFrom pat text i = some k) :
    ∃ before behind, text = before ++ (pat ++ behind) ∧ ¬pat <:+: before ++ pat.dropLast := by
  have short : ¬pat <:+: [] ++ pat.dropLast := by
    intro inside
    have length := inside.length_le
    have := List.length_pos_of_ne_nil some_char
    simp only [List.nil_append, List.length_dropLast] at length
    omega
  induction text generalizing i with
  | nil =>
    rw [findFrom_nil] at found
    split at found
    · rename_i starts
      obtain ⟨behind, same⟩ := List.isPrefixOf_iff_prefix.mp starts
      exact ⟨[], behind, same.symm, short⟩
    · cases found
  | cons c rest ih =>
    rw [findFrom_cons] at found
    split at found
    · rename_i starts
      obtain ⟨behind, same⟩ := List.isPrefixOf_iff_prefix.mp starts
      exact ⟨[], behind, same.symm, short⟩
    · rename_i later
      obtain ⟨before, behind, rfl, absent⟩ := ih found
      refine ⟨c :: before, behind, rfl, fun inside => ?_⟩
      have front : c :: before ++ pat.dropLast <+: c :: before ++ (pat ++ behind) := by
        rw [List.prefix_append_right_inj]
        exact (List.dropLast_prefix pat).trans (List.prefix_append _ _)
      obtain starts | further := List.infix_cons_iff.mp inside
      · exact later (List.isPrefixOf_iff_prefix.mpr (starts.trans front))
      · exact absent further

/-- A text has a pattern nowhere, or a first one. -/
theorem first_or_none (some_char : pat ≠ []) (text : List α) :
    ¬pat <:+: text ∨
      ∃ before behind, text = before ++ (pat ++ behind) ∧ ¬pat <:+: before ++ pat.dropLast := by
  by_cases here : pat <:+: text
  · obtain ⟨k, found⟩ := Option.isSome_iff_exists.mp (findFrom_isSome here 0)
    exact Or.inr (findFrom_least some_char found)
  · exact Or.inl here

end Positions

end TextSearch
