import Mathlib.Data.List.Basic

/-!
# Texts as lines

`getlines` splits a text as `std::getline` does until it fails: a break ends a
line, and behind the last break there is a line only if there is text.
-/

namespace TextLines

def getlines : List Char → List (List Char)
  | [] => []
  | c :: rest =>
    if c = '\n' then [] :: getlines rest
    else
      match getlines rest with
      | [] => [[c]]
      | line :: more => (c :: line) :: more

/-- Lines, each with its break. -/
def unlines (lines : List (List Char)) : List Char := lines.flatMap fun line => line ++ ['\n']

variable {line : List Char} {lines : List (List Char)}

@[simp] theorem unlines_cons (line : List Char) (lines : List (List Char)) :
    unlines (line :: lines) = line ++ '\n' :: unlines lines := by
  rw [unlines, List.flatMap_cons, List.append_assoc]
  rfl

theorem getlines_line (unbroken : '\n' ∉ line) (rest : List Char) :
    getlines (line ++ '\n' :: rest) = line :: getlines rest := by
  induction line with
  | nil => rw [List.nil_append, getlines, if_pos rfl]
  | cons c line ih =>
    rw [List.mem_cons, not_or] at unbroken
    rw [List.cons_append, getlines, if_neg (Ne.symm unbroken.1), ih unbroken.2]

/-- Lines without a break inside are read back. -/
theorem getlines_unlines (unbroken : ∀ line ∈ lines, '\n' ∉ line) :
    getlines (unlines lines) = lines := by
  induction lines with
  | nil => rfl
  | cons line lines ih =>
    rw [unlines_cons, getlines_line (unbroken line List.mem_cons_self),
      ih fun other mem => unbroken other (List.mem_cons_of_mem _ mem)]

end TextLines
