import Mathlib.Data.List.Basic

/-!
# Paths as names

A path is split at its slashes. The operations look at the names only and never
at a file system: joining, the absolute path from a working directory, the
normal form without dots, and the parent.
-/

namespace LexicalPaths

/-- Whether a path starts at the root, and its names. An empty last name stands
for a slash at the end. -/
structure Path where
  rooted : Bool
  parts : List String
  deriving DecidableEq, Repr

namespace Path

def ofString (text : String) : Path :=
  let pieces := text.toList.splitOn '/'
  let names := pieces.filter (· ≠ [])
  let closed := names ≠ [] ∧ pieces.getLast? = some []
  ⟨text.toList.head? = some '/', names.map String.ofList ++ if closed then [""] else []⟩

def toString (p : Path) : String :=
  (if p.rooted then "/" else "") ++ "/".intercalate p.parts

def isEmpty (p : Path) : Bool := !p.rooted && p.parts.isEmpty

/-- `base / p`. -/
def append (base p : Path) : Path :=
  if p.rooted then p
  else if base.parts.isEmpty then ⟨base.rooted, p.parts⟩
  else
    let stem := base.parts.filter (· ≠ "")
    ⟨base.rooted, stem ++ if p.parts.isEmpty then [""] else p.parts⟩

/-- The absolute path, which an empty path does not have. -/
def absolute (current p : Path) : Option Path :=
  if p.isEmpty then none else if p.rooted then some p else some (append current p)

/-- One name in front of the names so far, the last one first. -/
def enter (rooted : Bool) (stack : List String) (name : String) : List String :=
  if name = "" ∨ name = "." then stack
  else if name = ".." then
    match stack with
    | [] => if rooted then [] else [".."]
    | last :: rest => if last = ".." then ".." :: last :: rest else rest
  else name :: stack

def lexicallyNormal (p : Path) : Path :=
  if p.isEmpty then p
  else
    let stack := p.parts.foldl (enter p.rooted) []
    let closed := p.parts.getLast? ∈ [some "", some ".", some ".."] ∧ stack.head? ≠ some ".."
    ⟨p.rooted,
      if stack.isEmpty then if p.rooted then [] else ["."]
      else stack.reverse ++ if closed then [""] else []⟩

def parentPath (p : Path) : Path := ⟨p.rooted, p.parts.dropLast⟩

example : (ofString "a/./b//../c/").lexicallyNormal = ofString "a/c/" := by decide

example : (ofString "/x/../../y").lexicallyNormal.parentPath.toString = "/" := by decide

section Rooted

variable {base current p : Path}

theorem append_rooted (rooted : base.rooted = true) : (append base p).rooted = true := by
  unfold append
  split
  · assumption
  · split
    · exact rooted
    · exact rooted

theorem rooted_not_empty (rooted : p.rooted = true) : p.isEmpty = false := by
  rw [isEmpty, rooted]
  rfl

/-- From the root every path that is not empty has an absolute path. -/
theorem absolute_rooted (rooted : current.rooted = true) (some_path : p.isEmpty = false) :
    ∃ q, absolute current p = some q ∧ q.rooted = true := by
  rw [absolute, some_path, if_neg Bool.false_ne_true]
  split
  · exact ⟨p, rfl, ‹p.rooted = true›⟩
  · exact ⟨append current p, rfl, append_rooted rooted⟩

@[simp] theorem lexicallyNormal_rooted (p : Path) : p.lexicallyNormal.rooted = p.rooted := by
  unfold lexicallyNormal
  split
  · rfl
  · rfl

@[simp] theorem parentPath_rooted (p : Path) : p.parentPath.rooted = p.rooted := rfl

theorem toString_ne (rooted : p.rooted = true) : p.toString ≠ "" := by
  rw [toString, rooted, if_pos rfl]
  intro same
  have letters := congrArg String.toList same
  simp at letters

/-- Only an empty text is an empty path. -/
theorem ofString_not_empty {text : String} (some_text : text ≠ "") :
    (ofString text).isEmpty = false := by
  cases letters : text.toList with
  | nil => exact absurd (String.toList_eq_nil_iff.mp letters) some_text
  | cons c rest =>
    by_cases slash : c = '/'
    · apply rooted_not_empty
      rw [ofString, letters, slash]
      rfl
    · obtain ⟨first, later, split⟩ := List.exists_cons_of_ne_nil (List.splitOn_ne_nil '/' rest)
      have pieces : (c :: rest).splitOn '/' = (c :: first) :: later := by
        rw [List.splitOn_eq_splitOnP] at split ⊢
        rw [List.splitOnP_cons_eq_if_modifyHead, if_neg (by simpa using slash), split]
        rfl
      simp [isEmpty, ofString, letters, pieces]

end Rooted

end Path

end LexicalPaths
