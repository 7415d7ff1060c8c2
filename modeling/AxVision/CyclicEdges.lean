import Mathlib.Data.List.Nodup
import Mathlib.Data.List.Rotate
import Mathlib.Data.List.Zip

/-!
# The edges of a closed walk

A list is read as a cycle: each element is joined to the next one and the last
to the first. Rotation permutes the edges and reversal turns them around.
-/

namespace CyclicEdges

universe u

variable {α : Type u}

/-- Each element with the one behind it. -/
def edges (l : List α) : List (α × α) := l.zip (l.rotate 1)

theorem edges_fst (l : List α) : (edges l).map Prod.fst = l := by
  rw [edges, List.map_fst_zip]
  exact (List.length_rotate l 1).ge

theorem edges_snd (l : List α) : (edges l).map Prod.snd = l.rotate 1 := by
  rw [edges, List.map_snd_zip]
  exact (List.length_rotate l 1).le

theorem edges_rotate (l : List α) (n : Nat) : edges (l.rotate n) = (edges l).rotate n := by
  have turned : (l.rotate n).rotate 1 = (l.rotate 1).rotate n := by
    rw [List.rotate_rotate, List.rotate_rotate, Nat.add_comm]
  rw [edges, edges, turned]
  exact (List.zipWith_rotate_distrib Prod.mk l (l.rotate 1) n (List.length_rotate l 1).symm).symm

theorem edges_rotate_perm (l : List α) (n : Nat) : (edges (l.rotate n)).Perm (edges l) := by
  rw [edges_rotate]
  exact List.rotate_perm _ _

/-- The edges of a list that is read backwards. -/
theorem edges_reverse_perm (l : List α) : (edges l.reverse).Perm ((edges l).map Prod.swap) := by
  -- the list one step back, whose rotation it is
  obtain ⟨m, rfl⟩ : ∃ m : List α, l = m.rotate 1 := by
    obtain rfl | some := Nat.eq_zero_or_pos l.length |>.imp_left List.eq_nil_of_length_eq_zero
    · exact ⟨[], rfl⟩
    · refine ⟨l.rotate (l.length - 1), ?_⟩
      rw [List.rotate_rotate, Nat.sub_add_cancel some, List.rotate_length]
  have back : (m.rotate 1).reverse.rotate 1 = m.reverse := by
    cases m with
    | nil => rfl
    | cons x rest =>
      rw [List.rotate_cons_succ, List.rotate_zero, List.reverse_append, List.reverse_singleton,
        List.singleton_append, List.rotate_cons_succ, List.rotate_zero, List.reverse_cons]
  have turned : (edges (m.rotate 1).reverse).Perm ((m.rotate 1).zip m) := by
    rw [edges, back, List.zip, ← List.reverse_zipWith (List.length_rotate m 1)]
    exact List.reverse_perm _
  have swapped : ((m.rotate 1).zip m).Perm ((edges (m.rotate 1)).map Prod.swap) := by
    rw [← List.zip_swap]
    exact ((edges_rotate_perm m 1).map Prod.swap).symm
  exact turned.trans swapped

section Membership

variable {l : List α} {a b c d : α} {e : α × α}

theorem mem_of_edge (h : e ∈ edges l) : e.1 ∈ l ∧ e.2 ∈ l := by
  obtain ⟨first, second⟩ := List.of_mem_zip h
  exact ⟨first, List.mem_rotate.mp second⟩

theorem exists_next (h : a ∈ l) : ∃ b, (a, b) ∈ edges l := by
  rw [← edges_fst l] at h
  obtain ⟨e, mem, rfl⟩ := List.mem_map.mp h
  exact ⟨e.2, mem⟩

theorem exists_previous (h : a ∈ l) : ∃ b, (b, a) ∈ edges l := by
  rw [← List.mem_rotate (n := 1), ← edges_snd l] at h
  obtain ⟨e, mem, rfl⟩ := List.mem_map.mp h
  exact ⟨e.1, mem⟩

theorem edges_nodup (distinct : l.Nodup) : (edges l).Nodup := by
  apply List.Nodup.of_map Prod.fst
  rwa [edges_fst]

/-- In a cycle without repetitions the next element is one. -/
theorem next_unique (distinct : l.Nodup) (first : (a, b) ∈ edges l) (second : (a, c) ∈ edges l) :
    b = c := by
  rw [← edges_fst l] at distinct
  exact congrArg Prod.snd (List.inj_on_of_nodup_map distinct first second rfl)

theorem previous_unique (distinct : l.Nodup) (first : (b, a) ∈ edges l)
    (second : (c, a) ∈ edges l) : b = c := by
  rw [← List.nodup_rotate (n := 1), ← edges_snd l] at distinct
  exact congrArg Prod.fst (List.inj_on_of_nodup_map distinct first second rfl)

end Membership

section Counts

/-- At most one element of a list without repetitions has a property. -/
theorem countP_unique [DecidableEq α] {l : List α} {a : α} {q : α → Bool} (distinct : l.Nodup)
    (mem : a ∈ l) (only : ∀ b ∈ l, q b = true → b = a) : l.countP q = if q a then 1 else 0 := by
  split
  · rename_i holds
    rw [← List.count_eq_one_of_mem distinct mem, List.count]
    apply List.countP_congr
    intro b hb
    rw [beq_iff_eq]
    exact ⟨only b hb, fun same => same ▸ holds⟩
  · rename_i fails
    apply List.countP_eq_zero.mpr
    intro b hb holds
    exact fails (only b hb holds ▸ holds)

/-- What has one of two properties that exclude each other is counted with it. -/
theorem countP_split {l : List α} {q first second : α → Bool}
    (one : ∀ a, (q a).toNat = (first a).toNat + (second a).toNat) :
    l.countP q = l.countP first + l.countP second := by
  have toNat_eq (x : Bool) : (if x = true then 1 else 0) = x.toNat := by cases x <;> rfl
  induction l with
  | nil => rfl
  | cons a rest ih =>
    simp only [List.countP_cons, toNat_eq, one a, ih]
    omega

end Counts

section Sides

variable (side : α → Bool)

/-- The edge leads from outside a set into it. -/
def enters (e : α × α) : Bool := !side e.1 && side e.2

def leaves (e : α × α) : Bool := side e.1 && !side e.2

theorem balance (walk : List (α × α)) :
    walk.countP (enters side) + walk.countP (fun e => side e.1) =
      walk.countP (leaves side) + walk.countP fun e => side e.2 := by
  induction walk with
  | nil => rfl
  | cons e rest ih =>
    have one : (if enters side e then 1 else 0) + (if side e.1 then 1 else 0) =
        (if leaves side e then 1 else 0) + if side e.2 then 1 else 0 := by
      unfold enters leaves
      by_cases first : side e.1 = true <;> by_cases second : side e.2 = true <;>
        simp [first, second]
    simp only [List.countP_cons]
    omega

/-- A cycle enters a set as often as it leaves it. -/
theorem enters_eq_leaves (l : List α) :
    (edges l).countP (enters side) = (edges l).countP (leaves side) := by
  have starts : (edges l).countP (fun e => side e.1) = l.countP side := by
    rw [← Function.comp_def side Prod.fst, ← List.countP_map, edges_fst]
  have ends : (edges l).countP (fun e => side e.2) = l.countP side := by
    rw [← Function.comp_def side Prod.snd, ← List.countP_map, edges_snd]
    exact (List.rotate_perm l 1).countP_eq side
  have := balance side (edges l)
  omega

end Sides

end CyclicEdges
