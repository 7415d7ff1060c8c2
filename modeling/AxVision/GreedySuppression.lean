import Mathlib.Data.List.Infix
import Mathlib.Data.List.Pairwise

/-!
# Greedy suppression

An order of candidates is walked once, and a candidate is kept unless one that
was kept before hits it. The kept ones do not hit each other in order, every
other one is hit by a kept one before it, and taking a dropped candidate out of
the order changes nothing.
-/

namespace GreedySuppression

universe u v

variable {α : Type u} {β : Type v}

/-- What is kept behind `kept`, walking an order. -/
def survivors (hits : α → α → Bool) (kept : List α) : List α → List α
  | [] => kept
  | a :: rest =>
    if kept.any fun k => hits k a then survivors hits kept rest
    else survivors hits (kept ++ [a]) rest

variable {hits : α → α → Bool} {kept order front back : List α} {a : α}

theorem survivors_cons (hits : α → α → Bool) (kept : List α) (a : α) (rest : List α) :
    survivors hits kept (a :: rest) =
      if kept.any fun k => hits k a then survivors hits kept rest
      else survivors hits (kept ++ [a]) rest :=
  rfl

theorem survivors_hit (hit : (kept.any fun k => hits k a) = true) (rest : List α) :
    survivors hits kept (a :: rest) = survivors hits kept rest := by
  rw [survivors_cons, if_pos hit]

theorem survivors_free (free : (kept.any fun k => hits k a) = false) (rest : List α) :
    survivors hits kept (a :: rest) = survivors hits (kept ++ [a]) rest := by
  rw [survivors_cons, free, if_neg Bool.false_ne_true]

theorem survivors_extend (hits : α → α → Bool) (kept order : List α) :
    kept <+: survivors hits kept order := by
  induction order generalizing kept with
  | nil => exact List.prefix_rfl
  | cons a rest ih =>
    rw [survivors_cons]
    split
    · exact ih kept
    · exact (List.prefix_append kept [a]).trans (ih _)

theorem survivors_sublist (hits : α → α → Bool) (kept order : List α) :
    (survivors hits kept order).Sublist (kept ++ order) := by
  induction order generalizing kept with
  | nil =>
    rw [List.append_nil]
    exact List.Sublist.refl kept
  | cons a rest ih =>
    rw [survivors_cons]
    split
    · exact (ih kept).trans ((List.sublist_cons_self a rest).append_left kept)
    · have step := ih (kept ++ [a])
      rwa [← List.append_cons] at step

/-- No kept candidate hits a later one. -/
theorem survivors_apart (apart : kept.Pairwise fun a b => hits a b = false) (order : List α) :
    (survivors hits kept order).Pairwise fun a b => hits a b = false := by
  induction order generalizing kept with
  | nil => exact apart
  | cons a rest ih =>
    rw [survivors_cons]
    split
    · exact ih apart
    · rename_i free
      rw [List.any_eq_true, not_exists] at free
      refine ih (List.pairwise_append.mpr ⟨apart, List.pairwise_singleton _ _, ?_⟩)
      intro k mem b single
      rw [List.mem_singleton.mp single]
      exact Bool.eq_false_iff.mpr fun hit => free k ⟨mem, hit⟩

/-- A dropped candidate is hit by a kept one before it. -/
theorem survivors_cover {R : α → α → Prop} (ordered : (kept ++ order).Pairwise R) (mem : a ∈ order)
    (dropped : a ∉ survivors hits kept order) :
    ∃ k ∈ survivors hits kept order, hits k a = true ∧ R k a := by
  induction order generalizing kept with
  | nil => cases mem
  | cons b rest ih =>
    obtain hit | free := Bool.eq_false_or_eq_true (kept.any fun k => hits k b)
    · rw [survivors_hit hit] at dropped ⊢
      obtain rfl | later := List.mem_cons.mp mem
      · obtain ⟨k, here, hit⟩ := List.any_eq_true.mp hit
        refine ⟨k, (survivors_extend hits kept rest).subset here, hit, ?_⟩
        exact (List.pairwise_append.mp ordered).2.2 k here a List.mem_cons_self
      · refine ih (ordered.sublist ?_) later dropped
        exact (List.sublist_cons_self b rest).append_left kept
    · rw [survivors_free free] at dropped ⊢
      obtain rfl | later := List.mem_cons.mp mem
      · refine absurd ((survivors_extend hits _ rest).subset ?_) dropped
        exact List.mem_append_right _ (List.mem_singleton_self a)
      · rw [List.append_cons] at ordered
        exact ih ordered later dropped

theorem survivors_append (hits : α → α → Bool) (kept front back : List α) :
    survivors hits kept (front ++ back) = survivors hits (survivors hits kept front) back := by
  induction front generalizing kept with
  | nil => rfl
  | cons a rest ih =>
    rw [List.cons_append, survivors_cons, survivors_cons]
    split
    · exact ih kept
    · exact ih _

/-- A dropped candidate may as well be left out. -/
theorem survivors_without (dropped : a ∉ survivors hits kept (front ++ a :: back)) :
    survivors hits kept (front ++ a :: back) = survivors hits kept (front ++ back) := by
  rw [survivors_append] at dropped ⊢
  rw [survivors_append]
  obtain hit | free := Bool.eq_false_or_eq_true ((survivors hits kept front).any fun k => hits k a)
  · rw [survivors_hit hit]
  · rw [survivors_free free] at dropped
    refine absurd ((survivors_extend hits _ back).subset ?_) dropped
    exact List.mem_append_right _ (List.mem_singleton_self a)

theorem survivors_map (hits : β → β → Bool) (f : α → β) (kept order : List α) :
    survivors hits (kept.map f) (order.map f) =
      (survivors (fun a b => hits (f a) (f b)) kept order).map f := by
  induction order generalizing kept with
  | nil => rfl
  | cons a rest ih =>
    rw [List.map_cons, survivors_cons, survivors_cons, List.any_map, ih, ← List.map_singleton (f := f),
      ← List.map_append, ih, apply_ite (List.map f)]
    rfl

end GreedySuppression
