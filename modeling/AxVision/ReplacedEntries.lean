import Mathlib.Data.List.Perm.Basic
import Mathlib.Algebra.BigOperators.Group.List.Basic
import Mathlib.Algebra.GroupWithZero.Nat

/-!
# Lists with one entry replaced

Threads and calls are kept in lists, and a step replaces one entry.
-/

namespace ReplacedEntries

universe u

variable {α : Type u} {entries : List α} {i : Nat} {old new : α}

theorem lt_of_entry (here : entries[i]? = some old) : i < entries.length :=
  (List.getElem?_eq_some_iff.mp here).1

theorem replaced_self (here : entries[i]? = some old) : (entries.set i new)[i]? = some new :=
  List.getElem?_set_self (lt_of_entry here)

/-- An entry of the new list is the new one or an old one. -/
theorem replaced_cases {j : Nat} {entry : α} (here : entries[i]? = some old)
    (h : (entries.set i new)[j]? = some entry) :
    (j = i ∧ entry = new) ∨ (j ≠ i ∧ entries[j]? = some entry) := by
  by_cases same : j = i
  · subst same
    rw [replaced_self here] at h
    exact Or.inl ⟨rfl, (Option.some.inj h).symm⟩
  · rw [List.getElem?_set_ne (Ne.symm same)] at h
    exact Or.inr ⟨same, h⟩

theorem mem_replaced {entry : α} (h : entry ∈ entries.set i new) : entry ∈ entries ∨ entry = new :=
  List.mem_or_eq_of_mem_set h

theorem countP_replaced (p : α → Bool) (here : entries[i]? = some old) :
    (entries.set i new).countP p + (if p old then 1 else 0) =
      entries.countP p + if p new then 1 else 0 := by
  have bound := lt_of_entry here
  have entry : entries[i] = old := (List.getElem?_eq_some_iff.mp here).2
  rw [List.countP_set bound, entry]
  by_cases counted : p old = true
  · have positive : 0 < entries.countP p :=
      List.countP_pos_iff.mpr ⟨old, List.mem_of_getElem? here, counted⟩
    simp only [counted, if_true]
    omega
  · simp [counted]

theorem countP_replaced_same {p : α → Bool} (here : entries[i]? = some old)
    (same : p new = p old) : (entries.set i new).countP p = entries.countP p := by
  have count : (entries.set i new).countP p + (if p old then 1 else 0) =
      entries.countP p + if p new then 1 else 0 := countP_replaced p here
  rw [same] at count
  omega

theorem countP_replaced_more {p : α → Bool} (here : entries[i]? = some old)
    (before : p old = false) (after : p new = true) :
    (entries.set i new).countP p = entries.countP p + 1 := by
  have count : (entries.set i new).countP p + (if p old then 1 else 0) =
      entries.countP p + if p new then 1 else 0 := countP_replaced p here
  rw [before, after] at count
  simpa using count

theorem countP_replaced_less {p : α → Bool} (here : entries[i]? = some old)
    (before : p old = true) (after : p new = false) :
    (entries.set i new).countP p + 1 = entries.countP p := by
  have count : (entries.set i new).countP p + (if p old then 1 else 0) =
      entries.countP p + if p new then 1 else 0 := countP_replaced p here
  rw [before, after] at count
  simpa using count

/-- The two lists differ by the two entries. -/
theorem replaced_perm (new : α) (here : entries[i]? = some old) :
    (old :: entries.set i new).Perm (new :: entries) := by
  have bound := lt_of_entry here
  have entry : entries[i] = old := (List.getElem?_eq_some_iff.mp here).2
  have before : (old :: entries.eraseIdx i).Perm entries :=
    entry ▸ List.getElem_cons_eraseIdx_perm bound
  have after : (entries.set i new).Perm (new :: entries.eraseIdx i) :=
    List.set_perm_cons_eraseIdx bound new
  exact (after.cons old).trans ((List.Perm.swap new old _).trans (before.cons new))

theorem sum_replaced (weight : α → Nat) (new : α) (here : entries[i]? = some old) :
    weight old + ((entries.set i new).map weight).sum =
      weight new + (entries.map weight).sum := by
  have same := ((replaced_perm new here).map weight).sum_nat
  simpa only [List.map_cons, List.sum_cons] using same

theorem appended_old {last : α} (here : entries[i]? = some old) :
    (entries ++ [last])[i]? = some old :=
  (List.getElem?_append_left (lt_of_entry here)).trans here

theorem appended_cases {last entry : α} (h : (entries ++ [last])[i]? = some entry) :
    entries[i]? = some entry ∨ (i = entries.length ∧ entry = last) := by
  have bound := lt_of_entry h
  rw [List.length_append, List.length_singleton] at bound
  rw [List.getElem?_append] at h
  split at h
  · exact Or.inl h
  · exact Or.inr ⟨by omega, List.mem_singleton.mp (List.mem_of_getElem? h)⟩

/-- An entry other than the replaced one is where it was. -/
theorem replaced_other {j : Nat} {entry : α} (here : entries[i]? = some old)
    (there : entries[j]? = some entry) (other : entry ≠ old) :
    (entries.set i new)[j]? = some entry := by
  have apart : i ≠ j := by
    rintro rfl
    exact other (Option.some.inj (there.symm.trans here))
  exact (List.getElem?_set_ne apart).trans there

theorem mem_replaced_other {entry : α} (here : entries[i]? = some old) (mem : entry ∈ entries)
    (other : entry ≠ old) : entry ∈ entries.set i new := by
  obtain ⟨j, there⟩ := List.mem_iff_getElem?.mp mem
  exact List.mem_of_getElem? (replaced_other here there other)

end ReplacedEntries
