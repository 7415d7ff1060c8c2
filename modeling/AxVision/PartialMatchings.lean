import AxVision.KeyedTables
import Mathlib.Algebra.Module.BigOperators
import Mathlib.Algebra.Order.BigOperators.Group.Finset
import Mathlib.Data.Fintype.BigOperators
import Mathlib.Data.Fintype.EquivFin
import Mathlib.Data.PEquiv
import Mathlib.Order.Preorder.Finite

/-!
# Partial matchings and square assignments

A partial matching of rows and columns costs the sum of the entries it picks.
Bordered by a fill for every row and every column that goes without a partner,
it becomes a permutation of a square: a least permutation of the bordered
square is a least matching, where every entry is charged against two fills.
-/

namespace PartialMatchings

universe u v w

variable {α : Type u} {β : Type v} {M : Type w}

section Weight

variable [Fintype α] [AddCommMonoid M]

def weight (c : α → β → M) (f : α ≃. β) : M := ∑ a, (f a).elim 0 (c a)

/-- No matching costs less. -/
def Least [LE M] (c : α → β → M) (f : α ≃. β) : Prop := ∀ g, weight c f ≤ weight c g

/-- Two matchings that differ in one pair. -/
structure Adds (a : α) (b : β) (f g : α ≃. β) : Prop where
  free : f a = none
  pair : g a = some b
  others : ∀ x, x ≠ a → g x = f x

theorem Adds.weight_eq [DecidableEq α] {a : α} {b : β} {f g : α ≃. β} (adds : Adds a b f g)
    (c : α → β → M) : weight c g = c a b + weight c f := by
  rw [weight, weight, ← Finset.add_sum_erase _ _ (Finset.mem_univ a),
    ← Finset.add_sum_erase Finset.univ (fun x => (f x).elim 0 (c x)) (Finset.mem_univ a), adds.pair,
    adds.free]
  simp only [Option.elim_some, Option.elim_none, zero_add]
  congr 1
  refine Finset.sum_congr rfl ?_
  intro x other
  rw [adds.others x (Finset.ne_of_mem_erase other)]

end Weight

section Exchange

variable [DecidableEq α] [DecidableEq β]

/-- The matching without the pair of one row. -/
def remove (a : α) (f : α ≃. β) : α ≃. β where
  toFun x := if x = a then none else f x
  invFun y := if f.symm y = some a then none else f.symm y
  inv x y := by
    by_cases same : x = a
    · subst same
      simp
    · have kept : f.symm y = some x → f.symm y ≠ some a := by
        intro held other
        exact same (Option.some.inj (held.symm.trans other))
      rw [if_neg same]
      refine Iff.trans ?_ f.eq_some_iff
      constructor
      · intro held
        split at held
        · simp at held
        · exact held
      · intro held
        rwa [if_neg (kept held)]

omit [DecidableEq β] in
theorem remove_adds {a : α} {b : β} {f : α ≃. β} (pair : f a = some b) : Adds a b (remove a f) f where
  free := if_pos rfl
  pair := pair
  others _ other := (if_neg other).symm

/-- The matching with one more pair, of a free row and a free column. -/
def insert (a : α) (b : β) (f : α ≃. β) (row : f a = none) (col : f.symm b = none) : α ≃. β where
  toFun x := if x = a then some b else f x
  invFun y := if y = b then some a else f.symm y
  inv x y := by
    by_cases hx : x = a
    · subst hx
      by_cases hy : y = b
      · simp [hy]
      · simp only [if_neg hy, if_true, PEquiv.eq_some_iff, row, Option.some.injEq]
        simp [Ne.symm hy]
    · by_cases hy : y = b
      · subst hy
        simp only [if_true, if_neg hx, ← PEquiv.eq_some_iff, col, Option.some.injEq]
        simp [Ne.symm hx]
      · simp only [if_neg hx, if_neg hy, PEquiv.eq_some_iff]

theorem insert_adds {a : α} {b : β} {f : α ≃. β} (row : f a = none) (col : f.symm b = none) :
    Adds a b f (insert a b f row col) where
  free := row
  pair := if_pos rfl
  others _ other := if_neg other

variable [Fintype α] [AddCommGroup M] [LinearOrder M] [IsOrderedAddMonoid M] {c : α → β → M}
  {f : α ≃. β}

omit [DecidableEq β] in
/-- A least matching picks no entry that costs. -/
theorem Least.entry_nonpos (least : Least c f) {a : α} {b : β} (pair : f a = some b) :
    c a b ≤ 0 := by
  have without := least (remove a f)
  rw [(remove_adds pair).weight_eq c] at without
  exact add_le_iff_nonpos_left.mp without

/-- Where every entry gains, a least matching leaves no free pair. -/
theorem Least.full (least : Least c f) (gains : ∀ a b, c a b < 0) {a : α} {b : β}
    (row : f a = none) : f.symm b ≠ none := by
  intro col
  have more := least (insert a b f row col)
  rw [(insert_adds row col).weight_eq c] at more
  exact absurd ((le_add_iff_nonneg_left _).mp more) (not_le.mpr (gains a b))

end Exchange

section Size

variable [Fintype α] [Fintype β] [DecidableEq α] [DecidableEq β]

/-- A matching costs the same seen from the columns. -/
theorem weight_symm [AddCommMonoid M] (c : α → β → M) (f : α ≃. β) :
    weight (fun b a => c a b) f.symm = weight c f := by
  have row (a : α) : (f a).elim 0 (c a) = ∑ b, if f a = some b then c a b else 0 := by
    cases f a <;> simp
  have col (b : β) : (f.symm b).elim 0 (fun a => c a b) =
      ∑ a, if f a = some b then c a b else 0 := by
    cases pair : f.symm b with
    | none => simp [← f.eq_some_iff, pair]
    | some a => simp [← f.eq_some_iff, pair]
  simp only [weight, row, col]
  exact Finset.sum_comm

def size (f : α ≃. β) : Nat := weight (fun _ _ => 1) f

/-- Neither side can offer a partner to the other. -/
def Full (f : α ≃. β) : Prop := ∀ a b, f a = none → f.symm b ≠ none

omit [Fintype β] [DecidableEq α] [DecidableEq β] in
theorem size_le (f : α ≃. β) : size f ≤ Fintype.card α := by
  rw [size, weight, Fintype.card_eq_sum_ones]
  refine Finset.sum_le_sum ?_
  intro a _
  cases f a <;> simp

omit [Fintype β] [DecidableEq α] [DecidableEq β] in
theorem size_eq {f : α ≃. β} (all : ∀ a, f a ≠ none) : size f = Fintype.card α := by
  rw [size, weight, Fintype.card_eq_sum_ones]
  refine Finset.sum_congr rfl ?_
  intro a _
  obtain ⟨b, pair⟩ := Option.ne_none_iff_exists'.mp (all a)
  rw [pair]
  rfl

theorem size_symm (f : α ≃. β) : size f.symm = size f := weight_symm (fun _ _ => 1) f

theorem Full.size_eq {f : α ≃. β} (full : Full f) :
    size f = min (Fintype.card α) (Fintype.card β) := by
  have rows := size_le f
  have cols := size_le f.symm
  rw [size_symm] at cols
  by_cases all : ∀ a, f a ≠ none
  · have saturated := PartialMatchings.size_eq all
    omega
  · obtain ⟨a, row⟩ := not_forall_not.mp all
    have saturated := PartialMatchings.size_eq fun b => full a b row
    rw [size_symm] at saturated
    omega

variable [AddCommGroup M] [LinearOrder M] [IsOrderedAddMonoid M]

/-- Where no entry costs, a matching can be filled up for nothing. -/
theorem exists_full {c : α → β → M} (free : ∀ a b, c a b ≤ 0) (f : α ≃. β) :
    ∃ g, Full g ∧ weight c g ≤ weight c f := by
  have finite : Finite (α ≃. β) :=
    Finite.of_injective (fun f : α ≃. β => (f : α → Option β)) DFunLike.coe_injective
  obtain ⟨g, cheaper, largest⟩ := Set.Finite.exists_maximalFor size
    {g : α ≃. β | weight c g ≤ weight c f} (Set.toFinite _) ⟨f, le_refl (weight c f)⟩
  refine ⟨g, ?_, cheaper⟩
  intro a b row col
  have adds := insert_adds row col
  have more : weight c (insert a b g row col) ≤ weight c f := by
    rw [adds.weight_eq c]
    exact (add_le_of_nonpos_left (free a b)).trans cheaper
  have grown : size (insert a b g row col) = 1 + size g := adds.weight_eq _
  have bound : size (insert a b g row col) ≤ size g := largest more (by omega)
  omega

omit [Fintype β] [DecidableEq α] [DecidableEq β] [LinearOrder M] [IsOrderedAddMonoid M] in
theorem weight_sub (c : α → β → M) (limit : M) (f : α ≃. β) :
    weight (fun a b => c a b - limit) f = weight c f - size f • limit := by
  rw [weight, weight, size, weight, Finset.sum_smul, ← Finset.sum_sub_distrib]
  refine Finset.sum_congr rfl ?_
  intro a _
  cases f a <;> simp

/-- A limit above every entry fills the matching up, and then any limit that no
entry exceeds has the same least matchings. -/
theorem Least.shift {c : α → β → M} {limit thresh : M} {f : α ≃. β}
    (least : Least (fun a b => c a b - limit) f) (below : ∀ a b, c a b < limit)
    (within : ∀ a b, c a b ≤ thresh) : Least (fun a b => c a b - thresh) f := by
  intro g
  obtain ⟨h, full, le⟩ := exists_full (c := fun a b => c a b - thresh)
    (fun a b => sub_nonpos.mpr (within a b)) g
  refine le_trans ?_ le
  have same : size f = size h := by
    rw [full.size_eq]
    exact Full.size_eq fun a b row => least.full (fun a b => sub_neg.mpr (below a b)) row
  have cost := least h
  rw [weight_sub, weight_sub, same] at cost
  rw [weight_sub, weight_sub, same]
  exact sub_le_sub_right ((sub_le_sub_iff_right _).mp cost) _

end Size

section Pairs

variable [DecidableEq α] [DecidableEq β]

/-- The matching of a list of pairs in which no row and no column occurs twice. -/
def ofPairs (l : List (α × β)) (rows : (l.map Prod.fst).Nodup) (cols : (l.map Prod.snd).Nodup) :
    α ≃. β where
  toFun a := KeyedTables.lookupIn a l
  invFun b := KeyedTables.lookupIn b (l.map Prod.swap)
  inv a b := by
    have swapped : ((l.map Prod.swap).map Prod.fst).Nodup := by
      rw [List.map_map]
      exact cols
    rw [← KeyedTables.mem_iff_lookupIn rows, ← KeyedTables.mem_iff_lookupIn swapped]
    simp

variable {l : List (α × β)} (rows : (l.map Prod.fst).Nodup) (cols : (l.map Prod.snd).Nodup)

theorem ofPairs_eq_some {a : α} {b : β} : ofPairs l rows cols a = some b ↔ (a, b) ∈ l :=
  (KeyedTables.mem_iff_lookupIn rows a b).symm

theorem weight_ofPairs [Fintype α] [AddCommMonoid M] (c : α → β → M) :
    weight c (ofPairs l rows cols) = (l.map fun p => c p.1 p.2).sum := by
  induction l with
  | nil => exact Finset.sum_eq_zero fun a _ => rfl
  | cons p rest ih =>
    obtain ⟨fresh, rows'⟩ := List.nodup_cons.mp rows
    have adds : Adds p.1 p.2 (ofPairs rest rows' (List.nodup_cons.mp cols).2)
        (ofPairs (p :: rest) rows cols) := by
      refine ⟨KeyedTables.lookupIn_eq_none.mpr fresh, if_pos rfl, ?_⟩
      intro x other
      exact if_neg (Ne.symm other)
    rw [adds.weight_eq c, ih, List.map_cons, List.sum_cons]

end Pairs

section Border

/-- Rows and columns of their own for the partners that are missing. -/
def bordered [Zero M] (c : α → β → M) (fill : M) : α ⊕ β → β ⊕ α → M
  | .inl a, .inl b => c a b
  | .inr _, .inr _ => 0
  | _, _ => fill

/-- The real rows that are given real columns. -/
def restrict (e : α ⊕ β ≃ β ⊕ α) : α ≃. β where
  toFun a := (e (.inl a)).getLeft?
  invFun b := (e.symm (.inl b)).getLeft?
  inv a b := by
    rw [Sum.getLeft?_eq_some_iff, Sum.getLeft?_eq_some_iff, e.symm_apply_eq, eq_comm]

/-- What is free goes to its own border, and the border of the matched crosses over. -/
def complete (f : α ≃. β) : α ⊕ β ≃ β ⊕ α where
  toFun
    | .inl a => (f a).elim (.inr a) .inl
    | .inr b => (f.symm b).elim (.inl b) .inr
  invFun
    | .inl b => (f.symm b).elim (.inr b) .inl
    | .inr a => (f a).elim (.inl a) .inr
  left_inv
    | .inl a => by
      cases pair : f a with
      | none => simp [pair]
      | some b => simp [pair, f.eq_some_iff.mpr pair]
    | .inr b => by
      cases pair : f.symm b with
      | none => simp [pair]
      | some a => simp [pair, f.eq_some_iff.mp pair]
  right_inv
    | .inl b => by
      cases pair : f.symm b with
      | none => simp [pair]
      | some a => simp [pair, f.eq_some_iff.mp pair]
    | .inr a => by
      cases pair : f a with
      | none => simp [pair]
      | some b => simp [pair, f.eq_some_iff.mpr pair]

theorem restrict_complete (f : α ≃. β) : restrict (complete f) = f := by
  ext1 a
  change ((f a).elim (.inr a) .inl : β ⊕ α).getLeft? = f a
  cases f a <;> rfl

variable [Fintype α] [Fintype β] [AddCommGroup M]

/-- A permutation of the bordered square pays every fill, and the entries it
picks are charged against two of them. -/
theorem total_bordered (c : α → β → M) (fill : M) (e : α ⊕ β ≃ β ⊕ α) :
    ∑ x, bordered c fill x (e x) =
      Fintype.card α • fill + Fintype.card β • fill +
        weight (fun a b => c a b - (fill + fill)) (restrict e) := by
  -- an entry is the fill of its row, if real, and of its column, and the rest
  have split (x : α ⊕ β) (y : β ⊕ α) : bordered c fill x y =
      x.elim (fun _ => fill) (fun _ => 0) + y.elim (fun _ => fill) (fun _ => 0) +
        x.elim (fun a => y.getLeft?.elim 0 fun b => c a b - (fill + fill)) (fun _ => 0) := by
    rcases x with a | b <;> rcases y with b' | a' <;> simp [bordered]
  have columns : ∑ x, (e x).elim (fun _ => fill) (fun _ => 0) = Fintype.card β • fill := by
    rw [Equiv.sum_comp e fun y => y.elim (fun _ => fill) (fun _ => (0 : M))]
    simp
  simp only [split, Finset.sum_add_distrib, columns]
  simp only [Fintype.sum_sum_type, Sum.elim_inl, Sum.elim_inr, Finset.sum_const_zero, add_zero,
    Finset.sum_const, Finset.card_univ]
  rfl

variable [LinearOrder M] [IsOrderedAddMonoid M]

/-- Least squares give least matchings. -/
theorem restrict_least {c : α → β → M} {fill : M} {e : α ⊕ β ≃ β ⊕ α}
    (least : ∀ e' : α ⊕ β ≃ β ⊕ α,
      ∑ x, bordered c fill x (e x) ≤ ∑ x, bordered c fill x (e' x)) :
    Least (fun a b => c a b - (fill + fill)) (restrict e) := by
  intro f
  have le := least (complete f)
  rw [total_bordered, total_bordered, restrict_complete] at le
  exact le_of_add_le_add_left le

end Border

end PartialMatchings
