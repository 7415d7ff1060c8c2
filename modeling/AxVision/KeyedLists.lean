import Mathlib.Data.List.Sort
import Mathlib.Order.Monotone.Defs
import Mathlib.Data.Set.Function

/-!
# Lists of records with ordered keys

Union and difference of lists by key, computed the way programs do it: the
union keeps the first list and appends what is new, the difference goes through
a map that is ordered by key. Both keep keys distinct, and both commute with a
strictly increasing change of keys.
-/

namespace KeyedLists

universe u v w x

variable {α : Type u} {κ : Type v} [LinearOrder κ]

def keys (key : α → κ) (l : List α) : List κ := l.map key

/-- The elements whose key has not been seen, each key once. -/
def unseen (key : α → κ) : List κ → List α → List α
  | _, [] => []
  | seen, a :: rest =>
    if key a ∈ seen then unseen key seen rest else a :: unseen key (key a :: seen) rest

/-- The first list, then the new keys of the second. -/
def union (key : α → κ) (l m : List α) : List α := l ++ unseen key (keys key l) m

/-- Insertion into an ordered map: a key that is there keeps its value. -/
def mapInsert (key : α → κ) (a : α) : List α → List α
  | [] => [a]
  | b :: rest =>
    if key a < key b then a :: b :: rest
    else if key a = key b then b :: rest
    else b :: mapInsert key a rest

def mapErase (key : α → κ) (k : κ) (l : List α) : List α := l.filter fun a => key a ≠ k

def ofList (key : α → κ) (l : List α) : List α := l.foldl (fun m a => mapInsert key a m) []

/-- The first list as an ordered map, without the keys of the second. -/
def difference (key : α → κ) (l m : List α) : List α :=
  m.foldl (fun d a => mapErase key (key a) d) (ofList key l)

/-- One record per key, however often it is listed. -/
def Consistent (key : α → κ) (l : List α) : Prop := ∀ a ∈ l, ∀ b ∈ l, key a = key b → a = b

variable {key : α → κ}

section Union

theorem unseen_sublist (seen : List κ) (l : List α) : (unseen key seen l).Sublist l := by
  induction l generalizing seen with
  | nil => exact .slnil
  | cons a rest ih =>
    rw [unseen]
    split
    · exact (ih seen).cons a
    · exact (ih (key a :: seen)).cons_cons a

theorem unseen_fresh {seen : List κ} {l : List α} {a : α} (h : a ∈ unseen key seen l) :
    key a ∉ seen := by
  induction l generalizing seen with
  | nil => cases h
  | cons b rest ih =>
    rw [unseen] at h
    split at h
    · exact ih h
    · rcases List.mem_cons.mp h with rfl | hrest
      · assumption
      · exact fun hseen => ih hrest (List.mem_cons_of_mem _ hseen)

theorem unseen_nodup (seen : List κ) (l : List α) : (keys key (unseen key seen l)).Nodup := by
  induction l generalizing seen with
  | nil => simp [unseen, keys]
  | cons a rest ih =>
    rw [unseen]
    split
    · exact ih seen
    · refine List.nodup_cons.mpr ⟨?_, ih _⟩
      intro hmem
      obtain ⟨b, hb, hkey⟩ := List.mem_map.mp hmem
      exact unseen_fresh hb (by simp [hkey])

/-- With distinct keys the seen ones are simply filtered out. -/
theorem unseen_eq_filter {seen : List κ} {l : List α} (distinct : (keys key l).Nodup) :
    unseen key seen l = l.filter fun a => key a ∉ seen := by
  induction l generalizing seen with
  | nil => rfl
  | cons a rest ih =>
    obtain ⟨fresh, tail⟩ := List.nodup_cons.mp distinct
    rw [unseen]
    by_cases h : key a ∈ seen
    · simp [h, ih tail]
    · rw [if_neg h, ih tail, List.filter_cons_of_pos (by simpa using h)]
      congr 1
      apply List.filter_congr
      intro b hb
      have ne : key b ≠ key a := fun hkey => fresh (hkey ▸ List.mem_map_of_mem hb)
      simp [ne]

theorem union_nodup {l m : List α} (distinct : (keys key l).Nodup) :
    (keys key (union key l m)).Nodup := by
  rw [union, keys, List.map_append, List.nodup_append]
  refine ⟨distinct, unseen_nodup _ _, ?_⟩
  rintro k hl k' hm rfl
  obtain ⟨a, ha, hkey⟩ := List.mem_map.mp hm
  exact unseen_fresh ha (hkey ▸ hl)

theorem union_eq_append {l m : List α} (distinct : (keys key m).Nodup)
    (disjoint : ∀ a ∈ m, key a ∉ keys key l) : union key l m = l ++ m := by
  rw [union, unseen_eq_filter distinct, List.filter_eq_self.mpr]
  intro a ha
  simpa using disjoint a ha

theorem key_mem_union {l m : List α} {k : κ} :
    k ∈ keys key (union key l m) ↔ k ∈ keys key l ∨ k ∈ keys key m := by
  have cover : ∀ (seen : List κ) (m : List α), k ∈ keys key m → k ∉ seen →
      k ∈ keys key (unseen key seen m) := by
    intro seen m
    induction m generalizing seen with
    | nil => intro h; cases h
    | cons a rest ih =>
      intro h hseen
      rw [unseen]
      by_cases hk : k = key a
      · subst hk
        rw [if_neg hseen]
        exact List.mem_cons_self
      · have hrest : k ∈ keys key rest := (List.mem_cons.mp h).resolve_left hk
        split
        · exact ih seen hrest hseen
        · exact List.mem_cons_of_mem _ (ih _ hrest (by simp [hk, hseen]))
  rw [union, keys, List.map_append, List.mem_append]
  constructor
  · rintro (hl | hm)
    · exact Or.inl hl
    · obtain ⟨a, ha, rfl⟩ := List.mem_map.mp hm
      exact Or.inr (List.mem_map_of_mem ((unseen_sublist _ _).subset ha))
  · rintro (hl | hm)
    · exact Or.inl hl
    · by_cases hl : k ∈ keys key l
      · exact Or.inl hl
      · exact Or.inr (cover _ _ hm hl)

theorem union_of_subset {l m : List α} (h : ∀ a ∈ m, key a ∈ keys key l) : union key l m = l := by
  have none : ∀ (seen : List κ) (m : List α), (∀ a ∈ m, key a ∈ seen) → unseen key seen m = [] := by
    intro seen m
    induction m with
    | nil => exact fun _ => rfl
    | cons a rest ih =>
      intro h
      rw [unseen, if_pos (h a List.mem_cons_self), ih fun b hb => h b (List.mem_cons_of_mem a hb)]
  rw [union, none _ _ h, List.append_nil]

theorem mem_union_sub {l m : List α} {a : α} (h : a ∈ union key l m) : a ∈ l ∨ a ∈ m := by
  rcases List.mem_append.mp h with hl | hm
  · exact Or.inl hl
  · exact Or.inr ((unseen_sublist _ _).subset hm)

theorem mem_union {l m : List α} (consistent : Consistent key (l ++ m)) {a : α} :
    a ∈ union key l m ↔ a ∈ l ∨ a ∈ m := by
  refine ⟨mem_union_sub, ?_⟩
  intro h
  have hkey : key a ∈ keys key (union key l m) :=
    key_mem_union.mpr (h.imp List.mem_map_of_mem List.mem_map_of_mem)
  obtain ⟨b, hb, same⟩ := List.mem_map.mp hkey
  have equal := consistent b (List.mem_append.mpr (mem_union_sub hb)) a (List.mem_append.mpr h) same
  exact equal ▸ hb

end Union

section Difference

/-- An ordered map: strictly increasing keys. -/
def Ordered (key : α → κ) (l : List α) : Prop := l.Pairwise fun a b => key a < key b

theorem Ordered.nodup {l : List α} (h : Ordered key l) : (keys key l).Nodup :=
  List.pairwise_map.mpr (h.imp fun hab => ne_of_lt hab)

theorem mem_mapInsert {a b : α} {l : List α} (h : b ∈ mapInsert key a l) : b = a ∨ b ∈ l := by
  induction l with
  | nil => exact Or.inl (by simpa [mapInsert] using h)
  | cons c rest ih =>
    rw [mapInsert] at h
    split at h
    · simpa using h
    · split at h
      · exact Or.inr h
      · rcases List.mem_cons.mp h with rfl | hrest
        · exact Or.inr (by simp)
        · exact (ih hrest).imp_right (List.mem_cons_of_mem _)

theorem mapInsert_ordered {a : α} {l : List α} (h : Ordered key l) :
    Ordered key (mapInsert key a l) := by
  induction l with
  | nil => exact List.pairwise_singleton _ _
  | cons c rest ih =>
    obtain ⟨below, tail⟩ := List.pairwise_cons.mp h
    rw [mapInsert]
    split
    · next hac =>
      refine List.pairwise_cons.mpr ⟨?_, h⟩
      intro b hb
      rcases List.mem_cons.mp hb with rfl | hrest
      · exact hac
      · exact hac.trans (below b hrest)
    · next hac =>
      split
      · exact h
      · next hne =>
        refine List.pairwise_cons.mpr ⟨?_, ih tail⟩
        intro b hb
        rcases mem_mapInsert hb with rfl | hrest
        · exact lt_of_le_of_ne (not_lt.mp hac) (Ne.symm hne)
        · exact below b hrest

theorem key_mem_mapInsert {a : α} {l : List α} {k : κ} :
    k ∈ keys key (mapInsert key a l) ↔ k = key a ∨ k ∈ keys key l := by
  induction l with
  | nil => simp [mapInsert, keys]
  | cons c rest ih =>
    rw [mapInsert]
    split
    · simp [keys]
    · split
      · next hac => simp [keys, hac]
      · simp only [keys, List.map_cons, List.mem_cons] at ih ⊢
        rw [ih]
        tauto

theorem ofList_ordered (l : List α) : Ordered key (ofList key l) := by
  have acc : ∀ (l m : List α), Ordered key m →
      Ordered key (l.foldl (fun m a => mapInsert key a m) m) := by
    intro l
    induction l with
    | nil => exact fun m h => h
    | cons a rest ih => exact fun m h => ih _ (mapInsert_ordered h)
  exact acc l [] List.Pairwise.nil

theorem key_mem_ofList {l : List α} {k : κ} : k ∈ keys key (ofList key l) ↔ k ∈ keys key l := by
  have acc : ∀ l m : List α, k ∈ keys key (l.foldl (fun m a => mapInsert key a m) m) ↔
      k ∈ keys key m ∨ k ∈ keys key l := by
    intro l
    induction l with
    | nil => intro m; simp [keys]
    | cons b rest ih =>
      intro m
      rw [List.foldl_cons, ih, key_mem_mapInsert]
      simp only [keys, List.map_cons, List.mem_cons]
      tauto
  rw [ofList, acc l []]
  simp [keys]

theorem mem_ofList_sub {l : List α} {a : α} (h : a ∈ ofList key l) : a ∈ l := by
  have acc : ∀ (l m : List α), a ∈ l.foldl (fun m a => mapInsert key a m) m → a ∈ m ∨ a ∈ l := by
    intro l
    induction l with
    | nil => exact fun m h => Or.inl h
    | cons b rest ih =>
      intro m h
      rcases ih _ h with hm | hrest
      · rcases mem_mapInsert hm with rfl | hm
        · exact Or.inr List.mem_cons_self
        · exact Or.inl hm
      · exact Or.inr (List.mem_cons_of_mem _ hrest)
  exact (acc l [] h).resolve_left (by simp)

theorem difference_eq_filter (l m : List α) :
    difference key l m = (ofList key l).filter fun a => key a ∉ keys key m := by
  have acc : ∀ (m d : List α), m.foldl (fun d a => mapErase key (key a) d) d =
      d.filter fun a => key a ∉ keys key m := by
    intro m
    induction m with
    | nil => intro d; simp [keys]
    | cons b rest ih =>
      intro d
      rw [List.foldl_cons, ih, mapErase, List.filter_filter]
      apply List.filter_congr
      intro a _
      by_cases hb : key a = key b <;> simp [keys, hb]
  exact acc m _

theorem difference_ordered (l m : List α) : Ordered key (difference key l m) := by
  rw [difference_eq_filter]
  exact List.Pairwise.filter _ (ofList_ordered l)

theorem mem_difference_sub {l m : List α} {a : α} (h : a ∈ difference key l m) :
    a ∈ l ∧ key a ∉ keys key m := by
  rw [difference_eq_filter, List.mem_filter] at h
  exact ⟨mem_ofList_sub h.1, by simpa using h.2⟩

theorem key_mem_difference {l m : List α} {k : κ} :
    k ∈ keys key (difference key l m) ↔ k ∈ keys key l ∧ k ∉ keys key m := by
  constructor
  · intro h
    obtain ⟨a, ha, rfl⟩ := List.mem_map.mp h
    exact ⟨List.mem_map_of_mem (mem_difference_sub ha).1, (mem_difference_sub ha).2⟩
  · rintro ⟨hl, hm⟩
    obtain ⟨a, ha, rfl⟩ := List.mem_map.mp (key_mem_ofList.mpr hl)
    rw [difference_eq_filter]
    exact List.mem_map_of_mem (List.mem_filter.mpr ⟨ha, by simpa using hm⟩)

theorem mem_difference {l m : List α} (consistent : Consistent key l) {a : α} :
    a ∈ difference key l m ↔ a ∈ l ∧ key a ∉ keys key m := by
  refine ⟨mem_difference_sub, ?_⟩
  rintro ⟨hl, hm⟩
  obtain ⟨b, hb, same⟩ := List.mem_map.mp
    (key_mem_difference.mpr ⟨List.mem_map_of_mem hl, hm⟩)
  exact consistent b (mem_difference_sub hb).1 a hl same ▸ hb

end Difference

section Renaming

variable {β : Type w} {κ' : Type x} [LinearOrder κ'] {key' : β → κ'} {f : α → β} {r : κ → κ'}
  {s : Set κ}

omit [LinearOrder κ] [LinearOrder κ'] in
theorem keys_map {l : List α} (ren : ∀ a ∈ l, key' (f a) = r (key a)) :
    keys key' (l.map f) = (keys key l).map r := by
  simpa [keys] using ren

omit [LinearOrder κ] [LinearOrder κ'] in
theorem mem_map_iff (inj : Set.InjOn r s) {l : List κ} (hl : ∀ k ∈ l, k ∈ s) {k : κ} (hk : k ∈ s) :
    r k ∈ l.map r ↔ k ∈ l := by
  constructor
  · intro h
    obtain ⟨k', hk', heq⟩ := List.mem_map.mp h
    exact inj (hl k' hk') hk heq ▸ hk'
  · exact List.mem_map_of_mem

theorem unseen_map {seen : List κ} {l : List α} (ren : ∀ a ∈ l, key' (f a) = r (key a))
    (inj : Set.InjOn r s) (hseen : ∀ k ∈ seen, k ∈ s) (hl : ∀ a ∈ l, key a ∈ s) :
    unseen key' (seen.map r) (l.map f) = (unseen key seen l).map f := by
  induction l generalizing seen with
  | nil => rfl
  | cons a rest ih =>
    have ha := hl a List.mem_cons_self
    have hrest := fun b hb => hl b (List.mem_cons_of_mem a hb)
    have ren' := fun b hb => ren b (List.mem_cons_of_mem a hb)
    rw [List.map_cons, unseen, unseen, ren a List.mem_cons_self]
    simp only [mem_map_iff inj hseen ha]
    split
    · exact ih ren' hseen hrest
    · rw [List.map_cons, ← ih ren' (List.forall_mem_cons.mpr ⟨ha, hseen⟩) hrest, List.map_cons]

theorem union_map {l m : List α} (ren : ∀ a ∈ l ++ m, key' (f a) = r (key a))
    (inj : Set.InjOn r s) (hall : ∀ a ∈ l ++ m, key a ∈ s) :
    union key' (l.map f) (m.map f) = (union key l m).map f := by
  obtain ⟨hl, hm⟩ := List.forall_mem_append.mp hall
  obtain ⟨renl, renm⟩ := List.forall_mem_append.mp ren
  rw [union, union, keys_map renl, unseen_map renm inj _ hm, List.map_append]
  intro k hk
  obtain ⟨a, ha, rfl⟩ := List.mem_map.mp hk
  exact hl a ha

theorem mapInsert_map {a : α} {l : List α} (ren : ∀ b ∈ a :: l, key' (f b) = r (key b))
    (mono : StrictMonoOn r s) (hall : ∀ b ∈ a :: l, key b ∈ s) :
    mapInsert key' (f a) (l.map f) = (mapInsert key a l).map f := by
  induction l with
  | nil => rfl
  | cons b rest ih =>
    have drop : ∀ c ∈ a :: rest, c ∈ a :: b :: rest := by
      intro c hc
      rcases List.mem_cons.mp hc with rfl | hrest
      · exact List.mem_cons_self
      · exact List.mem_cons_of_mem _ (List.mem_cons_of_mem _ hrest)
    have ha := hall a List.mem_cons_self
    have hb := hall b (List.mem_cons_of_mem a List.mem_cons_self)
    rw [List.map_cons, mapInsert, mapInsert, ren a List.mem_cons_self,
      ren b (List.mem_cons_of_mem a List.mem_cons_self)]
    simp only [mono.lt_iff_lt ha hb, mono.injOn.eq_iff ha hb]
    split
    · rfl
    · split
      · rfl
      · rw [ih (fun c hc => ren c (drop c hc)) fun c hc => hall c (drop c hc), List.map_cons]

theorem ofList_map {l : List α} (ren : ∀ a ∈ l, key' (f a) = r (key a)) (mono : StrictMonoOn r s)
    (hl : ∀ a ∈ l, key a ∈ s) : ofList key' (l.map f) = (ofList key l).map f := by
  have acc : ∀ l m : List α, (∀ a ∈ l ++ m, key' (f a) = r (key a)) → (∀ a ∈ l ++ m, key a ∈ s) →
      (l.map f).foldl (fun m a => mapInsert key' a m) (m.map f) =
        (l.foldl (fun m a => mapInsert key a m) m).map f := by
    intro l
    induction l with
    | nil => exact fun m _ _ => rfl
    | cons a rest ih =>
      intro m ren hall
      have part : ∀ b ∈ a :: m, b ∈ a :: rest ++ m := by
        intro b hb
        rcases List.mem_cons.mp hb with rfl | hm
        · exact List.mem_cons_self
        · exact List.mem_append_right _ hm
      have whole : ∀ b ∈ rest ++ mapInsert key a m, b ∈ a :: rest ++ m := by
        intro b hb
        rcases List.mem_append.mp hb with hrest | hins
        · exact List.mem_append_left _ (List.mem_cons_of_mem a hrest)
        · exact part b (List.mem_cons.mpr (mem_mapInsert hins))
      rw [List.map_cons, List.foldl_cons, List.foldl_cons,
        mapInsert_map (fun b hb => ren b (part b hb)) mono fun b hb => hall b (part b hb)]
      exact ih _ (fun b hb => ren b (whole b hb)) fun b hb => hall b (whole b hb)
  exact acc l [] (by simpa using ren) (by simpa using hl)

theorem difference_map {l m : List α} (ren : ∀ a ∈ l ++ m, key' (f a) = r (key a))
    (mono : StrictMonoOn r s) (hall : ∀ a ∈ l ++ m, key a ∈ s) :
    difference key' (l.map f) (m.map f) = (difference key l m).map f := by
  obtain ⟨hl, hm⟩ := List.forall_mem_append.mp hall
  obtain ⟨renl, renm⟩ := List.forall_mem_append.mp ren
  have hkeys : ∀ k ∈ keys key m, k ∈ s := by
    intro k hk
    obtain ⟨a, ha, rfl⟩ := List.mem_map.mp hk
    exact hm a ha
  rw [difference_eq_filter, difference_eq_filter, ofList_map renl mono hl, List.filter_map,
    keys_map renm]
  congr 1
  apply List.filter_congr
  intro a ha
  have same := mem_map_iff mono.injOn hkeys (hl a (mem_ofList_sub ha))
  simp only [Function.comp_apply, renl a (mem_ofList_sub ha), same]

end Renaming

end KeyedLists
