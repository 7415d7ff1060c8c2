import Mathlib.Data.List.Nodup

/-!
# Keyed tables

A finite map as a list of entries with distinct keys, in an order that no
result depends on. One operation, `alter`, creates, updates or erases the entry
of one key; `filterMap` visits every entry once.
-/

namespace KeyedTables

universe u v w

structure Table (κ : Type u) (α : Type v) where
  entries : List (κ × α)
  keys_nodup : (entries.map Prod.fst).Nodup

variable {κ : Type u} {α : Type v}

def visit (g : κ → α → Option α) (e : κ × α) : Option (κ × α) :=
  (g e.1 e.2).map fun a => (e.1, a)

theorem key_mem_visit {g : κ → α → Option α} {l : List (κ × α)} {x : κ}
    (hx : x ∈ (l.filterMap (visit g)).map Prod.fst) : x ∈ l.map Prod.fst := by
  obtain ⟨e, he, rfl⟩ := List.mem_map.mp hx
  obtain ⟨d, hd, hde⟩ := List.mem_filterMap.mp he
  obtain ⟨a, -, rfl⟩ := Option.map_eq_some_iff.mp hde
  exact List.mem_map.mpr ⟨d, hd, rfl⟩

theorem visit_nodup {g : κ → α → Option α} {l : List (κ × α)} (h : (l.map Prod.fst).Nodup) :
    ((l.filterMap (visit g)).map Prod.fst).Nodup := by
  induction l with
  | nil => simp
  | cons e rest ih =>
    obtain ⟨fresh, tail⟩ := List.nodup_cons.mp h
    cases hg : g e.1 e.2 with
    | none => simpa [visit, hg] using ih tail
    | some a =>
      have head : visit g e = some (e.1, a) := by simp [visit, hg]
      rw [List.filterMap_cons_some head, List.map_cons]
      exact List.nodup_cons.mpr ⟨fun hmem => fresh (key_mem_visit hmem), ih tail⟩

variable [DecidableEq κ]

def Table.empty : Table κ α := ⟨[], by simp⟩

def lookupIn (k : κ) : List (κ × α) → Option α
  | [] => none
  | (k', a) :: rest => if k' = k then some a else lookupIn k rest

def Table.lookup (t : Table κ α) (k : κ) : Option α := lookupIn k t.entries

def alterIn (k : κ) (g : Option α → Option α) : List (κ × α) → List (κ × α)
  | [] =>
    match g none with
    | some a => [(k, a)]
    | none => []
  | (k', a) :: rest =>
    if k' = k then
      match g (some a) with
      | some b => (k', b) :: rest
      | none => rest
    else (k', a) :: alterIn k g rest

@[simp] theorem lookupIn_nil (k : κ) : lookupIn k ([] : List (κ × α)) = none := rfl

@[simp] theorem lookupIn_cons (k k' : κ) (a : α) (rest : List (κ × α)) :
    lookupIn k ((k', a) :: rest) = if k' = k then some a else lookupIn k rest := rfl

theorem lookupIn_eq_none {k : κ} {l : List (κ × α)} :
    lookupIn k l = none ↔ k ∉ l.map Prod.fst := by
  induction l with
  | nil => simp
  | cons e rest ih =>
    obtain ⟨k', a⟩ := e
    by_cases h : k' = k
    · simp [h]
    · simp [h, ih, Ne.symm h]

theorem key_mem_alterIn {k x : κ} {g : Option α → Option α} {l : List (κ × α)}
    (hx : x ∈ (alterIn k g l).map Prod.fst) : x = k ∨ x ∈ l.map Prod.fst := by
  induction l with
  | nil =>
    rw [alterIn] at hx
    split at hx
    · exact Or.inl (by simpa using hx)
    · simp at hx
  | cons e rest ih =>
    obtain ⟨k', a⟩ := e
    rw [alterIn] at hx
    split at hx
    · split at hx
      · exact Or.inr (by simpa using hx)
      · exact Or.inr (by simpa using Or.inr hx)
    · rcases (by simpa using hx : x = k' ∨ x ∈ (alterIn k g rest).map Prod.fst) with rfl | hrest
      · exact Or.inr (by simp)
      · rcases ih hrest with rfl | hmem
        · exact Or.inl rfl
        · exact Or.inr (List.mem_cons_of_mem _ hmem)

theorem alterIn_nodup {k : κ} {g : Option α → Option α} {l : List (κ × α)}
    (h : (l.map Prod.fst).Nodup) : ((alterIn k g l).map Prod.fst).Nodup := by
  induction l with
  | nil =>
    rw [alterIn]
    split <;> simp
  | cons e rest ih =>
    obtain ⟨k', a⟩ := e
    obtain ⟨fresh, tail⟩ := List.nodup_cons.mp h
    rw [alterIn]
    split
    · split
      · exact List.nodup_cons.mpr ⟨fresh, tail⟩
      · exact tail
    · rename_i hne
      refine List.nodup_cons.mpr ⟨?_, ih tail⟩
      intro hmem
      rcases key_mem_alterIn hmem with rfl | hrest
      · exact hne rfl
      · exact fresh hrest

def Table.alter (t : Table κ α) (k : κ) (g : Option α → Option α) : Table κ α :=
  ⟨alterIn k g t.entries, alterIn_nodup t.keys_nodup⟩

theorem lookupIn_alterIn {k : κ} {g : Option α → Option α} {l : List (κ × α)}
    (h : (l.map Prod.fst).Nodup) (x : κ) :
    lookupIn x (alterIn k g l) = if x = k then g (lookupIn k l) else lookupIn x l := by
  induction l with
  | nil =>
    rw [alterIn]
    by_cases hx : x = k
    · subst hx
      cases hg : g none <;> simp [hg]
    · cases hg : g none <;> simp [hx, Ne.symm hx]
  | cons e rest ih =>
    obtain ⟨k', a⟩ := e
    obtain ⟨fresh, tail⟩ := List.nodup_cons.mp h
    rw [alterIn]
    by_cases hk : k' = k
    · subst hk
      have absent : lookupIn k' rest = none := lookupIn_eq_none.mpr fresh
      by_cases hx : x = k'
      · subst hx
        cases hg : g (some a) <;> simp [hg, absent]
      · cases hg : g (some a) <;> simp [hx, Ne.symm hx]
    · by_cases hx : x = k
      · subst hx
        simp [hk, ih tail]
      · simp [hk, hx, ih tail]

@[simp] theorem Table.lookup_alter (t : Table κ α) (k : κ) (g : Option α → Option α) (x : κ) :
    (t.alter k g).lookup x = if x = k then g (t.lookup k) else t.lookup x :=
  lookupIn_alterIn t.keys_nodup x

/-- A fold of alterations acts on one key through the elements of that key. -/
theorem Table.lookup_foldl_alter {ρ : Type w} (key : ρ → κ) (g : ρ → Option α → Option α)
    (l : List ρ) (t : Table κ α) (x : κ) :
    (l.foldl (fun t r => t.alter (key r) (g r)) t).lookup x =
      (l.filter fun r => key r = x).foldl (fun o r => g r o) (t.lookup x) := by
  induction l generalizing t with
  | nil => rfl
  | cons r rest ih =>
    rw [List.foldl_cons, ih]
    by_cases hr : key r = x
    · simp [hr]
    · simp [hr, Ne.symm hr]

theorem Table.lookup_foldl_map {g : α → α} (idem : ∀ a, g (g a) = g a) (ks : List κ)
    (t : Table κ α) (x : κ) :
    (ks.foldl (fun t k => t.alter k (Option.map g)) t).lookup x =
      if x ∈ ks then (t.lookup x).map g else t.lookup x := by
  induction ks generalizing t with
  | nil => rfl
  | cons k rest ih =>
    rw [List.foldl_cons, ih, Table.lookup_alter]
    by_cases hx : x = k
    · subst hx
      cases t.lookup x <;> simp [idem]
    · simp [hx]

theorem mem_iff_lookupIn {l : List (κ × α)} (h : (l.map Prod.fst).Nodup) (k : κ) (a : α) :
    (k, a) ∈ l ↔ lookupIn k l = some a := by
  induction l with
  | nil => simp
  | cons e rest ih =>
    obtain ⟨k', b⟩ := e
    obtain ⟨fresh, tail⟩ := List.nodup_cons.mp h
    by_cases hk : k' = k
    · subst hk
      have absent : (k', a) ∉ rest := fun hmem => fresh (List.mem_map.mpr ⟨_, hmem, rfl⟩)
      simp [absent, eq_comm]
    · simp [hk, Ne.symm hk, ih tail]

theorem Table.mem_entries {t : Table κ α} {k : κ} {a : α} :
    (k, a) ∈ t.entries ↔ t.lookup k = some a :=
  mem_iff_lookupIn t.keys_nodup k a

/-- Keep, change or erase each entry on its own. -/
def Table.filterMap (t : Table κ α) (g : κ → α → Option α) : Table κ α :=
  ⟨t.entries.filterMap (visit g), visit_nodup t.keys_nodup⟩

@[simp] theorem Table.lookup_filterMap (t : Table κ α) (g : κ → α → Option α) (x : κ) :
    (t.filterMap g).lookup x = (t.lookup x).bind (g x) := by
  obtain ⟨l, h⟩ := t
  change lookupIn x (l.filterMap (visit g)) = (lookupIn x l).bind (g x)
  induction l with
  | nil => rfl
  | cons e rest ih =>
    obtain ⟨k, a⟩ := e
    obtain ⟨fresh, tail⟩ := List.nodup_cons.mp h
    have hrest := ih tail
    by_cases hk : k = x
    · subst hk
      have absent : lookupIn k (rest.filterMap (visit g)) = none :=
        lookupIn_eq_none.mpr fun hmem => fresh (key_mem_visit hmem)
      cases hg : g k a with
      | none => simp [visit, hg, absent]
      | some b => simp [visit, hg]
    · cases hg : g k a with
      | none => simpa [visit, hg, hk] using hrest
      | some b => simpa [visit, hg, hk] using hrest

@[simp] theorem Table.lookup_empty (x : κ) : (Table.empty : Table κ α).lookup x = none := rfl

end KeyedTables
