import AxVision.KeyedTables

/-!
# Loops through distinct pointers into a store

A loop visits pointers into a list store, rewrites what it finds there and
appends to output vectors. If no pointer is visited twice, every visit reads the
store as it was before the loop.
-/

namespace PointerStores

open KeyedTables

universe u v w x

variable {α : Type u} {β : Type v} {γ : Type x} {σ : Type w}

/-- `visits` pairs pointers with what the loop brings to them. -/
def written (write : β → α → α) (visits : List (Nat × β)) (p : Nat) (a : α) : α :=
  match lookupIn p visits with
  | some b => write b a
  | none => a

@[simp] theorem written_nil (write : β → α → α) (p : Nat) (a : α) : written write [] p a = a := rfl

theorem written_cons (write : β → α → α) (m : Nat × β) (rest : List (Nat × β)) (p : Nat) (a : α) :
    written write (m :: rest) p a = if m.1 = p then write m.2 a else written write rest p a := by
  obtain ⟨q, b⟩ := m
  by_cases h : q = p <;> simp [written, h]

theorem written_absent {write : β → α → α} {visits : List (Nat × β)} {p : Nat}
    (absent : p ∉ visits.map Prod.fst) (a : α) : written write visits p a = a := by
  rw [written, lookupIn_eq_none.mpr absent]

theorem getElem?_foldl_write (store : σ → List α) {step : σ → Nat × β → σ} (write : β → α → α)
    (hstore : ∀ s m, store (step s m) = (store s).modify m.1 (write m.2))
    {visits : List (Nat × β)} (distinct : (visits.map Prod.fst).Nodup) (s : σ) (p : Nat) :
    (store (visits.foldl step s))[p]? = (store s)[p]?.map (written write visits p) := by
  induction visits generalizing s with
  | nil => cases h : (store s)[p]? <;> simp [h]
  | cons m rest ih =>
    obtain ⟨fresh, tail⟩ := List.nodup_cons.mp distinct
    rw [List.foldl_cons, ih tail, hstore, List.getElem?_modify]
    by_cases hp : m.1 = p
    · cases (store s)[p]? <;> simp [written_cons, hp, written_absent (hp ▸ fresh)]
    · cases (store s)[p]? <;> simp [written_cons, hp]

/-- What a loop appends to an output vector it reads from the store before the loop. -/
theorem foldl_output (store : σ → List α) (out : σ → List γ) {step : σ → Nat × β → σ}
    (write : β → α → α) (emit : β → α → Option γ)
    (hstore : ∀ s m, store (step s m) = (store s).modify m.1 (write m.2))
    (hout : ∀ s m, out (step s m) = out s ++ ((store s)[m.1]?.bind (emit m.2)).toList)
    {visits : List (Nat × β)} (distinct : (visits.map Prod.fst).Nodup) (s : σ) :
    out (visits.foldl step s) =
      out s ++ visits.filterMap fun m => (store s)[m.1]?.bind (emit m.2) := by
  induction visits generalizing s with
  | nil => simp
  | cons m rest ih =>
    obtain ⟨fresh, tail⟩ := List.nodup_cons.mp distinct
    have unread : ∀ m' ∈ rest, (store (step s m))[m'.1]?.bind (emit m'.2) =
        (store s)[m'.1]?.bind (emit m'.2) := by
      intro m' hm'
      have ne : m.1 ≠ m'.1 := fun h => fresh (h ▸ List.mem_map_of_mem hm')
      rw [hstore, List.getElem?_modify]
      simp [ne]
    rw [List.foldl_cons, ih tail, hout, List.filterMap_congr unread, List.append_assoc]
    congr 1
    cases h : (store s)[m.1]?.bind (emit m.2) <;> simp [h]

theorem foldl_same (out : σ → γ) {step : σ → β → σ} (hout : ∀ s m, out (step s m) = out s)
    (visits : List β) (s : σ) : out (visits.foldl step s) = out s := by
  induction visits generalizing s with
  | nil => rfl
  | cons m rest ih => rw [List.foldl_cons, ih, hout]

/-- Pointers that all read something are read in place. -/
theorem getElem?_read {read : α → Option β} {ptrs : List α}
    (all : ∀ p ∈ ptrs, ∃ b, read p = some b) (k : Nat) :
    (ptrs.filterMap read)[k]? = ptrs[k]?.bind read := by
  induction ptrs generalizing k with
  | nil => rfl
  | cons p rest ih =>
    obtain ⟨b, hb⟩ := all p List.mem_cons_self
    rw [List.filterMap_cons_some hb]
    cases k with
    | zero => simp [hb]
    | succ k => simpa using ih (fun q hq => all q (List.mem_cons_of_mem p hq)) k

/-- Visiting every element once is a map. -/
theorem foldl_modify_range {f : α → α} (store : List α) :
    (List.range store.length).foldl (fun store p => store.modify p f) store = store.map f := by
  apply List.ext_getElem?
  intro p
  have once : (((List.range store.length).map fun p => (p, ())).map Prod.fst).Nodup := by
    simpa [Function.comp_def] using List.nodup_range
  have visits := getElem?_foldl_write (fun s : List α => s) (fun _ : Unit => f)
    (fun s (m : Nat × Unit) => (rfl : s.modify m.1 f = s.modify m.1 f)) once store p
  rw [List.foldl_map] at visits
  rw [visits, List.getElem?_map]
  cases h : store[p]? with
  | none => rfl
  | some a =>
    have bound : p < store.length := (List.getElem?_eq_some_iff.mp h).1
    have found : lookupIn p ((List.range store.length).map fun p => (p, ())) = some () :=
      (mem_iff_lookupIn once p ()).mp (by simpa using bound)
    simp [written, found]

end PointerStores
