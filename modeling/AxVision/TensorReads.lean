import Mathlib.Data.List.Range
import Mathlib.Order.Basic

/-!
# Reads from output tensors

A tensor is an address with a size in bytes, read as single floats. A decoder
records what it reads, and the record is inside if every index it names is
within the bytes of its tensor.
-/

namespace TensorReads

universe u v

variable {F : Type u}

/-- An output tensor. `floats` is what the memory holds from the address on, also
where the tensor has ended. -/
structure Tensor (F : Type u) where
  null : Bool
  nSize : UInt32
  floats : Int → F

structure Read where
  tensor : Nat
  index : Int
  deriving DecidableEq

/-- The float at the index is inside the tensor. -/
def Tensor.Holds (t : Tensor F) (index : Int) : Prop :=
  t.null = false ∧ 0 ≤ index ∧ 4 * (index + 1) ≤ t.nSize.toNat

instance (t : Tensor F) (index : Int) : Decidable (t.Holds index) :=
  inferInstanceAs (Decidable (_ ∧ _ ∧ _))

/-- Floats one behind the other. -/
def span (tensor : Nat) (base : Int) (count : Nat) : List Read :=
  (List.range count).map fun k => ⟨tensor, base + (k : Nat)⟩

def Inside (outs : Nat → Tensor F) (reads : List Read) : Prop :=
  ∀ read ∈ reads, (outs read.tensor).Holds read.index

instance (outs : Nat → Tensor F) (reads : List Read) : Decidable (Inside outs reads) :=
  inferInstanceAs (Decidable (∀ read ∈ reads, (outs read.tensor).Holds read.index))

variable {outs : Nat → Tensor F} {reads more : List Read} {r : Read}

@[simp] theorem inside_nil : Inside outs [] := fun _ mem => nomatch mem

@[simp] theorem inside_cons :
    Inside outs (r :: reads) ↔ (outs r.tensor).Holds r.index ∧ Inside outs reads :=
  List.forall_mem_cons

@[simp] theorem inside_append :
    Inside outs (reads ++ more) ↔ Inside outs reads ∧ Inside outs more := List.forall_mem_append

theorem inside_flatMap {α : Type v} {l : List α} {part : α → List Read} :
    Inside outs (l.flatMap part) ↔ ∀ a ∈ l, Inside outs (part a) := by
  constructor
  · exact fun inside a mem read here => inside read (List.mem_flatMap_of_mem mem here)
  · intro inside read mem
    obtain ⟨a, here, in_part⟩ := List.mem_flatMap.mp mem
    exact inside a here read in_part

/-- A run of floats that ends in time is inside. -/
theorem span_inside {t count : Nat} {base : Int} (here : (outs t).null = false) (front : 0 ≤ base)
    (bytes : 4 * (base + count) ≤ (outs t).nSize.toNat) : Inside outs (span t base count) := by
  intro read mem
  obtain ⟨k, bound, rfl⟩ := List.mem_map.mp mem
  have le := List.mem_range.mp bound
  exact ⟨here, by dsimp only; omega, by dsimp only; omega⟩

/-- A run of floats is inside exactly if its last one is. -/
theorem inside_span (outs : Nat → Tensor F) (t : Nat) {base : Int} (front : 0 ≤ base) (count : Nat) :
    Inside outs (span t base (count + 1)) ↔
      (outs t).null = false ∧ 4 * (base + count + 1) ≤ (outs t).nSize.toNat := by
  constructor
  · intro inside
    have last : (⟨t, base + count⟩ : Read) ∈ span t base (count + 1) :=
      List.mem_map_of_mem (List.mem_range.mpr (Nat.lt_succ_self count))
    obtain ⟨here, -, bytes⟩ := inside _ last
    exact ⟨here, bytes⟩
  · rintro ⟨here, bytes⟩
    exact span_inside here front (by omega)

end TensorReads
