import Mathlib.Data.List.Basic
import Mathlib.Data.UInt

/-!
# Memories of bytes

A memory gives a byte for every address of 64 bits. Addresses wrap around, so that a
span is told by the distance from its start.
-/

namespace ByteMemories

abbrev Memory := UInt64 → UInt8

structure Span where
  start : UInt64
  size : Nat

def Span.Has (s : Span) (a : UInt64) : Prop := (a - s.start).toNat < s.size

/-- No address is in both spans. -/
def Apart (s t : Span) : Prop := ∀ a, s.Has a → ¬t.Has a

namespace Memory

def read (mem : Memory) (s : Span) : List UInt8 :=
  (List.range s.size).map fun k => mem (s.start + UInt64.ofNat k)

def write (mem : Memory) (a : UInt64) (bytes : List UInt8) : Memory := fun b =>
  bytes.getD (b - a).toNat (mem b)

/-- `memcpy`, where the source is read before the destination is written. -/
def memcpy (mem : Memory) (dst src : UInt64) (size : Nat) : Memory :=
  mem.write dst (mem.read ⟨src, size⟩)

end Memory

variable {mem other : Memory} {s t : Span} {a b : UInt64} {bytes : List UInt8}

theorem Apart.symm (apart : Apart s t) : Apart t s := fun a here there => apart a there here

/-- Spans that do not wrap around, one behind the other. -/
theorem apart_of_le (behind : s.start.toNat + s.size ≤ t.start.toNat)
    (small : t.start.toNat + t.size ≤ 2 ^ 64) : Apart s t := by
  intro a here there
  rw [Span.Has, UInt64.toNat_sub] at here there
  have := a.toNat_lt
  omega

@[simp] theorem read_length (mem : Memory) (s : Span) : (mem.read s).length = s.size := by
  simp [Memory.read]

/-- The distance of an address from the start of its span. -/
theorem offset_toNat (a : UInt64) {k : Nat} (small : k < 2 ^ 64) :
    (a + UInt64.ofNat k - a).toNat = k := by
  rw [UInt64.add_comm, UInt64.add_sub_cancel, UInt64.toNat_ofNat_of_lt' small]

theorem has_offset (small : s.size ≤ 2 ^ 64) {k : Nat} (inside : k < s.size) :
    s.Has (s.start + UInt64.ofNat k) := by
  rw [Span.Has, offset_toNat _ (by omega)]
  exact inside

/-- What is read depends on the bytes of the span. -/
theorem read_congr (small : s.size ≤ 2 ^ 64) (same : ∀ a, s.Has a → mem a = other a) :
    mem.read s = other.read s := by
  refine List.map_congr_left fun k inside => same _ ?_
  exact has_offset small (List.mem_range.mp inside)

theorem write_outside (outside : ¬(⟨a, bytes.length⟩ : Span).Has b) :
    mem.write a bytes b = mem b := by
  rw [Memory.write, List.getD, List.getElem?_eq_none (Nat.le_of_not_lt outside)]
  rfl

theorem read_write (small : bytes.length ≤ 2 ^ 64) :
    (mem.write a bytes).read ⟨a, bytes.length⟩ = bytes := by
  refine List.ext_getElem (by simp) fun k _ inside => ?_
  simp only [Memory.read, List.getElem_map, List.getElem_range, Memory.write]
  rw [offset_toNat _ (by omega), List.getD, List.getElem?_eq_getElem inside]
  rfl

/-- The copy of a span is what the span held. -/
theorem read_memcpy {dst src : UInt64} {size : Nat} (small : size ≤ 2 ^ 64) :
    (mem.memcpy dst src size).read ⟨dst, size⟩ = mem.read ⟨src, size⟩ := by
  have length : (mem.read ⟨src, size⟩).length = size := read_length mem _
  have copied : (mem.write dst (mem.read ⟨src, size⟩)).read ⟨dst, (mem.read ⟨src, size⟩).length⟩ =
      mem.read ⟨src, size⟩ := read_write (length.trans_le small)
  rwa [length] at copied

theorem memcpy_outside {dst src : UInt64} {size : Nat} (outside : ¬(⟨dst, size⟩ : Span).Has b) :
    mem.memcpy dst src size b = mem b := by
  refine write_outside ?_
  rwa [read_length]

end ByteMemories
