import Mathlib.Data.UInt

/-!
# The bytes of a character in UTF-8

The sequence of a character by its length, and the numbers that decoders put
together from the payload bits of a lead byte and the bytes that continue it.
-/

namespace Utf8Sequences

/-- The encoding of a text. -/
def encode (text : List Char) : List UInt8 := text.flatMap String.utf8EncodeChar

@[simp] theorem encode_cons (c : Char) (rest : List Char) :
    encode (c :: rest) = String.utf8EncodeChar c ++ encode rest := rfl

/-- The bytes of a character: below 0x80, 0x800 and 0x10000, and above. -/
inductive Sequence (v : Nat) : List UInt8 → Prop
  | one {a : UInt8} (small : v < 0x80) (lead : a.toNat = v) : Sequence v [a]
  | two {a b : UInt8} (large : 0x80 ≤ v) (small : v < 0x800) (lead : a.toNat = 0xC0 + v / 64)
      (second : b.toNat = 0x80 + v % 64) : Sequence v [a, b]
  | three {a b c : UInt8} (large : 0x800 ≤ v) (small : v < 0x10000)
      (lead : a.toNat = 0xE0 + v / 4096) (second : b.toNat = 0x80 + v / 64 % 64)
      (third : c.toNat = 0x80 + v % 64) : Sequence v [a, b, c]
  | four {a b c d : UInt8} (large : 0x10000 ≤ v) (top : v < 0x110000)
      (lead : a.toNat = 0xF0 + v / 262144) (second : b.toNat = 0x80 + v / 4096 % 64)
      (third : c.toNat = 0x80 + v / 64 % 64) (fourth : d.toNat = 0x80 + v % 64) :
      Sequence v [a, b, c, d]

theorem encoded (c : Char) : Sequence c.toNat (String.utf8EncodeChar c) := by
  have size {n : Nat} (byte : n < 256) : (UInt8.ofNat n).toNat = n := Nat.mod_eq_of_lt byte
  simp only [String.utf8EncodeChar]
  have same : c.val.toNat = c.toNat := rfl
  rw [same]
  split
  · exact .one (by omega) (size (by omega))
  · split
    · refine .two (by omega) (by omega) ?_ ?_
      · rw [size (by omega)]
        omega
      · rw [size (by omega)]
        omega
    · split
      · refine .three (by omega) (by omega) ?_ ?_ ?_
        · rw [size (by omega)]
          omega
        · rw [size (by omega)]
          omega
        · rw [size (by omega)]
          omega
      · have top : c.toNat < 0x110000 := by
          obtain below | above := c.valid
          · exact Nat.lt_trans below (by decide)
          · exact above.2
        refine .four (by omega) top ?_ ?_ ?_ ?_
        · rw [size (by omega)]
          omega
        · rw [size (by omega)]
          omega
        · rw [size (by omega)]
          omega
        · rw [size (by omega)]
          omega

/-- The lead byte tells the length. -/
theorem Sequence.lead_lt {v : Nat} {a : UInt8} {rest : List UInt8} (h : Sequence v (a :: rest)) :
    (a < 0x80 ↔ v < 0x80) ∧ (a < 0xE0 ↔ v < 0x800) ∧ (a < 0xF0 ↔ v < 0x10000) := by
  simp only [UInt8.lt_iff_toNat_lt, UInt8.reduceToNat]
  cases h with
  | one small lead => omega
  | two large small lead second => omega
  | three large small lead second third => omega
  | four large top lead second third fourth => omega

section Payloads

/-- The payload bits of a byte behind a marker. -/
def payload (mask : UInt32) (byte : UInt8) : UInt32 := byte.toUInt32 &&& mask

def joinTwo (a b : UInt8) : UInt32 := payload 0x1F a <<< 6 ||| payload 0x3F b

def joinThree (a b c : UInt8) : UInt32 :=
  payload 0x0F a <<< 12 ||| payload 0x3F b <<< 6 ||| payload 0x3F c

def joinFour (a b c d : UInt8) : UInt32 :=
  payload 0x07 a <<< 18 ||| payload 0x3F b <<< 12 ||| payload 0x3F c <<< 6 ||| payload 0x3F d

theorem payload_toNat (bits : Nat) (fits : bits ≤ 8) (byte : UInt8) :
    (payload (UInt32.ofNat (2 ^ bits - 1)) byte).toNat = byte.toNat % 2 ^ bits := by
  have small : 2 ^ bits ≤ 2 ^ 8 := Nat.pow_le_pow_right (by decide) fits
  have mask : (UInt32.ofNat (2 ^ bits - 1)).toNat = 2 ^ bits - 1 := Nat.mod_eq_of_lt (by omega)
  rw [payload, UInt32.toNat_and, UInt8.toNat_toUInt32, mask, Nat.and_two_pow_sub_one_eq_mod]

theorem shifted_toNat {bits amount : UInt32} (amount_lt : amount.toNat < 32)
    (room : bits.toNat * 2 ^ amount.toNat < 2 ^ 32) :
    (bits <<< amount).toNat = bits.toNat * 2 ^ amount.toNat := by
  rw [UInt32.toNat_shiftLeft, Nat.mod_eq_of_lt amount_lt, Nat.shiftLeft_eq]
  exact Nat.mod_eq_of_lt room

/-- Numbers in different bits are joined by their sum. -/
theorem or_toNat {high : UInt32} {n shift : Nat} (above : high.toNat = n * 2 ^ shift)
    (low : UInt32) (below : low.toNat < 2 ^ shift) :
    (high ||| low).toNat = high.toNat + low.toNat := by
  rw [UInt32.toNat_or, above, ← Nat.shiftLeft_eq]
  exact (Nat.shiftLeft_add_eq_or_of_lt below n).symm

variable (a b c d : UInt8)

/-- The payload of a continuing byte, in its place. -/
theorem sextet_toNat : (payload 0x3F a).toNat = a.toNat % 64 := payload_toNat 6 (by decide) a

theorem sextet_shifted {amount : UInt32} (amount_le : amount.toNat ≤ 12) :
    (payload 0x3F a <<< amount).toNat = a.toNat % 64 * 2 ^ amount.toNat := by
  have power : 2 ^ amount.toNat ≤ 2 ^ 12 := Nat.pow_le_pow_right (by decide) amount_le
  have small : a.toNat % 64 < 64 := Nat.mod_lt _ (by decide)
  have product := Nat.mul_le_mul small.le power
  rw [shifted_toNat (by omega) (by rw [sextet_toNat]; omega), sextet_toNat]

theorem joinTwo_toNat : (joinTwo a b).toNat = a.toNat % 32 * 64 + b.toNat % 64 := by
  have lead : (payload 0x1F a).toNat = a.toNat % 32 := payload_toNat 5 (by decide) a
  have high : (payload 0x1F a <<< 6).toNat = a.toNat % 32 * 2 ^ 6 := by
    rw [shifted_toNat (by decide) (by rw [lead]; simp only [UInt32.reduceToNat]; omega), lead]
    rfl
  have low := sextet_toNat b
  rw [joinTwo, or_toNat high _ (by omega), high, low]
  rfl

theorem joinThree_toNat :
    (joinThree a b c).toNat = a.toNat % 16 * 4096 + b.toNat % 64 * 64 + c.toNat % 64 := by
  have lead : (payload 0x0F a).toNat = a.toNat % 16 := payload_toNat 4 (by decide) a
  have high : (payload 0x0F a <<< 12).toNat = a.toNat % 16 * 2 ^ 12 := by
    rw [shifted_toNat (by decide) (by rw [lead]; simp only [UInt32.reduceToNat]; omega), lead]
    rfl
  have middle : (payload 0x3F b <<< 6).toNat = b.toNat % 64 * 2 ^ 6 :=
    sextet_shifted b (by decide)
  have low := sextet_toNat c
  have upper := or_toNat high (payload 0x3F b <<< 6) (by omega)
  have above : (payload 0x0F a <<< 12 ||| payload 0x3F b <<< 6).toNat =
      (a.toNat % 16 * 64 + b.toNat % 64) * 2 ^ 6 := by omega
  rw [joinThree, or_toNat above _ (by omega), above, low]
  omega

theorem joinFour_toNat :
    (joinFour a b c d).toNat =
      a.toNat % 8 * 262144 + b.toNat % 64 * 4096 + c.toNat % 64 * 64 + d.toNat % 64 := by
  have lead : (payload 0x07 a).toNat = a.toNat % 8 := payload_toNat 3 (by decide) a
  have high : (payload 0x07 a <<< 18).toNat = a.toNat % 8 * 2 ^ 18 := by
    rw [shifted_toNat (by decide) (by rw [lead]; simp only [UInt32.reduceToNat]; omega), lead]
    rfl
  have second : (payload 0x3F b <<< 12).toNat = b.toNat % 64 * 2 ^ 12 :=
    sextet_shifted b (by decide)
  have third : (payload 0x3F c <<< 6).toNat = c.toNat % 64 * 2 ^ 6 :=
    sextet_shifted c (by decide)
  have low := sextet_toNat d
  have upper := or_toNat high (payload 0x3F b <<< 12) (by omega)
  have above : (payload 0x07 a <<< 18 ||| payload 0x3F b <<< 12).toNat =
      (a.toNat % 8 * 64 + b.toNat % 64) * 2 ^ 12 := by omega
  have most := or_toNat above (payload 0x3F c <<< 6) (by omega)
  have behind : (payload 0x07 a <<< 18 ||| payload 0x3F b <<< 12 ||| payload 0x3F c <<< 6).toNat =
      (a.toNat % 8 * 4096 + b.toNat % 64 * 64 + c.toNat % 64) * 2 ^ 6 := by omega
  rw [joinFour, or_toNat behind _ (by omega), behind, low]
  omega

end Payloads

end Utf8Sequences
