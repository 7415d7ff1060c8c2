import AxVision.DecimalNumerals
import AxVision.DetectionTypes
import Mathlib.Data.List.TakeWhile

/-!
# Numbers with a fraction read from text

`strtof` skips spaces, takes a sign and reads the longest decimal or
hexadecimal numeral or a special value; `stof` turns its two failures into
errors. The number type tells how a magnitude is rounded.
-/

namespace FloatTexts

open DecimalNumerals DetectionTypes

universe u

/-- A number type that numerals are rounded to. -/
class FloatText (F : Type u) extends Scalar F where
  nearest : (negative : Bool) → (magnitude : ℚ) → F
  infinity : (negative : Bool) → F
  nan : F
  outOfRange : ℚ → Bool

/-- Exact arithmetic: nothing is rounded. A `float` has no magnitude of 2^128. -/
instance : FloatText ℚ where
  nearest negative magnitude := if negative then -magnitude else magnitude
  infinity _ := 0
  nan := 0
  outOfRange magnitude := 2 ^ 128 ≤ magnitude

inductive Magnitude where
  | finite (q : ℚ)
  | infinity
  | nan

def isHexDigit (c : Char) : Bool := c.isDigit || 'a' ≤ c.toLower && c.toLower ≤ 'f'

def hexValue (c : Char) : Nat :=
  if c.isDigit then c.toNat - '0'.toNat else c.toLower.toNat - 'a'.toNat + 10

def hexNumber (digits : List Char) : Nat := digits.foldl (fun n c => n * 16 + hexValue c) 0

/-- Digits around a point that may be absent, and what is behind them. -/
def scanMantissa (radix : Nat) (isDigit : Char → Bool) (number : List Char → Nat)
    (text : List Char) : Option (ℚ × List Char) :=
  let whole := text.takeWhile isDigit
  match text.dropWhile isDigit with
  | '.' :: behind =>
    let fraction := behind.takeWhile isDigit
    if whole = [] ∧ fraction = [] then none
    else some (number (whole ++ fraction) / radix ^ fraction.length, behind.dropWhile isDigit)
  | rest => if whole = [] then none else some (number whole, rest)

/-- The exponent, which is 0 if no digit follows its letter. -/
def scanExponent (letters : List Char) : List Char → Int
  | [] => 0
  | letter :: rest =>
    if letter ∈ letters then
      let (negative, behind) := takeSign rest
      let exponent : Int := value (behind.takeWhile Char.isDigit)
      if negative then -exponent else exponent
    else 0

def strtofDecimal (text : List Char) : Option ℚ :=
  (scanMantissa 10 Char.isDigit value text).map fun (mantissa, rest) =>
    mantissa * 10 ^ scanExponent ['e', 'E'] rest

def strtofHex : List Char → Option ℚ
  | '0' :: x :: rest =>
    if x = 'x' ∨ x = 'X' then
      (scanMantissa 16 isHexDigit hexNumber rest).map fun (mantissa, rest) =>
        mantissa * 2 ^ scanExponent ['p', 'P'] rest
    else none
  | _ => none

/-- The numeral or the special value that a text begins with. -/
def strtof (text : List Char) : Option Magnitude :=
  match strtofHex text with
  | some q => some (.finite q)
  | none =>
    match strtofDecimal text with
    | some q => some (.finite q)
    | none =>
      let lower := text.map Char.toLower
      if "inf".toList.isPrefixOf lower then some .infinity
      else if "nan".toList.isPrefixOf lower then some .nan
      else none

/-- `std::stof`. -/
def stof {F : Type u} [FloatText F] (text : List Char) : Except Failure F :=
  let (negative, text) := takeSign (text.dropWhile isSpace)
  match strtof text with
  | none => .error .invalidArgument
  | some (.finite q) =>
    if FloatText.outOfRange F q then .error .outOfRange else .ok (FloatText.nearest negative q)
  | some .infinity => .ok (FloatText.infinity negative)
  | some .nan => .ok FloatText.nan

section Numerals

variable {rest : List Char} {n : Nat}

/-- What follows a plain numeral and is no part of it. -/
def Stops (rest : List Char) : Prop :=
  ∀ c, rest.head? = some c → c.isDigit = false ∧ c ≠ '.' ∧ c ∉ ['e', 'E', 'x', 'X']

theorem scanExponent_stops (stops : Stops rest) : scanExponent ['e', 'E'] rest = 0 := by
  cases rest with
  | nil => rfl
  | cons c behind =>
    obtain ⟨-, -, letter⟩ := stops c rfl
    rw [scanExponent, if_neg]
    intro mem
    exact letter (by simp only [List.mem_cons] at mem ⊢; tauto)

/-- A run of digits is taken up to where it stops. -/
theorem span_digits {digits : List Char} (only : ∀ c ∈ digits, c.isDigit = true)
    (stops : Stops rest) :
    (digits ++ rest).takeWhile Char.isDigit = digits ∧
      (digits ++ rest).dropWhile Char.isDigit = rest := by
  have stop : rest.takeWhile Char.isDigit = [] ∧ rest.dropWhile Char.isDigit = rest := by
    cases rest with
    | nil => exact ⟨rfl, rfl⟩
    | cons c behind =>
      have no := Bool.eq_false_iff.mp (stops c rfl).1
      exact ⟨List.takeWhile_cons_of_neg no, List.dropWhile_cons_of_neg no⟩
  rw [List.takeWhile_append_of_pos only, List.dropWhile_append_of_pos only, stop.1, stop.2,
    List.append_nil]
  exact ⟨rfl, rfl⟩

theorem scanMantissa_digits {digits : List Char} (only : ∀ c ∈ digits, c.isDigit = true)
    (some_digit : digits ≠ []) (stops : Stops rest) :
    scanMantissa 10 Char.isDigit value (digits ++ rest) = some ((value digits : ℚ), rest) := by
  obtain ⟨whole, behind⟩ := span_digits only stops
  simp only [scanMantissa, whole, behind]
  split
  · exact absurd rfl (stops '.' rfl).2.1
  · rw [if_neg some_digit]

/-- Digits that no `x` follows are no hexadecimal numeral. -/
theorem strtofHex_digits {digits : List Char} (only : ∀ c ∈ digits, c.isDigit = true)
    (some_digit : digits ≠ []) (stops : Stops rest) : strtofHex (digits ++ rest) = none := by
  obtain ⟨first, more, rfl⟩ := List.exists_cons_of_ne_nil some_digit
  have second : ∀ x, (more ++ rest).head? = some x → ¬(x = 'x' ∨ x = 'X') := by
    intro x head
    cases more with
    | nil =>
      have letter := (stops x head).2.2
      simp only [List.mem_cons, not_or] at letter
      tauto
    | cons d _ =>
      obtain rfl := Option.some.inj head
      have digit := only d (List.mem_cons_of_mem _ List.mem_cons_self)
      rintro (rfl | rfl)
      · exact absurd digit (by decide)
      · exact absurd digit (by decide)
  rw [List.cons_append]
  generalize more ++ rest = tail at second
  unfold strtofHex
  split
  · rename_i x behind same
    rw [List.cons.injEq] at same
    rw [same.2] at second
    rw [if_neg (second x rfl)]
  · rfl

theorem digits_only (n : Nat) : ∀ c ∈ Nat.toDigits 10 n, c.isDigit = true :=
  fun _ mem => Nat.isDigit_of_mem_toDigits (by decide) (by decide) mem

/-- A printed natural number is read up to where it stops. -/
theorem stof_digits {F : Type u} [FloatText F] (n : Nat) (stops : Stops rest) :
    stof (F := F) (Nat.toDigits 10 n ++ rest) =
      if FloatText.outOfRange F n then .error .outOfRange else .ok (FloatText.nearest false n) := by
  have only := digits_only n
  have some_digit : Nat.toDigits 10 n ≠ [] := Nat.toDigits_ne_nil
  have back : value (Nat.toDigits 10 n) = n := Nat.ofDigitChars_ten_toDigits
  have unsigned : takeSign ((Nat.toDigits 10 n ++ rest).dropWhile isSpace) =
      (false, Nat.toDigits 10 n ++ rest) := by
    obtain ⟨first, more, same⟩ := List.exists_cons_of_ne_nil some_digit
    have digit := only first (same ▸ List.mem_cons_self)
    rw [same, List.cons_append, List.dropWhile_cons_of_neg]
    · unfold takeSign
      split
      · rename_i minus
        rw [(List.cons.inj minus).1] at digit
        exact absurd digit (by decide)
      · rename_i plus
        rw [(List.cons.inj plus).1] at digit
        exact absurd digit (by decide)
      · rfl
    · rw [not_space_of_digit digit]
      exact Bool.false_ne_true
  have number : strtof (Nat.toDigits 10 n ++ rest) = some (.finite n) := by
    have decimal : strtofDecimal (Nat.toDigits 10 n ++ rest) = some (n : ℚ) := by
      rw [strtofDecimal, scanMantissa_digits only some_digit stops, Option.map_some]
      dsimp only
      rw [scanExponent_stops stops, back, zpow_zero, mul_one]
    rw [strtof, strtofHex_digits only some_digit stops, decimal]
  rw [stof, unsigned]
  dsimp only
  rw [number]

end Numerals

end FloatTexts
