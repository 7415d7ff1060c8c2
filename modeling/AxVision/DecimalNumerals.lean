import Mathlib.Data.UInt
import Mathlib.Data.List.DropRight

/-!
# Unsigned numbers read from text

`strtoull` in base 10 skips spaces, takes a sign and reads the longest run of
digits; `stoull` turns its two failures into errors and tells how much it has
read. A text that is read to its end is a whole number.
-/

namespace DecimalNumerals

/-- The characters that `isspace` accepts in the C locale. -/
def spaces : List Char := [' ', '\t', '\n', Char.ofNat 11, Char.ofNat 12, '\r']

def isSpace (c : Char) : Bool := c ∈ spaces

def takeSign : List Char → Bool × List Char
  | '-' :: rest => (true, rest)
  | '+' :: rest => (false, rest)
  | text => (false, text)

def value (digits : List Char) : Nat := Nat.ofDigitChars 10 digits 0

/-- The sign, the digits and the rest of a text; there may be no digits. -/
def scan (text : List Char) : Bool × List Char × List Char :=
  let (negative, rest) := takeSign (text.dropWhile isSpace)
  (negative, rest.takeWhile Char.isDigit, rest.dropWhile Char.isDigit)

inductive Failure where
  | invalidArgument
  | outOfRange
  deriving DecidableEq, Repr

/-- `std::stoull`: the number and the characters it takes up. A negative number
is taken modulo 2^64. -/
def stoull (text : String) : Except Failure (UInt64 × Nat) :=
  let (negative, digits, rest) := scan text.toList
  if digits = [] then .error .invalidArgument
  else if 2 ^ 64 ≤ value digits then .error .outOfRange
  else
    .ok (if negative then 0 - UInt64.ofNat (value digits) else UInt64.ofNat (value digits),
      text.toList.length - rest.length)

/-- Spaces, a sign and digits that fit, and nothing else. -/
def WholeNumber (text : List Char) : Prop :=
  ∃ blanks sign digits, text = blanks ++ sign ++ digits ∧ (∀ c ∈ blanks, isSpace c = true) ∧
    (sign = [] ∨ sign = ['-'] ∨ sign = ['+']) ∧ digits ≠ [] ∧
    (∀ c ∈ digits, c.isDigit = true) ∧ value digits < 2 ^ 64

section Scanning

variable {text : List Char} {digits : List Char}

theorem not_space_of_digit {c : Char} (digit : c.isDigit = true) : isSpace c = false := by
  by_contra space
  have mem : c ∈ spaces := of_decide_eq_true (Bool.eq_true_of_not_eq_false space)
  have none : spaces.all (fun blank => !blank.isDigit) = true := by decide
  have blank := List.all_eq_true.mp none c mem
  rw [digit] at blank
  cases blank

/-- Digits have no sign. -/
theorem takeSign_digits (only : ∀ c ∈ digits, c.isDigit = true) :
    takeSign digits = (false, digits) := by
  unfold takeSign
  split
  · exact absurd (only '-' List.mem_cons_self) (by decide)
  · exact absurd (only '+' List.mem_cons_self) (by decide)
  · rfl

theorem dropWhile_digits (only : ∀ c ∈ digits, c.isDigit = true) (some_digit : digits ≠ []) :
    digits.dropWhile isSpace = digits := by
  obtain ⟨first, rest, rfl⟩ := List.exists_cons_of_ne_nil some_digit
  rw [List.dropWhile_cons_of_neg]
  rw [not_space_of_digit (only first List.mem_cons_self)]
  exact Bool.false_ne_true

theorem scan_digits (only : ∀ c ∈ digits, c.isDigit = true) (some_digit : digits ≠ []) :
    scan digits = (false, digits, []) := by
  rw [scan, dropWhile_digits only some_digit, takeSign_digits only]
  dsimp only
  rw [List.takeWhile_eq_self_iff.mpr only, List.dropWhile_eq_nil_iff.mpr only]

theorem scan_whole {blanks sign : List Char} (blank : ∀ c ∈ blanks, isSpace c = true)
    (signed : sign = [] ∨ sign = ['-'] ∨ sign = ['+'])
    (only : ∀ c ∈ digits, c.isDigit = true) (some_digit : digits ≠ []) :
    (scan (blanks ++ sign ++ digits)).2 = (digits, []) := by
  have stops : (sign ++ digits).dropWhile isSpace = sign ++ digits := by
    obtain rfl | rfl | rfl := signed
    · exact dropWhile_digits only some_digit
    · rfl
    · rfl
  have run : digits.takeWhile Char.isDigit = digits ∧ digits.dropWhile Char.isDigit = [] :=
    ⟨List.takeWhile_eq_self_iff.mpr only, List.dropWhile_eq_nil_iff.mpr only⟩
  have unsigned := takeSign_digits only
  rw [scan, List.append_assoc, List.dropWhile_append_of_pos blank, stops]
  obtain rfl | rfl | rfl := signed
  · rw [List.nil_append, unsigned]
    exact Prod.ext run.1 run.2
  · exact Prod.ext run.1 run.2
  · exact Prod.ext run.1 run.2

/-- The parts of a scanned text make it up. -/
theorem scan_parts (text : List Char) :
    ∃ blanks sign, text = blanks ++ sign ++ ((scan text).2.1 ++ (scan text).2.2) ∧
      (∀ c ∈ blanks, isSpace c = true) ∧ (sign = [] ∨ sign = ['-'] ∨ sign = ['+']) ∧
      ∀ c ∈ (scan text).2.1, c.isDigit = true := by
  have signed : ∃ sign, text.dropWhile isSpace = sign ++ (takeSign (text.dropWhile isSpace)).2 ∧
      (sign = [] ∨ sign = ['-'] ∨ sign = ['+']) := by
    generalize text.dropWhile isSpace = rest
    unfold takeSign
    split
    · exact ⟨['-'], rfl, .inr (.inl rfl)⟩
    · exact ⟨['+'], rfl, .inr (.inr rfl)⟩
    · exact ⟨[], rfl, .inl rfl⟩
  obtain ⟨sign, split, signed⟩ := signed
  refine ⟨text.takeWhile isSpace, sign, ?_, fun c mem => List.mem_takeWhile_imp mem, signed,
    fun c mem => List.mem_takeWhile_imp mem⟩
  rw [scan, List.takeWhile_append_dropWhile, List.append_assoc, ← split,
    List.takeWhile_append_dropWhile]

end Scanning

/-- `stoull` reads a text to its end exactly when the text is a whole number. -/
theorem stoull_whole_iff (text : String) :
    (∃ number, stoull text = .ok (number, text.toList.length)) ↔ WholeNumber text.toList := by
  obtain ⟨blanks, sign, parts, blank, signed, only⟩ := scan_parts text.toList
  constructor
  · rintro ⟨number, read⟩
    unfold stoull at read
    cases scanned : scan text.toList with
    | mk negative found =>
      obtain ⟨digits, rest⟩ := found
      rw [scanned] at read parts only
      dsimp only at read parts only
      split at read
      · cases read
      · rename_i some_digit
        split at read
        · cases read
        · rename_i small
          have taken : text.toList.length - rest.length = text.toList.length :=
            congrArg Prod.snd (Except.ok.inj read)
          have length := congrArg List.length parts
          simp only [List.length_append] at length
          have digit := List.length_pos_iff.mpr some_digit
          have nothing : rest = [] := by
            apply List.length_eq_zero_iff.mp
            omega
          rw [nothing, List.append_nil] at parts
          exact ⟨blanks, sign, digits, parts, blank, signed, some_digit, only,
            Nat.lt_of_not_le small⟩
  · rintro ⟨blanks, sign, digits, whole, blank, signed, some_digit, only, small⟩
    have scanned := scan_whole blank signed only some_digit
    rw [← whole] at scanned
    unfold stoull
    cases same : scan text.toList with
    | mk negative found =>
      rw [same] at scanned
      obtain rfl : found = (digits, []) := scanned
      dsimp only
      rw [if_neg some_digit, if_neg (Nat.not_le_of_lt small)]
      exact ⟨_, rfl⟩

/-- A printed number is read back. -/
theorem stoull_toString (n : UInt64) :
    stoull (toString n.toNat) = .ok (n, (toString n.toNat).toList.length) := by
  have text : (toString n.toNat).toList = Nat.toDigits 10 n.toNat := by
    rw [Nat.toString_eq_ofList_toDigits, String.toList_ofList]
  have only : ∀ c ∈ Nat.toDigits 10 n.toNat, c.isDigit = true :=
    fun c mem => Nat.isDigit_of_mem_toDigits (by decide) (by decide) mem
  have back : value (Nat.toDigits 10 n.toNat) = n.toNat := Nat.ofDigitChars_ten_toDigits
  have scanned : scan (Nat.toDigits 10 n.toNat) = (false, Nat.toDigits 10 n.toNat, []) :=
    scan_digits only Nat.toDigits_ne_nil
  unfold stoull
  rw [text, scanned]
  dsimp only
  rw [if_neg Nat.toDigits_ne_nil, back, if_neg (Nat.not_le_of_lt n.toNat_lt)]
  simp

end DecimalNumerals
