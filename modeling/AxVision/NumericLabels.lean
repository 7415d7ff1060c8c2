import AxVision.TrackerConfigs

/-!
# The numbers that are no label names

The grammar of the YAML numbers: an optional sign in front of digits of a base
with its prefix or of a decimal number with an exponent, and the special
values. The scanner of the tracker's configuration accepts exactly these.
-/

namespace NumericLabels

open TrackerConfigs

/-- The bases of the numbers. -/
inductive Base where
  | binary
  | octal
  | decimal
  | hexadecimal
  deriving DecidableEq

def Base.radix : Base → Nat
  | .binary => 2
  | .octal => 8
  | .decimal => 10
  | .hexadecimal => 16

def Base.digits : Base → List Char
  | .binary => "01".toList
  | .octal => "01234567".toList
  | .decimal => "0123456789".toList
  | .hexadecimal => "0123456789abcdefABCDEF".toList

/-- The letter behind the zero, in either case. -/
def Base.letters : Base → List Char
  | .binary => ['b', 'B']
  | .octal => ['o', 'O']
  | .decimal => []
  | .hexadecimal => ['x', 'X']

def signs : List (List Char) := [[], ['+'], ['-']]

/-- Digits of a base and underscores. -/
def Run (base : Base) (text : List Char) : Prop :=
  ∀ c ∈ text, c = '_' ∨ c ∈ base.digits

def HasDigit (base : Base) (text : List Char) : Prop :=
  ∃ c ∈ text, c ∈ base.digits

/-- Digits and underscores, and perhaps a point and more of them, with a digit. -/
inductive Mantissa : List Char → Prop
  | whole {text : List Char} (run : Run .decimal text) (some : HasDigit .decimal text) :
      Mantissa text
  | point {whole fraction : List Char} (before : Run .decimal whole)
      (behind : Run .decimal fraction) (some : HasDigit .decimal (whole ++ fraction)) :
      Mantissa (whole ++ '.' :: fraction)

inductive Exponent : List Char → Prop
  | absent : Exponent []
  | present {letter : Char} {sign digits : List Char} (mark : letter = 'e' ∨ letter = 'E')
      (signed : sign ∈ signs) (run : Run .decimal digits) (some : HasDigit .decimal digits) :
      Exponent (letter :: (sign ++ digits))

inductive Numeric : List Char → Prop
  | based {base : Base} {letter : Char} {sign digits : List Char} (signed : sign ∈ signs)
      (mark : letter ∈ base.letters) (run : Run base digits) (some : HasDigit base digits) :
      Numeric (sign ++ '0' :: letter :: digits)
  | decimal {sign mantissa exponent : List Char} (signed : sign ∈ signs)
      (number : Mantissa mantissa) (scale : Exponent exponent) :
      Numeric (sign ++ (mantissa ++ exponent))
  | special {word : String} {sign text : List Char} (signed : sign ∈ signs)
      (known : word ∈ [".inf", ".nan"]) (same : text.map Char.toLower = sign ++ word.toList) :
      Numeric text

section Digits

variable {base : Base} {c : Char} {text : List Char}

theorem toLower_of_large (large : 128 ≤ c.toNat) : c.toLower = c := by
  unfold Char.toLower
  split
  · rename_i upper
    have : c.toNat ≤ 90 := upper.2
    omega
  · rfl

/-- The digits are ASCII characters that are no underscore, sign or point. -/
theorem digit_facts (mem : c ∈ base.digits) :
    c.toNat < 128 ∧ c ≠ '_' ∧ c ≠ '+' ∧ c ≠ '-' ∧ c ≠ '.' := by
  have known : (base.digits.all fun d =>
      d.toNat < 128 ∧ d ≠ '_' ∧ d ≠ '+' ∧ d ≠ '-' ∧ d ≠ '.') = true := by
    cases base with
    | binary => decide
    | octal => decide
    | decimal => decide
    | hexadecimal => decide
  exact of_decide_eq_true (List.all_eq_true.mp known c mem)

theorem underscore_no_digit (base : Base) : '_' ∉ base.digits :=
  fun mem => (digit_facts mem).2.1 rfl

theorem ascii_digits (base : Base) :
    ((List.range 128).all fun n =>
      isBaseDigit (Char.ofNat n) base.radix == decide (Char.ofNat n ∈ base.digits)) = true := by
  cases base with
  | binary => decide +kernel
  | octal => decide +kernel
  | decimal => decide +kernel
  | hexadecimal => decide +kernel

/-- The code's test of a digit is membership in the digits of the base. -/
theorem isBaseDigit_iff (base : Base) (c : Char) :
    isBaseDigit c base.radix = true ↔ c ∈ base.digits := by
  by_cases small : c.toNat < 128
  · have entry := List.all_eq_true.mp (ascii_digits base) c.toNat (List.mem_range.mpr small)
    rw [Char.ofNat_toNat, beq_iff_eq] at entry
    rw [entry, decide_eq_true_eq]
  · have large : 128 ≤ c.toNat := Nat.not_lt.mp small
    constructor
    · intro digit
      unfold isBaseDigit at digit
      rw [toLower_of_large large] at digit
      split at digit
      · rename_i between
        have : c.toNat ≤ 57 := between.2
        omega
      · simp only [Bool.and_eq_true, decide_eq_true_eq] at digit
        have : c.toNat ≤ 102 := digit.2.2
        omega
    · intro mem
      exact absurd (digit_facts mem).1 small

/-- The loop of `IsDigitSequence`: a run, and a digit in it unless there was one before. -/
theorem digitSequence_iff (base : Base) (text : List Char) (hasDigit : Bool) :
    digitSequence base.radix text hasDigit = true ↔
      Run base text ∧ (hasDigit = true ∨ HasDigit base text) := by
  induction text generalizing hasDigit with
  | nil => simp [digitSequence, Run, HasDigit]
  | cons c rest ih =>
    rw [digitSequence]
    by_cases underscore : c = '_'
    · rw [if_pos underscore, ih]
      simp [Run, HasDigit, underscore, underscore_no_digit base]
    · rw [if_neg underscore]
      by_cases digit : isBaseDigit c base.radix = true
      · rw [if_pos digit, ih]
        have mem := (isBaseDigit_iff base c).mp digit
        simp [Run, HasDigit, mem]
      · rw [if_neg digit]
        have out : c ∉ base.digits := fun mem => digit ((isBaseDigit_iff base c).mpr mem)
        simp [Run, underscore, out]

theorem isDigitSequence_iff (base : Base) (text : List Char) :
    isDigitSequence text base.radix = true ↔ Run base text ∧ HasDigit base text := by
  simp [isDigitSequence, digitSequence_iff]

end Digits

section Decimals

variable {run rest whole fraction text sign : List Char}

/-- No further digit or underscore follows. -/
def Stops (rest : List Char) : Prop :=
  ∀ c ∈ rest.head?, c ≠ '_' ∧ c ∉ Base.decimal.digits

theorem stops_cons {c : Char} (tail : List Char) (underscore : c ≠ '_')
    (digit : c ∉ Base.decimal.digits) : Stops (c :: tail) := by
  intro d head
  cases head
  exact ⟨underscore, digit⟩

theorem inRun_iff (c : Char) :
    (isBaseDigit c 10 || c == '_') = true ↔ c = '_' ∨ c ∈ Base.decimal.digits := by
  rw [Bool.or_eq_true, beq_iff_eq, or_comm]
  exact or_congr_right (isBaseDigit_iff .decimal c)

theorem run_split (text : List Char) :
    ∃ run rest, text = run ++ rest ∧ Run .decimal run ∧ Stops rest := by
  induction text with
  | nil => exact ⟨[], [], rfl, by simp [Run], by simp [Stops]⟩
  | cons c rest ih =>
    by_cases inside : c = '_' ∨ c ∈ Base.decimal.digits
    · obtain ⟨run, last, rfl, only, stops⟩ := ih
      exact ⟨c :: run, last, rfl, List.forall_mem_cons.mpr ⟨inside, only⟩, stops⟩
    · obtain ⟨underscore, digit⟩ := not_or.mp inside
      exact ⟨[], c :: rest, rfl, by simp [Run], stops_cons rest underscore digit⟩

/-- The scanner takes the whole run and notes whether there is a digit in it. -/
theorem scanMantissa_append (only : Run .decimal run) (stops : Stops rest) (digit : Bool) :
    ∃ found, scanMantissa (run ++ rest) digit = (found, rest) ∧
      (found = true ↔ digit = true ∨ HasDigit .decimal run) := by
  induction run generalizing digit with
  | nil =>
    refine ⟨digit, ?_, by simp [HasDigit]⟩
    cases rest with
    | nil => rfl
    | cons c tail =>
      have out : ¬(isBaseDigit c 10 || c == '_') = true := by
        rw [inRun_iff, not_or]
        exact stops c rfl
      rw [List.nil_append, scanMantissa, if_neg out]
  | cons c tail ih =>
    obtain ⟨inside, only⟩ := List.forall_mem_cons.mp only
    obtain ⟨found, scanned, iff⟩ := ih only (digit || c != '_')
    refine ⟨found, ?_, iff.trans ?_⟩
    · rw [List.cons_append, scanMantissa, if_pos ((inRun_iff c).mpr inside)]
      exact scanned
    · rcases inside with rfl | mem
      · simp [HasDigit, underscore_no_digit]
      · have other : c ≠ '_' := fun same => underscore_no_digit .decimal (same ▸ mem)
        simp [HasDigit, mem, other]

theorem dropSign_split (text : List Char) : ∃ sign ∈ signs, text = sign ++ dropSign text := by
  unfold dropSign
  split
  · exact ⟨['+'], by simp [signs], rfl⟩
  · exact ⟨['-'], by simp [signs], rfl⟩
  · exact ⟨[], by simp [signs], rfl⟩

theorem dropSign_append (signed : sign ∈ signs) (plain : ∀ c ∈ text.head?, c ≠ '+' ∧ c ≠ '-') :
    dropSign (sign ++ text) = text := by
  simp only [signs, List.mem_cons, List.not_mem_nil, or_false] at signed
  rcases signed with rfl | rfl | rfl
  · cases text with
    | nil => rfl
    | cons c rest =>
      obtain ⟨plus, minus⟩ := plain c rfl
      rw [List.nil_append, dropSign]
      · intro _ same
        exact plus (List.cons.inj same).1
      · intro _ same
        exact minus (List.cons.inj same).1
  · rfl
  · rfl

theorem run_plain {base : Base} (only : Run base text) :
    ∀ c ∈ text.head?, c ≠ '+' ∧ c ≠ '-' := by
  intro c head
  rcases only c (List.mem_of_mem_head? head) with rfl | mem
  · decide
  · obtain ⟨-, -, plus, minus, -⟩ := digit_facts mem
    exact ⟨plus, minus⟩

theorem exponentOk_iff (text : List Char) : exponentOk text = true ↔ Exponent text := by
  cases text with
  | nil => exact iff_of_true rfl .absent
  | cons c rest =>
    simp only [exponentOk, Bool.and_eq_true, Bool.or_eq_true, beq_iff_eq]
    rw [show (10 : Nat) = Base.decimal.radix from rfl, isDigitSequence_iff]
    constructor
    · rintro ⟨mark, only, some⟩
      obtain ⟨sign, signed, same⟩ := dropSign_split rest
      rw [same]
      exact .present mark signed only some
    · intro exponent
      cases exponent with
      | present mark signed only some =>
        rw [dropSign_append signed (run_plain only)]
        exact ⟨mark, only, some⟩

/-- Without a point the run is the mantissa. -/
theorem isDecimal_whole (only : Run .decimal run) (stops : Stops rest)
    (plain : ∀ c ∈ rest.head?, c ≠ '.') :
    isDecimal (run ++ rest) = true ↔ HasDigit .decimal run ∧ Exponent rest := by
  obtain ⟨found, scanned, iff⟩ := scanMantissa_append only stops false
  simp only [isDecimal, scanned]
  split
  · rename_i tail
    exact absurd rfl (plain '.' rfl)
  · rw [Bool.and_eq_true, exponentOk_iff, iff]
    simp only [Bool.false_eq_true, false_or]

/-- Behind a point the scanner goes on, and the digits on its both sides count. -/
theorem isDecimal_point (before : Run .decimal whole) (behind : Run .decimal fraction)
    (stops : Stops rest) :
    isDecimal (whole ++ '.' :: (fraction ++ rest)) = true ↔
      HasDigit .decimal (whole ++ fraction) ∧ Exponent rest := by
  have point : Stops ('.' :: (fraction ++ rest)) := stops_cons _ (by decide) (by decide)
  obtain ⟨found, scanned, iff⟩ := scanMantissa_append before point false
  obtain ⟨later, scannedLater, iffLater⟩ := scanMantissa_append behind stops found
  simp only [isDecimal, scanned, scannedLater]
  rw [Bool.and_eq_true, exponentOk_iff, iffLater, iff]
  simp only [Bool.false_eq_true, false_or, HasDigit, List.mem_append, or_and_right, exists_or]

theorem stops_exponent (exponent : Exponent text) :
    Stops text ∧ ∀ c ∈ text.head?, c ≠ '.' := by
  cases exponent with
  | absent => simp [Stops]
  | present mark =>
    rcases mark with rfl | rfl
    · exact ⟨stops_cons _ (by decide) (by decide), fun c head => by cases head; decide⟩
    · exact ⟨stops_cons _ (by decide) (by decide), fun c head => by cases head; decide⟩

theorem isDecimal_iff (text : List Char) :
    isDecimal text = true ↔
      ∃ mantissa exponent, text = mantissa ++ exponent ∧ Mantissa mantissa ∧ Exponent exponent := by
  constructor
  · intro decimal
    obtain ⟨whole, rest, rfl, before, stops⟩ := run_split text
    by_cases point : rest.head? = some '.'
    · obtain ⟨tail, rfl⟩ := List.head?_eq_some_iff.mp point
      obtain ⟨fraction, last, rfl, behind, stops⟩ := run_split tail
      obtain ⟨some, exponent⟩ := (isDecimal_point before behind stops).mp decimal
      exact ⟨whole ++ '.' :: fraction, last, by simp, .point before behind some, exponent⟩
    · have plain : ∀ c ∈ rest.head?, c ≠ '.' := fun c head same => point (same ▸ head)
      obtain ⟨some, exponent⟩ := (isDecimal_whole before stops plain).mp decimal
      exact ⟨whole, rest, rfl, .whole before some, exponent⟩
  · rintro ⟨mantissa, exponent, rfl, number, scale⟩
    obtain ⟨stops, plain⟩ := stops_exponent scale
    cases number with
    | whole run some => exact (isDecimal_whole run stops plain).mpr ⟨some, scale⟩
    | point before behind some =>
      rw [List.append_assoc, List.cons_append]
      exact (isDecimal_point before behind stops).mpr ⟨some, scale⟩

/-- The first character of a decimal number. -/
theorem mantissa_head (number : Mantissa text) :
    ∃ c rest, text = c :: rest ∧ (c = '_' ∨ c ∈ Base.decimal.digits ∨ c = '.') := by
  cases number with
  | whole run some =>
    obtain ⟨c, rest, rfl⟩ := List.exists_cons_of_ne_nil (List.ne_nil_of_mem some.choose_spec.1)
    exact ⟨c, rest, rfl, (run c List.mem_cons_self).imp_right Or.inl⟩
  | @point whole fraction before _ _ =>
    cases whole with
    | nil => exact ⟨'.', fraction, rfl, Or.inr (Or.inr rfl)⟩
    | cons c rest =>
      exact ⟨c, _, rfl, (before c List.mem_cons_self).imp_right Or.inl⟩

/-- A decimal number without its sign does not begin with a sign. -/
theorem decimal_plain (number : Mantissa text) :
    ∀ c ∈ (text ++ rest).head?, c ≠ '+' ∧ c ≠ '-' := by
  obtain ⟨first, tail, rfl, kind⟩ := mantissa_head number
  intro c head
  cases head
  rcases kind with rfl | mem | rfl
  · decide
  · obtain ⟨-, -, plus, minus, -⟩ := digit_facts mem
    exact ⟨plus, minus⟩
  · decide

end Decimals

section Numbers

variable {base : Base} {c letter : Char} {digits text : List Char}

theorem toLower_iff {small : Char} (low : small.toNat < 128) (choices : List Char)
    (ascii : (choices.all fun d => d.toNat < 128) = true)
    (table : ((List.range 128).all fun n =>
      decide ((Char.ofNat n).toLower = small) == decide (Char.ofNat n ∈ choices)) = true) :
    c.toLower = small ↔ c ∈ choices := by
  by_cases here : c.toNat < 128
  · have entry := List.all_eq_true.mp table c.toNat (List.mem_range.mpr here)
    rw [Char.ofNat_toNat, beq_iff_eq, decide_eq_decide] at entry
    exact entry
  · rw [toLower_of_large (Nat.not_lt.mp here)]
    constructor
    · rintro rfl
      exact absurd low here
    · intro mem
      exact absurd (of_decide_eq_true (List.all_eq_true.mp ascii c mem)) here

theorem binary_letter : letter.toLower = 'b' ↔ letter ∈ Base.binary.letters :=
  toLower_iff (by decide) ['b', 'B'] (by decide) (by decide)

theorem octal_letter : letter.toLower = 'o' ↔ letter ∈ Base.octal.letters :=
  toLower_iff (by decide) ['o', 'O'] (by decide) (by decide)

theorem hexadecimal_letter : letter.toLower = 'x' ↔ letter ∈ Base.hexadecimal.letters :=
  toLower_iff (by decide) ['x', 'X'] (by decide) (by decide)

/-- A letter belongs to one base. -/
theorem base_of_letter {other : Base} (mark : letter ∈ base.letters)
    (again : letter ∈ other.letters) : base = other := by
  have apart : base ≠ other → (base.letters.all fun l => l ∉ other.letters) = true := by
    cases base <;> cases other <;> decide
  by_contra different
  exact of_decide_eq_true (List.all_eq_true.mp (apart different) letter mark) again

/-- A zero and the letter of a base do not begin a decimal number. -/
theorem based_not_decimal (mark : letter ∈ base.letters) :
    ¬isDecimal ('0' :: letter :: digits) = true := by
  have apart : (base.letters.all fun l =>
      l ≠ '_' ∧ l ∉ Base.decimal.digits ∧ l ≠ '.' ∧ l ≠ 'e' ∧ l ≠ 'E') = true := by
    cases base with
    | binary => decide
    | octal => decide
    | decimal => decide
    | hexadecimal => decide
  have known : letter ≠ '_' ∧ letter ∉ Base.decimal.digits ∧ letter ≠ '.' ∧ letter ≠ 'e' ∧
      letter ≠ 'E' := of_decide_eq_true (List.all_eq_true.mp apart letter mark)
  obtain ⟨noUnderscore, noDigit, noPoint, noE, noBigE⟩ := known
  have zero : Run .decimal ['0'] := List.forall_mem_singleton.mpr (Or.inr (by decide))
  have stops : Stops (letter :: digits) := stops_cons digits noUnderscore noDigit
  have plain : ∀ c ∈ (letter :: digits).head?, c ≠ '.' := by
    intro c head
    cases head
    exact noPoint
  intro decimal
  obtain ⟨-, exponent⟩ := (isDecimal_whole zero stops plain).mp decimal
  cases exponent with
  | present e => exact e.elim noE noBigE

/-- The scanner behind the sign. -/
def unsignedNumeric (text : List Char) : Bool :=
  match text with
  | [] => false
  | '0' :: p :: digits =>
    if p.toLower = 'b' then isDigitSequence digits 2
    else if p.toLower = 'o' then isDigitSequence digits 8
    else if p.toLower = 'x' then isDigitSequence digits 16
    else isDecimal ('0' :: p :: digits)
  | rest => isDecimal rest

theorem isYamlNumeric_eq (value : List Char) :
    isYamlNumeric value =
      if String.ofList (value.map Char.toLower) ∈ specialNumbers then true
      else unsignedNumeric (dropSign value) := rfl

theorem unsigned_based (mark : letter ∈ base.letters) :
    unsignedNumeric ('0' :: letter :: digits) = true ↔ Run base digits ∧ HasDigit base digits := by
  rw [← isDigitSequence_iff, unsignedNumeric]
  cases base with
  | binary => rw [if_pos (binary_letter.mpr mark)]; rfl
  | octal =>
    have other : ¬letter.toLower = 'b' := fun b => by
      cases base_of_letter (binary_letter.mp b) mark
    rw [if_neg other, if_pos (octal_letter.mpr mark)]; rfl
  | decimal => cases mark
  | hexadecimal =>
    have noB : ¬letter.toLower = 'b' := fun b => by
      cases base_of_letter (binary_letter.mp b) mark
    have noO : ¬letter.toLower = 'o' := fun o => by
      cases base_of_letter (octal_letter.mp o) mark
    rw [if_neg noB, if_neg noO, if_pos (hexadecimal_letter.mpr mark)]; rfl

/-- Without the zero and letter of a base the scanner reads a decimal number. -/
theorem unsigned_decimal
    (plain : ∀ base letter digits, letter ∈ Base.letters base → text ≠ '0' :: letter :: digits) :
    unsignedNumeric text = isDecimal text := by
  unfold unsignedNumeric
  split
  · rfl
  · rename_i p digits
    rw [if_neg fun b => plain .binary p digits (binary_letter.mp b) rfl,
      if_neg fun o => plain .octal p digits (octal_letter.mp o) rfl,
      if_neg fun x => plain .hexadecimal p digits (hexadecimal_letter.mp x) rfl]
  · rfl

theorem special_iff (value : List Char) :
    String.ofList (value.map Char.toLower) ∈ specialNumbers ↔
      ∃ sign ∈ signs, ∃ word ∈ [".inf", ".nan"],
        value.map Char.toLower = sign ++ word.toList := by
  have read (word : String) : String.ofList (value.map Char.toLower) = word ↔
      value.map Char.toLower = word.toList := by
    rw [← String.toList_inj, String.toList_ofList]
  constructor
  · intro mem
    simp only [specialNumbers, List.mem_cons, List.not_mem_nil, or_false, read] at mem
    rcases mem with same | same | same | same | same | same
    · exact ⟨[], by decide, ".inf", by decide, same.trans (by decide)⟩
    · exact ⟨['+'], by decide, ".inf", by decide, same.trans (by decide)⟩
    · exact ⟨['-'], by decide, ".inf", by decide, same.trans (by decide)⟩
    · exact ⟨[], by decide, ".nan", by decide, same.trans (by decide)⟩
    · exact ⟨['+'], by decide, ".nan", by decide, same.trans (by decide)⟩
    · exact ⟨['-'], by decide, ".nan", by decide, same.trans (by decide)⟩
  · rintro ⟨sign, signed, word, known, same⟩
    have listed : (signs.all fun sign => [".inf", ".nan"].all fun word =>
        String.ofList (sign ++ word.toList) ∈ specialNumbers) = true := by decide
    rw [same]
    exact of_decide_eq_true (List.all_eq_true.mp (List.all_eq_true.mp listed sign signed) word known)

/-- The scanner behind the sign accepts the numbers without a sign. -/
theorem unsigned_iff (text : List Char) :
    unsignedNumeric text = true ↔
      (∃ base letter digits, text = '0' :: letter :: digits ∧ letter ∈ Base.letters base ∧
        Run base digits ∧ HasDigit base digits) ∨
      ∃ mantissa exponent, text = mantissa ++ exponent ∧ Mantissa mantissa ∧ Exponent exponent := by
  rw [← isDecimal_iff]
  by_cases based : ∃ base letter digits, text = '0' :: letter :: digits ∧
      letter ∈ Base.letters base
  · obtain ⟨base, letter, digits, rfl, mark⟩ := based
    rw [unsigned_based mark, or_iff_left (based_not_decimal mark)]
    constructor
    · intro number
      exact ⟨base, letter, digits, rfl, mark, number⟩
    · rintro ⟨other, _, _, same, again, number⟩
      cases same
      cases base_of_letter mark again
      exact number
  · rw [unsigned_decimal fun base letter digits mark same =>
      based ⟨base, letter, digits, same, mark⟩]
    refine (or_iff_right ?_).symm
    rintro ⟨base, letter, digits, same, mark, -⟩
    exact based ⟨base, letter, digits, same, mark⟩

/-- The scanner accepts exactly the numbers of the grammar. -/
theorem isYamlNumeric_iff (text : List Char) : isYamlNumeric text = true ↔ Numeric text := by
  rw [isYamlNumeric_eq]
  constructor
  · intro number
    split at number
    · rename_i known
      obtain ⟨sign, signed, word, listed, same⟩ := (special_iff text).mp known
      exact .special signed listed same
    · obtain ⟨sign, signed, same⟩ := dropSign_split text
      rw [same]
      rcases (unsigned_iff _).mp number with ⟨base, letter, digits, here, mark, run, some⟩ |
        ⟨mantissa, exponent, here, whole, scale⟩
      · rw [here]
        exact .based signed mark run some
      · rw [here]
        exact .decimal signed whole scale
  · intro number
    split
    · rfl
    · rename_i unknown
      cases number with
      | based signed mark run some =>
        rw [dropSign_append signed fun c head => by cases head; decide]
        exact (unsigned_based mark).mpr ⟨run, some⟩
      | decimal signed whole scale =>
        rw [dropSign_append signed (decimal_plain whole)]
        exact (unsigned_iff _).mpr (Or.inr ⟨_, _, rfl, whole, scale⟩)
      | special signed known same =>
        exact absurd ((special_iff text).mpr ⟨_, signed, _, known, same⟩) unknown

end Numbers

end NumericLabels
