import AxVision.NumericLabels

/-!
# The label filter and the characters it reads

`IsValidLabelName` works on positions of a string. A read behind the terminating
NUL and a string built from two positions in the wrong order are faults here.
-/

namespace LabelScans

open TrackerConfigs NumericLabels
open DecimalNumerals (isSpace)

inductive Fault where
  | lengthError
  | outOfRange
  deriving DecidableEq, Repr

/-- `value[index]`; the character behind the last one is NUL. -/
def charAt (value : List Char) (index : Nat) : Except Fault Char :=
  match value[index]? with
  | some c => .ok c
  | none => if index = value.length then .ok (Char.ofNat 0) else .error .outOfRange

/-- The loop of `IsDigitSequence`. -/
def digitLoop (value : List Char) (base index : Nat) (hasDigit : Bool) : Except Fault Bool :=
  if index < value.length then
    (charAt value index).bind fun c =>
      if c = '_' then digitLoop value base (index + 1) hasDigit
      else if isBaseDigit c base then digitLoop value base (index + 1) true
      else .ok false
  else .ok hasDigit
termination_by value.length - index

def isDigitSequence (value : List Char) (start base : Nat) : Except Fault Bool :=
  digitLoop value base start false

/-- Digits and underscores from a position on: whether there is a digit, and the next position. -/
def mantissaLoop (value : List Char) (index : Nat) (mantissaDigit : Bool) :
    Except Fault (Bool × Nat) :=
  if index < value.length then
    (charAt value index).bind fun c =>
      if isBaseDigit c 10 || c == '_' then
        mantissaLoop value (index + 1) (mantissaDigit || c != '_')
      else .ok (mantissaDigit, index)
  else .ok (mantissaDigit, index)
termination_by value.length - index

def pointPart (value : List Char) (index : Nat) (mantissaDigit : Bool) :
    Except Fault (Bool × Nat) :=
  if index < value.length then
    (charAt value index).bind fun c =>
      if c = '.' then mantissaLoop value (index + 1) mantissaDigit
      else .ok (mantissaDigit, index)
  else .ok (mantissaDigit, index)

/-- The position behind the sign of an exponent. -/
def exponentStart (value : List Char) (index : Nat) : Except Fault Nat :=
  if index < value.length then
    (charAt value index).map fun c => if c = '+' ∨ c = '-' then index + 1 else index
  else .ok index

def exponentPart (value : List Char) (index : Nat) : Except Fault Bool :=
  if index < value.length then
    (charAt value index).bind fun c =>
      if c = 'e' ∨ c = 'E' then
        (exponentStart value (index + 1)).bind fun start => isDigitSequence value start 10
      else .ok (index == value.length)
  else .ok (index == value.length)

def decimalFrom (value : List Char) (index : Nat) : Except Fault Bool :=
  (mantissaLoop value index false).bind fun whole =>
    (pointPart value whole.2 whole.1).bind fun mantissa =>
      if mantissa.1 then exponentPart value mantissa.2 else .ok false

/-- The scanner behind the sign. -/
def unsignedFrom (value : List Char) (index : Nat) : Except Fault Bool :=
  if value.length ≤ index then .ok false
  else if index + 2 ≤ value.length then
    (charAt value index).bind fun zero =>
      if zero = '0' then
        (charAt value (index + 1)).bind fun letter =>
          if letter.toLower = 'b' then isDigitSequence value (index + 2) 2
          else if letter.toLower = 'o' then isDigitSequence value (index + 2) 8
          else if letter.toLower = 'x' then isDigitSequence value (index + 2) 16
          else decimalFrom value index
      else decimalFrom value index
  else decimalFrom value index

def isYamlNumeric (value : List Char) : Except Fault Bool :=
  if String.ofList (value.map Char.toLower) ∈ specialNumbers then .ok true
  else
    (charAt value 0).bind fun first =>
      unsignedFrom value (if first = '+' ∨ first = '-' then 1 else 0)

/-- The position of the first character that is no space. -/
def firstPosition (label : List Char) : Nat := (label.takeWhile isSpace).length

/-- The position behind the last character that is no space. -/
def lastPosition (label : List Char) : Nat := label.length - firstPosition label.reverse

def isValidLabelName (label : List Char) : Except Fault Bool :=
  let first := firstPosition label
  let last := lastPosition label
  if first = last then .ok false
  else if last < first then .error .lengthError
  else (isYamlNumeric ((label.drop first).take (last - first))).map (! ·)

section Reads

variable {value tail : List Char} {c : Char} {index : Nat}

theorem charAt_of_drop (here : value.drop index = c :: tail) :
    index < value.length ∧ charAt value index = .ok c ∧ value.drop (index + 1) = tail := by
  have inside : index < value.length := by
    by_contra beyond
    rw [List.drop_eq_nil_of_le (Nat.not_lt.mp beyond)] at here
    cases here
  rw [List.drop_eq_getElem_cons inside, List.cons.injEq] at here
  refine ⟨inside, ?_, here.2⟩
  rw [charAt, List.getElem?_eq_getElem inside, here.1]

/-- From any position the loop does what it does on the rest of the text. -/
theorem digitLoop_eq (value : List Char) (base index : Nat) (hasDigit : Bool) :
    digitLoop value base index hasDigit =
      .ok (digitSequence base (value.drop index) hasDigit) := by
  generalize rest : value.drop index = text
  induction text generalizing index hasDigit with
  | nil =>
    rw [digitLoop, if_neg (Nat.not_lt.mpr (List.drop_eq_nil_iff.mp rest))]
    rfl
  | cons c tail ih =>
    obtain ⟨inside, read, later⟩ := charAt_of_drop rest
    rw [digitLoop, if_pos inside, read, digitSequence]
    simp only [Except.bind]
    split
    · exact ih _ _ later
    · split
      · exact ih _ _ later
      · rfl

/-- Where the loop ends, the rest of the text is what the scanner has left. -/
theorem mantissaLoop_eq (fits : index ≤ value.length) (digit : Bool) :
    ∃ next, mantissaLoop value index digit =
        .ok ((scanMantissa (value.drop index) digit).1, next) ∧
      value.drop next = (scanMantissa (value.drop index) digit).2 ∧ next ≤ value.length := by
  generalize rest : value.drop index = text
  induction text generalizing index digit with
  | nil =>
    refine ⟨index, ?_, rest, fits⟩
    rw [mantissaLoop, if_neg (Nat.not_lt.mpr (List.drop_eq_nil_iff.mp rest))]
    rfl
  | cons c tail ih =>
    obtain ⟨inside, read, later⟩ := charAt_of_drop rest
    rw [mantissaLoop, if_pos inside, read, scanMantissa]
    simp only [Except.bind]
    split
    · exact ih inside _ later
    · exact ⟨index, rfl, rest, fits⟩

theorem pointPart_eq (fits : index ≤ value.length) (digit : Bool) :
    let whole := (digit, value.drop index)
    let mantissa := match whole.2 with
      | '.' :: rest => scanMantissa rest whole.1
      | _ => whole
    ∃ next, pointPart value index digit = .ok (mantissa.1, next) ∧
      value.drop next = mantissa.2 ∧ next ≤ value.length := by
  cases here : value.drop index with
  | nil =>
    refine ⟨index, ?_, here, fits⟩
    rw [pointPart, if_neg (Nat.not_lt.mpr (List.drop_eq_nil_iff.mp here))]
  | cons c tail =>
    obtain ⟨inside, read, later⟩ := charAt_of_drop here
    rw [pointPart, if_pos inside, read]
    simp only [Except.bind]
    by_cases point : c = '.'
    · rw [if_pos point, point, ← later]
      exact mantissaLoop_eq inside digit
    · rw [if_neg point]
      split
      · rename_i same
        exact absurd (List.cons.inj same).1 point
      · exact ⟨index, rfl, here, fits⟩

theorem dropSign_cons (c : Char) (tail : List Char) :
    dropSign (c :: tail) = if c = '+' ∨ c = '-' then tail else c :: tail := by
  split
  · rename_i sign
    rcases sign with rfl | rfl
    · rfl
    · rfl
  · rename_i plain
    have bare : ∀ d ∈ (c :: tail).head?, d ≠ '+' ∧ d ≠ '-' := by
      intro d head
      cases head
      exact not_or.mp plain
    exact dropSign_append (List.mem_cons_self : [] ∈ signs) bare

theorem exponentStart_eq (value : List Char) (index : Nat) :
    ∃ start, exponentStart value index = .ok start ∧
      value.drop start = dropSign (value.drop index) := by
  cases here : value.drop index with
  | nil =>
    refine ⟨index, ?_, here⟩
    rw [exponentStart, if_neg (Nat.not_lt.mpr (List.drop_eq_nil_iff.mp here))]
  | cons c tail =>
    obtain ⟨inside, read, later⟩ := charAt_of_drop here
    refine ⟨if c = '+' ∨ c = '-' then index + 1 else index, ?_, ?_⟩
    · rw [exponentStart, if_pos inside, read]
      rfl
    · rw [dropSign_cons]
      split
      · exact later
      · exact here

theorem exponentPart_eq (fits : index ≤ value.length) :
    exponentPart value index = .ok (exponentOk (value.drop index)) := by
  cases here : value.drop index with
  | nil =>
    have last : index = value.length := Nat.le_antisymm fits (List.drop_eq_nil_iff.mp here)
    rw [exponentPart, if_neg (Nat.not_lt.mpr last.ge), beq_iff_eq.mpr last]
    rfl
  | cons c tail =>
    obtain ⟨inside, read, later⟩ := charAt_of_drop here
    obtain ⟨start, found, drops⟩ := exponentStart_eq value (index + 1)
    rw [exponentPart, if_pos inside, read, found]
    simp only [Except.bind, isDigitSequence, digitLoop_eq, drops, later]
    by_cases mark : c = 'e' ∨ c = 'E'
    · rw [if_pos mark]
      simp [exponentOk, TrackerConfigs.isDigitSequence, mark]
    · have other : (c == 'e' || c == 'E') = false := by simpa using mark
      rw [if_neg mark, exponentOk, other, Bool.false_and, beq_false_of_ne (Nat.ne_of_lt inside)]

theorem decimalFrom_eq (fits : index ≤ value.length) :
    decimalFrom value index = .ok (isDecimal (value.drop index)) := by
  obtain ⟨next, scanned, rest, inside⟩ := mantissaLoop_eq fits false
  obtain ⟨last, pointed, final, inside⟩ :=
    pointPart_eq inside (scanMantissa (value.drop index) false).1
  rw [rest] at pointed final
  rw [decimalFrom, scanned]
  simp only [Except.bind, pointed, exponentPart_eq inside, final, isDecimal]
  generalize scanMantissa (value.drop index) false = whole
  obtain ⟨digit, remaining⟩ := whole
  have guarded (found ends : Bool) : (if found = true then .ok ends else .ok false) =
      (.ok (found && ends) : Except Fault Bool) := by
    cases found with
    | true => rfl
    | false => rfl
  exact guarded _ _

/-- From the position behind the sign the scanner reads the unsigned number. -/
theorem unsignedFrom_eq (value : List Char) (index : Nat) :
    unsignedFrom value index = .ok (unsignedNumeric (value.drop index)) := by
  cases here : value.drop index with
  | nil =>
    rw [unsignedFrom, if_pos (List.drop_eq_nil_iff.mp here)]
    rfl
  | cons c tail =>
    obtain ⟨inside, read, later⟩ := charAt_of_drop here
    have decimal := decimalFrom_eq (Nat.le_of_lt inside)
    rw [here] at decimal
    rw [unsignedFrom, if_neg (Nat.not_le.mpr inside)]
    cases tail with
    | nil =>
      have short : ¬index + 2 ≤ value.length :=
        Nat.not_le.mpr (Nat.lt_succ_of_le (List.drop_eq_nil_iff.mp later))
      rw [if_neg short, unsigned_decimal fun _ _ _ _ => by simp]
      exact decimal
    | cons letter digits =>
      obtain ⟨room, readLetter, behind⟩ := charAt_of_drop later
      have sequence (base : Nat) : isDigitSequence value (index + 2) base =
          .ok (TrackerConfigs.isDigitSequence digits base) := by
        rw [isDigitSequence, digitLoop_eq, behind]
        rfl
      rw [if_pos (show index + 2 ≤ value.length from room), read, readLetter]
      simp only [Except.bind, sequence, decimal]
      by_cases zero : c = '0'
      · rw [if_pos zero, zero, unsignedNumeric]
        split
        · rfl
        · split
          · rfl
          · split
            · rfl
            · rfl
      · rw [if_neg zero, unsigned_decimal fun _ _ _ _ same => zero (List.cons.inj same).1]

/-- No number is read behind its end, and the positions find what the scanner finds. -/
theorem isYamlNumeric_eq (value : List Char) :
    isYamlNumeric value = .ok (TrackerConfigs.isYamlNumeric value) := by
  rw [isYamlNumeric, NumericLabels.isYamlNumeric_eq]
  split
  · rfl
  · cases value with
    | nil => rfl
    | cons c tail =>
      have first : charAt (c :: tail) 0 = .ok c := rfl
      rw [first, dropSign_cons]
      simp only [Except.bind, unsignedFrom_eq]
      split
      · rfl
      · rfl

end Reads

section Labels

variable {label : List Char}

/-- The first character is no space. -/
def Starts (text : List Char) : Prop := ∃ c tail, text = c :: tail ∧ isSpace c = false

theorem starts_dropWhile {text : List Char} (some : ∃ c ∈ text, isSpace c = false) :
    Starts (text.dropWhile isSpace) := by
  obtain ⟨c, mem, kept⟩ := some
  have rest : text.dropWhile isSpace ≠ [] := by
    intro none_left
    rw [List.dropWhile_eq_nil_iff.mp none_left c mem] at kept
    cases kept
  obtain ⟨d, tail, same⟩ := List.exists_cons_of_ne_nil rest
  refine ⟨d, tail, same, ?_⟩
  have head := List.head_dropWhile_not isSpace rest
  simpa only [same, List.head_cons] using head

theorem firstPosition_append {blanks rest : List Char} (blank : ∀ c ∈ blanks, isSpace c = true)
    (starts : Starts rest) : firstPosition (blanks ++ rest) = blanks.length := by
  obtain ⟨c, tail, rfl, kept⟩ := starts
  rw [firstPosition, List.takeWhile_append_of_pos blank,
    List.takeWhile_cons_of_neg (Bool.not_eq_true _ ▸ kept), List.append_nil]

/-- A text with another character than spaces is its trimmed text between two runs of spaces. -/
theorem trim_parts (some : ∃ c ∈ label, isSpace c = false) :
    ∃ lead trail, label = lead ++ (trimmed label ++ trail) ∧ (∀ c ∈ lead, isSpace c = true) ∧
      (∀ c ∈ trail, isSpace c = true) ∧ Starts (trimmed label) ∧
      Starts (trimmed label).reverse := by
  obtain ⟨c, tail, front, kept⟩ := starts_dropWhile some
  have back : Starts ((label.dropWhile isSpace).reverse.dropWhile isSpace) :=
    starts_dropWhile ⟨c, by simp [front], kept⟩
  have split : label.dropWhile isSpace = trimmed label ++
      ((label.dropWhile isSpace).reverse.takeWhile isSpace).reverse := by
    rw [trimmed, ← List.reverse_append, List.takeWhile_append_dropWhile, List.reverse_reverse]
  refine ⟨label.takeWhile isSpace, ((label.dropWhile isSpace).reverse.takeWhile isSpace).reverse,
    ?_, fun _ mem => List.mem_takeWhile_imp mem, ?_, ?_, ?_⟩
  · rw [← split, List.takeWhile_append_dropWhile]
  · intro d mem
    exact List.mem_takeWhile_imp (List.mem_reverse.mp mem)
  · obtain ⟨d, rest, last, -⟩ := back
    have whole : trimmed label ≠ [] := by
      rw [trimmed, last]
      simp
    obtain ⟨e, core, same⟩ := List.exists_cons_of_ne_nil whole
    rw [front, same] at split
    rw [same]
    exact ⟨e, core, rfl, (List.cons.inj split).1 ▸ kept⟩
  · rw [trimmed, List.reverse_reverse]
    exact back

/-- The two positions cross in a text of spaces. -/
theorem positions_blank (blank : ∀ c ∈ label, isSpace c = true) :
    firstPosition label = label.length ∧ lastPosition label = 0 := by
  have whole {text : List Char} (only : ∀ c ∈ text, isSpace c = true) :
      firstPosition text = text.length := by
    rw [firstPosition, List.takeWhile_eq_self_iff.mpr only]
  refine ⟨whole blank, ?_⟩
  rw [lastPosition, whole fun c mem => blank c (List.mem_reverse.mp mem), List.length_reverse,
    Nat.sub_self]

/-- With another character the positions enclose the trimmed text. -/
theorem positions_trim (some : ∃ c ∈ label, isSpace c = false) :
    firstPosition label < lastPosition label ∧
      (label.drop (firstPosition label)).take (lastPosition label - firstPosition label) =
        trimmed label := by
  obtain ⟨lead, trail, parts, leadBlank, trailBlank, front, back⟩ := trim_parts some
  have first : firstPosition label = lead.length := by
    obtain ⟨c, tail, same, kept⟩ := front
    rw [parts]
    exact firstPosition_append leadBlank ⟨c, tail ++ trail, by rw [same, List.cons_append], kept⟩
  have last : lastPosition label = lead.length + (trimmed label).length := by
    obtain ⟨c, tail, same, kept⟩ := back
    have behind : firstPosition label.reverse = trail.length := by
      rw [parts, List.reverse_append, List.reverse_append, List.append_assoc,
        firstPosition_append (fun c mem => trailBlank c (List.mem_reverse.mp mem))
          ⟨c, tail ++ lead.reverse, by rw [same, List.cons_append], kept⟩, List.length_reverse]
    have total := congrArg List.length parts
    rw [List.length_append, List.length_append] at total
    rw [lastPosition, behind]
    omega
  have room : 0 < (trimmed label).length := by
    obtain ⟨c, tail, same, -⟩ := front
    rw [same]
    exact Nat.succ_pos _
  constructor
  · omega
  · have rest : label.drop lead.length = trimmed label ++ trail :=
      (congrArg (List.drop lead.length) parts).trans List.drop_left
    rw [first, last, Nat.add_sub_cancel_left, rest, List.take_left]

theorem isValidLabelName_blank (blank : ∀ c ∈ label, isSpace c = true) (some : label ≠ []) :
    isValidLabelName label = .error .lengthError := by
  obtain ⟨first, last⟩ := positions_blank blank
  have room := List.length_pos_of_ne_nil some
  simp only [isValidLabelName, first, last]
  rw [if_neg (Nat.ne_of_gt room), if_pos room]

theorem isValidLabelName_kept (some : ∃ c ∈ label, isSpace c = false) :
    isValidLabelName label = .ok (!TrackerConfigs.isYamlNumeric (trimmed label)) := by
  obtain ⟨room, kept⟩ := positions_trim some
  simp only [isValidLabelName, kept, isYamlNumeric_eq]
  rw [if_neg (Nat.ne_of_lt room), if_neg (Nat.not_lt.mpr (Nat.le_of_lt room))]
  rfl

theorem blank_or_kept (label : List Char) :
    (∀ c ∈ label, isSpace c = true) ∨ ∃ c ∈ label, isSpace c = false := by
  by_cases some : ∃ c ∈ label, isSpace c = false
  · exact Or.inr some
  · left
    intro c mem
    by_contra kept
    exact some ⟨c, mem, Bool.eq_false_iff.mpr kept⟩

/-- The filter on positions is the filter that the tracker's `Init` asks. -/
theorem isValidLabelName_eq (label : String) :
    isValidLabelName label.toList =
      match TrackerConfigs.isValidLabelName label with
      | none => .error .lengthError
      | some valid => .ok valid := by
  rw [TrackerConfigs.isValidLabelName]
  by_cases empty : label.toList = []
  · rw [empty]
    rfl
  · rw [if_neg (by simpa using empty)]
    rcases blank_or_kept label.toList with blank | kept
    · rw [if_pos (List.all_eq_true.mpr blank), isValidLabelName_blank blank empty]
    · have other : ¬label.toList.all isSpace = true := by
        obtain ⟨c, mem, kept⟩ := kept
        intro all
        rw [List.all_eq_true.mp all c mem] at kept
        cases kept
      rw [if_neg other, isValidLabelName_kept kept]

/-- The filter reads inside the label and refuses the blank labels and the numbers. -/
def Filters (label : String) : Prop :=
  ∃ valid, isValidLabelName label.toList = .ok valid ∧
    (valid = false ↔
      (∀ c ∈ label.toList, isSpace c = true) ∨ Numeric (trimmed label.toList))

/-- The filter is the grammar of the labels, unless a label has characters and
all of them are spaces. -/
theorem label_filter_iff (label : String) :
    Filters label ↔ label.toList = [] ∨ ∃ c ∈ label.toList, isSpace c = false := by
  constructor
  · rintro ⟨valid, found, -⟩
    rcases blank_or_kept label.toList with blank | kept
    · left
      by_contra some
      rw [isValidLabelName_blank blank some] at found
      cases found
    · exact Or.inr kept
  · rintro (empty | kept)
    · refine ⟨false, by rw [empty]; rfl, iff_of_true rfl (Or.inl ?_)⟩
      intro c mem
      rw [empty] at mem
      cases mem
    · refine ⟨_, isValidLabelName_kept kept, ?_⟩
      rw [Bool.not_eq_false', isYamlNumeric_iff]
      refine (or_iff_right ?_).symm
      intro blank
      obtain ⟨c, mem, kept⟩ := kept
      rw [blank c mem] at kept
      cases kept

/-- A label of one space is not refused: the string is built from crossed positions. -/
theorem space_faults : ¬∀ label : String, Filters label := by
  intro filters
  obtain ⟨valid, found, -⟩ := filters " "
  have fault : isValidLabelName " ".toList = .error .lengthError :=
    isValidLabelName_blank (List.all_eq_true.mp (by decide)) (by decide)
  rw [fault] at found
  cases found

end Labels

end LabelScans
