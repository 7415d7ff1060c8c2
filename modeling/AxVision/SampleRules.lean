import AxVision.FloatTexts
import AxVision.TextSearch
import Mathlib.Data.List.Chain

/-!
# The sample rule: points in a polygon

`SampleRule` reads a polygon from its configuration and tells of every object
whether its centre is inside. `Init` looks for double brackets and reads one
point between each pair of them, so that a region in the documented form loses
all its points but the first.
-/

namespace SampleRules

open DecimalNumerals DetectionTypes FloatTexts TextSearch

universe u

variable {F : Type u}

section Polygons

variable [Scalar F]

/-- `a == b`. -/
def equal (a b : F) : Bool := Scalar.le a b && Scalar.le b a

/-- The test of the loop of `pointInPolygon` for the edge between two vertices. -/
def crossesEdge (x y : F) (pj pi : F × F) : Bool :=
  let dy := pj.2 - pi.2
  if equal dy (Scalar.ofRat 0) then false
  else
    (Scalar.lt y pi.2 != Scalar.lt y pj.2) &&
      Scalar.lt x ((pj.1 - pi.1) * (y - pi.2) / dy + pi.1)

/-- The loop of `pointInPolygon`, with the vertex before the next one. -/
def polygonLoop (x y : F) : Bool → F × F → List (F × F) → Bool
  | inside, _, [] => inside
  | inside, pj, pi :: rest =>
    polygonLoop x y (if crossesEdge x y pj pi then !inside else inside) pi rest

def pointInPolygon (poly : List (F × F)) (x y : F) : Bool :=
  match poly.getLast? with
  | none => false
  | some last => polygonLoop x y false last poly

/-- `SampleRule::Process`. -/
def process (region : List (F × F)) (objects : List (Object F)) : List Bool :=
  objects.map fun obj =>
    let cx := obj.rect.x + obj.rect.width / Scalar.ofRat 2
    let cy := obj.rect.y + obj.rect.height / Scalar.ofRat 2
    pointInPolygon region cx cy

end Polygons

section Parsing

variable [FloatText F]

/-- What `Init` leaves: the return value and `region_`. -/
structure InitDone (F : Type u) where
  ret : Int
  region : List (F × F)
  deriving DecidableEq

/-- The two numbers around the first comma, if there is one. -/
def readPair (pairStr : List Char) : Option (Except Failure (F × F)) :=
  (find [','] pairStr 0).map fun comma =>
    match stof (pairStr.take comma) with
    | .error failure => .error failure
    | .ok x =>
      match stof (pairStr.drop (comma + 1)) with
      | .error failure => .error failure
      | .ok y => .ok (x, y)

def initLoop (config : List Char) (pos : Nat) (region : List (F × F)) : InitDone F :=
  match _ : find ['[', '['] config pos with
  | none => ⟨0, region⟩
  | some start =>
    match _ : find [']', ']'] config (start + 2) with
    | none => ⟨0, region⟩
    | some stop =>
      match readPair ((config.drop (start + 2)).take (stop - start - 2)) with
      | none => initLoop config (stop + 2) region
      | some (.error _) => ⟨-1, region⟩
      | some (.ok point) => initLoop config (stop + 2) (region ++ [point])
termination_by config.length - pos
decreasing_by all_goals
  have := find_le ‹find ['[', '['] config pos = some start›
  have := find_le ‹find [']', ']'] config (start + 2) = some stop›
  simp only [List.length_cons, List.length_nil] at *
  omega

/-- `SampleRule::Init`. -/
def init (config : List Char) : InitDone F := initLoop config 0 []

end Parsing

section Documented

def pointText (p : Nat × Nat) : List Char := Nat.toDigits 10 p.1 ++ ',' :: Nat.toDigits 10 p.2

/-- The points behind the first one. -/
def furtherText (rest : List (Nat × Nat)) : List Char :=
  rest.flatMap fun p => [']', ',', '['] ++ pointText p

/-- What stands between the outer brackets of a region. -/
def regionBody : List (Nat × Nat) → List Char
  | [] => []
  | p :: rest => pointText p ++ furtherText rest

/-- The documented form `[[x1,y1],...,[xn,yn]]`. -/
def regionText (points : List (Nat × Nat)) : List Char :=
  ['[', '['] ++ (regionBody points ++ [']', ']'])

/-- A point, each coordinate as the float next to it. -/
def floatPoint [FloatText F] (p : Nat × Nat) : F × F :=
  (FloatText.nearest false p.1, FloatText.nearest false p.2)

/-- `Init` succeeds and leaves precisely the points in order, with any text around the region. -/
def ParsesRegion (F : Type u) [FloatText F] (before after : List Char)
    (points : List (Nat × Nat)) : Prop :=
  init (F := F) (before ++ (regionText points ++ after)) = ⟨0, points.map floatPoint⟩

end Documented

section Sections

/-- The texts in double brackets, each from a `[[` to the next `]]`. -/
def sections (text : List Char) : List (List Char) :=
  match _ : find ['[', '['] text 0 with
  | none => []
  | some start =>
    match _ : find [']', ']'] text (start + 2) with
    | none => []
    | some stop =>
      (text.drop (start + 2)).take (stop - start - 2) :: sections (text.drop (stop + 2))
termination_by text.length
decreasing_by
  have := find_le ‹find [']', ']'] text (start + 2) = some stop›
  simp only [List.length_cons, List.length_nil, List.length_drop] at *
  omega

/-- What of a text counts as the start of the next section if a `[[` follows: all behind a `[[`
that is still open, or a single bracket at its end. -/
def lead (text : List Char) : List Char :=
  match _ : find ['[', '['] text 0 with
  | none => if text.getLast? = some '[' then ['['] else []
  | some start =>
    match _ : find [']', ']'] text (start + 2) with
    | none => text.drop (start + 2) ++ ['[', '[']
    | some stop => lead (text.drop (stop + 2))
termination_by text.length
decreasing_by
  have := find_le ‹find [']', ']'] text (start + 2) = some stop›
  simp only [List.length_cons, List.length_nil, List.length_drop] at *
  omega

/-- How a text is cut by its double brackets. -/
inductive Cut : List Char → Prop
  | plain {text : List Char} (none : ¬['[', '['] <:+: text) : Cut text
  | opened {gap rest : List Char} (first : ¬['[', '['] <:+: gap ++ ['['])
      (unclosed : ¬[']', ']'] <:+: rest) : Cut (gap ++ (['[', '['] ++ rest))
  | closed {gap body rest : List Char} (first : ¬['[', '['] <:+: gap ++ ['['])
      (inside : ¬[']', ']'] <:+: body ++ [']']) (later : Cut rest) :
      Cut (gap ++ (['[', '['] ++ (body ++ ([']', ']'] ++ rest))))

theorem cut (text : List Char) : Cut text := by
  obtain plain | ⟨gap, rest, same, first⟩ := first_or_none (List.cons_ne_nil '[' ['[']) text
  · exact .plain plain
  · obtain unclosed | ⟨body, behind, closed, inside⟩ :=
      first_or_none (List.cons_ne_nil ']' [']']) rest
    · exact same ▸ .opened first unclosed
    · have shorter : behind.length < text.length := by
        rw [same, closed]
        simp only [List.length_append, List.length_cons]
        omega
      rw [same, closed]
      exact .closed first inside (cut behind)
termination_by text.length

variable {text gap body rest : List Char}

/-- Where the first section of a text starts and ends, whatever is in front of the text. -/
theorem found_section (first : ¬['[', '['] <:+: gap ++ ['['])
    (inside : ¬[']', ']'] <:+: body ++ [']']) (front rest : List Char) :
    find ['[', '['] (front ++ (gap ++ (['[', '['] ++ (body ++ ([']', ']'] ++ rest))))) front.length =
        some (front.length + gap.length) ∧
      find [']', ']'] (front ++ (gap ++ (['[', '['] ++ (body ++ ([']', ']'] ++ rest)))))
        (front.length + gap.length + 2) = some (front.length + gap.length + 2 + body.length) := by
  have opened := find_first first front (body ++ ([']', ']'] ++ rest))
  have closed := find_first inside (front ++ (gap ++ ['[', '['])) rest
  simp only [List.append_assoc, List.length_append, List.length_cons, List.length_nil,
    Nat.zero_add, ← Nat.add_assoc] at closed
  exact ⟨opened, closed⟩

theorem found_open (first : ¬['[', '['] <:+: gap ++ ['[']) (unclosed : ¬[']', ']'] <:+: rest)
    (front : List Char) :
    find ['[', '['] (front ++ (gap ++ (['[', '['] ++ rest))) front.length =
        some (front.length + gap.length) ∧
      find [']', ']'] (front ++ (gap ++ (['[', '['] ++ rest)))
        (front.length + gap.length + 2) = none := by
  have opened := find_first first front rest
  have closed := find_none unclosed (front ++ (gap ++ ['[', '[']))
  simp only [List.append_assoc, List.length_append, List.length_cons, List.length_nil,
    Nat.zero_add, ← Nat.add_assoc] at closed
  exact ⟨opened, closed⟩

/-- What the turn of a loop takes out of the text, and where it goes on. -/
theorem section_parts (front gap body rest : List Char) :
    let text := front ++ (gap ++ (['[', '['] ++ (body ++ ([']', ']'] ++ rest))))
    let start := front.length + gap.length
    (text.drop (start + 2)).take (start + 2 + body.length - start - 2) = body ∧
      text.drop (start + 2 + body.length + 2) = rest := by
  intro text start
  have past := drop_past (front ++ gap) ['[', '['] (body ++ ([']', ']'] ++ rest))
  have behind := drop_past (front ++ (gap ++ (['[', '['] ++ body))) [']', ']'] rest
  simp only [List.append_assoc, List.length_append, List.length_cons, List.length_nil,
    Nat.zero_add] at past behind
  constructor
  · rw [past, List.take_left' (by omega)]
  · rw [← behind]
    congr 1
    omega

theorem sections_plain (none : ¬['[', '['] <:+: text) : sections text = [] := by
  have nothing := find_none none []
  rw [List.nil_append, List.length_nil] at nothing
  rw [sections]
  split
  · rfl
  · rename_i found
    rw [nothing] at found
    cases found

theorem sections_opened (first : ¬['[', '['] <:+: gap ++ ['['])
    (unclosed : ¬[']', ']'] <:+: rest) : sections (gap ++ (['[', '['] ++ rest)) = [] := by
  obtain ⟨opened, closed⟩ := found_open first unclosed []
  simp only [List.nil_append, List.length_nil, Nat.zero_add] at opened closed
  rw [sections]
  split
  · rfl
  · rename_i found
    obtain rfl := Option.some.inj (opened.symm.trans found)
    split
    · rfl
    · rename_i found
      rw [closed] at found
      cases found

theorem sections_closed (first : ¬['[', '['] <:+: gap ++ ['['])
    (inside : ¬[']', ']'] <:+: body ++ [']']) (rest : List Char) :
    sections (gap ++ (['[', '['] ++ (body ++ ([']', ']'] ++ rest)))) = body :: sections rest := by
  obtain ⟨opened, closed⟩ := found_section first inside [] rest
  obtain ⟨taken, left⟩ := section_parts [] gap body rest
  simp only [List.nil_append, List.length_nil, Nat.zero_add] at opened closed taken left
  rw [sections]
  split
  · rename_i found
    rw [opened] at found
    cases found
  · rename_i found
    obtain rfl := Option.some.inj (opened.symm.trans found)
    split
    · rename_i found
      rw [closed] at found
      cases found
    · rename_i found
      obtain rfl := Option.some.inj (closed.symm.trans found)
      rw [taken, left]

theorem lead_plain (none : ¬['[', '['] <:+: text) :
    lead text = if text.getLast? = some '[' then ['['] else [] := by
  have nothing := find_none none []
  rw [List.nil_append, List.length_nil] at nothing
  rw [lead]
  split
  · rfl
  · rename_i found
    rw [nothing] at found
    cases found

theorem lead_opened (first : ¬['[', '['] <:+: gap ++ ['['])
    (unclosed : ¬[']', ']'] <:+: rest) :
    lead (gap ++ (['[', '['] ++ rest)) = rest ++ ['[', '['] := by
  obtain ⟨opened, closed⟩ := found_open first unclosed []
  have past := drop_past gap ['[', '['] rest
  simp only [List.nil_append, List.length_nil, Nat.zero_add, List.length_cons] at opened closed past
  rw [lead]
  split
  · rename_i found
    rw [opened] at found
    cases found
  · rename_i found
    obtain rfl := Option.some.inj (opened.symm.trans found)
    split
    · rw [past]
    · rename_i found
      rw [closed] at found
      cases found

theorem lead_closed (first : ¬['[', '['] <:+: gap ++ ['['])
    (inside : ¬[']', ']'] <:+: body ++ [']']) (rest : List Char) :
    lead (gap ++ (['[', '['] ++ (body ++ ([']', ']'] ++ rest)))) = lead rest := by
  obtain ⟨opened, closed⟩ := found_section first inside [] rest
  obtain ⟨-, left⟩ := section_parts [] gap body rest
  simp only [List.nil_append, List.length_nil, Nat.zero_add] at opened closed left
  rw [lead]
  split
  · rename_i found
    rw [opened] at found
    cases found
  · rename_i found
    obtain rfl := Option.some.inj (opened.symm.trans found)
    split
    · rename_i found
      rw [closed] at found
      cases found
    · rename_i found
      obtain rfl := Option.some.inj (closed.symm.trans found)
      rw [left]

end Sections

section Steps

variable [FloatText F] {config : List Char} {pos start stop : Nat} {region : List (F × F)}

theorem initLoop_end (none_left : find ['[', '['] config pos = none) :
    initLoop config pos region = ⟨0, region⟩ := by
  rw [initLoop]
  split
  · rfl
  · rename_i found
    rw [none_left] at found
    cases found

theorem initLoop_open (opened : find ['[', '['] config pos = some start)
    (unclosed : find [']', ']'] config (start + 2) = none) :
    initLoop config pos region = ⟨0, region⟩ := by
  rw [initLoop]
  split
  · rfl
  · rename_i found
    obtain rfl := Option.some.inj (opened.symm.trans found)
    split
    · rfl
    · rename_i found
      rw [unclosed] at found
      cases found

/-- A turn takes the text between the next double brackets for one point. -/
theorem initLoop_turn (opened : find ['[', '['] config pos = some start)
    (closed : find [']', ']'] config (start + 2) = some stop) :
    initLoop config pos region =
      match readPair ((config.drop (start + 2)).take (stop - start - 2)) with
      | none => initLoop config (stop + 2) region
      | some (.error _) => ⟨-1, region⟩
      | some (.ok point) => initLoop config (stop + 2) (region ++ [point]) := by
  rw [initLoop]
  split
  · rename_i found
    rw [opened] at found
    cases found
  · rename_i found
    obtain rfl := Option.some.inj (opened.symm.trans found)
    split
    · rename_i found
      rw [closed] at found
      cases found
    · rename_i found
      obtain rfl := Option.some.inj (closed.symm.trans found)
      rfl

end Steps

section Documents

variable {rest : List (Nat × Nat)} {x y : Nat}

theorem pointText_no_bracket (p : Nat × Nat) : ']' ∉ pointText p := by
  intro mem
  rw [pointText, List.mem_append, List.mem_cons] at mem
  obtain inX | comma | inY := mem
  · exact absurd (digits_only _ _ inX) (by decide)
  · exact absurd comma (by decide)
  · exact absurd (digits_only _ _ inY) (by decide)

/-- No two closing brackets side by side. -/
def Apart (a b : Char) : Prop := ¬(a = ']' ∧ b = ']')

theorem apart_append {front l : List Char} (none : ']' ∉ front) (apart : l.IsChain Apart) :
    (front ++ l).IsChain Apart := by
  induction front with
  | nil => exact apart
  | cons c front ih =>
    rw [List.mem_cons, not_or] at none
    rw [List.cons_append, List.isChain_cons]
    exact ⟨fun _ _ both => none.1 both.1.symm, ih none.2⟩

theorem furtherText_apart (rest : List (Nat × Nat)) : (furtherText rest ++ [']']).IsChain Apart := by
  induction rest with
  | nil => exact .singleton _
  | cons p rest ih =>
    have point := apart_append (pointText_no_bracket p) ih
    have opened := apart_append (show ']' ∉ [',', '['] by decide) point
    have closed : (']' :: ([',', '['] ++ (pointText p ++ (furtherText rest ++ [']'])))).IsChain
        Apart := by
      rw [List.isChain_cons]
      refine ⟨fun c mem both => ?_, opened⟩
      obtain rfl := Option.some.inj mem
      exact absurd both.2 (by decide)
    simpa [furtherText] using closed

theorem absent_iff {text : List Char} : ¬[']', ']'] <:+: text ↔ text.IsChain Apart := by
  constructor
  · intro absent
    induction text with
    | nil => exact .nil
    | cons c rest ih =>
      rw [List.isChain_cons]
      refine ⟨fun d head both => ?_, ih fun inside => absent (inside.trans
        (List.suffix_cons c rest).isInfix)⟩
      obtain ⟨behind, rfl⟩ := List.head?_eq_some_iff.mp head
      rw [both.1, both.2] at absent
      exact absent ⟨[], behind, rfl⟩
  · rintro apart ⟨front, behind, rfl⟩
    have pair := apart.left_of_append.right_of_append
    rw [List.isChain_pair] at pair
    exact pair ⟨rfl, rfl⟩

/-- The points of a region are not separated by two closing brackets. -/
theorem regionBody_absent (points : List (Nat × Nat)) :
    ¬[']', ']'] <:+: regionBody points ++ [']'] := by
  cases points with
  | nil => decide
  | cons p rest =>
    rw [absent_iff, regionBody, List.append_assoc]
    exact apart_append (pointText_no_bracket p) (furtherText_apart rest)

theorem furtherText_stops (rest : List (Nat × Nat)) : Stops (furtherText rest) := by
  intro c head
  cases rest with
  | nil => cases head
  | cons p rest =>
    obtain rfl := Option.some.inj head
    decide

variable [FloatText F]

/-- The coordinates are in the range of the float. -/
def InRange (F : Type u) [FloatText F] (p : Nat × Nat) : Prop :=
  FloatText.outOfRange F p.1 = false ∧ FloatText.outOfRange F p.2 = false

/-- Whatever points follow, the first one is read. -/
theorem readPair_first {p : Nat × Nat} (inRange : InRange F p) (rest : List (Nat × Nat)) :
    readPair (pointText p ++ furtherText rest) = some (.ok (floatPoint (F := F) p)) := by
  have absent : ',' ∉ Nat.toDigits 10 p.1 := fun mem => absurd (digits_only _ _ mem) (by decide)
  have comma := find_mark absent (Nat.toDigits 10 p.2 ++ furtherText rest)
  have behind := drop_past (Nat.toDigits 10 p.1) [','] (Nat.toDigits 10 p.2 ++ furtherText rest)
  rw [List.length_singleton] at behind
  have numberX := stof_digits (F := F) p.1 (show Stops [] from fun _ none => nomatch none)
  have numberY := stof_digits (F := F) p.2 (furtherText_stops rest)
  rw [inRange.1, if_neg Bool.false_ne_true, List.append_nil] at numberX
  rw [inRange.2, if_neg Bool.false_ne_true] at numberY
  have text : pointText p ++ furtherText rest =
      Nat.toDigits 10 p.1 ++ ([','] ++ (Nat.toDigits 10 p.2 ++ furtherText rest)) := by
    rw [pointText, List.append_assoc]
    rfl
  rw [readPair, text, comma, Option.map_some, List.take_left, behind, numberX, numberY]
  rfl

variable {points : List (Nat × Nat)} {before after : List Char}

/-- A region is one more section of the text around it, with what leads into it. -/
theorem sections_region (points : List (Nat × Nat)) (before after : List Char) :
    sections (before ++ (regionText points ++ after)) =
      sections before ++ (lead before ++ regionBody points) :: sections after := by
  have inside := regionBody_absent points
  simp only [regionText, List.append_assoc]
  induction cut before with
  | @plain text none =>
    rw [sections_plain none, lead_plain none, List.nil_append]
    split
    · rename_i bracket
      obtain ⟨gap, rfl⟩ := List.getLast?_eq_some_iff.mp bracket
      have later : ¬[']', ']'] <:+: '[' :: regionBody points ++ [']'] := by
        intro found
        obtain starts | further := List.infix_cons_iff.mp found
        · exact absurd (List.cons_prefix_cons.mp starts).1 (by decide)
        · exact inside further
      have section_here := sections_closed none later after
      simp only [List.append_assoc] at section_here ⊢
      exact section_here
    · rename_i free
      refine sections_closed (fun found => ?_) inside after
      obtain ⟨a, b, same⟩ := found
      cases b using List.reverseRecOn with
      | nil =>
        rw [List.append_nil] at same
        have split : (a ++ ['[']) ++ ['['] = text ++ ['['] := by
          rw [← same, List.append_assoc]
          rfl
        obtain ⟨rfl, -⟩ := List.append_inj' split rfl
        exact free (by simp)
      | append_singleton b c =>
        rw [← List.append_assoc] at same
        exact none ⟨a, b, (List.append_inj' same rfl).1⟩
  | @opened gap rest first unclosed =>
    rw [sections_opened first unclosed, lead_opened first unclosed, List.nil_append]
    have open_still : ¬[']', ']'] <:+: (rest ++ ['[', '['] ++ regionBody points) ++ [']'] := by
      rw [absent_iff] at unclosed inside ⊢
      have bracketed := apart_append (show ']' ∉ ['[', '['] by decide) inside
      rw [List.append_assoc, List.append_assoc, List.isChain_append]
      refine ⟨unclosed, bracketed, fun a _ b head both => ?_⟩
      obtain rfl := Option.some.inj head
      exact absurd both.2 (by decide)
    have section_here := sections_closed first open_still after
    simp only [List.append_assoc] at section_here ⊢
    exact section_here
  | @closed gap body rest first inside' later ih =>
    rw [sections_closed first inside', lead_closed first inside']
    have section_here := sections_closed first inside'
      (rest ++ (['[', '['] ++ (regionBody points ++ ([']', ']'] ++ after))))
    simp only [List.append_assoc] at section_here ⊢
    rw [section_here, ih, List.cons_append]

/-- The pairs that the sections hold; `none` if the numbers of one cannot be read. -/
def readings (F : Type u) [FloatText F] : List (List Char) → Option (List (F × F))
  | [] => some []
  | body :: rest =>
    match readPair body with
    | none => readings F rest
    | some (.error _) => none
    | some (.ok point) => (readings F rest).map (point :: ·)

/-- `Init` reads the sections of its text in order. -/
theorem initLoop_readings {text : List Char} (cut : Cut text) (front : List Char)
    (region : List (F × F)) :
    (∀ points, readings F (sections text) = some points →
      initLoop (front ++ text) front.length region = ⟨0, region ++ points⟩) ∧
      (readings F (sections text) = none →
        (initLoop (front ++ text) front.length region).ret = -1) := by
  induction cut generalizing front region with
  | plain none =>
    rw [sections_plain none, initLoop_end (find_none none front)]
    refine ⟨?_, fun failed => by cases failed⟩
    rintro points ⟨⟩
    rw [List.append_nil]
  | opened first unclosed =>
    obtain ⟨opened, closed⟩ := found_open first unclosed front
    rw [sections_opened first unclosed, initLoop_open opened closed]
    refine ⟨?_, fun failed => by cases failed⟩
    rintro points ⟨⟩
    rw [List.append_nil]
  | @closed gap body rest first inside later ih =>
    obtain ⟨opened, closed⟩ := found_section first inside front rest
    obtain ⟨taken, -⟩ := section_parts front gap body rest
    have further := ih (front ++ (gap ++ (['[', '['] ++ (body ++ [']', ']']))))
    have length : (front ++ (gap ++ (['[', '['] ++ (body ++ [']', ']'])))).length =
        front.length + gap.length + 2 + body.length + 2 := by
      simp only [List.length_append, List.length_cons, List.length_nil]
      omega
    simp only [length, List.append_assoc] at further
    rw [sections_closed first inside, readings, initLoop_turn opened closed, taken]
    cases read : readPair (F := F) body with
    | none => exact further region
    | some pair =>
      cases pair with
      | error failure => exact ⟨fun _ whole => (by cases whole), fun _ => rfl⟩
      | ok point =>
        obtain ⟨done, failed⟩ := further (region ++ [point])
        refine ⟨fun points all => ?_, fun none => failed (Option.map_eq_none_iff.mp none)⟩
        obtain ⟨more, behind, rfl⟩ := Option.map_eq_some_iff.mp all
        dsimp only
        rw [done more behind, List.append_assoc]
        rfl

theorem init_iff (config : List Char) (points : List (F × F)) :
    init config = ⟨0, points⟩ ↔ readings F (sections config) = some points := by
  obtain ⟨done, failed⟩ := initLoop_readings (F := F) (cut config) [] []
  rw [List.nil_append, List.length_nil] at done failed
  cases all : readings F (sections config) with
  | none =>
    have ret := failed all
    refine ⟨fun whole => ?_, fun whole => by cases whole⟩
    rw [← init, whole] at ret
    exact absurd (show (0 : Int) = -1 from ret) (by decide)
  | some found =>
    rw [init, done found all, InitDone.mk.injEq, Option.some.injEq]
    simp

theorem readings_append (some_sections more : List (List Char)) :
    readings F (some_sections ++ more) =
      (readings F some_sections).bind fun points => (readings F more).map (points ++ ·) := by
  induction some_sections with
  | nil => simp [readings]
  | cons body rest ih =>
    rw [List.cons_append, readings, readings, ih]
    cases readPair (F := F) body with
    | none => rfl
    | some pair =>
      cases pair with
      | error failure => rfl
      | ok point =>
        cases readings F rest with
        | none => rfl
        | some points => cases readings F more <;> rfl

/-- What is read of the text before the region, with its first point and of the text behind
it are the points of the region. -/
def Spells (F : Type u) [FloatText F] (before after : List Char) (points : List (Nat × Nat)) :
    Prop :=
  ∃ earlier point later, readings F (sections before) = some earlier ∧
    readPair (lead before ++ regionBody points) = some (.ok point) ∧
      readings F (sections after) = some later ∧
        points.map floatPoint = earlier ++ point :: later

/-- No section of the text holds a pair. -/
def Quiet (text : List Char) : Prop := ∀ body ∈ sections text, ',' ∉ body

theorem comma_occurs {text : List Char} : [','] <:+: text ↔ ',' ∈ text := by
  rw [List.mem_iff_append]
  constructor
  · rintro ⟨front, behind, rfl⟩
    exact ⟨front, behind, List.append_assoc front [','] behind⟩
  · rintro ⟨front, behind, rfl⟩
    exact ⟨front, behind, List.append_assoc front [','] behind⟩

theorem readPair_none {body : List Char} (absent : ',' ∉ body) :
    readPair (F := F) body = none := by
  have nothing := find_none (mt comma_occurs.mp absent) []
  rw [List.nil_append, List.length_nil] at nothing
  rw [readPair, nothing]
  rfl

theorem readPair_some {body : List Char} (comma : ',' ∈ body) :
    ∃ pair, readPair (F := F) body = some pair := by
  obtain ⟨k, found⟩ := Option.isSome_iff_exists.mp (findFrom_isSome (comma_occurs.mpr comma) 0)
  have there : find [','] body 0 = some k := found
  rw [readPair, there]
  exact ⟨_, rfl⟩

theorem readings_quiet {text : List Char} (quiet : Quiet text) :
    readings F (sections text) = some [] := by
  unfold Quiet at quiet
  generalize sections text = bodies at quiet ⊢
  induction bodies with
  | nil => rfl
  | cons body rest ih =>
    obtain ⟨head, tail⟩ := List.forall_mem_cons.mp quiet
    rw [readings, readPair_none head]
    exact ih tail

theorem regionBody_comma (some_point : points ≠ []) : ',' ∈ regionBody points := by
  obtain ⟨p, rest, rfl⟩ := List.exists_cons_of_ne_nil some_point
  simp [regionBody, pointText]

/-- A region in any text is parsed as its points if and only if the text around it and its first
point spell them. -/
theorem parsesRegion_spells (some_point : points ≠ []) (before after : List Char) :
    ParsesRegion F before after points ↔ Spells F before after points := by
  obtain ⟨pair, read⟩ := readPair_some (F := F)
    (List.mem_append_right (lead before) (regionBody_comma some_point))
  rw [ParsesRegion, init_iff, sections_region, readings_append, readings, read, Spells, read]
  constructor
  · intro whole
    obtain ⟨earlier, first, behind⟩ := Option.bind_eq_some_iff.mp whole
    obtain ⟨later, second, same⟩ := Option.map_eq_some_iff.mp behind
    cases pair with
    | error failure => cases second
    | ok point =>
      obtain ⟨last, third, rfl⟩ := Option.map_eq_some_iff.mp second
      exact ⟨earlier, point, last, first, rfl, third, same.symm⟩
  · rintro ⟨earlier, point, later, first, ⟨⟩, third, same⟩
    rw [first, third, same]
    rfl

/-- A documented region is parsed as its points exactly if what is read around it and its first
point are these; where the text around it is quiet and leads into no section, exactly if it has
one point. -/
theorem parsesRegion_iff (before after : List Char) (some_point : points ≠ [])
    (inRange : ∀ p ∈ points, InRange F p) :
    (ParsesRegion F before after points ↔ Spells F before after points) ∧
      (Quiet before → lead before = [] → Quiet after →
        (ParsesRegion F before after points ↔ points.length = 1)) := by
  refine ⟨parsesRegion_spells some_point before after, fun quiet free behind => ?_⟩
  obtain ⟨p, rest, rfl⟩ := List.exists_cons_of_ne_nil some_point
  rw [parsesRegion_spells some_point, Spells, readings_quiet quiet, readings_quiet behind, free,
    List.nil_append, regionBody, readPair_first (inRange p List.mem_cons_self) rest]
  constructor
  · rintro ⟨_, _, _, ⟨⟩, ⟨⟩, ⟨⟩, same⟩
    have length := congrArg List.length same
    rw [List.length_map] at length
    exact length
  · intro one
    rw [List.length_eq_zero_iff.mp (Nat.succ.inj one)]
    exact ⟨[], floatPoint p, [], rfl, rfl, rfl, rfl⟩

theorem quiet_nil : Quiet [] := by
  unfold Quiet
  rw [sections_plain (by decide)]
  exact List.forall_mem_nil _

/-- One point behind other text is parsed. -/
theorem onePoint_parsed : ParsesRegion ℚ "area: [[all]] region: ".toList [] [(100, 200)] := by
  have split : "area: [[all]] region: ".toList =
      "area: ".toList ++ (['[', '['] ++ ("all".toList ++ ([']', ']'] ++ " region: ".toList))) := rfl
  have first : ¬['[', '['] <:+: "area: ".toList ++ ['['] := by decide
  have inside : ¬[']', ']'] <:+: "all".toList ++ [']'] := by decide
  have behind : ¬['[', '['] <:+: " region: ".toList := by decide
  refine ((parsesRegion_iff _ _ (List.cons_ne_nil _ _) (by
    intro p mem
    rw [List.mem_singleton.mp mem]
    exact ⟨by decide, by decide⟩)).2 ?_ ?_ quiet_nil).mpr rfl
  · rw [Quiet, split, sections_closed first inside, sections_plain behind]
    decide
  · rw [split, lead_closed first inside, lead_plain behind]
    decide

/-- The documented example, of whose four points `Init` leaves one. -/
theorem documented_lost :
    ¬ParsesRegion ℚ "region: ".toList []
      [(100, 100), (300, 100), (300, 300), (100, 300)] := by
  have plain : ¬['[', '['] <:+: "region: ".toList := by decide
  have inRange : InRange ℚ (100, 100) := ⟨by decide, by decide⟩
  rw [parsesRegion_spells (List.cons_ne_nil _ _), Spells, sections_plain plain, lead_plain plain,
    if_neg (by decide), readings_quiet quiet_nil, List.nil_append, regionBody,
    readPair_first inRange]
  rintro ⟨_, _, _, ⟨⟩, ⟨⟩, ⟨⟩, same⟩
  exact absurd (congrArg List.length same) (by decide)

end Documents

end SampleRules
