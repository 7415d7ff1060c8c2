import AxVision.OsdTexts

/-!
# Text on the screen with FreeType

`Utf8ToU32` decodes a text without asking how much of it is left. It stays
inside a text exactly if the text is cut into the sequences that its lead bytes
announce, as every well-formed text is.
-/

namespace FreetypeTexts

open OsdTexts Utf8Sequences

/-- One turn of `Utf8ToU32`: the code point, the bytes taken and the positions read. -/
structure Turn where
  cp : UInt32
  length : Nat
  reads : List Nat

def turnAt (s : Text) (i : Nat) : Turn :=
  let c := s.byte i
  if c < 0x80 then ⟨c.toUInt32, 1, [i]⟩
  else if c < 0xE0 then ⟨joinTwo c (s.byte (i + 1)), 2, [i, i + 1]⟩
  else if c < 0xF0 then
    ⟨joinThree c (s.byte (i + 1)) (s.byte (i + 2)), 3, [i, i + 1, i + 2]⟩
  else
    ⟨joinFour c (s.byte (i + 1)) (s.byte (i + 2)) (s.byte (i + 3)), 4, [i, i + 1, i + 2, i + 3]⟩

theorem turnAt_advances (s : Text) (i : Nat) : 0 < (turnAt s i).length := by
  simp only [turnAt]
  split
  · exact Nat.one_pos
  · split
    · exact Nat.two_pos
    · split
      · exact Nat.succ_pos _
      · exact Nat.succ_pos _

/-- The turns of the loop. -/
def turns (s : Text) (i : Nat) : List Turn :=
  if _ : i < s.size then turnAt s i :: turns s (i + (turnAt s i).length) else []
termination_by s.size - i
decreasing_by
  have := turnAt_advances s i
  omega

/-- `Utf8ToU32`. -/
def utf8ToU32 (s : Text) : List UInt32 := (turns s 0).map Turn.cp

section Sequences

/-- The length of the sequence that a lead byte announces. -/
def announced (lead : UInt8) : Nat :=
  if lead < 0x80 then 1 else if lead < 0xE0 then 2 else if lead < 0xF0 then 3 else 4

/-- Bytes that are cut into sequences of the announced lengths. -/
inductive Whole : List UInt8 → Prop
  | nil : Whole []
  | cons {lead : UInt8} {behind rest : List UInt8} (length : behind.length + 1 = announced lead)
      (whole : Whole rest) : Whole (lead :: behind ++ rest)

variable {s : Text} {i : Nat} {bytes : List UInt8}

theorem announced_pos (lead : UInt8) : 0 < announced lead := by
  unfold announced
  grind

/-- A turn takes and reads the announced sequence. -/
theorem turnAt_reads (s : Text) (i : Nat) :
    (turnAt s i).length = announced (s.byte i) ∧
      (turnAt s i).reads = List.range' i (announced (s.byte i)) := by
  simp only [turnAt, announced]
  split
  · exact ⟨rfl, rfl⟩
  · split
    · exact ⟨rfl, rfl⟩
    · split
      · exact ⟨rfl, rfl⟩
      · exact ⟨rfl, rfl⟩

/-- Bytes are whole exactly if the first sequence is all there and the rest is whole. -/
theorem whole_cons_iff {lead : UInt8} {behind : List UInt8} :
    Whole (lead :: behind) ↔
      announced lead ≤ (lead :: behind).length ∧ Whole ((lead :: behind).drop (announced lead)) := by
  constructor
  · intro whole
    generalize same : lead :: behind = bytes at whole
    cases whole with
    | nil => cases same
    | @cons lead' first rest length whole =>
      cases same
      have taken : (lead :: first).length = announced lead := length
      rw [List.drop_left' taken]
      refine ⟨?_, whole⟩
      rw [List.length_append, taken]
      exact Nat.le_add_right _ _
  · rintro ⟨enough, whole⟩
    obtain ⟨n, one_more⟩ := Nat.exists_eq_succ_of_ne_zero (announced_pos lead).ne'
    rw [one_more] at enough whole
    rw [List.drop_succ_cons] at whole
    rw [← List.take_append_drop n behind]
    have length : (behind.take n).length + 1 = announced lead := by
      rw [one_more, List.length_take_of_le (Nat.le_of_succ_le_succ enough)]
    exact Whole.cons length whole

theorem turns_go (inside : i < s.size) :
    turns s i = turnAt s i :: turns s (i + (turnAt s i).length) := by
  rw [turns, dif_pos inside]

theorem turns_end (outside : ¬i < s.size) : turns s i = [] := by
  rw [turns, dif_neg outside]

/-- From a position on, every read is inside the text exactly if the bytes there are whole. -/
theorem turns_inside_iff (s : Text) (i : Nat) :
    (∀ turn ∈ turns s i, ∀ r ∈ turn.reads, r < s.size) ↔ Whole (s.bytes.drop i) := by
  fun_induction turns s i with
  | case1 i inside ih =>
    obtain ⟨length, reads⟩ := turnAt_reads s i
    have lead : s.byte i = s.bytes[i] := by
      rw [Text.byte, List.getElem?_eq_getElem inside]
      rfl
    have first : (∀ r ∈ (turnAt s i).reads, r < s.size) ↔
        announced (s.byte i) ≤ (s.bytes.drop i).length := by
      have some := announced_pos (s.byte i)
      simp only [reads, List.mem_range'_1, List.length_drop]
      constructor
      · intro below
        have last := below (i + announced (s.byte i) - 1) ⟨by omega, by omega⟩
        unfold Text.size at last
        omega
      · intro enough r within
        unfold Text.size
        omega
    rw [List.forall_mem_cons, first, ih, length, ← List.drop_drop]
    rw [List.drop_eq_getElem_cons inside, ← lead]
    exact whole_cons_iff.symm
  | case2 i outside =>
    rw [List.drop_eq_nil_iff.mpr (Nat.not_lt.mp outside)]
    exact ⟨fun _ => Whole.nil, fun _ turn none => by cases none⟩

theorem turns_length (s : Text) (i : Nat) : (turns s i).length ≤ s.size - i := by
  fun_induction turns s i with
  | case1 i inside ih =>
    have := turnAt_advances s i
    rw [List.length_cons]
    omega
  | case2 i outside => exact Nat.zero_le _

end Sequences

section Scalars

variable {s : Text} {i : Nat}

/-- At the encoding of a scalar a turn takes it and yields it. -/
theorem turnAt_encoded {c : Char} {rest : List UInt8}
    (here : s.bytes.drop i = String.utf8EncodeChar c ++ rest) :
    (turnAt s i).length = (String.utf8EncodeChar c).length ∧ (turnAt s i).cp = c.val := by
  have sequence := encoded c
  generalize String.utf8EncodeChar c = units at here sequence
  have leads := fun {a : UInt8} {rest : List UInt8} (same : units = a :: rest) =>
    Sequence.lead_lt (same ▸ sequence)
  have value : c.val.toNat = c.toNat := rfl
  cases sequence with
  | @one a small lead =>
    have first : s.byte i = a := (byte_of_drop (k := 0) here rfl).2
    have ascii : a < 0x80 := (leads rfl).1.mpr small
    simp only [turnAt, first, if_pos ascii]
    refine ⟨rfl, UInt32.toNat_inj.mp ?_⟩
    rw [UInt8.toNat_toUInt32, lead, value]
  | @two a b large small lead second =>
    have first : s.byte i = a := (byte_of_drop (k := 0) here rfl).2
    have next := (byte_of_drop (k := 1) here rfl).2
    have ascii : ¬a < 0x80 := mt (leads rfl).1.mp (by omega)
    have two : a < 0xE0 := (leads rfl).2.1.mpr small
    simp only [turnAt, first, if_neg ascii, if_pos two, next]
    refine ⟨rfl, UInt32.toNat_inj.mp ?_⟩
    rw [joinTwo_toNat, value]
    omega
  | @three a b c' large small lead second third =>
    have first : s.byte i = a := (byte_of_drop (k := 0) here rfl).2
    have next := (byte_of_drop (k := 1) here rfl).2
    have last := (byte_of_drop (k := 2) here rfl).2
    have ascii : ¬a < 0x80 := mt (leads rfl).1.mp (by omega)
    have two : ¬a < 0xE0 := mt (leads rfl).2.1.mp (by omega)
    have three : a < 0xF0 := (leads rfl).2.2.mpr small
    simp only [turnAt, first, if_neg ascii, if_neg two, if_pos three, next, last]
    refine ⟨rfl, UInt32.toNat_inj.mp ?_⟩
    rw [joinThree_toNat, value]
    omega
  | @four a b c' d large top lead second third fourth =>
    have first : s.byte i = a := (byte_of_drop (k := 0) here rfl).2
    have next := (byte_of_drop (k := 1) here rfl).2
    have after := (byte_of_drop (k := 2) here rfl).2
    have last := (byte_of_drop (k := 3) here rfl).2
    have ascii : ¬a < 0x80 := mt (leads rfl).1.mp (by omega)
    have two : ¬a < 0xE0 := mt (leads rfl).2.1.mp (by omega)
    have three : ¬a < 0xF0 := mt (leads rfl).2.2.mp (by omega)
    simp only [turnAt, first, if_neg ascii, if_neg two, if_neg three, next, after, last]
    refine ⟨rfl, UInt32.toNat_inj.mp ?_⟩
    rw [joinFour_toNat, value]
    omega

/-- A well-formed text decodes to its scalars, those outside the BMP with them. -/
theorem turns_encoded (scalars : List Char) (here : s.bytes.drop i = encode scalars) :
    (turns s i).map Turn.cp = scalars.map Char.val := by
  induction scalars generalizing i with
  | nil =>
    have outside : ¬i < s.size := Nat.not_lt.mpr (List.drop_eq_nil_iff.mp here)
    rw [turns_end outside]
    rfl
  | cons c rest ih =>
    rw [encode_cons] at here
    obtain ⟨length, cp⟩ := turnAt_encoded here
    have inside : i < s.size := by
      by_contra outside
      rw [List.drop_eq_nil_iff.mpr (Nat.not_lt.mp outside)] at here
      exact String.utf8EncodeChar_ne_nil (List.append_eq_nil_iff.mp here.symm).1
    have next : s.bytes.drop (i + (turnAt s i).length) = encode rest := by
      rw [← List.drop_drop, here, length, List.drop_left]
    rw [turns_go inside, List.map_cons, List.map_cons, cp, ih next]

/-- Every read is inside the text, the loop ends, and on a text of the BMP the code
points are the units that the built-in font gets. -/
structure Decodes (s : Text) : Prop where
  inside : ∀ turn ∈ turns s 0, ∀ r ∈ turn.reads, r < s.size
  ends : (turns s 0).length ≤ s.size
  agrees : ∀ scalars : List Char, s.bytes = encode scalars →
    (∀ c ∈ scalars, c.toNat < 0x10000) → utf8ToU32 s = (decoded s).map UInt16.toUInt32

/-- `Utf8ToU32` decodes a text safely if and only if its last sequence is not cut off. -/
theorem utf8ToU32_iff (s : Text) : Decodes s ↔ Whole s.bytes := by
  constructor
  · intro decodes
    exact (turns_inside_iff s 0).mp decodes.inside
  · intro whole
    refine ⟨(turns_inside_iff s 0).mpr whole, turns_length s 0, ?_⟩
    intro scalars same bmp
    have here : s.bytes.drop 0 = encode scalars := same
    rw [decoded_eq, calls_encoded scalars here, utf8ToU32, turns_encoded scalars here,
      List.map_map]
    apply List.map_congr_left
    intro c mem
    have small := bmp c mem
    apply UInt32.toNat_inj.mp
    rw [Function.comp_apply, shown, if_pos small, UInt16.toNat_toUInt32]
    exact (Nat.mod_eq_of_lt small).symm

/-- A lead byte of three alone makes the loop read two bytes behind the text. -/
theorem cutOff_beyond : ¬∀ s : Text, Decodes s := by
  intro decodes
  have inside := (decodes ⟨[0xE4], fun _ => 0⟩).inside
  rw [turns_go (by decide)] at inside
  exact absurd (inside _ List.mem_cons_self 1 (by decide)) (by decide)

end Scalars

end FreetypeTexts
