import AxVision.FrameDrawing
import AxVision.Utf8Sequences

/-!
# Text on the screen with the built-in font

`RenderOsdText` decodes a text byte by byte and draws one glyph for each
decoded unit. A text is given with the memory behind it, so that a read outside
it is a read like any other, and every call tells which bytes it has read.
-/

namespace OsdTexts

open FrameDrawing PlaneLayouts WriteLogs Utf8Sequences

universe u

/-- A `std::string` and the memory behind its last byte. -/
structure Text where
  bytes : List UInt8
  beyond : Nat → UInt8

def Text.size (s : Text) : Nat := s.bytes.length

def Text.byte (s : Text) (i : Nat) : UInt8 := s.bytes[i]?.getD (s.beyond (i - s.size))

/-- The bytes consumed, the code unit and the positions that were read. -/
structure Decoded where
  n : Nat
  unicode : UInt16
  reads : List Nat

/-- `Utf8Next`; `out` is what `*out` was before. -/
def utf8Next (s : Text) (i : Nat) (out : UInt16) : Decoded :=
  if s.size ≤ i then ⟨0, out, []⟩
  else
    let c := s.byte i
    if c < 0x80 then ⟨1, c.toUInt16, [i]⟩
    else if c < 0xE0 then
      if s.size ≤ i + 1 then ⟨0, out, [i]⟩
      else ⟨2, (joinTwo c (s.byte (i + 1))).toUInt16, [i, i + 1]⟩
    else if c < 0xF0 then
      if s.size ≤ i + 2 then ⟨0, out, [i]⟩
      else ⟨3, (joinThree c (s.byte (i + 1)) (s.byte (i + 2))).toUInt16, [i, i + 1, i + 2]⟩
    else if s.size ≤ i + 3 then ⟨0, out, [i]⟩
    else ⟨4, 0, [i]⟩

/-- The loop of `RenderOsdText` around its body, which is given. -/
def textLoop {σ : Type u} (body : σ → UInt16 → σ) (text : Text) (i : Nat) (state : σ) : σ :=
  if _ : i < text.size then
    if _ : (utf8Next text i 0).n = 0 then state
    else
      textLoop body text (i + (utf8Next text i 0).n) (body state (utf8Next text i 0).unicode)
  else state
termination_by text.size - i
decreasing_by omega

/-- The calls of `Utf8Next` that the loop makes. -/
def calls (text : Text) (i : Nat) : List Decoded :=
  if _ : i < text.size then
    if _ : (utf8Next text i 0).n = 0 then [utf8Next text i 0]
    else utf8Next text i 0 :: calls text (i + (utf8Next text i 0).n)
  else []
termination_by text.size - i
decreasing_by omega

section Glyphs

/-- `FONT_BITMAP_T`. -/
structure FontBitmap where
  nWidth : UInt16
  nHeight : UInt16
  pBuffer : Nat → UInt8

def kBaseCell : Int := 16
def kEnCellW : Int := 8
def kZhCellW : Int := 16

def scaleFromFontSize (fontSize : Int) : Int :=
  let fontSize := if fontSize ≤ 0 then kBaseCell else fontSize
  let scale := (fontSize + kBaseCell - 1) / kBaseCell
  if scale < 1 then 1 else scale

def fallbackAdvance (unicode : UInt16) (scale : Int) : Int :=
  (if unicode > 0x7F then kZhCellW else kEnCellW) * scale

def FontBitmap.inked (bmp : FontBitmap) (row col : Nat) : Bool :=
  bmp.pBuffer (row * (bmp.nWidth.toNat / 8) + col / 8) &&& (0x80 >>> UInt8.ofNat (col % 8)) ≠ 0

def blitBitmapScaled (frame : VideoFrame) (x y : Int) (bmp : FontBitmap) (color : YUVColor)
    (scale : Int) : Draw :=
  if bmp.nWidth = 0 ∨ bmp.nHeight = 0 ∨ scale < 1 then .nothing
  else
    .sequence ((List.range bmp.nHeight.toNat).map fun row =>
      .sequence ((List.range bmp.nWidth.toNat).map fun col =>
        if bmp.inked row col then
          .sequence ((countUp 0 (scale - 1)).map fun hy =>
            .sequence ((countUp 0 (scale - 1)).map fun wx =>
              setPixel frame (x + col * scale + wx) (y + row * scale + hy) color))
        else .nothing))

/-- The cursor, and the glyphs drawn so far. -/
structure Pen where
  cursorX : Int
  drawn : List Draw

/-- The body of the loop; `font` is `GetFontBitmap`. -/
def drawGlyph (font : UInt16 → Option FontBitmap) (frame : VideoFrame) (y : Int)
    (color : YUVColor) (scale : Int) (pen : Pen) (unicode : UInt16) : Pen :=
  if unicode = 0 then { pen with cursorX := pen.cursorX + kEnCellW * scale }
  else
    match font unicode with
    | none => { pen with cursorX := pen.cursorX + fallbackAdvance unicode scale }
    | some bmp =>
      { cursorX := pen.cursorX + bmp.nWidth.toNat * scale
        drawn := pen.drawn ++
          [blitBitmapScaled frame pen.cursorX (y - bmp.nHeight.toNat * scale) bmp color scale] }

def renderOsdText (font : UInt16 → Option FontBitmap) (frame : Option VideoFrame) (x y : Int)
    (text : Text) (color : YUVColor) (fontSize : Int) : Draw :=
  match frame with
  | none => .nothing
  | some frame =>
    .sequence (textLoop (drawGlyph font frame y color (scaleFromFontSize fontSize)) text 0
      ⟨x, []⟩).drawn

end Glyphs

section Steps

variable {text : Text} {i : Nat}

/-- A call reads inside the text, and advances inside it or not at all. -/
theorem utf8Next_spec (text : Text) (i : Nat) (out : UInt16) :
    ((utf8Next text i out).n = 0 ∨ i + (utf8Next text i out).n ≤ text.size) ∧
      ∀ r ∈ (utf8Next text i out).reads, r < text.size := by
  unfold utf8Next
  grind

/-- The bytes at a position are those of the text from there on. -/
theorem byte_of_drop {suffix : List UInt8} (here : text.bytes.drop i = suffix) {k : Nat} {b : UInt8}
    (kth : suffix[k]? = some b) : i + k < text.size ∧ text.byte (i + k) = b := by
  rw [← here, List.getElem?_drop] at kth
  refine ⟨(List.getElem?_eq_some_iff.mp kth).1, ?_⟩
  rw [Text.byte, kth]
  rfl

/-- What the loop gets for a scalar: 0 stands for those outside the BMP. -/
def shown (c : Char) : UInt16 := if c.toNat < 0x10000 then UInt16.ofNat c.toNat else 0

/-- At the encoding of a scalar a call consumes it and yields it or the 0. -/
theorem utf8Next_encoded {c : Char} {rest : List UInt8}
    (here : text.bytes.drop i = String.utf8EncodeChar c ++ rest) (out : UInt16) :
    (utf8Next text i out).n = (String.utf8EncodeChar c).length ∧
      (utf8Next text i out).unicode = shown c := by
  have sequence := encoded c
  generalize String.utf8EncodeChar c = units at here sequence
  have below {n : Nat} (small : n < 0x10000) : (UInt16.ofNat n).toNat = n := Nat.mod_eq_of_lt small
  have leads := fun {a : UInt8} {rest : List UInt8} (same : units = a :: rest) =>
    Sequence.lead_lt (same ▸ sequence)
  cases sequence with
  | @one a small lead =>
    obtain ⟨inside, first⟩ : i < text.size ∧ text.byte i = a := byte_of_drop (k := 0) here rfl
    have ascii : a < 0x80 := (leads rfl).1.mpr small
    simp only [utf8Next, first, if_neg (Nat.not_le.mpr inside), if_pos ascii]
    refine ⟨rfl, UInt16.toNat_inj.mp ?_⟩
    rw [shown, if_pos (by omega), UInt8.toNat_toUInt16, lead, below (by omega)]
  | @two a b large small lead second =>
    obtain ⟨inside, first⟩ : i < text.size ∧ text.byte i = a := byte_of_drop (k := 0) here rfl
    obtain ⟨more, next⟩ := byte_of_drop (k := 1) here rfl
    have ascii : ¬a < 0x80 := mt (leads rfl).1.mp (by omega)
    have two : a < 0xE0 := (leads rfl).2.1.mpr small
    simp only [utf8Next, first, if_neg (Nat.not_le.mpr inside), if_neg ascii, if_pos two,
      if_neg (Nat.not_le.mpr more), next]
    refine ⟨rfl, UInt16.toNat_inj.mp ?_⟩
    rw [shown, if_pos (by omega), UInt32.toNat_toUInt16, joinTwo_toNat, below (by omega)]
    omega
  | @three a b c' large small lead second third =>
    obtain ⟨inside, first⟩ : i < text.size ∧ text.byte i = a := byte_of_drop (k := 0) here rfl
    obtain ⟨-, next⟩ := byte_of_drop (k := 1) here rfl
    obtain ⟨more, last⟩ := byte_of_drop (k := 2) here rfl
    have ascii : ¬a < 0x80 := mt (leads rfl).1.mp (by omega)
    have two : ¬a < 0xE0 := mt (leads rfl).2.1.mp (by omega)
    have three : a < 0xF0 := (leads rfl).2.2.mpr small
    simp only [utf8Next, first, if_neg (Nat.not_le.mpr inside), if_neg ascii, if_neg two,
      if_pos three, if_neg (Nat.not_le.mpr more), next, last]
    refine ⟨rfl, UInt16.toNat_inj.mp ?_⟩
    rw [shown, if_pos (by omega), UInt32.toNat_toUInt16, joinThree_toNat, below (by omega)]
    omega
  | @four a b c' d large top lead second third fourth =>
    obtain ⟨inside, first⟩ : i < text.size ∧ text.byte i = a := byte_of_drop (k := 0) here rfl
    obtain ⟨more, -⟩ := byte_of_drop (k := 3) here rfl
    have ascii : ¬a < 0x80 := mt (leads rfl).1.mp (by omega)
    have two : ¬a < 0xE0 := mt (leads rfl).2.1.mp (by omega)
    have three : ¬a < 0xF0 := mt (leads rfl).2.2.mp (by omega)
    simp only [utf8Next, first, if_neg (Nat.not_le.mpr inside), if_neg ascii, if_neg two,
      if_neg three, if_neg (Nat.not_le.mpr more)]
    refine ⟨rfl, ?_⟩
    rw [shown, if_neg (by omega)]

end Steps

section Loops

variable {text : Text} {i : Nat}

/-- The units of the calls that advance, in their order. -/
def units (made : List Decoded) : List UInt16 :=
  (made.filter fun next => next.n ≠ 0).map Decoded.unicode

/-- The code units that `RenderOsdText` goes through. -/
def decoded (text : Text) : List UInt16 := textLoop (fun all unicode => all ++ [unicode]) text 0 []

theorem calls_stop (inside : i < text.size) (stop : (utf8Next text i 0).n = 0) :
    calls text i = [utf8Next text i 0] := by
  rw [calls, dif_pos inside, dif_pos stop]

theorem calls_go (inside : i < text.size) (go : (utf8Next text i 0).n ≠ 0) :
    calls text i = utf8Next text i 0 :: calls text (i + (utf8Next text i 0).n) := by
  rw [calls, dif_pos inside, dif_neg go]

theorem calls_end (outside : ¬i < text.size) : calls text i = [] := by
  rw [calls, dif_neg outside]

/-- The body of the loop runs once for each unit, whatever the body is. -/
theorem textLoop_eq {σ : Type u} (body : σ → UInt16 → σ) (text : Text) (i : Nat) (state : σ) :
    textLoop body text i state = (units (calls text i)).foldl body state := by
  fun_induction textLoop body text i state with
  | case1 i state inside stop =>
    rw [calls_stop inside stop, units, List.filter_cons_of_neg (by simpa using stop)]
    rfl
  | case2 i state inside go ih =>
    rw [calls_go inside go, units, List.filter_cons_of_pos (by simpa using go)]
    exact ih
  | case3 i state outside =>
    rw [calls_end outside]
    rfl

theorem decoded_eq (text : Text) : decoded text = units (calls text 0) := by
  rw [decoded, textLoop_eq, List.foldl_append_eq_append, List.nil_append, ← List.flatMap_def,
    List.flatMap_singleton']

/-- The loop on the encoding of some scalars. -/
theorem calls_encoded (scalars : List Char) (here : text.bytes.drop i = encode scalars) :
    units (calls text i) = scalars.map shown := by
  induction scalars generalizing i with
  | nil =>
    have outside : ¬i < text.size := Nat.not_lt.mpr (List.drop_eq_nil_iff.mp here)
    rw [calls_end outside]
    rfl
  | cons c rest ih =>
    rw [encode_cons] at here
    obtain ⟨length, unicode⟩ := utf8Next_encoded here 0
    have some : (utf8Next text i 0).n ≠ 0 := by
      rw [length]
      exact List.length_eq_zero_iff.not.mpr String.utf8EncodeChar_ne_nil
    have inside : i < text.size := by
      by_contra outside
      rw [List.drop_eq_nil_iff.mpr (Nat.not_lt.mp outside)] at here
      exact String.utf8EncodeChar_ne_nil (List.append_eq_nil_iff.mp here.symm).1
    have next : text.bytes.drop (i + (utf8Next text i 0).n) = encode rest := by
      rw [← List.drop_drop, here, length, List.drop_left]
    rw [calls_go inside some, units, List.filter_cons_of_pos (by simpa using some), List.map_cons,
      List.map_cons, unicode, ← ih next]
    rfl

/-- No call of the loop reads outside the text, and there is no more than one for each byte. -/
theorem calls_inside (text : Text) (i : Nat) :
    (calls text i).length ≤ text.size - i ∧
      ∀ call ∈ calls text i, ∀ r ∈ call.reads, r < text.size := by
  fun_induction calls text i with
  | case1 i inside stop =>
    refine ⟨by simp only [List.length_singleton]; omega, ?_⟩
    intro call mem
    rw [List.mem_singleton.mp mem]
    exact (utf8Next_spec text i 0).2
  | case2 i inside go ih =>
    refine ⟨by simp only [List.length_cons]; omega, ?_⟩
    intro call mem
    obtain rfl | later := List.mem_cons.mp mem
    · exact (utf8Next_spec text i 0).2
    · exact ih.2 call later
  | case3 i outside => exact ⟨Nat.zero_le _, fun call none => by cases none⟩

/-- The loop yields one unit for each scalar of a text that is well formed; on any
bytes no call reads outside the text, each one advances inside it or ends the
loop, and the loop ends. -/
theorem osd_decodes :
    (∀ (scalars : List Char) (beyond : Nat → UInt8),
      decoded ⟨encode scalars, beyond⟩ = scalars.map shown) ∧
    (∀ (text : Text) (i : Nat) (out : UInt16),
      ((utf8Next text i out).n = 0 ∨ i + (utf8Next text i out).n ≤ text.size) ∧
        ∀ r ∈ (utf8Next text i out).reads, r < text.size) ∧
    ∀ text : Text, (calls text 0).length ≤ text.size ∧
      ∀ call ∈ calls text 0, ∀ r ∈ call.reads, r < text.size := by
  refine ⟨?_, utf8Next_spec, fun text => calls_inside text 0⟩
  intro scalars beyond
  rw [decoded_eq]
  exact calls_encoded scalars rfl

end Loops

end OsdTexts
