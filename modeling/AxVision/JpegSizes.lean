import Mathlib.Data.List.Basic
import Mathlib.Data.UInt

/-!
# The size of a JPEG file

`GetJPEGWidthHeight` walks the markers of a file up to the first frame. A file is
the list of the bytes that are left; `fread` at its end leaves a variable as it was,
so what was read last goes along.
-/

namespace JpegSizes

def mData : UInt8 := 0x00
def mSof0 : UInt8 := 0xc0
def mDht : UInt8 := 0xc4
def mSoi : UInt8 := 0xd8
def mEoi : UInt8 := 0xd9
def mSos : UInt8 := 0xda
def mDqt : UInt8 := 0xdb
def mDnl : UInt8 := 0xdc
def mDri : UInt8 := 0xdd
def mApp0 : UInt8 := 0xe0
def mAppF : UInt8 := 0xef
def mCom : UInt8 := 0xfe

/-- `MAKEUS` -/
def makeUs (a b : UInt8) : UInt16 := a.toUInt16 <<< 8 ||| b.toUInt16

/-- The variables `ucHigh` and `ucLow`, and the bytes behind the position. -/
structure Reader where
  ucHigh : UInt8
  ucLow : UInt8
  rest : List UInt8

/-- `fread` of one byte into a variable. -/
def fread (old : UInt8) : List UInt8 → UInt8 × List UInt8
  | [] => (old, [])
  | b :: rest => (b, rest)

def Reader.readUs (r : Reader) : Reader :=
  let (high, rest) := fread r.ucHigh r.rest
  let (low, rest) := fread r.ucLow rest
  ⟨high, low, rest⟩

def Reader.us (r : Reader) : UInt16 := makeUs r.ucHigh r.ucLow

/-- How far a length takes the position behind itself. -/
def skip (length : UInt16) : Nat := if 2 ≤ length then (length - 2).toNat else 0

def Reader.skipSegment (r : Reader) : Reader :=
  let r := r.readUs
  { r with rest := r.rest.drop (skip r.us) }

theorem fread_length (old : UInt8) (rest : List UInt8) :
    (fread old rest).2.length ≤ rest.length := by
  cases rest with
  | nil => exact le_rfl
  | cons b rest => exact Nat.le_succ _

theorem skipSegment_length (r : Reader) : r.skipSegment.rest.length ≤ r.rest.length := by
  rw [Reader.skipSegment, Reader.readUs]
  dsimp only
  rw [List.length_drop]
  exact (Nat.sub_le _ _).trans ((fread_length _ _).trans (fread_length _ _))

theorem skipSegment_lt {bytes rest : List UInt8} {high low first id : UInt8}
    (here : bytes = first :: id :: rest) :
    (Reader.skipSegment ⟨high, low, rest⟩).rest.length < bytes.length := by
  rw [here, List.length_cons, List.length_cons]
  exact (skipSegment_length _).trans_lt (Nat.lt_add_of_pos_right Nat.two_pos)

/-- The return value, `*punWidth` and `*punHeight`. -/
structure Size where
  ret : Int
  width : UInt32
  height : UInt32
  deriving DecidableEq

/-- The loop of `GetJPEGWidthHeight`; what it prints is left out. -/
def markerLoop (r : Reader) : Size :=
  match h : r.rest with
  | first :: id :: rest =>
    if first ≠ 0xff then ⟨-1, 0, 0⟩
    else if mApp0 ≤ id ∧ id ≤ mAppF then markerLoop (Reader.skipSegment ⟨r.ucHigh, r.ucLow, rest⟩)
    else if id = mSoi then markerLoop ⟨r.ucHigh, r.ucLow, rest⟩
    else if id = mCom ∨ id = mDqt ∨ id = mDht ∨ id = mDnl ∨ id = mDri then
      markerLoop (Reader.skipSegment ⟨r.ucHigh, r.ucLow, rest⟩)
    else if id = mSof0 then
      let r := Reader.readUs ⟨r.ucHigh, r.ucLow, rest.drop 3⟩
      let height := r.us
      let r := r.readUs
      ⟨0, r.us.toUInt32, height.toUInt32⟩
    else if id = mSos ∨ id = mEoi ∨ id = mData then ⟨-1, 0, 0⟩
    else markerLoop (Reader.skipSegment ⟨r.ucHigh, r.ucLow, rest⟩)
  | _ => ⟨-1, 0, 0⟩
termination_by r.rest.length
decreasing_by
  · exact skipSegment_lt h
  · rw [h, List.length_cons, List.length_cons]
    omega
  · exact skipSegment_lt h
  · exact skipSegment_lt h

/-- `GetJPEGWidthHeight` of a file, which is `none` if it cannot be opened; `ucHigh` and
`ucLow` are what the two variables hold before. -/
def getJpegWidthHeight (ucHigh ucLow : UInt8) (file : Option (List UInt8)) : Size :=
  match file with
  | none => ⟨-1, 0, 0⟩
  | some bytes => markerLoop ⟨ucHigh, ucLow, bytes⟩

section Pieces

/-- The markers that a length follows, the first frame apart. -/
def Measured (id : UInt8) : Prop :=
  id ≠ mSoi ∧ id ≠ mSof0 ∧ id ≠ mSos ∧ id ≠ mEoi ∧ id ≠ mData

/-- What may stand before the first frame. A length below 2 counts as one of 2. -/
inductive Piece where
  | start
  | segment (id high low : UInt8) (payload : List UInt8) (measured : Measured id)
      (length : payload.length = skip (makeUs high low))

def Piece.bytes : Piece → List UInt8
  | .start => [0xff, mSoi]
  | .segment id high low payload _ _ => 0xff :: id :: high :: low :: payload

def bytesOf (pieces : List Piece) : List UInt8 := pieces.flatMap Piece.bytes

theorem bytesOf_cons (p : Piece) (ps : List Piece) :
    bytesOf (p :: ps) = p.bytes ++ bytesOf ps := List.flatMap_cons

variable {high low id : UInt8} {rest : List UInt8}

theorem markerLoop_start (high low : UInt8) (rest : List UInt8) :
    markerLoop ⟨high, low, 0xff :: mSoi :: rest⟩ = markerLoop ⟨high, low, rest⟩ := by
  rw [markerLoop]
  rfl

theorem markerLoop_measured (measured : Measured id) (high low : UInt8) (rest : List UInt8) :
    markerLoop ⟨high, low, 0xff :: id :: rest⟩ =
      markerLoop (Reader.skipSegment ⟨high, low, rest⟩) := by
  obtain ⟨soi, sof0, sos, eoi, data⟩ := measured
  rw [markerLoop]
  simp only [ne_eq, not_true_eq_false, if_false, soi, sof0, sos, eoi, data, or_self, ite_self]

theorem markerLoop_frame (high low : UInt8) (rest : List UInt8) :
    markerLoop ⟨high, low, 0xff :: mSof0 :: rest⟩ =
      let r := Reader.readUs ⟨high, low, rest.drop 3⟩
      ⟨0, r.readUs.us.toUInt32, r.us.toUInt32⟩ := by
  rw [markerLoop]
  rfl

theorem markerLoop_stop (stop : id = mSos ∨ id = mEoi ∨ id = mData) (high low : UInt8)
    (rest : List UInt8) : markerLoop ⟨high, low, 0xff :: id :: rest⟩ = ⟨-1, 0, 0⟩ := by
  rw [markerLoop]
  obtain rfl | rfl | rfl := stop
  · rfl
  · rfl
  · rfl

theorem markerLoop_piece (p : Piece) (high low : UInt8) (rest : List UInt8) :
    ∃ high' low', markerLoop ⟨high, low, p.bytes ++ rest⟩ = markerLoop ⟨high', low', rest⟩ := by
  cases p with
  | start => exact ⟨high, low, markerLoop_start high low rest⟩
  | segment id h l payload measured length =>
    refine ⟨h, l, (markerLoop_measured measured high low _).trans ?_⟩
    have behind : (payload ++ rest).drop (skip (makeUs h l)) = rest := List.drop_left' length
    exact congrArg (fun rest => markerLoop ⟨h, l, rest⟩) behind

theorem markerLoop_pieces (ps : List Piece) (high low : UInt8) (rest : List UInt8) :
    ∃ high' low', markerLoop ⟨high, low, bytesOf ps ++ rest⟩ = markerLoop ⟨high', low', rest⟩ := by
  induction ps generalizing high low with
  | nil => exact ⟨high, low, rfl⟩
  | cons p ps ih =>
    obtain ⟨h, l, first⟩ := markerLoop_piece p high low (bytesOf ps ++ rest)
    obtain ⟨h', l', others⟩ := ih h l
    refine ⟨h', l', Eq.trans ?_ (first.trans others)⟩
    rw [bytesOf_cons, List.append_assoc]

theorem app_measured (app : mApp0 ≤ id ∧ id ≤ mAppF) : Measured id := by
  refine ⟨?_, ?_, ?_, ?_, ?_⟩
  all_goals
    rintro rfl
    exact absurd app (by decide)

/-- A segment that something follows is there as a whole. -/
theorem segment_whole (high low : UInt8) {rest behind : List UInt8}
    (skipped : (Reader.skipSegment ⟨high, low, rest⟩).rest = behind) (some_byte : behind ≠ []) :
    ∃ h l payload, payload.length = skip (makeUs h l) ∧ rest = h :: l :: payload ++ behind := by
  subst skipped
  match rest with
  | [] => exact absurd List.drop_nil some_byte
  | [h] => exact absurd List.drop_nil some_byte
  | h :: l :: rest =>
    have left : rest.drop (skip (makeUs h l)) ≠ [] := some_byte
    have short := Nat.lt_of_not_le fun all => left (List.drop_eq_nil_of_le all)
    refine ⟨h, l, rest.take (skip (makeUs h l)), List.length_take_of_le short.le, ?_⟩
    exact congrArg (h :: l :: ·) (List.take_append_drop _ rest).symm

theorem marker_kinds (id : UInt8) :
    id = mSoi ∨ id = mSof0 ∨ (id = mSos ∨ id = mEoi ∨ id = mData) ∨ Measured id := by
  unfold Measured
  tauto

/-- A file that is not refused has pieces up to a first frame. -/
theorem pieces_of_accepted (high low : UInt8) (file : List UInt8)
    (accepted : markerLoop ⟨high, low, file⟩ ≠ ⟨-1, 0, 0⟩) :
    ∃ ps tail, file = bytesOf ps ++ 0xff :: mSof0 :: tail := by
  induction length : file.length using Nat.strong_induction_on generalizing high low file with
  | _ n ih =>
    match file with
    | [] => exact absurd (by rw [markerLoop]) accepted
    | [first] => exact absurd (by rw [markerLoop]) accepted
    | first :: id :: rest =>
      by_cases marker : first = 0xff
      · subst marker
        obtain rfl | rfl | stop | measured := marker_kinds id
        · have shorter : rest.length < n := by
            rw [← length, List.length_cons, List.length_cons]
            omega
          rw [markerLoop_start] at accepted
          obtain ⟨ps, tail, here⟩ := ih _ shorter high low rest accepted rfl
          refine ⟨.start :: ps, tail, ?_⟩
          rw [here, bytesOf_cons]
          rfl
        · exact ⟨[], rest, rfl⟩
        · exact absurd (markerLoop_stop stop high low rest) accepted
        · have shorter : (Reader.skipSegment ⟨high, low, rest⟩).rest.length < n :=
            length ▸ skipSegment_lt rfl
          rw [markerLoop_measured measured] at accepted
          obtain ⟨ps, tail, here⟩ := ih _ shorter _ _ _ accepted rfl
          obtain ⟨h, l, payload, long, split⟩ := segment_whole high low here (by simp)
          refine ⟨.segment id h l payload measured long :: ps, tail, ?_⟩
          rw [split, bytesOf_cons, List.append_assoc]
          rfl
      · refine absurd ?_ accepted
        rw [markerLoop]
        exact if_pos marker

end Pieces

section Frames

theorem makeUs_toNat (a b : UInt8) : (makeUs a b).toNat = a.toNat * 256 + b.toNat := by
  have high := a.toNat_lt
  have shifted : a.toNat <<< 8 = a.toNat * 256 := Nat.shiftLeft_eq _ _
  have joined : a.toNat <<< 8 ||| b.toNat = a.toNat <<< 8 + b.toNat :=
    (Nat.shiftLeft_add_eq_or_of_lt b.toNat_lt _).symm
  rw [makeUs, UInt16.toNat_or, UInt16.toNat_shiftLeft, UInt8.toNat_toUInt16, UInt8.toNat_toUInt16,
    show (UInt16.toNat 8) % 16 = 8 from rfl, Nat.mod_eq_of_lt (by omega), joined, shifted]

/-- A number in two bytes. -/
def usBytes (n : UInt16) : List UInt8 := [(n / 256).toUInt8, n.toUInt8]

theorem makeUs_bytes (n : UInt16) : makeUs (n / 256).toUInt8 n.toUInt8 = n := by
  have := n.toNat_lt
  have bytes : (256 : UInt16).toNat = 256 := rfl
  refine UInt16.toNat_inj.mp ?_
  rw [makeUs_toNat, UInt16.toNat_toUInt8, UInt16.toNat_toUInt8, UInt16.toNat_div, bytes]
  omega

/-- The marker of the first frame and what it says of the picture. -/
structure Frame where
  lengthHigh : UInt8
  lengthLow : UInt8
  precision : UInt8
  height : UInt16
  width : UInt16

def Frame.bytes (f : Frame) : List UInt8 :=
  0xff :: mSof0 :: f.lengthHigh :: f.lengthLow :: f.precision ::
    (usBytes f.height ++ usBytes f.width)

theorem markerLoop_size (ps : List Piece) (f : Frame) (high low : UInt8) (rest : List UInt8) :
    markerLoop ⟨high, low, bytesOf ps ++ (f.bytes ++ rest)⟩ =
      ⟨0, f.width.toUInt32, f.height.toUInt32⟩ := by
  obtain ⟨h, l, behind⟩ := markerLoop_pieces ps high low (f.bytes ++ rest)
  have read : markerLoop ⟨h, l, f.bytes ++ rest⟩ =
      ⟨0, (makeUs (f.width / 256).toUInt8 f.width.toUInt8).toUInt32,
        (makeUs (f.height / 256).toUInt8 f.height.toUInt8).toUInt32⟩ := markerLoop_frame h l _
  rw [behind, read, makeUs_bytes, makeUs_bytes]

/-- `GetJPEGWidthHeight` succeeds exactly on files that are cut into markers and whole segments
up to a first frame, whatever the segments hold, and fails with sizes of 0 on all others. A
frame that is there as a whole gives its width and height. -/
theorem size_iff (ucHigh ucLow : UInt8) (file : List UInt8) :
    ((getJpegWidthHeight ucHigh ucLow (some file)).ret = 0 ↔
        ∃ ps tail, file = bytesOf ps ++ 0xff :: mSof0 :: tail) ∧
      ((getJpegWidthHeight ucHigh ucLow (some file)).ret ≠ 0 →
        getJpegWidthHeight ucHigh ucLow (some file) = ⟨-1, 0, 0⟩) ∧
      ∀ ps (f : Frame) rest, file = bytesOf ps ++ (f.bytes ++ rest) →
        getJpegWidthHeight ucHigh ucLow (some file) =
          ⟨0, f.width.toUInt32, f.height.toUInt32⟩ := by
  have framed {ps : List Piece} {tail : List UInt8}
      (here : file = bytesOf ps ++ 0xff :: mSof0 :: tail) :
      (getJpegWidthHeight ucHigh ucLow (some file)).ret = 0 := by
    obtain ⟨h, l, behind⟩ := markerLoop_pieces ps ucHigh ucLow (0xff :: mSof0 :: tail)
    rw [getJpegWidthHeight, here, behind, markerLoop_frame]
  refine ⟨⟨fun success => ?_, fun ⟨_, _, here⟩ => framed here⟩, fun failed => ?_, ?_⟩
  · refine pieces_of_accepted ucHigh ucLow file fun refused => ?_
    rw [getJpegWidthHeight, refused] at success
    exact absurd success (by decide)
  · by_contra accepted
    obtain ⟨ps, tail, here⟩ := pieces_of_accepted ucHigh ucLow file accepted
    exact failed (framed here)
  · rintro ps f rest rfl
    exact markerLoop_size ps f ucHigh ucLow rest

end Frames

end JpegSizes
