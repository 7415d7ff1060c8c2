import AxVision.JpegSizes

/-!
# The first picture of a JPEG file

`StreamParserReadFrameJpeg` looks for the end of the first picture. It jumps over
the segments of applications, in which whole thumbnails with an end of their own may
stand, and counts the end of a thumbnail in a JFXX segment as such.
-/

namespace JpegFrames

open JpegSizes

/-- `imgGetBytes`, which gives 0 behind the end. -/
def imgGetBytes (file : List UInt8) (pos : Nat) : UInt8 := file.getD pos 0

/-- The codes 0xE1 to 0xEF, which are compared one by one. -/
def isApp (b : UInt8) : Bool := 0xE1 ≤ b && b ≤ 0xEF

/-- The codes 0xC1 to 0xC3 and 0xC5 to 0xCB. -/
def isFrame (b : UInt8) : Bool := (0xC1 ≤ b && b ≤ 0xC3) || (0xC5 ≤ b && b ≤ 0xCB)

/-- `((i + 1) < stream_length) && code == imgGetBytes(i + 1)` for some codes. -/
def marks (file : List UInt8) (i : Nat) (code : UInt8 → Bool) : Bool :=
  i + 1 < file.length && code (imgGetBytes file (i + 1))

/-- `tmp_total`: the two bytes at a place. -/
def total (file : List UInt8) (i : Nat) : Nat :=
  (imgGetBytes file i).toNat * 256 + (imgGetBytes file (i + 1)).toNat

/-- Both of "check length vs. data". -/
def tooShort (file : List UInt8) (i : Nat) : Bool :=
  file.length < i + 1 || file.length < total file i + i

/-- How the search for an end comes out. -/
inductive Search where
  | failed
  | ended (curPos : Nat)
  | onward (i : Nat)
  deriving DecidableEq

/-- "look for EOI": the inner loop with its counter, behind which `i` is the last end. -/
def lookForEoi (file : List UInt8) (j i : Nat) : Search :=
  if j < file.length then
    if imgGetBytes file j = 0xFF && marks file j (· = 0xD9) then
      if file.length ≤ j + 2 then .ended (j + 2) else lookForEoi file (j + 1) j
    else lookForEoi file (j + 1) i
  else .onward i
termination_by file.length - j

/-- A JFXX segment with a thumbnail. -/
def thumbnailAt (file : List UInt8) (i : Nat) : Bool :=
  marks file i (· = 0xE0) && (i + 9 < file.length && imgGetBytes file (i + 4) = 0x4A &&
    imgGetBytes file (i + 5) = 0x46 && imgGetBytes file (i + 6) = 0x58 &&
    imgGetBytes file (i + 7) = 0x58 && imgGetBytes file (i + 8) = 0x00 &&
    imgGetBytes file (i + 9) = 0x10)

theorem lookForEoi_onward {file : List UInt8} {j i k : Nat} (le : i ≤ j)
    (onward : lookForEoi file j i = .onward k) : i ≤ k := by
  induction j, i using lookForEoi.induct file with
  | case1 j i below found last => 
    rw [lookForEoi, if_pos below, if_pos found, if_pos last] at onward
    cases onward
  | case2 j i below found more ih =>
    rw [lookForEoi, if_pos below, if_pos found, if_neg more] at onward
    exact le.trans (ih (Nat.le_succ j) onward)
  | case3 j i below other ih =>
    rw [lookForEoi, if_pos below, if_neg other] at onward
    exact ih (le.trans (Nat.le_succ j)) onward
  | case4 j i ended =>
    rw [lookForEoi, if_neg ended] at onward
    cases onward
    exact le_rfl

/-- The branch of the frames that are not baseline; others stay where they are. -/
def frameTurn (file : List UInt8) (i : Nat) : Search :=
  if marks file i isFrame then
    if tooShort file (i + 2) then .failed
    else lookForEoi file (i + 1 + total file (i + 2)) (i + 1 + total file (i + 2))
  else .onward i

theorem frameTurn_onward {file : List UInt8} {i k : Nat} (onward : frameTurn file i = .onward k) :
    i ≤ k := by
  rw [frameTurn] at onward
  split_ifs at onward
  · have := lookForEoi_onward le_rfl onward
    omega
  · cases onward
    exact le_rfl

theorem frameTurn_stays {file : List UInt8} {i : Nat} (noFrame : marks file i isFrame = false) :
    frameTurn file i = .onward i := by
  rw [frameTurn, noFrame]
  rfl

/-- Whether the scan succeeds, and `curPos` behind it. -/
structure Scanned where
  ok : Bool
  curPos : Nat
  deriving DecidableEq

/-- The loop of `StreamParserReadFrameJpeg`; `thumb` is `jpeg_thumb_in_stream`. -/
def scan (file : List UInt8) (i : Nat) (thumb : Bool) (curPos : Nat) : Scanned :=
  if i < file.length then
    if imgGetBytes file i = 0xFF then
      if marks file i isApp then
        if tooShort file (i + 2) then ⟨false, curPos⟩
        else scan file (i + 2 + total file (i + 2)) thumb curPos
      else
        match _ : frameTurn file i with
        | .failed => ⟨false, curPos⟩
        | .ended place => ⟨true, place⟩
        | .onward k =>
          let thumb := thumb || thumbnailAt file k
          if marks file k (· = 0xD9) then
            if thumb then scan file (k + 1) false (k + 2) else ⟨true, k + 2⟩
          else scan file (k + 1) thumb curPos
    else scan file (i + 1) thumb curPos
  else ⟨true, curPos⟩
termination_by file.length - i
decreasing_by
  · omega
  · have := frameTurn_onward ‹_›
    omega
  · have := frameTurn_onward ‹_›
    omega
  · omega

/-- The return value as success, `*pReadLen` and the bytes in the buffer. -/
structure Stream where
  ok : Bool
  readLen : Nat
  buffer : List UInt8
  deriving DecidableEq

/-- `StreamParserReadFrameJpeg` from the start of a file into a buffer that is not a ring. -/
def streamParserReadFrameJpeg (file : List UInt8) (uBufSize : UInt32) (readLen : Nat) : Stream :=
  let scanned := scan file 0 false 0
  let imgLen := scanned.curPos % 2 ^ 32
  if scanned.ok then
    if uBufSize.toNat < imgLen then ⟨false, readLen, []⟩
    else if (file.take imgLen).length ≠ imgLen then ⟨false, readLen, file.take imgLen⟩
    else ⟨true, imgLen, file.take imgLen⟩
  else ⟨false, imgLen, []⟩

section Places

variable {file : List UInt8} {i : Nat}

theorem byte_at {suffix : List UInt8} (here : file.drop i = suffix) (k : Nat) :
    imgGetBytes file (i + k) = suffix.getD k 0 := by
  rw [← here, imgGetBytes, List.getD, List.getD, List.getElem?_drop]

theorem length_at {suffix : List UInt8} (here : file.drop i = suffix) (some_byte : suffix ≠ []) :
    file.length = i + suffix.length := by
  have short : i < file.length := by
    by_contra large
    exact some_byte (here ▸ List.drop_eq_nil_of_le (Nat.le_of_not_lt large))
  rw [← here, List.length_drop]
  omega

theorem drop_at {front back : List UInt8} (here : file.drop i = front ++ back) :
    file.drop (i + front.length) = back := by
  rw [← List.drop_drop, here, List.drop_left]

theorem marks_at {a b : UInt8} {rest : List UInt8} (here : file.drop i = a :: b :: rest)
    (code : UInt8 → Bool) : marks file i code = code b := by
  have long := length_at here (List.cons_ne_nil _ _)
  have next : imgGetBytes file (i + 1) = b := byte_at here 1
  rw [List.length_cons, List.length_cons] at long
  rw [marks, next, decide_eq_true (by omega), Bool.true_and]

/-- The codes that a turn looks for behind a byte 0xFF. -/
def special (b : UInt8) : Bool := isApp b || isFrame b || b = 0xE0 || b = 0xD9

/-- The turn at a marker behind which a frame may have been skipped. -/
theorem scan_onward (below : i < file.length) (marker : imgGetBytes file i = 0xFF)
    (noApp : marks file i isApp = false) {k : Nat} (onward : frameTurn file i = .onward k)
    (thumb : Bool) (curPos : Nat) :
    scan file i thumb curPos =
      let thumb := thumb || thumbnailAt file k
      if marks file k (· = 0xD9) then
        if thumb then scan file (k + 1) false (k + 2) else ⟨true, k + 2⟩
      else scan file (k + 1) thumb curPos := by
  rw [scan, if_pos below, if_pos marker, noApp, if_neg Bool.false_ne_true]
  split
  · rename_i failed
    rw [onward] at failed
    cases failed
  · rename_i ended
    rw [onward] at ended
    cases ended
  · rename_i here
    rw [onward] at here
    cases here
    rfl

/-- Where no special byte follows, none of some special ones does. -/
theorem marks_special (none : marks file i special = false) {code : UInt8 → Bool}
    (some_special : ∀ b, special b = false → code b = false) : marks file i code = false := by
  rw [marks] at none ⊢
  cases within : decide (i + 1 < file.length) with
  | false => rfl
  | true =>
    rw [within, Bool.true_and] at none
    exact some_special _ none

/-- A turn at a byte that is not 0xFF, or that no special one follows, goes on to the next. -/
theorem scan_pass (below : i < file.length)
    (calm : imgGetBytes file i = 0xFF → marks file i special = false) (thumb : Bool)
    (curPos : Nat) : scan file i thumb curPos = scan file (i + 1) thumb curPos := by
  by_cases marker : imgGetBytes file i = 0xFF
  · have none := calm marker
    have parts (b : UInt8) (plain : special b = false) :
        isApp b = false ∧ isFrame b = false ∧ decide (b = 0xE0) = false ∧
          decide (b = 0xD9) = false := by
      simpa only [special, Bool.or_eq_false_iff, and_assoc] using plain
    have noApp := marks_special none fun b plain => (parts b plain).1
    have noFrame := marks_special none fun b plain => (parts b plain).2.1
    have noApp0 := marks_special none fun b plain => (parts b plain).2.2.1
    have noEnd := marks_special none fun b plain => (parts b plain).2.2.2
    rw [scan_onward below marker noApp (frameTurn_stays noFrame), thumbnailAt, noApp0, noEnd]
    simp only [Bool.false_and, Bool.or_false, Bool.false_eq_true, if_false]
  · rw [scan, if_pos below, if_neg marker]

end Places

section Pieces

variable {file rest : List UInt8} {i : Nat}

/-- Every byte 0xFF is followed by one that is not special. -/
def Quiet : List UInt8 → Prop
  | [] => True
  | [b] => b ≠ 0xFF
  | a :: b :: rest => (a = 0xFF → special b = false) ∧ Quiet (b :: rest)

/-- What a picture is made of up to its end: bytes that are quiet, segments of applications with
any bytes, and the beginning of an APP0 segment without a thumbnail. -/
inductive Piece where
  | quiet (bytes : List UInt8) (quiet : Quiet bytes)
  | app (id high low : UInt8) (payload : List UInt8) (isApp : isApp id = true)
      (length : high.toNat * 256 + low.toNat = payload.length + 2)
  | app0 (bytes : List UInt8) (quiet : Quiet bytes) (long : 8 ≤ bytes.length)
      (other : (bytes.drop 2).take 6 ≠ [0x4A, 0x46, 0x58, 0x58, 0x00, 0x10])

def Piece.bytes : Piece → List UInt8
  | .quiet bytes _ => bytes
  | .app id high low payload _ _ => 0xFF :: id :: high :: low :: payload
  | .app0 bytes _ _ _ => 0xFF :: 0xE0 :: bytes

def bytesOf (pieces : List Piece) : List UInt8 := pieces.flatMap Piece.bytes

theorem bytesOf_cons (p : Piece) (ps : List Piece) :
    bytesOf (p :: ps) = p.bytes ++ bytesOf ps := List.flatMap_cons

theorem scan_quiet {bytes : List UInt8} (quiet : Quiet bytes)
    (here : file.drop i = bytes ++ rest) (thumb : Bool) (curPos : Nat) :
    scan file i thumb curPos = scan file (i + bytes.length) thumb curPos := by
  induction bytes generalizing i with
  | nil => rfl
  | cons b bytes ih =>
    have below : i < file.length := by
      have := length_at here (List.cons_ne_nil _ _)
      simp only [List.cons_append, List.length_cons] at this
      omega
    have first : imgGetBytes file i = b := byte_at here 0
    have behind : file.drop (i + 1) = bytes ++ rest := 
      drop_at (show file.drop i = [b] ++ (bytes ++ rest) from here)
    have step : scan file i thumb curPos = scan file (i + 1) thumb curPos := by
      refine scan_pass below (fun marker => ?_) thumb curPos
      cases bytes with
      | nil => exact absurd (first.symm.trans marker) quiet
      | cons c bytes =>
        rw [marks_at here]
        exact quiet.1 (first.symm.trans marker)
    have calm : Quiet bytes := by
      cases bytes with
      | nil => trivial
      | cons c bytes => exact quiet.2
    rw [step, ih calm behind, List.length_cons, Nat.add_assoc, Nat.add_comm 1]

theorem scan_app {id high low : UInt8} {payload : List UInt8} (app : isApp id = true)
    (length : high.toNat * 256 + low.toNat = payload.length + 2)
    (here : file.drop i = 0xFF :: id :: high :: low :: payload ++ rest) (thumb : Bool)
    (curPos : Nat) :
    scan file i thumb curPos = scan file (i + (payload.length + 4)) thumb curPos := by
  have long := length_at here (List.cons_ne_nil _ _)
  simp only [List.cons_append, List.length_cons, List.length_append] at long
  have sum : total file (i + 2) = payload.length + 2 := by
    have first : imgGetBytes file (i + 2) = high := byte_at here 2
    have second : imgGetBytes file (i + 2 + 1) = low := byte_at here 3
    rw [total, first, second, length]
  have room : tooShort file (i + 2) = false := by
    rw [tooShort, sum, Bool.or_eq_false_iff, decide_eq_false_iff_not, decide_eq_false_iff_not]
    omega
  have marker : imgGetBytes file i = 0xFF := byte_at here 0
  rw [scan, if_pos (by omega), if_pos marker, marks_at here, if_pos app, room,
    if_neg Bool.false_ne_true, sum]
  congr 1
  omega

/-- The turn at the marker of an APP0 segment. -/
theorem scan_app0 (here : file.drop i = 0xFF :: 0xE0 :: rest) (thumb : Bool) (curPos : Nat) :
    scan file i thumb curPos = scan file (i + 2) (thumb || thumbnailAt file i) curPos := by
  have long := length_at here (List.cons_ne_nil _ _)
  simp only [List.length_cons] at long
  have marker : imgGetBytes file i = 0xFF := byte_at here 0
  have next : imgGetBytes file (i + 1) = 0xE0 := byte_at here 1
  rw [scan_onward (by omega) marker (marks_at here _) (frameTurn_stays (marks_at here _)),
    marks_at here]
  exact scan_pass (by omega) (fun same => absurd (next.symm.trans same) (by decide)) _ _

theorem app0_other {bytes : List UInt8} (long : 8 ≤ bytes.length)
    (other : (bytes.drop 2).take 6 ≠ [0x4A, 0x46, 0x58, 0x58, 0x00, 0x10])
    (here : file.drop i = 0xFF :: 0xE0 :: bytes ++ rest) : thumbnailAt file i = false := by
  refine Bool.eq_false_iff.mpr fun found => other ?_
  match bytes, long with
  | h :: l :: a :: b :: c :: d :: e :: f :: more, _ =>
    have read (k : Nat) : imgGetBytes file (i + k) = (0xFF :: 0xE0 :: h :: l :: a :: b :: c :: d ::
      e :: f :: more ++ rest).getD k 0 := byte_at here k
    simp only [thumbnailAt, read, Bool.and_eq_true, decide_eq_true_eq] at found
    obtain ⟨-, ⟨⟨⟨⟨⟨⟨-, first⟩, second⟩, third⟩, fourth⟩, fifth⟩, sixth⟩⟩ := found
    obtain rfl : a = 0x4A := first
    obtain rfl : b = 0x46 := second
    obtain rfl : c = 0x58 := third
    obtain rfl : d = 0x58 := fourth
    obtain rfl : e = 0x00 := fifth
    obtain rfl : f = 0x10 := sixth
    rfl

theorem scan_piece (p : Piece) (here : file.drop i = p.bytes ++ rest) (thumb : Bool)
    (curPos : Nat) :
    scan file i thumb curPos = scan file (i + p.bytes.length) thumb curPos := by
  cases p with
  | quiet bytes quiet => exact scan_quiet quiet here thumb curPos
  | app id high low payload app length => exact scan_app app length here thumb curPos
  | app0 bytes quiet long other =>
    have behind : file.drop (i + 2) = bytes ++ rest :=
      drop_at (show file.drop i = [0xFF, 0xE0] ++ (bytes ++ rest) from here)
    rw [scan_app0 here, app0_other long other here, Bool.or_false, scan_quiet quiet behind,
      Nat.add_assoc, Nat.add_comm 2]
    rfl

theorem scan_pieces (ps : List Piece) (here : file.drop i = bytesOf ps ++ rest) (thumb : Bool)
    (curPos : Nat) :
    scan file i thumb curPos = scan file (i + (bytesOf ps).length) thumb curPos := by
  induction ps generalizing i with
  | nil => rfl
  | cons p ps ih =>
    rw [bytesOf_cons, List.append_assoc] at here
    rw [scan_piece p here, ih (drop_at here), bytesOf_cons, List.length_append, Nat.add_assoc]

/-- The turn at an end: that of a thumbnail, or that of the picture. -/
theorem scan_end (here : file.drop i = 0xFF :: 0xD9 :: rest) (thumb : Bool) (curPos : Nat) :
    scan file i thumb curPos =
      if thumb then scan file (i + 2) false (i + 2) else ⟨true, i + 2⟩ := by
  have long := length_at here (List.cons_ne_nil _ _)
  simp only [List.length_cons] at long
  have marker : imgGetBytes file i = 0xFF := byte_at here 0
  have next : imgGetBytes file (i + 1) = 0xD9 := byte_at here 1
  have plain : thumbnailAt file i = false := by
    rw [thumbnailAt, marks_at here]
    rfl
  have behind (curPos : Nat) : scan file (i + 1) false curPos = scan file (i + 2) false curPos :=
    scan_pass (by omega) (fun same => absurd (next.symm.trans same) (by decide)) _ _
  rw [scan_onward (by omega) marker (marks_at here _) (frameTurn_stays (marks_at here _)),
    marks_at here, plain, Bool.or_false, behind]
  rfl

end Pieces

section Pictures

variable {file rest : List UInt8} {i : Nat}

/-- The part of a picture before its end: a piece, or a JFXX segment with a thumbnail. -/
inductive Part where
  | piece (p : Piece)
  | thumbnail (high low : UInt8) (calm : Quiet [high, low]) (inner : List Piece)

/-- What tells a JFXX segment with a thumbnail. -/
def jfxx : List UInt8 := [0x4A, 0x46, 0x58, 0x58, 0x00, 0x10]

def Part.bytes : Part → List UInt8
  | .piece p => p.bytes
  | .thumbnail high low _ inner =>
    0xFF :: 0xE0 :: ([high, low] ++ (jfxx ++ (bytesOf inner ++ [0xFF, 0xD9])))

theorem jfxx_quiet : Quiet jfxx := by simp [jfxx, Quiet]

theorem scan_part (p : Part) (here : file.drop i = p.bytes ++ rest) (curPos : Nat) :
    ∃ curPos', scan file i false curPos = scan file (i + p.bytes.length) false curPos' := by
  cases p with
  | piece p => exact ⟨curPos, scan_piece p here false curPos⟩
  | thumbnail high low calm inner =>
    have start : file.drop i = [0xFF, 0xE0] ++ ([high, low] ++ (jfxx ++ (bytesOf inner ++
        (0xFF :: 0xD9 :: rest)))) := by
      rw [here, Part.bytes]
      simp
    have found : thumbnailAt file i = true := by
      have long := length_at start (by simp)
      have read (k : Nat) := byte_at start k
      simp only [List.length_append, List.length_cons, List.length_nil, jfxx] at long
      have room : i + 9 < file.length := by omega
      rw [thumbnailAt, marks_at start, read 4, read 5, read 6, read 7, read 8, read 9,
        decide_eq_true room]
      rfl
    have lengths := drop_at start
    have intro := drop_at lengths
    have picture := drop_at intro
    have ending := drop_at picture
    have length : i + (Part.thumbnail high low calm inner).bytes.length =
        i + 2 + 2 + jfxx.length + (bytesOf inner).length + 2 := by
      rw [Part.bytes]
      simp only [List.length_cons, List.length_append, List.length_nil]
      omega
    rw [length]
    refine ⟨i + 2 + 2 + jfxx.length + (bytesOf inner).length + 2, ?_⟩
    calc
      scan file i false curPos = scan file (i + 2) true curPos := by
        rw [scan_app0 start, found, Bool.or_true]
      _ = scan file (i + 2 + 2) true curPos := scan_quiet calm lengths true curPos
      _ = scan file (i + 2 + 2 + jfxx.length) true curPos := scan_quiet jfxx_quiet intro true curPos
      _ = scan file (i + 2 + 2 + jfxx.length + (bytesOf inner).length) true curPos :=
        scan_pieces inner picture true curPos
      _ = scan file (i + 2 + 2 + jfxx.length + (bytesOf inner).length + 2) false
          (i + 2 + 2 + jfxx.length + (bytesOf inner).length + 2) := scan_end ending true curPos

def partBytes (parts : List Part) : List UInt8 := parts.flatMap Part.bytes

theorem partBytes_cons (p : Part) (parts : List Part) :
    partBytes (p :: parts) = p.bytes ++ partBytes parts := List.flatMap_cons

theorem scan_parts (parts : List Part) (here : file.drop i = partBytes parts ++ rest)
    (curPos : Nat) : ∃ curPos',
      scan file i false curPos = scan file (i + (partBytes parts).length) false curPos' := by
  induction parts generalizing i curPos with
  | nil => exact ⟨curPos, rfl⟩
  | cons p parts ih =>
    rw [partBytes_cons, List.append_assoc] at here
    obtain ⟨first, started⟩ := scan_part p here curPos
    obtain ⟨last, rest⟩ := ih (drop_at here) first
    refine ⟨last, started.trans (rest.trans ?_)⟩
    rw [partBytes_cons, List.length_append, Nat.add_assoc]

/-- The scan of a picture that anything follows ends behind the picture. -/
theorem scan_picture (parts : List Part) (rest : List UInt8) :
    scan (partBytes parts ++ (0xFF :: 0xD9 :: rest)) 0 false 0 =
      ⟨true, (partBytes parts).length + 2⟩ := by
  obtain ⟨curPos, here⟩ := scan_parts parts (List.drop_zero ..) 0
  have ending := drop_at (List.drop_zero (l := partBytes parts ++ (0xFF :: 0xD9 :: rest)))
  rw [here, scan_end ending, if_neg Bool.false_ne_true, Nat.zero_add]

end Pictures

section Ends

variable {file : List UInt8} {i j c : Nat}

/-- A place behind a byte 0xD9, which is the second of an end, or the start of the file. -/
def Ends (file : List UInt8) (c : Nat) : Prop :=
  c = 0 ∨ c ≤ file.length ∧ file[c - 1]? = some 0xD9

theorem marks_ends (ending : marks file i (· = 0xD9) = true) : Ends file (i + 2) := by
  rw [marks, Bool.and_eq_true, decide_eq_true_eq, decide_eq_true_eq] at ending
  obtain ⟨below, byte⟩ := ending
  refine .inr ⟨below, ?_⟩
  rw [imgGetBytes, List.getD, List.getElem?_eq_getElem below] at byte
  exact List.getElem?_eq_some_iff.mpr ⟨below, byte⟩

theorem lookForEoi_ends (ended : lookForEoi file j i = .ended c) : Ends file c := by
  induction j, i using lookForEoi.induct file with
  | case1 j i below found last =>
    rw [lookForEoi, if_pos below, if_pos found, if_pos last] at ended
    cases ended
    exact marks_ends (Bool.and_eq_true_iff.mp found).2
  | case2 j i below found more ih =>
    rw [lookForEoi, if_pos below, if_pos found, if_neg more] at ended
    exact ih ended
  | case3 j i below other ih =>
    rw [lookForEoi, if_pos below, if_neg other] at ended
    exact ih ended
  | case4 j i beyond =>
    rw [lookForEoi, if_neg beyond] at ended
    cases ended

theorem frameTurn_ends (ended : frameTurn file i = .ended c) : Ends file c := by
  rw [frameTurn] at ended
  split_ifs at ended
  exact lookForEoi_ends ended

/-- In every file, what the scan stops at is behind a byte 0xD9, or nothing was found. -/
theorem scan_ends (i : Nat) (thumb : Bool) (curPos : Nat) (before : Ends file curPos) :
    Ends file (scan file i thumb curPos).curPos := by
  induction i, thumb, curPos using scan.induct file with
  | case1 i thumb curPos below marker app short =>
    rw [scan, if_pos below, if_pos marker, if_pos app, if_pos short]
    exact before
  | case2 i thumb curPos below marker app long ih =>
    rw [scan, if_pos below, if_pos marker, if_pos app, if_neg long]
    exact ih before
  | case3 i thumb curPos below marker app failed =>
    rw [scan, if_pos below, if_pos marker, if_neg app]
    split
    · exact before
    · rename_i ended
      exact frameTurn_ends ended
    · rename_i onward
      rw [failed] at onward
      cases onward
  | case4 i thumb curPos below marker app place ended =>
    rw [scan, if_pos below, if_pos marker, if_neg app]
    split
    · exact before
    · rename_i here
      exact frameTurn_ends here
    · rename_i onward
      rw [ended] at onward
      cases onward
  | case5 i thumb curPos below marker app k onward shown ending more ih =>
    rw [scan_onward below marker (Bool.eq_false_iff.mpr app) onward]
    dsimp only
    rw [if_pos ending, if_pos more]
    exact ih (marks_ends ending)
  | case6 i thumb curPos below marker app k onward shown ending last =>
    rw [scan_onward below marker (Bool.eq_false_iff.mpr app) onward]
    dsimp only
    rw [if_pos ending, if_neg last]
    exact marks_ends ending
  | case7 i thumb curPos below marker app k onward shown other ih =>
    rw [scan_onward below marker (Bool.eq_false_iff.mpr app) onward]
    dsimp only
    rw [if_neg other]
    exact ih before
  | case8 i thumb curPos below other ih =>
    rw [scan, if_pos below, if_neg other]
    exact ih before
  | case9 i thumb curPos beyond =>
    rw [scan, if_neg beyond]
    exact before

/-- A file of less than 4 GiB whose scan succeeds is read up to a byte 0xD9, and never beyond
the buffer. -/
theorem stream_ends (small : file.length < 2 ^ 32) {uBufSize : UInt32} {readLen : Nat}
    (ok : (streamParserReadFrameJpeg file uBufSize readLen).ok = true) :
    let stream := streamParserReadFrameJpeg file uBufSize readLen
    stream.readLen ≤ uBufSize.toNat ∧ stream.buffer = file.take stream.readLen ∧
      stream.buffer.length = stream.readLen ∧
      (stream.readLen ≠ 0 → stream.buffer.getLast? = some 0xD9) := by
  have ends := scan_ends 0 false 0 (.inl rfl : Ends file 0)
  have whole : (scan file 0 false 0).curPos % 2 ^ 32 = (scan file 0 false 0).curPos := by
    refine Nat.mod_eq_of_lt ?_
    obtain none | ⟨inside, -⟩ := ends
    · rw [none]
      exact Nat.two_pow_pos 32
    · exact inside.trans_lt small
  rw [streamParserReadFrameJpeg, whole] at ok ⊢
  dsimp only at ok ⊢
  split_ifs at ok ⊢ with done large short
  dsimp only
  have length := not_not.mp short
  refine ⟨Nat.le_of_not_lt large, rfl, length, fun some_byte => ?_⟩
  obtain none | ⟨inside, byte⟩ := ends
  · exact absurd none some_byte
  · rw [List.getLast?_eq_getElem?, length, List.getElem?_take_of_lt (by omega), byte]

/-- A picture that the buffer takes is read, and nothing behind it. -/
theorem stream_first {parts : List Part} {uBufSize : UInt32} (readLen : Nat) (rest : List UInt8)
    (fits : (partBytes parts).length + 2 ≤ uBufSize.toNat) :
    streamParserReadFrameJpeg (partBytes parts ++ (0xFF :: 0xD9 :: rest)) uBufSize readLen =
      ⟨true, (partBytes parts).length + 2, partBytes parts ++ [0xFF, 0xD9]⟩ := by
  have small := uBufSize.toNat_lt
  have taken : (partBytes parts ++ (0xFF :: 0xD9 :: rest)).take ((partBytes parts).length + 2) =
      partBytes parts ++ [0xFF, 0xD9] := by
    rw [List.take_length_add_append]
    rfl
  rw [streamParserReadFrameJpeg, scan_picture]
  dsimp only
  rw [if_pos rfl, Nat.mod_eq_of_lt (by omega), if_neg (by omega), taken, if_neg (by simp)]

end Ends

section Models

theorem soi_quiet : Quiet [0xFF, 0xD8] := by
  simp only [Quiet]
  decide

theorem frame_quiet : Quiet [0xFF, 0xC0, 0, 11, 8, 0, 48, 0, 64, 1, 2, 3] := by
  simp only [Quiet]
  decide

theorem length_quiet : Quiet [0, 12] := by
  simp only [Quiet]
  decide

/-- A picture with a JFXX segment, whose thumbnail has an end of its own. -/
def jfxxParts : List Part :=
  [.piece (.quiet _ soi_quiet), .thumbnail 0 12 length_quiet [.quiet _ soi_quiet],
    .piece (.quiet _ frame_quiet)]

end Models

end JpegFrames
