import AxVision.JpegFrames

/-!
# Decoding a JPEG file

`JpegHelp::JpegDecode` asks for the size of a picture, reads the picture into a
block of memory and lets the driver decode it into a second block. What is taken on
the way is told by the calls that are made.
-/

namespace JpegDecoding

open JpegSizes JpegFrames

inductive Block where
  | stream
  | picture
  deriving DecidableEq

/-- The calls that take or give something, where they succeed, and that of the decoder. -/
inductive Call where
  | fopen
  | fclose
  | memAlloc (block : Block) (size : UInt32)
  | memFree (block : Block)
  | jpegDecodeOneFrame (stream : List UInt8) (stride height : Nat) (ok : Bool)
  deriving DecidableEq

/-- The file, and how the calls answer. -/
structure Driver where
  file : List UInt8
  opensFirst : Bool
  opensAgain : Bool
  seeks : Bool
  allocs : Block → UInt32 → Bool
  picBufferSize : Nat → Nat → UInt32
  decodes : List UInt8 → Bool
  closes : Bool
  frees : Block → Bool

def alignUp (n align : Nat) : Nat := (n + align - 1) / align * align

/-- `frmStride`: the bits of a row in units of 64 bytes. -/
def frmStride (width : UInt32) : Nat := alignUp (width.toNat * 8) 512 / 8

def heightAlign (height : UInt32) : Nat := alignUp height.toNat 2

/-- `STREAM_BUFFER_MAX_SIZE` -/
def streamBufferMaxSize : Nat := 3 * 1024 * 1024

/-- `stStreamBuf.uBufSize` -/
def streamSize (file : List UInt8) : UInt32 :=
  UInt32.ofNat (min file.length streamBufferMaxSize)

/-- `JpegDecodeOneFrameInfo`: its return value and its calls. The second plane of the picture is
`stride * height` behind the first. -/
def jpegDecodeOneFrameInfo (driver : Driver) (width height : UInt32) : Int × List Call :=
  if driver.opensAgain = false then (1, [])
  else if driver.seeks = false then (1, [.fopen, .fclose])
  else
    let uBufSize := streamSize driver.file
    if driver.allocs .stream uBufSize = false then (1, [.fopen, .fclose])
    else
      let stride := frmStride width
      let height := heightAlign height
      let picSize := driver.picBufferSize height stride
      if driver.allocs .picture picSize = false then
        (1, [.fopen, .memAlloc .stream uBufSize, .memFree .stream, .fclose])
      else
        let taken := [.fopen, .memAlloc .stream uBufSize, .memAlloc .picture picSize]
        let given := [.memFree .picture, .memFree .stream, .fclose]
        let stream := streamParserReadFrameJpeg driver.file uBufSize 0
        if stream.ok = false then (1, taken ++ given)
        else if stream.readLen = 0 then (1, taken ++ given)
        else if driver.decodes stream.buffer = false then
          (1, taken ++ [.jpegDecodeOneFrame stream.buffer stride height false] ++ given)
        else
          (if driver.closes && driver.frees .stream then 0 else 1,
            taken ++ [.jpegDecodeOneFrame stream.buffer stride height true, .fclose,
              .memFree .stream])

/-- `JpegHelp::JpegDecode`. `GetJPEGWidthHeight` opens the file for itself and never closes it;
its return value is not looked at. -/
def jpegDecode (driver : Driver) (ucHigh ucLow : UInt8) : Int × List Call :=
  let size := getJpegWidthHeight ucHigh ucLow (if driver.opensFirst then some driver.file else none)
  let (ret, calls) := jpegDecodeOneFrameInfo driver size.width size.height
  (ret, (if driver.opensFirst then [.fopen] else []) ++ calls)

section Accounts

def isAlloc (block : Block) : Call → Bool
  | .memAlloc b _ => b = block
  | _ => false

/-- The decoder has succeeded. -/
def Decoded (calls : List Call) : Prop :=
  ∃ stream stride height, Call.jpegDecodeOneFrame stream stride height true ∈ calls

/-- The calls give back what they take, but for the picture that has been decoded. -/
structure Balanced (calls : List Call) : Prop where
  stream : calls.countP (isAlloc .stream) = calls.count (.memFree .stream)
  once : calls.countP (isAlloc .picture) ≤ 1
  refused : ¬Decoded calls → calls.countP (isAlloc .picture) = calls.count (.memFree .picture)
  decoded : Decoded calls →
    calls.countP (isAlloc .picture) = 1 ∧ calls.count (.memFree .picture) = 0
  file : calls.count .fopen = calls.count .fclose

theorem jpegDecodeOneFrameInfo_balanced (driver : Driver) (width height : UInt32) :
    Balanced (jpegDecodeOneFrameInfo driver width height).2 ∧
      ((jpegDecodeOneFrameInfo driver width height).1 = 0 →
        Decoded (jpegDecodeOneFrameInfo driver width height).2) := by
  rw [jpegDecodeOneFrameInfo]
  dsimp only
  split_ifs
  all_goals
    refine ⟨⟨?_, ?_, ?_, ?_, ?_⟩, ?_⟩
    all_goals simp [Decoded, isAlloc]

end Accounts

section Pictures

variable {driver : Driver}

theorem streamSize_toNat (file : List UInt8) :
    (streamSize file).toNat = min file.length streamBufferMaxSize := by
  refine UInt32.toNat_ofNat_of_lt' (lt_of_le_of_lt (min_le_right _ _) ?_)
  decide

/-- Whatever is in the file, the driver is asked for bytes from its start up to a byte 0xD9. -/
theorem jpegDecodeOneFrameInfo_asked (small : driver.file.length < 2 ^ 32) {width height : UInt32}
    {stream : List UInt8} {stride rows : Nat} {ok : Bool}
    (asked : Call.jpegDecodeOneFrame stream stride rows ok ∈
      (jpegDecodeOneFrameInfo driver width height).2) :
    stream = driver.file.take stream.length ∧ stream.length ≤ streamBufferMaxSize ∧
      stream.getLast? = some 0xD9 := by
  have parsed (accepted : (streamParserReadFrameJpeg driver.file (streamSize driver.file) 0).ok ≠
        false)
      (some_byte : (streamParserReadFrameJpeg driver.file (streamSize driver.file) 0).readLen ≠ 0)
      (same : stream = (streamParserReadFrameJpeg driver.file (streamSize driver.file) 0).buffer) :
      stream = driver.file.take stream.length ∧ stream.length ≤ streamBufferMaxSize ∧
        stream.getLast? = some 0xD9 := by
    obtain ⟨bound, taken, length, ending⟩ := stream_ends small (Bool.of_not_eq_false accepted)
    subst same
    rw [length]
    refine ⟨taken, ?_, ending some_byte⟩
    rw [streamSize_toNat] at bound
    exact bound.trans (min_le_right _ _)
  rw [jpegDecodeOneFrameInfo] at asked
  dsimp only at asked
  split_ifs at asked with _ _ _ _ refused none failed
  · simp at asked
  · simp at asked
  · simp at asked
  · simp at asked
  · simp at asked
  · simp at asked
  all_goals
    have same :
        stream = (streamParserReadFrameJpeg driver.file (streamSize driver.file) 0).buffer := by
      simp at asked
      exact asked.1
    exact parsed refused none same

/-- The answers with which a picture is decoded. -/
structure Working (driver : Driver) (width height : UInt32) (encoded : List UInt8) : Prop where
  opensFirst : driver.opensFirst = true
  opensAgain : driver.opensAgain = true
  seeks : driver.seeks = true
  stream : driver.allocs .stream (streamSize driver.file) = true
  picture : driver.allocs .picture (driver.picBufferSize (heightAlign height) (frmStride width)) =
    true
  decodes : driver.decodes encoded = true
  closes : driver.closes = true
  frees : driver.frees .stream = true

/-- For every file of less than 4 GiB and all answers of the driver: the driver is only asked for
the bytes from the start of the file up to a byte 0xD9, both blocks are given back unless the picture
has been decoded, and then only the stream is. Each file that `GetJPEGWidthHeight` has opened
stays open. -/
theorem jpegDecode_lawful (small : driver.file.length < 2 ^ 32) (ucHigh ucLow : UInt8) :
    let calls := (jpegDecode driver ucHigh ucLow).2
    (∀ stream stride rows ok, Call.jpegDecodeOneFrame stream stride rows ok ∈ calls →
      stream = driver.file.take stream.length ∧ stream.length ≤ streamBufferMaxSize ∧
        stream.getLast? = some 0xD9) ∧
      calls.countP (isAlloc .stream) = calls.count (.memFree .stream) ∧
      (¬Decoded calls → calls.countP (isAlloc .picture) = calls.count (.memFree .picture)) ∧
      (Decoded calls →
        calls.countP (isAlloc .picture) = 1 ∧ calls.count (.memFree .picture) = 0) ∧
      ((jpegDecode driver ucHigh ucLow).1 = 0 → Decoded calls) ∧
      calls.count .fopen = calls.count .fclose + if driver.opensFirst then 1 else 0 := by
  intro calls
  let size := getJpegWidthHeight ucHigh ucLow
    (if driver.opensFirst then some driver.file else none)
  let inner := (jpegDecodeOneFrameInfo driver size.width size.height).2
  obtain ⟨balanced, success⟩ := jpegDecodeOneFrameInfo_balanced driver size.width size.height
  have run : calls = (if driver.opensFirst then [.fopen] else []) ++ inner := rfl
  have member {call : Call} (other : call ≠ .fopen) : call ∈ calls ↔ call ∈ inner := by
    rw [run]
    cases driver.opensFirst
    · rfl
    · simp [other]
  have decoded : Decoded calls ↔ Decoded inner :=
    exists_congr fun _ => exists_congr fun _ => exists_congr fun _ => member (by simp)
  have counts {P : Call → Bool} (other : P .fopen = false) : calls.countP P = inner.countP P := by
    rw [run, List.countP_append]
    cases driver.opensFirst
    · simp
    · simp [other]
  refine ⟨fun stream stride rows ok asked => ?_, ?_, ?_, ?_, ?_, ?_⟩
  · exact jpegDecodeOneFrameInfo_asked small ((member (by simp)).mp asked)
  · rw [counts rfl, List.count, counts rfl]
    exact balanced.stream
  · rw [decoded, counts rfl, List.count, counts rfl]
    exact balanced.refused
  · rw [decoded, counts rfl, List.count, counts rfl]
    exact balanced.decoded
  · exact fun ret => decoded.mpr (success ret)
  · have closed : calls.count .fclose = inner.count .fclose := counts rfl
    rw [closed, ← balanced.file, run, List.count_append, Nat.add_comm]
    cases driver.opensFirst
    · rfl
    · rfl

end Pictures

section Models

/-- A picture of 64 by 48 with the end of a thumbnail in an APP1 segment, and a byte behind it. -/
def thumbnailFile : List UInt8 :=
  [0xFF, 0xD8, 0xFF, 0xE1, 0, 4, 0xFF, 0xD9, 0xFF, 0xC0, 0, 11, 8, 0, 48, 0, 64, 1, 2, 3, 0xFF,
    0xD9, 7]

def thumbnailParts : List Part :=
  [.piece (.quiet _ soi_quiet), .piece (.app 0xE1 0 4 [0xFF, 0xD9] rfl rfl),
    .piece (.quiet _ frame_quiet)]

/-- A driver that can do everything. -/
def ableDriver : Driver where
  file := thumbnailFile
  opensFirst := true
  opensAgain := true
  seeks := true
  allocs _ _ := true
  picBufferSize rows stride := UInt32.ofNat (rows * stride * 3 / 2)
  decodes _ := true
  closes := true
  frees _ := true

theorem app1_measured : Measured 0xE1 := app_measured (by decide)

theorem thumbnailFile_balanced :
    let calls := (jpegDecode ableDriver 0 0).2
    calls.countP (isAlloc .stream) = calls.count (.memFree .stream) ∧
      calls.count .fopen = calls.count .fclose + 1 := by
  obtain ⟨-, stream, -, -, -, file⟩ := @jpegDecode_lawful ableDriver (by decide) 0 0
  exact ⟨stream, file⟩

end Models

end JpegDecoding
