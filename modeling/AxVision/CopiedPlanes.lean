import AxVision.ByteMemories
import AxVision.ClonedFrames

/-!
# What a clone holds

`Clone` copies every plane into a block of its own. A plane that is mapped is seen
at its address in a memory from the start; what the system allocates is apart from
what is in use.
-/

namespace CopiedPlanes

open ByteMemories PlaneLayouts FrameMappings MappingBalance ClonedFrames

def planeSpan (layout : PlaneLayout) (frame : FrameData) (i : Fin 3) : Span :=
  ⟨frame.vframe.virAddr i, (layout.size i).toNat⟩

/-- What the copies among some calls read, one behind the other. -/
def copiedBytes (mem : Memory) (calls : List SysCall) : List UInt8 :=
  calls.flatMap fun
    | .memcpy source size => mem.read ⟨source, size.toNat⟩
    | _ => []

/-- What `Copy2Host` leaves in its vector, if it succeeds. -/
def hostData (sys : Sys) (mem : Memory) (log : List SysCall) (frame : FrameData) :
    Option (List UInt8) :=
  match computePlaneLayout frame.vframe with
  | none => none
  | some layout =>
    let done := ensureMapped sys log frame
    if done.ret ≠ 0 then none else some (copiedBytes mem (copyPlanes layout done.frame))

/-- The memory behind the loop of `Clone`; see `allocPlanes`. -/
def fillPlanes (sys : Sys) (layout : PlaneLayout) (src : FrameData) :
    List (Fin 3) → List SysCall → Memory → Memory
  | [], _, mem => mem
  | i :: rest, log, mem =>
    let size := layout.size i
    match sys.memAlloc log size with
    | none => mem
    | some buf =>
      fillPlanes sys layout src rest
        (log ++ [.memAlloc size (some buf), .memcpy (src.vframe.virAddr i) size.toUInt64])
        (mem.memcpy buf.virAddr (src.vframe.virAddr i) size.toNat)

/-- The memory behind `Clone`. -/
def cloneMemory (sys : Sys) (mem : Memory) (log : List SysCall) (src : FrameData) : Memory :=
  match computePlaneLayout src.vframe with
  | none => mem
  | some layout =>
    let mapped := ensureMapped sys log src
    if mapped.ret ≠ 0 then mem
    else fillPlanes sys layout mapped.frame layout.planes mapped.log mem

/-- The blocks that calls have allocated. -/
def blocks (calls : List SysCall) : List Span :=
  calls.filterMap fun
    | .memAlloc size (some buf) => some ⟨buf.virAddr, size.toNat⟩
    | _ => none

/-- As long as nothing is given back after `before`, an allocation is apart from what is in use
and from what has been allocated since. -/
def Fresh (sys : Sys) (before : List SysCall) (used : List Span) : Prop :=
  ∀ calls size buf, Keeping calls → sys.memAlloc (before ++ calls) size = some buf →
    ∀ s ∈ used ++ blocks calls, Apart ⟨buf.virAddr, size.toNat⟩ s

section Loops

variable {sys : Sys} {layout : PlaneLayout} {src dest frame : FrameData} {mem : Memory}
  {log before calls : List SysCall} {used : List Span}

theorem span_small (layout : PlaneLayout) (frame : FrameData) (i : Fin 3) :
    (planeSpan layout frame i).size ≤ 2 ^ 64 := by
  have := (layout.size i).toNat_lt
  simp only [planeSpan]
  omega

theorem blocks_append (first second : List SysCall) :
    blocks (first ++ second) = blocks first ++ blocks second := List.filterMap_append

theorem copiedBytes_planes (layout : PlaneLayout) (frame : FrameData) (mem : Memory) :
    copiedBytes mem (copyPlanes layout frame) =
      layout.planes.flatMap fun i => mem.read (planeSpan layout frame i) := by
  rw [copiedBytes, copyPlanes, List.flatMap_map]
  simp [planeSpan]

/-- What the loops of `Clone` do to the frame and to the memory: each plane gets a block apart
from everything else, which then holds the plane of the source, and nothing else changes. -/
structure Copied (layout : PlaneLayout) (planes : List (Fin 3)) (used : List Span)
    (src dest : FrameData) (mem later : Memory) : Prop where
  copies : ∀ i ∈ planes, later.read (planeSpan layout dest i) = mem.read (planeSpan layout src i)
  apart : ∀ i ∈ planes, ∀ s ∈ used, Apart (planeSpan layout dest i) s
  keeps : ∀ a, (∀ i ∈ planes, ¬(planeSpan layout dest i).Has a) → later a = mem a
  mapped : ∀ i ∈ planes, dest.vframe.virAddr i ≠ 0

theorem Copied.cons {i : Fin 3} {rest : List (Fin 3)} {start : UInt64} {later : Memory}
    (vir : dest.vframe.virAddr i = start) (nonzero : start ≠ 0)
    (fresh : ∀ s ∈ used, Apart ⟨start, (layout.size i).toNat⟩ s)
    (sources : ∀ k ∈ rest, planeSpan layout src k ∈ used)
    (others : Copied layout rest (used ++ [⟨start, (layout.size i).toNat⟩]) src dest
      (mem.memcpy start (src.vframe.virAddr i) (layout.size i).toNat) later) :
    Copied layout (i :: rest) used src dest mem later := by
  have span : planeSpan layout dest i = ⟨start, (layout.size i).toNat⟩ := by rw [planeSpan, vir]
  have small := span_small layout dest i
  rw [span] at small
  refine ⟨List.forall_mem_cons.mpr ⟨?_, fun k mem_rest => ?_⟩,
    List.forall_mem_cons.mpr ⟨?_, fun k mem_rest s mem_used => ?_⟩, fun a outside => ?_,
    List.forall_mem_cons.mpr ⟨vir ▸ nonzero, others.mapped⟩⟩
  · -- the blocks of the other planes are apart from this one
    have kept : later.read (planeSpan layout dest i) = Memory.read _ (planeSpan layout dest i) :=
      read_congr (span ▸ small) fun a here => others.keeps a fun k mem_rest there =>
        others.apart k mem_rest _ (List.mem_append_right _ (List.mem_singleton_self _)) a there
          (span ▸ here)
    rw [kept, span]
    exact read_memcpy small
  · rw [others.copies k mem_rest]
    exact read_congr (span_small layout src k) fun a here =>
      memcpy_outside fun there => fresh _ (sources k mem_rest) a there here
  · rw [span]
    exact fresh
  · exact others.apart k mem_rest s (List.mem_append_left _ mem_used)
  · obtain ⟨first, rest⟩ := List.forall_mem_cons.mp outside
    rw [span] at first
    exact (others.keeps a rest).trans (memcpy_outside first)

theorem fillPlanes_copied (fresh : Fresh sys before used) {planes : List (Fin 3)}
    (distinct : planes.Nodup) (away : ∀ k ∈ planes, dest.vframe.phyAddr k = 0)
    (sources : ∀ i ∈ planes, planeSpan layout src i ∈ used) (keeping : Keeping calls)
    (mem : Memory)
    (success : (allocPlanes sys layout src planes (before ++ calls) dest).ret = 0) :
    Copied layout planes (used ++ blocks calls) src
      (allocPlanes sys layout src planes (before ++ calls) dest).frame mem
      (fillPlanes sys layout src planes (before ++ calls) mem) := by
  induction planes generalizing calls dest mem with
  | nil =>
    exact ⟨List.forall_mem_nil _, List.forall_mem_nil _, fun _ _ => rfl, List.forall_mem_nil _⟩
  | cons i rest ih =>
    obtain ⟨out, distinct⟩ := List.nodup_cons.mp distinct
    rw [allocPlanes] at success ⊢
    rw [fillPlanes]
    cases answer : sys.memAlloc (before ++ calls) (layout.size i) with
    | none =>
      simp only [answer] at success
      cases success
    | some buf =>
      simp only [answer, List.append_assoc before] at success ⊢
      have keeping_more : Keeping (calls ++ [.memAlloc (layout.size i) (some buf),
          .memcpy (src.vframe.virAddr i) (layout.size i).toUInt64]) := by
        refine keeping.append fun e mem => ?_
        obtain rfl | rfl := List.mem_pair.mp mem
        · rfl
        · rfl
      have block : blocks (calls ++ [.memAlloc (layout.size i) (some buf),
          .memcpy (src.vframe.virAddr i) (layout.size i).toUInt64]) =
            blocks calls ++ [⟨buf.virAddr, (layout.size i).toNat⟩] := blocks_append _ _
      have empty := filled_away buf.phyAddr buf.virAddr out away
      have sources_rest (k : Fin 3) (mem : k ∈ rest) := sources k (List.mem_cons_of_mem i mem)
      have others := ih distinct empty sources_rest keeping_more
        (mem.memcpy buf.virAddr (src.vframe.virAddr i) (layout.size i).toNat) success
      rw [block, ← List.append_assoc used] at others
      refine Copied.cons ?_ buf.virAddr_ne (fresh calls _ buf keeping answer)
        (fun k mem => List.mem_append_left _ (sources_rest k mem)) others
      exact ((allocPlanes_fills sys layout src _ distinct empty).1 i out).2.trans filled_vir

/-- A loop of `EnsureMapped` that succeeds leaves every plane with an address. -/
theorem mmapPlanes_mapped {mapped todo : List (Fin 3)}
    (success : (mmapPlanes sys layout mapped todo log frame).ret = 0) {k : Fin 3}
    (here : k ∈ todo ∨ frame.vframe.virAddr k ≠ 0) :
    (mmapPlanes sys layout mapped todo log frame).frame.vframe.virAddr k ≠ 0 := by
  induction todo generalizing mapped log frame with
  | nil => exact here.resolve_left List.not_mem_nil
  | cons i rest ih =>
    rw [mmapPlanes] at success ⊢
    cases answer : sys.mmap log (frame.vframe.phyAddr i) (layout.size i) with
    | none =>
      simp only [answer] at success
      cases success
    | some vir =>
      simp only [answer] at success ⊢
      refine ih success ?_
      by_cases same : k = i
      · exact .inr (same ▸ setVir_same.trans_ne vir.2)
      · rw [setVir_other same]
        exact here.imp_left fun mem => (List.mem_cons.mp mem).resolve_left same

theorem ensureMapped_mapped (accepted : computePlaneLayout frame.vframe = some layout)
    (success : (ensureMapped sys log frame).ret = 0) :
    (ensureMapped sys log frame).frame.vframe.virAddr 0 ≠ 0 := by
  obtain ⟨ret, idle, mapped⟩ | ⟨layout', same, -, -, maps⟩ := ensureMapped_cases sys log frame
  · rw [idle] at success ⊢
    exact mapped success
  · obtain rfl : layout' = layout := Option.some.inj (same.symm.trans accepted)
    rw [maps] at success ⊢
    exact mmapPlanes_mapped success (.inl (luma_mem accepted))

/-- A frame that is mapped gives its planes, whatever the system answers. -/
theorem hostData_mapped (accepted : computePlaneLayout frame.vframe = some layout)
    (mapped : frame.vframe.virAddr 0 ≠ 0) :
    hostData sys mem log frame =
      some (layout.planes.flatMap fun i => mem.read (planeSpan layout frame i)) := by
  have idle : ensureMapped sys log frame = ⟨log, frame, 0⟩ := by
    rw [ensureMapped, accepted]
    exact if_pos mapped
  rw [hostData, accepted]
  dsimp only
  rw [idle, if_neg (not_not_intro rfl), copiedBytes_planes]

end Loops

section Clones

variable {sys : Sys} {src dest : FrameData} {log : List SysCall} {layout : PlaneLayout}

/-- The planes of a frame in memory. -/
def planeSpans (layout : PlaneLayout) (frame : FrameData) : List Span :=
  layout.planes.map (planeSpan layout frame)

/-- What the system allocates for a clone is apart from the planes of its source. -/
def Allocating (sys : Sys) (log : List SysCall) (src : FrameData) : Prop :=
  ∀ layout, computePlaneLayout src.vframe = some layout →
    Fresh sys (ensureMapped sys log src).log
      (planeSpans layout (ensureMapped sys log src).frame)

/-- A clone that succeeds holds what its source holds, in planes that are apart from those of
the source; nothing else has changed. -/
theorem clone_copied (allocating : Allocating sys log src) (mem : Memory)
    (success : (clone sys log src).ret = 0) (cloned : (clone sys log src).dest = some dest) :
    ∃ layout, computePlaneLayout dest.vframe = some layout ∧
      computePlaneLayout (clone sys log src).src.vframe = some layout ∧
      dest.vframe.virAddr 0 ≠ 0 ∧ (clone sys log src).src.vframe.virAddr 0 ≠ 0 ∧
      Copied layout layout.planes (planeSpans layout (clone sys log src).src)
        (clone sys log src).src dest mem (cloneMemory sys mem log src) := by
  rw [clone] at success cloned ⊢
  rw [cloneMemory]
  cases accepted : computePlaneLayout src.vframe with
  | none =>
    simp only [accepted] at success
    cases success
  | some layout =>
    simp only [accepted] at success cloned ⊢
    by_cases mapped : (ensureMapped sys log src).ret = 0
    · simp only [mapped, ne_eq, not_true_eq_false, if_false] at success cloned ⊢
      have same : computePlaneLayout (ensureMapped sys log src).frame.vframe = some layout :=
        (ensureMapped_alike sys log src).layout.trans accepted
      have whole := @fillPlanes_copied sys layout (ensureMapped sys log src).frame
        (ensureMapped sys log src).frame.copied (ensureMapped sys log src).log [] _
        (allocating layout accepted) layout.planes (planes_nodup layout) (fun _ _ => rfl)
        (fun i here => List.mem_map_of_mem here) (List.forall_mem_nil _) mem
      rw [List.append_nil, show blocks [] = [] from rfl, List.append_nil] at whole
      have copied := whole success
      cases cloned
      have alike := allocPlanes_alike sys layout (ensureMapped sys log src).frame layout.planes
        (ensureMapped sys log src).log (ensureMapped sys log src).frame.copied
      exact ⟨layout, alike.layout.trans same, same, copied.mapped 0 (luma_mem same),
        ensureMapped_mapped accepted mapped, copied⟩
    · simp only [mapped, ne_eq, not_false_eq_true, if_true] at success
      cases success

/-- A clone that succeeds is a deep copy: whatever the system answers later, `Copy2Host` gives of
it, byte for byte, what it gives of its source. The planes of both are apart, so that nothing that
is written into one of them changes what is given of the other, and the memory has changed in
the planes of the clone only. -/
theorem clone_deep (allocating : Allocating sys log src) (mem : Memory)
    (success : (clone sys log src).ret = 0) (cloned : (clone sys log src).dest = some dest) :
    let source := (clone sys log src).src
    ∃ layout bytes, computePlaneLayout dest.vframe = some layout ∧
      (∀ sys' log', hostData sys' (cloneMemory sys mem log src) log' dest = some bytes ∧
        hostData sys' mem log' source = some bytes) ∧
      (∀ later : Memory,
        (∀ a, (∀ s ∈ planeSpans layout dest, ¬s.Has a) → later a = mem a) →
          ∀ sys' log', hostData sys' later log' source = some bytes) ∧
      (∀ later : Memory,
        (∀ a, (∀ s ∈ planeSpans layout source, ¬s.Has a) →
            later a = cloneMemory sys mem log src a) →
          ∀ sys' log', hostData sys' later log' dest = some bytes) ∧
      ∀ a, (∀ s ∈ planeSpans layout dest, ¬s.Has a) → cloneMemory sys mem log src a = mem a := by
  intro source
  obtain ⟨layout, taken, given, dest_mapped, source_mapped, copied⟩ :=
    clone_copied allocating mem success cloned
  have equal : (layout.planes.flatMap fun i =>
      (cloneMemory sys mem log src).read (planeSpan layout dest i)) =
        layout.planes.flatMap fun i => mem.read (planeSpan layout source i) :=
    List.flatMap_congr copied.copies
  refine ⟨layout, layout.planes.flatMap fun i => mem.read (planeSpan layout source i), taken,
    fun sys' log' => ⟨?_, hostData_mapped given source_mapped⟩,
    fun later kept sys' log' => ?_, fun later kept sys' log' => ?_, fun a outside => ?_⟩
  · rw [hostData_mapped taken dest_mapped, equal]
  · rw [hostData_mapped given source_mapped]
    refine congrArg some (List.flatMap_congr fun i here => ?_)
    refine read_congr (span_small layout source i) fun a inside => kept a ?_
    refine List.forall_mem_map.mpr fun k plane there => ?_
    exact copied.apart k plane _ (List.mem_map_of_mem here) a there inside
  · rw [hostData_mapped taken dest_mapped, ← equal]
    refine congrArg some (List.flatMap_congr fun i here => ?_)
    refine read_congr (span_small layout dest i) fun a inside => kept a ?_
    refine List.forall_mem_map.mpr fun k plane there => ?_
    exact copied.apart i here _ (List.mem_map_of_mem plane) a inside there
  · exact copied.keeps a fun i here => outside _ (List.mem_map_of_mem here)

/-- A mapped NV12 frame of four by four. -/
def smallFrame : FrameData where
  memId := .ivps
  grp := 0
  chn := 0
  vframe :=
    { imgFormat := .yuv420SemiPlanar, width := 4, height := 4, picStride := 4,
      frameSize := 0, phyAddr := fun i => if i = 0 then 4096 else 8192,
      virAddr := fun i => if i = 0 then 65536 else if i = 1 then 131072 else 0 }

/-- A block with one address for both worlds. -/
def blockAt (vir : UInt64) (nonzero : vir ≠ 0) : MemoryAddr := ⟨vir, vir, nonzero, nonzero⟩

theorem first_ne : (0x100000000 : UInt64) ≠ 0 := by decide

theorem second_ne : (0x200000000 : UInt64) ≠ 0 := by decide

def firstBlock : MemoryAddr := blockAt 0x100000000 first_ne

def secondBlock : MemoryAddr := blockAt 0x200000000 second_ne

/-- A system that has two blocks. -/
def twoBlocks : Sys where
  mmap _ _ _ := none
  munmap _ _ _ := 0
  memAlloc
    | [], _ => some firstBlock
    | [.memAlloc _ (some buf), .memcpy _ _], _ =>
      if buf.virAddr = firstBlock.virAddr then some secondBlock else none
    | _, _ => none
  memFree _ _ _ := 0

/-- A block of any size is apart from what is before it, if 4 GiB are behind its start. -/
theorem block_apart {start : UInt64} {s : Span} (size : UInt32)
    (behind : s.start.toNat + s.size ≤ start.toNat) (room : start.toNat + 2 ^ 32 ≤ 2 ^ 64) :
    Apart ⟨start, size.toNat⟩ s := by
  refine (apart_of_le behind ?_).symm
  exact (Nat.add_le_add_left size.toNat_lt.le _).trans room

theorem twoBlocks_allocating : Allocating twoBlocks [] smallFrame := by
  intro layout accepted
  cases accepted
  intro calls size buf keeping answer s used
  have planes : s = ⟨65536, 16⟩ ∨ s = ⟨131072, 8⟩ ∨ s ∈ blocks calls := by
    obtain plane | block := List.mem_append.mp used
    · obtain plane | plane := List.mem_pair.mp plane
      · exact .inl plane
      · exact .inr (.inl plane)
    · exact .inr (.inr block)
  change twoBlocks.memAlloc calls size = some buf at answer
  simp only [twoBlocks] at answer
  split at answer
  · cases answer
    obtain rfl | rfl | none := planes
    · exact block_apart size (by decide) (by decide)
    · exact block_apart size (by decide) (by decide)
    · exact absurd none List.not_mem_nil
  · rename_i n held source copied
    split_ifs at answer with here
    cases answer
    obtain rfl | rfl | block := planes
    · exact block_apart size (by decide) (by decide)
    · exact block_apart size (by decide) (by decide)
    · obtain rfl : s = ⟨held.virAddr, n.toNat⟩ := List.mem_singleton.mp block
      refine block_apart size ?_ (by decide)
      have room := n.toNat_lt
      have start : held.virAddr.toNat = 2 ^ 32 := congrArg UInt64.toNat here
      have target : secondBlock.virAddr.toNat = 2 ^ 33 := rfl
      dsimp only
      omega
  · cases answer

theorem smallFrame_deep :
    let mem : Memory := fun a => a.toUInt8
    ∃ dest bytes, (clone twoBlocks [] smallFrame).dest = some dest ∧
      hostData twoBlocks (cloneMemory twoBlocks mem [] smallFrame) [] dest = some bytes ∧
      hostData twoBlocks mem [] smallFrame = some bytes := by
  intro mem
  obtain ⟨layout, bytes, -, same, -⟩ := clone_deep twoBlocks_allocating mem rfl rfl
  exact ⟨_, bytes, rfl, same twoBlocks []⟩

end Clones

end CopiedPlanes
