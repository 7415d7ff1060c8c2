import AxVision.MappingBalance

/-!
# The frames that `Clone` allocates

A cloned frame owns the memory of its planes: its addresses come from
`AX_SYS_MemAlloc` and `Destroy` gives them to `AX_SYS_MemFree`. `EnsureMapped`
asks for the owner before it maps; `Unmap` does not, and unmaps what the frame
owns.
-/

namespace ClonedFrames

open MatchedTraces PlaneLayouts FrameMappings MappingBalance

/-- The addresses of the planes that calls have allocated. -/
def allocated (calls : List SysCall) : List (UInt64 × UInt64) :=
  calls.filterMap fun
    | .memAlloc _ (some buf) => some (buf.phyAddr, buf.virAddr)
    | _ => none

def freed (calls : List SysCall) : List (UInt64 × UInt64) :=
  calls.filterMap fun
    | .memFree phy vir => some (phy, vir)
    | _ => none

def unmapped (calls : List SysCall) : List UInt64 :=
  calls.filterMap fun
    | .munmap vir _ => some vir
    | _ => none

/-- The memory of a clone, from the calls of its `Clone` and all calls up to its
end: no allocated address is unmapped and each allocated plane is freed once. -/
def OwnedOnce (cloning calls : List SysCall) : Prop :=
  (∀ vir ∈ unmapped calls, ∀ buf ∈ allocated calls, buf.2 ≠ vir) ∧
    ∀ buf ∈ allocated cloning, (freed calls).count buf = (allocated cloning).count buf

/-- Calls that give nothing back. -/
def keeping : SysCall → Bool
  | .munmap .. | .memFree .. | .free .. => false
  | _ => true

def Keeping (calls : List SysCall) : Prop := ∀ e ∈ calls, keeping e = true

section Calls

variable {calls first second : List SysCall}

theorem keeping_of_quiet (silent : Quiet calls) : Keeping calls := by
  intro e mem
  have here := silent e mem
  cases e with
  | munmap vir size => cases here
  | memFree phy vir => cases here
  | free vir => cases here
  | _ => rfl

theorem Keeping.append (left : Keeping first) (right : Keeping second) :
    Keeping (first ++ second) :=
  List.forall_mem_append.mpr ⟨left, right⟩

theorem Keeping.unmapped (keeps : Keeping calls) : unmapped calls = [] := by
  apply List.filterMap_eq_nil_iff.mpr
  intro e mem
  have here := keeps e mem
  cases e with
  | munmap vir size => cases here
  | _ => rfl

theorem Keeping.freed (keeps : Keeping calls) : freed calls = [] := by
  apply List.filterMap_eq_nil_iff.mpr
  intro e mem
  have here := keeps e mem
  cases e with
  | memFree phy vir => cases here
  | _ => rfl

theorem unmapped_append (first second : List SysCall) :
    unmapped (first ++ second) = unmapped first ++ unmapped second :=
  List.filterMap_append

theorem freed_append (first second : List SysCall) :
    freed (first ++ second) = freed first ++ freed second :=
  List.filterMap_append

theorem allocated_append (first second : List SysCall) :
    allocated (first ++ second) = allocated first ++ allocated second :=
  List.filterMap_append

theorem unmapped_grows (earlier : first <+: second) {vir : UInt64}
    (mem : vir ∈ unmapped first) : vir ∈ unmapped second := by
  obtain ⟨rest, rfl⟩ := earlier
  rw [unmapped_append]
  exact List.mem_append_left _ mem

theorem allocated_grows (earlier : first <+: second) {buf : UInt64 × UInt64}
    (mem : buf ∈ allocated first) : buf ∈ allocated second := by
  obtain ⟨rest, rfl⟩ := earlier
  rw [allocated_append]
  exact List.mem_append_left _ mem

end Calls

section Cloning

variable {sys : Sys} {layout : PlaneLayout} {log : List SysCall} {frame src dest : FrameData}

/-- A loop of `EnsureMapped` that succeeds has only called mmap. -/
theorem mmapPlanes_keeps {mapped todo : List (Fin 3)}
    (success : (mmapPlanes sys layout mapped todo log frame).ret = 0) (before : Keeping log) :
    Keeping (mmapPlanes sys layout mapped todo log frame).log ∧
      allocated (mmapPlanes sys layout mapped todo log frame).log = allocated log := by
  induction todo generalizing mapped log frame with
  | nil => exact ⟨before, rfl⟩
  | cons i rest ih =>
    simp only [mmapPlanes] at success ⊢
    split at success
    · cases success
    · rename_i vir answer
      obtain ⟨keeps, same⟩ := ih success (before.append (by simp [Keeping, keeping]))
      constructor
      · exact keeps
      · rw [same, allocated_append]
        exact List.append_nil _

theorem ensureMapped_keeps (success : (ensureMapped sys log frame).ret = 0)
    (before : Keeping log) :
    Keeping (ensureMapped sys log frame).log ∧
      allocated (ensureMapped sys log frame).log = allocated log := by
  obtain ⟨ret, same, -⟩ | ⟨layout, -, -, -, maps⟩ := ensureMapped_cases sys log frame
  · rw [same]
    exact ⟨before, rfl⟩
  · rw [maps] at success ⊢
    exact mmapPlanes_keeps success before

section Filled

variable {i k : Fin 3} {phy vir : UInt64}

theorem filled_phy : ((dest.setPhy i phy).setVir i vir).vframe.phyAddr i = phy := by
  simp only [FrameData.setPhy, FrameData.setVir, Function.update_self]

theorem filled_vir : ((dest.setPhy i phy).setVir i vir).vframe.virAddr i = vir := by
  simp only [FrameData.setPhy, FrameData.setVir, Function.update_self]

theorem filled_other (other : k ≠ i) :
    ((dest.setPhy i phy).setVir i vir).vframe.phyAddr k = dest.vframe.phyAddr k ∧
      ((dest.setPhy i phy).setVir i vir).vframe.virAddr k = dest.vframe.virAddr k := by
  simp only [FrameData.setPhy, FrameData.setVir, Function.update_of_ne other, and_self]

theorem filled_away (phy vir : UInt64) {rest : List (Fin 3)} (fresh : i ∉ rest)
    (away : ∀ k ∈ i :: rest, dest.vframe.phyAddr k = 0) :
    ∀ k ∈ rest, ((dest.setPhy i phy).setVir i vir).vframe.phyAddr k = 0 := by
  intro k mem
  have other : k ≠ i := fun same => fresh (same ▸ mem)
  rw [(filled_other other).1]
  exact away k (List.mem_cons_of_mem i mem)

end Filled

/-- The buffers among some planes of a frame. -/
def buffers (frame : FrameData) (planes : List (Fin 3)) : List (UInt64 × UInt64) :=
  planes.filterMap fun i =>
    if frame.vframe.phyAddr i = 0 then none
    else some (frame.vframe.phyAddr i, frame.vframe.virAddr i)

theorem buffers_none {planes : List (Fin 3)}
    (away : ∀ k ∈ planes, frame.vframe.phyAddr k = 0) : buffers frame planes = [] := by
  apply List.filterMap_eq_nil_iff.mpr
  intro k mem
  exact if_pos (away k mem)

/-- What the allocating loop of `Clone` does to the frame it fills: the planes it
does not visit stay, and the ones it visits hold what it has allocated. -/
theorem allocPlanes_fills (sys : Sys) (layout : PlaneLayout) (src : FrameData)
    (log : List SysCall) {dest : FrameData} {planes : List (Fin 3)} (distinct : planes.Nodup)
    (away : ∀ k ∈ planes, dest.vframe.phyAddr k = 0) :
    let done := allocPlanes sys layout src planes log dest
    (∀ k, k ∉ planes → done.frame.vframe.phyAddr k = dest.vframe.phyAddr k ∧
        done.frame.vframe.virAddr k = dest.vframe.virAddr k) ∧
      allocated done.log = allocated log ++ buffers done.frame planes := by
  induction planes generalizing log dest with
  | nil => exact ⟨fun k _ => ⟨rfl, rfl⟩, (List.append_nil _).symm⟩
  | cons i rest ih =>
    obtain ⟨fresh, distinct⟩ := List.nodup_cons.mp distinct
    simp only [allocPlanes]
    split
    · constructor
      · exact fun k _ => ⟨rfl, rfl⟩
      · rw [buffers_none away, allocated_append]
        rfl
    · rename_i buf answer
      obtain ⟨kept, filled⟩ := ih (log ++ [.memAlloc (layout.size i) (some buf),
        .memcpy (src.vframe.virAddr i) (layout.size i).toUInt64]) distinct
        (filled_away buf.phyAddr buf.virAddr fresh away)
      constructor
      · intro k out
        obtain ⟨phy, vir⟩ := kept k (List.not_mem_of_not_mem_cons out)
        rw [phy, vir]
        exact filled_other (List.ne_of_not_mem_cons out)
      · obtain ⟨phy, vir⟩ := kept i fresh
        rw [filled_phy] at phy
        rw [filled_vir] at vir
        rw [filled, allocated_append, List.append_assoc]
        congr 1
        simp only [buffers, List.filterMap_cons, phy, vir, if_neg buf.phyAddr_ne]
        rfl

/-- A clone without its first plane has no other plane. -/
theorem allocPlanes_luma (sys : Sys) (layout : PlaneLayout) (src : FrameData)
    (log : List SysCall) {dest : FrameData} {i : Fin 3} {rest : List (Fin 3)}
    (distinct : (i :: rest).Nodup) (away : ∀ k ∈ i :: rest, dest.vframe.phyAddr k = 0) :
    let done := allocPlanes sys layout src (i :: rest) log dest
    done.frame = dest ∨ done.frame.vframe.phyAddr i ≠ 0 ∧ done.frame.vframe.virAddr i ≠ 0 := by
  obtain ⟨fresh, distinct⟩ := List.nodup_cons.mp distinct
  simp only [allocPlanes]
  split
  · exact .inl rfl
  · rename_i buf answer
    obtain ⟨kept, -⟩ := allocPlanes_fills sys layout src
      (log ++ [.memAlloc (layout.size i) (some buf),
        .memcpy (src.vframe.virAddr i) (layout.size i).toUInt64]) distinct
      (filled_away buf.phyAddr buf.virAddr fresh away)
    obtain ⟨phy, vir⟩ := kept i fresh
    right
    rw [phy, vir, filled_phy, filled_vir]
    exact ⟨buf.phyAddr_ne, buf.virAddr_ne⟩

theorem allocPlanes_alike (sys : Sys) (layout : PlaneLayout) (src : FrameData)
    (planes : List (Fin 3)) (log : List SysCall) (dest : FrameData) :
    Alike (allocPlanes sys layout src planes log dest).frame dest := by
  induction planes generalizing log dest with
  | nil => exact Alike.refl dest
  | cons i rest ih =>
    simp only [allocPlanes]
    split
    · exact Alike.refl dest
    · exact (ih _ _).trans ⟨rfl, rfl⟩

/-- A frame that `Clone` has made, after the calls of a log. -/
structure Owner (log : List SysCall) (dest : FrameData) : Prop where
  memId : dest.memId = .sys
  accepted : ∃ layout, computePlaneLayout dest.vframe = some layout
  keeps : Keeping log
  owned : allocated log = buffers dest (List.finRange 3)
  luma : dest.vframe.phyAddr 0 = 0 ∧ (∀ k, dest.vframe.virAddr k = 0) ∧ allocated log = [] ∨
    dest.vframe.phyAddr 0 ≠ 0 ∧ dest.vframe.virAddr 0 ≠ 0

theorem planes_luma (accepted : computePlaneLayout frame.vframe = some layout) :
    ∃ rest, layout.planes = 0 :: rest := by
  obtain ⟨bits, -, ⟨two, -⟩ | ⟨one, -⟩⟩ := layout_cases accepted
  · exact ⟨[1], planes_two two⟩
  · exact ⟨[], planes_one one⟩

/-- The buffers of a frame are among the planes that were filled. -/
theorem buffers_planes (away : ∀ k ∉ layout.planes, frame.vframe.phyAddr k = 0) :
    buffers frame (List.finRange 3) = buffers frame layout.planes := by
  have parts : List.finRange 3 = layout.planes ++ (List.finRange 3).drop layout.planarNum :=
    (List.take_append_drop layout.planarNum (List.finRange 3)).symm
  have distinct := List.nodup_finRange 3
  rw [parts] at distinct
  have rest : buffers frame ((List.finRange 3).drop layout.planarNum) = [] :=
    buffers_none fun k mem => away k fun here => List.disjoint_of_nodup_append distinct here mem
  rw [parts]
  simp only [buffers, List.filterMap_append] at rest ⊢
  rw [rest, List.append_nil]

theorem allocPlanes_owner (memId : dest.memId = .sys)
    (accepted : computePlaneLayout dest.vframe = some layout)
    (phy : ∀ k, dest.vframe.phyAddr k = 0) (vir : ∀ k, dest.vframe.virAddr k = 0)
    (before : Keeping log) (nothing : allocated log = []) :
    Owner (allocPlanes sys layout src layout.planes log dest).log
      (allocPlanes sys layout src layout.planes log dest).frame := by
  obtain ⟨calls, silent, same⟩ := allocPlanes_quiet sys layout src layout.planes log dest
  obtain ⟨rest, first⟩ := planes_luma accepted
  have alike := allocPlanes_alike sys layout src layout.planes log dest
  have distinct := planes_nodup layout
  obtain ⟨kept, filled⟩ := allocPlanes_fills sys layout src log distinct fun k _ => phy k
  have luma := allocPlanes_luma sys layout src log (first ▸ distinct) fun k _ => phy k
  rw [← first] at luma
  have owned : allocated (allocPlanes sys layout src layout.planes log dest).log =
      buffers (allocPlanes sys layout src layout.planes log dest).frame (List.finRange 3) := by
    rw [filled, nothing, buffers_planes fun k out => (kept k out).1.trans (phy k)]
    rfl
  constructor
  · exact alike.memId.trans memId
  · exact ⟨layout, alike.layout.trans accepted⟩
  · rw [same]
    exact before.append (keeping_of_quiet silent)
  · exact owned
  · obtain untouched | mapped := luma
    · left
      rw [owned, untouched]
      exact ⟨phy 0, vir, buffers_none fun k _ => phy k⟩
    · exact .inr mapped

/-- Every frame that `Clone` makes is an owner, also when an allocation fails. -/
theorem clone_owner (cloned : (clone sys [] src).dest = some dest) :
    Owner (clone sys [] src).log dest := by
  simp only [clone] at cloned ⊢
  split at cloned
  · cases cloned
  · rename_i layout accepted
    split at cloned
    · cases cloned
    · rename_i success
      obtain ⟨before, none⟩ := ensureMapped_keeps (not_not.mp success) fun e mem => by cases mem
      have same : computePlaneLayout (ensureMapped sys [] src).frame.vframe = some layout :=
        (ensureMapped_alike sys [] src).layout.trans accepted
      simp only [if_neg success]
      cases cloned
      exact allocPlanes_owner rfl same (fun _ => rfl) (fun _ => rfl) before none

end Cloning

section LaterCalls

variable {sys : Sys} {log : List SysCall} {frame : FrameData}

/-- Any operation but `Unmap` leaves an allocated frame as it is. -/
theorem apply_allocated (sys : Sys) (log : List SysCall) {op : Op} (reader : op ≠ .unmap)
    (memId : frame.memId = .sys) :
    ∃ calls, Quiet calls ∧ op.apply sys log frame = (log ++ calls, frame) := by
  obtain same | ⟨calls, silent, same⟩ := apply_reader reader sys log frame
  · exact ⟨[], by simp [Quiet], by simp [same]⟩
  · obtain ⟨ret, kept, -⟩ | ⟨layout, -, -, owner, -⟩ := ensureMapped_cases sys log frame
    · rw [kept] at same
      exact ⟨calls, silent, same⟩
    · exact absurd memId owner

theorem operate_allocated (sys : Sys) (log : List SysCall) {ops : List Op}
    (readers : Op.unmap ∉ ops) (memId : frame.memId = .sys) :
    ∃ calls, Quiet calls ∧ operate sys ops log frame = (log ++ calls, frame) := by
  induction ops generalizing log with
  | nil => exact ⟨[], by simp [Quiet], by simp [operate]⟩
  | cons op rest ih =>
    obtain ⟨first, silent, same⟩ := apply_allocated sys log
      (List.ne_of_not_mem_cons readers).symm memId
    obtain ⟨later, quiet, ends⟩ := ih (log ++ first) (List.not_mem_of_not_mem_cons readers)
    refine ⟨first ++ later, silent.append quiet, ?_⟩
    simp only [operate, same, ends, List.append_assoc]

/-- `Unmap` of a frame without addresses calls nothing. -/
theorem unmapPlanes_bare {layout : PlaneLayout} (planes : List (Fin 3)) (firstErr : Int)
    (bare : ∀ k, frame.vframe.virAddr k = 0) :
    unmapPlanes sys layout planes firstErr log frame = ⟨log, frame, firstErr⟩ := by
  induction planes with
  | nil => rfl
  | cons i rest ih =>
    rw [unmapPlanes]
    simp only [bare i, if_true]
    exact ih

theorem apply_bare (sys : Sys) (log : List SysCall) (op : Op) (memId : frame.memId = .sys)
    (bare : ∀ k, frame.vframe.virAddr k = 0) :
    ∃ calls, Quiet calls ∧ (op.apply sys log frame).1 = log ++ calls ∧
      ∀ k, (op.apply sys log frame).2.vframe.virAddr k = 0 := by
  by_cases reader : op = .unmap
  · rw [reader]
    refine ⟨[], by simp [Quiet], ?_⟩
    obtain same | ⟨layout, -, loop⟩ := unmap_cases sys log frame
    · simp only [Op.apply, same, List.append_nil, true_and]
      exact bare
    · have still : ∀ k, (deriveUv layout frame).vframe.virAddr k = 0 := by
        rw [deriveUv_virAddr]
        exact bare
      simp only [Op.apply, loop, unmapPlanes_bare layout.planes 0 still, List.append_nil, true_and]
      exact still
  · obtain ⟨calls, silent, same⟩ := apply_allocated sys log reader memId
    rw [same]
    exact ⟨calls, silent, rfl, bare⟩

theorem operate_bare (sys : Sys) (log : List SysCall) (ops : List Op) (memId : frame.memId = .sys)
    (bare : ∀ k, frame.vframe.virAddr k = 0) :
    ∃ calls, Quiet calls ∧ (operate sys ops log frame).1 = log ++ calls := by
  induction ops generalizing log frame with
  | nil => exact ⟨[], by simp [Quiet], by simp [operate]⟩
  | cons op rest ih =>
    obtain ⟨first, silent, same, still⟩ := apply_bare sys log op memId bare
    have owner := (apply_alike op sys log frame).memId.trans memId
    obtain ⟨later, quiet, ends⟩ := ih (op.apply sys log frame).1 owner still
    exact ⟨first ++ later, silent.append quiet, by rw [operate, ends, same, List.append_assoc]⟩

/-- What `Destroy` calls for one plane of an allocated frame. -/
def freeCalls (frame : FrameData) (i : Fin 3) : List SysCall :=
  if frame.vframe.phyAddr i ≠ 0 then [.memFree (frame.vframe.phyAddr i) (frame.vframe.virAddr i)]
  else if frame.vframe.virAddr i ≠ 0 then [.free (frame.vframe.virAddr i)]
  else []

theorem freePlane_log (sys : Sys) (i : Fin 3) (done : Done) :
    (freePlane sys i done).log = done.log ++ freeCalls done.frame i := by
  simp only [freePlane, freeCalls]
  split
  · rfl
  · split
    · rfl
    · exact (List.append_nil _).symm

theorem freePlane_other {i k : Fin 3} (other : k ≠ i) (done : Done) :
    freeCalls (freePlane sys i done).frame k = freeCalls done.frame k := by
  have phy : (freePlane sys i done).frame.vframe.phyAddr k = done.frame.vframe.phyAddr k := by
    simp only [freePlane]
    split
    · exact (filled_other other).1
    · split
      · rfl
      · rfl
  have vir : (freePlane sys i done).frame.vframe.virAddr k = done.frame.vframe.virAddr k := by
    simp only [freePlane]
    split
    · exact (filled_other other).2
    · split
      · exact setVir_other other
      · rfl
  simp only [freeCalls, phy, vir]

theorem destroy_allocated (memId : frame.memId = .sys) :
    (destroy sys log frame).log = log ++ (List.finRange 3).flatMap (freeCalls frame) := by
  rw [destroy, if_pos memId, freePlane_log, freePlane_log, freePlane_log,
    freePlane_other (by decide), freePlane_other (by decide), freePlane_other (by decide)]
  simp [List.finRange]

theorem freeCalls_freed (frame : FrameData) (planes : List (Fin 3)) :
    freed (planes.flatMap (freeCalls frame)) = buffers frame planes := by
  induction planes with
  | nil => rfl
  | cons i rest ih =>
    have first : freed (freeCalls frame i) = buffers frame [i] := by
      by_cases empty : frame.vframe.phyAddr i = 0
      · simp only [freeCalls, buffers, empty, ne_eq, not_true_eq_false, if_false, if_true,
          List.filterMap_cons, List.filterMap_nil]
        split
        · rfl
        · rfl
      · simp only [freeCalls, buffers, ne_eq, empty, not_false_eq_true, if_true, if_false,
          List.filterMap_cons, List.filterMap_nil]
        rfl
    have split : buffers frame (i :: rest) = buffers frame [i] ++ buffers frame rest :=
      @List.filterMap_append _ _ [i] rest _
    rw [List.flatMap_cons, freed_append, ih, first, split]

theorem freeCalls_unmapped (frame : FrameData) (planes : List (Fin 3)) :
    unmapped (planes.flatMap (freeCalls frame)) = [] := by
  apply List.filterMap_eq_nil_iff.mpr
  intro e mem
  obtain ⟨i, -, mem⟩ := List.mem_flatMap.mp mem
  unfold freeCalls at mem
  split at mem
  · cases List.mem_singleton.mp mem
    rfl
  · split at mem
    · cases List.mem_singleton.mp mem
      rfl
    · cases mem

end LaterCalls

section Extends

variable {sys : Sys} {layout : PlaneLayout}

theorem rollback_extends (planes : List (Fin 3)) (log : List SysCall) (frame : FrameData) :
    log <+: (rollback layout planes log frame).1 := by
  induction planes generalizing log frame with
  | nil => exact List.prefix_refl log
  | cons i rest ih => exact (List.prefix_append log _).trans (ih _ _)

theorem mmapPlanes_extends (mapped todo : List (Fin 3)) (log : List SysCall) (frame : FrameData) :
    log <+: (mmapPlanes sys layout mapped todo log frame).log := by
  induction todo generalizing mapped log frame with
  | nil => exact List.prefix_refl log
  | cons i rest ih =>
    simp only [mmapPlanes]
    split
    · exact (List.prefix_append log _).trans (rollback_extends mapped _ _)
    · exact (List.prefix_append log _).trans (ih _ _ _)

theorem ensureMapped_extends (log : List SysCall) (frame : FrameData) :
    log <+: (ensureMapped sys log frame).log := by
  obtain ⟨ret, same, -⟩ | ⟨layout, -, -, -, maps⟩ := ensureMapped_cases sys log frame
  · exact same ▸ List.prefix_refl log
  · rw [maps]
    exact mmapPlanes_extends _ _ _ _

theorem unmapPlanes_extends (planes : List (Fin 3)) (firstErr : Int) (log : List SysCall)
    (frame : FrameData) : log <+: (unmapPlanes sys layout planes firstErr log frame).log := by
  induction planes generalizing firstErr log frame with
  | nil => exact List.prefix_refl log
  | cons i rest ih =>
    rw [unmapPlanes]
    split
    · exact ih _ _ _
    · exact (List.prefix_append log _).trans (ih _ _ _)

theorem apply_extends (op : Op) (log : List SysCall) (frame : FrameData) :
    log <+: (op.apply sys log frame).1 := by
  by_cases reader : op = .unmap
  · rw [reader]
    obtain same | ⟨layout, -, loop⟩ := unmap_cases sys log frame
    · simp only [Op.apply, same, List.prefix_refl]
    · simp only [Op.apply, loop]
      exact unmapPlanes_extends _ _ _ _
  · obtain same | ⟨calls, -, same⟩ := apply_reader reader sys log frame
    · exact same ▸ List.prefix_refl log
    · rw [same]
      exact (ensureMapped_extends log frame).trans (List.prefix_append _ calls)

theorem operate_extends (ops : List Op) (log : List SysCall) (frame : FrameData) :
    log <+: (operate sys ops log frame).1 := by
  induction ops generalizing log frame with
  | nil => exact List.prefix_refl log
  | cons op rest ih => exact (apply_extends op log frame).trans (ih _ _)

theorem destroy_extends (log : List SysCall) (frame : FrameData) :
    log <+: (destroy sys log frame).log := by
  by_cases memId : frame.memId = .sys
  · rw [destroy_allocated memId]
    exact List.prefix_append log _
  · simp only [destroy, if_neg memId]
    split
    · exact List.prefix_refl log
    · rw [List.append_assoc]
      exact List.prefix_append log _

theorem life_extends (ops : List Op) (log : List SysCall) (frame : FrameData) :
    log <+: life sys ops log frame :=
  (operate_extends ops log frame).trans (destroy_extends _ _)

theorem life_append (first second : List Op) (log : List SysCall) (frame : FrameData) :
    life sys (first ++ second) log frame =
      life sys second (operate sys first log frame).1 (operate sys first log frame).2 := by
  induction first generalizing log frame with
  | nil => rfl
  | cons op rest ih => exact ih _ _

/-- `Unmap` of a frame with a luma address munmaps it, whoever owns it. -/
theorem unmap_luma (sys : Sys) (log : List SysCall) {frame : FrameData}
    (accepted : ∃ layout, computePlaneLayout frame.vframe = some layout)
    (luma : frame.vframe.virAddr 0 ≠ 0) :
    frame.vframe.virAddr 0 ∈ unmapped (unmap sys log frame).log := by
  obtain ⟨layout, accepted⟩ := accepted
  obtain ⟨rest, first⟩ := planes_luma accepted
  have here : (deriveUv layout frame).vframe.virAddr 0 = frame.vframe.virAddr 0 := by
    rw [deriveUv_virAddr]
  simp only [unmap, accepted, first, unmapPlanes, here, if_neg luma, munmapPlane]
  apply unmapped_grows (unmapPlanes_extends _ _ _ _)
  rw [unmapped_append]
  exact List.mem_append_right _ List.mem_cons_self

end Extends

section Results

variable {sys : Sys} {src dest : FrameData} {log : List SysCall} {ops : List Op}

/-- Without `Unmap`, or without memory, nothing is unmapped after `Clone`. -/
theorem nothing_unmapped (owner : Owner log dest)
    (spared : dest.vframe.phyAddr 0 = 0 ∨ Op.unmap ∉ ops) :
    unmapped (life sys ops log dest) = [] := by
  obtain ⟨calls, silent, same, memId⟩ : ∃ calls, Quiet calls ∧
      (operate sys ops log dest).1 = log ++ calls ∧ (operate sys ops log dest).2.memId = .sys := by
    have memId := (operate_alike ops sys log dest).memId.trans owner.memId
    obtain empty | readers := spared
    · obtain ⟨-, bare, -⟩ | ⟨luma, -⟩ := owner.luma
      · obtain ⟨calls, silent, same⟩ := operate_bare sys log ops owner.memId bare
        exact ⟨calls, silent, same, memId⟩
      · exact absurd empty luma
    · obtain ⟨calls, silent, same⟩ := operate_allocated sys log readers owner.memId
      exact ⟨calls, silent, congrArg Prod.fst same, memId⟩
  simp only [life]
  rw [destroy_allocated memId, same, unmapped_append, freeCalls_unmapped, List.append_nil]
  exact (owner.keeps.append (keeping_of_quiet silent)).unmapped

/-- Without `Unmap` the destruction frees what `Clone` has allocated. -/
theorem freed_allocated (owner : Owner log dest) (readers : Op.unmap ∉ ops) :
    freed (life sys ops log dest) = allocated log := by
  obtain ⟨calls, silent, same⟩ := operate_allocated sys log readers owner.memId
  simp only [life, same]
  rw [destroy_allocated owner.memId, freed_append, freeCalls_freed, ← owner.owned,
    (owner.keeps.append (keeping_of_quiet silent)).freed, List.nil_append]

/-- The memory of a clone is never unmapped and freed once exactly when the
clone got no memory at all or is never given to `Unmap`. -/
theorem ownedOnce_iff (sys : Sys) (src dest : FrameData) (ops : List Op)
    (cloned : (clone sys [] src).dest = some dest) :
    OwnedOnce (clone sys [] src).log (life sys ops (clone sys [] src).log dest) ↔
      dest.vframe.phyAddr 0 = 0 ∨ Op.unmap ∉ ops := by
  have owner := clone_owner cloned
  constructor
  · intro once
    by_contra spoiled
    obtain ⟨luma, unmaps⟩ := not_or.mp spoiled
    obtain ⟨first, rest, rfl, readers⟩ := List.eq_append_cons_of_mem (not_not.mp unmaps)
    obtain ⟨empty, -⟩ | ⟨-, mapped⟩ := owner.luma
    · exact luma empty
    · -- the first `Unmap` meets the frame as `Clone` made it
      obtain ⟨calls, -, same⟩ := operate_allocated sys (clone sys [] src).log readers owner.memId
      have gone := unmap_luma sys ((clone sys [] src).log ++ calls) owner.accepted mapped
      have kept : dest.vframe.virAddr 0 ∈
          unmapped (life sys (first ++ .unmap :: rest) (clone sys [] src).log dest) := by
        rw [life_append, same]
        exact unmapped_grows (life_extends rest _ _) gone
      have owned : (dest.vframe.phyAddr 0, dest.vframe.virAddr 0) ∈
          allocated (clone sys [] src).log := by
        rw [owner.owned]
        exact List.mem_filterMap.mpr ⟨0, List.mem_finRange 0, if_neg luma⟩
      exact once.1 _ kept _ (allocated_grows (life_extends _ _ _) owned) rfl
  · intro spared
    constructor
    · rw [nothing_unmapped owner spared]
      intro vir mem
      cases mem
    · intro buf mem
      obtain empty | readers := spared
      · obtain ⟨-, -, none⟩ | ⟨luma, -⟩ := owner.luma
        · rw [none] at mem
          cases mem
        · exact absurd empty luma
      · rw [freed_allocated owner readers]

/-- A mapped NV12 frame of IVPS. -/
def mappedFrame : FrameData where
  memId := .ivps
  grp := 0
  chn := 0
  vframe :=
    { imgFormat := .yuv420SemiPlanar, width := 1920, height := 1080, picStride := 1920,
      frameSize := 0, phyAddr := fun i => if i = 0 then 4096 else 8192,
      virAddr := fun i => if i = 0 then 65536 else if i = 1 then 131072 else 0 }

/-- A system with memory for `count` planes of `mappedFrame`. -/
def roomFor (count : Nat) : Sys where
  mmap _ _ _ := none
  munmap _ _ _ := 0
  memAlloc log _ :=
    if log.length / 2 < count then
      if log.length = 0 then some ⟨16384, 262144, by decide, by decide⟩
      else some ⟨32768, 524288, by decide, by decide⟩
    else none
  memFree _ _ _ := 0

/-- A clone whose second allocation fails is freed, also after it was read. -/
theorem partial_clone_owned :
    ∃ dest, (clone (roomFor 1) [] mappedFrame).dest = some dest ∧
      OwnedOnce (clone (roomFor 1) [] mappedFrame).log
        (life (roomFor 1) [.copy2Host, .cloneSource] (clone (roomFor 1) [] mappedFrame).log dest) :=
  ⟨_, rfl, (ownedOnce_iff (roomFor 1) mappedFrame _ _ rfl).mpr (.inr (by decide))⟩

/-- A clone that is unmapped has its own memory unmapped and frees null addresses. -/
theorem unmapped_clone_spoiled :
    ∃ dest, (clone (roomFor 2) [] mappedFrame).dest = some dest ∧
      ¬ OwnedOnce (clone (roomFor 2) [] mappedFrame).log
        (life (roomFor 2) [.unmap] (clone (roomFor 2) [] mappedFrame).log dest) :=
  ⟨_, rfl, fun once => once.1 262144 (by decide) (16384, 262144) (by decide) rfl⟩

end Results

end ClonedFrames
