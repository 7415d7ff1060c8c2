import AxVision.FrameMappings

/-!
# Every view of a frame is given back once

A view is the address and the size of a successful mmap. Between two operations
a frame has a view of every plane or of none, and the views it has are the ones
that its calls have acquired and not released.
-/

namespace MappingBalance

open MatchedTraces PlaneLayouts FrameMappings

/-- A successful mmap acquires a view and a munmap releases the one it names. -/
def mappings : Ledger SysCall View where
  acquired
    | .mmap _ size (some vir) => some ⟨vir, size⟩
    | _ => none
  released
    | .munmap vir size => some ⟨vir, size⟩
    | _ => none
  apart e releases := by
    cases e with
    | munmap vir size => rfl
    | _ => exact absurd rfl releases

/-- The views among some planes of a frame. -/
def views (layout : PlaneLayout) (frame : FrameData) (planes : List (Fin 3)) : List View :=
  planes.filterMap fun i =>
    if frame.vframe.virAddr i = 0 then none else some ⟨frame.vframe.virAddr i, layout.size i⟩

/-- The calls so far have acquired and not released exactly these views. -/
def Outstanding (log : List SysCall) (kept : List View) : Prop :=
  mappings.settle 0 log = some (↑kept : Multiset View)

def held (frame : FrameData) : List View :=
  match computePlaneLayout frame.vframe with
  | none => []
  | some layout => views layout frame layout.planes

structure Balanced (log : List SysCall) (frame : FrameData) : Prop where
  settled : Outstanding log (held frame)
  whole : ∀ layout, computePlaneLayout frame.vframe = some layout →
    (∀ i ∈ layout.planes, frame.vframe.virAddr i = 0) ∨
      ∀ i ∈ layout.planes, frame.vframe.virAddr i ≠ 0

/-- The operations keep the owner and the layout of a frame. -/
structure Alike (later frame : FrameData) : Prop where
  memId : later.memId = frame.memId
  layout : computePlaneLayout later.vframe = computePlaneLayout frame.vframe

section Fields

variable {layout : PlaneLayout} {frame later last : FrameData} {i k : Fin 3} {vir : UInt64}

theorem Alike.refl (frame : FrameData) : Alike frame frame := ⟨rfl, rfl⟩

theorem Alike.trans (second : Alike last later) (first : Alike later frame) : Alike last frame :=
  ⟨second.memId.trans first.memId, second.layout.trans first.layout⟩

theorem setVir_alike (frame : FrameData) (i : Fin 3) (vir : UInt64) :
    Alike (frame.setVir i vir) frame :=
  ⟨rfl, rfl⟩

@[simp] theorem setVir_same : (frame.setVir i vir).vframe.virAddr i = vir := by
  simp only [FrameData.setVir, Function.update_self]

theorem setVir_other (other : k ≠ i) :
    (frame.setVir i vir).vframe.virAddr k = frame.vframe.virAddr k := by
  simp only [FrameData.setVir, Function.update_of_ne other]

/-- A plane that is in a list or has no address, once the first plane is forgotten. -/
theorem setVir_away {rest : List (Fin 3)}
    (away : k ∈ i :: rest ∨ frame.vframe.virAddr k = 0) :
    k ∈ rest ∨ (frame.setVir i 0).vframe.virAddr k = 0 := by
  by_cases same : k = i
  · right
    rw [same]
    exact setVir_same
  · obtain mem | away := away
    · left
      exact (List.mem_cons.mp mem).resolve_left same
    · right
      exact (setVir_other same).trans away

theorem deriveUv_alike (layout : PlaneLayout) (frame : FrameData) :
    Alike (deriveUv layout frame) frame := by
  unfold deriveUv
  split
  · constructor
    · rfl
    · unfold fillDerivedUvPhyAddr
      split
      · rfl
      · rfl
  · exact Alike.refl frame

@[simp] theorem deriveUv_virAddr :
    (deriveUv layout frame).vframe.virAddr = frame.vframe.virAddr := by
  unfold deriveUv fillDerivedUvPhyAddr
  split
  · split
    · rfl
    · rfl
  · rfl

theorem views_congr {planes : List (Fin 3)}
    (same : ∀ k ∈ planes, later.vframe.virAddr k = frame.vframe.virAddr k) :
    views layout later planes = views layout frame planes := by
  apply List.filterMap_congr
  intro k mem
  rw [same k mem]

theorem views_setVir {planes : List (Fin 3)} (out : i ∉ planes) :
    views layout (frame.setVir i vir) planes = views layout frame planes := by
  apply views_congr
  intro k mem
  exact setVir_other fun same => out (same ▸ mem)

theorem views_away {planes : List (Fin 3)}
    (away : ∀ k ∈ planes, frame.vframe.virAddr k = 0) : views layout frame planes = [] := by
  apply List.filterMap_eq_nil_iff.mpr
  intro k mem
  exact if_pos (away k mem)

theorem views_mapped {planes : List (Fin 3)}
    (mapped : ∀ k ∈ planes, frame.vframe.virAddr k ≠ 0) :
    views layout frame planes = planes.map fun k => ⟨frame.vframe.virAddr k, layout.size k⟩ := by
  rw [← List.filterMap_eq_map]
  apply List.filterMap_congr
  intro k mem
  exact if_neg (mapped k mem)

theorem held_of_layout (accepted : computePlaneLayout frame.vframe = some layout) :
    held frame = views layout frame layout.planes := by
  simp only [held, accepted]

theorem luma_mem (accepted : computePlaneLayout frame.vframe = some layout) :
    0 ∈ layout.planes := by
  obtain ⟨bits, -, ⟨two, -⟩ | ⟨one, -⟩⟩ := layout_cases accepted
  · simp [planes_two two]
  · simp [planes_one one]

end Fields

section Loops

variable {sys : Sys} {layout : PlaneLayout} {log : List SysCall} {frame : FrameData}

/-- One munmap releases the view of its plane. -/
theorem munmapPlane_settles {k : Fin 3} {rest : List (Fin 3)} (fresh : k ∉ rest)
    (mapped : frame.vframe.virAddr k ≠ 0)
    (settled : Outstanding log (views layout frame (k :: rest))) :
    Outstanding (munmapPlane layout k log frame).1
      (views layout (munmapPlane layout k log frame).2 rest) := by
  have first : views layout frame (k :: rest) =
      ⟨frame.vframe.virAddr k, layout.size k⟩ :: views layout frame rest := by
    simp only [views, List.filterMap_cons, if_neg mapped]
  have release := settle_release (e := .munmap (frame.vframe.virAddr k) (layout.size k)) settled
    rfl (by rw [first]; exact List.mem_cons_self)
  rw [Outstanding, munmapPlane, views_setVir fresh, release, first, ← Multiset.cons_coe,
    Multiset.erase_cons_head]

theorem rollback_away {planes : List (Fin 3)} {k : Fin 3}
    (away : k ∈ planes ∨ frame.vframe.virAddr k = 0) :
    (rollback layout planes log frame).2.vframe.virAddr k = 0 := by
  induction planes generalizing log frame with
  | nil =>
    obtain mem | away := away
    · cases mem
    · exact away
  | cons i rest ih => exact ih (setVir_away away)

theorem rollback_alike (planes : List (Fin 3)) (log : List SysCall) (frame : FrameData) :
    Alike (rollback layout planes log frame).2 frame := by
  induction planes generalizing log frame with
  | nil => exact Alike.refl frame
  | cons i rest ih => exact (ih _ _).trans (setVir_alike frame i 0)

/-- The rollback gives back every view of the planes it visits. -/
theorem rollback_settles {planes : List (Fin 3)} (distinct : planes.Nodup)
    (mapped : ∀ k ∈ planes, frame.vframe.virAddr k ≠ 0)
    (settled : Outstanding log (views layout frame planes)) :
    Outstanding (rollback layout planes log frame).1 [] := by
  induction planes generalizing log frame with
  | nil => exact settled
  | cons i rest ih =>
    obtain ⟨fresh, distinct⟩ := List.nodup_cons.mp distinct
    apply ih distinct
    · intro k mem
      have other : k ≠ i := fun same => fresh (same ▸ mem)
      exact fun zero => mapped k (List.mem_cons_of_mem i mem) ((setVir_other other).symm.trans zero)
    · exact munmapPlane_settles fresh (mapped i List.mem_cons_self) settled

theorem mmapPlanes_alike (mapped todo : List (Fin 3)) (log : List SysCall) (frame : FrameData) :
    Alike (mmapPlanes sys layout mapped todo log frame).frame frame := by
  induction todo generalizing mapped log frame with
  | nil => exact Alike.refl frame
  | cons i rest ih =>
    rw [mmapPlanes]
    split
    · exact rollback_alike mapped _ frame
    · exact (ih _ _ _).trans (setVir_alike frame i _)

/-- The loop of `EnsureMapped` has a view of every plane, or it fails and has none. -/
theorem mmapPlanes_settles (sys : Sys) {frame : FrameData} {mapped todo : List (Fin 3)}
    (distinct : (mapped ++ todo).Nodup)
    (here : ∀ k ∈ mapped, frame.vframe.virAddr k ≠ 0)
    (away : ∀ k ∈ todo, frame.vframe.virAddr k = 0)
    (settled : Outstanding log (views layout frame mapped)) :
    let done := mmapPlanes sys layout mapped todo log frame
    Outstanding done.log (views layout done.frame (mapped ++ todo)) ∧
      ((∀ k ∈ mapped ++ todo, done.frame.vframe.virAddr k = 0) ∨
        ∀ k ∈ mapped ++ todo, done.frame.vframe.virAddr k ≠ 0) := by
  induction todo generalizing mapped log frame with
  | nil =>
    rw [List.append_nil]
    exact ⟨settled, .inr here⟩
  | cons i rest ih =>
    simp only [mmapPlanes]
    split
    · -- the failed plane: the ones before it are rolled back, the ones after it were never mapped
      have nothing : ∀ k ∈ mapped ++ i :: rest,
          (rollback layout mapped (log ++ [.mmap (frame.vframe.phyAddr i) (layout.size i) none])
            frame).2.vframe.virAddr k = 0 := by
        intro k mem
        apply rollback_away
        obtain mem | mem := List.mem_append.mp mem
        · exact .inl mem
        · exact .inr (away k mem)
      constructor
      · rw [views_away nothing]
        apply rollback_settles (List.Nodup.of_append_left distinct) here
        apply settle_idle settled
        intro e mem
        cases List.mem_singleton.mp mem
        exact ⟨rfl, rfl⟩
      · exact .inl nothing
    · rename_i vir success
      have fresh : i ∉ mapped := by
        intro mem
        exact List.disjoint_of_nodup_append distinct mem List.mem_cons_self
      have later : i ∉ rest := (List.nodup_cons.mp (List.Nodup.of_append_right distinct)).1
      have order : mapped ++ i :: rest = (mapped ++ [i]) ++ rest := by
        rw [List.append_assoc, List.singleton_append]
      rw [order] at distinct ⊢
      apply ih distinct
      · intro k mem
        by_cases same : k = i
        · rw [same, setVir_same]
          exact vir.2
        · obtain mem | mem := List.mem_append.mp mem
          · exact fun zero => here k mem ((setVir_other same).symm.trans zero)
          · exact absurd (List.mem_singleton.mp mem) same
      · intro k mem
        have other : k ≠ i := fun same => later (same ▸ mem)
        exact (setVir_other other).trans (away k (List.mem_cons_of_mem i mem))
      · have acquire := settle_acquire (L := mappings)
          (e := .mmap (frame.vframe.phyAddr i) (layout.size i) (some vir)) settled rfl
        rw [Outstanding, acquire]
        have more : views layout (frame.setVir i vir) (mapped ++ [i]) =
            views layout frame mapped ++ [⟨vir.1, layout.size i⟩] := by
          have old : views layout (frame.setVir i vir) mapped = views layout frame mapped :=
            views_setVir fresh
          simp only [views, List.filterMap_append] at old ⊢
          rw [old]
          simp [vir.2]
        rw [more, Multiset.cons_coe]
        exact congrArg some (Multiset.coe_eq_coe.mpr (List.perm_append_singleton _ _).symm)

theorem unmapPlanes_alike (planes : List (Fin 3)) (firstErr : Int) (log : List SysCall)
    (frame : FrameData) : Alike (unmapPlanes sys layout planes firstErr log frame).frame frame := by
  induction planes generalizing firstErr log frame with
  | nil => exact Alike.refl frame
  | cons i rest ih =>
    rw [unmapPlanes]
    split
    · exact ih _ _ _
    · exact (ih _ _ _).trans (setVir_alike frame i 0)

theorem unmapPlanes_away {planes : List (Fin 3)} {firstErr : Int} {k : Fin 3}
    (away : k ∈ planes ∨ frame.vframe.virAddr k = 0) :
    (unmapPlanes sys layout planes firstErr log frame).frame.vframe.virAddr k = 0 := by
  induction planes generalizing firstErr log frame with
  | nil =>
    obtain mem | away := away
    · cases mem
    · exact away
  | cons i rest ih =>
    rw [unmapPlanes]
    split
    · rename_i zero
      apply ih
      obtain mem | away := away
      · obtain rfl | mem := List.mem_cons.mp mem
        · exact .inr zero
        · exact .inl mem
      · exact .inr away
    · exact ih (setVir_away away)

/-- The loop of `Unmap` gives back every view, whatever munmap returns. -/
theorem unmapPlanes_settles {planes : List (Fin 3)} {firstErr : Int} (distinct : planes.Nodup)
    (settled : Outstanding log (views layout frame planes)) :
    Outstanding (unmapPlanes sys layout planes firstErr log frame).log [] := by
  induction planes generalizing firstErr log frame with
  | nil => exact settled
  | cons i rest ih =>
    obtain ⟨fresh, distinct⟩ := List.nodup_cons.mp distinct
    rw [unmapPlanes]
    split
    · rename_i zero
      apply ih distinct
      simpa only [views, List.filterMap_cons, if_pos zero] using settled
    · rename_i mapped
      exact ih distinct (munmapPlane_settles fresh mapped settled)

end Loops

section Operations

variable {sys : Sys} {log : List SysCall} {frame : FrameData}

/-- Calls that neither map memory nor give any back. -/
def quiet : SysCall → Bool
  | .mmap .. | .munmap .. | .memFree .. | .free .. => false
  | _ => true

def Quiet (calls : List SysCall) : Prop := ∀ e ∈ calls, quiet e = true

theorem Quiet.neutral {calls : List SysCall} (silent : Quiet calls) :
    ∀ e ∈ calls, mappings.acquired e = none ∧ mappings.released e = none := by
  intro e mem
  have here := silent e mem
  cases e with
  | mmap phy size result => cases here
  | munmap vir size => cases here
  | _ => exact ⟨rfl, rfl⟩

theorem Quiet.append {first second : List SysCall} (left : Quiet first) (right : Quiet second) :
    Quiet (first ++ second) :=
  List.forall_mem_append.mpr ⟨left, right⟩

theorem copyPlanes_quiet (layout : PlaneLayout) (frame : FrameData) :
    Quiet (copyPlanes layout frame) := by
  intro e mem
  obtain ⟨i, -, rfl⟩ := List.mem_map.mp mem
  rfl

theorem copyRows_quiet (vframe : VideoFrame) : Quiet (copyRows vframe) := by
  intro e mem
  obtain ⟨row, -, rfl⟩ := List.mem_map.mp mem
  rfl

theorem releaseChnFrame_quiet (frame : FrameData) : Quiet (releaseChnFrame frame) := by
  unfold releaseChnFrame
  split
  · simp [Quiet, quiet]
  · split
    · simp [Quiet, quiet]
    · simp [Quiet]

/-- The allocating loop of `Clone` neither maps nor unmaps. -/
theorem allocPlanes_quiet (sys : Sys) (layout : PlaneLayout) (src : FrameData)
    (planes : List (Fin 3)) (log : List SysCall) (dest : FrameData) :
    ∃ calls, Quiet calls ∧ (allocPlanes sys layout src planes log dest).log = log ++ calls := by
  induction planes generalizing log dest with
  | nil => exact ⟨[], by simp [Quiet], by simp [allocPlanes]⟩
  | cons i rest ih =>
    simp only [allocPlanes]
    split
    · exact ⟨_, by simp [Quiet, quiet], rfl⟩
    · obtain ⟨calls, silent, same⟩ := ih _ _
      rw [same, List.append_assoc]
      exact ⟨_, Quiet.append (by simp [Quiet, quiet]) silent, rfl⟩

theorem Balanced.idle {calls : List SysCall} (balanced : Balanced log frame)
    (silent : Quiet calls) : Balanced (log ++ calls) frame :=
  ⟨settle_idle balanced.settled silent.neutral, balanced.whole⟩

theorem Balanced.of_layout {layout : PlaneLayout}
    (accepted : computePlaneLayout frame.vframe = some layout)
    (settled : Outstanding log (views layout frame layout.planes))
    (whole : (∀ i ∈ layout.planes, frame.vframe.virAddr i = 0) ∨
      ∀ i ∈ layout.planes, frame.vframe.virAddr i ≠ 0) : Balanced log frame := by
  constructor
  · rw [held_of_layout accepted]
    exact settled
  · intro other same
    rw [accepted] at same
    cases same
    exact whole

/-- `EnsureMapped` leaves everything as it is, or it maps a frame that is not
mapped and not allocated. -/
theorem ensureMapped_cases (sys : Sys) (log : List SysCall) (frame : FrameData) :
    (∃ ret, ensureMapped sys log frame = ⟨log, frame, ret⟩ ∧
        (ret = 0 → frame.vframe.virAddr 0 ≠ 0)) ∨
      ∃ layout, computePlaneLayout frame.vframe = some layout ∧ frame.vframe.virAddr 0 = 0 ∧
        frame.memId ≠ .sys ∧ ensureMapped sys log frame =
          mmapPlanes sys layout [] layout.planes log (deriveUv layout frame) := by
  unfold ensureMapped
  split
  · exact .inl ⟨-2, rfl, fun zero => by cases zero⟩
  · rename_i layout accepted
    split
    · rename_i mapped
      exact .inl ⟨0, rfl, fun _ => mapped⟩
    · rename_i away
      split
      · exact .inl ⟨-3, rfl, fun zero => by cases zero⟩
      · split
        · exact .inl ⟨-5, rfl, fun zero => by cases zero⟩
        · rename_i owner
          exact .inr ⟨layout, accepted, not_not.mp away, owner, rfl⟩

theorem ensureMapped_alike (sys : Sys) (log : List SysCall) (frame : FrameData) :
    Alike (ensureMapped sys log frame).frame frame := by
  obtain ⟨ret, same, -⟩ | ⟨layout, -, -, -, maps⟩ := ensureMapped_cases sys log frame
  · rw [same]
    exact Alike.refl frame
  · rw [maps]
    exact (mmapPlanes_alike [] layout.planes log _).trans (deriveUv_alike layout frame)

theorem ensureMapped_balanced (balanced : Balanced log frame) :
    Balanced (ensureMapped sys log frame).log (ensureMapped sys log frame).frame := by
  have alike := ensureMapped_alike sys log frame
  obtain ⟨ret, same, -⟩ | ⟨layout, accepted, luma, -, maps⟩ := ensureMapped_cases sys log frame
  · rw [same]
    exact balanced
  · rw [maps] at alike ⊢
    -- the luma plane is not mapped, so none is: the loop starts from nothing
    have away : ∀ k ∈ layout.planes, frame.vframe.virAddr k = 0 := by
      obtain away | here := balanced.whole layout accepted
      · exact away
      · exact absurd luma (here 0 (luma_mem accepted))
    have settled := balanced.settled
    rw [held_of_layout accepted, views_away away] at settled
    have still : ∀ k ∈ layout.planes, (deriveUv layout frame).vframe.virAddr k = 0 := by
      rw [deriveUv_virAddr]
      exact away
    have none : ∀ k ∈ [], (deriveUv layout frame).vframe.virAddr k ≠ 0 := by
      intro k mem
      cases mem
    have start : Outstanding log (views layout (deriveUv layout frame) []) := settled
    obtain ⟨after, whole⟩ := mmapPlanes_settles sys (planes_nodup layout) none still start
    exact Balanced.of_layout (alike.layout.trans accepted) after whole

/-- `Unmap` leaves an unsupported frame alone and runs its loop on any other. -/
theorem unmap_cases (sys : Sys) (log : List SysCall) (frame : FrameData) :
    unmap sys log frame = ⟨log, frame, -1⟩ ∨
      ∃ layout, computePlaneLayout frame.vframe = some layout ∧ unmap sys log frame =
        unmapPlanes sys layout layout.planes 0 log (deriveUv layout frame) := by
  unfold unmap
  split
  · exact .inl rfl
  · rename_i layout accepted
    exact .inr ⟨layout, accepted, rfl⟩

theorem unmap_alike (sys : Sys) (log : List SysCall) (frame : FrameData) :
    Alike (unmap sys log frame).frame frame := by
  obtain same | ⟨layout, -, loop⟩ := unmap_cases sys log frame
  · rw [same]
    exact Alike.refl frame
  · rw [loop]
    exact (unmapPlanes_alike layout.planes 0 log _).trans (deriveUv_alike layout frame)

theorem unmap_balanced (balanced : Balanced log frame) :
    Balanced (unmap sys log frame).log (unmap sys log frame).frame := by
  have alike := unmap_alike sys log frame
  obtain same | ⟨layout, accepted, loop⟩ := unmap_cases sys log frame
  · rw [same]
    exact balanced
  · rw [loop] at alike ⊢
    have away : ∀ k ∈ layout.planes, (unmapPlanes sys layout layout.planes 0 log
        (deriveUv layout frame)).frame.vframe.virAddr k = 0 :=
      fun k mem => unmapPlanes_away (.inl mem)
    have settled := balanced.settled
    have same : views layout (deriveUv layout frame) layout.planes =
        views layout frame layout.planes :=
      views_congr fun k mem => congrFun deriveUv_virAddr k
    rw [held_of_layout accepted, ← same] at settled
    apply Balanced.of_layout (alike.layout.trans accepted)
    · rw [views_away away]
      exact unmapPlanes_settles (planes_nodup layout) settled
    · exact .inl away

/-- Every operation but `Unmap` does nothing, or it is `EnsureMapped` and calls
that neither map nor unmap. -/
theorem apply_reader {op : Op} (reader : op ≠ .unmap) (sys : Sys) (log : List SysCall)
    (frame : FrameData) :
    op.apply sys log frame = (log, frame) ∨ ∃ calls, Quiet calls ∧
      op.apply sys log frame =
        ((ensureMapped sys log frame).log ++ calls, (ensureMapped sys log frame).frame) := by
  cases op with
  | unmap => exact absurd rfl reader
  | ensureMapped =>
    right
    exact ⟨[], by simp [Quiet], by simp [Op.apply]⟩
  | copy2Host =>
    simp only [Op.apply, copy2Host]
    split
    · exact .inl rfl
    · rename_i layout accepted
      right
      split
      · exact ⟨[], by simp [Quiet], by simp⟩
      · exact ⟨_, copyPlanes_quiet layout _, rfl⟩
  | copy2Mat =>
    simp only [Op.apply, copy2Mat]
    split
    · exact .inl rfl
    · split
      · exact .inl rfl
      · right
        split
        · exact ⟨[], by simp [Quiet], by simp⟩
        · exact ⟨_, copyRows_quiet _, rfl⟩
  | cloneSource =>
    simp only [Op.apply, clone]
    split
    · exact .inl rfl
    · rename_i layout accepted
      right
      split
      · exact ⟨[], by simp [Quiet], by simp⟩
      · obtain ⟨calls, silent, same⟩ := allocPlanes_quiet sys layout
          (ensureMapped sys log frame).frame layout.planes (ensureMapped sys log frame).log
          (ensureMapped sys log frame).frame.copied
        exact ⟨calls, silent, by rw [same]⟩

theorem apply_alike (op : Op) (sys : Sys) (log : List SysCall) (frame : FrameData) :
    Alike (op.apply sys log frame).2 frame := by
  by_cases reader : op = .unmap
  · rw [reader]
    exact unmap_alike sys log frame
  · obtain same | ⟨calls, -, same⟩ := apply_reader reader sys log frame
    · rw [same]
      exact Alike.refl frame
    · rw [same]
      exact ensureMapped_alike sys log frame

theorem apply_balanced (op : Op) (balanced : Balanced log frame) :
    Balanced (op.apply sys log frame).1 (op.apply sys log frame).2 := by
  by_cases reader : op = .unmap
  · rw [reader]
    exact unmap_balanced balanced
  · obtain same | ⟨calls, silent, same⟩ := apply_reader reader sys log frame
    · rw [same]
      exact balanced
    · rw [same]
      exact (ensureMapped_balanced balanced).idle silent

theorem operate_alike (ops : List Op) (sys : Sys) (log : List SysCall) (frame : FrameData) :
    Alike (operate sys ops log frame).2 frame := by
  induction ops generalizing log frame with
  | nil => exact Alike.refl frame
  | cons op rest ih => exact (ih _ _).trans (apply_alike op sys log frame)

/-- Between two operations the views of the frame are the outstanding ones. -/
theorem operate_balanced (sys : Sys) (ops : List Op) (balanced : Balanced log frame) :
    Balanced (operate sys ops log frame).1 (operate sys ops log frame).2 := by
  induction ops generalizing log frame with
  | nil => exact balanced
  | cons op rest ih => exact ih (apply_balanced op balanced)

/-- A list of munmaps of the outstanding views leaves none. -/
theorem munmaps_settle {kept : List View} (settled : Outstanding log kept) :
    Outstanding (log ++ kept.map fun view => .munmap view.vir view.size) [] := by
  refine settle_release_all (fun view => rfl) kept ?_
  have same : kept.map (fun view => View.mk view.vir view.size) = kept := List.map_id kept
  rw [same, Multiset.coe_nil, Multiset.add_zero]
  exact settled

/-- The destruction of a frame that is not allocated gives back all its views. -/
theorem destroy_settles (balanced : Balanced log frame) (owner : frame.memId ≠ .sys) :
    Outstanding (destroy sys log frame).log [] := by
  simp only [destroy, if_neg owner]
  split
  · rename_i unsupported
    have settled := balanced.settled
    rw [storagePlanarNum_eq] at unsupported
    simp only [held, computePlaneLayout, unsupported] at settled
    exact settled
  · rename_i planarNum bitNum storage
    apply settle_idle _ (releaseChnFrame_quiet frame).neutral
    cases accepted : computePlaneLayout frame.vframe with
    | none =>
      rw [storagePlanarNum_eq] at storage
      simp only [computePlaneLayout, storage] at accepted
      split at accepted
      · cases accepted
      · cases accepted
    | some layout =>
      have settled := balanced.settled
      rw [held_of_layout accepted] at settled
      obtain away | mapped := balanced.whole layout accepted
      · rw [views_away away] at settled
        rw [destroyViews_away accepted storage away, List.map_nil, List.append_nil]
        exact settled
      · rw [views_mapped mapped] at settled
        rw [destroyViews_mapped accepted storage mapped]
        exact munmaps_settle settled

theorem unmapped_balanced (unmapped : ∀ i, frame.vframe.virAddr i = 0) : Balanced [] frame := by
  constructor
  · have nothing : held frame = [] := by
      unfold held
      split
      · rfl
      · exact views_away fun k _ => unmapped k
    rw [nothing]
    rfl
  · intro layout _
    exact .inl fun k _ => unmapped k

/-- Over the life of a frame that is not allocated, the munmaps are the
successful mmaps, address and size, and each comes after its mmap. -/
theorem mappings_balance (sys : Sys) (ops : List Op) (frame : FrameData)
    (owner : frame.memId ≠ .sys) (unmapped : ∀ i, frame.vframe.virAddr i = 0) :
    (mappings.releases (life sys ops [] frame)).Perm (mappings.acquisitions (life sys ops [] frame)) ∧
      ∀ start rest, start ++ rest = life sys ops [] frame → ∀ view,
        (mappings.releases start).count view ≤ (mappings.acquisitions start).count view := by
  have balanced := operate_balanced sys ops (unmapped_balanced unmapped)
  have same := (operate_alike ops sys [] frame).memId
  have settled : Outstanding (life sys ops [] frame) [] :=
    destroy_settles balanced (by rwa [same])
  constructor
  · exact settled_perm settled
  · intro start rest split view
    exact settled_prefix settled split view

/-- An NV12 frame of the decoder whose plane products wrap around 2^32. -/
def wrappedFrame : FrameData where
  memId := .vdec
  grp := 0
  chn := 0
  vframe :=
    { imgFormat := .yuv420SemiPlanar, width := 1920, height := 1080, picStride := 4000000,
      frameSize := 0, phyAddr := fun i => if i = 0 then 4096 else 0, virAddr := fun _ => 0 }

/-- A system that maps every address to itself, except on its second call. -/
def failingOnce : Sys where
  mmap log phy _ := if here : phy ≠ 0 ∧ log.length ≠ 1 then some ⟨phy, here.1⟩ else none
  munmap _ _ _ := 0
  memAlloc _ _ := none
  memFree _ _ _ := 0

theorem wrappedFrame_balance :
    (mappings.releases (life failingOnce [.copy2Host, .ensureMapped, .unmap, .cloneSource] []
      wrappedFrame)).Perm (mappings.acquisitions (life failingOnce
        [.copy2Host, .ensureMapped, .unmap, .cloneSource] [] wrappedFrame)) ∧
      (mappings.acquisitions (life failingOnce [.copy2Host, .ensureMapped, .unmap, .cloneSource] []
        wrappedFrame)).length = 5 :=
  ⟨(mappings_balance failingOnce _ wrappedFrame (by decide) fun _ => rfl).1, by decide⟩

end Operations

end MappingBalance
