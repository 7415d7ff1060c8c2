import AxVision.MatchedTraces
import Mathlib.Algebra.Order.Group.Multiset

/-!
# The resources of an inference engine

`Engine::Init` starts the NPU runtime, creates a model handle and allocates a
buffer for every input and output; every failure behind the start of the
runtime goes through `Destroy`. Whatever fails in whatever order, the life of
an engine gives back exactly what it has obtained.
-/

namespace EngineResources

open MatchedTraces

/-- A return value that is not 0. -/
abbrev Code := {ret : Int // ret ≠ 0}

/-- A model handle, which is no null pointer once it is created. -/
abbrev Handle := {address : UInt64 // address ≠ 0}

/-- The two addresses of an allocation. -/
structure Addresses where
  phy : UInt64
  vir : UInt64
  deriving DecidableEq

/-- `AX_ENGINE_IO_INFO_T`: the sizes of the inputs and of the outputs. -/
structure IoInfo where
  inputs : List UInt32
  outputs : List UInt32

/-- `AX_ENGINE_IO_BUFFER_T`. -/
structure IoBuffer where
  addresses : Addresses
  nSize : UInt32
  deriving DecidableEq

/-- `AX_ENGINE_IO_T`: the arrays with their lengths. -/
structure Io where
  inputs : List IoBuffer := []
  outputs : List IoBuffer := []

inductive SysCall where
  | engineInit (ret : Int)
  | engineDeinit
  | readFile (ok : Bool)
  | createHandle (result : Except Code Handle)
  | createContext (handle : Handle) (ret : Int)
  | getIOInfo (handle : Handle) (result : Except Code IoInfo)
  | destroyHandle (handle : Handle) (ret : Int)
  | memAlloc (cached : Bool) (size : UInt32) (result : Except Code Addresses)
  | memFree (addresses : Addresses)

/-- The answers of the system: a function of the calls made so far. -/
structure Sys where
  engineInit : List SysCall → Int
  readFile : List SysCall → Bool
  createHandle : List SysCall → Except Code Handle
  createContext : List SysCall → Handle → Int
  getIOInfo : List SysCall → Handle → Except Code IoInfo
  destroyHandle : List SysCall → Handle → Int
  memAlloc : List SysCall → Bool → UInt32 → Except Code Addresses

structure Engine where
  handle : Option Handle := none
  ioInfo : Option IoInfo := none
  ioData : Io := {}
  isReleased : Bool := false
  engineInited : Bool := false
  handleValid : Bool := false

/-- What an operation leaves: the calls so far, the engine and the return value. -/
structure Done where
  log : List SysCall
  engine : Engine
  ret : Int

section Buffers

/-- `FreeIoIndex` on the buffers before an index. -/
def freeIoIndex (buffers : List IoBuffer) : List SysCall :=
  buffers.map fun buffer => .memFree buffer.addresses

def freeIo (io : Io) : List SysCall := freeIoIndex io.inputs ++ freeIoIndex io.outputs

/-- What a loop of `PrepareIo` leaves: the calls so far, the buffers before the
index it has come to, and the last return value. -/
structure Filled where
  log : List SysCall
  buffers : List IoBuffer
  ret : Int

def allocBuffers (sys : Sys) (cached : Bool) :
    List UInt32 → List SysCall → List IoBuffer → Filled
  | [], log, done => ⟨log, done, 0⟩
  | size :: rest, log, done =>
    match sys.memAlloc log cached size with
    | .error ret => ⟨log ++ [.memAlloc cached size (.error ret)], done, ret⟩
    | .ok addresses =>
      allocBuffers sys cached rest (log ++ [.memAlloc cached size (.ok addresses)])
        (done ++ [⟨addresses, size⟩])

/-- What `PrepareIo` leaves. -/
structure Prepared where
  log : List SysCall
  io : Io
  ret : Int

/-- `PrepareIo`; `strategy` tells of inputs and outputs whether they are cached. -/
def prepareIo (sys : Sys) (info : IoInfo) (strategy : Bool × Bool) (log : List SysCall) :
    Prepared :=
  let inputs := allocBuffers sys strategy.1 info.inputs log []
  if inputs.ret ≠ 0 then ⟨inputs.log ++ freeIoIndex inputs.buffers, {}, inputs.ret⟩
  else
    let outputs := allocBuffers sys strategy.2 info.outputs inputs.log []
    if outputs.ret ≠ 0 then
      ⟨outputs.log ++ freeIoIndex inputs.buffers ++ freeIoIndex outputs.buffers, {}, outputs.ret⟩
    else ⟨outputs.log, ⟨inputs.buffers, outputs.buffers⟩, 0⟩

end Buffers

section Operations

variable (sys : Sys)

/-- The handle that `Destroy` gives back, if the engine has one. -/
def Engine.validHandle (engine : Engine) : Option Handle :=
  if engine.handleValid then engine.handle else none

/-- `Destroy` from the handle to the runtime. -/
def releaseHandle (log : List SysCall) (engine : Engine) : Done :=
  match engine.validHandle with
  | some handle =>
    let ret := sys.destroyHandle log handle
    ⟨log ++ [.destroyHandle handle ret], { engine with handle := none, handleValid := false }, ret⟩
  | none => ⟨log, engine, 0⟩

/-- The end of `Destroy`. -/
def releaseRuntime (before : Done) : Done :=
  if before.engine.engineInited then
    ⟨before.log ++ [.engineDeinit], { before.engine with engineInited := false }, before.ret⟩
  else before

/-- `Destroy`. -/
def destroy (log : List SysCall) (engine : Engine) : Done :=
  if engine.isReleased then ⟨log, engine, 0⟩
  else
    releaseRuntime (releaseHandle sys (log ++ freeIo engine.ioData)
      { engine with isReleased := true, ioData := {}, ioInfo := none })

/-- The end of a failure path: `Destroy`, and the return value of the failed call. -/
def abandon (log : List SysCall) (engine : Engine) (ret : Int) : Done :=
  { destroy sys log engine with ret := ret }

/-- `Init` from the context on, with the handle created. -/
def configure (log : List SysCall) (engine : Engine) (handle : Handle) : Done :=
  let ret := sys.createContext log handle
  let log := log ++ [.createContext handle ret]
  if ret ≠ 0 then abandon sys log engine ret
  else
    match sys.getIOInfo log handle with
    | .error ret =>
      abandon sys (log ++ [.getIOInfo handle (.error ret)]) { engine with ioInfo := none } ret
    | .ok info =>
      let prepared := prepareIo sys info (false, true) (log ++ [.getIOInfo handle (.ok info)])
      let engine := { engine with ioInfo := some info, ioData := prepared.io }
      if prepared.ret ≠ 0 then abandon sys prepared.log engine prepared.ret
      else ⟨prepared.log, engine, 0⟩

/-- `Init` from the file on, with the runtime started. -/
def load (log : List SysCall) (engine : Engine) : Done :=
  let ok := sys.readFile log
  let log := log ++ [.readFile ok]
  if !ok then abandon sys log engine (-1)
  else
    match sys.createHandle log with
    | .error ret =>
      abandon sys (log ++ [.createHandle (.error ret)])
        { engine with handle := none, handleValid := false } ret
    | .ok handle =>
      configure sys (log ++ [.createHandle (.ok handle)])
        { engine with handle := some handle, handleValid := true } handle

/-- `Init`. -/
def init (log : List SysCall) (engine : Engine) : Done :=
  let engine := { engine with isReleased := false }
  let ret := sys.engineInit log
  let log := log ++ [.engineInit ret]
  if ret ≠ 0 then ⟨log, engine, ret⟩
  else load sys log { engine with engineInited := true }

/-- The calls and the engine after `Init` and `Destroy` in some order, where `Init`
is never called while `up`: its last call succeeded and `Destroy` has not followed. -/
inductive Run : List SysCall → Engine → (up : Bool) → Prop
  | start : Run [] {} false
  | init {log : List SysCall} {engine : Engine} (run : Run log engine false) :
      Run (init sys log engine).log (init sys log engine).engine ((init sys log engine).ret = 0)
  | destroy {log : List SysCall} {engine : Engine} {up : Bool} (run : Run log engine up) :
      Run (destroy sys log engine).log (destroy sys log engine).engine false

end Operations

section Ledgers

inductive Resource where
  | buffer (addresses : Addresses)
  | handle (handle : Handle)
  | runtime
  deriving DecidableEq

/-- What the successful calls acquire, and what the others give back. -/
def resources : Ledger SysCall Resource where
  acquired
    | .engineInit ret => if ret = 0 then some .runtime else none
    | .createHandle (.ok handle) => some (.handle handle)
    | .memAlloc _ _ (.ok addresses) => some (.buffer addresses)
    | _ => none
  released
    | .engineDeinit => some .runtime
    | .destroyHandle handle _ => some (.handle handle)
    | .memFree addresses => some (.buffer addresses)
    | _ => none
  apart e releases := by
    cases e with
    | engineDeinit => rfl
    | destroyHandle handle ret => rfl
    | memFree addresses => rfl
    | _ => exact absurd rfl releases

def bufferResources (buffers : List IoBuffer) : Multiset Resource :=
  ↑(buffers.map fun buffer => Resource.buffer buffer.addresses)

def handleResources : Option Handle → Multiset Resource
  | none => 0
  | some handle => {.handle handle}

def runtimeResources (engineInited : Bool) : Multiset Resource :=
  if engineInited then {.runtime} else 0

/-- The resources that an engine knows of. -/
def holdings (engine : Engine) : Multiset Resource :=
  bufferResources engine.ioData.inputs + bufferResources engine.ioData.outputs +
    handleResources engine.validHandle + runtimeResources engine.engineInited

/-- The calls so far have acquired and not released exactly these resources. -/
def Outstanding (log : List SysCall) (held : Multiset Resource) : Prop :=
  resources.settle 0 log = some held

/-- An engine that has nothing to give back. -/
structure Idle (engine : Engine) : Prop where
  io : engine.ioData = {}
  handle : engine.validHandle = none
  runtime : engine.engineInited = false

variable {sys : Sys} {log : List SysCall} {engine : Engine} {held : Multiset Resource}

@[simp] theorem bufferResources_nil : bufferResources [] = 0 := rfl

theorem bufferResources_concat (buffers : List IoBuffer) (buffer : IoBuffer) :
    bufferResources (buffers ++ [buffer]) = .buffer buffer.addresses ::ₘ bufferResources buffers := by
  rw [bufferResources, List.map_append, ← Multiset.coe_add, Multiset.add_comm]
  rfl

theorem Idle.holdings (idle : Idle engine) : holdings engine = 0 := by
  rw [EngineResources.holdings, idle.io, idle.handle, idle.runtime]
  rfl

/-- A call that neither acquires nor releases. -/
theorem Outstanding.idle (settled : Outstanding log held) (call : SysCall)
    (acquires : resources.acquired call = none) (releases : resources.released call = none) :
    Outstanding (log ++ [call]) held := by
  refine settle_idle settled fun e mem => ?_
  rw [List.mem_singleton.mp mem]
  exact ⟨acquires, releases⟩

theorem freeIoIndex_settles (buffers : List IoBuffer)
    (settled : Outstanding log (bufferResources buffers + held)) :
    Outstanding (log ++ freeIoIndex buffers) held :=
  settle_release_all (fun _ => rfl) buffers settled

theorem freeIo_settles (io : Io)
    (settled : Outstanding log (bufferResources io.inputs + bufferResources io.outputs + held)) :
    Outstanding (log ++ freeIo io) held := by
  rw [Multiset.add_assoc] at settled
  rw [freeIo, ← List.append_assoc]
  exact freeIoIndex_settles _ (freeIoIndex_settles _ settled)

/-- A loop of allocations adds the buffers it has come to. -/
theorem allocBuffers_settles (sys : Sys) (cached : Bool) (sizes : List UInt32) {done : List IoBuffer}
    (settled : Outstanding log (bufferResources done + held)) :
    Outstanding (allocBuffers sys cached sizes log done).log
      (bufferResources (allocBuffers sys cached sizes log done).buffers + held) := by
  induction sizes generalizing log done with
  | nil => exact settled
  | cons size rest ih =>
    simp only [allocBuffers]
    split
    · exact settled.idle _ rfl rfl
    · apply ih
      rw [bufferResources_concat, Multiset.cons_add]
      exact settle_acquire settled rfl

/-- `PrepareIo` gives back what it has allocated or hands it over. -/
theorem prepareIo_settles (sys : Sys) (info : IoInfo) (strategy : Bool × Bool)
    (settled : Outstanding log held) :
    Outstanding (prepareIo sys info strategy log).log
      (bufferResources (prepareIo sys info strategy log).io.inputs +
        bufferResources (prepareIo sys info strategy log).io.outputs + held) := by
  have none_yet {log : List SysCall} {held : Multiset Resource} (settled : Outstanding log held) :
      Outstanding log (bufferResources [] + held) := by
    rwa [bufferResources_nil, Multiset.zero_add]
  have inputs := allocBuffers_settles sys strategy.1 info.inputs (none_yet settled)
  have outputs := allocBuffers_settles sys strategy.2 info.outputs (none_yet inputs)
  simp only [prepareIo]
  split
  · simp only [bufferResources_nil, Multiset.zero_add]
    exact freeIoIndex_settles _ inputs
  · split
    · simp only [bufferResources_nil, Multiset.zero_add]
      rw [add_left_comm] at outputs
      exact freeIoIndex_settles _ (freeIoIndex_settles _ outputs)
    · rw [add_left_comm, ← Multiset.add_assoc] at outputs
      exact outputs

end Ledgers

section Lives

variable {sys : Sys} {log : List SysCall} {engine : Engine} {up : Bool}

theorem releaseHandle_settles (sys : Sys) (io : engine.ioData = {})
    (settled : Outstanding log (handleResources engine.validHandle +
      runtimeResources engine.engineInited)) :
    Outstanding (releaseHandle sys log engine).log
        (runtimeResources (releaseHandle sys log engine).engine.engineInited) ∧
      (releaseHandle sys log engine).engine.ioData = {} ∧
      (releaseHandle sys log engine).engine.validHandle = none := by
  unfold releaseHandle
  split
  · rename_i handle valid
    rw [valid] at settled
    refine ⟨?_, io, rfl⟩
    have release := settle_release (e := .destroyHandle handle (sys.destroyHandle log handle))
      settled rfl (Multiset.mem_add.mpr (Or.inl (Multiset.mem_singleton_self _)))
    rwa [handleResources, Multiset.singleton_add, Multiset.erase_cons_head] at release
  · rename_i invalid
    rw [invalid, handleResources, Multiset.zero_add] at settled
    exact ⟨settled, io, invalid⟩

theorem releaseRuntime_settles {before : Done} (io : before.engine.ioData = {})
    (invalid : before.engine.validHandle = none)
    (settled : Outstanding before.log (runtimeResources before.engine.engineInited)) :
    Outstanding (releaseRuntime before).log 0 ∧ Idle (releaseRuntime before).engine := by
  unfold releaseRuntime
  split
  · rename_i inited
    rw [inited] at settled
    have release := settle_release (e := .engineDeinit) settled rfl (Multiset.mem_singleton_self _)
    exact ⟨release, io, invalid, rfl⟩
  · rename_i stopped
    have stopped := Bool.eq_false_iff.mpr stopped
    rw [stopped] at settled
    exact ⟨settled, io, invalid, stopped⟩

/-- `Destroy` of an engine that is not released gives back all it knows of. -/
theorem destroy_settles (sys : Sys) (settled : Outstanding log (holdings engine))
    (unreleased : engine.isReleased = false) :
    Outstanding (destroy sys log engine).log 0 ∧ Idle (destroy sys log engine).engine := by
  rw [holdings, Multiset.add_assoc] at settled
  rw [destroy, unreleased, if_neg Bool.false_ne_true]
  let freed : Engine := { engine with isReleased := true, ioData := {}, ioInfo := none }
  have io : freed.ioData = {} := rfl
  obtain ⟨running, io, invalid⟩ := releaseHandle_settles sys io (freeIo_settles _ settled)
  exact releaseRuntime_settles io invalid running

/-- What the calls of an engine have acquired and not released is what it knows of;
unless its last `Init` succeeded, that is nothing. -/
structure Kept (log : List SysCall) (engine : Engine) (up : Bool) : Prop where
  settled : Outstanding log (holdings engine)
  down : up = false → Idle engine
  live : up = true → engine.isReleased = false

theorem Kept.of_destroyed {log : List SysCall} {engine : Engine}
    (after : Outstanding log 0 ∧ Idle engine) : Kept log engine false :=
  ⟨by rw [after.2.holdings]; exact after.1, fun _ => after.2, fun lies => absurd lies (by decide)⟩

/-- A failure path ends with an idle engine and a return value that is not 0. -/
theorem abandon_kept (sys : Sys) (settled : Outstanding log (holdings engine))
    (unreleased : engine.isReleased = false) {ret : Int} (failed : ret ≠ 0) :
    Kept (abandon sys log engine ret).log (abandon sys log engine ret).engine
      ((abandon sys log engine ret).ret = 0) := by
  have down : decide ((abandon sys log engine ret).ret = 0) = false := decide_eq_false failed
  rw [down]
  exact Kept.of_destroyed (destroy_settles sys settled unreleased)

theorem configure_kept (sys : Sys) (handle : Handle) (settled : Outstanding log (holdings engine))
    (io : engine.ioData = {}) (unreleased : engine.isReleased = false) :
    Kept (configure sys log engine handle).log (configure sys log engine handle).engine
      ((configure sys log engine handle).ret = 0) := by
  simp only [configure]
  split
  · exact abandon_kept sys (settled.idle _ rfl rfl) unreleased ‹_›
  · split
    · rename_i ret _
      refine abandon_kept sys ?_ ?_ ret.2
      · exact (settled.idle _ rfl rfl).idle _ rfl rfl
      · exact unreleased
    · rename_i info _
      have prepared := prepareIo_settles sys info (false, true)
        ((settled.idle (.createContext handle (sys.createContext log handle)) rfl rfl).idle
          (.getIOInfo handle (.ok info)) rfl rfl)
      rw [holdings, io, bufferResources_nil, Multiset.zero_add, Multiset.zero_add,
        ← Multiset.add_assoc] at prepared
      split
      · refine abandon_kept sys ?_ ?_ ‹_›
        · exact prepared
        · exact unreleased
      · have up : decide ((0 : Int) = 0) = true := rfl
        exact ⟨prepared, fun down => absurd (up.symm.trans down) (by decide), fun _ => unreleased⟩

theorem load_kept (sys : Sys) (settled : Outstanding log (holdings engine))
    (io : engine.ioData = {}) (invalid : engine.validHandle = none)
    (unreleased : engine.isReleased = false) :
    Kept (load sys log engine).log (load sys log engine).engine ((load sys log engine).ret = 0) := by
  simp only [load]
  split
  · exact abandon_kept sys (settled.idle _ rfl rfl) unreleased (by decide)
  · split
    · rename_i ret _
      rw [holdings, invalid] at settled
      refine abandon_kept sys ?_ ?_ ret.2
      · exact (settled.idle _ rfl rfl).idle _ rfl rfl
      · exact unreleased
    · rename_i handle _
      refine configure_kept sys handle ?_ io unreleased
      have created := settle_acquire (e := .createHandle (.ok handle))
        (settled.idle (.readFile (sys.readFile log)) rfl rfl) rfl
      rw [holdings, io, invalid, ← Multiset.singleton_add, ← Multiset.add_assoc] at created
      rw [holdings, io]
      exact created

/-- `Init` of an idle engine. -/
theorem init_kept (sys : Sys) (settled : Outstanding log (holdings engine)) (idle : Idle engine) :
    Kept (init sys log engine).log (init sys log engine).engine ((init sys log engine).ret = 0) := by
  simp only [init]
  split
  · rename_i failed
    have down : decide (sys.engineInit log = 0) = false := decide_eq_false failed
    rw [down]
    refine ⟨settled.idle _ (if_neg failed) rfl, fun _ => ⟨idle.io, idle.handle, idle.runtime⟩, ?_⟩
    exact fun lies => absurd lies (by decide)
  · rename_i started
    have acquires : resources.acquired (.engineInit (sys.engineInit log)) = some .runtime :=
      if_pos (not_not.mp started)
    have running := settle_acquire settled acquires
    rw [idle.holdings] at running
    let started : Engine := { engine with isReleased := false, engineInited := true }
    have io : started.ioData = {} := idle.io
    have invalid : started.validHandle = none := idle.handle
    have held : holdings started = {.runtime} := by
      rw [holdings, io, invalid]
      rfl
    refine load_kept sys ?_ io invalid rfl
    rw [held]
    exact running

theorem run_kept (run : Run sys log engine up) : Kept log engine up := by
  induction run with
  | start => exact ⟨rfl, fun _ => ⟨rfl, rfl, rfl⟩, fun lies => absurd lies (by decide)⟩
  | init run ih => exact init_kept sys ih.settled (ih.down rfl)
  | @destroy log engine up run ih =>
    cases released : engine.isReleased with
    | false => exact Kept.of_destroyed (destroy_settles sys ih.settled released)
    | true =>
      have down : up = false := by
        cases up with
        | false => rfl
        | true => cases (ih.live rfl).symm.trans released
      rw [destroy, released, if_pos rfl]
      exact down ▸ ih

/-- At the end of the life of an engine nothing is outstanding. -/
theorem destroyed_settles (run : Run sys log engine up) :
    Outstanding (destroy sys log engine).log 0 := by
  have kept := run_kept (Run.destroy run)
  have settled := kept.settled
  rwa [(kept.down rfl).holdings] at settled

/-- Over the life of an engine the buffers, handles and runtimes that are given
back are the ones that were obtained, and each is given back after it was obtained. -/
theorem resources_balance (run : Run sys log engine up) :
    (resources.releases (destroy sys log engine).log).Perm
        (resources.acquisitions (destroy sys log engine).log) ∧
      ∀ start rest, start ++ rest = (destroy sys log engine).log → ∀ resource,
        (resources.releases start).count resource ≤ (resources.acquisitions start).count resource := by
  have settled := destroyed_settles run
  exact ⟨settled_perm settled, fun start rest split resource => settled_prefix settled split resource⟩

/-- A model with one input and two outputs, on a system where the third of the
first allocations fails. -/
def shortOfMemory : Sys where
  engineInit _ := 0
  readFile _ := true
  createHandle _ := .ok ⟨4096, by decide⟩
  createContext _ _ := 0
  getIOInfo _ _ := .ok ⟨[64], [16, 16]⟩
  destroyHandle _ _ := -1
  memAlloc log _ _ :=
    if log.length = 7 then .error ⟨-1, by decide⟩
    else .ok ⟨.ofNat log.length, .ofNat log.length⟩

/-- The calls of a first `Init`, which fails, of a second one and of the destruction. -/
def retried : Done :=
  let first := init shortOfMemory [] {}
  let second := init shortOfMemory first.log first.engine
  destroy shortOfMemory second.log second.engine

theorem retried_balance :
    (resources.releases retried.log).Perm (resources.acquisitions retried.log) ∧
      (resources.acquisitions retried.log).length = 9 :=
  ⟨(resources_balance (Run.init (Run.init Run.start))).1, by decide⟩

end Lives

end EngineResources
