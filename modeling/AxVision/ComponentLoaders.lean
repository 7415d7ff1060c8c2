import AxVision.LifecycleTraces
import AxVision.DetectionTypes

/-!
# Loading and unloading the components of a scene

`PostProcessorChain` and `PluginManager` load components from dynamic
libraries with separate checks and separate cleanup; `SceneRuntime` owns one of
each. Every call into a library or a component is an event. What libraries and
components answer is a function of the number of events so far, so that any
pattern of answers occurs.
-/

namespace ComponentLoaders

open LifecycleTraces DetectionTypes

universe u v

inductive Role where
  | postProcessor
  | business
  deriving DecidableEq, Repr

/-- A successfully opened handle and the instance created from it. The serial
is the number of events before `dlopen`: one path opened twice gives two. -/
structure Component where
  role : Role
  serial : Nat
  name : String
  deriving DecidableEq, Repr

structure ComponentConfig where
  name : String
  libraryPath : String
  apiVersion : Nat := 0
  enabled : Bool := true
  deriving DecidableEq, Repr

structure SceneConfig where
  scene : ComponentConfig
  postprocessors : List ComponentConfig
  deriving DecidableEq, Repr

structure PostProcessContext (I : Type u) (F : Type v) where
  frame : I
  objects : List (Object F)
  frameSeq : Nat
  timestamp : Int

inductive Event (I : Type u) (F : Type v) where
  | dlopenFailed (role : Role) (path : String)
  | dlopen (c : Component)
  | create (c : Component)
  | init (c : Component)
  | process (c : Component) (context : PostProcessContext I F)
  | onFrame (c : Component) (frame : I) (objects : List (Object F))
  | waitQuiesce (name : String)
  | shutdown (c : Component)
  | destroy (c : Component)
  | dlclose (c : Component)

/-- One `dlsym` and the `dlerror` text read after it. -/
structure Symbol where
  found : Bool := true
  error : Option String := none

/-- What an attempt to load a component meets. -/
structure Library where
  opens : Bool := true
  openError : Option String := none
  createSymbol : Symbol := {}
  destroySymbol : Symbol := {}
  /-- the factory returned an instance -/
  creates : Bool := true
  name : Option String := none
  apiVersion : Nat := 1
  init : Int := 0

structure Surroundings (I : Type u) (F : Type v) where
  library : Nat → Library
  /-- a post-processor returns a code and leaves the objects as it likes -/
  process : Nat → PostProcessContext I F → Int × List (Object F)
  onFrame : Nat → I → List (Object F) → Int
  clock : Nat → Int

variable {I : Type u} {F : Type v}

def kPostProcessorApiVersion : Nat := 1

def kBusinessPluginApiVersion : Nat := 1

structure Failure where
  stage : String
  detail : String
  code : Int

/-- The code of a call, the object after it and the events of the call. -/
structure Outcome (σ : Type) (I : Type u) (F : Type v) where
  code : Int
  after : σ
  events : List (Event I F)

/-- `create_error` and `destroy_error`: a missing text reads as the empty one. -/
def Symbol.text (s : Symbol) : String := s.error.getD ""

def Library.factoryMissing (lib : Library) : Bool :=
  lib.createSymbol.text != "" || lib.destroySymbol.text != "" ||
    !lib.createSymbol.found || !lib.destroySymbol.found

def Library.factoryDetail (lib : Library) : String :=
  if lib.createSymbol.text != "" then lib.createSymbol.text
  else if lib.destroySymbol.text != "" then lib.destroySymbol.text
  else "factory symbol resolved to null"

def versionDetail (expected got : Nat) : String :=
  "expected " ++ toString expected ++ ", got " ++ toString got

/-- The tail of both `DestroyUnloaded` and of both `Unload`. -/
def closeHandle : Option Component → List (Event I F)
  | some c => [.dlclose c]
  | none => []

namespace PostProcessorChain

structure Loaded where
  name : String
  libraryPath : String
  soHandle : Option Component
  processor : Option Component

structure Chain where
  loaded : List Loaded := []
  lastError : String := ""

/-- `FailureMessage` of the chain. -/
def failureMessage (name libraryPath stage detail : String) : String :=
  "PostProcessorChain: component='" ++ name ++ "' path='" ++ libraryPath ++ "' stage='" ++ stage ++
    "' failed" ++ (if detail = "" then "" else ": " ++ detail)

/-- `DestroyUnloaded` of the chain; `destroy` has been checked. -/
def destroyUnloaded (processor handle : Option Component) (initInvoked : Bool) :
    List (Event I F) :=
  (match processor with
    | some p => (if initInvoked then [.shutdown p] else []) ++ [.destroy p]
    | none => []) ++ closeHandle handle

/-- One round of the loop of `Load` for an enabled component, up to its own cleanup. -/
def attempt (env : Surroundings I F) (config : ComponentConfig) (now : Nat) :
    Except Failure Loaded × List (Event I F) :=
  let lib := env.library now
  let c : Component := ⟨.postProcessor, now, config.name⟩
  if !lib.opens then
    (.error ⟨"dlopen", lib.openError.getD "unknown", -1⟩,
      [.dlopenFailed .postProcessor config.libraryPath])
  else if lib.factoryMissing then
    (.error ⟨"dlsym", lib.factoryDetail, -1⟩, [.dlopen c, .dlclose c])
  else if !lib.creates then
    (.error ⟨"create", "factory returned null", -1⟩, [.dlopen c, .dlclose c])
  else if config.apiVersion ≠ kPostProcessorApiVersion then
    (.error ⟨"config-api-version", versionDetail kPostProcessorApiVersion config.apiVersion, -1⟩,
      [.dlopen c, .create c] ++ destroyUnloaded (some c) (some c) false)
  else if lib.apiVersion ≠ kPostProcessorApiVersion then
    (.error ⟨"instance-api-version", versionDetail kPostProcessorApiVersion lib.apiVersion, -1⟩,
      [.dlopen c, .create c] ++ destroyUnloaded (some c) (some c) false)
  else if lib.init ≠ 0 then
    (.error ⟨"init", "status " ++ toString lib.init, lib.init⟩,
      [.dlopen c, .create c, .init c] ++ destroyUnloaded (some c) (some c) true)
  else
    (.ok ⟨config.name, config.libraryPath, some c, some c⟩, [.dlopen c, .create c, .init c])

/-- The body of the loop of `Unload`. -/
def teardown (entry : Loaded) : List (Event I F) :=
  (match entry.processor with
    | some p => [.shutdown p, .destroy p]
    | none => []) ++ closeHandle entry.soHandle

/-- `PostProcessorChain::Unload`, from the last entry to the first. -/
def unload (chain : Chain) : Chain × List (Event I F) :=
  ({ chain with loaded := [] }, chain.loaded.reverse.flatMap teardown)

/-- The loop of `PostProcessorChain::Load`. -/
def loadAll (env : Surroundings I F) : List ComponentConfig → Chain → Nat → Outcome Chain I F
  | [], chain, _ => ⟨0, chain, []⟩
  | config :: rest, chain, now =>
    if !config.enabled then loadAll env rest chain now
    else
      match attempt env config now with
      | (.error failure, events) =>
        let message :=
          failureMessage config.name config.libraryPath failure.stage failure.detail
        let unloaded := unload { chain with lastError := message }
        ⟨failure.code, unloaded.1, events ++ unloaded.2⟩
      | (.ok entry, events) =>
        let later := loadAll env rest { chain with loaded := chain.loaded ++ [entry] }
          (now + events.length)
        { later with events := events ++ later.events }

def load (env : Surroundings I F) (configs : List ComponentConfig) (chain : Chain) (now : Nat) :
    Outcome Chain I F :=
  let unloaded := unload chain
  let filled := loadAll env configs { unloaded.1 with lastError := "" }
    (now + unloaded.2.length)
  { filled with events := unloaded.2 ++ filled.events }

/-- The loop of `PostProcessorChain::Process`: the failed entry and its code, if any. -/
def processAll (env : Surroundings I F) :
    List Loaded → PostProcessContext I F → Nat →
      Option (Loaded × Int) × PostProcessContext I F × List (Event I F)
  | [], context, _ => (none, context, [])
  | entry :: rest, context, now =>
    match entry.processor with
    | none => (none, context, [])
    | some c =>
      let answer := env.process now context
      let written := { context with objects := answer.2 }
      if answer.1 ≠ 0 then (some (entry, answer.1), written, [.process c context])
      else
        let later := processAll env rest written (now + 1)
        (later.1, later.2.1, .process c context :: later.2.2)

def process (env : Surroundings I F) (context : PostProcessContext I F) (chain : Chain)
    (now : Nat) : Outcome Chain I F × PostProcessContext I F :=
  match processAll env chain.loaded context now with
  | (some (entry, code), written, events) =>
    (⟨code,
      { chain with
        lastError :=
          failureMessage entry.name entry.libraryPath "process" ("status " ++ toString code) },
      events⟩, written)
  | (none, written, events) => (⟨0, { chain with lastError := "" }, events⟩, written)

end PostProcessorChain

namespace PluginManager

/-- `destroy_` is set and cleared together with `plugin_`. -/
structure Manager where
  host : Bool := false
  name : String := ""
  plugin : Option Component := none
  soHandle : Option Component := none

/-- `DestroyUnloaded` of the plugin loader; `destroy` has been checked. -/
def destroyUnloaded (plugin handle : Option Component) (host : Bool) (canonicalName : String)
    (initInvoked : Bool) : List (Event I F) :=
  (match plugin with
    | some p =>
      (if initInvoked then
        (if host then [.waitQuiesce canonicalName] else []) ++ [.shutdown p]
      else []) ++ [.destroy p]
    | none => []) ++ closeHandle handle

def displayName (name : Option String) : String :=
  match name with
  | none => "<null>"
  | some text => if text = "" then "<empty>" else text

/-- `PluginManager::Load` after the check of the host, up to its own cleanup. -/
def attempt (env : Surroundings I F) (config : ComponentConfig) (now : Nat) :
    Except Failure Component × List (Event I F) :=
  let lib := env.library now
  let c : Component := ⟨.business, now, config.name⟩
  let actualName := lib.name.getD ""
  if !lib.opens then
    (.error ⟨"dlopen", lib.openError.getD "unknown", -1⟩,
      [.dlopenFailed .business config.libraryPath])
  else if lib.factoryMissing then
    (.error ⟨"dlsym", lib.factoryDetail, -1⟩, [.dlopen c, .dlclose c])
  else if !lib.creates then
    (.error ⟨"create", "factory returned null", -1⟩, [.dlopen c, .dlclose c])
  else if actualName = "" ∨ actualName ≠ config.name then
    (.error ⟨"name", "plugin name '" ++ displayName lib.name ++
        "' does not match configured scene name", -1⟩,
      [.dlopen c, .create c] ++ destroyUnloaded (some c) (some c) false "" false)
  else if config.apiVersion ≠ kBusinessPluginApiVersion then
    (.error ⟨"config-api-version", versionDetail kBusinessPluginApiVersion config.apiVersion, -1⟩,
      [.dlopen c, .create c] ++ destroyUnloaded (some c) (some c) false "" false)
  else if lib.apiVersion ≠ kBusinessPluginApiVersion then
    (.error ⟨"instance-api-version", versionDetail kBusinessPluginApiVersion lib.apiVersion, -1⟩,
      [.dlopen c, .create c] ++ destroyUnloaded (some c) (some c) false "" false)
  else if lib.init ≠ 0 then
    (.error ⟨"init", "status " ++ toString lib.init, lib.init⟩,
      [.dlopen c, .create c, .init c] ++
        destroyUnloaded (some c) (some c) true config.name true)
  else (.ok c, [.dlopen c, .create c, .init c])

def unload (manager : Manager) : Manager × List (Event I F) :=
  ({},
    (match manager.plugin with
      | some p =>
        (if manager.host then [.waitQuiesce manager.name] else []) ++ [.shutdown p, .destroy p]
      | none => []) ++ closeHandle manager.soHandle)

/-- `host` says whether the pointer is set. -/
def load (env : Surroundings I F) (host : Bool) (config : ComponentConfig) (manager : Manager)
    (now : Nat) : Outcome Manager I F :=
  let unloaded := unload manager
  if !host then ⟨-1, unloaded.1, unloaded.2⟩
  else
    match attempt env config (now + unloaded.2.length) with
    | (.error failure, events) => ⟨failure.code, unloaded.1, unloaded.2 ++ events⟩
    | (.ok c, events) => ⟨0, ⟨true, config.name, some c, some c⟩, unloaded.2 ++ events⟩

def onFrame (env : Surroundings I F) (frame : I) (objects : List (Object F)) (manager : Manager)
    (now : Nat) : Int × List (Event I F) :=
  match manager.plugin with
  | none => (-1, [])
  | some c => (env.onFrame now frame objects, [.onFrame c frame objects])

end PluginManager

namespace SceneRuntime

open PostProcessorChain PluginManager

structure Runtime where
  postprocessors : Chain := {}
  business : Manager := {}

inductive SceneProcessStage where
  | ok
  | postProcessor
  | businessPlugin
  deriving DecidableEq, Repr

structure SceneProcessResult where
  stage : SceneProcessStage := .ok
  code : Int := 0
  deriving DecidableEq, Repr

def shutdown (runtime : Runtime) : Runtime × List (Event I F) :=
  let business := PluginManager.unload runtime.business
  let postprocessors := PostProcessorChain.unload runtime.postprocessors
  (⟨postprocessors.1, business.1⟩, business.2 ++ postprocessors.2)

def init (env : Surroundings I F) (host : Bool) (config : SceneConfig) (runtime : Runtime)
    (now : Nat) : Outcome Runtime I F :=
  let cleared := shutdown runtime
  let chain := PostProcessorChain.load env config.postprocessors cleared.1.postprocessors
    (now + cleared.2.length)
  if chain.code ≠ 0 then
    let down := shutdown ⟨chain.after, cleared.1.business⟩
    ⟨chain.code, down.1, cleared.2 ++ chain.events ++ down.2⟩
  else
    let manager := PluginManager.load env host config.scene cleared.1.business
      (now + cleared.2.length + chain.events.length)
    if manager.code ≠ 0 then
      let down := shutdown ⟨chain.after, manager.after⟩
      ⟨manager.code, down.1, cleared.2 ++ chain.events ++ manager.events ++ down.2⟩
    else ⟨0, ⟨chain.after, manager.after⟩, cleared.2 ++ chain.events ++ manager.events⟩

/-- `SceneRuntime::Process`; the objects come back as the post-processors left them. -/
def process (env : Surroundings I F) (frame : I) (objects : List (Object F)) (frameSeq : Nat)
    (runtime : Runtime) (now : Nat) :
    SceneProcessResult × Runtime × List (Object F) × List (Event I F) :=
  let context : PostProcessContext I F :=
    { frame := frame
      objects := objects.map fun o => { o with trackId := -1 }
      frameSeq := frameSeq
      timestamp := env.clock now }
  let chain := PostProcessorChain.process env context runtime.postprocessors now
  let kept : Runtime := { runtime with postprocessors := chain.1.after }
  if chain.1.code ≠ 0 then
    (⟨.postProcessor, chain.1.code⟩, kept, chain.2.objects, chain.1.events)
  else
    let business := PluginManager.onFrame env frame chain.2.objects runtime.business
      (now + chain.1.events.length)
    if business.1 ≠ 0 then
      (⟨.businessPlugin, business.1⟩, kept, chain.2.objects, chain.1.events ++ business.2)
    else ({}, kept, chain.2.objects, chain.1.events ++ business.2)

end SceneRuntime

end ComponentLoaders
