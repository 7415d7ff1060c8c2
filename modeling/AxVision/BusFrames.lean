import AxVision.LoaderLifecycles
import AxVision.FailureLimits
import Mathlib.Data.List.Induction

/-!
# The frames of the business stage

`BusProcess` maps every inference frame, runs the post-processors and the
business plugin over it, unmaps it and forwards it to the encoder, whatever
failed. The effects of all messages form one trace; what the platform and the
components answer depends on the length of the trace so far.
-/

namespace BusFrames

open TransitionRuns LifecycleTraces ComponentLoaders LoaderMoves LoaderLifecycles DetectionTypes
open FailureLimits PostProcessorChain PluginManager SceneRuntime

universe u v

variable {I : Type u} {F : Type v}

def kMsgAppStart : Int := 1

def kMsgInfprocData : Int := 4

def kMsgBusprocData : Int := 5

def kMsgAppExit : Int := 10

structure InfData (I : Type u) (F : Type v) where
  image : I
  objects : List (Object F)

structure Message (I : Type u) (F : Type v) where
  msgId : Int
  data : Option (InfData I F)

inductive Effect (I : Type u) (F : Type v) where
  | ensureMapped (image : I)
  | component (e : Event I F)
  | unmap (image : I)
  | sendMessage (dest msgId : Int) (image : I)
  | hostShutdown

/-- The result of `EnsureMapped` and what the frame looks like after it. -/
structure Mapping where
  code : Int
  data : Bool := true
  frameInfo : Bool := true
  virAddr : Nat

/-- `pixels_accessible`. -/
def Mapping.accessible (m : Mapping) : Bool :=
  m.code = 0 && m.data && m.frameInfo && m.virAddr ≠ 0

structure Platform (I : Type u) (F : Type v) where
  components : Surroundings I F
  ensureMapped : Nat → Mapping
  sendMessage : Nat → Int
  /-- the clock readings of the two reports of a frame -/
  reportClock : Nat → Int × Int

/-- What `Init` gets from `TaskNodeIdByName`, `HostServices::Init` and `LoadSceneConfig`. -/
structure Startup where
  nextThreadId : Int
  hostCode : Int
  sceneConfig : Option SceneConfig

structure BusFrameDispatchPlan where
  runRuntime : Bool := false
  forwardCount : Nat := 0

def makeBusFrameDispatchPlan (hasValidInput pixelsAccessible : Bool) : BusFrameDispatchPlan :=
  if !hasValidInput then {} else ⟨pixelsAccessible, 1⟩

def kFailLogInterval : Int := 5

structure BusProcess where
  runtime : Runtime := {}
  nextThreadId : Int := -1
  frameSeq : Nat := 0
  postprocessorFailure : FailureRateLimiter := { interval := kFailLogInterval }
  businessFailure : FailureRateLimiter := { interval := kFailLogInterval }
  isShutdown : Bool := false

structure Step (I : Type u) (F : Type v) where
  ret : Int
  after : BusProcess
  effects : List (Effect I F)

namespace BusProcess

def shutdown (s : BusProcess) : BusProcess × List (Effect I F) :=
  if s.isShutdown then (s, [])
  else
    let down := SceneRuntime.shutdown (I := I) (F := F) s.runtime
    ({ s with isShutdown := true, runtime := down.1 },
      down.2.map .component ++ [.hostShutdown])

def init (env : Platform I F) (startup : Startup) (s : BusProcess) (now : Nat) : Step I F :=
  let named := { s with nextThreadId := startup.nextThreadId }
  if startup.nextThreadId < 0 then ⟨-1, named, []⟩
  else if startup.hostCode ≠ 0 then
    let down := named.shutdown
    ⟨startup.hostCode, down.1, down.2⟩
  else
    match startup.sceneConfig with
    | none =>
      let down := named.shutdown
      ⟨-1, down.1, down.2⟩
    | some config =>
      let loading := SceneRuntime.init env.components true config named.runtime now
      let loaded := { named with runtime := loading.after }
      if loading.code ≠ 0 then
        let down := loaded.shutdown
        ⟨loading.code, down.1, loading.events.map .component ++ down.2⟩
      else ⟨0, loaded, loading.events.map .component⟩

/-- `ReportResult`; the reports themselves are log lines. -/
def reportResult (s : BusProcess) (result : SceneProcessResult) (now : Int × Int) : BusProcess :=
  if result.stage = .postProcessor then
    { s with postprocessorFailure := (s.postprocessorFailure.onFailure result.code now.1).1 }
  else
    let recovered :=
      { s with postprocessorFailure := (s.postprocessorFailure.onRecovery now.1).1 }
    if result.stage = .businessPlugin then
      { recovered with businessFailure := (s.businessFailure.onFailure result.code now.2).1 }
    else { recovered with businessFailure := (s.businessFailure.onRecovery now.2).1 }

/-- The branch of `Process` for `kMsgInfprocData` with data. -/
def frame (env : Platform I F) (s : BusProcess) (data : InfData I F) (now : Nat) : Step I F :=
  let mapping := env.ensureMapped now
  let mapped := decide (mapping.code = 0)
  let dispatch := makeBusFrameDispatchPlan true (Mapping.accessible mapping)
  let counted := { s with frameSeq := s.frameSeq + 1 }
  let ran :=
    if dispatch.runRuntime then
      let o := SceneRuntime.process env.components data.image data.objects counted.frameSeq
        counted.runtime (now + 1)
      (reportResult { counted with runtime := o.2.1 } o.1
          (env.reportClock now),
        o.2.2.2.map Effect.component)
    else (counted, [])
  let undone := if mapped then [Effect.unmap data.image] else []
  let before := [.ensureMapped data.image] ++ ran.2 ++ undone
  if dispatch.forwardCount = 1 then
    ⟨env.sendMessage (now + before.length), ran.1,
      before ++ [.sendMessage ran.1.nextThreadId kMsgBusprocData data.image]⟩
  else ⟨0, ran.1, before⟩

def process (env : Platform I F) (s : BusProcess) (msg : Message I F) (now : Nat) : Step I F :=
  if msg.msgId = kMsgAppStart then ⟨0, s, []⟩
  else if msg.msgId = kMsgInfprocData then
    match msg.data with
    | none => ⟨0, s, []⟩
    | some data => frame env s data now
  else if msg.msgId = kMsgAppExit then
    let down := s.shutdown
    ⟨0, down.1, down.2⟩
  else ⟨0, s, []⟩

end BusProcess

structure World (I : Type u) (F : Type v) where
  stage : BusProcess := {}
  trace : List (Effect I F) := []

def World.after (w : World I F) (o : Step I F) : World I F := ⟨o.after, w.trace ++ o.effects⟩

def start (env : Platform I F) (startup : Startup) : World I F :=
  World.after {} (BusProcess.init env startup {} 0)

def handle (env : Platform I F) (w : World I F) (msg : Message I F) : World I F :=
  w.after (w.stage.process env msg w.trace.length)

def run (env : Platform I F) (startup : Startup) (messages : List (Message I F)) : World I F :=
  messages.foldl (handle env) (start env startup)

/-- The data of an inference message that is not null. -/
def Message.inference (msg : Message I F) : Option (InfData I F) :=
  if msg.msgId = kMsgInfprocData then msg.data else none

def Message.isExit (msg : Message I F) : Bool := msg.msgId = kMsgAppExit

def resetIds (objects : List (Object F)) : List (Object F) :=
  objects.map fun o => { o with trackId := -1 }

/-- The calls of a frame: the processors in load order up to the first failure,
each on the objects the one before it left, and the business plugin on the
objects of the last one. -/
inductive Course (env : Surroundings I F) (business : Component) (frame : I) (frameSeq : Nat)
    (stamp : Int) : List Component → List (Object F) → Nat → List (Event I F) → Prop where
  | failed {p : Component} {rest : List Component} {objects : List (Object F)} {now : Nat}
      (bad : (env.process now ⟨frame, objects, frameSeq, stamp⟩).1 ≠ 0) :
      Course env business frame frameSeq stamp (p :: rest) objects now
        [.process p ⟨frame, objects, frameSeq, stamp⟩]
  | passed {p : Component} {rest : List Component} {objects : List (Object F)} {now : Nat}
      {calls : List (Event I F)}
      (good : (env.process now ⟨frame, objects, frameSeq, stamp⟩).1 = 0)
      (onward : Course env business frame frameSeq stamp rest
        (env.process now ⟨frame, objects, frameSeq, stamp⟩).2 (now + 1) calls) :
      Course env business frame frameSeq stamp (p :: rest) objects now
        (.process p ⟨frame, objects, frameSeq, stamp⟩ :: calls)
  | business {objects : List (Object F)} {now : Nat} :
      Course env business frame frameSeq stamp [] objects now [.onFrame business frame objects]

/-- Every processor returns 0. -/
def Passes (env : Surroundings I F) (frame : I) (frameSeq : Nat) (stamp : Int) :
    List Component → List (Object F) → Nat → Prop
  | [], _, _ => True
  | _ :: rest, objects, now =>
    (env.process now ⟨frame, objects, frameSeq, stamp⟩).1 = 0 ∧
      Passes env frame frameSeq stamp rest
        (env.process now ⟨frame, objects, frameSeq, stamp⟩).2 (now + 1)

theorem Course.onFrame_iff {env : Surroundings I F} {business : Component} {frame : I}
    {frameSeq : Nat} {stamp : Int} {processors : List Component} {objects : List (Object F)}
    {now : Nat} {calls : List (Event I F)}
    (course : Course env business frame frameSeq stamp processors objects now calls) :
    (∃ last, .onFrame business frame last ∈ calls) ↔
      Passes env frame frameSeq stamp processors objects now := by
  induction course with
  | failed bad =>
    constructor
    · rintro ⟨last, mem⟩
      cases List.mem_singleton.mp mem
    · rintro ⟨good, -⟩
      exact absurd good bad
  | passed good _ ih =>
    constructor
    · rintro ⟨last, mem⟩
      refine ⟨good, ih.mp ⟨last, ?_⟩⟩
      rcases List.mem_cons.mp mem with never | later
      · cases never
      · exact later
    · rintro ⟨-, passes⟩
      obtain ⟨last, mem⟩ := ih.mpr passes
      exact ⟨last, List.mem_cons_of_mem _ mem⟩
  | business => exact ⟨fun _ => trivial, fun _ => ⟨_, List.mem_singleton.mpr rfl⟩⟩

/-- What one inference message brings about, `now` effects after the start. -/
structure Delivered (env : Platform I F) (processors : List Component) (business : Component)
    (next : Int) (ordinal : Nat) (exited : Bool) (data : InfData I F) (now : Nat)
    (effects : List (Effect I F)) (calls : List (Event I F)) : Prop where
  effects_eq : effects = [.ensureMapped data.image] ++ calls.map .component ++
    (if (env.ensureMapped now).code = 0 then [.unmap data.image] else []) ++
    [.sendMessage next kMsgBusprocData data.image]
  skipped : exited = true ∨ (env.ensureMapped now).accessible = false → calls = []
  course : exited = false → (env.ensureMapped now).accessible = true →
    Course env.components business data.image ordinal (env.components.clock (now + 1)) processors
      (resetIds data.objects) (now + 1) calls
  onFrame_iff : exited = false →
    ((∃ last, .onFrame business data.image last ∈ calls) ↔
      (env.ensureMapped now).accessible = true ∧
        Passes env.components data.image ordinal (env.components.clock (now + 1)) processors
          (resetIds data.objects) (now + 1))

/-- The part of the stage that the messages rely on. -/
structure Standing (entries : List Loaded) (business : Component) (next : Int) (ordinal : Nat)
    (exited : Bool) (s : BusProcess) : Prop where
  next : s.nextThreadId = next
  frameSeq : s.frameSeq = ordinal
  isShutdown : s.isShutdown = exited
  loaded : s.runtime.postprocessors.loaded = if exited then [] else entries
  plugin : s.runtime.business.plugin = if exited then none else some business

section Frames

/-- The loop stops at the first failure, or leaves the rest of the course to what follows. -/
theorem processAll_course (env : Surroundings I F) (business : Component) :
    ∀ (entries : List Loaded) (processors : List Component) (context : PostProcessContext I F)
      (now : Nat) (failure : Option (Loaded × Int)) (written : PostProcessContext I F)
      (events : List (Event I F)),
      entries.map Loaded.processor = processors.map some →
      processAll env entries context now = (failure, written, events) →
      (∀ failed, failure = some failed → failed.2 ≠ 0 ∧
        Course env business context.frame context.frameSeq context.timestamp processors
          context.objects now events) ∧
      (failure = none → ∀ tail,
        Course env business context.frame context.frameSeq context.timestamp [] written.objects
          (now + events.length) tail →
        Course env business context.frame context.frameSeq context.timestamp processors
          context.objects now (events ++ tail)) := by
  intro entries
  induction entries with
  | nil =>
    intro processors context now failure written events complete h
    cases processors with
    | cons _ _ => cases complete
    | nil =>
      cases h
      constructor
      · intro failed h
        cases h
      · intro _ tail course
        exact course
  | cons entry rest ih =>
    intro processors context now failure written events complete h
    cases processors with
    | nil => cases complete
    | cons p others =>
      obtain ⟨processor, complete'⟩ := List.cons.inj complete
      have processor : entry.processor = some p := processor
      unfold processAll at h
      rw [processor] at h
      simp only [] at h
      split at h
      · rename_i bad
        cases h
        constructor
        · intro failed h
          cases h
          exact ⟨bad, .failed bad⟩
        · intro h
          cases h
      · rename_i good
        generalize hlater : processAll env rest
          { context with objects := (env.process now context).2 } (now + 1) = later at h
        obtain ⟨failure', written', events'⟩ := later
        cases h
        obtain ⟨stops, goes⟩ := ih others _ (now + 1) _ _ _ complete' hlater
        constructor
        · intro failed h
          obtain ⟨bad, course⟩ := stops failed h
          exact ⟨bad, .passed (not_not.mp good) course⟩
        · intro h tail course
          refine .passed (not_not.mp good) (goes h tail ?_)
          have shift : now + 1 + events'.length =
              now + (Event.process p context :: events').length := by
            rw [List.length_cons]
            omega
          rw [shift]
          exact course

theorem chain_process_course (env : Surroundings I F) (business : Component) {chain : Chain}
    {processors : List Component} (context : PostProcessContext I F) (now : Nat)
    (complete : chain.loaded.map Loaded.processor = processors.map some)
    {o : Outcome Chain I F} {written : PostProcessContext I F}
    (h : PostProcessorChain.process env context chain now = (o, written)) :
    (o.code ≠ 0 → Course env business context.frame context.frameSeq context.timestamp processors
      context.objects now o.events) ∧
    (o.code = 0 → ∀ tail,
      Course env business context.frame context.frameSeq context.timestamp [] written.objects
        (now + o.events.length) tail →
      Course env business context.frame context.frameSeq context.timestamp processors
        context.objects now (o.events ++ tail)) := by
  unfold PostProcessorChain.process at h
  split at h
  · rename_i entry code written' events ran
    obtain ⟨stops, -⟩ := processAll_course env business _ _ _ _ _ _ _ complete ran
    obtain ⟨bad, course⟩ := stops _ rfl
    cases h
    exact ⟨fun _ => course, fun good => absurd good bad⟩
  · rename_i written' events ran
    obtain ⟨-, goes⟩ := processAll_course env business _ _ _ _ _ _ _ complete ran
    cases h
    exact ⟨fun bad => absurd rfl bad, fun _ => goes rfl⟩

theorem chain_process_loaded (env : Surroundings I F) {chain : Chain}
    {context : PostProcessContext I F} {now : Nat} {o : Outcome Chain I F}
    {written : PostProcessContext I F}
    (h : PostProcessorChain.process env context chain now = (o, written)) :
    o.after.loaded = chain.loaded := by
  unfold PostProcessorChain.process at h
  split at h <;> cases h <;> rfl

/-- `SceneRuntime::Process` in terms of what its chain did. -/
theorem scene_process_eq (env : Surroundings I F) {r : Runtime} {frame : I}
    {objects : List (Object F)} {frameSeq now : Nat} {o : Outcome Chain I F}
    {written : PostProcessContext I F}
    (h : PostProcessorChain.process env ⟨frame, resetIds objects, frameSeq, env.clock now⟩
      r.postprocessors now = (o, written)) :
    SceneRuntime.process env frame objects frameSeq r now =
      if o.code ≠ 0 then
        (⟨.postProcessor, o.code⟩, { r with postprocessors := o.after }, written.objects, o.events)
      else
        let business := PluginManager.onFrame env frame written.objects r.business
          (now + o.events.length)
        if business.1 ≠ 0 then
          (⟨.businessPlugin, business.1⟩, { r with postprocessors := o.after }, written.objects,
            o.events ++ business.2)
        else ({}, { r with postprocessors := o.after }, written.objects, o.events ++ business.2) := by
  have unfolded := congrArg (fun c : Outcome Chain I F × PostProcessContext I F =>
    if c.1.code ≠ 0 then
      ((⟨.postProcessor, c.1.code⟩, { r with postprocessors := c.1.after }, c.2.objects,
        c.1.events) : SceneProcessResult × Runtime × List (Object F) × List (Event I F))
    else
      let business := PluginManager.onFrame env frame c.2.objects r.business
        (now + c.1.events.length)
      if business.1 ≠ 0 then
        (⟨.businessPlugin, business.1⟩, { r with postprocessors := c.1.after }, c.2.objects,
          c.1.events ++ business.2)
      else ({}, { r with postprocessors := c.1.after }, c.2.objects, c.1.events ++ business.2)) h
  exact unfolded

/-- Over loaded components it takes the course of the frame. -/
theorem scene_process_course (env : Surroundings I F) {r : Runtime} {processors : List Component}
    {business : Component} (frame : I) (objects : List (Object F)) (frameSeq now : Nat)
    (complete : r.postprocessors.loaded.map Loaded.processor = processors.map some)
    (plugin : r.business.plugin = some business) :
    Course env business frame frameSeq (env.clock now) processors (resetIds objects) now
      (SceneRuntime.process env frame objects frameSeq r now).2.2.2 := by
  rcases ran : PostProcessorChain.process env ⟨frame, resetIds objects, frameSeq, env.clock now⟩
    r.postprocessors now with ⟨o, written⟩
  obtain ⟨stops, goes⟩ := chain_process_course env business _ now complete ran
  rw [scene_process_eq env ran]
  by_cases good : o.code = 0
  · have last : (PluginManager.onFrame env frame written.objects r.business
        (now + o.events.length)).2 = [.onFrame business frame written.objects] := by
      unfold PluginManager.onFrame
      rw [plugin]
    simp only [good, ne_eq, not_true_eq_false, if_false, last]
    have course := goes good _ .business
    split
    · exact course
    · exact course
  · rw [if_pos good]
    exact stops good

theorem scene_process_idle (env : Surroundings I F) {r : Runtime} (frame : I)
    (objects : List (Object F)) (frameSeq now : Nat) (empty : r.postprocessors.loaded = [])
    (unplugged : r.business.plugin = none) :
    (SceneRuntime.process env frame objects frameSeq r now).2.2.2 = [] := by
  unfold SceneRuntime.process PostProcessorChain.process PluginManager.onFrame
  rw [empty, unplugged]
  rfl

theorem scene_process_keeps (env : Surroundings I F) (r : Runtime) (frame : I)
    (objects : List (Object F)) (frameSeq now : Nat) :
    (SceneRuntime.process env frame objects frameSeq r now).2.1.postprocessors.loaded =
        r.postprocessors.loaded ∧
      (SceneRuntime.process env frame objects frameSeq r now).2.1.business = r.business := by
  rcases ran : PostProcessorChain.process env ⟨frame, resetIds objects, frameSeq, env.clock now⟩
    r.postprocessors now with ⟨o, written⟩
  have loaded := chain_process_loaded env ran
  rw [scene_process_eq env ran]
  split
  · exact ⟨loaded, rfl⟩
  · simp only []
    split <;> exact ⟨loaded, rfl⟩

/-- The effects of one inference message, whatever its calls. -/
theorem frame_effects (env : Platform I F) (s : BusProcess) (data : InfData I F) (now : Nat) :
    ∃ calls, (s.frame env data now).effects = [.ensureMapped data.image] ++ calls.map .component ++
        (if (env.ensureMapped now).code = 0 then [.unmap data.image] else []) ++
        [.sendMessage s.nextThreadId kMsgBusprocData data.image] ∧
      calls = if (env.ensureMapped now).accessible then
        (SceneRuntime.process env.components data.image data.objects (s.frameSeq + 1) s.runtime
          (now + 1)).2.2.2 else [] := by
  have kept : ∀ (t : BusProcess) (result : SceneProcessResult) (clock : Int × Int),
      (t.reportResult result clock).nextThreadId = t.nextThreadId := by
    intro t result clock
    unfold BusProcess.reportResult
    split
    · rfl
    · split <;> rfl
  unfold BusProcess.frame makeBusFrameDispatchPlan
  cases accessible : (env.ensureMapped now).accessible with
  | false =>
    refine ⟨[], ?_, rfl⟩
    by_cases mapped : (env.ensureMapped now).code = 0 <;> simp [mapped, accessible]
  | true =>
    refine ⟨_, ?_, rfl⟩
    by_cases mapped : (env.ensureMapped now).code = 0 <;> simp [mapped, accessible, kept]

theorem frame_after (env : Platform I F) (s : BusProcess) (data : InfData I F) (now : Nat) :
    (s.frame env data now).after =
      if (env.ensureMapped now).accessible then
        BusProcess.reportResult
          { s with
            frameSeq := s.frameSeq + 1
            runtime := (SceneRuntime.process env.components data.image data.objects
              (s.frameSeq + 1) s.runtime (now + 1)).2.1 }
          (SceneRuntime.process env.components data.image data.objects (s.frameSeq + 1) s.runtime
            (now + 1)).1 (env.reportClock now)
      else { s with frameSeq := s.frameSeq + 1 } := by
  unfold BusProcess.frame makeBusFrameDispatchPlan
  cases accessible : (env.ensureMapped now).accessible <;> simp [accessible]

theorem reported_standing {entries : List Loaded} {business : Component} {next : Int}
    {ordinal : Nat} {exited : Bool} {s : BusProcess}
    (h : Standing entries business next ordinal exited s) (result : SceneProcessResult)
    (clock : Int × Int) :
    Standing entries business next ordinal exited (s.reportResult result clock) := by
  unfold BusProcess.reportResult
  split
  · exact ⟨h.next, h.frameSeq, h.isShutdown, h.loaded, h.plugin⟩
  · split <;> exact ⟨h.next, h.frameSeq, h.isShutdown, h.loaded, h.plugin⟩

theorem frame_standing (env : Platform I F) {entries : List Loaded} {business : Component}
    {next : Int} {ordinal : Nat} {exited : Bool} {s : BusProcess}
    (h : Standing entries business next ordinal exited s) (data : InfData I F) (now : Nat) :
    Standing entries business next (ordinal + 1) exited (s.frame env data now).after := by
  have seq : s.frameSeq + 1 = ordinal + 1 := congrArg (· + 1) h.frameSeq
  rw [frame_after]
  split
  · obtain ⟨loaded, kept⟩ := scene_process_keeps env.components s.runtime data.image data.objects
      (s.frameSeq + 1) (now + 1)
    refine reported_standing ?_ _ _
    refine ⟨h.next, seq, h.isShutdown, ?_, ?_⟩
    · exact loaded.trans h.loaded
    · exact (congrArg Manager.plugin kept).trans h.plugin
  · exact ⟨h.next, seq, h.isShutdown, h.loaded, h.plugin⟩

theorem frame_delivered (env : Platform I F) {entries : List Loaded} {processors : List Component}
    {business : Component} {next : Int} {ordinal : Nat} {exited : Bool} {s : BusProcess}
    (complete : entries.map Loaded.processor = processors.map some)
    (h : Standing entries business next ordinal exited s) (data : InfData I F) (now : Nat) :
    ∃ calls, Delivered env processors business next (ordinal + 1) exited data now
      (s.frame env data now).effects calls := by
  obtain ⟨calls, effects, hcalls⟩ := frame_effects env s data now
  rw [h.next] at effects
  rw [h.frameSeq] at hcalls
  have course : exited = false → (env.ensureMapped now).accessible = true →
      Course env.components business data.image (ordinal + 1) (env.components.clock (now + 1))
        processors (resetIds data.objects) (now + 1) calls := by
    intro live accessible
    have loaded := h.loaded
    have plugin := h.plugin
    rw [live, if_neg Bool.false_ne_true] at loaded plugin
    rw [hcalls, if_pos accessible]
    exact scene_process_course env.components data.image data.objects (ordinal + 1) (now + 1)
      (by rw [loaded]; exact complete) plugin
  refine ⟨calls, effects, ?_, course, ?_⟩
  · rintro (gone | blind)
    · have loaded := h.loaded
      have plugin := h.plugin
      rw [gone, if_pos rfl] at loaded plugin
      rw [hcalls, scene_process_idle env.components data.image data.objects (ordinal + 1) (now + 1)
        loaded plugin, ite_self]
    · rw [hcalls, blind]
      rfl
  · intro live
    cases accessible : (env.ensureMapped now).accessible with
    | true =>
      refine (course live accessible).onFrame_iff.trans ?_
      exact ⟨fun passes => ⟨rfl, passes⟩, fun both => both.2⟩
    | false =>
      have none : calls = [] := by
        rw [hcalls, accessible]
        rfl
      rw [none]
      constructor
      · rintro ⟨last, mem⟩
        cases mem
      · rintro ⟨never, -⟩
        cases never

/-- An effect that touches no frame: part of the teardown. -/
def Aside (e : Effect I F) : Prop :=
  e = .hostShutdown ∨ ∃ t, e = .component t ∧ ∀ c, subject t ≠ some (c, .work)

theorem closeHandle_aside (handle : Option Component) :
    ∀ e ∈ (closeHandle handle : List (Event I F)), ∀ c, subject e ≠ some (c, .work) := by
  intro e he c hs
  cases handle with
  | none => cases he
  | some d =>
    cases List.mem_singleton.mp he
    cases hs

theorem shutdown_aside (r : Runtime) :
    ∀ e ∈ (SceneRuntime.shutdown r : Runtime × List (Event I F)).2, ∀ c,
      subject e ≠ some (c, .work) := by
  intro e he c hs
  rcases List.mem_append.mp he with manager | chain
  · rcases List.mem_append.mp manager with own | closed
    · cases hp : r.business.plugin with
      | none =>
        rw [hp] at own
        cases own
      | some p =>
        rw [hp] at own
        rcases List.mem_append.mp own with quiet | down
        · split at quiet
          · cases List.mem_singleton.mp quiet
            cases hs
          · cases quiet
        · simp only [List.mem_cons, List.not_mem_nil, or_false] at down
          rcases down with rfl | rfl <;> cases hs
    · exact closeHandle_aside _ e closed c hs
  · obtain ⟨entry, -, own⟩ := List.mem_flatMap.mp chain
    rcases List.mem_append.mp own with down | closed
    · cases hp : entry.processor with
      | none =>
        rw [hp] at down
        cases down
      | some p =>
        rw [hp] at down
        simp only [List.mem_cons, List.not_mem_nil, or_false] at down
        rcases down with rfl | rfl <;> cases hs
    · exact closeHandle_aside _ e closed c hs

theorem stage_shutdown_aside (s : BusProcess) :
    ∀ e ∈ (s.shutdown : BusProcess × List (Effect I F)).2, Aside e := by
  intro e he
  unfold BusProcess.shutdown at he
  split at he
  · cases he
  · rcases List.mem_append.mp he with component | host
    · obtain ⟨t, ht, rfl⟩ := List.mem_map.mp component
      exact Or.inr ⟨t, rfl, shutdown_aside _ t ht⟩
    · exact Or.inl (List.mem_singleton.mp host)

theorem shutdown_standing {entries : List Loaded} {business : Component} {next : Int}
    {ordinal : Nat} {exited : Bool} {s : BusProcess}
    (h : Standing entries business next ordinal exited s) :
    Standing entries business next ordinal true
      (s.shutdown : BusProcess × List (Effect I F)).1 := by
  unfold BusProcess.shutdown
  cases exited with
  | true =>
    rw [if_pos h.isShutdown]
    exact h
  | false =>
    have live : ¬s.isShutdown = true := by
      rw [h.isShutdown]
      exact Bool.false_ne_true
    rw [if_neg live]
    exact ⟨h.next, h.frameSeq, rfl, rfl, rfl⟩

/-- Every message keeps what the messages rely on; it either delivers its frame
or touches no frame at all. -/
theorem process_standing (env : Platform I F) {entries : List Loaded}
    {processors : List Component} {business : Component} {next : Int} {ordinal : Nat}
    {exited : Bool} {s : BusProcess}
    (complete : entries.map Loaded.processor = processors.map some)
    (h : Standing entries business next ordinal exited s) (msg : Message I F) (now : Nat) :
    Standing entries business next (ordinal + msg.inference.toList.length)
      (exited || msg.isExit) (s.process env msg now).after ∧
    (match msg.inference with
      | some data => ∃ calls, Delivered env processors business next (ordinal + 1) exited data now
          (s.process env msg now).effects calls
      | none => ∀ e ∈ (s.process env msg now).effects, Aside e) := by
  unfold BusProcess.process Message.inference Message.isExit
  by_cases started : msg.msgId = kMsgAppStart
  · have notInference : ¬msg.msgId = kMsgInfprocData := by rw [started]; decide
    have notExit : ¬msg.msgId = kMsgAppExit := by rw [started]; decide
    simp only [if_pos started, if_neg notInference, notExit, decide_false, Bool.or_false]
    exact ⟨h, fun e he => absurd he List.not_mem_nil⟩
  by_cases inference : msg.msgId = kMsgInfprocData
  · have notExit : ¬msg.msgId = kMsgAppExit := by rw [inference]; decide
    simp only [if_neg started, if_pos inference, notExit, decide_false, Bool.or_false]
    cases msg.data with
    | none => exact ⟨h, fun e he => absurd he List.not_mem_nil⟩
    | some data =>
      exact ⟨frame_standing env h data now, frame_delivered env complete h data now⟩
  by_cases leaving : msg.msgId = kMsgAppExit
  · simp only [leaving, decide_true, Bool.or_true]
    exact ⟨shutdown_standing h, stage_shutdown_aside s⟩
  · simp only [if_neg started, if_neg inference, leaving, if_false, decide_false, Bool.or_false]
    exact ⟨h, fun e he => absurd he List.not_mem_nil⟩

/-- What `Init` has loaded. -/
def crew (env : Platform I F) (startup : Startup) : List Component :=
  (start env startup).stage.runtime.postprocessors.loaded.filterMap Loaded.processor

theorem processors_complete {entries : List Loaded}
    (whole : ∀ entry ∈ entries, ∃ c, Entry entry c) :
    entries.map Loaded.processor = (entries.filterMap Loaded.processor).map some := by
  induction entries with
  | nil => rfl
  | cons entry rest ih =>
    obtain ⟨c, hc⟩ := whole entry List.mem_cons_self
    rw [List.map_cons, List.filterMap_cons_some hc.1, List.map_cons, hc.1,
      ih fun e he => whole e (List.mem_cons_of_mem _ he)]

theorem scene_init_plugin (env : Surroundings I F) (host : Bool) (config : SceneConfig)
    (r : Runtime) (now : Nat) (ok : (SceneRuntime.init env host config r now).code = 0) :
    ∃ business, (SceneRuntime.init env host config r now).after.business.plugin =
      some business := by
  have loaded : ∀ (m : Manager) (t : Nat),
      (PluginManager.load env host config.scene m t).code = 0 →
        ∃ business, (PluginManager.load env host config.scene m t).after.plugin = some business := by
    intro m t
    unfold PluginManager.load
    simp only []
    split
    · intro h
      exact absurd (show (-1 : Int) = 0 from h) (by decide)
    obtain ⟨c, -, -, -, ⟨failure, events, hf, bad, -⟩ | ho⟩ := plugin_attempt_cases env config.scene
      (t + (PluginManager.unload m : Manager × List (Event I F)).2.length)
    · rw [hf]
      exact fun h => absurd h bad
    · rw [ho]
      exact fun _ => ⟨c, rfl⟩
  unfold SceneRuntime.init at ok ⊢
  simp only [] at ok ⊢
  split
  · rename_i bad
    rw [if_pos bad] at ok
    exact absurd ok bad
  · rename_i good
    rw [if_neg good] at ok
    split
    · rename_i bad
      rw [if_pos bad] at ok
      exact absurd ok bad
    · rename_i fine
      exact loaded _ _ (not_not.mp fine)

/-- After a successful `Init` the loaded components stand ready. -/
theorem start_standing (env : Platform I F) (startup : Startup)
    (ok : (BusProcess.init env startup {} 0).ret = 0) :
    ∃ business, Standing (start env startup).stage.runtime.postprocessors.loaded business
        startup.nextThreadId 0 false (start env startup).stage ∧
      (start env startup).stage.runtime.postprocessors.loaded.map Loaded.processor =
        (crew env startup).map some ∧
      ∃ loading : List (Event I F), (start env startup).trace = loading.map .component := by
  unfold crew start World.after
  unfold BusProcess.init at ok ⊢
  simp only [] at ok ⊢
  split
  · rename_i bad
    rw [if_pos bad] at ok
    exact absurd (show (-1 : Int) = 0 from ok) (by decide)
  rename_i known
  rw [if_neg known] at ok
  split
  · rename_i bad
    rw [if_pos bad] at ok
    exact absurd ok bad
  rename_i hosted
  rw [if_neg hosted] at ok
  cases hconfig : startup.sceneConfig with
  | none =>
    rw [hconfig] at ok
    exact absurd (show (-1 : Int) = 0 from ok) (by decide)
  | some config =>
    rw [hconfig] at ok
    simp only [] at ok ⊢
    split
    · rename_i bad
      rw [if_pos bad] at ok
      exact absurd ok bad
    · rename_i good
      obtain ⟨business, plugin⟩ := scene_init_plugin env.components true config _ 0 (not_not.mp good)
      obtain ⟨⟨sound, -⟩, -⟩ := scene_init_moves env.components true true config 0 sound_start
      exact ⟨business, ⟨rfl, rfl, rfl, rfl, plugin⟩, processors_complete sound.entries, _, rfl⟩

end Frames

section Runs

/-- The standing after any messages: the ordinal counts the inference messages. -/
theorem run_standing (env : Platform I F) (startup : Startup) {business : Component}
    {entries : List Loaded} {processors : List Component} {next : Int}
    (complete : entries.map Loaded.processor = processors.map some)
    (ready : Standing entries business next 0 false (start env startup).stage)
    (messages : List (Message I F)) :
    Standing entries business next (messages.filterMap Message.inference).length
      (messages.any Message.isExit) (run env startup messages).stage := by
  induction messages using List.reverseRecOn with
  | nil => exact ready
  | append_singleton earlier msg ih =>
    have last : run env startup (earlier ++ [msg]) = handle env (run env startup earlier) msg := by
      unfold run
      rw [List.foldl_append]
      rfl
    have step := (process_standing env complete ih msg (run env startup earlier).trace.length).1
    have count : (List.filterMap Message.inference [msg]).length =
        msg.inference.toList.length := by
      cases h : msg.inference <;> simp [h]
    rw [last, List.filterMap_append, List.length_append, count, List.any_append, List.any_cons,
      List.any_nil, Bool.or_false]
    exact step

def forwarded : Effect I F → Option (Int × Int × I)
  | .sendMessage dest msgId image => some (dest, msgId, image)
  | _ => none

theorem forwarded_components (calls : List (Event I F)) :
    (calls.map Effect.component).filterMap forwarded = [] := by
  refine List.filterMap_eq_nil_iff.mpr ?_
  intro e he
  obtain ⟨t, -, rfl⟩ := List.mem_map.mp he
  rfl

theorem Delivered.forwarded {env : Platform I F} {processors : List Component}
    {business : Component} {next : Int} {ordinal : Nat} {exited : Bool} {data : InfData I F}
    {now : Nat} {effects : List (Effect I F)} {calls : List (Event I F)}
    (h : Delivered env processors business next ordinal exited data now effects calls) :
    effects.filterMap BusFrames.forwarded = [(next, kMsgBusprocData, data.image)] := by
  have unmapping : ∀ c : Int, (if c = 0 then [.unmap data.image] else [] :
      List (Effect I F)).filterMap BusFrames.forwarded = [] := by
    intro c
    split <;> rfl
  rw [h.effects_eq, List.filterMap_append, List.filterMap_append, List.filterMap_append,
    forwarded_components, unmapping]
  rfl

theorem forwarded_aside {effects : List (Effect I F)} (aside : ∀ e ∈ effects, Aside e) :
    effects.filterMap forwarded = [] := by
  refine List.filterMap_eq_nil_iff.mpr ?_
  intro e he
  rcases aside e he with rfl | ⟨t, rfl, -⟩ <;> rfl

/-- After a successful `Init`, whatever is sent to the stage and whatever fails:
the inference frames are forwarded in arrival order, each once, and each message
brings about exactly the delivery of its frame, or touches no frame. -/
theorem frame_discipline (env : Platform I F) (startup : Startup)
    (ok : (BusProcess.init env startup {} 0).ret = 0) (messages : List (Message I F)) :
    ∃ business,
      (start env startup).stage.runtime.business.plugin = some business ∧
      (run env startup messages).trace.filterMap forwarded =
        (messages.filterMap Message.inference).map (fun data =>
          (startup.nextThreadId, kMsgBusprocData, data.image)) ∧
      ∀ (earlier later : List (Message I F)) (msg : Message I F),
        messages = earlier ++ msg :: later →
        ∃ effects,
          (run env startup (earlier ++ [msg])).trace =
            (run env startup earlier).trace ++ effects ∧
          match msg.inference with
          | some data => ∃ calls, Delivered env (crew env startup) business startup.nextThreadId
              ((earlier.filterMap Message.inference).length + 1) (earlier.any Message.isExit) data
              (run env startup earlier).trace.length effects calls
          | none => ∀ e ∈ effects, Aside e := by
  obtain ⟨business, ready, complete, loading, started⟩ := start_standing env startup ok
  have plugged : (start env startup).stage.runtime.business.plugin = some business := ready.plugin
  have each : ∀ (earlier : List (Message I F)) (msg : Message I F),
      ∃ effects,
        (run env startup (earlier ++ [msg])).trace = (run env startup earlier).trace ++ effects ∧
        match msg.inference with
        | some data => ∃ calls, Delivered env (crew env startup) business startup.nextThreadId
            ((earlier.filterMap Message.inference).length + 1) (earlier.any Message.isExit) data
            (run env startup earlier).trace.length effects calls
        | none => ∀ e ∈ effects, Aside e := by
    intro earlier msg
    refine ⟨_, ?_, (process_standing env complete (run_standing env startup complete ready earlier)
      msg (run env startup earlier).trace.length).2⟩
    unfold run
    rw [List.foldl_append]
    rfl
  refine ⟨business, plugged, ?_, fun earlier _ msg _ => each earlier msg⟩
  induction messages using List.reverseRecOn with
  | nil =>
    -- `Init` calls components only
    have first : run env startup [] = start env startup := rfl
    rw [first, started, forwarded_components]
    rfl
  | append_singleton earlier msg ih =>
    obtain ⟨effects, trace, law⟩ := each earlier msg
    rw [trace, List.filterMap_append, ih, List.filterMap_append, List.map_append]
    congr 1
    cases h : msg.inference with
    | some data =>
      rw [h] at law
      obtain ⟨calls, delivered⟩ := law
      rw [delivered.forwarded]
      simp [h]
    | none =>
      rw [h] at law
      rw [forwarded_aside law]
      simp [h]

/-- The post-processor fails on the second frame. -/
def secondFails : Platform Nat ℚ where
  components :=
    { library := fun _ => { name := some "face" }
      process := fun _ context => (if context.frameSeq = 2 then 5 else 0, context.objects)
      onFrame := fun _ _ _ => 0
      clock := fun _ => 0 }
  ensureMapped _ := { code := 0, virAddr := 4096 }
  sendMessage _ := 0
  reportClock _ := (0, 0)

def oneProcessor : Startup :=
  ⟨4, 0, some ⟨⟨"face", "libface.so", 1, true⟩, [⟨"track", "libtrack.so", 1, true⟩]⟩⟩

/-- A good frame, a null message, a failing frame, the exit and a late frame. -/
def mixedMessages : List (Message Nat ℚ) :=
  [⟨4, some ⟨10, []⟩⟩, ⟨4, none⟩, ⟨4, some ⟨11, []⟩⟩, ⟨10, none⟩, ⟨4, some ⟨12, []⟩⟩]

theorem forwarded_whatever_fails :
    (run secondFails oneProcessor mixedMessages).trace.filterMap forwarded =
      [(4, 5, 10), (4, 5, 11), (4, 5, 12)] := by
  obtain ⟨business, -, forwards, -⟩ := frame_discipline secondFails oneProcessor rfl mixedMessages
  exact forwards

end Runs

end BusFrames
