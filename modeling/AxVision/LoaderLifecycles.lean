import AxVision.LoaderMoves

/-!
# Lifecycle discipline of the loaders

The chain, the manager and the runtime that owns both are driven by any calls,
then destroyed. Each operation is shown to be a sequence of moves; what moves
keep then holds of the trace of the whole run.
-/

namespace LoaderLifecycles

open TransitionRuns LifecycleTraces ComponentLoaders LoaderMoves
open PostProcessorChain PluginManager SceneRuntime DetectionTypes

universe u v

variable {I : Type u} {F : Type v}

/-- `Process` of a component is one of its methods; the calls are the public ones. -/
inductive Call (I : Type u) (F : Type v) where
  | chainLoad (configs : List ComponentConfig)
  | chainProcess (context : PostProcessContext I F)
  | chainUnload
  | pluginLoad (host : Bool) (config : ComponentConfig)
  | pluginOnFrame (frame : I) (objects : List (Object F))
  | pluginUnload
  | sceneInit (host : Bool) (config : SceneConfig)
  | sceneProcess (frame : I) (objects : List (Object F)) (frameSeq : Nat)
  | sceneShutdown

structure World (I : Type u) (F : Type v) where
  runtime : Runtime := {}
  trace : List (Event I F) := []

def Call.outcome (env : Surroundings I F) (r : Runtime) (now : Nat) :
    Call I F → Outcome Runtime I F
  | .chainLoad configs =>
    let o := PostProcessorChain.load env configs r.postprocessors now
    ⟨o.code, { r with postprocessors := o.after }, o.events⟩
  | .chainProcess context =>
    let o := (PostProcessorChain.process env context r.postprocessors now).1
    ⟨o.code, { r with postprocessors := o.after }, o.events⟩
  | .chainUnload =>
    let o := PostProcessorChain.unload r.postprocessors
    ⟨0, { r with postprocessors := o.1 }, o.2⟩
  | .pluginLoad host config =>
    let o := PluginManager.load env host config r.business now
    ⟨o.code, { r with business := o.after }, o.events⟩
  | .pluginOnFrame frame objects =>
    let o := PluginManager.onFrame env frame objects r.business now
    ⟨o.1, r, o.2⟩
  | .pluginUnload =>
    let o := PluginManager.unload r.business
    ⟨0, { r with business := o.1 }, o.2⟩
  | .sceneInit host config => SceneRuntime.init env host config r now
  | .sceneProcess frame objects frameSeq =>
    let o := SceneRuntime.process env frame objects frameSeq r now
    ⟨o.1.code, o.2.1, o.2.2.2⟩
  | .sceneShutdown =>
    let o := SceneRuntime.shutdown r
    ⟨0, o.1, o.2⟩

def Call.onScene : Call I F → Bool
  | .sceneInit _ _ => true
  | .sceneProcess _ _ _ => true
  | .sceneShutdown => true
  | _ => false

def perform (env : Surroundings I F) (w : World I F) (call : Call I F) : World I F :=
  let o := call.outcome env w.runtime w.trace.length
  ⟨o.after, w.trace ++ o.events⟩

def run (env : Surroundings I F) (calls : List (Call I F)) : World I F :=
  calls.foldl (perform env) {}

/-- `~SceneRuntime`, then the destructors of `business_` and `postprocessors_`. -/
def finish (w : World I F) : World I F :=
  let down := SceneRuntime.shutdown (I := I) (F := F) w.runtime
  let business := PluginManager.unload (I := I) (F := F) down.1.business
  let chain := PostProcessorChain.unload (I := I) (F := F) down.1.postprocessors
  ⟨⟨chain.1, business.1⟩, w.trace ++ (down.2 ++ business.2 ++ chain.2)⟩

/-- An entry of the chain holds one component. -/
def Entry (entry : Loaded) (c : Component) : Prop :=
  entry.processor = some c ∧ entry.soHandle = some c ∧ c.role = .postProcessor

def owned (chain : Chain) : List Component := chain.loaded.filterMap (·.soHandle)

/-- The manager's fields are set together. -/
structure Tied (m : Manager) : Prop where
  handle : m.soHandle = m.plugin
  fields : ∀ c, m.plugin = some c → m.host = true ∧ m.name = c.name ∧ c.role = .business

structure Sound (r : Runtime) : Prop where
  entries : ∀ entry ∈ r.postprocessors.loaded, ∃ c, Entry entry c
  tied : Tied r.business

def held (r : Runtime) : List Component := r.business.plugin.toList ++ (owned r.postprocessors).reverse

theorem tied_empty : Tied {} := ⟨rfl, fun _ h => by cases h⟩

theorem sound_start : Sound {} := ⟨fun _ h => absurd h List.not_mem_nil, tied_empty⟩

section Chain

theorem teardown_entry {entry : Loaded} {c : Component} (h : Entry entry c) :
    (teardown entry : List (Event I F)) = closing c := by
  obtain ⟨hp, hh, role⟩ := h
  unfold teardown closing notice closeHandle
  rw [hp, hh, role]
  rfl

/-- How an attempt to load can end: with a failure that the component passed by,
or with the component opened, created and initialised. -/
def Attempted {α : Type} (c : Component) (entered : α → Prop)
    (result : Except Failure α × List (Event I F)) : Prop :=
  (∃ failure events, result = (.error failure, events) ∧ failure.code ≠ 0 ∧ Passing c events) ∨
    ∃ entry, result = (.ok entry, [.dlopen c, .create c, .init c]) ∧ entered entry

theorem Attempted.failed {α : Type} {c : Component} {entered : α → Prop} {failure : Failure}
    {events : List (Event I F)} (bad : failure.code ≠ 0) (passing : Passing c events) :
    Attempted c entered (.error failure, events) :=
  Or.inl ⟨failure, events, rfl, bad, passing⟩

theorem minus_one_ne : (-1 : Int) ≠ 0 := by decide

theorem chain_attempted (env : Surroundings I F) (config : ComponentConfig) (now : Nat) :
    Attempted ⟨.postProcessor, now, config.name⟩ (Entry · ⟨.postProcessor, now, config.name⟩)
      (PostProcessorChain.attempt env config now) := by
  unfold PostProcessorChain.attempt
  simp only []
  split
  · exact .failed minus_one_ne (.unopened _ _)
  split
  · exact .failed minus_one_ne .uncreated
  split
  · exact .failed minus_one_ne .uncreated
  split
  · exact .failed minus_one_ne .unfit
  split
  · exact .failed minus_one_ne .unfit
  split
  · exact .failed ‹_› .uninitialised
  · exact Or.inr ⟨_, rfl, rfl, rfl, rfl⟩

/-- What one round of `Load` can do. -/
theorem attempt_cases (env : Surroundings I F) (config : ComponentConfig) (now : Nat) :
    ∃ c : Component, c.serial = now ∧
      ((∃ failure events, PostProcessorChain.attempt env config now = (.error failure, events) ∧
          failure.code ≠ 0 ∧ Passing c events) ∨
        (∃ entry, PostProcessorChain.attempt env config now =
          (.ok entry, [.dlopen c, .create c, .init c]) ∧ Entry entry c)) :=
  ⟨⟨.postProcessor, now, config.name⟩, rfl, chain_attempted env config now⟩

theorem entries_moves (strict : Bool) {base : List Component} :
    ∀ (entries : List Loaded) (now : Nat), (∀ entry ∈ entries, ∃ c, Entry entry c) →
      Moves strict now (entries.filterMap (·.soHandle) ++ base)
        (entries.flatMap teardown : List (Event I F)) base := by
  intro entries
  induction entries with
  | nil =>
    intro now _
    exact .idle
  | cons entry rest ih =>
    intro now complete
    obtain ⟨c, hc⟩ := complete entry List.mem_cons_self
    have tail := ih (now + (closing c : List (Event I F)).length)
      fun e he => complete e (List.mem_cons_of_mem _ he)
    rw [List.flatMap_cons, teardown_entry hc, List.filterMap_cons_some hc.2.1]
    exact .trans .closing tail

theorem unload_moves (strict : Bool) {chain : Chain} (base : List Component) (now : Nat)
    (complete : ∀ entry ∈ chain.loaded, ∃ c, Entry entry c) :
    Moves strict now ((owned chain).reverse ++ base)
      (PostProcessorChain.unload chain : Chain × List (Event I F)).2 base := by
  unfold owned PostProcessorChain.unload
  rw [← List.filterMap_reverse]
  exact entries_moves strict _ now fun e he => complete e (List.mem_reverse.mp he)

theorem admits_over {base upper : List Component} (c : Component)
    (low : ∀ d ∈ base, d.role = .postProcessor) (high : ∀ d ∈ upper, d.role = .postProcessor) :
    admits (upper ++ base) c = true := by
  unfold admits
  refine Bool.or_eq_true_iff.mpr (Or.inr (List.all_eq_true.mpr ?_))
  intro d hd
  have hrole : d.role = .postProcessor := by
    rcases List.mem_append.mp hd with h | h
    · exact high d h
    · exact low d h
  simp [hrole]

theorem entries_role {entries : List Loaded} (complete : ∀ entry ∈ entries, ∃ c, Entry entry c) :
    ∀ d ∈ (entries.filterMap (·.soHandle)).reverse, d.role = .postProcessor := by
  intro d hd
  obtain ⟨entry, hentry, handle⟩ := List.mem_filterMap.mp (List.mem_reverse.mp hd)
  obtain ⟨c, hc⟩ := complete entry hentry
  have hcd : c = d := Option.some.inj (hc.2.1.symm.trans handle)
  exact hcd ▸ hc.2.2

/-- The loop of `Load` fills the chain, or fails and leaves it empty. -/
theorem loadAll_moves (env : Surroundings I F) (strict : Bool) {base : List Component}
    (low : strict = true → ∀ d ∈ base, d.role = .postProcessor) :
    ∀ (configs : List ComponentConfig) (chain : Chain) (now : Nat),
      (∀ entry ∈ chain.loaded, ∃ c, Entry entry c) →
      (∀ entry ∈ (loadAll env configs chain now).after.loaded, ∃ c, Entry entry c) ∧
      Moves strict now ((owned chain).reverse ++ base) (loadAll env configs chain now).events
        ((owned (loadAll env configs chain now).after).reverse ++ base) ∧
      ((loadAll env configs chain now).code ≠ 0 →
        (loadAll env configs chain now).after.loaded = []) := by
  intro configs
  induction configs with
  | nil =>
    intro chain now complete
    exact ⟨complete, .idle, fun bad => absurd rfl bad⟩
  | cons config rest ih =>
    intro chain now complete
    unfold loadAll
    split
    · exact ih chain now complete
    have allowed : ∀ c : Component, strict = true →
        admits ((owned chain).reverse ++ base) c = true :=
      fun c hs => admits_over c (low hs) (entries_role complete)
    obtain ⟨c, new, ⟨failure, events, hf, bad, passes⟩ | ⟨entry, ho, hentry⟩⟩ :=
      attempt_cases env config now
    · rw [hf]
      refine ⟨fun e he => absurd he List.not_mem_nil, ?_, fun _ => rfl⟩
      exact .trans (.passing new (allowed c) passes) (unload_moves strict _ _ complete)
    · rw [ho]
      have complete' : ∀ e ∈ chain.loaded ++ [entry], ∃ c, Entry e c := by
        intro e he
        rcases List.mem_append.mp he with old | latest
        · exact complete e old
        · exact ⟨c, List.mem_singleton.mp latest ▸ hentry⟩
      obtain ⟨whole, moves, empty⟩ :=
        ih { chain with loaded := chain.loaded ++ [entry] } (now + 3) complete'
      refine ⟨whole, ?_, empty⟩
      have grown : (owned { chain with loaded := chain.loaded ++ [entry] }).reverse =
          c :: (owned chain).reverse := by
        simp [owned, List.filterMap_append, hentry.2.1]
      rw [grown] at moves
      exact .trans (.opening new (allowed c)) moves

theorem load_moves (env : Surroundings I F) (strict : Bool) (base : List Component)
    (low : strict = true → ∀ d ∈ base, d.role = .postProcessor) (configs : List ComponentConfig)
    {chain : Chain} (now : Nat) (complete : ∀ entry ∈ chain.loaded, ∃ c, Entry entry c) :
    (∀ entry ∈ (PostProcessorChain.load env configs chain now).after.loaded, ∃ c, Entry entry c) ∧
    Moves strict now ((owned chain).reverse ++ base)
      (PostProcessorChain.load env configs chain now).events
      ((owned (PostProcessorChain.load env configs chain now).after).reverse ++ base) ∧
    ((PostProcessorChain.load env configs chain now).code ≠ 0 →
      (PostProcessorChain.load env configs chain now).after.loaded = []) := by
  obtain ⟨whole, moves, empty⟩ := loadAll_moves env strict low configs
    { loaded := [], lastError := "" }
    (now + (PostProcessorChain.unload chain : Chain × List (Event I F)).2.length)
    (fun e he => absurd he List.not_mem_nil)
  exact ⟨whole, .trans (unload_moves strict base now complete) moves, empty⟩

theorem processAll_moves (env : Surroundings I F) (strict : Bool) {holding : List Component} :
    ∀ (entries : List Loaded) (context : PostProcessContext I F) (now : Nat),
      (∀ entry ∈ entries, ∃ c ∈ holding, entry.processor = some c) →
      Moves strict now holding (processAll env entries context now).2.2 holding := by
  intro entries
  induction entries with
  | nil =>
    intro context now _
    exact .idle
  | cons entry rest ih =>
    intro context now complete
    obtain ⟨c, hc, processor⟩ := complete entry List.mem_cons_self
    unfold processAll
    rw [processor]
    simp only []
    split
    · exact .working hc rfl
    · have tail := ih { context with objects := (env.process now context).2 } (now + 1)
        fun e he => complete e (List.mem_cons_of_mem _ he)
      exact .trans (.working hc rfl) tail

theorem process_moves (env : Surroundings I F) (strict : Bool) {holding : List Component}
    (context : PostProcessContext I F) {chain : Chain} (now : Nat)
    (complete : ∀ entry ∈ chain.loaded, ∃ c ∈ holding, entry.processor = some c) :
    (PostProcessorChain.process env context chain now).1.after.loaded = chain.loaded ∧
    Moves strict now holding (PostProcessorChain.process env context chain now).1.events
      holding := by
  have moves := processAll_moves env strict chain.loaded context now complete
  unfold PostProcessorChain.process
  split
  · rename_i heq
    rw [heq] at moves
    exact ⟨rfl, moves⟩
  · rename_i heq
    rw [heq] at moves
    exact ⟨rfl, moves⟩

end Chain

section Manager

theorem plugin_attempted (env : Surroundings I F) (config : ComponentConfig) (now : Nat) :
    Attempted ⟨.business, now, config.name⟩ (· = ⟨.business, now, config.name⟩)
      (PluginManager.attempt env config now) := by
  unfold PluginManager.attempt
  simp only []
  split
  · exact .failed minus_one_ne (.unopened _ _)
  split
  · exact .failed minus_one_ne .uncreated
  split
  · exact .failed minus_one_ne .uncreated
  split
  · exact .failed minus_one_ne .unfit
  split
  · exact .failed minus_one_ne .unfit
  split
  · exact .failed minus_one_ne .unfit
  split
  · exact .failed ‹_› .uninitialised
  · exact Or.inr ⟨_, rfl, rfl⟩

/-- What `PluginManager::Load` can do once the host is set. -/
theorem plugin_attempt_cases (env : Surroundings I F) (config : ComponentConfig) (now : Nat) :
    ∃ c : Component, c.serial = now ∧ c.role = .business ∧ c.name = config.name ∧
      ((∃ failure events, PluginManager.attempt env config now = (.error failure, events) ∧
          failure.code ≠ 0 ∧ Passing c events) ∨
        PluginManager.attempt env config now = (.ok c, [.dlopen c, .create c, .init c])) := by
  refine ⟨⟨.business, now, config.name⟩, rfl, rfl, rfl, ?_⟩
  rcases plugin_attempted env config now with failed | ⟨c, opened, rfl⟩
  · exact Or.inl failed
  · exact Or.inr opened

theorem plugin_unload_moves (strict : Bool) {m : Manager} {base : List Component} (now : Nat)
    (tied : Tied m) :
    Moves strict now (m.plugin.toList ++ base)
      (PluginManager.unload m : Manager × List (Event I F)).2 base := by
  obtain ⟨handle, fields⟩ := tied
  unfold PluginManager.unload
  rw [handle]
  cases hp : m.plugin with
  | none => exact .idle
  | some c =>
    obtain ⟨host, name, role⟩ := fields c hp
    have same : (if m.host then [Event.waitQuiesce m.name] else []) ++
        [Event.shutdown c, Event.destroy c] ++ closeHandle (some c) =
          (closing c : List (Event I F)) := by
      simp only [closing, notice, closeHandle, host, name, role, if_true, List.cons_append,
        List.nil_append]
    simp only [same]
    exact .closing

theorem plugin_load_moves (env : Surroundings I F) (strict : Bool) (base : List Component)
    (host : Bool) (config : ComponentConfig) {m : Manager} (now : Nat) (tied : Tied m) :
    Tied (PluginManager.load env host config m now).after ∧
    Moves strict now (m.plugin.toList ++ base) (PluginManager.load env host config m now).events
      ((PluginManager.load env host config m now).after.plugin.toList ++ base) ∧
    ((PluginManager.load env host config m now).code ≠ 0 →
      (PluginManager.load env host config m now).after = {}) := by
  have down : Moves strict now (m.plugin.toList ++ base)
      (PluginManager.unload m : Manager × List (Event I F)).2 base :=
    plugin_unload_moves strict now tied
  unfold PluginManager.load
  simp only []
  split
  · exact ⟨tied_empty, down, fun _ => rfl⟩
  obtain ⟨c, new, role, name, ⟨failure, events, hf, bad, passes⟩ | ho⟩ :=
    plugin_attempt_cases env config
      (now + (PluginManager.unload m : Manager × List (Event I F)).2.length)
  · rw [hf]
    refine ⟨tied_empty, .trans down (.passing new ?_ passes), fun _ => rfl⟩
    intro _
    simp [admits, role]
  · rw [ho]
    refine ⟨⟨rfl, ?_⟩, .trans down (.opening new ?_), fun bad => absurd rfl bad⟩
    · intro d hd
      cases hd
      exact ⟨rfl, name.symm, role⟩
    · intro _
      simp [admits, role]

theorem onFrame_moves (env : Surroundings I F) (strict : Bool) {holding : List Component}
    (frame : I) (objects : List (Object F)) {m : Manager} (now : Nat)
    (present : ∀ c, m.plugin = some c → c ∈ holding) :
    Moves strict now holding (PluginManager.onFrame env frame objects m now).2 holding := by
  unfold PluginManager.onFrame
  cases hp : m.plugin with
  | none => exact .idle
  | some c => exact .working (present c hp) rfl

end Manager

section Scene

/-- Everything a call needs to know of the runtime before and after it. -/
def Advances (strict : Bool) (now : Nat) (r : Runtime) (o : Outcome Runtime I F) : Prop :=
  Sound o.after ∧ Moves strict now (held r) o.events (held o.after)

theorem shutdown_moves (strict : Bool) {r : Runtime} (now : Nat) (sound : Sound r) :
    Moves strict now (held r) (SceneRuntime.shutdown r : Runtime × List (Event I F)).2 [] := by
  have processors : ∀ now, Moves strict now (owned r.postprocessors).reverse
      (PostProcessorChain.unload r.postprocessors : Chain × List (Event I F)).2 [] := by
    intro now
    have moves := unload_moves (I := I) (F := F) strict [] now sound.entries
    simpa only [List.append_nil] using moves
  exact .trans (plugin_unload_moves strict now sound.tied) (processors _)

theorem sound_down (r : Runtime) :
    Sound (SceneRuntime.shutdown r : Runtime × List (Event I F)).1 :=
  ⟨fun _ he => absurd he List.not_mem_nil, tied_empty⟩

theorem scene_init_moves (env : Surroundings I F) (strict : Bool) (host : Bool)
    (config : SceneConfig) {r : Runtime} (now : Nat) (sound : Sound r) :
    Advances strict now r (SceneRuntime.init env host config r now) ∧
    ((SceneRuntime.init env host config r now).code ≠ 0 →
      (SceneRuntime.init env host config r now).after.postprocessors.loaded = [] ∧
      (SceneRuntime.init env host config r now).after.business = {}) := by
  have clearing := shutdown_moves (I := I) (F := F) strict now sound
  have loaded : (SceneRuntime.shutdown r : Runtime × List (Event I F)).1.postprocessors.loaded =
      [] := rfl
  have business : (SceneRuntime.shutdown r : Runtime × List (Event I F)).1.business = {} := rfl
  unfold SceneRuntime.init
  generalize (SceneRuntime.shutdown r : Runtime × List (Event I F)) = cleared at *
  obtain ⟨entries, filling, -⟩ := load_moves env strict []
    (fun _ d hd => absurd hd List.not_mem_nil) config.postprocessors
    (now + cleared.2.length) (fun e he => absurd (loaded ▸ he) List.not_mem_nil)
  have vacant : owned cleared.1.postprocessors = [] := by rw [owned, loaded]; rfl
  rw [vacant, List.reverse_nil, List.append_nil, List.append_nil] at filling
  simp only [business]
  generalize PostProcessorChain.load env config.postprocessors cleared.1.postprocessors
    (now + cleared.2.length) = chain at *
  split
  · -- the chain failed: its own unloading left it empty
    refine ⟨⟨sound_down _, ?_⟩, fun _ => ⟨rfl, rfl⟩⟩
    have down := shutdown_moves (I := I) (F := F) strict (r := ⟨chain.after, {}⟩)
      (now + cleared.2.length + chain.events.length) ⟨entries, tied_empty⟩
    rw [List.append_assoc]
    exact .trans clearing (.trans filling down)
  obtain ⟨tied, plugging, -⟩ := plugin_load_moves env strict (owned chain.after).reverse
    host config.scene (now + cleared.2.length + chain.events.length) tied_empty
  generalize PluginManager.load env host config.scene {}
    (now + cleared.2.length + chain.events.length) = manager at *
  split
  · refine ⟨⟨sound_down _, ?_⟩, fun _ => ⟨rfl, rfl⟩⟩
    have down := shutdown_moves (I := I) (F := F) strict (r := ⟨chain.after, manager.after⟩)
      (now + cleared.2.length + chain.events.length + manager.events.length) ⟨entries, tied⟩
    rw [List.append_assoc, List.append_assoc]
    exact .trans clearing (.trans filling (.trans plugging down))
  · refine ⟨⟨⟨entries, tied⟩, ?_⟩, fun bad => absurd rfl bad⟩
    rw [List.append_assoc]
    exact .trans clearing (.trans filling plugging)

theorem entry_held {r : Runtime} (sound : Sound r) :
    ∀ entry ∈ r.postprocessors.loaded, ∃ c ∈ held r, entry.processor = some c := by
  intro entry he
  obtain ⟨c, hc⟩ := sound.entries entry he
  refine ⟨c, ?_, hc.1⟩
  refine List.mem_append_right _ (List.mem_reverse.mpr ?_)
  exact List.mem_filterMap.mpr ⟨entry, he, hc.2.1⟩

theorem plugin_held (r : Runtime) : ∀ c, r.business.plugin = some c → c ∈ held r := by
  intro c hc
  exact List.mem_append_left _ (by rw [hc]; exact List.mem_singleton.mpr rfl)

/-- A call that keeps the entries and the manager keeps what is held. -/
theorem held_congr {r t : Runtime} (loaded : t.postprocessors.loaded = r.postprocessors.loaded)
    (business : t.business = r.business) : held t = held r := by
  unfold held owned
  rw [loaded, business]

theorem scene_process_moves (env : Surroundings I F) (strict : Bool) (frame : I)
    (objects : List (Object F)) (frameSeq : Nat) {r : Runtime} (now : Nat) (sound : Sound r) :
    Sound (SceneRuntime.process env frame objects frameSeq r now).2.1 ∧
    Moves strict now (held r) (SceneRuntime.process env frame objects frameSeq r now).2.2.2
      (held (SceneRuntime.process env frame objects frameSeq r now).2.1) := by
  obtain ⟨loaded, moves⟩ := process_moves env strict
    { frame := frame
      objects := objects.map fun o => { o with trackId := -1 }
      frameSeq := frameSeq
      timestamp := env.clock now } now (entry_held sound)
  have kept : Sound { r with
      postprocessors := (PostProcessorChain.process env
        { frame := frame
          objects := objects.map fun o => { o with trackId := -1 }
          frameSeq := frameSeq
          timestamp := env.clock now } r.postprocessors now).1.after } :=
    ⟨by rw [loaded]; exact sound.entries, sound.tied⟩
  have same := held_congr (r := r) (t := { r with
      postprocessors := (PostProcessorChain.process env
        { frame := frame
          objects := objects.map fun o => { o with trackId := -1 }
          frameSeq := frameSeq
          timestamp := env.clock now } r.postprocessors now).1.after }) loaded rfl
  unfold SceneRuntime.process
  simp only []
  split
  · exact ⟨kept, same.symm ▸ moves⟩
  split
  · exact ⟨kept, same.symm ▸ .trans moves (onFrame_moves env strict _ _ _ (plugin_held r))⟩
  · exact ⟨kept, same.symm ▸ .trans moves (onFrame_moves env strict _ _ _ (plugin_held r))⟩

end Scene

section Runs

/-- Calls on the chain see the business plugin below it. -/
theorem moves_under {now : Nat} {P Q A B : List Component} {es : List (Event I F)}
    (moves : Moves false now (A ++ P) es (B ++ Q)) : Moves false now (P ++ A) es (Q ++ B) := by
  have there : Moves false now (P ++ A) ([] : List (Event I F)) (A ++ P) :=
    .reorder rfl List.perm_append_comm
  have back : Moves false (now + es.length) (B ++ Q) ([] : List (Event I F)) (Q ++ B) :=
    .reorder rfl List.perm_append_comm
  have whole := Moves.trans there (Moves.trans moves back)
  rw [List.nil_append, List.append_nil] at whole
  exact whole

theorem outcome_scene (env : Surroundings I F) (strict : Bool) {r : Runtime} (now : Nat)
    (sound : Sound r) {call : Call I F} (scene : call.onScene = true) :
    Advances strict now r (call.outcome env r now) := by
  cases call with
  | sceneInit host config => exact (scene_init_moves env strict host config now sound).1
  | sceneProcess frame objects frameSeq =>
    exact scene_process_moves env strict frame objects frameSeq now sound
  | sceneShutdown =>
    exact ⟨⟨fun e he => absurd he List.not_mem_nil, tied_empty⟩, shutdown_moves strict now sound⟩
  | _ => cases scene

theorem outcome_advances (env : Surroundings I F) {r : Runtime} (now : Nat) (sound : Sound r)
    (call : Call I F) : Advances false now r (call.outcome env r now) := by
  cases call with
  | chainLoad configs =>
    obtain ⟨entries, moves, -⟩ := load_moves env false r.business.plugin.toList
      (fun h => by cases h) configs now sound.entries
    exact ⟨⟨entries, sound.tied⟩, moves_under moves⟩
  | chainProcess context =>
    obtain ⟨loaded, moves⟩ := process_moves env false context now (entry_held sound)
    refine ⟨⟨?_, sound.tied⟩, ?_⟩
    · exact loaded.symm ▸ sound.entries
    · exact (held_congr (r := r) (t := ((Call.chainProcess context).outcome env r now).after)
        loaded rfl).symm ▸ moves
  | chainUnload =>
    have moves := unload_moves (I := I) (F := F) false r.business.plugin.toList now
      sound.entries
    refine ⟨⟨fun e he => absurd he List.not_mem_nil, sound.tied⟩, ?_⟩
    exact moves_under (B := []) moves
  | pluginLoad host config =>
    obtain ⟨tied, moves, -⟩ := plugin_load_moves env false
      (owned r.postprocessors).reverse host config now sound.tied
    exact ⟨⟨sound.entries, tied⟩, moves⟩
  | pluginOnFrame frame objects =>
    exact ⟨sound, onFrame_moves env false frame objects now (plugin_held r)⟩
  | pluginUnload =>
    exact ⟨⟨sound.entries, tied_empty⟩, plugin_unload_moves false now sound.tied⟩
  | sceneInit host config => exact outcome_scene env false now sound rfl
  | sceneProcess frame objects frameSeq => exact outcome_scene env false now sound rfl
  | sceneShutdown => exact outcome_scene env false now sound rfl

/-- The bookkeeping of a world between two calls. -/
structure Kept (w : World I F) : Prop where
  sound : Sound w.runtime
  books : Books (held w.runtime) w.trace

theorem kept_start : Kept ({} : World I F) := ⟨sound_start, books_nil⟩

theorem perform_kept (env : Surroundings I F) {w : World I F} (h : Kept w) (call : Call I F) :
    Kept (perform env w call) := by
  obtain ⟨sound, moves⟩ := outcome_advances env w.trace.length h.sound call
  exact ⟨sound, moves.books w.trace rfl h.books⟩

theorem run_kept (env : Surroundings I F) (calls : List (Call I F)) : Kept (run env calls) := by
  have from_world : ∀ (calls : List (Call I F)) (w : World I F), Kept w →
      Kept (calls.foldl (perform env) w) := by
    intro calls
    induction calls with
    | nil =>
      intro w h
      exact h
    | cons call rest ih =>
      intro w h
      exact ih _ (perform_kept env h call)
  exact from_world calls {} kept_start

theorem run_nested (env : Surroundings I F) (calls : List (Call I F))
    (scene : ∀ call ∈ calls, call.onScene = true) :
    (nesting admits).exec [] (turns (run env calls).trace) =
      some (held (run env calls).runtime) := by
  have from_world : ∀ (calls : List (Call I F)) (w : World I F),
      (∀ call ∈ calls, call.onScene = true) → Kept w →
      (nesting admits).exec [] (turns w.trace) = some (held w.runtime) →
      (nesting admits).exec [] (turns (calls.foldl (perform env) w).trace) =
        some (held (calls.foldl (perform env) w).runtime) := by
    intro calls
    induction calls with
    | nil =>
      intro w _ _ h
      exact h
    | cons call rest ih =>
      intro w scene kept h
      refine ih _ (fun c hc => scene c (List.mem_cons_of_mem _ hc)) (perform_kept env kept call) ?_
      obtain ⟨-, moves⟩ := outcome_scene env true w.trace.length kept.sound
        (scene call List.mem_cons_self)
      have onward := moves.nested
      have split : turns (perform env w call).trace =
          turns w.trace ++ turns (call.outcome env w.runtime w.trace.length).events :=
        turns_append _ _
      rw [split, Machine.exec_append, h]
      exact onward
  exact from_world calls {} scene kept_start rfl

/-- The destructors close whatever is still open. -/
theorem finish_moves (strict : Bool) {w : World I F} (h : Kept w) :
    ∃ es, (finish w).trace = w.trace ++ es ∧
      Moves strict w.trace.length (held w.runtime) es [] := by
  refine ⟨(SceneRuntime.shutdown w.runtime : Runtime × List (Event I F)).2, ?_,
    shutdown_moves strict _ h.sound⟩
  have rest : (finish w).trace =
      w.trace ++ ((SceneRuntime.shutdown w.runtime : Runtime × List (Event I F)).2 ++ [] ++ []) :=
    rfl
  rw [rest, List.append_nil, List.append_nil]

theorem finish_books (env : Surroundings I F) (calls : List (Call I F)) :
    Books [] (finish (run env calls)).trace := by
  obtain ⟨es, split, moves⟩ := finish_moves false (run_kept env calls)
  rw [split]
  exact moves.books _ rfl (run_kept env calls).books

end Runs

section Discipline

theorem subject_opening {e : Event I F} {c : Component} :
    subject e = some (c, .opening) ↔ e = .dlopen c := by
  cases e <;> simp [subject]

theorem subject_closing {e : Event I F} {c : Component} :
    subject e = some (c, .closing) ↔ e = .dlclose c := by
  cases e <;> simp [subject]

theorem enters_iff {tr : List (Event I F)} {c : Component} :
    Turn.enter c ∈ turns tr ↔ .dlopen c ∈ tr := by
  unfold turns
  constructor
  · intro h
    obtain ⟨e, he, ht⟩ := List.mem_filterMap.mp h
    cases e <;> cases ht
    exact he
  · intro h
    exact List.mem_filterMap.mpr ⟨_, h, rfl⟩

theorem leaves_iff {tr : List (Event I F)} {c : Component} :
    Turn.leave c ∈ turns tr ↔ .dlclose c ∈ tr := by
  unfold turns
  constructor
  · intro h
    obtain ⟨e, he, ht⟩ := List.mem_filterMap.mp h
    cases e <;> cases ht
    exact he
  · intro h
    exact List.mem_filterMap.mpr ⟨_, h, rfl⟩

theorem closed_of_unheld {holding : List Component} {tr : List (Event I F)}
    (books : Books holding tr) {c : Component} (free : c ∉ holding) (opened : .dlopen c ∈ tr) :
    .dlclose c ∈ tr := by
  obtain ⟨e, he, hs⟩ := books.accounted.closed free ⟨_, opened, subject_opening.mpr rfl⟩
  exact subject_closing.mp hs ▸ he

/-- The steps that take an instance or its library down. -/
def takesDown : Event I F → Option Component
  | .shutdown c => some c
  | .destroy c => some c
  | .dlclose c => some c
  | _ => none

/-- What was loaded after a component is closed before any part of it is taken
down, and so is every business plugin before a post-processor. -/
def TornDownInReverse (tr : List (Event I F)) : Prop :=
  ∀ (before between after : List (Event I F)) (c : Component) (e : Event I F),
    tr = before ++ .dlopen c :: between ++ e :: after → takesDown e = some c →
      (∀ d, .dlopen d ∈ between → .dlclose d ∈ between) ∧
      (c.role = .postProcessor → ∀ d : Component, d.role = .business →
        .dlopen d ∈ before ++ between → .dlclose d ∈ before ++ between)

/-- The component taken down is the one on top. -/
theorem top_of_takesDown {e : Event I F} {after : List (Event I F)} {c : Component}
    {stack later : List Component} (down : takesDown e = some c)
    (run : (nesting admits).exec stack (turns (e :: after)) = some later) :
    stack.head? = some c := by
  cases e with
  | shutdown d =>
    cases down
    obtain ⟨mid, ht, -⟩ := nesting_cons run
    exact (apply_touch ht).1
  | destroy d =>
    cases down
    obtain ⟨mid, ht, -⟩ := nesting_cons run
    exact (apply_touch ht).1
  | dlclose d =>
    cases down
    obtain ⟨mid, ht, -⟩ := nesting_cons run
    rw [apply_leave ht]
    rfl
  | _ => cases down

theorem tornDown_of_nested {tr : List (Event I F)} {stack : List Component}
    (nested : (nesting admits).exec [] (turns tr) = some stack) (books : Books [] tr) :
    TornDownInReverse tr := by
  intro before between after c e split down
  have whole : Whole (lifeline subject c tr) := by
    rcases books.accounted.whole (c := c) List.not_mem_nil with empty | whole
    · have present : Stage.opening ∈ lifeline subject c tr :=
        mem_lifeline.mpr ⟨.dlopen c, by rw [split]; simp, rfl⟩
      rw [empty] at present
      cases present
    · exact whole
  rw [split, List.append_assoc, List.cons_append] at whole
  obtain ⟨first, once⟩ := opened_once (subject_opening.mpr rfl) whole
  rw [split, turns_append, Machine.exec_append, Option.bind_eq_some_iff] at nested
  obtain ⟨mid, run, onward⟩ := nested
  have top := top_of_takesDown down onward
  have named : turns (before ++ .dlopen c :: between) =
      turns before ++ .enter c :: turns between := turns_append _ _
  rw [named] at run
  have newer : ∀ d, .dlopen d ∈ between → .dlclose d ∈ between := by
    intro d opened
    refine leaves_iff.mp (nested_order run top ?_ ?_ (enters_iff.mpr opened))
    · intro again
      exact first _ (enters_iff.mp again) rfl
    · intro again
      exact once _ (List.mem_append_left _ (enters_iff.mp again)) rfl
  refine ⟨newer, ?_⟩
  intro role d business opened
  rcases List.mem_append.mp opened with early | late
  · have excluded : ∀ st : List Component, d ∈ st → admits st c = false := by
      intro st hd
      have notAll : st.all (fun d => decide (d.role ≠ .business)) = false :=
        List.all_eq_false.mpr ⟨d, hd, by simp [business]⟩
      unfold admits
      rw [notAll, role]
      rfl
    exact List.mem_append_left _
      (leaves_iff.mp (nested_admits run excluded (enters_iff.mpr early)))
  · exact List.mem_append_right _ (newer d late)

/-- What a failed call leaves loaded: nothing of its own. -/
def NothingLeft (call : Call I F) (w : World I F) : Prop :=
  match call with
  | .chainLoad _ =>
    w.runtime.postprocessors.loaded = [] ∧
      ∀ c : Component, c.role = .postProcessor → .dlopen c ∈ w.trace → .dlclose c ∈ w.trace
  | .pluginLoad _ _ =>
    w.runtime.business = {} ∧
      ∀ c : Component, c.role = .business → .dlopen c ∈ w.trace → .dlclose c ∈ w.trace
  | .sceneInit _ _ =>
    w.runtime.postprocessors.loaded = [] ∧ w.runtime.business = {} ∧
      ∀ c : Component, .dlopen c ∈ w.trace → .dlclose c ∈ w.trace
  | _ => True

theorem nothing_left (env : Surroundings I F) {w : World I F} (kept : Kept w) (call : Call I F)
    (failed : (call.outcome env w.runtime w.trace.length).code ≠ 0) :
    NothingLeft call (perform env w call) := by
  have books := (perform_kept env kept call).books
  cases call with
  | chainLoad configs =>
    obtain ⟨-, -, empty⟩ := load_moves env false [] (fun h => by cases h) configs
      w.trace.length kept.sound.entries
    have none : (perform env w (.chainLoad configs)).runtime.postprocessors.loaded = [] :=
      empty failed
    refine ⟨none, fun c role opened => closed_of_unheld books ?_ opened⟩
    intro hc
    rcases List.mem_append.mp hc with plugin | chain
    · have business := (kept.sound.tied.fields c (Option.mem_toList.mp plugin)).2.2
      rw [role] at business
      cases business
    · rw [owned, none] at chain
      cases chain
  | pluginLoad host config =>
    obtain ⟨-, -, empty⟩ := plugin_load_moves env false [] host config w.trace.length
      kept.sound.tied
    have none : (perform env w (.pluginLoad host config)).runtime.business = {} := empty failed
    refine ⟨none, fun c role opened => closed_of_unheld books ?_ opened⟩
    intro hc
    rcases List.mem_append.mp hc with plugin | chain
    · rw [none] at plugin
      cases plugin
    · have processor := entries_role kept.sound.entries c chain
      rw [role] at processor
      cases processor
  | sceneInit host config =>
    obtain ⟨empty, none⟩ := (scene_init_moves env false host config w.trace.length
      kept.sound).2 failed
    have free : held (perform env w (.sceneInit host config)).runtime = [] := by
      have chain : (perform env w (.sceneInit host config)).runtime.postprocessors.loaded = [] :=
        empty
      have business : (perform env w (.sceneInit host config)).runtime.business = {} := none
      rw [held, owned, chain, business]
      rfl
    refine ⟨empty, none, fun c opened => closed_of_unheld books ?_ opened⟩
    rw [free]
    exact List.not_mem_nil
  | _ => trivial

/-- Whatever is called and whatever libraries and components answer: in the
whole trace every component lives one whole life, a business plugin is shut
down just after its name went quiet, the runtime takes its components down in
reverse order, and a failed call leaves nothing of its own loaded. -/
theorem lifecycle_discipline (env : Surroundings I F) (calls : List (Call I F)) :
    (∀ c, lifeline subject c (finish (run env calls)).trace = [] ∨
      Whole (lifeline subject c (finish (run env calls)).trace)) ∧
    Quiesced (finish (run env calls)).trace ∧
    ((∀ call ∈ calls, call.onScene = true) → TornDownInReverse (finish (run env calls)).trace) ∧
    (∀ (earlier later : List (Call I F)) (call : Call I F), calls = earlier ++ call :: later →
      (call.outcome env (run env earlier).runtime (run env earlier).trace.length).code ≠ 0 →
        NothingLeft call (run env (earlier ++ [call]))) := by
  have books := finish_books env calls
  refine ⟨fun c => books.accounted.whole List.not_mem_nil, books.quiesced, ?_, ?_⟩
  · intro scene
    obtain ⟨es, split, moves⟩ := finish_moves true (run_kept env calls)
    have nested : (nesting admits).exec [] (turns (finish (run env calls)).trace) = some [] := by
      rw [split, turns_append, Machine.exec_append, run_nested env calls scene]
      exact moves.nested
    exact tornDown_of_nested nested books
  · intro earlier later call _ failed
    have last : run env (earlier ++ [call]) = perform env (run env earlier) call := by
      unfold run
      rw [List.foldl_append]
      rfl
    rw [last]
    exact nothing_left env (run_kept env earlier) call failed

/-- Two post-processors and a business plugin named "face" whose `Init` fails. -/
def failingPlugin : Surroundings Unit ℚ where
  library now := { name := some "face", init := if now = 6 then -66 else 0 }
  process _ context := (0, context.objects)
  onFrame _ _ _ := 0
  clock _ := 0

def twoProcessors : SceneConfig where
  scene := ⟨"face", "libface.so", 1, true⟩
  postprocessors := [⟨"first", "libtrack.so", 1, true⟩, ⟨"second", "libtrack.so", 1, true⟩]

def startup : List (Call Unit ℚ) := [.sceneInit true twoProcessors, .sceneShutdown, .sceneShutdown]

/-- The failed start is rolled back in reverse, once. -/
theorem startup_rolled_back :
    (finish (run failingPlugin startup)).trace =
      [.dlopen ⟨.postProcessor, 0, "first"⟩, .create ⟨.postProcessor, 0, "first"⟩,
        .init ⟨.postProcessor, 0, "first"⟩, .dlopen ⟨.postProcessor, 3, "second"⟩,
        .create ⟨.postProcessor, 3, "second"⟩, .init ⟨.postProcessor, 3, "second"⟩,
        .dlopen ⟨.business, 6, "face"⟩, .create ⟨.business, 6, "face"⟩,
        .init ⟨.business, 6, "face"⟩, .waitQuiesce "face", .shutdown ⟨.business, 6, "face"⟩,
        .destroy ⟨.business, 6, "face"⟩, .dlclose ⟨.business, 6, "face"⟩,
        .shutdown ⟨.postProcessor, 3, "second"⟩, .destroy ⟨.postProcessor, 3, "second"⟩,
        .dlclose ⟨.postProcessor, 3, "second"⟩, .shutdown ⟨.postProcessor, 0, "first"⟩,
        .destroy ⟨.postProcessor, 0, "first"⟩, .dlclose ⟨.postProcessor, 0, "first"⟩] ∧
    TornDownInReverse (finish (run failingPlugin startup)).trace ∧
    NothingLeft (.sceneInit true twoProcessors)
      (run failingPlugin [.sceneInit true twoProcessors]) := by
  obtain ⟨-, -, reverse, nothing⟩ := lifecycle_discipline failingPlugin startup
  refine ⟨rfl, reverse ?_, nothing [] [.sceneShutdown, .sceneShutdown] _ rfl ?_⟩
  · intro call hcall
    simp only [startup, List.mem_cons, List.not_mem_nil, or_false] at hcall
    rcases hcall with rfl | rfl | rfl <;> rfl
  · exact fun zero => absurd (show (-66 : Int) = 0 from zero) (by decide)

end Discipline

end LoaderLifecycles
