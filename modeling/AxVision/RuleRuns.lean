import AxVision.MatchedTraces
import AxVision.RuleConfigs
import Mathlib.Algebra.Order.Group.Multiset

/-!
# The runs of the rule engine

`Load`, `ProcessBoxes` and `Unload` hold the mutex, so a run is a sequence of
calls. Libraries and the objects they make are recorded as they are taken and
given back; what the loader and the plugins answer is up to them.
-/

namespace RuleRuns

open MatchedTraces RuleConfigs TextSearch

/-- The calls into the loader and into the plugins. An object comes with the handle of the
library that has its code. -/
inductive Event where
  | dlopen (path : List Char) (handle : Nat)
  | dlclose (handle : Nat)
  | create (object handle : Nat)
  | init (object handle : Nat) (params : List Char)
  | process (object handle : Nat)
  | destroy (object handle : Nat)
  | delete (object handle : Nat)
  deriving DecidableEq

/-- What the loader and a plugin answer for one configuration. -/
structure LoadAnswer where
  dlopen : Option Nat
  dlsym : Bool
  create : Option Nat
  init : Int

structure LoadedRule where
  handle : Nat
  object : Nat
  config : RuleConfig
  deriving DecidableEq

structure State where
  rules : List LoadedRule := []
  loaded : Bool := false
  trace : List Event := []

/-- Not empty, without `..`, with the ending `.so`. -/
def wellFormed (soPath : List Char) : Bool :=
  !soPath.isEmpty && (find ['.', '.'] soPath 0).isNone && decide (3 ≤ soPath.length) &&
    soPath.drop (soPath.length - 3) == ['.', 's', 'o']

def allowed (soPath : List Char) : Bool :=
  "./rules/".toList.isPrefixOf soPath || "rules/".toList.isPrefixOf soPath ||
    "/home/".toList.isPrefixOf soPath

/-- The body of the loop over the configurations. -/
def State.loadRule (s : State) (cfg : RuleConfig) (answer : LoadAnswer) : State :=
  if !wellFormed cfg.soPath then s
  else if !allowed cfg.soPath then s
  else
    match answer.dlopen with
    | none => s
    | some handle =>
      let trace := s.trace ++ [.dlopen cfg.soPath handle]
      if !answer.dlsym then { s with trace := trace ++ [.dlclose handle] }
      else
        match answer.create with
        | none => { s with trace := trace ++ [.dlclose handle] }
        | some object =>
          let trace := trace ++ [.create object handle, .init object handle cfg.params]
          if answer.init ≠ 0 then
            { s with
              trace := trace ++ [.destroy object handle, .delete object handle, .dlclose handle] }
          else
            { s with
              rules := s.rules ++ [{ handle := handle, object := object, config := cfg }]
              trace := trace }

def State.loadRules (s : State) : List RuleConfig → (Nat → LoadAnswer) → State
  | [], _ => s
  | cfg :: rest, answers => (s.loadRule cfg (answers 0)).loadRules rest fun k => answers (k + 1)

/-- `RuleEngine::Load`; `stale` is what is found in the storage of an object whose scope has
ended. -/
def State.load (s : State) (stale : RuleConfig → RuleConfig) (yamlConfig : List Char)
    (answers : Nat → LoadAnswer) : State × Int :=
  if s.loaded then (s, -1)
  else
    let t := s.loadRules (parse stale yamlConfig).configs answers
    ({ t with loaded := !t.rules.isEmpty }, if t.rules.isEmpty then -1 else 0)

/-- The results of the rules that `ProcessBoxes` combines. -/
def accepted (objects : Nat) : List LoadedRule → (Nat → Int × List Bool) → List (List Bool)
  | [], _ => []
  | _ :: rest, answers =>
    let (ret, results) := answers 0
    let others := accepted objects rest fun k => answers (k + 1)
    if ret ≠ 0 then others else if results.length ≠ objects then others else results :: others

/-- `RuleEngine::ProcessBoxes` for so many objects: the results, and what it returns. -/
def State.processBoxes (s : State) (objects : Nat) (answers : Nat → Int × List Bool) :
    State × List Bool × Bool :=
  if !s.loaded || s.rules.isEmpty then (s, [], false)
  else
    let allResults := accepted objects s.rules answers
    ({ s with trace := s.trace ++ s.rules.map fun rule => .process rule.object rule.handle },
      (List.range objects).map fun i => allResults.any fun results => results.getD i false, true)

/-- What `Unload` does with one rule. -/
def unloadRule (rule : LoadedRule) : List Event :=
  [.destroy rule.object rule.handle, .delete rule.object rule.handle, .dlclose rule.handle]

/-- `RuleEngine::Unload` -/
def State.unload (s : State) : State :=
  { rules := [], loaded := false, trace := s.trace ++ s.rules.flatMap unloadRule }

inductive Op where
  | load (stale : RuleConfig → RuleConfig) (yamlConfig : List Char) (answers : Nat → LoadAnswer)
  | processBoxes (objects : Nat) (answers : Nat → Int × List Bool)
  | unload

def State.call (s : State) : Op → State
  | .load stale yamlConfig answers => (s.load stale yamlConfig answers).1
  | .processBoxes objects answers => (s.processBoxes objects answers).1
  | .unload => s.unload

def run (ops : List Op) : State := ops.foldl State.call {}

section Holdings

inductive Resource where
  | library (handle : Nat)
  | rule (object handle : Nat)
  deriving DecidableEq

def resources : Ledger Event Resource where
  acquired
    | .dlopen _ handle => some (.library handle)
    | .create object handle => some (.rule object handle)
    | _ => none
  released
    | .dlclose handle => some (.library handle)
    | .delete object handle => some (.rule object handle)
    | _ => none
  apart e releases := by
    cases e with
    | dlclose handle => rfl
    | delete object handle => rfl
    | _ => exact absurd rfl releases

/-- What a call needs: the library with its code, and the object of a method. -/
def needs : Event → List Resource
  | .create _ handle => [.library handle]
  | .init object handle _ => [.library handle, .rule object handle]
  | .process object handle => [.library handle, .rule object handle]
  | .destroy object handle => [.library handle, .rule object handle]
  | .delete object handle => [.library handle, .rule object handle]
  | _ => []

/-- Before a call everything it needs is held. -/
def Lawful (trace : List Event) : Prop :=
  ∀ before e after, trace = before ++ e :: after →
    ∃ held, resources.settle 0 before = some held ∧ ∀ r ∈ needs e, r ∈ held

/-- So far every call was lawful, and these resources are held. -/
def Holding (trace : List Event) (held : Multiset Resource) : Prop :=
  resources.settle 0 trace = some held ∧ Lawful trace

def ruleResources (rule : LoadedRule) : Multiset Resource :=
  .library rule.handle ::ₘ .rule rule.object rule.handle ::ₘ 0

def holdings (rules : List LoadedRule) : Multiset Resource := (rules.map ruleResources).sum

variable {trace : List Event} {held : Multiset Resource} {object handle : Nat}

theorem Lawful.concat (h : Lawful trace) {e : Event}
    (settled : resources.settle 0 trace = some held) (fits : ∀ r ∈ needs e, r ∈ held) :
    Lawful (trace ++ [e]) := by
  intro before e' after split
  rcases List.eq_nil_or_concat after with rfl | ⟨front, last, rfl⟩
  · obtain ⟨rfl, same⟩ := List.append_inj' split rfl
    cases same
    exact ⟨held, settled, fits⟩
  · rw [List.concat_eq_append, ← List.cons_append, ← List.append_assoc] at split
    exact h before e' front (List.append_inj' split rfl).1

theorem Holding.opens (h : Holding trace held) (path : List Char) (handle : Nat) :
    Holding (trace ++ [.dlopen path handle]) (.library handle ::ₘ held) :=
  ⟨settle_acquire h.1 rfl, h.2.concat h.1 fun _ mem => absurd mem List.not_mem_nil⟩

theorem Holding.closes (h : Holding trace (.library handle ::ₘ held)) :
    Holding (trace ++ [.dlclose handle]) held := by
  have closed := settle_release h.1 (e := .dlclose handle) rfl (Multiset.mem_cons_self _ _)
  rw [Multiset.erase_cons_head] at closed
  exact ⟨closed, h.2.concat h.1 fun _ mem => absurd mem List.not_mem_nil⟩

theorem Holding.creates (h : Holding trace held) (object handle : Nat)
    (mapped : .library handle ∈ held) :
    Holding (trace ++ [.create object handle]) (.rule object handle ::ₘ held) :=
  ⟨settle_acquire h.1 rfl, h.2.concat h.1 fun _ mem => List.mem_singleton.mp mem ▸ mapped⟩

theorem needs_held {r : Resource} (alive : .rule object handle ∈ held)
    (mapped : .library handle ∈ held) (mem : r ∈ [.library handle, .rule object handle]) :
    r ∈ held := by
  rcases List.mem_cons.mp mem with rfl | last
  · exact mapped
  · exact List.mem_singleton.mp last ▸ alive

/-- A call of a method of an object that is held. -/
theorem Holding.uses (h : Holding trace held) {e : Event}
    (uses : needs e = [.library handle, .rule object handle])
    (neutral : resources.acquired e = none ∧ resources.released e = none)
    (alive : .rule object handle ∈ held) (mapped : .library handle ∈ held) :
    Holding (trace ++ [e]) held := by
  refine ⟨settle_idle h.1 fun e' mem => ?_, h.2.concat h.1 fun r mem => ?_⟩
  · rw [List.mem_singleton.mp mem]
    exact neutral
  · rw [uses] at mem
    exact needs_held alive mapped mem

theorem Holding.deletes (h : Holding trace (.rule object handle ::ₘ held))
    (mapped : .library handle ∈ held) : Holding (trace ++ [.delete object handle]) held := by
  have deleted := settle_release h.1 (e := .delete object handle) rfl (Multiset.mem_cons_self _ _)
  rw [Multiset.erase_cons_head] at deleted
  exact ⟨deleted, h.2.concat h.1 fun _ mem =>
    needs_held (Multiset.mem_cons_self _ _) (Multiset.mem_cons_of_mem mapped) mem⟩

/-- `Destroy`, `delete` and `dlclose` give a rule back. -/
theorem Holding.unloads {rule : LoadedRule} (h : Holding trace (ruleResources rule + held)) :
    Holding (trace ++ unloadRule rule) held := by
  rw [ruleResources, Multiset.cons_add, Multiset.cons_add, Multiset.zero_add] at h
  have destroyed := h.uses (e := .destroy rule.object rule.handle) rfl ⟨rfl, rfl⟩
    (Multiset.mem_cons_of_mem (Multiset.mem_cons_self _ _)) (Multiset.mem_cons_self _ _)
  rw [Multiset.cons_swap] at destroyed
  have closed := (destroyed.deletes (Multiset.mem_cons_self _ _)).closes
  rw [List.append_assoc, List.append_assoc] at closed
  exact closed

theorem mem_holdings {rules : List LoadedRule} {rule : LoadedRule} (mem : rule ∈ rules) :
    .rule rule.object rule.handle ∈ holdings rules ∧ .library rule.handle ∈ holdings rules := by
  obtain ⟨front, back, rfl⟩ := List.append_of_mem mem
  simp [holdings, ruleResources]

theorem holdings_concat (rules : List LoadedRule) (rule : LoadedRule) :
    holdings (rules ++ [rule]) = ruleResources rule + holdings rules := by
  rw [holdings, List.map_append, List.sum_append, List.map_singleton, List.sum_singleton,
    Multiset.add_comm]
  rfl

theorem holdings_cons (rule : LoadedRule) (rules : List LoadedRule) :
    holdings (rule :: rules) = ruleResources rule + holdings rules := by
  rw [holdings, List.map_cons, List.sum_cons]
  rfl

end Holdings

section Runs

/-- Libraries are opened only where rules may be. -/
def Placed (trace : List Event) : Prop :=
  ∀ path handle, .dlopen path handle ∈ trace → wellFormed path = true ∧ allowed path = true

/-- Between two calls: what is held are the rules. -/
structure Steady (s : State) : Prop where
  holding : Holding s.trace (holdings s.rules)
  loaded : s.loaded = !s.rules.isEmpty
  paths : Placed s.trace

theorem Placed.append {trace more : List Event} (h : Placed trace)
    (fits : ∀ path handle, .dlopen path handle ∈ more →
      wellFormed path = true ∧ allowed path = true) : Placed (trace ++ more) := by
  intro path handle mem
  rcases List.mem_append.mp mem with old | new
  · exact h path handle old
  · exact fits path handle new

theorem loadRule_holds {s : State} (h : Holding s.trace (holdings s.rules))
    (placed : Placed s.trace) (cfg : RuleConfig) (answer : LoadAnswer) :
    Holding (s.loadRule cfg answer).trace (holdings (s.loadRule cfg answer).rules) ∧
      Placed (s.loadRule cfg answer).trace := by
  by_cases form : wellFormed cfg.soPath = true
  · by_cases place : allowed cfg.soPath = true
    · cases opens : answer.dlopen with
      | none => simpa [State.loadRule, form, place, opens] using ⟨h, placed⟩
      | some handle =>
        have opened := h.opens cfg.soPath handle
        have placed' : Placed (s.trace ++ [.dlopen cfg.soPath handle]) :=
          placed.append fun path other mem => by
            cases List.mem_singleton.mp mem
            exact ⟨form, place⟩
        have closed : Holding (s.trace ++ [.dlopen cfg.soPath handle] ++ [.dlclose handle])
            (holdings s.rules) := opened.closes
        have placedClosed : Placed (s.trace ++ [.dlopen cfg.soPath handle] ++ [.dlclose handle]) :=
          placed'.append fun _ _ mem => by simp at mem
        cases symbol : answer.dlsym with
        | false =>
          simp only [State.loadRule, form, place, opens, symbol, Bool.not_true, Bool.not_false,
            Bool.false_eq_true, if_false, if_true]
          exact ⟨closed, placedClosed⟩
        | true =>
          cases creates : answer.create with
          | none =>
            simp only [State.loadRule, form, place, opens, symbol, creates, Bool.not_true,
              Bool.false_eq_true, if_false]
            exact ⟨closed, placedClosed⟩
          | some object =>
            have created := opened.creates object handle (Multiset.mem_cons_self _ _)
            rw [Multiset.cons_swap] at created
            have inited := created.uses (e := .init object handle cfg.params) rfl ⟨rfl, rfl⟩
              (Multiset.mem_cons_of_mem (Multiset.mem_cons_self _ _)) (Multiset.mem_cons_self _ _)
            rw [List.append_assoc] at inited
            have held : Holding (s.trace ++ [.dlopen cfg.soPath handle] ++
                [.create object handle, .init object handle cfg.params])
                (ruleResources ⟨handle, object, cfg⟩ + holdings s.rules) := by
              rw [ruleResources, Multiset.cons_add, Multiset.cons_add, Multiset.zero_add]
              exact inited
            have placedInit : Placed (s.trace ++ [.dlopen cfg.soPath handle] ++
                [.create object handle, .init object handle cfg.params]) :=
              placed'.append fun _ _ mem => by simp at mem
            by_cases fails : answer.init ≠ 0
            · simp only [State.loadRule, form, place, opens, symbol, creates, Bool.not_true,
                Bool.false_eq_true, if_false, if_pos fails]
              exact ⟨held.unloads, placedInit.append fun _ _ mem => by simp at mem⟩
            · simp only [State.loadRule, form, place, opens, symbol, creates, Bool.not_true,
                Bool.false_eq_true, if_false, if_neg fails]
              rw [holdings_concat]
              exact ⟨held, placedInit⟩
    · simpa [State.loadRule, form, place] using ⟨h, placed⟩
  · simpa [State.loadRule, form] using ⟨h, placed⟩

theorem loadRules_holds {s : State} (configs : List RuleConfig) (answers : Nat → LoadAnswer)
    (h : Holding s.trace (holdings s.rules)) (placed : Placed s.trace) :
    Holding (s.loadRules configs answers).trace (holdings (s.loadRules configs answers).rules) ∧
      Placed (s.loadRules configs answers).trace := by
  induction configs generalizing s answers with
  | nil => exact ⟨h, placed⟩
  | cons cfg rest ih =>
    obtain ⟨h', placed'⟩ := loadRule_holds h placed cfg (answers 0)
    exact ih (fun k => answers (k + 1)) h' placed'

theorem processes_holds {trace : List Event} {rules called : List LoadedRule}
    (h : Holding trace (holdings rules)) (sub : ∀ rule ∈ called, rule ∈ rules) :
    Holding (trace ++ called.map fun rule => .process rule.object rule.handle)
      (holdings rules) := by
  induction called generalizing trace with
  | nil => rwa [List.map_nil, List.append_nil]
  | cons rule rest ih =>
    obtain ⟨alive, mapped⟩ := mem_holdings (sub rule List.mem_cons_self)
    have used := h.uses (e := .process rule.object rule.handle) rfl ⟨rfl, rfl⟩ alive mapped
    have all := ih used fun other mem => sub other (List.mem_cons_of_mem rule mem)
    rwa [List.append_assoc] at all

theorem unload_holds {trace : List Event} {rules : List LoadedRule}
    (h : Holding trace (holdings rules)) : Holding (trace ++ rules.flatMap unloadRule) 0 := by
  induction rules generalizing trace with
  | nil => rwa [List.flatMap_nil, List.append_nil]
  | cons rule rest ih =>
    rw [holdings_cons] at h
    have all := ih h.unloads
    rwa [List.append_assoc, ← List.flatMap_cons] at all

theorem call_steady {s : State} (h : Steady s) (op : Op) : Steady (s.call op) := by
  cases op with
  | load stale yamlConfig answers =>
    by_cases loaded : s.loaded = true
    · simpa [State.call, State.load, loaded] using h
    · obtain ⟨holding, placed⟩ :=
        loadRules_holds (parse stale yamlConfig).configs answers h.holding h.paths
      simp only [State.call, State.load, loaded, if_false, Bool.false_eq_true]
      exact ⟨holding, rfl, placed⟩
  | processBoxes objects answers =>
    simp only [State.call, State.processBoxes]
    split
    · exact h
    · refine ⟨processes_holds h.holding fun _ mem => mem, h.loaded, ?_⟩
      exact Placed.append h.paths fun _ _ mem => by simp at mem
  | unload =>
    refine ⟨unload_holds h.holding, rfl, ?_⟩
    refine Placed.append h.paths fun path handle mem => ?_
    obtain ⟨rule, -, mem⟩ := List.mem_flatMap.mp mem
    simp [unloadRule] at mem

theorem run_steady (ops : List Op) : Steady (run ops) := by
  have steps : ∀ s : State, Steady s → Steady (ops.foldl State.call s) := by
    induction ops with
    | nil => exact fun s h => h
    | cons op rest ih => exact fun s h => ih _ (call_steady h op)
  refine steps {} ⟨⟨rfl, ?_⟩, rfl, fun _ _ mem => by cases mem⟩
  intro before e after split
  exact absurd split (by simp)

/-- A rule counts when it returns 0 and a result for each object. -/
theorem mem_accepted {objects : Nat} {rules : List LoadedRule} {answers : Nat → Int × List Bool}
    {results : List Bool} :
    results ∈ accepted objects rules answers ↔
      ∃ k < rules.length, answers k = (0, results) ∧ results.length = objects := by
  induction rules generalizing answers with
  | nil => simp [accepted]
  | cons rule rest ih =>
    have here : results ∈ accepted objects (rule :: rest) answers ↔
        answers 0 = (0, results) ∧ results.length = objects ∨
          results ∈ accepted objects rest fun k => answers (k + 1) := by
      rw [accepted]
      rcases answers 0 with ⟨ret, first⟩
      dsimp only
      split_ifs with fails wrong
      · simp [fails]
      · refine ⟨Or.inr, ?_⟩
        rintro (⟨same, size⟩ | other)
        · cases same
          exact absurd size wrong
        · exact other
      · have zero : ret = 0 := not_not.mp fails
        have size : first.length = objects := not_not.mp wrong
        rw [List.mem_cons, zero, Prod.mk.injEq]
        refine or_congr_left ⟨?_, ?_⟩
        · rintro rfl
          exact ⟨⟨rfl, rfl⟩, size⟩
        · rintro ⟨⟨-, rfl⟩, -⟩
          rfl
    rw [here, ih]
    constructor
    · rintro (⟨same, size⟩ | ⟨k, bound, same, size⟩)
      · exact ⟨0, Nat.succ_pos _, same, size⟩
      · exact ⟨k + 1, Nat.succ_lt_succ bound, same, size⟩
    · rintro ⟨k, bound, same, size⟩
      cases k with
      | zero => exact Or.inl ⟨same, size⟩
      | succ k => exact Or.inr ⟨k, Nat.lt_of_succ_lt_succ bound, same, size⟩

/-- Whatever the loader and the plugins answer in a run: code of a rule runs only while its
object and its library are held, libraries are opened only where rules may be, and after an
`Unload` everything that was taken has been given back once. Boxes are judged exactly when
there are rules, and a box is hit when a rule says so that returns 0 and a result for each. -/
theorem run_lawful (ops : List Op) :
    Lawful (run ops).trace ∧ Placed (run ops).trace ∧
      (resources.releases (run (ops ++ [.unload])).trace).Perm
        (resources.acquisitions (run (ops ++ [.unload])).trace) ∧
      ∀ objects answers,
        ((run ops).processBoxes objects answers).2.2 = decide ((run ops).rules ≠ []) ∧
        ∀ i, ((run ops).processBoxes objects answers).2.1[i]? = some true ↔
          i < objects ∧ ∃ k < (run ops).rules.length, ∃ results, answers k = (0, results) ∧
            results.length = objects ∧ results[i]? = some true := by
  have steady := run_steady ops
  refine ⟨steady.holding.2, steady.paths, ?_, ?_⟩
  · have unloaded : (run (ops ++ [.unload])).trace =
        (run ops).trace ++ (run ops).rules.flatMap unloadRule := by
      rw [run, List.foldl_append]
      rfl
    rw [unloaded]
    exact settled_perm (unload_holds steady.holding).1
  · intro objects answers
    by_cases none : (run ops).rules = []
    · simp [State.processBoxes, none]
    · have judged : (!(run ops).loaded || (run ops).rules.isEmpty) = false := by
        rw [steady.loaded]
        simp [none]
      simp only [State.processBoxes, judged, Bool.false_eq_true, if_false]
      refine ⟨by simp [none], fun i => ?_⟩
      rw [List.getElem?_map]
      by_cases inside : i < objects
      · rw [List.getElem?_range inside, Option.map_some, Option.some_inj, List.any_eq_true]
        constructor
        · rintro ⟨results, mem, hit⟩
          obtain ⟨k, bound, same, size⟩ := mem_accepted.mp mem
          refine ⟨inside, k, bound, results, same, size, ?_⟩
          have room : i < results.length := size ▸ inside
          rw [List.getD_eq_getElem?_getD, List.getElem?_eq_getElem room, Option.getD_some] at hit
          rw [List.getElem?_eq_getElem room, hit]
        · rintro ⟨-, k, bound, results, same, size, hit⟩
          refine ⟨results, mem_accepted.mpr ⟨k, bound, same, size⟩, ?_⟩
          rw [List.getD_eq_getElem?_getD, hit]
          rfl
      · simp [inside]

end Runs

end RuleRuns
