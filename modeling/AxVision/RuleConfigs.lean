import AxVision.TextLines
import AxVision.TextSearch
import Mathlib.Data.List.DropRight
import Mathlib.Data.List.Forall2

/-!
# The rule file

`RuleEngine::Load` reads its configuration line by line. The rule under
construction is an object of the branch that reads a name, and `current` still
points to it when the branch has ended. The lines of the parameters go to a
buffer that nothing reads.
-/

namespace RuleConfigs

open TextLines TextSearch

structure RuleConfig where
  name : List Char := []
  soPath : List Char := []
  params : List Char := []
  deriving DecidableEq

/-- The variables of the loop. `current` is the number of the object that the
pointer refers to, with what is in its storage; `scope` is the object whose scope
has not ended. Every read or write through the pointer is recorded, with whether
the object was still in scope. -/
structure Loader where
  configs : List RuleConfig := []
  current : Option (Nat × RuleConfig) := none
  scope : Option Nat := none
  declared : Nat := 0
  paramBuf : List Char := []
  inParams : Bool := false
  accesses : List (Nat × Bool) := []

/-- A read or write through `current`. -/
def Loader.touch (s : Loader) (object : Nat) : Loader :=
  { s with accesses := s.accesses ++ [(object, s.scope == some object)] }

/-- `line.find(key) != npos`. -/
def contains (key : String) (line : List Char) : Bool := (find key.toList line 0).isSome

def skipped (line : List Char) : Bool := line.isEmpty || find ['#'] line 0 == some 0

/-- The erasures of leading and trailing blanks. -/
def eraseFront (text : List Char) : List Char := text.dropWhile (· ∈ [' ', '\t'])

def eraseBack (text : List Char) : List Char := text.rdropWhile (· ∈ [' ', '\t', '\r', '\n'])

/-- The text behind the first colon, or the old one if there is no colon. -/
def afterColon (line old : List Char) : List Char :=
  match find [':'] line 0 with
  | none => old
  | some pos => line.drop (pos + 1)

/-- `if (current && !current->name.empty()) configs.push_back(*current)`. -/
def Loader.flush (s : Loader) : Loader :=
  match s.current with
  | none => s
  | some (object, cfg) =>
    if cfg.name = [] then s.touch object
    else { s.touch object with configs := s.configs ++ [cfg] }

def Loader.nameLine (s : Loader) (line : List Char) : Loader :=
  let s := s.flush
  let object := s.declared
  let cfg : RuleConfig := {}
  let name := eraseBack (eraseFront (afterColon line cfg.name))
  let opened := { s with scope := some object, declared := object + 1 }
  { opened.touch object with current := some (object, { cfg with name := name }), inParams := false }

def Loader.pathLine (s : Loader) (object : Nat) (cfg : RuleConfig) (line : List Char) : Loader :=
  let path := eraseBack (eraseFront (afterColon line cfg.soPath))
  { s.touch object with current := some (object, { cfg with soPath := path }), inParams := false }

def Loader.paramsLine (s : Loader) (line : List Char) : Loader :=
  let opened := { s with inParams := true, paramBuf := [] }
  match find [':'] line 0 with
  | none => opened
  | some pos =>
    if pos + 2 < line.length then
      let val := eraseFront (line.drop (pos + 1))
      if val ≠ [] ∧ val.head? ≠ some '|' then
        { opened with paramBuf := val ++ ['\n'], inParams := false }
      else opened
    else opened

def Loader.otherLine (s : Loader) (line : List Char) : Loader :=
  if s.inParams ∧ s.current.isSome then { s with paramBuf := s.paramBuf ++ line ++ ['\n'] } else s

/-- The body of the loop. -/
def Loader.branch (s : Loader) (line : List Char) : Loader :=
  if skipped line then s
  else if contains "name:" line then s.nameLine line
  else
    match contains "path:" line, s.current with
    | true, some (object, cfg) => s.pathLine object cfg line
    | _, _ => if contains "params:" line then s.paramsLine line else s.otherLine line

/-- The end of a turn, where an object of its branch is destroyed. What a later
read finds in the storage is `stale` of what was there. -/
def Loader.leave (stale : RuleConfig → RuleConfig) (s : Loader) : Loader :=
  { s with
    scope := none
    current := s.current.map fun (object, cfg) =>
      (object, if s.scope = some object then stale cfg else cfg) }

def Loader.turn (stale : RuleConfig → RuleConfig) (s : Loader) (line : List Char) : Loader :=
  (s.branch line).leave stale

/-- The parsing of `Load`. -/
def parse (stale : RuleConfig → RuleConfig) (yamlConfig : List Char) : Loader :=
  ((getlines yamlConfig).foldl (Loader.turn stale) {}).flush

section Documents

/-- Nothing to erase around a value. -/
structure Trimmed (text : List Char) : Prop where
  front : eraseFront text = text
  back : eraseBack text = text

/-- A rule of a rule file, with its path before or behind its parameters. -/
structure Rule where
  name : List Char
  path : List Char
  params : List (List Char)
  pathFirst : Bool
  named : name ≠ []
  trimmedName : Trimmed name
  trimmedPath : Trimmed path
  unbroken : ∀ text ∈ name :: path :: params, '\n' ∉ text

def Rule.nameText (rule : Rule) : List Char := "- name: ".toList ++ rule.name

def Rule.pathText (rule : Rule) : List Char := "  path: ".toList ++ rule.path

def Rule.paramTexts (rule : Rule) : List (List Char) :=
  if rule.params = [] then []
  else "  params: |".toList :: rule.params.map fun param => "    ".toList ++ param

/-- The block of a rule in the documented format. -/
def Rule.lines (rule : Rule) : List (List Char) :=
  rule.nameText ::
    if rule.pathFirst then rule.pathText :: rule.paramTexts else rule.paramTexts ++ [rule.pathText]

def document (rules : List Rule) : List Char := unlines (rules.flatMap Rule.lines)

/-- The configuration has the name, the path and the parameter lines of the rule,
with or without the indentation they have in the file. -/
structure Carries (cfg : RuleConfig) (rule : Rule) : Prop where
  name : cfg.name = rule.name
  path : cfg.soPath = rule.path
  params : ∃ indent ∈ [[], "    ".toList],
    cfg.params = unlines (rule.params.map fun param => indent ++ param)

/-- No read or write of an object whose scope has ended. -/
def Safe (s : Loader) : Prop := ∀ access ∈ s.accesses, access.2 = true

/-- Every rule has its configuration, in order, and what has ended is left alone. -/
def LoadsAll (stale : RuleConfig → RuleConfig) (rules : List Rule) : Prop :=
  List.Forall₂ Carries (parse stale (document rules)).configs rules ∧
    Safe (parse stale (document rules))

end Documents

section Accesses

variable {s : Loader} {stale : RuleConfig → RuleConfig} {line : List Char}

/-- A line that begins a rule. -/
def begins (line : List Char) : Bool := !skipped line && contains "name:" line

/-- A turn points to an object if there was one before or the line begins a rule. -/
theorem branch_current (s : Loader) (line : List Char) :
    (s.branch line).current.isSome = (begins line || s.current.isSome) := by
  rw [Loader.branch, begins]
  split
  · rename_i skip
    rw [skip, Bool.not_true, Bool.false_and, Bool.false_or]
  · rename_i kept
    rw [Bool.eq_false_iff.mpr kept, Bool.not_false, Bool.true_and]
    split
    · rename_i name
      rw [name]
      rfl
    · rename_i other
      rw [Bool.eq_false_iff.mpr other, Bool.false_or]
      split
      · rename_i pointed
        rw [pointed]
        rfl
      · unfold Loader.paramsLine Loader.otherLine
        grind

theorem turn_current (stale : RuleConfig → RuleConfig) (s : Loader) (line : List Char) :
    (s.turn stale line).current.isSome = (begins line || s.current.isSome) := by
  rw [Loader.turn, Loader.leave, Option.isSome_map, branch_current]

theorem run_current (stale : RuleConfig → RuleConfig) (lines : List (List Char)) (s : Loader) :
    (lines.foldl (Loader.turn stale) s).current.isSome = (lines.any begins || s.current.isSome) := by
  induction lines generalizing s with
  | nil => rfl
  | cons line lines ih =>
    rw [List.foldl_cons, ih, turn_current, List.any_cons, ← Bool.or_assoc,
      Bool.or_comm (lines.any begins)]

/-- Between two turns no scope is open. -/
theorem run_scope (stale : RuleConfig → RuleConfig) (lines : List (List Char)) {s : Loader}
    (closed : s.scope = none) : (lines.foldl (Loader.turn stale) s).scope = none := by
  induction lines generalizing s with
  | nil => exact closed
  | cons line lines ih =>
    rw [List.foldl_cons]
    exact ih rfl

/-- Without an object, a line that begins no rule reads and writes none. -/
theorem branch_accesses (none_yet : s.current = none) (other : begins line = false) :
    (s.branch line).accesses = s.accesses := by
  rw [Loader.branch]
  split
  · rfl
  · rename_i kept
    rw [begins, Bool.eq_false_iff.mpr kept, Bool.not_false, Bool.true_and] at other
    rw [other, if_neg Bool.false_ne_true, none_yet]
    unfold Loader.paramsLine Loader.otherLine
    grind

theorem run_accesses {lines : List (List Char)} (none_yet : s.current = none)
    (other : lines.any begins = false) :
    (lines.foldl (Loader.turn stale) s).accesses = s.accesses := by
  induction lines generalizing s with
  | nil => rfl
  | cons line lines ih =>
    rw [List.any_cons, Bool.or_eq_false_iff] at other
    have still : (s.turn stale line).current = none := by
      rw [← Option.not_isSome_iff_eq_none, turn_current, other.1, none_yet]
      exact Bool.false_ne_true
    rw [List.foldl_cons, ih still other.2]
    exact branch_accesses none_yet other.1

/-- The flush behind the loop reads an object that has ended. -/
theorem flush_unsafe (pointed : s.current.isSome) (closed : s.scope = none) : ¬Safe s.flush := by
  obtain ⟨⟨object, cfg⟩, at_object⟩ := Option.isSome_iff_exists.mp pointed
  have read : (object, false) ∈ s.flush.accesses := by
    rw [Loader.flush, at_object]
    dsimp only
    split
    all_goals
      rw [Loader.touch, closed]
      exact List.mem_append_right _ List.mem_cons_self
  exact fun safe => absurd (safe _ read) Bool.false_ne_true

/-- `Load` leaves ended objects alone exactly if no line begins a rule. -/
theorem parse_safe_iff (stale : RuleConfig → RuleConfig) (text : List Char) :
    Safe (parse stale text) ↔ (getlines text).any begins = false := by
  have pointed := run_current stale (getlines text) {}
  rw [Option.isSome_none, Bool.or_false] at pointed
  constructor
  · intro safe
    by_contra some_rule
    rw [Bool.not_eq_false] at some_rule
    exact flush_unsafe (pointed.trans some_rule) (run_scope stale _ rfl) safe
  · intro no_rule
    have accesses : ((getlines text).foldl (Loader.turn stale) {}).accesses = [] :=
      run_accesses rfl no_rule
    rw [no_rule, Option.isSome_eq_false_iff, Option.isNone_iff_eq_none] at pointed
    rw [parse, Loader.flush, pointed, Safe, accesses]
    exact fun access mem => nomatch mem

end Accesses

section Lines

variable {rule : Rule} {rules : List Rule}

theorem mem_ruleLines {line : List Char} (mem : line ∈ rule.lines) :
    line = rule.nameText ∨ line = rule.pathText ∨ line ∈ rule.paramTexts := by
  unfold Rule.lines at mem
  grind

theorem ruleLines_unbroken {line : List Char} (mem : line ∈ rule.lines) : '\n' ∉ line := by
  have unbroken := rule.unbroken
  have marks : ∀ mark ∈ ["- name: ".toList, "  path: ".toList, "    ".toList], '\n' ∉ mark := by
    decide
  simp only [List.mem_cons, forall_eq_or_imp] at unbroken marks
  obtain rfl | rfl | param := mem_ruleLines mem
  · exact List.not_mem_append marks.1 unbroken.1
  · exact List.not_mem_append marks.2.1 unbroken.2.1
  · unfold Rule.paramTexts at param
    split at param
    · cases param
    · obtain rfl | ⟨text, at_text, rfl⟩ : line = _ ∨ _ := by
        simpa only [List.mem_cons, List.mem_map] using param
      · decide
      · exact List.not_mem_append marks.2.2.1 (unbroken.2.2 text at_text)

theorem getlines_document (rules : List Rule) :
    getlines (document rules) = rules.flatMap Rule.lines := by
  refine getlines_unlines fun line mem => ?_
  obtain ⟨rule, -, here⟩ := List.mem_flatMap.mp mem
  exact ruleLines_unbroken here

theorem contains_of_infix {key : String} {line : List Char} (here : key.toList <:+: line) :
    contains key line = true := by
  rw [contains, find, if_neg (Nat.not_lt_zero _)]
  exact findFrom_isSome here 0

theorem not_skipped {c : Char} {text : List Char} (plain : c ≠ '#') :
    skipped (c :: text) = false := by
  have later : find ['#'] (c :: text) 0 ≠ some 0 := by
    intro found
    rw [find, if_neg (Nat.not_lt_zero _)] at found
    obtain ⟨before, behind, same, position⟩ := findFrom_spec found
    rw [List.length_eq_zero_iff.mp (by omega : before.length = 0)] at same
    exact plain (List.cons.inj same).1
  rw [skipped, List.isEmpty_cons, Bool.false_or, beq_eq_false_iff_ne]
  exact later

theorem nameText_begins (rule : Rule) : begins rule.nameText = true := by
  have key : "name:".toList <:+: rule.nameText := ⟨"- ".toList, ' ' :: rule.name, rfl⟩
  have kept : skipped rule.nameText = false := not_skipped (by decide : '-' ≠ '#')
  rw [begins, kept, contains_of_infix key]
  rfl

/-- A rule file is loaded without loss exactly if it has no rule. -/
theorem loadsAll_iff (stale : RuleConfig → RuleConfig) (rules : List Rule) :
    LoadsAll stale rules ↔ rules = [] := by
  constructor
  · rintro ⟨-, safe⟩
    rw [parse_safe_iff, getlines_document] at safe
    cases rules with
    | nil => rfl
    | cons rule rules =>
      rw [List.flatMap_cons, Rule.lines, List.cons_append, List.any_cons, nameText_begins] at safe
      cases safe
  · rintro rfl
    exact ⟨.nil, fun access mem => nomatch mem⟩

/-- The rule of the documented example. -/
def sampleRule : Rule where
  name := "sample_rule".toList
  path := "rules/libsample_rule.so".toList
  params := ["region: [[100,100],[300,100],[300,300],[100,300]]".toList]
  pathFirst := true
  named := by decide
  trimmedName := ⟨by decide, by decide⟩
  trimmedPath := ⟨by decide, by decide⟩
  unbroken := by decide

/-- The documented example, where the storage of an ended object keeps its contents. -/
theorem sampleRule_lost : ¬LoadsAll id [sampleRule] := by
  rintro ⟨-, safe⟩
  rw [parse_safe_iff, getlines_document] at safe
  revert safe
  decide

end Lines

/-! If the storage of an ended object happens to keep its contents, names and
paths come through, and still no parameter does. -/

section Kept

variable {s : Loader} {rule : Rule} {rules : List Rule} {cfg : RuleConfig} {line : List Char}

/-- The keys stand only where the format has them. -/
structure Plain (rule : Rule) : Prop where
  path : contains "name:" rule.pathText = false
  params : ∀ line ∈ rule.paramTexts, contains "name:" line = false ∧ contains "path:" line = false

/-- What is gathered, and the rule under construction. -/
def Loader.view (s : Loader) : List RuleConfig × Option RuleConfig :=
  (s.configs, s.current.map Prod.snd)

def gather (configs : List RuleConfig) : Option RuleConfig → List RuleConfig
  | none => configs
  | some cfg => if cfg.name = [] then configs else configs ++ [cfg]

theorem flush_configs (s : Loader) : s.flush.configs = gather s.view.1 s.view.2 := by
  rw [Loader.flush, Loader.view]
  cases s.current with
  | none => rfl
  | some pair =>
    obtain ⟨object, cfg⟩ := pair
    rw [Option.map_some, gather]
    dsimp only
    split
    · rfl
    · rfl

theorem leave_view (s : Loader) : (s.leave id).view = s.view := by
  have same : (fun pair : Nat × RuleConfig =>
      (pair.1, if s.scope = some pair.1 then id pair.2 else pair.2)) = id := by
    funext pair
    rw [id, ite_self]
    rfl
  rw [Loader.view, Loader.view, Loader.leave]
  dsimp only
  rw [same, Option.map_id, id]

/-- The value behind the key of a line. -/
theorem value_eq (front : List Char) {text : List Char} (noColon : ':' ∉ front)
    (trimmed : Trimmed text) (old : List Char) :
    eraseBack (eraseFront (afterColon (front ++ ([':'] ++ ' ' :: text)) old)) = text := by
  have colon := find_mark noColon (' ' :: text)
  have behind := drop_past front [':'] (' ' :: text)
  rw [List.length_singleton] at behind
  rw [afterColon, colon]
  dsimp only
  rw [behind, eraseFront, List.dropWhile_cons_of_pos (by decide)]
  change eraseBack (eraseFront text) = text
  rw [trimmed.front, trimmed.back]

theorem turn_nameText (s : Loader) (rule : Rule) :
    (s.turn id rule.nameText).view = (gather s.view.1 s.view.2, some { name := rule.name }) := by
  have begin_line := nameText_begins rule
  rw [begins, Bool.and_eq_true, Bool.not_eq_true'] at begin_line
  have value : eraseBack (eraseFront (afterColon rule.nameText [])) = rule.name :=
    value_eq "- name".toList (by decide) rule.trimmedName []
  have line : (s.nameLine rule.nameText).view = (s.flush.configs, some
      { name := eraseBack (eraseFront (afterColon rule.nameText [])) }) := rfl
  rw [Loader.turn, leave_view, Loader.branch, begin_line.1, if_neg Bool.false_ne_true,
    begin_line.2, if_pos rfl, line, value, flush_configs]

theorem turn_pathText (plain : Plain rule) (pointed : s.view.2 = some cfg) :
    (s.turn id rule.pathText).view = (s.view.1, some { cfg with soPath := rule.path }) := by
  have kept : skipped rule.pathText = false := not_skipped (by decide : ' ' ≠ '#')
  have key : contains "path:" rule.pathText = true :=
    contains_of_infix ⟨"  ".toList, ' ' :: rule.path, rfl⟩
  have value (old : List Char) : eraseBack (eraseFront (afterColon rule.pathText old)) = rule.path :=
    value_eq "  path".toList (by decide) rule.trimmedPath old
  obtain ⟨⟨object, held⟩, at_object, rfl⟩ := Option.map_eq_some_iff.mp pointed
  have line : (s.pathLine object held rule.pathText).view = (s.view.1, some
      { held with soPath := eraseBack (eraseFront (afterColon rule.pathText held.soPath)) }) := rfl
  rw [Loader.turn, leave_view, Loader.branch, kept, if_neg Bool.false_ne_true, plain.path,
    if_neg Bool.false_ne_true, key, at_object]
  dsimp only
  rw [line, value]

/-- A line without the keys of name and path changes neither. -/
theorem turn_other (s : Loader) (name : contains "name:" line = false)
    (path : contains "path:" line = false) : (s.turn id line).view = s.view := by
  rw [Loader.turn, leave_view, Loader.branch, name, path]
  unfold Loader.paramsLine Loader.otherLine Loader.view
  grind

theorem run_other {lines : List (List Char)}
    (others : ∀ line ∈ lines, contains "name:" line = false ∧ contains "path:" line = false)
    (s : Loader) : (lines.foldl (Loader.turn id) s).view = s.view := by
  induction lines generalizing s with
  | nil => rfl
  | cons line lines ih =>
    obtain ⟨name, path⟩ := others line List.mem_cons_self
    rw [List.foldl_cons, ih fun other mem => others other (List.mem_cons_of_mem _ mem),
      turn_other s name path]

/-- A block gathers the rule before it and leaves its own name and path. -/
theorem run_ruleLines (plain : Plain rule) (s : Loader) :
    (rule.lines.foldl (Loader.turn id) s).view =
      (gather s.view.1 s.view.2, some { name := rule.name, soPath := rule.path }) := by
  have named := turn_nameText s rule
  rw [Rule.lines, List.foldl_cons]
  split
  · rw [List.foldl_cons, run_other plain.params, turn_pathText plain (congrArg Prod.snd named), named]
  · have before := run_other plain.params (s.turn id rule.nameText)
    rw [List.foldl_append, List.foldl_cons, List.foldl_nil,
      turn_pathText plain (congrArg Prod.snd (before.trans named)), before, named]

theorem run_document (plain : ∀ rule ∈ rules, Plain rule) (s : Loader) :
    gather ((rules.flatMap Rule.lines).foldl (Loader.turn id) s).view.1
        ((rules.flatMap Rule.lines).foldl (Loader.turn id) s).view.2 =
      gather s.view.1 s.view.2 ++
        rules.map fun rule => { name := rule.name, soPath := rule.path, params := [] } := by
  induction rules generalizing s with
  | nil => exact (List.append_nil _).symm
  | cons rule rules ih =>
    rw [List.flatMap_cons, List.foldl_append,
      ih (fun other mem => plain other (List.mem_cons_of_mem _ mem)),
      run_ruleLines (plain rule List.mem_cons_self)]
    rw [gather, if_neg rule.named, List.map_cons, List.append_assoc]
    rfl

/-- The configurations are the names and paths of the rules in order, without parameters. -/
theorem parse_kept (plain : ∀ rule ∈ rules, Plain rule) :
    (parse id (document rules)).configs =
      rules.map fun rule => { name := rule.name, soPath := rule.path, params := [] } := by
  rw [parse, flush_configs, getlines_document, run_document plain]
  rfl

theorem carries_iff : Carries { name := rule.name, soPath := rule.path, params := [] } rule ↔
    rule.params = [] := by
  constructor
  · intro carries
    obtain ⟨indent, -, same⟩ := carries.params
    cases params : rule.params with
    | nil => rfl
    | cons param params =>
      rw [params, List.map_cons, unlines_cons] at same
      exact absurd same.symm (List.append_ne_nil_of_right_ne_nil _ (List.cons_ne_nil _ _))
  · intro none
    refine ⟨rfl, rfl, [], List.mem_cons_self, ?_⟩
    rw [none]
    rfl

/-- Even so, rules are carried over exactly if none of them has a parameter. -/
theorem parse_carries_iff (plain : ∀ rule ∈ rules, Plain rule) :
    List.Forall₂ Carries (parse id (document rules)).configs rules ↔
      ∀ rule ∈ rules, rule.params = [] := by
  rw [parse_kept plain, List.forall₂_map_left_iff, List.forall₂_same]
  exact forall₂_congr fun _ _ => carries_iff

end Kept

end RuleConfigs
