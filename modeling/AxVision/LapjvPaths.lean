import AxVision.LapjvReductions

/-!
# The paths of the assignment solver

The search from a row without a column ends at a free column at the least
distance, its labels lower the prices, and the rows on the path move up: one
more row is seated, and every row still holds a cheapest column.
-/

namespace LapjvPaths

open DetectionTypes LapjvSolver LapjvReductions PricedAssignments OptimalAssignments

variable {n : Nat} {cost : Fin n → Fin n → ℚ} {v : Fin n → ℚ} {y : Fin n → Option (Fin n)}
variable {startI : Fin n}

section Find

variable {d : Fin n → ℚ}

/-- The two parts of the columns seen: those of the least label, and the rest. -/
structure Parted (d : Fin n → ℚ) (seen : List (Fin n)) (s : ℚ × List (Fin n) × List (Fin n)) :
    Prop where
  some_scan : s.2.1 ≠ []
  same : (s.2.1 ++ s.2.2).Perm seen
  scan_eq : ∀ j ∈ s.2.1, d j = s.1
  rest_le : ∀ j ∈ s.2.2, s.1 ≤ d j

theorem findStep_parted {seen : List (Fin n)} {s : ℚ × List (Fin n) × List (Fin n)}
    (h : Parted d seen s) (j : Fin n) : Parted d (seen ++ [j]) (findStep d s j) := by
  obtain ⟨mind, scan, passed⟩ := s
  have same : (scan ++ passed ++ [j]).Perm (seen ++ [j]) := h.same.append_right [j]
  simp only [findStep, le_rat, lt_rat, decide_eq_true_eq]
  split
  · next le =>
    split
    · next lt =>
      refine ⟨by simp, ?_, ?_, ?_⟩
      · refine List.Perm.trans ?_ same
        refine (List.Perm.append_left [j] (List.rotate_perm _ 1)).trans ?_
        exact List.perm_append_comm
      · intro k mem
        rw [List.mem_singleton.mp mem]
      · intro k mem
        rcases List.mem_append.mp (List.mem_rotate.mp mem) with scanned | later
        · rw [h.scan_eq k scanned]
          exact lt.le
        · exact lt.le.trans (h.rest_le k later)
    · next ge =>
      refine ⟨by simp, ?_, ?_, ?_⟩
      · refine List.Perm.trans ?_ same
        rw [List.append_assoc, List.append_assoc]
        refine List.Perm.append_left scan ?_
        exact (List.Perm.append_left [j] (List.rotate_perm passed 1)).trans List.perm_append_comm
      · intro k mem
        rcases List.mem_append.mp mem with scanned | new
        · exact h.scan_eq k scanned
        · rw [List.mem_singleton.mp new]
          exact le_antisymm le (not_lt.mp ge)
      · intro k mem
        exact h.rest_le k (List.mem_rotate.mp mem)
  · next gt =>
    refine ⟨h.some_scan, ?_, h.scan_eq, ?_⟩
    · rw [← List.append_assoc]
      exact same
    · intro k mem
      rcases List.mem_append.mp mem with old | new
      · exact h.rest_le k old
      · rw [List.mem_singleton.mp new]
        exact (not_le.mp gt).le

theorem fold_parted {seen : List (Fin n)} {s : ℚ × List (Fin n) × List (Fin n)}
    (h : Parted d seen s) (rest : List (Fin n)) :
    Parted d (seen ++ rest) (rest.foldl (findStep d) s) := by
  induction rest generalizing seen s with
  | nil => simpa using h
  | cons j rest ih =>
    rw [List.append_cons]
    exact ih (findStep_parted h j)

theorem findDense_parted (first : Fin n) (rest : List (Fin n)) :
    ∃ level, Parted d (first :: rest) (level, findDense d first rest) := by
  have start : Parted d [first] (d first, [first], []) := by
    refine ⟨by simp, List.Perm.refl _, ?_, ?_⟩
    · intro j mem
      rw [List.mem_singleton.mp mem]
    · intro j mem
      exact absurd mem List.not_mem_nil
  exact ⟨_, fold_parted start rest⟩

theorem lastFree_fold (cols : List (Fin n)) (acc : Option (Fin n)) :
    let found := cols.foldl (fun found j => if y j = none then some j else found) acc
    (found = acc ∧ ∀ j ∈ cols, y j ≠ none) ∨ ∃ j ∈ cols, found = some j ∧ y j = none := by
  induction cols generalizing acc with
  | nil => exact Or.inl ⟨rfl, fun j mem => absurd mem List.not_mem_nil⟩
  | cons j rest ih =>
    simp only [List.foldl_cons]
    split
    · next free =>
      rcases ih (some j) with ⟨same, -⟩ | ⟨k, mem, found⟩
      · exact Or.inr ⟨j, List.mem_cons_self, same, free⟩
      · exact Or.inr ⟨k, List.mem_cons_of_mem _ mem, found⟩
    · next held =>
      rcases ih acc with ⟨same, all⟩ | ⟨k, mem, found⟩
      · refine Or.inl ⟨same, ?_⟩
        intro k mem
        rcases List.mem_cons.mp mem with rfl | later
        · exact held
        · exact all k later
      · exact Or.inr ⟨k, List.mem_cons_of_mem _ mem, found⟩

end Find

section Relax

/-- The labels after the relaxation of some columns over the row `i`. -/
def Relaxes (cred : Fin n → ℚ) (i : Fin n) (cols : List (Fin n)) (l l' : Labels ℚ n) : Prop :=
  ∀ k, (l'.d k = l.d k ∧ l'.pred k = l.pred k) ∨
    (k ∈ cols ∧ l'.d k = cred k ∧ l'.pred k = i ∧ cred k < l.d k)

variable {cred : Fin n → ℚ} {i j : Fin n} {rest : List (Fin n)} {l l' : Labels ℚ n}

theorem Relaxes.mono (h : Relaxes cred i rest l l') (j : Fin n) :
    Relaxes cred i (j :: rest) l l' := by
  intro k
  rcases h k with kept | ⟨mem, new⟩
  · exact Or.inl kept
  · exact Or.inr ⟨List.mem_cons_of_mem _ mem, new⟩

theorem Relaxes.outside (h : Relaxes cred i rest l l') (out : j ∉ rest) :
    l'.d j = l.d j ∧ l'.pred j = l.pred j := by
  rcases h j with kept | ⟨mem, -⟩
  · exact kept
  · exact absurd mem out

theorem Relaxes.le (h : Relaxes cred i rest l l') (k : Fin n) : l'.d k ≤ l.d k := by
  rcases h k with ⟨same, -⟩ | ⟨-, new, -, below⟩
  · exact same.le
  · exact new.trans_le below.le

theorem Relaxes.cons (below : cred j < l.d j) (h : Relaxes cred i rest (l.set j (cred j) i) l')
    (new : j ∉ rest) : Relaxes cred i (j :: rest) l l' := by
  intro k
  by_cases here : k = j
  · subst here
    obtain ⟨dist, above⟩ := h.outside new
    rw [Labels.set_d_self] at dist
    rw [Labels.set_pred_self] at above
    exact Or.inr ⟨List.mem_cons_self, dist, above, below⟩
  · rcases h k with ⟨dist, above⟩ | ⟨mem, dist, above, less⟩
    · rw [Labels.set_d_of_ne here] at dist
      rw [Labels.set_pred_of_ne here] at above
      exact Or.inl ⟨dist, above⟩
    · rw [Labels.set_d_of_ne here] at less
      exact Or.inr ⟨List.mem_cons_of_mem _ mem, dist, above, less⟩

/-- What the pass over the columns `rest` leaves behind. -/
def Passes (y : Fin n → Option (Fin n)) (cred : Fin n → ℚ) (i : Fin n) (mind : ℚ)
    (rest scan passed : List (Fin n)) (l : Labels ℚ n) : Relaxed ℚ n → Prop
  | .free j l' => Relaxes cred i rest l l' ∧ j ∈ rest ∧ y j = none ∧ l'.d j = mind
  | .exhausted scan' todo l' => Relaxes cred i rest l l' ∧ (∀ k ∈ rest, l'.d k ≤ cred k) ∧
    ∃ moved, scan' = scan ++ moved ∧ (moved ++ todo).Perm (passed ++ rest) ∧
      ∀ k ∈ moved, k ∈ rest ∧ y k ≠ none ∧ l'.d k = mind

variable {mind : ℚ} {scan passed passed' : List (Fin n)} {out : Relaxed ℚ n}

/-- A column that is passed over stays on the list. -/
theorem Passes.cons_keep {l₁ : Labels ℚ n}
    (relaxes : ∀ {l'}, Relaxes cred i rest l₁ l' → Relaxes cred i (j :: rest) l l')
    (small : ∀ {l'}, Relaxes cred i rest l₁ l' → l'.d j ≤ cred j)
    (h : Passes y cred i mind rest scan (passed ++ [j]) l₁ out) :
    Passes y cred i mind (j :: rest) scan passed l out := by
  cases out with
  | free k l' =>
    obtain ⟨relaxed, mem, free, dist⟩ := h
    exact ⟨relaxes relaxed, List.mem_cons_of_mem _ mem, free, dist⟩
  | exhausted scan' todo l' =>
    obtain ⟨relaxed, all, moved, scan_eq, same, held⟩ := h
    refine ⟨relaxes relaxed, ?_, moved, scan_eq, ?_, ?_⟩
    · intro k mem
      rcases List.mem_cons.mp mem with rfl | later
      · exact small relaxed
      · exact all k later
    · simpa using same
    · intro k mem
      obtain ⟨later, facts⟩ := held k mem
      exact ⟨List.mem_cons_of_mem _ later, facts⟩

/-- A column at the least distance joins the columns to scan. -/
theorem Passes.cons_move (below : cred j < l.d j) (new : j ∉ rest) (level : cred j = mind)
    (unfree : y j ≠ none)
    (h : Passes y cred i mind rest (scan ++ [j]) (passed.rotate 1) (l.set j (cred j) i) out) :
    Passes y cred i mind (j :: rest) scan passed l out := by
  cases out with
  | free k l' =>
    obtain ⟨relaxed, mem, free, dist⟩ := h
    exact ⟨relaxed.cons below new, List.mem_cons_of_mem _ mem, free, dist⟩
  | exhausted scan' todo l' =>
    obtain ⟨relaxed, all, moved, scan_eq, same, held⟩ := h
    have dist : l'.d j = cred j := by
      rw [(relaxed.outside new).1, Labels.set_d_self]
    refine ⟨relaxed.cons below new, ?_, j :: moved, ?_, ?_, ?_⟩
    · intro k mem
      rcases List.mem_cons.mp mem with rfl | later
      · exact dist.le
      · exact all k later
    · rw [scan_eq, List.append_assoc, List.singleton_append]
    · have rotated := same.trans (List.Perm.append_right rest (List.rotate_perm passed 1))
      exact (List.Perm.cons j rotated).trans List.perm_middle.symm
    · intro k mem
      rcases List.mem_cons.mp mem with rfl | later
      · exact ⟨List.mem_cons_self, unfree, dist.trans level⟩
      · obtain ⟨inside, facts⟩ := held k later
        exact ⟨List.mem_cons_of_mem _ inside, facts⟩

theorem relax_passes {h : ℚ} (nodup : rest.Nodup) (l : Labels ℚ n) :
    Passes y (fun k => cost i k - v k - h) i mind rest scan passed l
      (relax cost y v i h mind rest scan passed l) := by
  induction rest generalizing scan passed l with
  | nil =>
    refine ⟨fun k => Or.inl ⟨rfl, rfl⟩, fun k mem => absurd mem List.not_mem_nil, [], ?_, ?_, ?_⟩
    · rw [List.append_nil]
    · simp
    · exact fun k mem => absurd mem List.not_mem_nil
  | cons j rest ih =>
    obtain ⟨new, nodup⟩ := List.nodup_cons.mp nodup
    simp only [relax, lt_rat, le_rat, decide_eq_true_eq, Bool.and_eq_true]
    split
    · next below =>
      split
      · next level =>
        have level := le_antisymm level.1 level.2
        split
        · next free =>
          refine ⟨Relaxes.cons below (fun k => Or.inl ⟨rfl, rfl⟩) new, List.mem_cons_self, free, ?_⟩
          rw [Labels.set_d_self, level]
        · next held => exact (ih nodup _).cons_move below new level held
      · refine (ih nodup _).cons_keep (fun relaxed => relaxed.cons below new) fun relaxed => ?_
        rw [(relaxed.outside new).1, Labels.set_d_self]
    · next above =>
      refine (ih nodup _).cons_keep (fun relaxed => relaxed.mono j) fun relaxed => ?_
      rw [(relaxed.outside new).1]
      exact not_lt.mp above

end Relax

section Search

/-- The columns that are done, in order: each has its label over the row it was
searched from or over the owner of a column before it. -/
structure Tree (cost : Fin n → Fin n → ℚ) (v : Fin n → ℚ) (y : Fin n → Option (Fin n))
    (startI : Fin n) (done : List (Fin n)) (l : Labels ℚ n) : Prop where
  nodup : done.Nodup
  held : ∀ j ∈ done, y j ≠ none
  start_le : ∀ k, l.d k ≤ reduced cost v startI k
  via : ∀ j, Via cost v y startI (· ∈ done) l.d j (l.pred j)
  ranked : ∀ pre j post, done = pre ++ j :: post →
    l.pred j = startI ∨ ∃ k ∈ pre, y k = some (l.pred j)

/-- The owners of the columns have passed their labels on. -/
def Handed (cost : Fin n → Fin n → ℚ) (v : Fin n → ℚ) (y : Fin n → Option (Fin n))
    (done : List (Fin n)) (l : Labels ℚ n) : Prop :=
  ∀ j ∈ done, ∀ r, y j = some r → ∀ k,
    l.d k ≤ l.d j - reduced cost v r j + reduced cost v r k

/-- Between two calls of `_find_dense`. -/
structure Between (cost : Fin n → Fin n → ℚ) (v : Fin n → ℚ) (y : Fin n → Option (Fin n))
    (startI : Fin n) (ready todo : List (Fin n)) (l : Labels ℚ n) : Prop where
  tree : Tree cost v y startI ready l
  handed : Handed cost v y ready l
  cover : ∀ j, j ∈ ready ++ todo
  nodup : (ready ++ todo).Nodup
  ordered : ∀ j ∈ ready, ∀ k ∈ todo, l.d j ≤ l.d k

/-- While the columns at one level are scanned; `ready` are those below it. -/
structure Searching (cost : Fin n → Fin n → ℚ) (v : Fin n → ℚ) (y : Fin n → Option (Fin n))
    (startI : Fin n) (ready done scan todo : List (Fin n)) (l : Labels ℚ n) (level : ℚ) :
    Prop where
  tree : Tree cost v y startI done l
  handed : Handed cost v y done l
  cover : ∀ j, j ∈ done ++ (scan ++ todo)
  nodup : (done ++ (scan ++ todo)).Nodup
  earlier : ∀ j ∈ ready, j ∈ done
  near : ∀ j ∈ done, l.d j ≤ level
  fresh : ∀ j ∈ done, j ∉ ready → level ≤ l.d j
  same : ∀ j ∈ scan, l.d j = level
  far : ∀ j ∈ todo, level ≤ l.d j

/-- The search has ended at a free column. -/
structure Reached (cost : Fin n → Fin n → ℚ) (v : Fin n → ℚ) (y : Fin n → Option (Fin n))
    (startI : Fin n) (ready done : List (Fin n)) (final : Fin n) (l : Labels ℚ n) (level : ℚ) :
    Prop where
  tree : Tree cost v y startI done l
  labelled : Labelled cost v y startI (· ∈ done) l.d level
  free : y final = none
  final_level : l.d final = level
  near : ∀ j ∈ ready, l.d j ≤ level
  far : ∀ j, j ∉ ready → level ≤ l.d j

variable {ready done scan todo : List (Fin n)} {l l' : Labels ℚ n} {level : ℚ} {i j : Fin n}

theorem Searching.reached_scan (h : Searching cost v y startI ready done scan todo l level)
    (settled : ∀ j ∈ done, j ∈ ready) {final : Fin n} (mem : final ∈ scan) (free : y final = none) :
    Reached cost v y startI ready done final l level := by
  have beyond : ∀ j, j ∉ done → level ≤ l.d j := by
    intro j out
    rcases List.mem_append.mp (h.cover j) with inside | rest
    · exact absurd inside out
    · rcases List.mem_append.mp rest with scanned | later
      · exact (h.same j scanned).ge
      · exact h.far j later
  refine ⟨h.tree, ⟨?_, ?_, h.near, beyond⟩, free, h.same final mem, ?_, ?_⟩
  · exact fun k => (min_le_left _ _).trans (h.tree.start_le k)
  · exact fun j mem r held k => (min_le_left _ _).trans (h.handed j mem r held k)
  · exact fun j mem => h.near j (h.earlier j mem)
  · exact fun j out => beyond j fun inside => out (settled j inside)

/-- The label that the owner of `j` offers. -/
def offer (cost : Fin n → Fin n → ℚ) (v : Fin n → ℚ) (l : Labels ℚ n) (i j k : Fin n) : ℚ :=
  cost i k - v k - (cost i j - v j - l.d j)

theorem offer_eq (l : Labels ℚ n) (i j k : Fin n) :
    offer cost v l i j k = l.d j - reduced cost v i j + reduced cost v i k := by
  simp only [offer, reduced]
  ring

/-- No offer is below the label it is made from. -/
theorem le_offer (priced : Priced cost v y) (owner : y j = some i) (l : Labels ℚ n) (k : Fin n) :
    l.d j ≤ offer cost v l i j k := by
  rw [offer_eq]
  linarith only [priced j i owner k]

/-- An entry of a list with one more at its end is this last one, or it is in the list. -/
theorem split_last {pre post : List (Fin n)} {k : Fin n} (split : done ++ [j] = pre ++ k :: post) :
    (pre = done ∧ k = j) ∨ ∃ more, done = pre ++ k :: more := by
  rcases List.eq_nil_or_concat post with rfl | ⟨more, last, rfl⟩
  · obtain ⟨same, head⟩ := List.append_inj' split rfl
    exact Or.inl ⟨same.symm, (List.cons.inj head).1.symm⟩
  · rw [List.concat_eq_append, ← List.cons_append, ← List.append_assoc] at split
    exact Or.inr ⟨more, (List.append_inj' split rfl).1⟩

theorem Tree.pass (h : Tree cost v y startI done l) (owner : y j = some i) (new : j ∉ done)
    (apart : ∀ k ∈ todo, k ∉ done ++ [j])
    (relaxed : Relaxes (offer cost v l i j) i todo l l') :
    Tree cost v y startI (done ++ [j]) l' := by
  have kept : ∀ k ∈ done ++ [j], l'.d k = l.d k ∧ l'.pred k = l.pred k :=
    fun k mem => relaxed.outside fun later => apart k later mem
  have here : j ∈ done ++ [j] := by simp
  refine ⟨?_, ?_, fun k => (relaxed.le k).trans (h.start_le k), ?_, ?_⟩
  · refine List.nodup_append.mpr ⟨h.nodup, List.nodup_singleton j, ?_⟩
    rintro k mem _ last rfl
    exact new (List.mem_singleton.mp last ▸ mem)
  · intro k mem
    rcases List.mem_append.mp mem with old | last
    · exact h.held k old
    · rw [List.mem_singleton.mp last, owner]
      exact Option.some_ne_none i
  · intro k
    rcases relaxed k with ⟨dist, above⟩ | ⟨-, dist, above, -⟩
    · rw [above]
      rcases h.via k with ⟨first, value⟩ | ⟨p, mem, held, value⟩
      · exact Or.inl ⟨first, dist.trans value⟩
      · have inside := List.mem_append_left [j] mem
        exact Or.inr ⟨p, inside, held, by rw [dist, (kept p inside).1, value]⟩
    · rw [above]
      exact Or.inr ⟨j, here, owner, by rw [dist, (kept j here).1, offer_eq]⟩
  · intro pre k post split
    have mem : k ∈ done ++ [j] := by rw [split]; simp
    rw [(kept k mem).2]
    rcases split_last split with ⟨rfl, rfl⟩ | ⟨more, done_eq⟩
    · rcases h.via k with ⟨first, -⟩ | ⟨p, inside, held, -⟩
      · exact Or.inl first
      · exact Or.inr ⟨p, inside, held⟩
    · exact h.ranked pre k more done_eq

theorem Handed.pass (h : Handed cost v y done l) (owner : y j = some i)
    (apart : ∀ k ∈ todo, k ∉ done ++ [j]) (near : ∀ k, k ∉ todo → l.d k ≤ l.d j)
    (priced : Priced cost v y) (relaxed : Relaxes (offer cost v l i j) i todo l l')
    (all : ∀ k ∈ todo, l'.d k ≤ offer cost v l i j k) : Handed cost v y (done ++ [j]) l' := by
  have kept : ∀ k ∈ done ++ [j], l'.d k = l.d k :=
    fun k mem => (relaxed.outside fun later => apart k later mem).1
  intro p mem r held k
  rw [kept p mem]
  rcases List.mem_append.mp mem with old | last
  · exact (relaxed.le k).trans (h p old r held k)
  · rw [List.mem_singleton.mp last] at held ⊢
    rw [owner] at held
    cases held
    rw [← offer_eq]
    by_cases later : k ∈ todo
    · exact all k later
    · rw [(relaxed.outside later).1]
      exact (near k later).trans (le_offer priced owner l k)

variable (priced : Priced cost v y)

include priced

theorem Searching.passed (h : Searching cost v y startI ready done (j :: scan) todo l level)
    (owner : y j = some i) (relaxed : Relaxes (offer cost v l i j) i todo l l') :
    Tree cost v y startI (done ++ [j]) l' ∧ (∀ k ∈ todo, level ≤ l'.d k) ∧
      (∀ k, k ∉ todo → l'.d k = l.d k) ∧ ∀ k ∈ todo, k ∉ done ++ [j] := by
  have nodup := h.nodup
  have apart : ∀ k ∈ todo, k ∉ done ++ [j] := by
    intro k later mem
    rw [List.cons_append, List.append_cons, ← List.append_assoc] at nodup
    exact (List.nodup_append.mp nodup).2.2 k (List.mem_append_left _ mem) k later rfl
  have new : j ∉ done := by
    intro mem
    exact (List.nodup_append.mp nodup).2.2 j mem j (by simp) rfl
  refine ⟨h.tree.pass owner new apart relaxed, ?_, fun k out => (relaxed.outside out).1, apart⟩
  intro k later
  rcases relaxed k with ⟨dist, -⟩ | ⟨-, dist, -, -⟩
  · exact (h.far k later).trans_eq dist.symm
  · rw [dist, ← h.same j List.mem_cons_self]
    exact le_offer priced owner l k

theorem Searching.reached_todo (h : Searching cost v y startI ready done (j :: scan) todo l level)
    (owner : y j = some i) (relaxed : Relaxes (offer cost v l i j) i todo l l') {final : Fin n}
    (free : y final = none) (dist : l'.d final = level) :
    Reached cost v y startI ready (done ++ [j]) final l' level := by
  obtain ⟨tree, far, kept, apart⟩ := h.passed priced owner relaxed
  have here := h.same j List.mem_cons_self
  have old : ∀ k ∈ done, l'.d k = l.d k := fun k mem =>
    kept k fun later => apart k later (List.mem_append_left _ mem)
  have here' : l'.d j = level := by
    rw [kept j fun later => apart j later (by simp), here]
  have beyond : ∀ k, k ∉ done → level ≤ l'.d k := by
    intro k out
    by_cases later : k ∈ todo
    · exact far k later
    · rw [kept k later]
      rcases List.mem_append.mp (h.cover k) with inside | rest
      · exact absurd inside out
      · rcases List.mem_append.mp rest with scanned | inside
        · exact (h.same k scanned).ge
        · exact absurd inside later
  refine ⟨tree, ⟨fun k => (min_le_left _ _).trans (tree.start_le k), ?_, ?_, ?_⟩, free, dist,
    ?_, ?_⟩
  · intro p mem r held k
    rcases List.mem_append.mp mem with before | last
    · rw [old p before]
      exact (min_le_left _ _).trans ((relaxed.le k).trans (h.handed p before r held k))
    · rw [List.mem_singleton.mp last] at held ⊢
      rw [owner] at held
      cases held
      refine (min_le_right _ _).trans ?_
      rw [here', ← here, ← offer_eq]
      exact le_offer priced owner l k
  · intro k mem
    rcases List.mem_append.mp mem with before | last
    · rw [old k before]
      exact h.near k before
    · rw [List.mem_singleton.mp last]
      exact here'.le
  · exact fun k out => beyond k fun mem => out (List.mem_append_left _ mem)
  · intro k mem
    rw [old k (h.earlier k mem)]
    exact h.near k (h.earlier k mem)
  · intro k out
    by_cases inside : k ∈ done
    · rw [old k inside]
      exact h.fresh k inside out
    · exact beyond k inside

theorem Searching.advance (h : Searching cost v y startI ready done (j :: scan) todo l level)
    (owner : y j = some i) {moved todo' : List (Fin n)}
    (relaxed : Relaxes (offer cost v l i j) i todo l l')
    (all : ∀ k ∈ todo, l'.d k ≤ offer cost v l i j k) (same : (moved ++ todo').Perm todo)
    (held : ∀ k ∈ moved, l'.d k = level) :
    Searching cost v y startI ready (done ++ [j]) (scan ++ moved) todo' l' level := by
  obtain ⟨tree, far, kept, apart⟩ := h.passed priced owner relaxed
  have here := h.same j List.mem_cons_self
  have near : ∀ k, k ∉ todo → l.d k ≤ l.d j := by
    intro k out
    rw [here]
    rcases List.mem_append.mp (h.cover k) with inside | rest
    · exact h.near k inside
    · rcases List.mem_append.mp rest with scanned | later
      · exact (h.same k scanned).le
      · exact absurd later out
  have level_of : ∀ k ∈ done ++ [j], l'.d k = l.d k := fun k mem =>
    kept k fun later => apart k later mem
  have lists : (done ++ [j] ++ (scan ++ moved ++ todo')).Perm (done ++ (j :: scan ++ todo)) := by
    simp only [List.append_assoc, List.cons_append, List.nil_append]
    exact List.Perm.append_left done ((same.append_left scan).cons j)
  refine ⟨tree, h.handed.pass owner apart near priced relaxed all,
    fun k => lists.mem_iff.mpr (h.cover k), lists.nodup_iff.mpr h.nodup,
    fun k mem => List.mem_append_left _ (h.earlier k mem), ?_, ?_, ?_, ?_⟩
  · intro k mem
    rw [level_of k mem]
    rcases List.mem_append.mp mem with before | last
    · exact h.near k before
    · rw [List.mem_singleton.mp last]
      exact here.le
  · intro k mem out
    rw [level_of k mem]
    rcases List.mem_append.mp mem with before | last
    · exact h.fresh k before out
    · rw [List.mem_singleton.mp last]
      exact here.ge
  · intro k mem
    rcases List.mem_append.mp mem with scanned | new
    · have out : k ∉ todo := by
        intro later
        have nodup := (List.nodup_append.mp h.nodup).2.1
        exact (List.nodup_append.mp nodup).2.2 k (List.mem_cons_of_mem _ scanned) k later rfl
      rw [kept k out]
      exact h.same k (List.mem_cons_of_mem _ scanned)
    · exact held k new
  · intro k mem
    exact far k (same.mem_iff.mp (List.mem_append_right _ mem))

omit priced in
theorem length_of_cover {l : List (Fin n)} (nodup : l.Nodup) (cover : ∀ j, j ∈ l) :
    l.length = n := by
  have same := (List.perm_ext_iff_of_nodup nodup (List.nodup_finRange n)).mpr
    fun j => iff_of_true (cover j) (List.mem_finRange j)
  rw [same.length_eq, List.length_finRange]

/-- `_scan_dense` finds a free column, or all columns of the level are done. -/
theorem scanDense_ends {fuel : Nat} {this : List (Fin n)}
    (h : Searching cost v y startI ready (ready ++ this) scan todo l level)
    (held : ∀ j ∈ scan, y j ≠ none) (enough : scan.length + todo.length ≤ fuel) :
    (∃ final l' done, scanDense cost y v fuel this scan todo l = some (.free final l') ∧
        Reached cost v y startI ready done final l' level ∧ ∀ k, k ∉ todo → l'.d k = l.d k) ∨
      ∃ this' todo' l',
        scanDense cost y v fuel this scan todo l = some (.exhausted this' todo' l') ∧
        Searching cost v y startI ready (ready ++ this') [] todo' l' level ∧
        this.length + scan.length ≤ this'.length := by
  induction fuel generalizing this scan todo l with
  | zero =>
    have empty : scan = [] := List.eq_nil_of_length_eq_zero (by omega)
    subst empty
    exact Or.inr ⟨this, todo, l, rfl, h, le_rfl⟩
  | succ fuel ih =>
    cases scan with
    | nil => exact Or.inr ⟨this, todo, l, rfl, h, le_rfl⟩
    | cons j scan =>
      obtain ⟨i, owner⟩ := Option.ne_none_iff_exists'.mp (held j List.mem_cons_self)
      have nodup : todo.Nodup :=
        (List.nodup_append.mp (List.nodup_append.mp h.nodup).2.1).2.1
      have passes : Passes y (fun k => cost i k - v k - (cost i j - v j - l.d j)) i (l.d j) todo
          scan [] l (relax cost y v i (cost i j - v j - l.d j) (l.d j) todo scan [] l) :=
        relax_passes nodup l
      have here := h.same j List.mem_cons_self
      rw [scanDense, owner]
      dsimp only
      cases run : relax cost y v i (cost i j - v j - l.d j) (l.d j) todo scan [] l with
      | free final l' =>
        rw [run] at passes
        obtain ⟨relaxed, -, free, dist⟩ := passes
        exact Or.inl ⟨final, l', _, rfl,
          h.reached_todo priced owner relaxed free (dist.trans here),
          fun k out => (relaxed.outside out).1⟩
      | exhausted scan' todo' l' =>
        rw [run] at passes
        obtain ⟨relaxed, all, moved, rfl, same, facts⟩ := passes
        have next := h.advance priced owner relaxed all same
          fun k mem => (facts k mem).2.2.trans here
        rw [List.append_assoc] at next
        have length := same.length_eq
        rw [List.length_append, List.nil_append] at length
        have room : (scan ++ moved).length + todo'.length ≤ fuel := by
          simp only [List.length_append, List.length_cons] at enough ⊢
          omega
        have unfree : ∀ k ∈ scan ++ moved, y k ≠ none := by
          intro k mem
          rcases List.mem_append.mp mem with scanned | new
          · exact held k (List.mem_cons_of_mem _ scanned)
          · exact (facts k new).2.1
        rcases ih next unfree room with
          ⟨final, l₂, done, run₂, reached, kept⟩ | ⟨this', todo₂, l₂, run₂, above, longer⟩
        · refine Or.inl ⟨final, l₂, done, run₂, reached, fun k out => ?_⟩
          have out' : k ∉ todo' := fun later =>
            out (same.mem_iff.mp (List.mem_append_right _ later))
          exact (kept k out').trans (relaxed.outside out).1
        · refine Or.inr ⟨this', todo₂, l₂, run₂, above, ?_⟩
          simp only [List.length_append, List.length_cons, List.length_nil] at longer ⊢
          omega

/-- The search ends, as long as some column is free. -/
theorem searchLoop_reaches (fuel : Nat) (h : Between cost v y startI ready todo l)
    (some_free : ∃ j, y j = none) (enough : todo.length < fuel) :
    ∃ target level done, searchLoop cost y v fuel ready todo l = some target ∧
      Reached cost v y startI target.ready done target.finalJ target.labels level ∧
      target.labels.d target.lo = level ∧ target.ready.Nodup := by
  induction fuel generalizing ready todo l with
  | zero => omega
  | succ fuel ih =>
    cases todo with
    | nil =>
      obtain ⟨j, free⟩ := some_free
      have done : j ∈ ready := by simpa using h.cover j
      exact absurd free (h.tree.held j done)
    | cons first rest =>
      obtain ⟨level, parted⟩ := findDense_parted (d := l.d) first rest
      cases split : findDense l.d first rest with
      | mk scan todo' =>
        rw [split] at parted
        cases scan with
        | nil => exact absurd rfl parted.some_scan
        | cons lo scan =>
          have same := parted.same
          have start : Searching cost v y startI ready ready (lo :: scan) todo' l level := by
            refine ⟨h.tree, h.handed, ?_, ?_, fun _ mem => mem, ?_, ?_, parted.scan_eq,
              parted.rest_le⟩
            · exact fun j => (same.append_left ready).mem_iff.mpr (h.cover j)
            · exact (same.append_left ready).nodup_iff.mpr h.nodup
            · intro j mem
              have inside : lo ∈ first :: rest := same.mem_iff.mp (by simp)
              exact (h.ordered j mem lo inside).trans_eq (parted.scan_eq lo List.mem_cons_self)
            · exact fun j mem out => absurd mem out
          rw [searchLoop, split]
          dsimp only
          rcases lastFree_fold (y := y) (lo :: scan) none with
            ⟨none_free, held⟩ | ⟨final, mem, found, free⟩
          · have none_free : lastFree y (lo :: scan) = none := none_free
            have size : (lo :: scan).length + todo'.length ≤ n := by
              have nodup := (List.nodup_append.mp start.nodup).2.1
              have small := nodup.length_le_card
              rw [Fintype.card_fin, List.length_append] at small
              exact small
            have start' :
                Searching cost v y startI ready (ready ++ []) (lo :: scan) todo' l level :=
              (List.append_nil ready).symm ▸ start
            rw [none_free]
            dsimp only
            rcases scanDense_ends priced start' held size with
              ⟨final, l', done, run, reached, kept⟩ | ⟨this, todo₂, l', run, above, longer⟩
            · have near : l'.d lo = level := by
                have nodup := (List.nodup_append.mp start.nodup).2.1
                have out : lo ∉ todo' := fun later =>
                  (List.nodup_append.mp nodup).2.2 lo List.mem_cons_self lo later rfl
                exact (kept lo out).trans (parted.scan_eq lo List.mem_cons_self)
              rw [run]
              exact ⟨_, level, done, rfl, reached, near, h.tree.nodup⟩
            · have next : Between cost v y startI (ready ++ this) todo₂ l' := by
                refine ⟨above.tree, above.handed, ?_, ?_, ?_⟩
                · simpa using above.cover
                · simpa using above.nodup
                · exact fun j mem k later => (above.near j mem).trans (above.far k later)
              have length : todo₂.length < fuel := by
                have before := length_of_cover h.nodup h.cover
                have after := length_of_cover next.nodup next.cover
                simp only [List.length_append, List.length_cons, List.length_nil]
                  at before after longer enough
                omega
              rw [run]
              exact ih next length
          · have found : lastFree y (lo :: scan) = some final := found
            rw [found]
            exact ⟨_, level, ready, rfl, start.reached_scan (fun _ mem => mem) mem free,
              parted.scan_eq lo List.mem_cons_self, h.tree.nodup⟩

end Search

section Prices

theorem fold_prices (d : Fin n → ℚ) (mind : ℚ) {ready : List (Fin n)} (nodup : ready.Nodup)
    (v : Fin n → ℚ) (k : Fin n) :
    ready.foldl (fun v j => Function.update v j (v j + (d j - mind))) v k =
      if k ∈ ready then v k + (d k - mind) else v k := by
  induction ready generalizing v with
  | nil => simp
  | cons j rest ih =>
    obtain ⟨new, nodup⟩ := List.nodup_cons.mp nodup
    rw [List.foldl_cons, ih nodup]
    by_cases here : k = j
    · subst here
      rw [if_neg new, if_pos List.mem_cons_self, Function.update_self]
    · rw [Function.update_of_ne here]
      simp only [List.mem_cons, here, false_or]

variable {ready done : List (Fin n)} {final : Fin n} {l : Labels ℚ n} {level : ℚ}

/-- The code lowers the prices of the columns that were done below the level. -/
theorem Reached.prices (h : Reached cost v y startI ready done final l level)
    (nodup : ready.Nodup) :
    ready.foldl (fun v j => Function.update v j (v j + (l.d j - level))) v =
      lowered v l.d level := by
  funext k
  rw [fold_prices l.d level nodup, lowered]
  split
  · next near => rw [min_eq_left (h.near k near)]
  · next far => rw [min_eq_right (h.far k far), sub_self, add_zero]

theorem findPathDense_reaches (startI : Fin n) (priced : Priced cost v y)
    (some_free : ∃ j, y j = none) :
    ∃ final l level ready done,
      findPathDense cost startI y v = some (final, l.pred, lowered v l.d level) ∧
        Reached cost v y startI ready done final l level := by
  have start : Between cost v y startI [] (List.finRange n)
      { d := fun j => cost startI j - v j, pred := fun _ => startI } := by
    refine ⟨⟨List.nodup_nil, ?_, fun k => le_rfl, fun j => Or.inl ⟨rfl, rfl⟩, ?_⟩, ?_, ?_, ?_, ?_⟩
    · exact fun j mem => absurd mem List.not_mem_nil
    · intro pre j post split
      simp at split
    · exact fun j mem => absurd mem List.not_mem_nil
    · simp
    · simpa using List.nodup_finRange n
    · exact fun j mem => absurd mem List.not_mem_nil
  obtain ⟨target, level, done, run, reached, lo_level, nodup⟩ :=
    searchLoop_reaches priced (n + 1) start some_free (by simp)
  refine ⟨target.finalJ, target.labels, level, target.ready, done, ?_, reached⟩
  rw [findPathDense, run, Option.map_some]
  simp only [lo_level, reached.prices nodup]

end Prices

section Augment

variable {pred : Fin n → Fin n} {x y' : Fin n → Option (Fin n)} {pre : List (Fin n)} {j : Fin n}

/-- On the way back: the column `j` is without an owner, and `pre` is what the
path can still go through. -/
structure Vacant (y : Fin n → Option (Fin n)) (pred : Fin n → Fin n) (startI : Fin n)
    (pre : List (Fin n)) (j : Fin n) (x y' : Fin n → Option (Fin n)) : Prop where
  seated : ∀ k r, k ≠ j → y' k = some r → x r = some k
  unheld : ∀ k, k ≠ j → y' k ≠ some startI
  untouched : ∀ k ∈ pre, y' k = y k
  nodup : (pre ++ [j]).Nodup
  ranked : ∀ p k q, pre ++ [j] = p ++ k :: q → pred k = startI ∨ ∃ l ∈ p, y l = some (pred k)

/-- The path comes back to the row it started from, which is seated then. -/
theorem augment_seats {fuel : Nat} (h : Vacant y pred startI pre j x y')
    (enough : pre.length < fuel) :
    ∃ x₂ y₂, augment pred startI fuel j (x, y') = some (x₂, y₂) ∧ Seated x₂ y₂ ∧
      (∀ r, Held y₂ r ↔ r = startI ∨ ∃ k, k ≠ j ∧ y' k = some r) ∧
      ∀ k r, y₂ k = some r → y' k = some r ∨ k ∈ pre ++ [j] ∧ r = pred k := by
  induction fuel generalizing pre j x y' with
  | zero => omega
  | succ fuel ih =>
    rw [augment]
    split
    · next back =>
      refine ⟨_, _, rfl, ?_, ?_, ?_⟩
      · intro k r held
        by_cases here : k = j
        · subst here
          rw [Function.update_self] at held
          cases held
          rw [Function.update_self]
        · rw [Function.update_of_ne here] at held
          have other : r ≠ pred j := by
            rintro rfl
            exact h.unheld k here (back ▸ held)
          rw [Function.update_of_ne other]
          exact h.seated k r here held
      · intro r
        constructor
        · rintro ⟨k, held⟩
          by_cases here : k = j
          · subst here
            rw [Function.update_self] at held
            exact Or.inl ((Option.some.inj held).symm.trans back)
          · rw [Function.update_of_ne here] at held
            exact Or.inr ⟨k, here, held⟩
        · rintro (rfl | ⟨k, here, held⟩)
          · exact ⟨j, by rw [Function.update_self, back]⟩
          · exact ⟨k, by rw [Function.update_of_ne here, held]⟩
      · intro k r held
        by_cases here : k = j
        · subst here
          rw [Function.update_self] at held
          exact Or.inr ⟨by simp, (Option.some.inj held).symm⟩
        · rw [Function.update_of_ne here] at held
          exact Or.inl held
    · next onward =>
      obtain ⟨k, mem, owner⟩ := (h.ranked pre j [] rfl).resolve_left onward
      have owner' : y' k = some (pred j) := (h.untouched k mem).trans owner
      have other : k ≠ j := by
        rintro rfl
        exact (List.nodup_append.mp h.nodup).2.2 k mem k (by simp) rfl
      have seat := h.seated k (pred j) other owner'
      obtain ⟨before, after, rfl⟩ := List.append_of_mem mem
      have shape : before ++ k :: after ++ [j] = before ++ [k] ++ (after ++ [j]) := by simp
      have next : Vacant y pred startI before k (Function.update x (pred j) (some j))
          (Function.update y' j (some (pred j))) := by
        refine ⟨?_, ?_, ?_, ?_, ?_⟩
        · intro l r off held
          by_cases here : l = j
          · subst here
            rw [Function.update_self] at held
            cases held
            rw [Function.update_self]
          · rw [Function.update_of_ne here] at held
            have seat' := h.seated l r here held
            have apart : r ≠ pred j := by
              rintro rfl
              rw [seat] at seat'
              exact off (Option.some.inj seat').symm
            rw [Function.update_of_ne apart]
            exact seat'
        · intro l off
          by_cases here : l = j
          · subst here
            rw [Function.update_self]
            exact fun same => onward (Option.some.inj same)
          · rw [Function.update_of_ne here]
            exact h.unheld l here
        · intro l inside
          have here : l ≠ j := by
            rintro rfl
            exact (List.nodup_append.mp h.nodup).2.2 l (by simp [inside]) l (by simp) rfl
          rw [Function.update_of_ne here]
          exact h.untouched l (by simp [inside])
        · exact (List.nodup_append.mp (shape ▸ h.nodup)).1
        · intro p l q split
          refine h.ranked p l (q ++ (after ++ [j])) ?_
          rw [shape, split, List.append_assoc, List.cons_append]
      have room : before.length < fuel := by
        rw [List.length_append, List.length_cons] at enough
        omega
      obtain ⟨x₂, y₂, run, seated, held, moved⟩ := ih next room
      refine ⟨x₂, y₂, by rw [seat]; exact run, seated, ?_, ?_⟩
      · intro r
        rw [held r]
        refine or_congr_right ?_
        constructor
        · rintro ⟨l, off, owns⟩
          by_cases here : l = j
          · subst here
            rw [Function.update_self] at owns
            cases owns
            exact ⟨k, other, owner'⟩
          · rw [Function.update_of_ne here] at owns
            exact ⟨l, here, owns⟩
        · rintro ⟨l, here, owns⟩
          by_cases same : l = k
          · subst same
            refine ⟨j, other.symm, ?_⟩
            rw [Function.update_self, ← owns, owner']
          · exact ⟨l, same, by rw [Function.update_of_ne here, owns]⟩
      · intro l r owns
        rcases moved l r owns with old | ⟨inside, above⟩
        · by_cases here : l = j
          · subst here
            rw [Function.update_self] at old
            exact Or.inr ⟨by simp, (Option.some.inj old).symm⟩
          · rw [Function.update_of_ne here] at old
            exact Or.inl old
        · refine Or.inr ⟨?_, above⟩
          simp only [List.mem_append, List.mem_cons] at inside ⊢
          tauto

end Augment

section Solve

variable {s : Solution ℚ n}

/-- One row of `_ca_dense`. -/
theorem caDense_step {freeI : Fin n} {rest : List (Fin n)} (h : Reduced cost (freeI :: rest) s) :
    ∃ t, Reduced cost rest t ∧ caDense cost (freeI :: rest) s = caDense cost rest t := by
  have unheld : ¬Held s.y freeI := (h.free_iff freeI).mp List.mem_cons_self
  obtain ⟨final, l, level, ready, done, run, reached⟩ :=
    findPathDense_reaches freeI h.priced (h.seated.exists_free unheld)
  have apart : final ∉ done := fun mem => reached.tree.held final mem reached.free
  have nodup : (done ++ [final]).Nodup := by
    refine List.nodup_append.mpr ⟨reached.tree.nodup, List.nodup_singleton final, ?_⟩
    rintro k mem _ last rfl
    exact apart (List.mem_singleton.mp last ▸ mem)
  have vacant : Vacant s.y l.pred freeI done final s.x s.y := by
    refine ⟨fun k r _ => h.seated k r, fun k _ owner => unheld ⟨k, owner⟩, fun k _ => rfl, nodup,
    ?_⟩
    intro p k q split
    rcases List.eq_nil_or_concat q with rfl | ⟨more, last, rfl⟩
    · obtain ⟨rfl, same⟩ := List.append_inj' split rfl
      cases same
      rcases reached.tree.via final with ⟨first, -⟩ | ⟨r, mem, owner, -⟩
      · exact Or.inl first
      · exact Or.inr ⟨r, mem, owner⟩
    · rw [List.concat_eq_append, ← List.cons_append, ← List.append_assoc] at split
      exact reached.tree.ranked p k more (List.append_inj' split rfl).1
  have room : done.length < n := by
    have small := nodup.length_le_card
    rw [Fintype.card_fin, List.length_append, List.length_singleton] at small
    exact small
  obtain ⟨x, y, path, seated, held, moved⟩ := augment_seats vacant room
  have parts := List.nodup_cons.mp h.nodup
  refine ⟨{ x := x, y := y, v := lowered s.v l.d level }, ⟨seated, ?_, parts.2, ?_⟩, ?_⟩
  · refine reached.labelled.priced h.priced fun k r owner => ?_
    rcases moved k r owner with old | ⟨mem, rfl⟩
    · exact Or.inl old
    · refine Or.inr ⟨?_, reached.tree.via k⟩
      rcases List.mem_append.mp mem with inside | last
      · exact reached.labelled.done_level k inside
      · rw [List.mem_singleton.mp last]
        exact reached.final_level.le
  · intro r
    have others : (∃ k, k ≠ final ∧ s.y k = some r) ↔ Held s.y r := by
      constructor
      · rintro ⟨k, -, owner⟩
        exact ⟨k, owner⟩
      · rintro ⟨k, owner⟩
        refine ⟨k, ?_, owner⟩
        rintro rfl
        rw [reached.free] at owner
        cases owner
    rw [held r, others, not_or, ← h.free_iff r, List.mem_cons]
    constructor
    · intro mem
      exact ⟨fun same => parts.1 (same ▸ mem), Or.inr mem⟩
    · rintro ⟨other, same | mem⟩
      · exact absurd same other
      · exact mem
  · rw [caDense, run]
    dsimp only
    rw [path]

theorem caDense_solves {free : List (Fin n)} (h : Reduced cost free s) :
    ∃ t, caDense cost free s = some t ∧ Reduced cost [] t := by
  induction free generalizing s with
  | nil => exact ⟨s, rfl, h⟩
  | cons freeI rest ih =>
    obtain ⟨t, reduced, same⟩ := caDense_step h
    obtain ⟨u, run, solved⟩ := ih reduced
    exact ⟨u, same.trans run, solved⟩

/-- With no row left, the seats are a least permutation. -/
theorem solution_of_reduced (h : Reduced cost [] s) :
    ∃ σ : Equiv.Perm (Fin n), (∀ i, s.x i = some (σ i)) ∧ (∀ j, s.y j = some (σ⁻¹ j)) ∧
      Optimal cost σ := by
  have all : ∀ i, Held s.y i := by
    intro i
    by_contra unheld
    exact absurd ((h.free_iff i).mpr unheld) List.not_mem_nil
  obtain ⟨σ, seats, owners⟩ := h.seated.exists_perm all
  have same : s.y = fun j => some (σ⁻¹ j) := funext owners
  have priced : Priced cost s.v fun j => some (σ⁻¹ j) := same ▸ h.priced
  exact ⟨σ, seats, owners, priced.optimal⟩

/-- The solver comes to an end and leaves no row free. -/
theorem lapjvInternal_reduced [NeZero n] {lo hi : ℚ} (spread : Spread cost lo hi) :
    ∃ s, lapjvInternal cost = some s ∧ Reduced cost [] s := by
  obtain ⟨start, room⟩ := ccrrt_reduced spread
  obtain ⟨first, run₁, reduced₁, room₁⟩ := reduceRows_reduced spread start room
  obtain ⟨second, run₂, reduced₂, -⟩ := reduceRows_reduced spread reduced₁ room₁
  obtain ⟨s, run₃, solved⟩ := caDense_solves reduced₂
  refine ⟨s, ?_, solved⟩
  rw [lapjvInternal, run₁, Option.bind_eq_bind, Option.bind_some, run₂, Option.bind_some, run₃]

/-- On every matrix whose entries `LARGE` is far beyond, `x` is a permutation of
least cost, `y` its inverse, and after the prices `v` no row has a cheaper column
than its own. -/
theorem lapjvInternal_least [NeZero n] {lo hi : ℚ} (spread : Spread cost lo hi) :
    ∃ s, lapjvInternal cost = some s ∧ ∃ σ : Equiv.Perm (Fin n),
      (∀ i, s.x i = some (σ i)) ∧ (∀ j, s.y j = some (σ⁻¹ j)) ∧ Optimal cost σ ∧
        ∀ i k, cost i (σ i) - s.v (σ i) ≤ cost i k - s.v k := by
  obtain ⟨s, run, solved⟩ := lapjvInternal_reduced spread
  obtain ⟨σ, seats, owners, least⟩ := solution_of_reduced solved
  refine ⟨s, run, σ, seats, owners, least, ?_⟩
  intro i k
  have own : s.y (σ i) = some i := by simp [owners]
  exact solved.priced (σ i) i own k

/-- Both rows want the first column, the second one more so. -/
def contested : Fin 2 → Fin 2 → ℚ
  | 0, 0 => 1
  | 0, 1 => 2
  | 1, 0 => 1
  | 1, 1 => 4

theorem contested_least :
    ∃ s, lapjvInternal contested = some s ∧ ∃ σ : Equiv.Perm (Fin 2),
      (∀ i, s.x i = some (σ i)) ∧ (∀ j, s.y j = some (σ⁻¹ j)) ∧ Optimal contested σ ∧
        ∀ i k, contested i (σ i) - s.v (σ i) ≤ contested i k - s.v k :=
  lapjvInternal_least (show Spread contested 1 4 from
    { lower := by decide
      upper := by decide
      below := by norm_num
      narrow := by norm_num })

end Solve

end LapjvPaths
