import MixedInteger.Proofs.Search.Filing

/-! One step of the search. Its parts do not fail: a child has no other directions than the root,
so that none of them is unbounded once the root has an optimum. Branching on a node moves its
points to the children: whatever is better than the best point afterwards, and lies in the node,
is open in the pool again, unless the node was given up. A node is given up when no column is
chosen for it or when its children are too deep; a node whose branching was stopped by a limit
goes back. -/
namespace MixedInteger.Search

/-! ### Solving a node -/

/-- What a solved node says about the points of the reference program that it holds, and about
the directions of the working program. -/
def Node.Settles (start : Problem Rat) (node : Node Rat) : Simplex.Status → Prop
  | .optimal => node.Fits start ∧ start.working.objectiveValue node.solution = node.optimum ∧
      (∀ x, start.reference.Feasible x → Within node.ranges (start.image x) →
        node.optimum ≤ start.reference.objectiveValue x) ∧
      (node.ranges = (Node.root start.working).ranges → ¬ start.working.Descends)
  | .infeasible => ∀ x, start.reference.Feasible x → ¬ Within node.ranges (start.image x)
  | .unbounded => start.working.Descends ∧ (node.ranges = (Node.root start.working).ranges →
      Presolve.Verdict.unbounded.Means start.reference)
  | .iterationLimit => True
  | .error => False

/-- A problem in working form whose root relaxation has an optimum: no direction lowers the
objective. -/
structure Rooted (start : Problem Rat) : Prop extends start.InWorkingForm where
  level : ¬ start.working.Descends

section

variable {start : Problem Rat} {state : State Rat} {node : Node Rat}

theorem wholeRanges_of_alike {other : Problem Rat} (alike : start.Alike other)
    {ranges : List (Range Rat)} (whole : WholeRanges start.working.columns ranges) :
    WholeRanges other.working.columns ranges := by
  intro index column range known there flagged
  obtain ⟨same, found, -, integral, -⟩ := alike.column known
  exact whole index same range found there (integral.trans flagged)

theorem narrows_of_alike {other : Problem Rat} (alike : start.Alike other)
    {ranges : List (Range Rat)} (narrows : Narrows start.working.columns ranges) :
    Narrows other.working.columns ranges := by
  intro index column range known there
  obtain ⟨same, found, range, -⟩ := alike.column known
  rw [← range]
  exact narrows index same _ found there

theorem candidates_of_alike {other : Problem Rat} (alike : start.Alike other)
    (candidates : Candidates other.working.columns node) :
    Candidates start.working.columns node := by
  have back : ∀ (index : Nat), (∃ column, other.working.columns[index]? = some column ∧
      column.integral = true) → ∃ column, start.working.columns[index]? = some column ∧
        column.integral = true := by
    rintro index ⟨column, known, flagged⟩
    obtain ⟨same, found, -, integral, -⟩ := alike.column known
    exact ⟨same, found, integral.trans flagged⟩
  exact ⟨fun index member => back index (candidates.listed index member),
    fun index known => back index (candidates.most index known)⟩

theorem fractionalColumns_of_alike {other : Problem Rat} (alike : start.Alike other)
    {solution : List Rat} {index : Nat}
    (member : index ∈ fractionalColumns other.working.columns solution) :
    index ∈ fractionalColumns start.working.columns solution := by
  obtain ⟨value, column, solved, known, flagged, plain, fractional⟩ :=
    mem_fractionalColumns_iff.mp member
  obtain ⟨same, found, -, integral, slack⟩ := alike.column known
  exact mem_fractionalColumns_iff.mpr ⟨value, same, solved, found, integral.trans flagged,
    slack.trans plain, fractional⟩

/-- A node with an optimal relaxation fits the problem. -/
theorem fits_of_relaxed {other : Problem Rat} (alike : start.Alike other)
    (length : node.ranges.length = start.working.columns.length)
    (whole : WholeRanges start.working.columns node.ranges)
    (narrows : Narrows start.working.columns node.ranges) {relaxed : Relaxed Rat}
    (relaxes : RelaxedFrom other.working (other.working.withRanges node.ranges) node relaxed)
    (status : relaxed.status = .optimal)
    (held : (other.working.withRanges node.ranges).Satisfies relaxed.node.solution) :
    relaxed.node.Fits start := by
  have same : node.ranges.length = other.working.columns.length := length.trans alike.length.symm
  obtain ⟨source, census⟩ := relaxes.census status
  obtain ⟨size, rows, inside⟩ := (Program.satisfies_withRanges_iff same _).mp held
  exact {
    length := by
      rw [relaxes.ranges]
      exact length
    whole := by
      rw [relaxes.ranges]
      exact whole
    narrows := by
      rw [relaxes.ranges]
      exact narrows
    candidates := by
      refine candidates_of_alike alike ?_
      rw [census]
      exact candidates_finish other.working source _ _
    satisfied := by
      refine (alike.satisfies_iff _).mp ⟨size, rows, fun index column known => ?_⟩
      obtain ⟨below, -⟩ := List.getElem?_eq_some_iff.mp known
      have there := List.getElem?_eq_getElem (same.symm ▸ below)
      exact narrows_of_alike alike narrows index column _ known there _ (inside index _ there)
    inside := by
      rw [relaxes.ranges]
      exact inside
    sharp := by
      intro index proposed
      rw [census] at proposed
      exact fractionalColumns_of_alike alike (proposes_finish other.working source _ _ proposed)
    settled := by
      intro integral
      rw [census] at integral
      exact (alike.integralOffSlacks_iff _).mp
        (integralOffSlacks_finish other.working source _ size integral) }

/-- A relaxation over the working program, whatever its branching costs, settles the node. -/
theorem settles_of_relaxed (form : start.InWorkingForm) {other : Problem Rat}
    (alike : start.Alike other) (length : node.ranges.length = start.working.columns.length)
    (whole : WholeRanges start.working.columns node.ranges)
    (narrows : Narrows start.working.columns node.ranges) {relaxed : Relaxed Rat}
    (relaxes : RelaxedFrom other.working (other.working.withRanges node.ranges) node relaxed) :
    relaxed.node.Settles start relaxed.status := by
  have same : node.ranges.length = other.working.columns.length := length.trans alike.length.symm
  have moved := alike.inWorkingForm form
  have covered : ∀ x, start.reference.Feasible x → Within relaxed.node.ranges (start.image x) →
      (other.working.withRanges node.ranges).Feasible (start.image x) ∧
        (other.working.withRanges node.ranges).objectiveValue (start.image x) =
          start.reference.objectiveValue x := by
    intro x held inside
    rw [relaxes.ranges] at inside
    obtain ⟨feasible, value⟩ := moved.image x (alike.reference ▸ held)
    rw [alike.image_eq] at feasible value
    rw [alike.reference] at value
    exact ⟨feasible.withRanges same inside, value⟩
  have own : relaxed.node.ranges = (Node.root start.working).ranges →
      other.working.withRanges node.ranges = other.working := by
    intro root
    rw [← relaxes.ranges, root, Node.root, ← alike.ranges]
    exact other.working.withRanges_own
  have means := relaxes.means
  cases status : relaxed.status with
  | optimal =>
    rw [status] at means
    obtain ⟨held, value, least, level⟩ := means
    refine ⟨fits_of_relaxed alike length whole narrows relaxes status held,
      (alike.objectiveValue_eq _).symm.trans value, fun x held inside => ?_,
      fun root descends => ?_⟩
    · obtain ⟨feasible, worth⟩ := covered x held inside
      exact worth ▸ least _ feasible
    · rw [own root] at level
      exact level (alike.descends_iff.mpr descends)
  | infeasible =>
    rw [status] at means
    exact fun x held inside => means _ (covered x held inside).1
  | unbounded =>
    rw [status] at means
    obtain ⟨endless, descends⟩ := means
    refine ⟨alike.descends_iff.mp (Program.descends_of_withRanges same
      (narrows_of_alike alike narrows) descends), fun root => ?_⟩
    rw [own root] at endless
    intro x held limit
    -- The point's image can be improved without limit, and every improvement leads back.
    obtain ⟨image, -⟩ := moved.image x (alike.reference ▸ held)
    obtain ⟨w, heldW, below⟩ := endless _ image limit
    obtain ⟨y, heldY, value⟩ := moved.back heldW
    rw [alike.reference] at heldY value
    exact ⟨y, heldY, value ▸ below⟩
  | iterationLimit => trivial
  | error =>
    rw [status] at means
    exact means

theorem solveNode_settles (form : start.InWorkingForm) (consistent : Consistent start state)
    (length : node.ranges.length = start.working.columns.length)
    (whole : WholeRanges start.working.columns node.ranges)
    (narrows : Narrows start.working.columns node.ranges) :
    Leads (solveNode node) state fun value next => Unmoved state next ∧
      value.2.ranges = node.ranges ∧ value.2.Settles start value.1 := by
  have alike := consistent.alike
  have moved := alike.inWorkingForm form
  have same : node.ranges.length = state.problem.working.columns.length :=
    length.trans alike.length.symm
  refine (solveNode_unmoved (relax_gives (moved.shaped.withRanges same)
    (Program.wholeBounds_withRanges same (wholeRanges_of_alike alike whole))
    (moved.floor.withRanges same (narrows_of_alike alike narrows)) moved.equational)).mono
    (fun value next ends => ?_) fun _ _ => id
  obtain ⟨quiet, relaxed, rfl, right⟩ := ends
  exact ⟨quiet, right.ranges, settles_of_relaxed form alike length whole narrows right⟩

end

/-! ### Branching -/

/-- No column is chosen for branching on a node. -/
def Unselected (problem : Problem Rat) (node : Node Rat) : Prop :=
  selectColumn problem.settings.rule node.fractional node.mostFractional
    problem.working.columns = .ok none

instance (problem : Problem Rat) (node : Node Rat) : Decidable (Unselected problem node) :=
  inferInstanceAs (Decidable (_ = _))

/-- A node that is taken out of the pool without being split: no column is chosen for it, or
its children are too deep. -/
def GivesUp (problem : Problem Rat) (node : Node Rat) : Prop :=
  Unselected problem node ∨ problem.settings.depthLimit.any (· < node.depth + 1) = true

instance (problem : Problem Rat) (node : Node Rat) : Decidable (GivesUp problem node) :=
  inferInstanceAs (Decidable (_ ∨ _))

section

variable {start : Problem Rat} {state : State Rat} {node : Node Rat}

theorem skipDeep_unmoved (limit : Nat) :
    Leads (skipDeep limit) state fun _ next => Unmoved state next ∧ next.depthLimited = true := by
  have marked : ∀ reached, Unmoved state reached →
      Unmoved state { reached with depthLimited := true } ∧ true = true := fun reached quiet =>
    ⟨quiet.trans ⟨.refl _, rfl, rfl, fun _ => rfl⟩, rfl⟩
  simp only [Leads, skipDeep, ends_bind, ends_get]
  split
  · simp only [ends_bind]
    refine (say_unmoved _ _).mono (fun _ reached quiet => ?_) fun _ _ => id
    exact marked reached quiet
  · exact marked state (.refl state)

/-- What creating, solving and filing a child does: every better point of the child is open
afterwards, unless the child was too deep, and then that is noted. -/
structure Files (start : Problem Rat) (state : State Rat) (node child : Node Rat)
    (result : Except SolveStatus Bool) (next : State Rat) : Prop where
  advances : Advances start state next
  limits : ∀ limit, result = .error limit → limit = .iterationLimit
  opens : (∃ improved, result = .ok improved) →
    start.settings.depthLimit.any (· < node.depth + 1) = false →
    ∀ x, start.reference.Feasible x → Better next.incumbent (start.reference.objectiveValue x) →
      Within child.ranges (start.image x) → Open start next.pool x
  skips : start.settings.depthLimit.any (· < node.depth + 1) = true → next.depthLimited = true

theorem branchOn_files (form : Rooted start) (consistent : Consistent start state)
    (fits : node.Fits start) (column : Nat) (value : Rat) (part : Binary64)
    (direction : Direction) : Leads (branchOn node column value part direction) state
      (Files start state node (childOn node start.partner column value direction)) := by
  have alike := consistent.alike
  simp only [Leads, branchOn, ends_bind, ends_get]
  split
  · rename_i limit deep
    simp only [ends_bind]
    refine (skipDeep_unmoved limit).mono (fun _ next ends => ?_) fun _ _ => id
    refine ⟨.of_unmoved consistent ends.1, by simp, fun _ shallow => ?_, fun _ => ends.2⟩
    rw [alike.settings, Option.filter_eq_some_iff] at deep
    simp [deep.1] at shallow
    have below := of_decide_eq_true deep.2
    omega
  · rename_i shallow
    have notDeep : start.settings.depthLimit.any (· < node.depth + 1) ≠ true := by
      rw [alike.settings] at shallow
      intro deep
      obtain ⟨limit, known, below⟩ := (Option.any_eq_true _ _).mp deep
      simp [known] at shallow
      have deeper := of_decide_eq_true below
      omega
    simp only [ends_bind]
    refine (count_unmoved _).mono (fun _ counted quiet => ?_) fun _ _ => id
    have reached := Advances.of_unmoved consistent quiet
    rw [alike.partner]
    refine (solveNode_settles form.toInWorkingForm reached.consistent
      ((length_childOn direction).trans fits.length) (wholeRanges_childOn fits.whole direction)
      (narrows_childOn fits.narrows direction)).mono (fun solved relaxed ends => ?_) fun _ _ => id
    obtain ⟨status, child⟩ := solved
    obtain ⟨still, ranges, settles⟩ := ends
    dsimp only at ranges settles
    dsimp only
    refine (count_unmoved _).mono (fun _ tallied noted => ?_) fun _ _ => id
    have moved := (reached.then_unmoved still).then_unmoved noted
    cases status with
    | infeasible =>
      simp only [ends_bind]
      refine (count_unmoved _).mono (fun _ next pruned => ?_) fun _ _ => id
      refine ⟨moved.then_unmoved pruned, by simp, fun _ _ x held _ inside => ?_, (absurd · notDeep)⟩
      exact absurd (ranges ▸ inside) (settles x held)
    | iterationLimit =>
      exact ⟨moved, fun _ stopped => (Except.error.inj stopped).symm, by simp, (absurd · notDeep)⟩
    | unbounded => exact form.level settles.1
    | error => exact settles
    | optimal =>
      obtain ⟨childFits, worth, least, -⟩ := settles
      simp only [ends_bind]
      refine (observe_unmoved _ _ _ _).mono (fun _ observed seen => ?_) fun _ _ => id
      refine (count_unmoved _).mono (fun _ deepened counted => ?_) fun _ _ => id
      have ready := (moved.then_unmoved seen).then_unmoved counted
      refine (file_advances form.toInWorkingForm ready.consistent childFits worth).mono
        (fun _ next filed => ?_) fun _ _ => id
      refine ⟨ready.trans filed.1, by simp, fun _ _ x held better inside => ?_, (absurd · notDeep)⟩
      rw [← ranges] at inside
      exact filed.2 x better inside (least x held inside)

/-- Nodes that cannot beat the best point hold no better point. -/
theorem prunePool_advances (consistent : Consistent start state) :
    Leads prunePool state fun _ next => Advances start state next := by
  simp only [Leads, prunePool, ends_bind, ends_get]
  split
  · exact .refl consistent
  · rename_i best known
    simp only [ends_bind, ends_set]
    have pruned : Advances start state { state with pool := state.pool.prune best.objective } := by
      refine ⟨⟨consistent.alike, consistent.incumbent, fun node member => ?_⟩, fun _ => id,
        fun x better before => ?_, id⟩
      · exact consistent.nodes node (List.mem_filter.mp member).1
      · obtain ⟨node, member, inside, below⟩ := before
        have kept := below.trans_lt (better best known)
        exact ⟨node, List.mem_filter.mpr ⟨member, decide_eq_true kept⟩, inside, below⟩
    refine (count_unmoved _).mono (fun _ next quiet => ?_) fun _ _ => id
    exact pruned.then_unmoved quiet

/-- What splitting a node does: every better point of the node is open in the pool, unless the
node was given up; and a node that was given up for its depth is noted. -/
structure Branches (start : Problem Rat) (state : State Rat) (node : Node Rat)
    (result : Option SolveStatus) (next : State Rat) : Prop where
  advances : Advances start state next
  limits : ∀ limit, result = some limit → limit = .iterationLimit
  opens : result = none → ¬ GivesUp state.problem node →
    ∀ x, start.reference.Feasible x → Better next.incumbent (start.reference.objectiveValue x) →
      Within node.ranges (start.image x) → Open start next.pool x
  skips : result = none → GivesUp state.problem node →
    Unselected state.problem node ∨ next.depthLimited = true

theorem branch_branches (form : Rooted start) (consistent : Consistent start state)
    (fits : node.Fits start) : Leads (branch node) state (Branches start state node) := by
  have alike := consistent.alike
  have listed : ∀ index ∈ node.fractional.map Prod.fst,
      index < state.problem.working.columns.length := by
    intro index member
    obtain ⟨column, known, -⟩ := fits.candidates.listed index member
    rw [alike.length]
    exact (List.getElem?_eq_some_iff.mp known).1
  obtain ⟨candidate, choice⟩ := exists_selectColumn_ok listed state.problem.settings.rule
    node.mostFractional
  simp only [Leads, branch, ends_bind, ends_get]
  refine (guard_unmoved choice).mono (fun selected chosen ends => ?_) fun _ _ => id
  obtain ⟨quiet, rfl⟩ := ends
  have moved := Advances.of_unmoved consistent quiet
  cases selected with
  | none =>
    exact ⟨moved, by simp, fun _ kept => absurd (.inl choice) kept, fun _ _ => .inl choice⟩
  | some column =>
    obtain ⟨data, known, flagged⟩ := fits.candidates.selected choice
    have inside : column < node.solution.length := by
      rw [fits.satisfied.length]
      exact (List.getElem?_eq_some_iff.mp known).1
    have there : inRange node.solution[column]? = .ok node.solution[column] := by
      rw [List.getElem?_eq_getElem inside]
      rfl
    simp only [ends_bind]
    refine (guard_unmoved there).mono (fun value read ends => ?_) fun _ _ => id
    have ready := moved.then_unmoved ends.1
    refine (branchOn_files form ready.consistent fits column value _ .down).mono
      (fun first left down => ?_) fun _ _ => id
    cases first with
    | error limit =>
      refine ⟨ready.trans down.advances, fun other stopped => ?_, by simp, by simp⟩
      exact Option.some.inj stopped ▸ down.limits limit rfl
    | ok improvedDown =>
      simp only [ends_bind]
      refine (branchOn_files form down.advances.consistent fits column value _ .up).mono
        (fun second right up => ?_) fun _ _ => id
      have both := ready.trans (down.advances.trans up.advances)
      cases second with
      | error limit =>
        refine ⟨both, fun other stopped => ?_, by simp, by simp⟩
        exact Option.some.inj stopped ▸ up.limits limit rfl
      | ok improvedUp =>
        -- An integral image lies in one of the children; a point opened by the first stays
        -- open through the second.
        have opened : ¬ GivesUp state.problem node → ∀ x, start.reference.Feasible x →
            Better right.incumbent (start.reference.objectiveValue x) →
            Within node.ranges (start.image x) → Open start right.pool x := by
          intro kept x held better inside
          have shallow : start.settings.depthLimit.any (· < node.depth + 1) = false := by
            rw [← alike.settings, ← Bool.not_eq_true]
            exact fun deep => kept (.inr deep)
          have whole := (form.image x held).1.integral column data known flagged
          rcases within_childOn inside whole (fun other => form.apart x column other) with low | high
          · exact up.advances.keeps x better
              (down.opens ⟨_, rfl⟩ shallow x held (up.advances.improves _ better) low)
          · exact up.opens ⟨_, rfl⟩ shallow x held better high
        have skipped : GivesUp state.problem node → right.depthLimited = true := by
          rintro (none | deep)
          · cases choice.symm.trans none
          · exact up.skips (alike.settings ▸ deep)
        dsimp only
        split
        · simp only [ends_bind]
          refine (prunePool_advances both.consistent).mono (fun _ next pruned => ?_) fun _ _ => id
          refine ⟨both.trans pruned, by simp, fun _ kept x held better inside => ?_,
            fun _ given => .inr (pruned.skipped (skipped given))⟩
          exact pruned.keeps x better (opened kept x held (pruned.improves _ better) inside)
        · exact ⟨both, by simp, fun _ => opened, fun _ given => .inr (skipped given)⟩

/-! ### One step -/

/-- The node that the next step takes out of the pool. -/
def State.chosen (state : State Rat) : Option (Node Rat) :=
  (state.pool.select state.problem.settings.selection state.incumbent.approx state.root).bind
    (state.pool[·]?)

/-- What may stop a search: a limit, or a closed gap once a point is known. -/
def MayStop (state : State Rat) (status : SolveStatus) : Prop :=
  status.isLimit = true ∨ (status = .optimal ∧ state.incumbent.best.isSome = true)

/-- What one step of the search does. A better point that was open stays so, unless the step
went on and gave its node up. -/
structure Steps (start : Problem Rat) (state : State Rat) (progress : Progress)
    (next : State Rat) : Prop where
  consistent : Consistent start next
  improves : ∀ value, Better next.incumbent value → Better state.incumbent value
  covers : ∀ x, start.reference.Feasible x →
    Better next.incumbent (start.reference.objectiveValue x) → Open start state.pool x →
    Open start next.pool x ∨ (progress = .more ∧ ∃ node, state.chosen = some node ∧
      GivesUp state.problem node ∧ Within node.ranges (start.image x))
  skipped : state.depthLimited = true → next.depthLimited = true
  skips : progress = .more → ∀ node, state.chosen = some node → GivesUp state.problem node →
    Unselected state.problem node ∨ next.depthLimited = true
  done : progress = .done → next.pool = []
  stops : ∀ status, progress = .stopped status → MayStop next status

theorem Steps.of_advances {next : State Rat} {status : SolveStatus}
    (advances : Advances start state next) (stops : MayStop next status) :
    Steps start state (.stopped status) next := by
  refine ⟨advances.consistent, advances.improves,
    fun x _ better before => .inl (advances.keeps x better before), advances.skipped, by simp,
    by simp, fun other stopped => ?_⟩
  obtain rfl := Progress.stopped.inj stopped
  exact stops

theorem exists_argmin (score : Node Rat → Binary64) {pool : Pool Rat} (nonempty : pool ≠ []) :
    ∃ position < pool.length, pool.argmin score = some position := by
  -- The best entry so far is one of those looked at.
  have scan : ∀ (entries : List (Node Rat × Nat)) (best : Option (Nat × Binary64)),
      (∀ entry ∈ entries, entry.2 < pool.length) →
      (∃ found, best = some found ∧ found.1 < pool.length) →
      ∃ found, (entries.foldl (fun (best : Option (Nat × Binary64)) (node, index) =>
        let value := score node
        if best.all fun old => value < old.2 then some (index, value) else best) best) =
          some found ∧ found.1 < pool.length := by
    intro entries
    induction entries with
    | nil => exact fun _ _ => id
    | cons entry entries ih =>
      intro best inside known
      rw [List.foldl_cons]
      refine ih _ (fun other member => inside other (List.mem_cons_of_mem entry member)) ?_
      dsimp only
      split
      · exact ⟨_, rfl, inside entry List.mem_cons_self⟩
      · exact known
  have inside : ∀ entry ∈ pool.zipIdx, entry.2 < pool.length := by
    rintro ⟨node, index⟩ member
    exact (List.getElem?_eq_some_iff.mp (List.mem_zipIdx_iff_getElem?.mp member)).1
  obtain ⟨first, rest, listed⟩ : ∃ first rest, pool.zipIdx = first :: rest :=
    List.exists_cons_of_ne_nil (by simpa using nonempty)
  rw [listed] at inside
  obtain ⟨found, scanned, below⟩ := scan rest (some (first.2, score first.1))
    (fun other member => inside other (List.mem_cons_of_mem first member))
    ⟨_, rfl, inside first List.mem_cons_self⟩
  refine ⟨found.1, below, ?_⟩
  rw [Pool.argmin, listed, List.foldl_cons]
  exact congrArg (Option.map Prod.fst) scanned

/-- Every rule selects a node of the pool, as long as there is one. -/
theorem exists_select {pool : Pool Rat} (nonempty : pool ≠ []) (selection : NodeSelection)
    (incumbent : Option Binary64) (root : Binary64 × Binary64) :
    ∃ position < pool.length, pool.select selection incumbent root = some position := by
  have positive : 0 < pool.length := List.length_pos_iff.mpr nonempty
  unfold Pool.select
  rw [if_neg (by simpa using nonempty)]
  split
  · exact ⟨0, positive, rfl⟩
  · exact ⟨pool.length - 1, Nat.sub_lt positive one_pos, rfl⟩
  · exact ⟨pool.length - 1, Nat.sub_lt positive one_pos, rfl⟩
  · exact exists_argmin _ nonempty
  · exact exists_argmin _ nonempty
  · exact exists_argmin _ nonempty

section Selected

variable {pool : Pool Rat} {selection : NodeSelection} {incumbent : Option Binary64}
  {root : Binary64 × Binary64}

theorem eq_nil_of_select (nothing : pool.select selection incumbent root = none) : pool = [] := by
  by_contra nonempty
  obtain ⟨position, -, selected⟩ := exists_select nonempty selection incumbent root
  rw [nothing] at selected
  cases selected

theorem lt_of_select {position : Nat}
    (selected : pool.select selection incumbent root = some position) : position < pool.length := by
  have nonempty : pool ≠ [] := by
    rintro rfl
    simp [Pool.select] at selected
  obtain ⟨other, below, again⟩ := exists_select nonempty selection incumbent root
  obtain rfl := Option.some.inj (selected.symm.trans again)
  exact below

end Selected

/-- A point of the pool is in the node taken out or in one of the others. -/
theorem open_eraseIdx {pool : Pool Rat} {position : Nat} (taken : pool[position]? = some node)
    {x : List Rat} (before : Open start pool x) :
    (Within node.ranges (start.image x) ∧ node.optimum ≤ start.reference.objectiveValue x) ∨
      Open start (pool.eraseIdx position) x := by
  obtain ⟨other, member, inside, below⟩ := before
  obtain ⟨index, found⟩ := List.mem_iff_getElem?.mp member
  by_cases here : index = position
  · subst here
    obtain rfl := Option.some.inj (found.symm.trans taken)
    exact .inl ⟨inside, below⟩
  · exact .inr ⟨other, List.mem_eraseIdx_iff_getElem?.mpr ⟨index, here, found⟩, inside, below⟩

theorem expandNode_steps (form : Rooted start) (consistent : Consistent start state)
    (elapsed : Nat) : Ends (expandNode elapsed) state (Steps start state)
      fun cause _ => ReportFails start.settings cause := by
  simp only [expandNode, ends_bind, ends_get]
  split
  · rename_i nothing
    exact {
      consistent := consistent
      improves := fun _ => id
      covers := fun _ _ _ => .inl
      skipped := id
      skips := by simp
      done := fun _ => eq_nil_of_select nothing
      stops := by simp }
  · rename_i position selected
    split
    · rename_i missing
      rw [Pool.take?, List.getElem?_eq_getElem (lt_of_select selected)] at missing
      cases missing
    · rename_i node rest taken
      obtain ⟨same, found, pair⟩ := Option.map_eq_some_iff.mp taken
      obtain ⟨rfl, rfl⟩ := Prod.mk.inj pair
      have chosen : state.chosen = some same := by
        rw [State.chosen, selected]
        exact found
      have fits := consistent.nodes same (List.mem_of_getElem? found)
      have smaller : Consistent start { state with pool := state.pool.eraseIdx position } :=
        ⟨consistent.alike, consistent.incumbent, fun node member =>
          consistent.nodes node (List.mem_of_mem_eraseIdx member)⟩
      simp only [ends_bind, ends_set]
      refine (branch_branches form smaller fits).mono (fun result reached branches => ?_)
        fun _ _ => False.elim
      have advances := branches.advances
      cases result with
      | some limit =>
        simp only [ends_bind, ends_modify]
        have back := advances.trans (advances_push advances.consistent fits)
        exact {
          consistent := back.consistent
          improves := back.improves
          covers := by
            intro x held better before
            left
            rcases open_eraseIdx found before with ⟨inside, below⟩ | elsewhere
            · exact ⟨same, List.mem_append_right _ List.mem_cons_self, inside, below⟩
            · exact back.keeps x better elsewhere
          skipped := back.skipped
          skips := by simp
          done := by simp
          stops := by
            intro status stopped
            rw [← Progress.stopped.inj stopped, branches.limits limit rfl]
            exact .inl rfl }
      | none =>
        simp only [ends_bind]
        refine (reportProgress_unmoved elapsed).mono (fun _ next quiet => ?_) fun _ _ asked => ?_
        rotate_left
        · rwa [advances.consistent.alike.settings] at asked
        have last := advances.then_unmoved quiet
        exact {
          consistent := last.consistent
          improves := last.improves
          covers := by
            intro x held better before
            rcases open_eraseIdx found before with ⟨here, -⟩ | elsewhere
            · by_cases kept : GivesUp state.problem same
              · exact .inr ⟨rfl, same, chosen, kept, here⟩
              · left
                rw [quiet.pool]
                refine branches.opens rfl kept x held ?_ here
                rw [← quiet.incumbent]
                exact better
            · exact .inl (last.keeps x better elsewhere)
          skipped := last.skipped
          skips := by
            intro _ node taken given
            obtain rfl := Option.some.inj (chosen.symm.trans taken)
            exact (branches.skips rfl given).imp_right quiet.skipped
          done := by simp
          stops := by simp }

/-- The gap is looked at without changing the search, and only a best point closes it. -/
theorem gapReached_unmoved : Leads gapReached state fun result next => Unmoved state next ∧
    (result = none → next = state) ∧ ∀ status, result = some status → MayStop next status := by
  have same := Unmoved.refl state
  simp only [Leads, gapReached, ends_bind, ends_get]
  split
  · exact ⟨same, fun _ => rfl, by simp⟩
  · rename_i value known
    have found : state.incumbent.best.isSome = true := by
      obtain ⟨best, there, -⟩ := Option.map_eq_some_iff.mp known
      rw [there]
      rfl
    split
    · exact ⟨same, fun _ => rfl, by simp⟩
    · split
      · refine ⟨same, by simp, fun status stopped => .inr ⟨?_, found⟩⟩
        exact (Option.some.inj stopped).symm
      · have limited : ∀ status, some SolveStatus.gapLimit = some status → status.isLimit = true := by
          rintro status ⟨⟩
          rfl
        split
        · simp only [ends_bind]
          refine (say_unmoved _ _).mono (fun _ next quiet => ?_) fun _ _ => id
          exact ⟨quiet, by simp, fun status stopped => .inl (limited status stopped)⟩
        · exact ⟨same, by simp, fun status stopped => .inl (limited status stopped)⟩

theorem limitReached_isLimit {elapsed : Nat} {status : SolveStatus}
    (reached : limitReached state elapsed = some status) : status.isLimit = true := by
  unfold limitReached at reached
  dsimp only at reached
  split at reached
  · exact Option.some.inj reached ▸ rfl
  · split at reached
    · exact Option.some.inj reached ▸ rfl
    · split at reached
      · exact Option.some.inj reached ▸ rfl
      · cases reached

/-- One step of the search, whatever its settings. -/
theorem advance_steps (form : Rooted start) (consistent : Consistent start state)
    (elapsed : Nat) : Ends (advance elapsed) state (Steps start state)
      fun cause _ => ReportFails start.settings cause := by
  simp only [advance, ends_bind, ends_get]
  split
  · rename_i empty
    exact ⟨consistent, fun _ => id, fun _ _ _ => .inl, id, by simp,
      fun _ => List.isEmpty_iff.mp empty, by simp⟩
  · split
    · rename_i status limited
      exact .of_advances (.refl consistent) (.inl (limitReached_isLimit limited))
    · simp only [ends_bind, count, ends_modify]
      set counted : State Rat := { state with problem := { state.problem with
        stats := { state.problem.stats with
          maxActiveNodes := max state.problem.stats.maxActiveNodes state.pool.length } } }
      have tallied : Unmoved state counted :=
        ⟨⟨rfl, rfl, rfl, rfl, rfl, rfl, rfl, rfl, rfl, rfl, rfl⟩, rfl, rfl, id⟩
      have ready := Advances.of_unmoved consistent tallied
      refine gapReached_unmoved.mono (fun result reached ends => ?_) fun _ _ => False.elim
      obtain ⟨quiet, going, stops⟩ := ends
      cases result with
      | some status =>
        exact .of_advances (ready.then_unmoved quiet) (stops status rfl)
      | none =>
        obtain rfl := going rfl
        -- Counting changes neither the choice of a node nor that of a column.
        exact (expandNode_steps form ready.consistent elapsed).mono
          (fun progress next steps =>
            ⟨steps.consistent, steps.improves, steps.covers, steps.skipped, steps.skips, steps.done,
              steps.stops⟩) fun _ _ => id

end

end MixedInteger.Search
