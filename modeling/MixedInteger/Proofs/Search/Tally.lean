import MixedInteger.Proofs.Presolve.PassLimit
import MixedInteger.Proofs.Simplex.Charges
import MixedInteger.Solve

/-! Limits on a whole solve. One budget passes through the root, every child, both phases and every
round of cuts, and the counters of a search are kept in several places. What a search counts is
brought together in a tally: most of its parts leave the tally alone, and each child that is created
changes it in one bounded way. Nothing is assumed about the scalars. -/
namespace MixedInteger.Search

open Simplex (Budget Charges)

variable {α : Type}

/-! ### Relaxations -/

/-- What a relaxation does to the budget, and what it keeps of its node. -/
structure RelaxesWithin (options : RelaxationOptions) (node : Node α) (budget : Budget)
    (relaxed : Relaxed α) : Prop where
  charges : Charges budget relaxed.status relaxed.budget
  depth : relaxed.node.depth = node.depth
  cuts : node.cutsAdded ≤ options.maxCuts → relaxed.node.cutsAdded ≤ options.maxCuts

/-- A node given up without a solve. -/
theorem RelaxesWithin.unsolved (options : RelaxationOptions) (node : Node α) (budget : Budget)
    {status : Simplex.Status} (other : status ≠ .iterationLimit) :
    RelaxesWithin options node budget { status, node, budget } :=
  ⟨⟨.refl budget, fun same => absurd same other⟩, rfl, id⟩

variable [Scalar α]

/-- Rounds of cuts share the budget, and add at most one cut each. -/
theorem addCuts_charges {left : Nat} {round last : CutRound α} {status : Simplex.Status}
    (ran : (addCuts left round).outcome = .ok (status, last)) :
    Charges round.budget status last.budget ∧ last.node.depth = round.node.depth ∧
      last.node.cutsAdded ≤ round.node.cutsAdded + left := by
  induction left generalizing round with
  | zero =>
    obtain ⟨rfl, rfl⟩ := Prod.mk.inj (Run.eq_of_pure ran)
    exact ⟨⟨.refl _, nofun⟩, rfl, Nat.le_refl _⟩
  | succ left ih =>
    obtain ⟨⟨generator, found⟩, -, rest⟩ := Run.ok_of_bind ran
    cases found with
    | none =>
      obtain ⟨rfl, rfl⟩ := Prod.mk.inj (Run.eq_of_pure rest)
      exact ⟨⟨.refl _, nofun⟩, rfl, Nat.le_add_right _ _⟩
    | some cut =>
      obtain ⟨⟨_, extended⟩, -, rest⟩ := Run.ok_of_bind rest
      obtain ⟨result, solved, rest⟩ := Run.ok_of_bind rest
      have charges := Simplex.Tableau.optimize_charges solved
      dsimp only at rest
      split at rest
      · obtain ⟨rfl, rfl⟩ := Prod.mk.inj (Run.eq_of_pure rest)
        exact ⟨charges, rfl, by simp⟩
      · obtain ⟨further, depth, cuts⟩ := ih rest
        exact ⟨further.after charges.spends, depth, by simpa [Nat.add_assoc, Nat.add_comm 1] using cuts⟩

theorem relaxReduced_within {options : RelaxationOptions} {working reduced : Program α}
    {removed : UndoLog α} {node : Node α} {budget : Budget} {relaxed : Relaxed α}
    (ran : (relaxReduced options working reduced removed node budget).outcome = .ok relaxed) :
    RelaxesWithin options node budget relaxed := by
  obtain ⟨form, -, rest⟩ := Run.ok_of_bind ran
  obtain ⟨first, solved, rest⟩ := Run.ok_of_bind rest
  have charges := Simplex.Tableau.optimize_charges solved
  dsimp only at rest
  split at rest
  · obtain rfl := Run.eq_of_pure rest
    exact ⟨charges, rfl, id⟩
  · obtain ⟨⟨status, last⟩, cut, rest⟩ := Run.ok_of_bind rest
    obtain ⟨further, depth, cuts⟩ := addCuts_charges cut
    have bounded : node.cutsAdded ≤ options.maxCuts → last.node.cutsAdded ≤ options.maxCuts := by
      intro before
      dsimp only at cuts
      omega
    dsimp only at rest
    split at rest
    · obtain rfl := Run.eq_of_pure rest
      exact ⟨further.after charges.spends, depth, bounded⟩
    · obtain ⟨values, -, rest⟩ := Run.ok_of_bind rest
      obtain rfl := Run.eq_of_pure rest
      exact ⟨⟨charges.spends.trans further.spends, nofun⟩, depth, bounded⟩

theorem relax_within {options : RelaxationOptions} {working : Program α} {node : Node α}
    {budget : Budget} {relaxed : Relaxed α}
    (ran : (relax options working node budget).outcome = .ok relaxed) :
    RelaxesWithin options node budget relaxed := by
  unfold relax at ran
  dsimp only at ran
  split at ran
  · obtain rfl := Run.eq_of_pure ran
    exact .unsolved options node budget nofun
  · split at ran
    · exact relaxReduced_within ran
    · obtain ⟨⟨status, state⟩, -, rest⟩ := Run.ok_of_bind ran
      cases status with
      | infeasible =>
        obtain rfl := Run.eq_of_pure rest
        exact .unsolved options node budget nofun
      | unbounded =>
        obtain rfl := Run.eq_of_pure rest
        exact .unsolved options node budget nofun
      | solved =>
        obtain ⟨values, -, rest⟩ := Run.ok_of_bind rest
        obtain rfl := Run.eq_of_pure rest
        exact ⟨⟨.refl budget, nofun⟩, rfl, id⟩
      | reduced => exact relaxReduced_within rest

/-! ### The tally -/

/-- What a search counts, and what it counts against. -/
structure Tally where
  settings : Settings
  budget : Budget
  nodes : Nat
  depth : Nat
  cuts : Nat
  iterations : Nat
  presolve : Presolve.Counts
  /-- Whether a child was skipped for being too deep. -/
  skipped : Bool

/-- The tally of a state. -/
def State.tally {α : Type} (state : State α) : Tally where
  settings := state.problem.settings
  budget := state.budget
  nodes := state.problem.stats.nodesExplored
  depth := state.problem.stats.maxDepth
  cuts := state.problem.stats.cutsAdded
  iterations := state.problem.stats.simplexIterations
  presolve := state.problem.stats.presolve
  skipped := state.depthLimited

/-- A computation that leaves the tally alone, if it does not fail. -/
def Untallied {α β : Type} (run : SearchM α β) : Prop := ∀ state : State α,
  Ends run state (fun _ next => next.tally = state.tally) fun _ _ => True

section Untallied

variable {α β γ : Type}

theorem Untallied.bind {first : SearchM α β} {next : β → SearchM α γ} (left : Untallied first)
    (right : ∀ value, Untallied (next value)) : Untallied (first >>= next) := by
  intro state
  rw [ends_bind]
  refine (left state).mono (fun value middle same => ?_) fun _ _ => id
  exact (right value middle).mono (fun _ _ still => still.trans same) fun _ _ => id

theorem untallied_pure (value : β) : Untallied (pure value : SearchM α β) := fun _ => rfl

theorem untallied_get : Untallied (get : SearchM α (State α)) := fun _ => rfl

/-- A run of something else gives its value and leaves the problem and the tally alone. -/
theorem perform_tallies (run : Run β) (state : State α) : Ends (perform run) state
    (fun value next => run.outcome = .ok value ∧ next.problem = state.problem ∧
      next.tally = state.tally) fun _ _ => True := by
  simp only [perform, ends_bind, ends_modify]
  split
  · rename_i value known
    exact ⟨known, rfl, rfl⟩
  · trivial

theorem untallied_perform (run : Run β) : Untallied (perform run : SearchM α β) := by
  intro state
  exact (perform_tallies run state).mono (fun _ _ ends => ends.2.2) fun _ _ => id

theorem untallied_say (severity : Severity) (text : String) :
    Untallied (say severity text : SearchM α Unit) := untallied_perform _

theorem untallied_countPruned (number : Nat) : Untallied (countPruned number : SearchM α Unit) :=
  fun _ => rfl

theorem untallied_observe (column : Nat) (direction : Direction) (loss distance : Binary64) :
    Untallied (observe column direction loss distance : SearchM α Unit) := fun _ => rfl

/-- A closed gap is no limit that was set in numbers. -/
theorem gapReached_tallies (state : State α) : Ends gapReached state
    (fun result next => next.tally = state.tally ∧ (result = none → next = state) ∧
      ∀ status, result = some status → status = .optimal ∨ status = .gapLimit) fun _ _ => True := by
  simp only [gapReached, ends_bind, ends_get]
  split
  · exact ⟨rfl, fun _ => rfl, by simp⟩
  · split
    · exact ⟨rfl, fun _ => rfl, by simp⟩
    · split
      · exact ⟨rfl, by simp, fun status same => .inl (Option.some.inj same).symm⟩
      · have named : ∀ status, some SolveStatus.gapLimit = some status →
            status = .optimal ∨ status = .gapLimit := fun status same => .inr (Option.some.inj same).symm
        split
        · simp only [ends_bind]
          exact (untallied_say _ _ state).mono (fun _ _ same => ⟨same, by simp, named⟩) fun _ _ => id
        · exact ⟨rfl, by simp, named⟩

theorem skipDeep_tallies (limit : Nat) (state : State α) : Ends (skipDeep limit) state
    (fun _ next => next.tally = { state.tally with skipped := true }) fun _ _ => True := by
  simp only [skipDeep, ends_bind, ends_get]
  have marked : ∀ reached : State α, reached.tally = state.tally →
      State.tally { reached with depthLimited := true } = { state.tally with skipped := true } := by
    intro reached same
    rw [← same]
    rfl
  split
  · simp only [ends_bind]
    exact (untallied_say _ _ state).mono (fun _ reached same => marked reached same) fun _ _ => id
  · exact marked state rfl

theorem untallied_reportProgress (elapsed : Nat) :
    Untallied (reportProgress elapsed : SearchM α Unit) := by
  intro state
  simp only [reportProgress, ends_bind, ends_get]
  split
  · exact rfl
  · simp only [ends_bind]
    refine (untallied_perform _ state).mono (fun due reached same => ?_) fun _ _ => id
    split
    · exact same
    · simp only [ends_bind, ends_set]
      exact (untallied_say _ _ _).mono (fun _ _ still => still) fun _ _ => id

theorem countCuts_tallies (child : Node α) (state : State α) : Ends (countCuts child) state
    (fun _ next => next.tally = { state.tally with cuts := state.tally.cuts + child.cutsAdded })
    fun _ _ => True := rfl

variable [Scalar α]

theorem untallied_offer (values : List α) (objective : α) : Untallied (offer values objective) := by
  intro state
  simp only [offer, ends_bind, ends_get]
  split
  · exact rfl
  · simp only [ends_bind, ends_set]
    split
    · simp only [ends_bind]
      exact (untallied_say _ _ _).mono (fun _ _ same => same) fun _ _ => id
    · exact rfl

theorem untallied_accept (node : Node α) : Untallied (accept node) := by
  refine untallied_get.bind fun state => (untallied_perform _).bind fun values => ?_
  split
  · exact fun _ => trivial
  · exact untallied_offer _ _

theorem untallied_tryHeuristic (node : Node α) : Untallied (tryHeuristic node) := by
  refine untallied_get.bind fun state => ?_
  dsimp only
  split
  · exact untallied_pure false
  · refine (untallied_perform _).bind fun values => (untallied_perform _).bind fun found => ?_
    cases found with
    | none => exact untallied_pure false
    | some repaired =>
      refine (untallied_offer _ _).bind fun improved => ?_
      split
      · exact Untallied.bind (fun _ => rfl) fun _ => untallied_pure improved
      · exact untallied_pure improved

theorem untallied_file (child : Node α) : Untallied (file child) := by
  refine untallied_get.bind fun state => ?_
  split
  · exact (untallied_countPruned 1).bind fun _ => untallied_pure false
  · split
    · exact untallied_accept child
    · refine (untallied_tryHeuristic child).bind fun improved => untallied_get.bind fun tried => ?_
      split
      · exact (untallied_countPruned 1).bind fun _ => untallied_pure improved
      · exact Untallied.bind (fun _ => rfl) fun _ => untallied_pure improved

theorem untallied_prunePool : Untallied (prunePool : SearchM α Unit) := by
  intro state
  simp only [prunePool, ends_bind, ends_get]
  split
  · exact rfl
  · simp only [ends_bind, ends_set]
    exact (untallied_countPruned _ _).mono (fun _ _ same => same) fun _ _ => id

end Untallied

/-! ### Stopping -/

section Stopping

variable {α : Type} {state : State α}

/-- Why a search may stop, by what it counts. -/
def Tally.Explains (tally : Tally) : SolveStatus → Prop
  | .nodeLimit => ∃ limit, tally.settings.nodeLimit = some limit ∧ limit ≤ tally.nodes
  | .iterationLimit => tally.budget.exhausted = true
  | .depthLimit => tally.skipped = true
  | _ => True

theorem limitReached_explains {elapsed : Nat} {status : SolveStatus}
    (reached : limitReached state elapsed = some status) : state.tally.Explains status := by
  unfold limitReached at reached
  dsimp only at reached
  split at reached
  · rename_i exceeded
    obtain rfl := Option.some.inj reached
    obtain ⟨limit, known, within⟩ := (Option.any_eq_true _ _).mp exceeded
    exact ⟨limit, known, of_decide_eq_true within⟩
  · split at reached
    · rename_i exhausted
      obtain rfl := Option.some.inj reached
      exact exhausted
    · split at reached
      · obtain rfl := Option.some.inj reached
        trivial
      · cases reached

theorem nodes_lt_of_unlimited {elapsed : Nat} (free : limitReached state elapsed = none) {limit : Nat}
    (known : state.problem.settings.nodeLimit = some limit) :
    state.problem.stats.nodesExplored < limit := by
  unfold limitReached at free
  dsimp only at free
  split at free
  · cases free
  · rename_i within
    rw [known, Option.any_some, decide_eq_true_eq, Nat.not_le] at within
    exact within

end Stopping

/-! ### Children -/

/-- How the tally may change while some nodes are explored. -/
structure Tally.Grows (before after : Tally) (explored : Nat) : Prop where
  settings : after.settings = before.settings
  budget : before.budget.Spends after.budget
  nodes : after.nodes = before.nodes + explored
  cuts : after.cuts ≤ before.cuts + explored * before.settings.maxCuts
  depth : ∀ limit, before.settings.depthLimit = some limit → before.depth ≤ limit → after.depth ≤ limit
  iterations : after.iterations = before.iterations
  presolve : after.presolve = before.presolve
  skipped : after.skipped = before.skipped

theorem Tally.Grows.refl (tally : Tally) : tally.Grows tally 0 :=
  ⟨rfl, .refl _, rfl, by simp, fun _ _ => id, rfl, rfl, rfl⟩

theorem Tally.Grows.trans {before middle after : Tally} {few more : Nat}
    (first : before.Grows middle few) (second : middle.Grows after more) :
    before.Grows after (few + more) := by
  refine ⟨second.settings.trans first.settings, first.budget.trans second.budget, ?_, ?_, ?_,
    second.iterations.trans first.iterations, second.presolve.trans first.presolve,
    second.skipped.trans first.skipped⟩
  · rw [second.nodes, first.nodes, Nat.add_assoc]
  · have one := first.cuts
    have two := second.cuts
    rw [first.settings] at two
    rw [Nat.add_mul]
    omega
  · intro limit known within
    have settings := first.settings
    exact second.depth limit (settings ▸ known) (first.depth limit known within)

/-- A child is one more node, with its own cuts and charges, at a depth within the limit. -/
theorem Tally.Grows.child {before after : Tally} {budget : Budget} {cuts : Nat}
    (spends : before.budget.Spends budget) (few : cuts ≤ before.settings.maxCuts)
    (within : ∀ limit, before.settings.depthLimit = some limit → before.depth ≤ limit →
      after.depth ≤ limit)
    (same : after = { before with
      nodes := before.nodes + 1, budget, cuts := before.cuts + cuts, depth := after.depth }) :
    before.Grows after 1 := by
  rw [same]
  refine ⟨rfl, spends, rfl, ?_, within, rfl, rfl, rfl⟩
  rw [Nat.one_mul]
  exact Nat.add_le_add_left few _

section Children

variable {α : Type} [Scalar α] {state : State α} {node : Node α}

/-- Solving a node touches the budget only. -/
theorem solveNode_tallies (node : Node α) : Ends (solveNode node) state
    (fun solved next => Charges state.budget solved.1 next.budget ∧
      next.tally = { state.tally with budget := next.budget } ∧ solved.2.depth = node.depth ∧
      (node.cutsAdded ≤ state.problem.settings.maxCuts →
        solved.2.cutsAdded ≤ state.problem.settings.maxCuts)) fun _ _ => True := by
  simp only [solveNode, ends_bind, ends_get]
  cases ran : (relax (.ofSettings state.problem.settings) state.problem.working node
      state.budget).outcome with
  | error cause =>
    simp only [perform, ends_bind, ends_modify, ran]
    trivial
  | ok relaxed =>
    simp only [perform, ends_bind, ends_modify, ran]
    have relaxes := relax_within ran
    exact ⟨relaxes.charges, rfl, relaxes.depth, relaxes.cuts⟩

theorem childOn_depth (partner : List (Option Nat)) (column : Nat) (value : α) (direction : Direction) :
    (childOn node partner column value direction).depth = node.depth + 1 := by
  cases direction with
  | down => rfl
  | up =>
    unfold childOn
    dsimp only
    split <;> rfl

theorem childOn_cutsAdded (partner : List (Option Nat)) (column : Nat) (value : α)
    (direction : Direction) : (childOn node partner column value direction).cutsAdded = 0 := by
  cases direction with
  | down => rfl
  | up =>
    unfold childOn
    dsimp only
    split <;> rfl

/-- Whether the children of a node lie below the depth limit. -/
def TooDeep (settings : Settings) (node : Node α) : Prop :=
  settings.depthLimit.any (· < node.depth + 1) = true

/-- A child that is too deep is skipped. -/
theorem branchOn_tooDeep (deep : TooDeep state.problem.settings node) (column : Nat) (value : α)
    (part : Binary64) (direction : Direction) : Ends (branchOn node column value part direction) state
      (fun result next => result = .ok false ∧ next.tally = { state.tally with skipped := true })
      fun _ _ => True := by
  simp only [branchOn, ends_bind, ends_get]
  split
  · simp only [ends_bind]
    exact (skipDeep_tallies _ _).mono (fun _ _ same => ⟨rfl, same⟩) fun _ _ => id
  · rename_i within
    rw [TooDeep, Option.any_eq_true] at deep
    obtain ⟨limit, known, exceeded⟩ := deep
    rw [known, Option.filter_some, if_pos exceeded] at within
    cases within

/-- A child that is created is one more node, and only the budget can stop it. -/
theorem branchOn_grows (shallow : ¬ TooDeep state.problem.settings node) (column : Nat) (value : α)
    (part : Binary64) (direction : Direction) : Ends (branchOn node column value part direction) state
      (fun result next => state.tally.Grows next.tally 1 ∧ ∀ status, result = .error status →
        status = .iterationLimit ∧ next.budget.exhausted = true) fun _ _ => True := by
  simp only [branchOn, ends_bind, ends_get]
  split
  · rename_i limit exceeded
    obtain ⟨known, exceeded⟩ := Option.filter_eq_some_iff.mp exceeded
    exact absurd ((Option.any_eq_true _ _).mpr ⟨limit, known, exceeded⟩) shallow
  · rename_i within
    simp only [ends_bind, count, ends_modify]
    refine (solveNode_tallies _).mono (fun solved next ends => ?_) fun _ _ => id
    obtain ⟨status, child⟩ := solved
    obtain ⟨charges, same, depth, cuts⟩ := ends
    rw [childOn_depth] at depth
    rw [childOn_cutsAdded] at cuts
    have few : child.cutsAdded ≤ state.tally.settings.maxCuts := cuts (Nat.zero_le _)
    dsimp only
    refine (countCuts_tallies child next).mono (fun _ counted cut => ?_) fun _ _ => id
    rw [same] at cut
    have solved : state.tally.Grows counted.tally 1 := by
      refine .child charges.spends few (fun limit known before => ?_) ?_
      · rw [cut]
        exact before
      · rw [cut]
        rfl
    cases status with
    | infeasible =>
      simp only [ends_bind]
      refine (untallied_countPruned 1 counted).mono (fun _ last still => ?_) fun _ _ => id
      rw [ends_pure, still]
      exact ⟨solved, by simp⟩
    | iterationLimit =>
      have exhausted : counted.budget = next.budget := congrArg Tally.budget cut
      refine ⟨solved, fun status stopped => ⟨(Except.error.inj stopped).symm, ?_⟩⟩
      rw [exhausted]
      exact charges.limit rfl
    | unbounded => trivial
    | error => trivial
    | optimal =>
      simp only [ends_bind]
      refine (untallied_observe _ _ _ _ counted).mono (fun _ observed seen => ?_) fun _ _ => id
      simp only [ends_modify]
      refine (untallied_file child _).mono (fun _ last still => ?_) fun _ _ => id
      have tally : last.tally =
          { counted.tally with depth := max counted.tally.depth child.depth } := by
        rw [still, ← seen]
        rfl
      refine ⟨.child charges.spends few (fun limit known before => ?_) ?_, by simp⟩
      · -- A child is only created at a depth within the limit.
        have reached : child.depth ≤ limit := by
          rw [depth]
          refine Nat.not_lt.mp fun beyond => shallow ?_
          exact (Option.any_eq_true _ _).mpr ⟨limit, known, decide_eq_true beyond⟩
        rw [tally, cut]
        exact Nat.max_le.mpr ⟨before, reached⟩
      · rw [tally, cut]
        rfl

/-- How a node is split: the column chosen and its value. -/
def SplitsAt (problem : Problem α) (node : Node α) (column : Nat) (value : α) : Prop :=
  selectColumn problem.settings.rule node.fractional node.mostFractional
    problem.working.columns = .ok (some column) ∧ node.solution[column]? = some value

/-- What a step does to the tally. Either it explores at most two nodes and is only stopped by a
budget that is used up, or it skips both children of a node that is at the depth limit. -/
inductive Expands (problem : Problem α) (node : Node α) (before : Tally) :
    Option SolveStatus → Tally → Prop
  | grows {status : Option SolveStatus} {after : Tally} (explored : Nat) (few : explored ≤ 2)
      (tally : before.Grows after explored) (stopped : ∀ limit, status = some limit →
        limit = .iterationLimit ∧ after.budget.exhausted = true) : Expands problem node before status after
  | skips {after : Tally} (column : Nat) (value : α) (split : SplitsAt problem node column value)
      (deep : TooDeep problem.settings node) (tally : after = { before with skipped := true }) :
      Expands problem node before none after

/-- Both children of a node lie at one depth, so that either both are skipped or both are created, as
far as the budget lasts. -/
theorem bothChildren_expand {column : Nat} {value : α} (split : SplitsAt state.problem node column value)
    (part : Binary64) :
    Ends (do
      match ← branchOn node column value part .down with
      | .error limit => return some limit
      | .ok improvedDown =>
        match ← branchOn node column value part .up with
        | .error limit => return some limit
        | .ok improvedUp =>
          if improvedDown || improvedUp then prunePool
          return none) state
      (fun result next => Expands state.problem node state.tally result next.tally)
      fun _ _ => True := by
  rw [ends_bind]
  by_cases deep : TooDeep state.problem.settings node
  · refine (branchOn_tooDeep deep column value part .down).mono (fun _ left down => ?_) fun _ _ => id
    obtain ⟨rfl, down⟩ := down
    have settings : left.problem.settings = state.problem.settings := congrArg Tally.settings down
    have deepLeft : TooDeep left.problem.settings node := by rwa [settings]
    simp only [ends_bind]
    refine (branchOn_tooDeep deepLeft column value part .up).mono (fun _ right up => ?_) fun _ _ => id
    obtain ⟨rfl, up⟩ := up
    refine .skips column value split deep ?_
    rw [up, down]
  · refine (branchOn_grows deep column value part .down).mono (fun first left down => ?_) fun _ _ => id
    obtain ⟨down, stopped⟩ := down
    cases first with
    | error limit =>
      refine .grows 1 (by decide) down fun status same => ?_
      exact stopped status (congrArg Except.error (Option.some.inj same))
    | ok improvedDown =>
      have settings : left.problem.settings = state.problem.settings := down.settings
      have shallowLeft : ¬ TooDeep left.problem.settings node := by rwa [settings]
      simp only [ends_bind]
      refine (branchOn_grows shallowLeft column value part .up).mono (fun second right up => ?_)
        fun _ _ => id
      obtain ⟨up, stopped⟩ := up
      have both := down.trans up
      cases second with
      | error limit =>
        refine .grows 2 (Nat.le_refl 2) both fun status same => ?_
        exact stopped status (congrArg Except.error (Option.some.inj same))
      | ok improvedUp =>
        dsimp only
        split
        · simp only [ends_bind]
          refine (untallied_prunePool right).mono (fun _ last still => ?_) fun _ _ => id
          rw [ends_pure, still]
          exact .grows 2 (Nat.le_refl 2) both (by simp)
        · exact .grows 2 (Nat.le_refl 2) both (by simp)

theorem branch_expands : Ends (branch node) state
    (fun result next => Expands state.problem node state.tally result next.tally)
    fun _ _ => True := by
  simp only [branch, ends_bind, ends_get]
  refine (perform_tallies _ _).mono (fun selected chosen ends => ?_) fun _ _ => id
  obtain ⟨choice, problem, same⟩ := ends
  rw [Run.outcome_guard_iff] at choice
  cases selected with
  | none =>
    rw [ends_pure, same]
    exact .grows 0 (by decide) (.refl state.tally) (by simp)
  | some column =>
    simp only [ends_bind]
    refine (perform_tallies _ _).mono (fun value read ends => ?_) fun _ _ => id
    obtain ⟨found, problem', same'⟩ := ends
    rw [Run.outcome_guard_iff] at found
    have there : node.solution[column]? = some value := by
      unfold inRange at found
      split at found
      · rename_i known
        rw [known, Except.ok.inj found]
      · cases found
    rw [← problem, ← problem'] at choice ⊢
    rw [← same, ← same']
    exact (ends_bind _ _ _).mp (bothChildren_expand ⟨choice, there⟩ _)

/-! ### Steps -/

/-- The node that the next step takes from the pool. -/
def State.upNext (state : State α) : Option (Node α) :=
  (state.pool.select state.problem.settings.selection state.incumbent.approx state.root).bind
    (state.pool[·]?)

/-- A step takes a node from the pool and expands it, unless there is none. -/
theorem expandNode_expands (elapsed : Nat) : Ends (expandNode elapsed) state
    (fun progress next => (progress = .done ∧ next.tally = state.tally) ∨ ∃ node result,
      state.upNext = some node ∧ Expands state.problem node state.tally result next.tally ∧
        progress = result.elim .more .stopped) fun _ _ => True := by
  simp only [expandNode, ends_bind, ends_get]
  split
  · exact .inl ⟨rfl, rfl⟩
  · rename_i position selected
    split
    · trivial
    · rename_i node rest taken
      obtain ⟨same, found, pair⟩ := Option.map_eq_some_iff.mp taken
      obtain ⟨rfl, rfl⟩ := Prod.mk.inj pair
      have next : state.upNext = some same := by rw [State.upNext, selected, Option.bind_some, found]
      simp only [ends_bind, ends_set]
      refine branch_expands.mono (fun result reached expands => ?_) fun _ _ => id
      cases result with
      | some limit => exact .inr ⟨same, some limit, next, expands, rfl⟩
      | none =>
        simp only [ends_bind]
        refine (untallied_reportProgress elapsed reached).mono (fun _ last still => ?_) fun _ _ => id
        rw [ends_pure, still]
        exact .inr ⟨same, none, next, expands, rfl⟩

end Children

section Moves

variable {α : Type} {state : State α}

/-- What a step of the search does to the tally, and why it stops. New nodes are only explored below
the node limit. -/
structure Moves (state next : State α) (progress : Progress) : Prop where
  change : (∃ explored, state.tally.Grows next.tally explored ∧ explored ≤ 2 ∧
      ∀ limit, state.tally.settings.nodeLimit = some limit → explored = 0 ∨ state.tally.nodes < limit) ∨
    ∃ node column value, progress = .more ∧ state.upNext = some node ∧
      SplitsAt state.problem node column value ∧ TooDeep state.problem.settings node ∧
        next.tally = { state.tally with skipped := true }
  stopped : ∀ status, progress = .stopped status → next.tally.Explains status

theorem Moves.idle {next : State α} {progress : Progress} (same : next.tally = state.tally)
    (stopped : ∀ status, progress = .stopped status → next.tally.Explains status) :
    Moves state next progress := by
  refine ⟨.inl ⟨0, ?_, Nat.zero_le 2, fun _ _ => .inl rfl⟩, stopped⟩
  rw [same]
  exact .refl _

variable [Scalar α]

theorem advance_tallies (elapsed : Nat) : Ends (advance elapsed) state
    (fun progress next => Moves state next progress) fun _ _ => True := by
  simp only [advance, ends_bind, ends_get]
  split
  · exact .idle rfl (by simp)
  · split
    · rename_i status reached
      refine .idle rfl fun other same => ?_
      obtain rfl := Progress.stopped.inj same
      exact limitReached_explains reached
    · rename_i free
      simp only [ends_bind, count, ends_modify]
      refine (gapReached_tallies _).mono (fun result reached ends => ?_) fun _ _ => id
      obtain ⟨same, going, named⟩ := ends
      cases result with
      | some status =>
        refine .idle same fun other stopped => ?_
        obtain rfl := Progress.stopped.inj stopped
        rcases named _ rfl with rfl | rfl
        · trivial
        · trivial
      | none =>
        obtain rfl := going rfl
        refine (expandNode_expands elapsed).mono (fun progress next ends => ?_) fun _ _ => id
        rcases ends with ⟨rfl, still⟩ | ⟨node, result, taken, expands, rfl⟩
        · exact .idle still (by simp)
        · cases expands with
          | grows explored few tally stopped =>
            refine ⟨.inl ⟨explored, tally, few, fun limit known =>
              .inr (nodes_lt_of_unlimited free known)⟩, fun status same => ?_⟩
            cases result with
            | none => cases same
            | some limit =>
              obtain rfl := Progress.stopped.inj same
              obtain ⟨rfl, exhausted⟩ := stopped _ rfl
              exact exhausted
          | skips column value split deep tally =>
            exact ⟨.inr ⟨node, column, value, rfl, taken, split, deep, tally⟩, by simp⟩

end Moves

end MixedInteger.Search
