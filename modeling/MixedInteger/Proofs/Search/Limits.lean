import MixedInteger.Proofs.Search.Tally

/-! Limits are respected over a whole solve, and a status that names a limit is truthful. What a solve
counts stays within its limits from the root to the end, whatever stops it; a search that reports the
depth limit has met a node whose children were too deep and created neither. -/
namespace MixedInteger.Search

open Simplex (Budget)

variable {α : Type}

/-- Counts within the limits that are set. A step explores at most two nodes, so the node limit can be
passed by one. -/
structure Tally.Respects (tally : Tally) (settings : Settings) : Prop where
  iterations : ∀ limit, settings.iterationLimit = some limit → tally.iterations ≤ limit
  nodes : ∀ limit, settings.nodeLimit = some limit → tally.nodes ≤ max 1 (limit + 1)
  depth : ∀ limit, settings.depthLimit = some limit → tally.depth ≤ limit
  cuts : tally.cuts ≤ tally.nodes * settings.maxCuts
  passes : tally.presolve.passes ≤ settings.presolvePasses

/-- Counts within the limits, with a budget that is within its own. -/
structure Tally.Within (tally : Tally) (settings : Settings) : Prop
    extends tally.Respects settings where
  same : tally.settings = settings
  budget : tally.budget.limit = settings.iterationLimit
  used : ∀ limit, settings.iterationLimit = some limit → tally.budget.used ≤ limit

theorem Tally.Within.grows {before after : Tally} {settings : Settings} {explored : Nat}
    (within : before.Within settings) (grows : before.Grows after explored) (few : explored ≤ 2)
    (below : ∀ limit, settings.nodeLimit = some limit → explored = 0 ∨ before.nodes < limit) :
    after.Within settings := by
  obtain ⟨⟨iterations, nodes, depth, cuts, passes⟩, rfl, budget, used⟩ := within
  refine ⟨⟨fun limit known => ?_, fun limit known => ?_, fun limit known => ?_, ?_, ?_⟩,
    grows.settings, grows.budget.limit.trans budget, fun limit known => ?_⟩
  · rw [grows.iterations]
    exact iterations limit known
  · have bounded := nodes limit known
    rw [grows.nodes]
    rcases below limit known with rfl | below
    · exact bounded
    · omega
  · exact grows.depth limit known (depth limit known)
  · have added := grows.cuts
    rw [grows.nodes, Nat.add_mul]
    omega
  · rw [grows.presolve]
    exact passes
  · exact grows.budget.used limit (budget.trans known) (used limit known)

/-- Skipping children changes no count. -/
theorem Tally.Within.skips {tally : Tally} {settings : Settings} (within : tally.Within settings) :
    Tally.Within { tally with skipped := true } settings :=
  ⟨⟨within.iterations, within.nodes, within.depth, within.cuts, within.passes⟩, within.same,
    within.budget, within.used⟩

/-- Where a budget is used up, all iterations of the limit were charged. -/
theorem Tally.Within.used_eq {tally : Tally} {settings : Settings} (within : tally.Within settings)
    (exhausted : tally.budget.exhausted = true) : settings.iterationLimit = some tally.budget.used := by
  rw [← within.budget]
  apply Budget.used_of_exhausted exhausted
  intro limit known
  exact within.used limit (within.budget.symm.trans known)

variable [Scalar α]

/-! ### The loop -/

/-- The states that the loop of a solve comes by, by the number of steps made. -/
inductive Visits (clock : Clock.Readings) (problem : Problem α) : Nat → State α → Prop
  | first {state : State α} (prepared : prepare.run { problem } = .ok none state) :
      Visits clock problem 0 state
  | next {look : Nat} {state later : State α} (visit : Visits clock problem look state)
      (stepped : (advance (clock look)).run state = .ok .more later) :
      Visits clock problem (look + 1) later

/-- A step of a solve takes a node from the pool and splits it, but both children would lie below the
depth limit, and neither is created. -/
def SkipsChildren (clock : Clock.Readings) (problem : Problem α) (limit : Nat) : Prop :=
  ∃ look state next node column value, Visits clock problem look state ∧
    (advance (clock look)).run state = .ok .more next ∧ state.upNext = some node ∧
    SplitsAt state.problem node column value ∧
    (∀ direction, limit < (childOn node state.problem.partner column value direction).depth) ∧
    next.problem.stats.nodesExplored = state.problem.stats.nodesExplored

/-- A mark for skipped children is there for a reason. -/
def Justified (clock : Clock.Readings) (problem : Problem α) (tally : Tally) : Prop :=
  tally.skipped = true →
    ∃ limit, tally.settings.depthLimit = some limit ∧ SkipsChildren clock problem limit

section Loop

variable {clock : Clock.Readings} {problem : Problem α} {settings : Settings}

/-- A step keeps the counts within the limits and justifies its mark. -/
theorem Moves.keeps {look : Nat} {state next : State α} {progress : Progress}
    (moves : Moves state next progress) (visit : Visits clock problem look state)
    (stepped : (advance (clock look)).run state = .ok progress next)
    (within : state.tally.Within settings) (justified : Justified clock problem state.tally) :
    next.tally.Within settings ∧ Justified clock problem next.tally := by
  rcases moves.change with ⟨explored, grows, few, below⟩ |
    ⟨node, column, value, rfl, taken, split, deep, skipped⟩
  · refine ⟨within.grows grows few (within.same ▸ below), fun marked => ?_⟩
    rw [grows.settings]
    exact justified (grows.skipped.symm.trans marked)
  · rw [skipped]
    refine ⟨within.skips, fun _ => ?_⟩
    obtain ⟨limit, known, beyond⟩ := (Option.any_eq_true _ _).mp deep
    refine ⟨limit, known, look, state, next, node, column, value, visit, stepped, taken, split, ?_, ?_⟩
    · intro direction
      rw [childOn_depth]
      exact of_decide_eq_true beyond
    · exact congrArg Tally.nodes skipped

/-- The loop keeps the counts within the limits, and what stops it explains itself. -/
theorem loop_within (fuel : Nat) {look : Nat} {state : State α} (visit : Visits clock problem look state)
    (within : state.tally.Within settings) (justified : Justified clock problem state.tally) :
    Ends (loop clock fuel look) state (fun result next => next.tally.Within settings ∧
      Justified clock problem next.tally ∧ ∀ status, result = some status → next.tally.Explains status)
      fun _ _ => True := by
  induction fuel generalizing look state with
  | zero => trivial
  | succ fuel ih =>
    rw [loop, ends_bind]
    have steps := @advance_tallies α state _ (clock look)
    cases stepped : (advance (clock look)).run state with
    | error cause next => exact (ends_iff_of_error stepped).mpr trivial
    | ok progress next =>
      have step := steps.ok_of_run stepped
      obtain ⟨kept, reason⟩ := step.keeps visit stepped within justified
      rw [ends_iff_of_ok stepped]
      cases progress with
      | more => exact ih (.next visit stepped) kept reason
      | done => exact ⟨kept, reason, nofun⟩
      | stopped status =>
        refine ⟨kept, reason, fun other same => ?_⟩
        obtain rfl := Option.some.inj same
        exact step.stopped status rfl

end Loop

/-! ### Before the search -/

/-- Nothing counted yet, presolve apart. -/
structure Tally.Fresh (tally : Tally) (settings : Settings) : Prop where
  same : tally.settings = settings
  nodes : tally.nodes = 0
  depth : tally.depth = 0
  cuts : tally.cuts = 0
  iterations : tally.iterations = 0
  passes : tally.presolve.passes ≤ settings.presolvePasses
  skipped : tally.skipped = false

theorem Tally.Fresh.respects {tally : Tally} {settings : Settings} (fresh : tally.Fresh settings) :
    tally.Respects settings := by
  obtain ⟨-, nodes, depth, cuts, iterations, passes, -⟩ := fresh
  refine ⟨fun limit _ => ?_, fun limit _ => ?_, fun limit _ => ?_, ?_, passes⟩ <;> omega

/-- A status that names no limit. -/
def Decided (status : SolveStatus) : Prop :=
  status = .infeasible ∨ status = .unbounded ∨ status = .optimal

theorem adoptPresolved_tallies {α : Type} (status : Presolve.Status) (reduced : Presolve.State α)
    (state : State α) : Ends (adoptPresolved status reduced) state
      (fun result next => next.tally = { state.tally with presolve := reduced.counts } ∧
        ∀ status, result = some status → Decided status) fun _ _ => True := by
  cases status with
  | reduced => exact ⟨rfl, nofun⟩
  | infeasible => exact ⟨rfl, fun _ same => .inl (Option.some.inj same).symm⟩
  | unbounded => exact ⟨rfl, fun _ same => .inr (.inl (Option.some.inj same).symm)⟩
  | solved => exact ⟨rfl, fun _ same => .inr (.inr (Option.some.inj same).symm)⟩

/-- What the way to a search leaves. A limit that ends the solve there is that on iterations, and all
of them were charged. -/
def Opens (settings : Settings) (result : Option SolveStatus) (tally : Tally) : Prop :=
  tally.Respects settings ∧ match result with
    | none => tally.Within settings ∧ tally.skipped = false
    | some status => Decided status ∨
      (status = .iterationLimit ∧ settings.iterationLimit = some tally.iterations)

/-- Two problems with one setting and one count. -/
def SameCounts {α : Type} (problem other : Problem α) : Prop :=
  problem.settings = other.settings ∧ problem.stats = other.stats

theorem sameCounts_foldl {α : Type} {change : Problem α → Nat → Problem α}
    (keeps : ∀ problem index, SameCounts (change problem index) problem) (indices : List Nat)
    (problem : Problem α) : SameCounts (indices.foldl change problem) problem := by
  induction indices generalizing problem with
  | nil => exact ⟨rfl, rfl⟩
  | cons index rest ih =>
    have here := keeps problem index
    have later := ih (change problem index)
    exact ⟨later.1.trans here.1, later.2.trans here.2⟩

section Prepare

variable {state : State α} {settings : Settings}

theorem presolveRoot_tallies (fresh : state.tally.Fresh settings) : Ends presolveRoot state
    (fun result next => next.tally.Fresh settings ∧ ∀ status, result = some status → Decided status)
    fun _ _ => True := by
  simp only [presolveRoot, ends_bind, ends_get]
  split
  · exact ⟨fresh, by simp⟩
  · simp only [ends_bind]
    refine (perform_tallies _ _).mono (fun found presolved ends => ?_) fun _ _ => id
    obtain ⟨status, reduced⟩ := found
    obtain ⟨ran, -, same⟩ := ends
    have passes : reduced.counts.passes ≤ settings.presolvePasses :=
      fresh.same ▸ Presolve.run_passes_le ran
    have adopts : ∀ told : State α, told.tally = state.tally →
        Ends (adoptPresolved status reduced) told (fun result next => next.tally.Fresh settings ∧
          ∀ status, result = some status → Decided status) fun _ _ => True := by
      intro told still
      refine (adoptPresolved_tallies status reduced told).mono (fun result next ends => ?_) fun _ _ => id
      obtain ⟨counted, early⟩ := ends
      rw [counted, still]
      exact ⟨⟨fresh.same, fresh.nodes, fresh.depth, fresh.cuts, fresh.iterations, passes, fresh.skipped⟩,
        early⟩
    dsimp only
    split
    · simp only [ends_bind]
      refine (untallied_say _ _ presolved).mono (fun _ told still => ?_) fun _ _ => id
      exact adopts told (still.trans same)
    · exact adopts presolved same

/-- A solved root is one node without a depth, and its cuts are yet to be counted. -/
structure RootSolved (settings : Settings) (tally : Tally) : Prop where
  within : tally.Within settings
  nodes : tally.nodes = 1
  cuts : tally.cuts = 0
  skipped : tally.skipped = false
  iterations : tally.iterations = tally.budget.used

theorem solveRoot_tallies (fresh : state.tally.Fresh settings) : Ends solveRoot state
    (fun result next => RootSolved settings next.tally ∧ match result with
      | .ok root => root.cutsAdded ≤ settings.maxCuts
      | .error status => Decided status ∨
        (status = .iterationLimit ∧ next.tally.budget.exhausted = true)) fun _ _ => True := by
  obtain ⟨rfl, nodes, depth, cuts, -, passes, skipped⟩ := fresh
  simp only [solveRoot, ends_bind, ends_get, ends_modify, count]
  refine (solveNode_tallies _).mono (fun solved next ends => ?_) fun _ _ => id
  obtain ⟨status, root⟩ := solved
  obtain ⟨⟨spends, limit⟩, same, -, cutting⟩ := ends
  have used : ∀ limit, state.tally.settings.iterationLimit = some limit → next.budget.used ≤ limit :=
    fun limit known => spends.used limit known (Nat.zero_le limit)
  have rooted : ∀ reached : State α, reached.tally = { state.tally with
      budget := next.budget, nodes := 1, iterations := next.budget.used } →
      RootSolved state.tally.settings reached.tally := by
    intro reached tally
    rw [tally]
    refine ⟨⟨⟨used, fun limit _ => Nat.le_max_left _ _, fun limit _ => ?_, ?_, passes⟩, rfl,
      spends.limit, used⟩, rfl, cuts, skipped, rfl⟩
    · dsimp only
      omega
    · dsimp only
      omega
  have tallied : { next.tally with
      nodes := next.tally.nodes + 1, iterations := next.budget.used } = { state.tally with
      budget := next.budget, nodes := 1, iterations := next.budget.used } := by
    rw [same]
    simp only [Tally.mk.injEq, true_and]
    exact ⟨rfl, congrArg (· + 1) nodes, rfl, rfl, rfl, rfl⟩
  cases status with
  | infeasible => exact ⟨rooted _ tallied, .inl (.inl rfl)⟩
  | unbounded => exact ⟨rooted _ tallied, .inl (.inr (.inl rfl))⟩
  | iterationLimit => exact ⟨rooted _ tallied, .inr ⟨rfl, limit rfl⟩⟩
  | error => trivial
  | optimal =>
    have few : root.cutsAdded ≤ state.tally.settings.maxCuts := cutting (Nat.zero_le _)
    dsimp only
    split
    · simp only [ends_bind]
      refine (untallied_say _ _ _).mono (fun _ told still => ?_) fun _ _ => id
      exact ⟨rooted told (still.trans tallied), few⟩
    · exact ⟨rooted _ tallied, few⟩

/-- A search begins with its root's cuts counted. -/
theorem begin_within {root : Node α} (rooted : RootSolved settings state.tally)
    (few : root.cutsAdded ≤ settings.maxCuts) : Ends (begin root) state
      (fun _ next => next.tally.Within settings ∧ next.tally.skipped = false) fun _ _ => True := by
  obtain ⟨within, nodes, cuts, skipped, -⟩ := rooted
  have counted : Ends (countCuts root) { state with root := (root.approx, root.infeasibility) }
      (fun _ next => next.tally.Within settings ∧ next.tally.skipped = false) fun _ _ => True := by
    refine (countCuts_tallies root _).mono (fun _ next cut => ?_) fun _ _ => id
    rw [cut]
    refine ⟨⟨⟨within.iterations, within.nodes, within.depth, ?_, within.passes⟩, within.same,
      within.budget, within.used⟩, skipped⟩
    change state.tally.cuts + root.cutsAdded ≤ state.tally.nodes * settings.maxCuts
    rw [nodes, cuts]
    omega
  simp only [begin, ends_bind, ends_modify]
  refine counted.mono (fun _ next ends => ?_) fun _ _ => id
  split
  · simp only [ends_bind]
    refine (untallied_accept root next).mono (fun _ last still => ?_) fun _ _ => id
    rw [ends_pure, still]
    exact ends
  · simp only [ends_bind]
    refine (untallied_tryHeuristic root next).mono (fun _ last still => ?_) fun _ _ => id
    have same : State.tally { last with pool := last.pool ++ [root] } = next.tally := still
    rw [ends_modify, same]
    exact ends

/-- The working form has the settings and the counts of its problem. -/
theorem sameCounts_workingForm (problem : Problem α) :
    SameCounts problem.boundBelow.addSlacks problem := by
  have bounded : SameCounts problem.boundBelow problem := by
    refine sameCounts_foldl (fun problem index => ?_) _ _
    unfold Problem.boundColumn
    split
    · exact ⟨rfl, rfl⟩
    · split <;> exact ⟨rfl, rfl⟩
  have slack : SameCounts problem.boundBelow.addSlacks problem.boundBelow := by
    refine sameCounts_foldl (fun problem index => ?_) _ _
    unfold Problem.addSlack
    split
    · exact ⟨rfl, rfl⟩
    · split <;> exact ⟨rfl, rfl⟩
  exact ⟨slack.1.trans bounded.1, slack.2.trans bounded.2⟩

theorem untallied_prepareWorking : Untallied (prepareWorking : SearchM α Unit) := by
  intro state
  obtain ⟨settings, stats⟩ := sameCounts_workingForm { state.problem with
    frozen := state.problem.working.rows, reference := state.problem.working }
  simp only [prepareWorking, ends_modify, State.tally, settings, stats]

theorem openRoot_opens (fresh : state.tally.Fresh settings) : Ends (do
      match ← solveRoot with
      | .error status => return some status
      | .ok root =>
        begin root
        return none) state (fun result next => Opens settings result next.tally) fun _ _ => True := by
  rw [ends_bind]
  refine (solveRoot_tallies fresh).mono (fun result next ends => ?_) fun _ _ => id
  obtain ⟨rooted, ends⟩ := ends
  cases result with
  | error status =>
    refine ⟨rooted.within.toRespects, ends.imp_right fun ⟨named, exhausted⟩ => ⟨named, ?_⟩⟩
    rw [rooted.iterations]
    exact rooted.within.used_eq exhausted
  | ok root =>
    simp only [ends_bind]
    exact (begin_within rooted ends).mono (fun _ last kept => ⟨kept.1.toRespects, kept⟩) fun _ _ => id

theorem presolvedRoot_opens (fresh : state.tally.Fresh settings) : Ends (do
      match ← presolveRoot with
      | some status => return some status
      | none =>
        if !(← roundRoot) then return some .infeasible
        prepareWorking
        match ← solveRoot with
        | .error status => return some status
        | .ok root =>
          begin root
          return none) state (fun result next => Opens settings result next.tally) fun _ _ => True := by
  rw [ends_bind]
  refine (presolveRoot_tallies fresh).mono (fun result presolved ends => ?_) fun _ _ => id
  obtain ⟨fresh, decided⟩ := ends
  cases result with
  | some status => exact ⟨fresh.respects, .inl (decided status rfl)⟩
  | none =>
    simp only [roundRoot, ends_bind, ends_get, ends_modify, ends_pure]
    split
    · exact ⟨fresh.respects, .inl (.inl rfl)⟩
    · simp only [ends_bind]
      refine (untallied_prepareWorking _).mono (fun _ ready still => ?_) fun _ _ => id
      exact (ends_bind _ _ _).mp (openRoot_opens (still ▸ fresh))

theorem prepare_opens (fresh : state.tally.Fresh settings) : Ends prepare state
    (fun result next => Opens settings result next.tally) fun _ _ => True := by
  simp only [prepare, ends_bind, ends_get]
  split
  · simp only [ends_bind]
    refine (untallied_say _ _ state).mono (fun _ told same => ?_) fun _ _ => id
    have fresh : told.tally.Fresh settings := same ▸ fresh
    split
    · exact ⟨fresh.respects, .inl (.inl rfl)⟩
    · exact presolvedRoot_opens fresh
  · split
    · exact ⟨fresh.respects, .inl (.inl rfl)⟩
    · exact presolvedRoot_opens fresh

end Prepare

/-! ### A whole solve -/

theorem ofProgram_fresh {α : Type} {program : Program α} {settings : Settings} {problem : Problem α}
    (made : Problem.ofProgram program settings = .ok problem) :
    (State.tally { problem }).Fresh settings := by
  unfold Problem.ofProgram at made
  split at made
  · cases made
  · split at made
    · cases made
    · obtain rfl := Except.ok.inj made
      exact ⟨rfl, rfl, rfl, rfl, rfl, Nat.zero_le _, rfl⟩

/-- At the end of a search all iterations charged are counted, and the status is that of what stopped
it, or that children were skipped. -/
theorem conclude_tallies {α : Type} (limit : Option SolveStatus) (state : State α) :
    Ends (conclude limit) state (fun status next =>
      next.tally = { state.tally with iterations := state.budget.used } ∧
        status = finalStatus state limit) fun _ _ => True := by
  simp only [conclude, ends_bind, ends_get, count, ends_modify]
  split
  · simp only [ends_bind]
    refine (untallied_say _ _ _).mono (fun _ told same => ?_) fun _ _ => id
    exact ⟨same, rfl⟩
  · exact ⟨rfl, rfl⟩

/-- Counts within the limits, and a status that is right where it names a limit. -/
structure Truthful (clock : Clock.Readings) (problem : Problem α) (settings : Settings)
    (status : SolveStatus) (tally : Tally) : Prop extends tally.Respects settings where
  charged : status = .iterationLimit → settings.iterationLimit = some tally.iterations
  explored : status = .nodeLimit → ∃ limit, settings.nodeLimit = some limit ∧ limit ≤ tally.nodes
  skipped : status = .depthLimit →
    ∃ limit, settings.depthLimit = some limit ∧ SkipsChildren clock problem limit

section Solve

variable {clock : Clock.Readings} {problem : Problem α} {settings : Settings}

theorem Truthful.of_decided {status : SolveStatus} {tally : Tally} (respects : tally.Respects settings)
    (decided : Decided status) : Truthful clock problem settings status tally := by
  rcases decided with rfl | rfl | rfl <;> exact ⟨respects, nofun, nofun, nofun⟩

/-- What a finished search reports. -/
theorem conclude_truthful {state : State α} {limit : Option SolveStatus}
    (within : state.tally.Within settings) (justified : Justified clock problem state.tally)
    (explains : ∀ status, limit = some status → state.tally.Explains status) :
    Ends (conclude limit) state
      (fun status next => Truthful clock problem settings status next.tally) fun _ _ => True := by
  refine (conclude_tallies limit state).mono (fun status next ends => ?_) fun _ _ => id
  obtain ⟨same, rfl⟩ := ends
  rw [same]
  have respects : Tally.Respects { state.tally with iterations := state.budget.used } settings :=
    ⟨within.used, within.nodes, within.depth, within.cuts, within.passes⟩
  have settled := within.same
  have skipped : state.tally.skipped = true →
      ∃ limit, settings.depthLimit = some limit ∧ SkipsChildren clock problem limit := by
    rw [← settled]
    exact justified
  cases limit with
  | some limit =>
    have explained := explains limit rfl
    refine ⟨respects, ?_, ?_, ?_⟩
    · rintro rfl
      exact within.used_eq explained
    · rintro rfl
      rw [← settled]
      exact explained
    · rintro rfl
      exact skipped explained
  | none =>
    unfold finalStatus
    dsimp only
    split
    · rename_i marked
      exact ⟨respects, nofun, nofun, fun _ => skipped marked⟩
    · split
      · exact .of_decided respects (.inr (.inr rfl))
      · exact .of_decided respects (.inl rfl)

theorem solve_truthful (fresh : (State.tally { problem }).Fresh settings) :
    Ends (solve clock) { problem }
      (fun status next => Truthful clock problem settings status next.tally) fun _ _ => True := by
  have opens := prepare_opens fresh
  rw [solve, ends_bind]
  cases prepared : prepare.run { problem } with
  | error cause state => exact (ends_iff_of_error prepared).mpr trivial
  | ok result state =>
    obtain ⟨respects, opened⟩ := opens.ok_of_run prepared
    rw [ends_iff_of_ok prepared]
    cases result with
    | some status =>
      simp only [settle, ends_bind, ends_modify, ends_pure]
      rcases opened with decided | ⟨rfl, charged⟩
      · exact .of_decided respects decided
      · exact ⟨respects, fun _ => charged, by simp, by simp⟩
    | none =>
      obtain ⟨within, unmarked⟩ := opened
      have unskipped : Justified clock problem state.tally := by
        intro marked
        rw [unmarked] at marked
        cases marked
      simp only [ends_bind, ends_get]
      refine (loop_within _ (.first prepared) within unskipped).mono (fun limit last ends => ?_)
        fun _ _ => id
      obtain ⟨kept, justified, explains⟩ := ends
      exact (conclude_truthful kept justified explains).mono (fun _ _ truthful => truthful) fun _ _ => id

/-- A solve that gives a status leaves the problem of the state its search ended in. -/
theorem solve_eq_ok {status : SolveStatus} (ended : (problem.solve clock).outcome = .ok status) :
    ∃ state, (solve clock).run { problem } = .ok status state ∧
      (problem.solve clock).problem = state.problem := by
  unfold Problem.solve at ended ⊢
  cases ran : (solve clock).run { problem } with
  | error cause state =>
    rw [ran] at ended
    cases ended
  | ok result state =>
    rw [ran] at ended
    obtain rfl := Except.ok.inj ended
    exact ⟨state, rfl, rfl⟩

end Solve

/-- What a solve of a problem made from a program has counted at its end is within the limits that are
set, and a status that names a limit is truthful: all iterations were charged, the nodes were
explored, or a node was met whose children were too deep and were skipped. -/
theorem solve_respects_limits {program : Program α} {settings : Settings} {problem : Problem α}
    (made : Problem.ofProgram program settings = .ok problem) (clock : Clock.Readings)
    {status : SolveStatus} (ended : (problem.solve clock).outcome = .ok status) :
    let stats := (problem.solve clock).problem.stats
    (∀ limit, settings.iterationLimit = some limit → stats.simplexIterations ≤ limit) ∧
    (∀ limit, settings.nodeLimit = some limit → stats.nodesExplored ≤ max 1 (limit + 1)) ∧
    (∀ limit, settings.depthLimit = some limit → stats.maxDepth ≤ limit) ∧
    stats.cutsAdded ≤ stats.nodesExplored * settings.maxCuts ∧
    stats.presolve.passes ≤ settings.presolvePasses ∧
    (status = .iterationLimit → settings.iterationLimit = some stats.simplexIterations) ∧
    (status = .nodeLimit →
      ∃ limit, settings.nodeLimit = some limit ∧ limit ≤ stats.nodesExplored) ∧
    (status = .depthLimit →
      ∃ limit, settings.depthLimit = some limit ∧ SkipsChildren clock problem limit) := by
  obtain ⟨state, ran, left⟩ := solve_eq_ok ended
  rw [left]
  have truthful := (@solve_truthful α _ clock problem settings (ofProgram_fresh made)).ok_of_run ran
  exact ⟨truthful.iterations, truthful.nodes, truthful.depth, truthful.cuts, truthful.passes,
    truthful.charged, truthful.explored, truthful.skipped⟩

/-- Minimise `-x` over `2 x ≤ 1` with `x` zero or one. The root is fractional. -/
def halving : Program Rat where
  objective := [-1]
  constant := 0
  rows := [⟨[2], .le, 1⟩]
  columns := [.integer ⟨some 0, some 1⟩]

/-- The problem of a program whose children are too deep, with a limit of every kind. -/
def shallow : Problem Rat where
  working := halving
  reference := halving
  settings := { nodeLimit := some 5, iterationLimit := some 40, depthLimit := some 0, maxCuts := 0,
                presolve := .off, heuristic := false }

theorem shallow_skips : (shallow.solve Clock.stopped).outcome = .ok .depthLimit ∧
    (shallow.solve Clock.stopped).problem.stats.simplexIterations ≤ 40 ∧
    SkipsChildren Clock.stopped shallow 0 := by
  have made : Problem.ofProgram halving shallow.settings = .ok shallow := rfl
  have runs : (shallow.solve Clock.stopped).outcome.toOption = some .depthLimit := by decide +kernel
  have ended : (shallow.solve Clock.stopped).outcome = .ok .depthLimit := by
    cases outcome : (shallow.solve Clock.stopped).outcome with
    | error cause =>
      rw [outcome] at runs
      cases runs
    | ok status =>
      rw [outcome] at runs
      exact congrArg Except.ok (Option.some.inj runs)
  obtain ⟨iterations, -, -, -, -, -, -, skipped⟩ := solve_respects_limits made Clock.stopped ended
  obtain ⟨limit, known, skips⟩ := skipped rfl
  obtain rfl : 0 = limit := Option.some.inj known
  exact ⟨ended, iterations 40 rfl, skips⟩

end MixedInteger.Search
