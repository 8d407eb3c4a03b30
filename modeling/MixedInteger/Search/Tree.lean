import MixedInteger.Clock
import MixedInteger.Problem
import MixedInteger.Rounding

/-!
Branch and bound. A search takes a node from the pool, splits it at a fractional
column, solves both children and files them: a child is dropped if it is infeasible
or cannot beat the best point, offered as a new best point if it is integral, and
kept in the pool otherwise.

A search is a sequence of `advance` steps on a `State`. Steps that fail keep the
state reached, so counters and messages survive.
-/
namespace MixedInteger.Search

/-- A search between two steps. -/
structure State (α : Type) where
  problem : Problem α
  pool : Pool α := []
  incumbent : IncumbentTracker α := {}
  /-- Iterations are counted across all relaxations. -/
  budget : Simplex.Budget := {}
  /-- Bound and infeasibility of the root. -/
  root : Binary64 × Binary64 := (.zero, .zero)
  /-- Whether a child was skipped for being too deep. -/
  depthLimited : Bool := false
  /-- When progress was last reported, in nanoseconds. -/
  lastReport : Nat := 0
  journal : Journal := []

/-- A computation on the search state. -/
abbrev SearchM (α β : Type) := EStateM Failure (State α) β

variable {α : Type} [Scalar α]

/-- Run a computation that leaves messages. -/
def perform {β : Type} (run : Run β) : SearchM α β := do
  modify fun state => { state with journal := state.journal ++ run.journal }
  match run.outcome with
  | .ok value => return value
  | .error cause => throw cause

/-- Leave a message. -/
def say (severity : Severity) (text : String) : SearchM α Unit := perform (Run.say severity text)

/-- Update the counters. -/
def count (change : Stats → Stats) : SearchM α Unit :=
  modify fun state => { state with
    problem := { state.problem with stats := change state.problem.stats } }

/-- Count the cuts of a solved node. -/
def countCuts (node : Node α) : SearchM α Unit :=
  count fun stats => { stats with
    cutsAdded := stats.cutsAdded + node.cutsAdded
    cutImprovement := stats.cutImprovement + node.cutImprovement }

/-- Count a node that was dropped. -/
def countPruned (number : Nat) : SearchM α Unit :=
  count fun stats => { stats with nodesPruned := stats.nodesPruned + number }

/-- Solve a node's relaxation on the shared budget. -/
def solveNode (node : Node α) : SearchM α (Simplex.Status × Node α) := do
  let state ← get
  let relaxed ← perform (relax (.ofSettings state.problem.settings) state.problem.working
    node state.budget)
  modify fun state => { state with budget := relaxed.budget }
  return (relaxed.status, relaxed.node)

/-- Offer a point as the best one; true if it is. -/
def offer (values : List α) (objective : α) : SearchM α Bool := do
  let state ← get
  if state.incumbent.dominates objective then return false
  set { state with incumbent := state.incumbent.update values objective }
  if state.problem.settings.verbose then
    say .info ("new incumbent: " ++ (Scalar.toNumber objective).text)
  return true

/-- Offer the point of an integral node, after checking it. -/
def accept (node : Node α) : SearchM α Bool := do
  let problem := (← get).problem
  let values ← perform (Run.guard (problem.toStructural node.solution))
  match problem.audit values with
  | some cause => throw (.internal cause)
  | none => offer values (problem.structuralObjective values)

/-- Round the point of a node and offer the repaired point. -/
def tryHeuristic (node : Node α) : SearchM α Bool := do
  let problem := (← get).problem
  if !problem.settings.heuristic then return false
  let values ← perform (Run.guard (problem.toStructural node.solution))
  match ← perform (Run.guard (Rounding.roundAndRepair problem.reference values)) with
  | none => return false
  | some repaired =>
    let improved ← offer repaired (problem.structuralObjective repaired)
    if improved then
      count fun stats => { stats with heuristicSuccesses := stats.heuristicSuccesses + 1 }
    return improved

/-- The child of a node on one side of a column's fractional value. Raising one part
of a split column above zero fixes the other part at zero. -/
def childOn (node : Node α) (partner : List (Option Nat)) (column : Nat) (value : α) :
    Direction → Node α
  | .down => node.child.narrow column (·.tightenUpper (Scalar.floor value))
  | .up =>
    let lower := Scalar.ceil value
    let raised := node.child.narrow column (·.tightenLower lower)
    match Scalar.isPositive lower, (partner[column]?).join with
    | true, some other => raised.narrow other (·.tightenUpper 0)
    | _, _ => raised

/-- Note that a child was skipped for being too deep. -/
def skipDeep (limit : Nat) : SearchM α Unit := do
  if !(← get).depthLimited then
    say .warn s!"depth limit {limit} reached, subtrees are skipped"
  modify fun state => { state with depthLimited := true }

/-- Keep a child, drop it, or offer its point; true if the best point improved. -/
def file (child : Node α) : SearchM α Bool := do
  if (← get).incumbent.dominates child.optimum then
    countPruned 1
    return false
  if child.isIntegral then return ← accept child
  let improved ← tryHeuristic child
  if (← get).incumbent.dominates child.optimum then countPruned 1
  else modify fun state => { state with pool := state.pool ++ [child] }
  return improved

/-- Remember what a branch cost. -/
def observe (column : Nat) (direction : Direction) (loss distance : Binary64) : SearchM α Unit :=
  modify fun state => { state with problem := { state.problem with
    working := { state.problem.working with
      columns := state.problem.working.columns.modify column fun data =>
        data.observe loss distance direction } } }

/-- Create, solve and file the child on one side. The result says whether the best
point improved, or which limit stopped the search. -/
def branchOn (node : Node α) (column : Nat) (value : α) (part : Binary64)
    (direction : Direction) : SearchM α (Except SolveStatus Bool) := do
  let state ← get
  match state.problem.settings.depthLimit.filter (· < node.depth + 1) with
  | some limit =>
    skipDeep limit
    return .ok false
  | none =>
    count fun stats => { stats with nodesExplored := stats.nodesExplored + 1 }
    let (status, child) ← solveNode (childOn node state.problem.partner column value direction)
    countCuts child
    match status with
    | .infeasible =>
      countPruned 1
      return .ok false
    | .iterationLimit => return .error .iterationLimit
    | .unbounded => throw (.internal .unboundedChild)
    | .error => throw (.internal .nodeRelaxation)
    | .optimal =>
      let distance := match direction with
        | .down => part
        | .up => .one - part
      observe column direction (child.approx - node.approx).abs distance
      count fun stats => { stats with maxDepth := max stats.maxDepth child.depth }
      return .ok (← file child)

/-- Drop the nodes that cannot beat the best point. -/
def prunePool : SearchM α Unit := do
  let state ← get
  match state.incumbent.best with
  | none => return ()
  | some best =>
    let kept := state.pool.prune best.objective
    set { state with pool := kept }
    countPruned (state.pool.length - kept.length)

/-- Split a node at a fractional column. The result is the limit that stopped the
search, if one did. -/
def branch (node : Node α) : SearchM α (Option SolveStatus) := do
  let problem := (← get).problem
  let selected ← perform (Run.guard (selectColumn problem.settings.rule node.fractional
    node.mostFractional problem.working.columns))
  match selected with
  | none => return none
  | some column =>
    let value ← perform (Run.guard (inRange node.solution[column]?))
    let part := (node.fractional.lookup column).getD (.ofFraction false 1 2)
    match ← branchOn node column value part .down with
    | .error limit => return some limit
    | .ok improvedDown =>
      match ← branchOn node column value part .up with
      | .error limit => return some limit
      | .ok improvedUp =>
        if improvedDown || improvedUp then prunePool
        return none

/-- Node, iteration and time limits. -/
def limitReached (state : State α) (elapsed : Nat) : Option SolveStatus :=
  let settings := state.problem.settings
  if settings.nodeLimit.any (· ≤ state.problem.stats.nodesExplored) then some .nodeLimit
  else if state.budget.exhausted then some .iterationLimit
  else if Clock.exceeded elapsed settings.timeLimit then some .timeLimit
  else none

/-- Stop once the best point is within tolerance of the pool's bound. -/
def gapReached : SearchM α (Option SolveStatus) := do
  let state ← get
  match state.incumbent.approx with
  | none => return none
  | some value =>
    let gap := relativeGap value state.pool.bestBound
    let tolerance := state.problem.settings.gapTolerance
    if tolerance < gap then return none
    if gap ≤ .zero then return some .optimal
    if state.problem.settings.verbose then
      let percent (x : Binary64) : String := (x * .ofNat 100).fixed 4 ++ "%"
      say .warn ("stopping at gap " ++ percent gap ++ " (tolerance " ++ percent tolerance ++ ")")
    return some .gapLimit

/-- Report progress if a report is due. -/
def reportProgress (elapsed : Nat) : SearchM α Unit := do
  let state ← get
  let settings := state.problem.settings
  if !settings.verbose then return ()
  let due ← perform (Run.guard
    (Clock.reportDue (elapsed - state.lastReport) settings.reportFrequency))
  if !due then return ()
  set { state with lastReport := elapsed }
  let bound := state.pool.bestBound
  let gap := (state.incumbent.approx.map fun value => relativeGap value bound).getD .infinity
  say .info (s!"{state.pool.length} nodes active, bound: " ++ bound.fixed 6 ++ ", gap: " ++
    (gap * .ofNat 100).fixed 2 ++ "%")

/-- What a step of the search led to. -/
inductive Progress where
  /-- There is more to do. -/
  | more
  /-- The pool is empty. -/
  | done
  /-- A limit, or a closed gap, ended the search. -/
  | stopped (status : SolveStatus)
  deriving DecidableEq

/-- Take the selected node out of the pool and branch on it. A node whose branching
was stopped goes back, so that the bound still covers it. -/
def expandNode (elapsed : Nat) : SearchM α Progress := do
  let state ← get
  match state.pool.select state.problem.settings.selection state.incumbent.approx state.root with
  | none => return .done
  | some position =>
    match state.pool.take? position with
    | none => throw (.fault .outOfRange)
    | some (node, rest) =>
      set { state with pool := rest }
      match ← branch node with
      | some limit =>
        modify fun state => { state with pool := state.pool ++ [node] }
        return .stopped limit
      | none =>
        reportProgress elapsed
        return .more

/-- One step: check the limits and the gap, then branch on the next node. -/
def advance (elapsed : Nat) : SearchM α Progress := do
  let state ← get
  if state.pool.isEmpty then return .done
  match limitReached state elapsed with
  | some status => return .stopped status
  | none =>
    count fun stats => { stats with maxActiveNodes := max stats.maxActiveNodes state.pool.length }
    match ← gapReached with
    | some status => return .stopped status
    | none => expandNode elapsed

/-- Begin the search at a solved root. -/
def begin (root : Node α) : SearchM α Unit := do
  modify fun state => { state with root := (root.approx, root.infeasibility) }
  countCuts root
  if root.isIntegral then
    let _ ← accept root
  else
    let _ ← tryHeuristic root
    modify fun state => { state with pool := state.pool ++ [root] }

/-- Steps until the search ends. The fuel is a bound on their number. -/
def loop (clock : Clock.Readings) : Nat → Nat → SearchM α (Option SolveStatus)
  | 0, _ => throw (.fault .unsettled)
  | fuel + 1, look => do
    match ← advance (clock look) with
    | .more => loop clock fuel (look + 1)
    | .done => return none
    | .stopped status => return some status

/-- How many integers a range holds, one for an unbounded range. -/
def integersIn (range : Range α) : Nat :=
  match range.width.map Scalar.toNumber with
  | some (.exact width) => width.floor.toNat + 1
  | some (.float width) => width.toUInt64Saturating + 1
  | none => 1

/-- A bound on the number of steps. Children split the integers of a node's box, so
a tree over bounded integral columns has fewer than twice as many nodes as the root's
box has integral points; a search without such a bound is given the range of a 64-bit
counter. -/
def stepBound (program : Program α) : Nat :=
  let integral := program.columns.filter fun column => column.integral && !column.slack
  2 * (integral.map fun column => integersIn column.range).foldr (· * ·) 1 + Nat.pow 2 64

/-- The status of a finished search. -/
def finalStatus (state : State α) : Option SolveStatus → SolveStatus
  | some status => status
  | none =>
    if state.depthLimited then .depthLimit
    else if state.incumbent.best.isSome then .optimal
    else .infeasible

/-- The bound of a finished search: that of the open nodes, or the best value. -/
def finalBound (state : State α) : Option Binary64 :=
  if state.pool.isEmpty then state.incumbent.approx else some state.pool.bestBound

/-- Close the search: final counters, bound, and the best point. -/
def conclude (limit : Option SolveStatus) : SearchM α SolveStatus := do
  let state ← get
  count fun stats => { stats with
    simplexIterations := state.budget.used
    incumbentUpdates := state.incumbent.updates }
  if state.problem.settings.verbose then
    let stats := state.problem.stats
    say .info (s!"{stats.nodesExplored} subproblems examined, " ++
      s!"max tree size {stats.maxActiveNodes}, {stats.cutsAdded} cuts applied")
  modify fun current => { current with
    problem := { current.problem with
      bound := finalBound state
      solution := (state.incumbent.best.map (·.values)).or current.problem.solution
      optimum := (state.incumbent.best.map (·.objective)).or current.problem.optimum } }
  return finalStatus state limit

end MixedInteger.Search
