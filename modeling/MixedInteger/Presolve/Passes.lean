import MixedInteger.Journal
import MixedInteger.Presolve.Columns
import MixedInteger.Presolve.Rows

/-!
Presolve: passes over all reductions until one changes nothing, a verdict is
reached or the passes are used up.
-/
namespace MixedInteger.Presolve

/-- What presolve found. -/
inductive Status where
  /-- A program remains. -/
  | reduced
  /-- No point satisfies rows and ranges. -/
  | infeasible
  /-- A column in no row improves the objective without limit. -/
  | unbounded
  /-- Nothing remains; the log alone gives the solution. -/
  | solved
  deriving DecidableEq

def Status.name : Status → String
  | reduced => "Reduced"
  | infeasible => "Infeasible"
  | unbounded => "Unbounded"
  | solved => "Solved"

/-- The number of passes unless told otherwise. -/
def defaultPasses : Nat := 100

variable {α : Type} [Scalar α]

/-- One pass: every reduction once, in a fixed order. -/
def pass : Reduction α Bool := do
  let emptyRows ← removeEmptyRows
  let singletonRows ← removeSingletonRows
  let decidedRows ← checkRowActivities
  let impliedFree ← removeImpliedFreeColumns
  let tightened ← tightenBounds
  let rounded ← roundIntegralBounds
  let fixed ← removeFixedColumns
  let emptyColumns ← removeEmptyColumns
  return emptyRows || singletonRows || decidedRows || impliedFree || tightened || rounded ||
    fixed || emptyColumns

/-- What a reduced program amounts to. -/
def settled (state : State α) : Status :=
  if state.program.columns.isEmpty && state.program.rows.isEmpty then .solved else .reduced

/-- Run passes while they change something and some are left. -/
def passes : Nat → State α → Except Fault (Status × State α)
  | 0, state => .ok (settled state, state)
  | left + 1, state =>
    match pass.run { state with counts.passes := state.counts.passes + 1 } with
    | .ok true next => passes left next
    | .ok false next => .ok (settled next, next)
    | .error .infeasible next => .ok (.infeasible, next)
    | .error .unbounded next => .ok (.unbounded, next)
    | .error (.fault cause) _ => .error cause

/-- What presolve did, as a message. -/
def summary (status : Status) (counts : Counts) : String :=
  "presolve: " ++ status.name ++ s!" after {counts.passes} passes, " ++
    s!"{counts.rowsRemoved} rows and {counts.columnsRemoved} columns removed, " ++
    s!"{counts.boundsTightened} bounds tightened"

/-- Reduce a program, adding to a log of eliminated columns. -/
def run (maxPasses : Nat) (program : Program α) (removed : UndoLog α) :
    Run (Status × State α) := do
  let (status, state) ← Run.guard (passes maxPasses { program, removed })
  Run.say .debug (summary status state.counts)
  return (status, state)

end MixedInteger.Presolve
