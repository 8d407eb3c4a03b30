import MixedInteger.Program
import MixedInteger.Undo

/-!
The state that reductions work on, and the small steps they are made of. A
reduction says whether it changed the program, or stops with a verdict; the state
at that moment is kept either way.
-/
namespace MixedInteger.Presolve

/-- How often each kind of change was made. -/
structure Counts where
  passes : Nat := 0
  rowsRemoved : Nat := 0
  columnsRemoved : Nat := 0
  boundsTightened : Nat := 0
  deriving DecidableEq

/-- A program under reduction, with the columns eliminated so far. -/
structure State (α : Type) where
  program : Program α
  removed : UndoLog α
  counts : Counts := {}

/-- Why a pass stops early. -/
inductive Verdict where
  | infeasible
  | unbounded
  | fault (cause : Fault)
  deriving DecidableEq

/-- A step on the state that may stop with a verdict. -/
abbrev Reduction (α β : Type) := EStateM Verdict (State α) β

variable {α : Type} [Scalar α]

/-- A faulting calculation as a step. -/
def attempt {β : Type} : Except Fault β → Reduction α β
  | .ok value => pure value
  | .error cause => throw (.fault cause)

def rowAt (index : Nat) : Reduction α (Row α) := do
  attempt (inRange (← get).program.rows[index]?)

def columnAt (index : Nat) : Reduction α (Column α) := do
  attempt (inRange (← get).program.columns[index]?)

def objectiveAt (index : Nat) : Reduction α α := do
  attempt (inRange (← get).program.objective[index]?)

/-- Run a step at each position in turn; true if one of them changed something. -/
def sweep (step : Nat → Reduction α Bool) : List Nat → Reduction α Bool
  | [] => pure false
  | index :: rest => do
    let here ← step index
    let later ← sweep step rest
    return here || later

/-- Run a step at each of the first `count` positions, the last one first, so that
a step may remove what it is at. -/
def sweepDown (count : Nat) (step : Nat → Reduction α Bool) : Reduction α Bool :=
  sweep step (List.range count).reverse

/-- Give a column another range. -/
def setRange (index : Nat) (range : Range α) : Reduction α Unit :=
  modify fun state => { state with
    program.columns := state.program.columns.modify index fun column => { column with range } }

def countTightened : Reduction α Unit :=
  modify fun state => { state with counts.boundsTightened := state.counts.boundsTightened + 1 }

/-- Apply new bounds to a column and stop if its range becomes empty. -/
def tighten (index : Nat) (lower upper : Option α) : Reduction α Bool := do
  let range := (← columnAt index).range
  let raised := lower.any range.raises
  let first := lower.elim range range.tightenLower
  let lowered := upper.any first.lowers
  let second := upper.elim first first.tightenUpper
  setRange index second
  if second.isEmpty then throw .infeasible
  if raised || lowered then countTightened
  return raised || lowered

/-- Drop a row. -/
def removeRow (index : Nat) : Reduction α Unit :=
  modify fun state => { state with
    program.rows := state.program.rows.eraseIdx index
    counts.rowsRemoved := state.counts.rowsRemoved + 1 }

/-- Drop a column everywhere and log it with the rule that recovers it. -/
def removeColumn (index : Nat) (recovery : Recovery α) : Reduction α Unit := do
  let program := (← get).program
  let column ← columnAt index
  if index < program.objective.length ∧ program.rows.all (index < ·.coefs.length) then
    modify fun state => { state with
      program := { program with
        objective := program.objective.eraseIdx index
        rows := program.rows.map fun row => { row with coefs := row.coefs.eraseIdx index }
        columns := program.columns.eraseIdx index }
      removed := state.removed.push index { column with recovery := some recovery }
      counts.columnsRemoved := state.counts.columnsRemoved + 1 }
  else throw (.fault .outOfRange)

end MixedInteger.Presolve
