import MixedInteger.Failure
import MixedInteger.Range

/-!
Columns of a program: range, integrality, how a working column stands for a
structural one, how an eliminated column is recovered, and what branching on the
column has cost so far.
-/
namespace MixedInteger

/-- How a working column stands for the structural column it came from. -/
inductive Orientation where
  /-- The structural column itself. -/
  | positive
  /-- The negated structural column. -/
  | negated
  /-- The part above zero of a split column. -/
  | positivePart
  /-- The part below zero of a split column. -/
  | negativePart
  deriving DecidableEq

/-- The factor that maps a working value back to the structural one. -/
def Orientation.sign {α : Type} [Scalar α] : Orientation → α
  | positive | positivePart => 1
  | negated | negativePart => -1

/-- The side a branch moves a column to. -/
inductive Direction where
  | down
  | up
  deriving DecidableEq

/-- Running average of the objective loss per unit in one direction. -/
structure BranchCost where
  average : Binary64 := .zero
  count : Nat := 0

/-- Fold one loss over a distance into the average. Losses that are not finite and
distances that are not above zero are not counted. -/
def BranchCost.observe (cost : BranchCost) (loss distance : Binary64) : BranchCost :=
  if distance ≤ .zero ∨ ¬loss.isFinite then cost
  else
    let total := cost.average * .ofNat cost.count
    { average := (total + loss / distance) / .ofNat (cost.count + 1), count := cost.count + 1 }

/-- How an eliminated column follows from the others. Positions refer to the layout
at the time of elimination. -/
inductive Recovery (α : Type) where
  | constant (value : α)
  | affine (constant : α) (terms : List (Nat × α))

namespace Recovery

variable {α : Type} [Scalar α]

/-- Add the terms of an affine rule to a starting value. -/
def addTerms (values : List α) : α → List (Nat × α) → Except Fault α
  | total, [] => .ok total
  | total, (position, coefficient) :: terms =>
    match values[position]? with
    | some value => addTerms values (total + coefficient * value) terms
    | none => .error .outOfRange

/-- The recovered value, given the values of all columns of the layout. -/
def evaluate (values : List α) : Recovery α → Except Fault α
  | constant value => .ok value
  | affine start terms => addTerms values start terms

end Recovery

/-- A column of a program. -/
structure Column (α : Type) where
  range : Range α
  integral : Bool := false
  orientation : Orientation := .positive
  /-- Whether the column measures the slack of a row. -/
  slack : Bool := false
  /-- The structural column it stands for. -/
  origin : Option Nat := none
  /-- How it is recovered once it has been eliminated. -/
  recovery : Option (Recovery α) := none
  downCost : BranchCost := {}
  upCost : BranchCost := {}

namespace Column

variable {α : Type} [Scalar α]

def continuous (range : Range α) : Column α := { range }

def integer (range : Range α) : Column α := { range, integral := true }

/-- Count a loss observed on branching over this column. -/
def observe (column : Column α) (loss distance : Binary64) : Direction → Column α
  | .down => { column with downCost := column.downCost.observe loss distance }
  | .up => { column with upCost := column.upCost.observe loss distance }

/-- Whether both directions have been observed. -/
def hasCosts (column : Column α) : Bool := 0 < column.downCost.count && 0 < column.upCost.count

/-- The value a removed column takes: by its rule, or its lower bound, or zero. -/
def recover (column : Column α) (values : List α) : Except Fault α :=
  match column.recovery with
  | some rule => rule.evaluate values
  | none => .ok (column.range.lower.getD 0)

end Column

end MixedInteger
