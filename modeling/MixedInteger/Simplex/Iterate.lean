import MixedInteger.Simplex.Budget
import MixedInteger.Simplex.Tableau

/-!
Primal simplex iterations. The column with the most negative reduced cost enters;
after a step without progress the lowest improving column enters instead. Ties in
the ratio test prefer a bound flip, then the row with the lowest basic column.
-/
namespace MixedInteger.Simplex

/-- What gives way when a column enters. -/
inductive Leaving where
  /-- The entering column reaches its own upper bound. -/
  | flip
  /-- The basic column of a row reaches zero, or its upper bound. -/
  | row (index : Nat) (atUpper : Bool)
  deriving DecidableEq

variable {α : Type} [Scalar α]

namespace Tableau

/-- The first entry that is smaller than all before it, scanning for the least. -/
def leastReduced (best : Nat × α) (candidate : Nat × α) : Nat × α :=
  if candidate.2 < best.2 then candidate else best

/-- The column to enter among the first `count`; none at an optimum. -/
def entering (tableau : Tableau α) (count : Nat) : Option Nat :=
  let improving := ((tableau.reduced.take count).zipIdx.map fun (cost, column) =>
    (column, cost)).filter fun candidate => Scalar.isNeg candidate.2
  match improving with
  | [] => none
  | first :: rest =>
    if tableau.bland then some first.1 else some (rest.foldl leastReduced first).1

/-- How far the entering column may move before a row gives way, and whether its
basic column is then at its upper bound. -/
def rowRatio (tableau : Tableau α) (column : Nat) (row : TableauRow α) : Option (α × Bool) :=
  let a := entry row column
  if Scalar.epsilon < a then some (Scalar.clampZero row.rhs / a, false)
  else if a < -Scalar.epsilon then
    (tableau.basicUpper row).map fun upper => (Scalar.clampZero (upper - row.rhs) / -a, true)
  else none

/-- Whether the basic column of one row comes before that of another. -/
def basicBefore (row other : TableauRow α) : Bool :=
  match row.basic, other.basic with
  | some column, some best => column < best
  | some _, none => true
  | none, _ => false

/-- Whether a row's ratio beats the best one so far. -/
def beats (tableau : Tableau α) (row : TableauRow α) (ratio : α) : Option (α × Leaving) → Bool
  | none => true
  | some (best, .flip) => ratio < best - Scalar.epsilon
  | some (best, .row index _) =>
    ratio < best - Scalar.epsilon ||
      (Scalar.abs (ratio - best) ≤ Scalar.epsilon &&
        tableau.rows[index]?.any (basicBefore row))

/-- Take one row into account in the ratio test. -/
def considerRow (tableau : Tableau α) (column : Nat) (best : Option (α × Leaving))
    (indexed : TableauRow α × Nat) : Option (α × Leaving) :=
  match tableau.rowRatio column indexed.1 with
  | none => best
  | some (ratio, atUpper) =>
    if tableau.beats indexed.1 ratio best then some (ratio, .row indexed.2 atUpper) else best

/-- The ratio test: the step length and what gives way at it, or none if nothing
does. -/
def ratioTest (tableau : Tableau α) (column : Nat) : Option (α × Leaving) :=
  tableau.rows.zipIdx.foldl (tableau.considerRow column)
    ((tableau.upperAt column).map fun upper => (upper, .flip))

/-- Bring a column in and let the given one go. -/
def exchange (tableau : Tableau α) (column : Nat) : Leaving → Tableau α
  | .flip => tableau.flip column
  | .row index atUpper =>
    (if atUpper then tableau.complementBasic index else tableau).pivot index column

/-- One iteration with a given entering column; none if the objective is unbounded
in its direction. -/
def step (tableau : Tableau α) (column : Nat) : Option (Tableau α) :=
  (tableau.ratioTest column).map fun (_, leaving) =>
    let next := tableau.exchange column leaving
    { next with bland := !Scalar.isPos (tableau.value - next.value) }

/-- How a run of iterations ended. -/
inductive Ending where
  | optimal
  | unbounded
  | limit
  | unsettled
  deriving DecidableEq

/-- Iterate over the first `count` columns. The fuel is a bound on the number of
iterations. -/
def iterate (count : Nat) : Nat → Tableau α → Budget → Ending × Tableau α × Budget
  | 0, tableau, budget => (.unsettled, tableau, budget)
  | fuel + 1, tableau, budget =>
    match tableau.entering count with
    | none => (.optimal, tableau, budget)
    | some column =>
      match budget.tick with
      | none => (.limit, tableau, budget)
      | some charged =>
        let counted := { tableau with iterations := tableau.iterations + 1 }
        match counted.step column with
        | none => (.unbounded, counted, charged)
        | some next => iterate count fuel next charged

/-- A bound on the iterations without a repeated state: every row has one basic
column, every column one of two orientations, and the entering rule one of two
forms. A limit on iterations is added so that it is reached first. -/
def iterationBound (tableau : Tableau α) (budget : Budget) : Nat :=
  let width := tableau.reduced.length + 1
  2 * Nat.pow width tableau.rows.length * Nat.pow 2 tableau.columnCount + budget.limit.getD 0 + 1

end Tableau

end MixedInteger.Simplex
