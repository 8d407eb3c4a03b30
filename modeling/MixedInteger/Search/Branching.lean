import MixedInteger.Column
import MixedInteger.Settings

/-!
The choice of a branching column. Candidates are the columns with a fractional
value; the pseudocost rule ranks them by the losses seen so far and falls back to the
most fractional column while a candidate has no positive score.
-/
namespace MixedInteger.Search

/-- Fractional parts by column, columns ascending. -/
abbrev Fractions := List (Nat × Binary64)

/-- Set the fractional part of a column. -/
def Fractions.insert (column : Nat) (part : Binary64) : Fractions → Fractions
  | [] => [(column, part)]
  | (first, old) :: rest =>
    if column < first then (column, part) :: (first, old) :: rest
    else if column = first then (column, part) :: rest
    else (first, old) :: Fractions.insert column part rest

/-- Weight of the larger of the two directions' estimates. -/
def largerWeight : Binary64 := .ofFraction false 1667 10000

variable {α : Type} [Scalar α]

/-- The expected loss of branching on a column at a fractional part: a weighted mean
of both directions, zero until both have been observed. -/
def pseudocostScore (column : Column α) (part : Binary64) : Binary64 :=
  if !column.hasCosts then .zero
  else
    let down := part * column.downCost.average
    let up := (.one - part) * column.upCost.average
    (.one - largerWeight) * down.min up + largerWeight * down.max up

/-- The candidate with the largest score, the first of equals; the fallback as soon
as a score is not above zero. -/
def bestScore (columns : List (Column α)) (fallback : Option Nat) :
    Option (Nat × Binary64) → Fractions → Except Fault (Option Nat)
  | best, [] => .ok (best.map Prod.fst)
  | best, (index, part) :: rest =>
    match columns[index]? with
    | none => .error .outOfRange
    | some column =>
      let score := pseudocostScore column part
      if score ≤ .zero then .ok fallback
      else
        let better := best.all fun old => old.2 < score
        bestScore columns fallback (if better then some (index, score) else best) rest

/-- The column to branch on, none if there is no candidate. -/
def selectColumn (rule : BranchingRule) (fractional : Fractions) (mostFractional : Option Nat)
    (columns : List (Column α)) : Except Fault (Option Nat) :=
  match rule with
  | .pseudocost => bestScore columns mostFractional none fractional
  | .mostFractional => .ok mostFractional
  | .firstFractional => .ok (fractional.head?.map Prod.fst)
  | .lastFractional => .ok (fractional.getLast?.map Prod.fst)

end MixedInteger.Search
