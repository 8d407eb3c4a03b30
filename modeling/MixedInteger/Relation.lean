import MixedInteger.Scalar

/-!
The relation of a row to its right-hand side.
-/
namespace MixedInteger

/-- How a row's activity relates to its right-hand side. -/
inductive Relation where
  | le
  | eq
  | ge
  deriving DecidableEq

namespace Relation

variable {α : Type} [Scalar α]

/-- Whether the relation holds up to a tolerance. -/
def holdsWithin (relation : Relation) (lhs rhs tolerance : α) : Bool :=
  let difference := lhs - rhs
  match relation with
  | le => difference ≤ tolerance
  | ge => -tolerance ≤ difference
  | eq => Scalar.abs difference ≤ tolerance

/-- Whether the relation holds up to the feasibility tolerance. -/
def holds (relation : Relation) (lhs rhs : α) : Bool :=
  relation.holdsWithin lhs rhs Scalar.tolerance

/-- By how much the relation fails; zero if it holds. -/
def violation (relation : Relation) (lhs rhs : α) : α :=
  let difference := lhs - rhs
  match relation with
  | le => if Scalar.isPositive difference then difference else 0
  | ge => if Scalar.isNegative difference then -difference else 0
  | eq => Scalar.abs difference

/-- The relation after both sides are negated. -/
def flipped : Relation → Relation
  | le => ge
  | eq => eq
  | ge => le

def symbol : Relation → String
  | le => "<="
  | eq => "="
  | ge => ">="

def ofSymbol? : String → Option Relation
  | "<=" => some le
  | "=" => some eq
  | ">=" => some ge
  | _ => none

end Relation

end MixedInteger
