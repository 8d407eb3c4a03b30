import MixedInteger.Failure
import MixedInteger.Relation

/-!
Rows of a program: coefficients, a relation and a right-hand side.
-/
namespace MixedInteger

variable {α : Type} [Scalar α]

/-- The sum of products, taken from the left. -/
def dot (coefs values : List α) : α :=
  (coefs.zip values).foldl (fun total term => total + term.1 * term.2) 0

/-- A constraint `coefs · x relation rhs`. -/
structure Row (α : Type) where
  coefs : List α
  relation : Relation
  rhs : α

namespace Row

def activity (row : Row α) (values : List α) : α := dot row.coefs values

/-- Whether a point satisfies the row up to the feasibility tolerance. -/
def holds (row : Row α) (values : List α) : Bool :=
  row.relation.holds (row.activity values) row.rhs

def violation (row : Row α) (values : List α) : α :=
  row.relation.violation (row.activity values) row.rhs

/-- Whether a point satisfies the row up to a tolerance that grows with the
magnitude of the row's terms. -/
def holdsScaled (row : Row α) (values : List α) : Bool :=
  let scale := (row.coefs.zip values).foldl
    (fun total term => total + Scalar.abs (term.1 * term.2)) (Scalar.abs row.rhs)
  row.relation.holdsWithin (row.activity values) row.rhs (Scalar.tolerance * (1 + scale))

/-- The columns whose coefficient is not negligible, with the coefficient. -/
def support (row : Row α) : List (Nat × α) :=
  (row.coefs.zipIdx.map fun (a, j) => (j, a)).filter fun term => !Scalar.isNegligible term.2

def coef (row : Row α) (column : Nat) : Except Fault α := inRange row.coefs[column]?

end Row

/-- The first row that a point violates beyond the scaled tolerance. -/
def firstViolated (rows : List (Row α)) (values : List α) : Option Nat :=
  rows.findIdx? fun row => !row.holdsScaled values

/-- The first row whose coefficients do not number `expected`. -/
def rowMismatch? (expected : Nat) (rows : List (List α)) : Option Mismatch :=
  (rows.zipIdx.find? fun (coefs, _) => coefs.length != expected).map fun (coefs, index) =>
    .row index coefs.length expected

end MixedInteger
