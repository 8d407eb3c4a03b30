import MixedInteger.Journal
import MixedInteger.Program

/-!
Models as callers state them, with exact and floating numbers side by side, and
their conversion to a minimisation program in one arithmetic.
-/
namespace MixedInteger

/-- Bounds and integrality of a model column. -/
structure ModelColumn where
  lower : Option Number := some .zero
  upper : Option Number := none
  integral : Bool := false

/-- A column that takes zero or one. -/
def ModelColumn.binary : ModelColumn := ⟨some .zero, some (.ofInt 1), true⟩

/-- A mixed-integer linear model. -/
structure Model where
  objective : List Number
  constant : Number := .zero
  rows : List (Row Number) := []
  columns : List ModelColumn
  maximize : Bool := false

namespace Model

/-- Objective, constant, and the entries of every row. -/
def coefficients (model : Model) : List Number :=
  model.objective ++ [model.constant] ++ model.rows.flatMap fun row => row.coefs ++ [row.rhs]

/-- The finite and infinite bounds that are stated. -/
def bounds (model : Model) : List Number :=
  model.columns.flatMap fun column => column.lower.toList ++ column.upper.toList

/-- Every number of the model. -/
def numbers (model : Model) : List Number := model.coefficients ++ model.bounds

/-- Check counts, then values. -/
def validate (model : Model) : Except Refusal Unit :=
  let columns := model.columns.length
  if model.objective.length ≠ columns then
    .error (.objective model.objective.length columns)
  else
    match rowMismatch? columns (model.rows.map Row.coefs) with
    | some mismatch => .error (.shape mismatch)
    | none =>
      if !model.coefficients.all Number.isFinite then .error .notFinite
      else if model.bounds.any Number.isNaN then .error .nanBound
      else .ok ()

variable {α : Type} [Scalar α]

/-- A stated bound in one arithmetic; an infinite one is none. -/
def boundValue (bound : Option Number) : Option α :=
  (bound.filter Number.isFinite).map Scalar.ofNumber

/-- The minimisation program of a model, its objective negated for maximisation. -/
def toProgram (model : Model) : Except Refusal (Program α) := do
  model.validate
  let sign : α := if model.maximize then -1 else 1
  return {
    objective := model.objective.map fun c => sign * Scalar.ofNumber c
    constant := sign * Scalar.ofNumber model.constant
    rows := model.rows.map fun row =>
      ⟨row.coefs.map Scalar.ofNumber, row.relation, Scalar.ofNumber row.rhs⟩
    columns := model.columns.map fun column =>
      { range := ⟨boundValue column.lower, boundValue column.upper⟩, integral := column.integral } }

end Model

end MixedInteger
