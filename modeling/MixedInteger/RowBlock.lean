import MixedInteger.Row

/-!
Rows as three separate lists, as they come from outside, before their counts are
known to agree. A block can be frozen; the frozen rows stay as they were and are
what points are checked against.
-/
namespace MixedInteger

/-- Coefficients, right-hand sides and relations, with a frozen copy. -/
structure RowBlock (α : Type) where
  coefs : List (List α)
  rhs : List α
  relations : List Relation
  frozen : List (Row α) := []

namespace RowBlock

variable {α : Type} [Scalar α]

def rowCount (block : RowBlock α) : Nat := block.rhs.length

/-- The width of the first row. -/
def columnCount (block : RowBlock α) : Nat := (block.coefs.head?.map List.length).getD 0

/-- The rows for which all three parts exist. -/
def rows (block : RowBlock α) : List (Row α) :=
  ((block.coefs.zip block.relations).zip block.rhs).map fun ((coefs, relation), rhs) =>
    ⟨coefs, relation, rhs⟩

/-- Check that the three lists agree and every row has `expected` coefficients. -/
def validate (block : RowBlock α) (expected : Nat) : Except Malformed Unit :=
  if block.coefs.length ≠ block.rhs.length ∨ block.rhs.length ≠ block.relations.length then
    .error (.shape (.blocks block.coefs.length block.rhs.length block.relations.length))
  else
    match rowMismatch? expected block.coefs with
    | some mismatch => .error (.shape mismatch)
    | none => .ok ()

def pushRow (block : RowBlock α) (coefs : List α) (relation : Relation) (rhs : α) : RowBlock α :=
  { block with
    coefs := block.coefs ++ [coefs]
    relations := block.relations ++ [relation]
    rhs := block.rhs ++ [rhs] }

def removeRow (block : RowBlock α) (row : Nat) : Except Fault (RowBlock α) :=
  if row < block.coefs.length ∧ row < block.rhs.length ∧ row < block.relations.length then
    .ok { block with
      coefs := block.coefs.eraseIdx row
      rhs := block.rhs.eraseIdx row
      relations := block.relations.eraseIdx row }
  else .error .outOfRange

def removeColumn (block : RowBlock α) (column : Nat) : Except Fault (RowBlock α) :=
  if block.coefs.all (column < ·.length) then
    .ok { block with coefs := block.coefs.map (·.eraseIdx column) }
  else .error .outOfRange

/-- Append one coefficient to each row; rows without one stay as they are. -/
def pushColumn (block : RowBlock α) (column : List α) : RowBlock α :=
  let extended := block.coefs.zipWith (fun row a => row ++ [a]) column
  { block with coefs := extended ++ block.coefs.drop column.length }

def activity (block : RowBlock α) (row : Nat) (values : List α) : Except Fault α := do
  return dot (← inRange block.coefs[row]?) values

/-- How many coefficients of a column are not negligible. -/
def columnSupport (block : RowBlock α) (column : Nat) : Except Fault Nat := do
  let entries ← block.coefs.mapM fun row => inRange row[column]?
  return entries.countP fun a => !Scalar.isNegligible a

def freeze (block : RowBlock α) : RowBlock α := { block with frozen := block.rows }

/-- The first frozen row that a point violates. -/
def audit (block : RowBlock α) (values : List α) : Option Nat :=
  firstViolated block.frozen values

end RowBlock

end MixedInteger
