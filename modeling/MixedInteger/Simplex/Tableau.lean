import MixedInteger.Simplex.StandardForm

/-!
The simplex tableau. Column `j` carries `z j = x j - lower j`, or `upper j - z j`
when it is complemented, so that a nonbasic column always stands at zero. The
objective is `value + reduced · z`, with `reduced` zero on basic columns.

No operation here changes the problem: each keeps the solution set of the rows when read
through shift and orientation.
-/
namespace MixedInteger.Simplex

/-- A row of the tableau with the column that is basic in it. -/
structure TableauRow (α : Type) where
  coefs : List α
  rhs : α
  basic : Option Nat

/-- A column of the tableau. -/
structure TableauColumn (α : Type) where
  cost : α
  upper : Option α
  lower : α
  integral : Bool
  complemented : Bool := false

/-- A tableau between two iterations. -/
structure Tableau (α : Type) where
  rows : List (TableauRow α)
  columns : List (TableauColumn α)
  reduced : List α
  value : α
  constant : α
  /-- Whether `reduced` and `value` are those of the program's objective. -/
  costReady : Bool := false
  /-- Whether the lowest improving column enters. -/
  bland : Bool := false
  iterations : Nat := 0

variable {α : Type} [Scalar α]

/-- Zero in place of a negligible value, where arithmetic rounds. -/
def clean (x : α) : α :=
  if !Scalar.isExact α && Scalar.isNegligible x then 0 else x

/-- Subtract `factor` times a pivot row, entry by entry; entries past the end of the
pivot row stay. -/
def subtractMultiple (factor : α) : List α → List α → List α
  | entry :: entries, a :: pivot =>
    (if Scalar.isZero a then entry else clean (entry - factor * a)) ::
      subtractMultiple factor entries pivot
  | entries, _ => entries

namespace Tableau

/-- No column is basic yet. -/
def ofForm (form : StandardForm α) : Tableau α where
  rows := form.rows.map fun row => ⟨row.coefs, row.rhs, none⟩
  columns := form.columns.map fun column =>
    { cost := column.cost, upper := column.upper, lower := column.lower
      integral := column.integral }
  reduced := form.columns.map fun _ => 0
  value := 0
  constant := form.constant

def columnCount (tableau : Tableau α) : Nat := tableau.columns.length

def objectiveValue (tableau : Tableau α) : α := tableau.value + tableau.constant

def upperAt (tableau : Tableau α) (column : Nat) : Option α :=
  tableau.columns[column]?.bind (·.upper)

/-- The upper bound of the column that is basic in a row. -/
def basicUpper (tableau : Tableau α) (row : TableauRow α) : Option α :=
  row.basic.bind tableau.upperAt

/-- The oriented values of all columns: right-hand sides on basic ones. -/
def orientedValues (tableau : Tableau α) : List α :=
  tableau.rows.foldl (fun values row =>
    match row.basic with
    | some column => values.set column row.rhs
    | none => values) (List.replicate tableau.columnCount 0)

/-- The values of all columns in the program's space. -/
def solution (tableau : Tableau α) : List α :=
  tableau.columns.zipWith (fun column value =>
    match column.upper, column.complemented with
    | some upper, true => column.lower + (upper - value)
    | _, _ => column.lower + value) tableau.orientedValues

def entry (row : TableauRow α) (column : Nat) : α := row.coefs.getD column 0

/-- The pivot row scaled so that the pivot is one. -/
def scaledRow (row : TableauRow α) (column : Nat) : TableauRow α :=
  let pivot := entry row column
  let (coefs, rhs) :=
    if pivot == 1 then (row.coefs, row.rhs) else (row.coefs.map (· / pivot), row.rhs / pivot)
  ⟨coefs.set column 1, rhs, some column⟩

/-- Clear a column in a row by means of the pivot row. -/
def eliminateEntry (pivot : TableauRow α) (column : Nat) (row : TableauRow α) : TableauRow α :=
  let factor := entry row column
  if Scalar.isZero factor then row
  else { row with
    coefs := (subtractMultiple factor row.coefs pivot.coefs).set column 0
    rhs := clean (row.rhs - factor * pivot.rhs) }

/-- Make a column basic in a row. -/
def pivot (tableau : Tableau α) (row column : Nat) : Tableau α :=
  match tableau.rows[row]? with
  | none => tableau
  | some source =>
    let scaled := scaledRow source column
    let rows := tableau.rows.mapIdx fun index other =>
      if index = row then scaled else eliminateEntry scaled column other
    let factor := tableau.reduced.getD column 0
    let (reduced, value) :=
      if Scalar.isZero factor then (tableau.reduced, tableau.value)
      else (subtractMultiple factor tableau.reduced scaled.coefs,
        tableau.value + factor * scaled.rhs)
    { tableau with rows, reduced := reduced.set column 0, value }

/-- Toggle the orientation of a column. -/
def toggle (tableau : Tableau α) (column : Nat) : List (TableauColumn α) :=
  tableau.columns.modify column fun data => { data with complemented := !data.complemented }

/-- Move a nonbasic column to its other bound. -/
def flip (tableau : Tableau α) (column : Nat) : Tableau α :=
  match tableau.upperAt column with
  | none => tableau
  | some upper =>
    let flipRow (row : TableauRow α) : TableauRow α :=
      let a := entry row column
      if Scalar.isZero a then row
      else { row with coefs := row.coefs.set column (-a), rhs := clean (row.rhs - a * upper) }
    let cost := tableau.reduced.getD column 0
    { tableau with
      rows := tableau.rows.map flipRow
      columns := tableau.toggle column
      reduced := tableau.reduced.set column (-cost)
      value := tableau.value + cost * upper }

/-- Express a row through the complement of its basic column. -/
def complementBasic (tableau : Tableau α) (index : Nat) : Tableau α :=
  match tableau.rows[index]? with
  | none => tableau
  | some row =>
    match row.basic, tableau.basicUpper row with
    | some basic, some upper =>
      let coefs := row.coefs.mapIdx fun column a =>
        if column = basic ∨ Scalar.isZero a then a else -a
      { tableau with
        rows := tableau.rows.set index { row with coefs, rhs := upper - row.rhs }
        columns := tableau.toggle basic }
    | _, _ => tableau

/-- Negate both sides of a row. -/
def negateRow (tableau : Tableau α) (index : Nat) : Tableau α :=
  { tableau with rows := tableau.rows.modify index fun row =>
      { row with coefs := row.coefs.map (- ·), rhs := -row.rhs } }

/-- The program's costs in the current orientation, and the objective at zero. -/
def orientedCosts (tableau : Tableau α) : List α × α :=
  (tableau.columns.map fun column => if column.complemented then -column.cost else column.cost,
    tableau.columns.foldl (fun value column =>
      match column.complemented, column.upper with
      | true, some upper => value + column.cost * upper
      | _, _ => value) 0)

/-- Clear the reduced cost of a row's basic column. A basic column outside of the
tableau has none. -/
def clearReduced (state : List α × α) (row : TableauRow α) : Except Fault (List α × α) := do
  let (reduced, value) := state
  let some basic := row.basic | throw .outOfRange
  let some factor := reduced[basic]? | throw .outOfRange
  if Scalar.isZero factor then return state
  return ((subtractMultiple factor reduced row.coefs).set basic 0, value + factor * row.rhs)

/-- Take the reduced costs from the program's costs and the current basis. -/
def rebuildCosts (tableau : Tableau α) : Except Fault (Tableau α) := do
  let (reduced, value) ← tableau.rows.foldlM clearReduced tableau.orientedCosts
  return { tableau with reduced, value, costReady := true }

/-- Subtract a row from a cut row, which must reach as far as the row does. -/
def subtractFromCut (factor : α) : List α → List α → Except Fault (List α)
  | entries, [] => .ok entries
  | [], a :: row => if Scalar.isZero a then subtractFromCut factor [] row else .error .outOfRange
  | entry :: entries, a :: row => do
    let rest ← subtractFromCut factor entries row
    return (if Scalar.isZero a then entry else clean (entry - factor * a)) :: rest

/-- Express a cut row through the nonbasic columns, one basic column at a time. -/
def eliminateBasic (columns : Nat) (cut : List α × α) (row : TableauRow α) :
    Except Fault (List α × α) := do
  let (coefs, rhs) := cut
  match row.basic with
  | none => return cut
  | some basic =>
    let factor := coefs.getD basic 0
    if columns ≤ basic ∨ Scalar.isZero factor then return cut
    let reduced ← subtractFromCut factor coefs row.coefs
    return (reduced.set basic 0, rhs - factor * row.rhs)

/-- Append `coefs · z ≥ rhs` over the oriented columns. The row gets a basic slack
in a new column, whose position is returned. Coefficients past the last column are
dropped and missing ones are zero. -/
def addCut (tableau : Tableau α) (coefs : List α) (rhs : α) : Except Fault (Nat × Tableau α) := do
  let columns := tableau.columnCount
  let widened := tableau.rows.map fun row => { row with coefs := row.coefs ++ [0] }
  let negated := (coefs.take columns).map (- ·)
  let cut := negated ++ List.replicate (columns - negated.length) 0 ++ [1]
  let (cutCoefs, cutRhs) ← widened.foldlM (eliminateBasic columns) (cut, -rhs)
  return (columns, { tableau with
    rows := widened ++ [⟨cutCoefs, cutRhs, some columns⟩]
    columns := tableau.columns ++
      [{ cost := 0, upper := none, lower := 0, integral := false }]
    reduced := tableau.reduced ++ [0] })

end Tableau

end MixedInteger.Simplex
