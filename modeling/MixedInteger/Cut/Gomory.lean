import MixedInteger.Simplex.Tableau

/-!
Gomory mixed-integer cuts. A row of an optimal tableau whose basic column is
integral at a fractional value gives an inequality that every integral point
satisfies and the current vertex does not. Cuts are stated over the oriented columns
of the tableau and, with orientation, shifts and slacks undone, over the columns of
the program.
-/
namespace MixedInteger.Cut

/-- Which cuts are kept. -/
structure Filter where
  /-- Least distance of the basic value from an integer. -/
  minAwayness : Binary64 := .ofFraction false 8 100
  /-- Least cosine, up to sign, between a cut and the objective. -/
  minCosine : Binary64 := .ofFraction false 86 100
  /-- Largest coefficient magnitude after scaling. -/
  maxMagnitude : Binary64 := .ofNat 1000000

/-- How many rows were tried and why cuts were rejected. -/
structure Counts where
  candidates : Nat := 0
  rejectedMagnitude : Nat := 0
  rejectedParallelism : Nat := 0

/-- One cut in both spaces. -/
structure GomoryCut (α : Type) where
  /-- `coefs · z ≥ rhs` over the tableau columns. -/
  coefs : List α
  rhs : α
  /-- `programCoefs · x ≥ programRhs` over the program columns. -/
  programCoefs : List α
  programRhs : α
  /-- The largest scaled coefficient magnitude. -/
  magnitude : Binary64

/-- A cut generator for one program. The slack of a cut that was added is
`coefs · x - rhs` in program columns; later cuts may mention it. -/
structure Generator (α : Type) where
  filter : Filter := {}
  program : Program α
  /-- The first tableau column that is the slack of a cut. -/
  base : Nat
  definitions : List (List α × α) := []
  counts : Counts := {}

variable {α : Type} [Scalar α]

/-- Divide, with division by an exact zero as a fault. -/
def divide (x y : α) : Except Fault α :=
  if Scalar.isExact α && Scalar.isZero y then .error .zeroDivisor else .ok (x / y)

/-- The coefficient that a nonbasic column gets in the cut of a row with fractional
part `f0`. -/
def coefficient (f0 : α) (integral : Bool) (a : α) : Except Fault α :=
  if Scalar.isNegligible a then .ok 0
  else if integral then
    let f := Scalar.fraction a
    if f ≤ f0 then divide f f0 else divide (1 - f) (1 - f0)
  else if Scalar.isPositive a then divide a f0
  else divide (-a) (1 - f0)

/-- The columns that are basic in some row. -/
def basicColumns (tableau : Simplex.Tableau α) : List Nat := tableau.rows.filterMap (·.basic)

/-- The cut of a row before scaling: one coefficient per column, then the right-hand
side one. -/
def rawCut (tableau : Simplex.Tableau α) (row : Simplex.TableauRow α) (f0 : α) :
    Except Fault (List α) := do
  let basic := basicColumns tableau
  let coefs ← tableau.columns.zipIdx.mapM fun (column, index) =>
    if basic.contains index then .ok 0
    else coefficient f0 column.integral (Simplex.Tableau.entry row index)
  return coefs ++ [1]

/-- Where arithmetic rounds, the right-hand side is relaxed by a relative tolerance. -/
def relax (rhs : α) : α :=
  if Scalar.isExact α then rhs
  else rhs - Scalar.tolerance * (if 1 < Scalar.abs rhs then Scalar.abs rhs else 1)

/-- A linear form and the right-hand side it is compared with. -/
abbrev Form (α : Type) := List α × α

namespace Generator

/-- Undo orientation and shift of one tableau column, or replace the slack of an
earlier cut by its definition. -/
def expand (generator : Generator α) (form : Form α)
    (term : α × Simplex.TableauColumn α × Nat) : Except Fault (Form α) := do
  let (x, b) := form
  let (g, column, index) := term
  if Scalar.isZero g then return form
  if index < generator.base then
    let some old := x[index]? | throw .outOfRange
    match column.complemented, column.upper with
    | true, some upper => return (x.set index (old - g), b - g * (upper + column.lower))
    | _, _ => return (x.set index (old + g), b + g * column.lower)
  match generator.definitions[index - generator.base]? with
  | some (d, e) =>
    let combined := x.zipWith (fun xj dj => xj + g * dj) d
    return (combined ++ x.drop d.length, b + g * e)
  | none => return form

/-- Replace one slack column of the program by the row it belongs to. -/
def eliminateSlack (program : Program α) (form : Form α) (indexed : Column α × Nat) : Form α :=
  let (x, b) := form
  let (column, index) := indexed
  let own := x.getD index 0
  if !column.slack || Scalar.isZero own then form
  else
    match program.rows.find? fun row => !Scalar.isZero (row.coefs.getD index 0) with
    | none => form
    | some row =>
      let factor := own / row.coefs.getD index 0
      let combined := x.zipWith (fun xj a =>
        if Scalar.isZero a then xj else xj - factor * a) row.coefs
      ((combined ++ x.drop row.coefs.length).set index 0, b - factor * row.rhs)

/-- A cut over the tableau columns as one over the program columns. -/
def toProgramSpace (generator : Generator α) (tableau : Simplex.Tableau α) (coefs : List α)
    (rhs : α) : Except Fault (Form α) := do
  let zero := List.replicate generator.program.columns.length 0
  let expanded ← (coefs.zip tableau.columns.zipIdx).foldlM generator.expand (zero, rhs)
  return generator.program.columns.zipIdx.foldl (eliminateSlack generator.program) expanded

/-- Whether a cut is parallel enough to the objective. Degenerate pairs pass. -/
def parallelEnough (generator : Generator α) (coefs : List α) : Bool :=
  let pairs := (coefs.zip generator.program.objective).map fun (a, c) =>
    (Scalar.toBinary64 a, Scalar.toBinary64 c)
  let sum (term : Binary64 × Binary64 → Binary64) : Binary64 :=
    pairs.foldl (fun total pair => total + term pair) .zero
  let product := sum fun (a, c) => a * c
  let cutNorm := sum fun (a, _) => a * a
  let objectiveNorm := sum fun (_, c) => c * c
  cutNorm == .zero || objectiveNorm == .zero ||
    generator.filter.minCosine ≤ (product / (cutNorm.sqrt * objectiveNorm.sqrt)).abs

/-- Derive and filter the cut of one row. -/
def derive (generator : Generator α) (tableau : Simplex.Tableau α) (row : Simplex.TableauRow α)
    (f0 : α) : Except Fault (Option (GomoryCut α) × Counts) := do
  let scaled := Scalar.scaleToIntegers (← rawCut tableau row f0)
  let magnitude := scaled.foldl
    (fun largest c => largest.max (Scalar.toBinary64 (Scalar.abs c))) Binary64.zero
  let counts := generator.counts
  if generator.filter.maxMagnitude < magnitude then
    return (none, { counts with rejectedMagnitude := counts.rejectedMagnitude + 1 })
  let coefs := scaled.dropLast
  let rhs := relax (scaled.getLastD 1)
  let (programCoefs, programRhs) ← generator.toProgramSpace tableau coefs rhs
  if generator.parallelEnough programCoefs then
    return (some { coefs, rhs, programCoefs, programRhs, magnitude }, counts)
  else
    return (none, { counts with rejectedParallelism := counts.rejectedParallelism + 1 })

/-- How far a fractional part is from an integer. -/
def awayness (f0 : α) : Binary64 :=
  let f := Scalar.toBinary64 f0
  f.min (.one - f)

/-- Whether a row can give a cut: its basic column is integral. -/
def isSource (tableau : Simplex.Tableau α) (row : Simplex.TableauRow α) : Bool :=
  row.basic.any fun basic => tableau.columns[basic]?.any (·.integral)

/-- Try one row, keeping the cut with the smaller magnitude. -/
def considerRow (tableau : Simplex.Tableau α) (state : Generator α × Option (GomoryCut α))
    (row : Simplex.TableauRow α) : Except Fault (Generator α × Option (GomoryCut α)) := do
  let (generator, best) := state
  let f0 := Scalar.fraction row.rhs
  if !isSource tableau row || awayness f0 < generator.filter.minAwayness then return state
  let tried := { generator with
    counts := { generator.counts with candidates := generator.counts.candidates + 1 } }
  let (found, counts) ← tried.derive tableau row f0
  let next := { tried with counts }
  match found with
  | some cut =>
    return (next, if best.all fun old => cut.magnitude < old.magnitude then some cut else best)
  | none => return (next, best)

/-- The cut of smallest magnitude over all source rows, the first of equals. -/
def generate (generator : Generator α) (tableau : Simplex.Tableau α) :
    Except Fault (Generator α × Option (GomoryCut α)) :=
  tableau.rows.foldlM (considerRow tableau) (generator, none)

/-- Remember a cut that was added to the tableau. -/
def record (generator : Generator α) (cut : GomoryCut α) : Generator α :=
  { generator with
    definitions := generator.definitions ++ [(cut.programCoefs, cut.programRhs)] }

end Generator

end MixedInteger.Cut
