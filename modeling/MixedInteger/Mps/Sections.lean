import MixedInteger.Mps.Complaint
import MixedInteger.Journal
import MixedInteger.Model
import MixedInteger.Text.Blank

/-!
The free MPS format, line by line. A line that starts in the first column opens a
section; an indented line is data of the current section. Coefficients of one place
add up; right-hand sides, ranges and bounds replace earlier ones.
-/
namespace MixedInteger.Mps

/-- The section that data lines belong to. -/
inductive Section where
  | start
  | name
  | sense
  | rows
  | columns
  | rhs
  | ranges
  | bounds
  deriving DecidableEq

/-- A declared constraint row with what is known of it. -/
structure RowEntry where
  name : String
  relation : Relation
  rhs : Option Number := none
  range : Option Number := none

/-- A declared column with its objective coefficient. -/
structure ColumnEntry where
  name : String
  column : ModelColumn
  cost : Option Number := none

/-- Everything read so far. -/
structure Draft where
  /-- The section that data lines belong to. -/
  place : Section := .start
  name : String := ""
  maximize : Bool := false
  objectiveRow : Option String := none
  rows : List RowEntry := []
  columns : List ColumnEntry := []
  /-- Matrix entries in the order of the file: row, column, value. -/
  entries : List (Nat × Nat × Number) := []
  constant : Number := .zero
  /-- Whether new columns are integral. -/
  integerBlock : Bool := false

/-- A position that values can be given for: a row, or the objective. -/
inductive Target where
  | objective
  | row (index : Nat)
  deriving DecidableEq

/-- Integer numerals of 64 bits are exact; any other numeral is a float. -/
def readNumber (word : String) : Except Complaint Number :=
  match readInt64? word with
  | some z => .ok (.ofInt z)
  | none =>
    match (Binary64.read? word).filter fun x => !x.isNaN with
    | some x => .ok (.float x)
    | none => .error (.invalidNumber word)

/-- Bound magnitudes from here on are infinite. -/
def infiniteBound : Binary64 := .ofNat (Nat.pow 10 30)

namespace Draft

def setSense (draft : Draft) (word : String) : Except Complaint Draft :=
  if word = "MAX" ∨ word = "MAXIMIZE" then .ok { draft with maximize := true }
  else if word = "MIN" ∨ word = "MINIMIZE" then .ok { draft with maximize := false }
  else .error (.unknownSense word)

/-- Open a section; `none` at the end marker. -/
def openSection (draft : Draft) (header : String) (arguments : List String) :
    Except Complaint (Option Draft) :=
  match header with
  | "NAME" => .ok (some { draft with place := .name, name := arguments.head?.getD "unnamed" })
  | "OBJSENSE" =>
    let opened := { draft with place := .sense }
    match arguments.head? with
    | some word => (opened.setSense word).map some
    | none => .ok (some opened)
  | "ROWS" => .ok (some { draft with place := .rows })
  | "COLUMNS" => .ok (some { draft with place := .columns })
  | "RHS" => .ok (some { draft with place := .rhs })
  | "RANGES" => .ok (some { draft with place := .ranges })
  | "BOUNDS" => .ok (some { draft with place := .bounds })
  | "ENDATA" => .ok none
  | other => .error (.unknownSection other)

/-- What a row name refers to. -/
def target (draft : Draft) (name : String) : Except Complaint Target :=
  if draft.objectiveRow = some name then .ok .objective
  else
    match draft.rows.findIdx? (·.name == name) with
    | some index => .ok (.row index)
    | none => .error (.unknownRow name)

def addRow (draft : Draft) (name : String) (relation : Relation) : Except Complaint Draft :=
  if draft.rows.any (·.name == name) then .error (.duplicateRow name)
  else .ok { draft with rows := draft.rows ++ [{ name, relation }] }

/-- A line of the row section. The first free row is the objective; later ones are
dropped with a message. -/
def readRow (line : Nat) (draft : Draft) : List String → Except Complaint (Draft × Journal)
  | ["N", name] =>
    match draft.objectiveRow with
    | none => .ok ({ draft with objectiveRow := some name }, [])
    | some _ => .ok (draft, [⟨.warn, s!"line {line}: dropping free row " ++ name⟩])
  | ["E", name] => (draft.addRow name .eq).map (·, [])
  | ["L", name] => (draft.addRow name .le).map (·, [])
  | ["G", name] => (draft.addRow name .ge).map (·, [])
  | [kind, _] => .error (.unknownRowType kind)
  | _ => .error .rowShape

/-- Pair up words, which come in an even number: an odd one at the end would be dropped. -/
def pairs : List String → List (String × String)
  | first :: second :: rest => (first, second) :: pairs rest
  | _ => []

/-- Add a coefficient of a column. -/
def addCoefficient (column : Nat) (draft : Draft) (pair : String × String) :
    Except Complaint Draft := do
  let value ← readNumber pair.2
  match ← draft.target pair.1 with
  | .row index => return { draft with entries := draft.entries ++ [(index, column, value)] }
  | .objective =>
    return { draft with columns := draft.columns.modify column fun entry =>
      { entry with cost := some ((entry.cost.map (·.add value)).getD value) } }

/-- The position of a column, which is declared if it is new. -/
def declareColumn (draft : Draft) (name : String) : Nat × Draft :=
  match draft.columns.findIdx? (·.name == name) with
  | some index => (index, draft)
  | none =>
    (draft.columns.length, { draft with columns := draft.columns ++
      [{ name, column := { integral := draft.integerBlock } }] })

/-- A marker line of the column section. -/
def readMarker (draft : Draft) (kind : Option String) : Except Complaint Draft :=
  match kind with
  | some "'INTORG'" => .ok { draft with integerBlock := true }
  | some "'INTEND'" => .ok { draft with integerBlock := false }
  | other => .error (.unknownMarker (other.getD ""))

/-- A line of the column section. -/
def readColumn (draft : Draft) (tokens : List String) : Except Complaint Draft :=
  if tokens[1]? = some "'MARKER'" then draft.readMarker tokens[2]?
  else
    match tokens with
    | name :: rest =>
      if rest.length < 2 ∨ rest.length % 2 = 1 then .error .columnShape
      else
        let (column, declared) := draft.declareColumn name
        (pairs rest).foldlM (addCoefficient column) declared
    | [] => .error .columnShape

/-- Row and value pairs after an optional set name. -/
def readPairs (draft : Draft) (tokens : List String) : Except Complaint (List (Target × Number)) :=
  let data := if tokens.length % 2 = 1 then tokens.drop 1 else tokens
  if data.isEmpty then .error .pairShape
  else (pairs data).mapM fun (name, word) => do
    return (← draft.target name, ← readNumber word)

/-- Set a right-hand side. On the objective it is the negated constant. -/
def setRhs (draft : Draft) (entry : Target × Number) : Draft :=
  match entry with
  | (.objective, value) => { draft with constant := value.neg }
  | (.row index, value) =>
    { draft with rows := draft.rows.modify index fun row => { row with rhs := some value } }

/-- Set the range of a row; the objective has none. -/
def setRange (draft : Draft) (entry : Target × Number) : Except Complaint Draft :=
  match entry with
  | (.objective, _) => .error .rangeOnObjective
  | (.row index, value) =>
    .ok { draft with rows := draft.rows.modify index fun row => { row with range := some value } }

/-- Whether a kind of bound comes with a value. -/
def isValued (kind : String) : Bool := ["UP", "LO", "FX", "LI", "UI"].contains kind

/-- The column and value words of a bound line, after an optional set name. -/
def boundWords (tokens : List String) : Except Complaint (String × Option String) :=
  match tokens with
  | [kind, _, column, value] => .ok (column, if isValued kind then some value else none)
  | [kind, first, second] =>
    if isValued kind then .ok (first, some second) else .ok (second, none)
  | [kind, column] => if isValued kind then .error (.malformedBound kind) else .ok (column, none)
  | tokens => .error (.malformedBound (tokens.head?.getD ""))

/-- Apply a bound to a column. A negative upper bound on a column that starts at zero
frees its lower bound, which the flag reports. -/
def applyBound (kind : String) (value : Option Number) (column : ModelColumn) :
    Except Complaint (ModelColumn × Bool) :=
  let raiseUpper : ModelColumn × Bool :=
    let frees := value.any (fun upper => upper.toBinary64 < .zero) &&
      column.lower.any Number.isZero
    ({ column with lower := if frees then none else column.lower, upper := value }, frees)
  match kind with
  | "UP" => .ok raiseUpper
  | "UI" => .ok ({ raiseUpper.1 with integral := true }, raiseUpper.2)
  | "LO" => .ok ({ column with lower := value }, false)
  | "LI" => .ok ({ column with lower := value, integral := true }, false)
  | "FX" => .ok ({ column with lower := value, upper := value }, false)
  | "FR" => .ok ({ column with lower := none, upper := none }, false)
  | "MI" => .ok ({ column with lower := none }, false)
  | "PL" => .ok ({ column with upper := none }, false)
  | "BV" => .ok (.binary, false)
  | other => .error (.unknownBoundType other)

/-- A line of the bound section. -/
def readBound (line : Nat) (draft : Draft) (tokens : List String) :
    Except Complaint (Draft × Journal) := do
  let kind := tokens.head?.getD ""
  let (name, word) ← boundWords tokens
  match draft.columns.findIdx? (·.name == name), draft.columns.find? (·.name == name) with
  | some index, some entry =>
    let stated ← word.mapM readNumber
    let value := stated.filter fun v => v.toBinary64.abs < infiniteBound
    let (column, frees) ← applyBound kind value entry.column
    let journal := if frees then
      [⟨.warn, s!"line {line}: negative upper bound on " ++ name ++ " frees its lower bound"⟩]
      else []
    return ({ draft with columns := draft.columns.set index { entry with column } }, journal)
  | _, _ => throw (.boundOnUnknownColumn name)

/-- A data line, read by the current section. -/
def readData (line : Nat) (draft : Draft) (tokens : List String) :
    Except Complaint (Draft × Journal) :=
  match draft.place with
  | .sense => (draft.setSense (tokens.head?.getD "")).map (·, [])
  | .rows => draft.readRow line tokens
  | .columns => (draft.readColumn tokens).map (·, [])
  | .rhs => (draft.readPairs tokens).map fun entries => (entries.foldl setRhs draft, [])
  | .ranges => do return (← (← draft.readPairs tokens).foldlM setRange draft, [])
  | .bounds => draft.readBound line tokens
  | .start | .name => .error .outsideSection

/-- Take one line in. Blank lines and lines that start with a star are skipped; the
result is `none` at the end marker. -/
def feed (line : Nat) (draft : Draft) (raw : List Char) :
    Except Complaint (Option Draft × Journal) :=
  match Text.words raw |>.map String.ofList, raw with
  | [], _ => .ok (some draft, [])
  | _, '*' :: _ => .ok (some draft, [])
  | header :: arguments, first :: _ =>
    if Text.isBlank first then
      (draft.readData line (header :: arguments)).map fun (next, journal) => (some next, journal)
    else (draft.openSection header arguments).map (·, [])
  | _, [] => .ok (some draft, [])

end Draft

end MixedInteger.Mps
