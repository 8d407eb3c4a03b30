import MixedInteger.Mps.Complaint
import MixedInteger.Number.Basic

/-!
Why an operation gives no answer. Causes are data; each has one wording, in the
`message` function of its type.
-/
namespace MixedInteger

/-- A calculation left the domain of one of its steps. -/
inductive Fault where
  /-- A position outside of a list. -/
  | outOfRange
  /-- A division by an exact zero. -/
  | zeroDivisor
  /-- A time span past the representable ones. -/
  | spanOverflow
  /-- An iteration that outran every bound on its length. -/
  | unsettled
  deriving DecidableEq

/-- Counts that should agree and do not. -/
inductive Mismatch where
  | blocks (rows rightHandSides relations : Nat)
  | row (index found expected : Nat)
  | objective (found expected : Nat)
  deriving DecidableEq

def Mismatch.message : Mismatch → String
  | blocks rows rightHandSides relations =>
    s!"{rows} rows, {rightHandSides} right-hand sides, {relations} relations"
  | row index found expected => s!"row {index} has {found} coefficients, expected {expected}"
  | objective found expected => s!"objective has {found} coefficients, expected {expected}"

/-- What is wrong with a linear program. -/
inductive Malformed where
  | shape (mismatch : Mismatch)
  /-- A column whose lower bound is above its upper bound. -/
  | emptyRange (column : Nat) (lower upper : Option Number)
  /-- A column without a finite lower bound where one is needed. -/
  | freeColumn (column : Nat)

/-- An optional bound with its representation showing. -/
def boundDetail : Option Number → String
  | none => "None"
  | some value => "Some(" ++ value.detail ++ ")"

def Malformed.message : Malformed → String
  | shape mismatch => "Dimension mismatch: " ++ mismatch.message
  | emptyRange column lower upper =>
    s!"Variable {column} has empty range [" ++ boundDetail lower ++ ", " ++ boundDetail upper ++ "]"
  | freeColumn column => s!"Column {column} has no finite lower bound"

/-- Why a problem is refused before it is solved. -/
inductive Refusal where
  | program (cause : Malformed)
  | shape (mismatch : Mismatch)
  | objective (found columns : Nat)
  | notFinite
  | nanBound
  /-- More entries than a dense model may have. -/
  | tooLarge (rows columns : Nat)

def Refusal.message : Refusal → String
  | program cause => cause.message
  | shape mismatch => mismatch.message
  | objective found columns =>
    s!"objective has {found} coefficients but there are {columns} columns"
  | notFinite => "objective and constraint values must be finite"
  | nanBound => "NaN variable bound"
  | tooLarge rows columns => s!"{rows} rows x {columns} columns is too large for the dense model"

/-- A state that a sound search does not reach. -/
inductive Breakdown where
  | rootRelaxation
  | nodeRelaxation
  | unboundedChild
  | violatedRow (row : Nat)
  | violatedColumn (column : Nat)
  deriving DecidableEq

def Breakdown.message : Breakdown → String
  | rootRelaxation => "numerical breakdown in the root relaxation"
  | nodeRelaxation => "numerical breakdown in a node relaxation"
  | unboundedChild => "unbounded relaxation below a bounded root"
  | violatedRow row => s!"candidate solution violates row {row}"
  | violatedColumn column =>
    s!"candidate solution violates the bounds or integrality of column {column}"

/-- Why a file cannot be read. -/
inductive Unreadable where
  | invalidText
  | missing
  | notCompressed
  deriving DecidableEq

def Unreadable.message : Unreadable → String
  | invalidText => "stream did not contain valid UTF-8"
  | missing => "No such file or directory (os error 2)"
  | notCompressed => "invalid gzip header"

/-- Why an operation gives no answer. -/
inductive Failure where
  | malformed (cause : Malformed)
  | refused (cause : Refusal)
  /-- A line of a model file is rejected; lines count from one. -/
  | parse (line : Nat) (cause : Mps.Complaint)
  | unreadable (cause : Unreadable)
  | internal (cause : Breakdown)
  /-- An outcome was asked for before the run. -/
  | notRun (engine : String)
  | fault (cause : Fault)

def Failure.message : Failure → String
  | malformed cause => cause.message
  | refused cause => "Invalid problem: " ++ cause.message
  | parse line cause => s!"Parse error at line {line}: " ++ cause.message
  | unreadable cause => "I/O error: " ++ cause.message
  | internal cause => "Internal error: " ++ cause.message
  | notRun engine => "Backend error: " ++ engine ++ " backend has not been run"
  | fault _ => ""

/-- Read an optional value, with a position outside of its list as a fault. -/
def inRange {β : Type} : Option β → Except Fault β
  | some value => .ok value
  | none => .error .outOfRange

end MixedInteger
