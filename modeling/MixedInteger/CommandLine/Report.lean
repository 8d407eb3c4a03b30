import MixedInteger.CommandLine.Invocation
import MixedInteger.Engine
import MixedInteger.Mps.File
import MixedInteger.Text.Quoted

/-!
What a run prints: a line on the model, a framed summary of the solution, and on
demand the value of every column; or an error with its chain of causes.
-/
namespace MixedInteger.CommandLine

/-- The least severe messages that a run shows. -/
def Request.threshold (request : Request) : Severity :=
  match request.verbosity with
  | 0 => .warn
  | 1 => .info
  | _ => .debug

/-- What a run leaves on its two outputs. -/
structure Transcript where
  output : List String := []
  errors : List String := []
  exitCode : Nat := 0

/-- The line that frames the summary. -/
def frame : String := String.ofList (List.replicate 60 '=')

/-- One line on a model that was read. -/
def headline (named : Mps.NamedModel) : String :=
  let integral := named.model.columns.countP (·.integral)
  named.name ++ s!": {named.model.rows.length} rows, {named.model.columns.length} columns " ++
    s!"({integral} integer), " ++ (if named.maximize then "maximize" else "minimize")

/-- The objective, with an approximation of an exact one. -/
def objectiveText : Option Number → String
  | none => "-"
  | some (.exact value) =>
    (Number.exact value).text ++ " (~" ++ (Number.exact value).toBinary64.fixed 6 ++ ")"
  | some (.float value) => value.fixed 6

/-- What is left to gain, unless the solution is optimal. -/
def boundLines (solution : Solution) : List String :=
  if solution.status = .optimal then []
  else
    (solution.bound.map fun bound => "Bound:      " ++ bound.fixed 6).toList ++
      (solution.gap.map fun gap =>
        "Gap:        " ++ (.ofNat 100 * gap : Binary64).fixed 2 ++ "%").toList

/-- The value of every column. -/
def valueLines (solution : Solution) : List String :=
  solution.values.zipIdx.map fun (value, index) => s!"x[{index}] = " ++ value.text

/-- The summary of a solution. -/
def summary (solution : Solution) (printSolution : Bool) : List String :=
  let stats := solution.stats
  ["", frame, "Status:     " ++ solution.status.name,
    "Objective:  " ++ objectiveText solution.objective] ++
  boundLines solution ++
  [s!"Nodes:      {stats.nodesExplored} explored, {stats.nodesPruned} pruned",
    s!"Iterations: {stats.simplexIterations}",
    s!"Cuts:       {stats.cutsAdded} (bound +" ++ stats.cutImprovement.fixed 6 ++ ")",
    s!"Time:       {stats.elapsedMs} ms", frame] ++
  (if printSolution then valueLines solution else [])

/-- The causes of a failure, outermost first. -/
def causes : Failure → List String
  | .unreadable cause => [(Failure.unreadable cause).message, cause.message]
  | other => [other.message]

/-- An error and its causes, numbered if there are several. -/
def errorLines (context : String) (causes : List String) : List String :=
  let listed := match causes with
    | [single] => ["    " ++ single]
    | several => several.zipIdx.map fun (cause, index) => s!"    {index}: " ++ cause
  ["Error: " ++ context, "", "Caused by:"] ++ listed

/-- A run that ends with an error. -/
def failed (output : List String) (context : String) (causes : List String) : Transcript :=
  { output, errors := errorLines context causes, exitCode := 1 }

/-- The transcript of a model that could not be read. -/
def unreadModel (path : String) (cause : Failure) : Transcript :=
  failed [] ("Failed to read MPS file: " ++ Text.quoted path) (causes cause)

/-- The transcript of a model handed to an engine that this program does not have. -/
def unavailable (named : Mps.NamedModel) : Transcript :=
  failed [headline named] ("Solve failed for " ++ named.name) ["built without the good_lp feature"]

/-- The transcript of a model that was read, given the outcome of its solve. -/
def finished (named : Mps.NamedModel) (printSolution : Bool) :
    Except Failure Solution → Transcript
  | .error cause => failed [headline named] ("Solve failed for " ++ named.name) (causes cause)
  | .ok solution => { output := headline named :: summary solution printSolution }

/-- A whole run on a clock, given what the model's path leads to. -/
def execute (clock : Clock.Readings) (invocation : Invocation) (contents : Mps.Contents) :
    Transcript :=
  let request := invocation.request
  match (Mps.readPath invocation.model contents).outcome, request.engine with
  | .error cause, _ => unreadModel invocation.model cause
  | .ok named, .external => unavailable named
  | .ok named, .inProcess =>
    finished named request.printSolution (Engine.solve clock named.model request.settings).outcome

end MixedInteger.CommandLine
