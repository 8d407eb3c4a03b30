import MixedInteger.Solve

/-!
Staged solving: a model is taken in, run, and its outcome taken out.
-/
namespace MixedInteger

/-- The coarse outcome of a run. -/
inductive EngineStatus where
  | solved
  | infeasible
  | unbounded
  | limit
  deriving DecidableEq

def EngineStatus.name : EngineStatus → String
  | solved => "Solved"
  | infeasible => "Infeasible"
  | unbounded => "Unbounded"
  | limit => "Limit"

def EngineStatus.ofStatus : SolveStatus → EngineStatus
  | .optimal => solved
  | .infeasible => infeasible
  | .unbounded => unbounded
  | _ => limit

/-- A model taken in, with its outcome once it has been run. -/
structure Engine where
  model : Model
  settings : Settings
  outcome : Option Solution := none

namespace Engine

/-- What the engine is called in messages. -/
def name : String := "in-process"

/-- Take a model in; it must be well formed. -/
def load (model : Model) (settings : Settings) : Except Failure Engine :=
  (model.validate.mapError .refused).map fun _ => { model, settings }

/-- Solve the model. -/
def run (clock : Clock.Readings) (engine : Engine) : Run (EngineStatus × Engine) := do
  let solution ← engine.model.solve clock engine.settings
  return (.ofStatus solution.status, { engine with outcome := some solution })

/-- Take the outcome out; the engine must have been run. -/
def unload (engine : Engine) : Except Failure Solution :=
  match engine.outcome with
  | some solution => .ok solution
  | none => .error (.notRun name)

/-- Leave a message that a run has ended. -/
def announce (status : EngineStatus) : Run Unit :=
  Run.say .debug (name ++ " backend finished: " ++ status.name)

/-- All three stages. -/
def solve (clock : Clock.Readings) (model : Model) (settings : Settings) : Run Solution := do
  let engine ← Run.lift (load model settings)
  let (status, ran) ← engine.run clock
  announce status
  Run.lift ran.unload

end Engine

end MixedInteger
