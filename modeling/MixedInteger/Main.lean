import MixedInteger.CommandLine.Report

/-!
The command line program: read a model, solve it on the wall clock, print the report.
Everything it prints is decided by the library; here the clock is looked at and files
and streams are touched.
-/
namespace MixedInteger.CommandLine

variable {α : Type} [Scalar α]

/-- Advance a search until it ends, with a look at the clock before every step. -/
partial def advanceOnClock (started : Nat) (state : Search.State α) :
    IO (EStateM.Result Failure (Search.State α) (Option SolveStatus)) := do
  let now ← IO.monoNanosNow
  match (Search.advance (now - started)).run state with
  | .ok .more next => advanceOnClock started next
  | .ok .done next => return .ok none next
  | .ok (.stopped status) next => return .ok (some status) next
  | .error cause next => return .error cause next

/-- Solve a problem on the wall clock. -/
def solveOnClock (problem : Problem α) : IO (Ended α) := do
  let started ← IO.monoNanosNow
  match Search.prepare.run { problem } with
  | .error cause state => return .ofResult (.error cause state)
  | .ok (some status) state => return .ofResult ((Search.settle status).run state)
  | .ok none state =>
    match ← advanceOnClock started state with
    | .error cause reached => return .ofResult (.error cause reached)
    | .ok limit reached =>
      return .ofResult ((Search.conclude limit >>= Search.settle).run reached)

/-- Solve a model in the arithmetic `α` on the wall clock. -/
def solveModelIn (α : Type) [Scalar α] (model : Model) (settings : Settings) :
    IO (Run Solution) := do
  match (model.toProblem settings : Except Refusal (Problem α)) with
  | .error cause => return Run.fail (.refused cause)
  | .ok problem => return (← solveOnClock problem).solution

/-- Solve a model on the wall clock; the solution carries the time it took. -/
def solveModel (model : Model) (settings : Settings) : IO (Run Solution) := do
  let started ← IO.monoMsNow
  let chosen := model.chooseArithmetic settings
  let solving ← match chosen.outcome with
    | .error cause => pure (Run.fail cause)
    | .ok true => solveModelIn Rat model settings
    | .ok false => solveModelIn Binary64 model settings
  let elapsed := (← IO.monoMsNow) - started
  return do
    Run.note chosen.journal
    let solution ← solving
    Engine.announce (.ofStatus solution.status)
    return model.inOwnSense { solution with stats.elapsedMs := elapsed }

/-- What a path leads to. -/
def contentsOf (path : String) : IO Mps.Contents := do
  try
    return .plain (← IO.FS.readBinFile path)
  catch
    | .noFileOrDirectory .. => return .missing
    | other => throw other

/-- Carry out a command line that was understood. -/
def carryOut (invocation : Invocation) : IO Transcript := do
  let reading := Mps.readPath invocation.model (← contentsOf invocation.model)
  let tell (journal : Journal) : IO Unit :=
    (journal.atLeast invocation.request.threshold).forM IO.eprintln
  tell reading.journal
  match reading.outcome, invocation.request.engine with
  | .error cause, _ => return unreadModel invocation.model cause
  | .ok named, .external => return unavailable named
  | .ok named, .inProcess =>
    let solving ← solveModel named.model invocation.request.settings
    tell solving.journal
    return finished named invocation.request.printSolution solving.outcome

/-- Carry out a command line; the result is the exit code. -/
def run (arguments : List String) : IO UInt32 := do
  match Invocation.ofWords arguments with
  | .error .help =>
    IO.println Misuse.help.message
    return 0
  | .error misuse =>
    IO.eprintln ("error: " ++ misuse.message)
    return 2
  | .ok invocation =>
    let result ← carryOut invocation
    result.output.forM IO.println
    result.errors.forM IO.eprintln
    return result.exitCode.toUInt32

end MixedInteger.CommandLine

def main (arguments : List String) : IO UInt32 := MixedInteger.CommandLine.run arguments
