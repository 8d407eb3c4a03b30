import MixedInteger.Failure

/-!
Messages a solve leaves behind, and the type of computations that leave them. The
outcome of such a computation does not depend on its messages: `Run.outcome` turns
a sequence of runs into the same sequence of plain results.
-/
namespace MixedInteger

/-- How much a message matters, least first. -/
inductive Severity where
  | trace
  | debug
  | info
  | warn
  deriving DecidableEq

def Severity.rank : Severity → Nat
  | trace => 0
  | debug => 1
  | info => 2
  | warn => 3

def Severity.name : Severity → String
  | trace => "TRACE"
  | debug => "DEBUG"
  | info => "INFO"
  | warn => "WARN"

/-- The severity with a given option name. -/
def Severity.ofName? : String → Option Severity
  | "trace" => some trace
  | "debug" => some debug
  | "info" => some info
  | "warn" => some warn
  | _ => none

/-- One message of a journal. -/
structure Entry where
  severity : Severity
  text : String

/-- The message under the name of its severity. -/
def Entry.line (entry : Entry) : String := entry.severity.name ++ " " ++ entry.text

/-- Messages in the order they were left. -/
abbrev Journal := List Entry

/-- The lines of a journal that are at least this severe. -/
def Journal.atLeast (severity : Severity) (journal : Journal) : List String :=
  (journal.filter fun entry => severity.rank ≤ entry.severity.rank).map Entry.line

/-- A computation that leaves messages and ends with a value or a failure. The
messages left before a failure are kept. -/
structure Run (β : Type) where
  outcome : Except Failure β
  journal : Journal := []

namespace Run

variable {β γ : Type}

def fail (cause : Failure) : Run β := ⟨.error cause, []⟩

def lift : Except Failure β → Run β := fun outcome => ⟨outcome, []⟩

/-- A faulting computation as a run. -/
def guard : Except Fault β → Run β
  | .ok value => ⟨.ok value, []⟩
  | .error cause => fail (.fault cause)

def note (journal : Journal) : Run Unit := ⟨.ok (), journal⟩

/-- Leave a message. -/
def say (severity : Severity) (text : String) : Run Unit := note [⟨severity, text⟩]

protected def bind (first : Run β) (next : β → Run γ) : Run γ :=
  match first.outcome with
  | .ok value =>
    let rest := next value
    ⟨rest.outcome, first.journal ++ rest.journal⟩
  | .error cause => ⟨.error cause, first.journal⟩

instance : Monad Run where
  pure value := ⟨.ok value, []⟩
  bind := Run.bind

@[simp] theorem outcome_pure (value : β) : (pure value : Run β).outcome = .ok value := rfl

@[simp] theorem outcome_bind (first : Run β) (next : β → Run γ) :
    (first >>= next).outcome = first.outcome >>= fun value => (next value).outcome := by
  change (Run.bind first next).outcome = _
  unfold Run.bind
  cases first.outcome <;> rfl

@[simp] theorem outcome_note (journal : Journal) : (note journal).outcome = .ok () := rfl

end Run

end MixedInteger
