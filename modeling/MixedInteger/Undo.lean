import MixedInteger.Column

/-!
The log of eliminated columns. Columns are put back in reverse order of their
removal, each at the position it was removed from and with the value its recovery
rule gives in the layout of that moment.
-/
namespace MixedInteger

/-- An eliminated column and its position at the time. -/
structure Removed (α : Type) where
  position : Nat
  column : Column α

/-- Eliminated columns, the latest first. -/
abbrev UndoLog (α : Type) := List (Removed α)

namespace UndoLog

variable {α : Type} [Scalar α]

def push (log : UndoLog α) (position : Nat) (column : Column α) : UndoLog α :=
  ⟨position, column⟩ :: log

/-- Put every eliminated column back into a vector of the remaining ones. -/
def replay : UndoLog α → List α → Except Fault (List α)
  | [], values => .ok values
  | entry :: earlier, values =>
    if entry.position ≤ values.length then do
      let opened := values.insertIdx entry.position 0
      let value ← entry.column.recover opened
      replay earlier (opened.set entry.position value)
    else .error .outOfRange

end UndoLog

end MixedInteger
