import MixedInteger.Failure

/-!
Time limits and report intervals, on elapsed time in nanoseconds.
-/
namespace MixedInteger.Clock

/-- Readings of a clock: the elapsed nanoseconds at each look. -/
abbrev Readings := Nat → Nat

/-- A clock that shows no time passing. -/
def stopped : Readings := fun _ => 0

def milliseconds (elapsed : Nat) : Nat := elapsed / 1000000

/-- Whether a limit in milliseconds has passed. -/
def exceeded (elapsed : Nat) (limit : Option Nat) : Bool := limit.any (· ≤ milliseconds elapsed)

/-- The nanoseconds between two reports at a frequency per second. A frequency that
is not above zero, or not finite, never reports; one so small that the interval is
no longer a time span of 64-bit seconds is a fault. -/
def reportInterval (frequency : Binary64) : Except Fault (Option Nat) :=
  if frequency.le .zero || !frequency.isFinite then .ok none
  else
    let period := Binary64.one / frequency
    let nanoseconds := roundedQuotient (period.magnitude.1 * Nat.pow 10 9) period.magnitude.2
    if !period.isFinite || Nat.pow 2 64 * Nat.pow 10 9 ≤ nanoseconds then .error .spanOverflow
    else .ok (some nanoseconds)

/-- Whether a report is due, given the time since the last one. -/
def reportDue (since : Nat) (frequency : Binary64) : Except Fault Bool := do
  return (← reportInterval frequency).any (· ≤ since)

end MixedInteger.Clock
