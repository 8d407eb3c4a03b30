/-!
Iteration budgets: a count of simplex iterations with an optional limit, shared by
all the solves of one search.
-/
namespace MixedInteger.Simplex

/-- Iterations charged so far and how many there may be. -/
structure Budget where
  limit : Option Nat := none
  used : Nat := 0

namespace Budget

def exhausted (budget : Budget) : Bool := budget.limit.any (· ≤ budget.used)

/-- Charge one iteration; `none` once the limit is reached. -/
def tick (budget : Budget) : Option Budget :=
  if budget.exhausted then none else some { budget with used := budget.used + 1 }

end Budget

end MixedInteger.Simplex
