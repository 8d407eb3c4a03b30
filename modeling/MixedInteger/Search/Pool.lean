import MixedInteger.Search.Node

/-!
The pool of nodes still to be branched on, in the order they were added.
-/
namespace MixedInteger.Search

/-- Open nodes, oldest first. -/
abbrev Pool (α : Type) := List (Node α)

namespace Pool

variable {α : Type} [Scalar α]

/-- The smallest relaxation value, infinity for an empty pool. -/
def bestBound (pool : Pool α) : Binary64 :=
  (pool.map (·.approx)).foldl Binary64.min .infinity

/-- The position with the least score, the first of equals. -/
def argmin (score : Node α → Binary64) (pool : Pool α) : Option Nat :=
  (pool.zipIdx.foldl (fun (best : Option (Nat × Binary64)) (node, index) =>
    let value := score node
    if best.all fun old => value < old.2 then some (index, value) else best) none).map Prod.fst

/-- How much a unit of infeasibility is expected to cost, judged by the root. -/
def projectionSlope (incumbent : Option Binary64) (root : Binary64 × Binary64) : Binary64 :=
  if .zero < root.2 then (incumbent.getD .zero - root.1) / root.2 else .zero

/-- The position of the next node. The root's bound and infeasibility enter the
projection. -/
def select (pool : Pool α) (selection : NodeSelection) (incumbent : Option Binary64)
    (root : Binary64 × Binary64) : Option Nat :=
  if pool.isEmpty then none
  else
    match selection, incumbent with
    | .breadthFirst, _ => some 0
    | .depthFirst, _ => some (pool.length - 1)
    | .hybrid, none => some (pool.length - 1)
    | .hybrid, some _ => pool.argmin (·.approx)
    | .bestBound, _ => pool.argmin (·.approx)
    | .bestProjection, _ =>
      let slope := projectionSlope incumbent root
      pool.argmin fun node => node.approx + slope * node.infeasibility

/-- Take the node at a position out. -/
def take? (pool : Pool α) (position : Nat) : Option (Node α × Pool α) :=
  pool[position]?.map fun node => (node, pool.eraseIdx position)

/-- Keep the nodes whose relaxation is below a value. -/
def prune (pool : Pool α) (value : α) : Pool α := pool.filter (·.optimum < value)

end Pool

end MixedInteger.Search
