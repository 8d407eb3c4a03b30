import MixedInteger.Clock
import MixedInteger.Column
import MixedInteger.CommandLine.Invocation
import MixedInteger.CommandLine.Report
import MixedInteger.Cut.Gomory
import MixedInteger.Engine
import MixedInteger.Failure
import MixedInteger.Journal
import MixedInteger.Main
import MixedInteger.Model
import MixedInteger.Mps.Complaint
import MixedInteger.Mps.File
import MixedInteger.Mps.Sections
import MixedInteger.Number.Basic
import MixedInteger.Number.Binary64
import MixedInteger.Number.Decimal
import MixedInteger.Number.Nearest
import MixedInteger.Presolve.Activity
import MixedInteger.Presolve.Bounds
import MixedInteger.Presolve.Columns
import MixedInteger.Presolve.Passes
import MixedInteger.Presolve.Reduction
import MixedInteger.Presolve.Rows
import MixedInteger.Problem
import MixedInteger.Program
import MixedInteger.Proofs.Completion
import MixedInteger.Proofs.Cut.ProgramSpace
import MixedInteger.Proofs.Cut.Rounds
import MixedInteger.Proofs.Cut.Strengthening
import MixedInteger.Proofs.Cut.Validity
import MixedInteger.Proofs.Ending
import MixedInteger.Proofs.Exact
import MixedInteger.Proofs.Feasible
import MixedInteger.Proofs.LinearForm
import MixedInteger.Proofs.Lists
import MixedInteger.Proofs.Meaning
import MixedInteger.Proofs.Mps.DataLines
import MixedInteger.Proofs.Mps.Exchange
import MixedInteger.Proofs.Mps.FreeRows
import MixedInteger.Proofs.Mps.LineOrder
import MixedInteger.Proofs.Mps.Progress
import MixedInteger.Proofs.Mps.Reading
import MixedInteger.Proofs.Mps.Rendering
import MixedInteger.Proofs.Mps.RoundTrip
import MixedInteger.Proofs.Mps.Shape
import MixedInteger.Proofs.Number.FractionWords
import MixedInteger.Proofs.Number.IntegerWords
import MixedInteger.Proofs.Number.Numerals
import MixedInteger.Proofs.Outcome
import MixedInteger.Proofs.Presolve.Accounts
import MixedInteger.Proofs.Presolve.ActivityBounds
import MixedInteger.Proofs.Presolve.BoundTightening
import MixedInteger.Proofs.Presolve.ColumnRemoval
import MixedInteger.Proofs.Presolve.FixedPoint
import MixedInteger.Proofs.Presolve.Invariance
import MixedInteger.Proofs.Presolve.Narrowing
import MixedInteger.Proofs.Presolve.PassLimit
import MixedInteger.Proofs.Presolve.Refinement
import MixedInteger.Proofs.Presolve.Replay
import MixedInteger.Proofs.Presolve.RowRemoval
import MixedInteger.Proofs.Presolve.Soundness
import MixedInteger.Proofs.Presolve.Substitution
import MixedInteger.Proofs.Presolve.Survival
import MixedInteger.Proofs.Presolve.Tightness
import MixedInteger.Proofs.PrimitiveMultiple
import MixedInteger.Proofs.Recession
import MixedInteger.Proofs.Search.BoundedBelow
import MixedInteger.Proofs.Search.BranchingChoice
import MixedInteger.Proofs.Search.Children
import MixedInteger.Proofs.Search.Conclusion
import MixedInteger.Proofs.Search.Coverage
import MixedInteger.Proofs.Search.Exhaustion
import MixedInteger.Proofs.Search.Expansion
import MixedInteger.Proofs.Search.Filing
import MixedInteger.Proofs.Search.IntegerPoints
import MixedInteger.Proofs.Search.Limits
import MixedInteger.Proofs.Search.NodeContract
import MixedInteger.Proofs.Search.Partition
import MixedInteger.Proofs.Search.PoolGrowth
import MixedInteger.Proofs.Search.Preparation
import MixedInteger.Proofs.Search.Relaxation
import MixedInteger.Proofs.Search.Repair
import MixedInteger.Proofs.Search.RepairTrail
import MixedInteger.Proofs.Search.ReportedBound
import MixedInteger.Proofs.Search.Representation
import MixedInteger.Proofs.Search.Tally
import MixedInteger.Proofs.Search.WorkingForm
import MixedInteger.Proofs.Simplex.Artificials
import MixedInteger.Proofs.Simplex.Certificates
import MixedInteger.Proofs.Simplex.Charges
import MixedInteger.Proofs.Simplex.Coordinates
import MixedInteger.Proofs.Simplex.Correctness
import MixedInteger.Proofs.Simplex.Costs
import MixedInteger.Proofs.Simplex.CutRows
import MixedInteger.Proofs.Simplex.EqualityForm
import MixedInteger.Proofs.Simplex.Expulsion
import MixedInteger.Proofs.Simplex.Invariant
import MixedInteger.Proofs.Simplex.Iteration
import MixedInteger.Proofs.Simplex.Phases
import MixedInteger.Proofs.Simplex.Rays
import MixedInteger.Proofs.Simplex.Reoptimization
import MixedInteger.Proofs.Simplex.Resumption
import MixedInteger.Proofs.Simplex.RowOperations
import MixedInteger.Proofs.Simplex.Selection
import MixedInteger.Proofs.Simplex.Stalling
import MixedInteger.Proofs.Simplex.Termination
import MixedInteger.Proofs.Text.Lexing
import MixedInteger.Range
import MixedInteger.Relation
import MixedInteger.Rounding
import MixedInteger.Row
import MixedInteger.RowBlock
import MixedInteger.Scalar
import MixedInteger.Search.Branching
import MixedInteger.Search.Node
import MixedInteger.Search.Pool
import MixedInteger.Search.Tree
import MixedInteger.Settings
import MixedInteger.Simplex.Budget
import MixedInteger.Simplex.Iterate
import MixedInteger.Simplex.Optimize
import MixedInteger.Simplex.StandardForm
import MixedInteger.Simplex.Tableau
import MixedInteger.Solution
import MixedInteger.Solve
import MixedInteger.Text.Blank
import MixedInteger.Text.Extender
import MixedInteger.Text.Ignorable
import MixedInteger.Text.Lines
import MixedInteger.Text.Printable
import MixedInteger.Text.Quoted
import MixedInteger.Text.Spans
import MixedInteger.Undo
