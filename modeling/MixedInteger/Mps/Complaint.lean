/-!
What can be wrong with a line of an MPS file. Every complaint has one wording.
-/
namespace MixedInteger.Mps

/-- The reason a line is rejected. -/
inductive Complaint where
  | unknownSection (name : String)
  | outsideSection
  | unknownSense (word : String)
  | rowShape
  | unknownRowType (word : String)
  | duplicateRow (name : String)
  | unknownMarker (word : String)
  | columnShape
  | pairShape
  | rangeOnObjective
  | malformedBound (kind : String)
  | boundOnUnknownColumn (name : String)
  | unknownBoundType (kind : String)
  | unknownRow (name : String)
  | invalidNumber (word : String)
  deriving DecidableEq

def Complaint.message : Complaint → String
  | unknownSection name => "unknown section " ++ name
  | outsideSection => "data line outside of a section"
  | unknownSense word => "unknown objective sense " ++ word
  | rowShape => "expected row type and name"
  | unknownRowType word => "unknown row type " ++ word
  | duplicateRow name => "duplicate row " ++ name
  | unknownMarker word => "unknown marker " ++ word
  | columnShape => "expected a column name and row/value pairs"
  | pairShape => "expected row/value pairs"
  | rangeOnObjective => "range on the objective row"
  | malformedBound kind => "malformed " ++ kind ++ " bound"
  | boundOnUnknownColumn name => "bound on unknown column " ++ name
  | unknownBoundType kind => "unknown bound type " ++ kind
  | unknownRow name => "unknown row " ++ name
  | invalidNumber word => "invalid number " ++ word

end MixedInteger.Mps
