import MixedInteger.Mps.Sections
import MixedInteger.Text.Lines

/-!
MPS files: from the lines of a file to a dense model. Ranged rows become two rows, or
one equality if their limits agree.
-/
namespace MixedInteger.Mps

/-- A model read from a file, with its name and its sense. -/
structure NamedModel where
  name : String
  model : Model
  /-- The sense that the file states. It is implicit, since the model has a sense of its own. -/
  {maximize : Bool}

/-- The most entries that the dense matrix may have. -/
def maxEntries : Nat := 100000

/-- The lower and upper limit of a ranged row. -/
def rangeLimits (relation : Relation) (rhs range : Number) : Number × Number :=
  match relation with
  | .le => (rhs.add range.abs.neg, rhs)
  | .ge => (rhs, rhs.add range.abs)
  | .eq => if range.toBinary64 < .zero then (rhs.add range, rhs) else (rhs, rhs.add range)

/-- The model rows of a declared row with the given coefficients. -/
def modelRows (entry : RowEntry) (coefs : List Number) : List (Row Number) :=
  let rhs := entry.rhs.getD .zero
  match entry.range with
  | none => [⟨coefs, entry.relation, rhs⟩]
  | some range =>
    let (low, high) := rangeLimits entry.relation rhs range
    if low.same high then [⟨coefs, .eq, low⟩] else [⟨coefs, .ge, low⟩, ⟨coefs, .le, high⟩]

namespace Draft

/-- Add one entry to the dense matrix. -/
def addEntry (matrix : List (List Number)) (entry : Nat × Nat × Number) : List (List Number) :=
  matrix.modify entry.1 fun row => row.modify entry.2.1 fun old => old.add entry.2.2

/-- The dense matrix of all entries. -/
def matrix (draft : Draft) : List (List Number) :=
  let zero := draft.columns.map fun _ => Number.zero
  draft.entries.foldl addEntry (draft.rows.map fun _ => zero)

/-- The model of a complete draft. -/
def toModel (draft : Draft) : Model where
  objective := draft.columns.map fun entry => entry.cost.getD .zero
  constant := draft.constant
  rows := ((draft.rows.zip draft.matrix).map fun (entry, coefs) => modelRows entry coefs).flatten
  columns := draft.columns.map (·.column)
  maximize := draft.maximize

/-- The model of a complete draft, as the file states it. -/
def named (draft : Draft) : NamedModel where
  name := draft.name
  model := draft.toModel
  maximize := draft.maximize

/-- Close a draft, unless its matrix is too large. -/
def finish (draft : Draft) : Except Refusal NamedModel :=
  if maxEntries < draft.rows.length * draft.columns.length then
    .error (.tooLarge draft.rows.length draft.columns.length)
  else .ok draft.named

end Draft

/-- Read lines until the end marker or the last line. -/
def readLines (draft : Draft) : Nat → List (Option String) → Run Draft
  | _, [] => pure draft
  | _, none :: _ => Run.fail (.unreadable .invalidText)
  | line, some text :: rest =>
    match draft.feed line text.toList with
    | .error cause => Run.fail (.parse line cause)
    | .ok (none, journal) => do
      Run.note journal
      return draft
    | .ok (some next, journal) => do
      Run.note journal
      readLines next (line + 1) rest

/-- Read a model from the lines of a file. -/
def parse (lines : List (Option String)) : Run NamedModel := do
  let draft ← readLines {} 1 lines
  Run.lift (draft.finish.mapError .refused)

/-- What a file holds. -/
inductive Contents where
  /-- There is no such file. -/
  | missing
  | plain (bytes : ByteArray)
  /-- A compressed file, with the bytes it decompresses to. -/
  | compressed (bytes : ByteArray)

/-- Whether a file name has the extension of compressed files: the part after the
last point, which must not be the first character. -/
def hasCompressedName (path : String) : Bool :=
  let base := (path.toList.reverse.takeWhile (· ≠ '/')).reverse
  base.length > 3 && base.drop (base.length - 3) = ['.', 'g', 'z']

/-- Read a model from a file; compressed files are known by their name. -/
def readPath (path : String) : Contents → Run NamedModel
  | .missing => Run.fail (.unreadable .missing)
  | .plain bytes =>
    if hasCompressedName path then Run.fail (.unreadable .notCompressed)
    else parse (Text.lines bytes)
  | .compressed bytes =>
    if hasCompressedName path then parse (Text.lines bytes)
    else Run.fail (.unreadable .invalidText)

end MixedInteger.Mps
