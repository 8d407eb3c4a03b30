import MixedInteger.Mps.File
import MixedInteger.Proofs.Number.Numerals

/-! The canonical text of a model, and what reading a line of it comes to. Rows and columns are named
by their number, every entry has a line of its own, and numbers are written as they are. The
reader gets the words of each line back, so that a text is read line by line: what a list of
lines does to a draft is put together from what its parts do. -/
namespace MixedInteger.Mps

/-- A line of a file: the header of a section, or data of one. -/
inductive Line where
  | header (words : List String)
  | data (words : List String)

def Line.text : Line → String
  | header words => " ".intercalate words
  | data words => " " ++ " ".intercalate words

def rowName (index : Nat) : String := "R" ++ toString index

def columnName (index : Nat) : String := "C" ++ toString index

def rowKind : Relation → String
  | .le => "L"
  | .eq => "E"
  | .ge => "G"

/-- A column with its coefficients, between markers if it is integral. -/
def columnLines (model : Model) (index : Nat) (column : ModelColumn) : List Line :=
  (if column.integral then [.data ["M", "'MARKER'", "'INTORG'"]] else []) ++
    .data [columnName index, "OBJ", (model.objective.getD index .zero).text] ::
    model.rows.mapIdx (fun place row =>
      .data [columnName index, rowName place, (row.coefs.getD index .zero).text]) ++
    if column.integral then [.data ["M", "'MARKER'", "'INTEND'"]] else []

def upperLine (index : Nat) : Option Number → Line
  | some upper => .data ["UP", "BND", columnName index, upper.text]
  | none => .data ["PL", "BND", columnName index]

def lowerLine (index : Nat) : Option Number → Line
  | some lower => .data ["LO", "BND", columnName index, lower.text]
  | none => .data ["MI", "BND", columnName index]

/-- The bounds of a column, the upper one first: a negative one may free the lower bound, which is
stated after it. -/
def boundLines (index : Nat) (column : ModelColumn) : List Line :=
  [upperLine index column.upper, lowerLine index column.lower]

/-- The lines of the canonical text of a model. -/
def modelLines (model : Model) : List Line :=
  [.header ["NAME", "P"], .header ["OBJSENSE", if model.maximize then "MAX" else "MIN"],
    .header ["ROWS"], .data ["N", "OBJ"]] ++
  model.rows.mapIdx (fun index row => .data [rowKind row.relation, rowName index]) ++
  [.header ["COLUMNS"]] ++ (model.columns.mapIdx (columnLines model)).flatten ++
  [.header ["RHS"], .data ["RHS", "OBJ", model.constant.neg.text]] ++
  model.rows.mapIdx (fun index row => .data ["RHS", rowName index, row.rhs.text]) ++
  [.header ["BOUNDS"]] ++ (model.columns.mapIdx boundLines).flatten ++ [.header ["ENDATA"]]

/-- The canonical text of a model. -/
def render (model : Model) : String :=
  String.join ((modelLines model).map fun line => line.text ++ "\n")

/-! ### One line -/

open Text (isWord isPlain)

theorem toList_data (parts : List String) :
    (Line.data parts).text.toList = ' ' :: (" ".intercalate parts).toList := by
  rw [Line.text, String.toList_append]
  rfl

theorem isPlain_data {parts : List String} (all : ∀ part ∈ parts, isWord part = true) :
    isPlain (Line.data parts).text = true := by
  rw [isPlain, toList_data, List.all_cons]
  exact Text.isPlain_intercalate all

/-- A data line is read by the section it stands in. -/
theorem feed_data {first : String} {rest : List String}
    (all : ∀ part ∈ first :: rest, isWord part = true) (draft : Draft) (number : Nat) :
    draft.feed number (Line.data (first :: rest)).text.toList =
      (draft.readData number (first :: rest)).map fun (next, journal) => (some next, journal) := by
  have split : (Text.words (' ' :: (" ".intercalate (first :: rest)).toList)).map String.ofList =
      first :: rest := by
    rw [Text.words, if_pos (by decide)]
    exact Text.words_intercalate all
  rw [toList_data]
  unfold Draft.feed
  rw [split]
  exact if_pos (by decide)

/-- A header opens its section. -/
theorem feed_header {first : String} {rest : List String}
    (all : ∀ part ∈ first :: rest, isWord part = true) (uncommented : first.toList.head? ≠ some '*')
    (draft : Draft) (number : Nat) : draft.feed number (Line.header (first :: rest)).text.toList =
      (draft.openSection first rest).map (·, []) := by
  have word := all first List.mem_cons_self
  simp only [isWord, Bool.and_eq_true, Bool.not_eq_true', List.isEmpty_eq_false_iff,
    List.all_eq_true] at word
  obtain ⟨c, tail, spelled⟩ := List.exists_cons_of_ne_nil word.1
  obtain ⟨more, joined⟩ : ∃ more, (Line.header (first :: rest)).text.toList = c :: more := by
    cases rest with
    | nil => exact ⟨tail, by rw [Line.text, String.intercalate_singleton, spelled]⟩
    | cons second rest =>
      rw [Line.text, String.intercalate_cons_cons, String.toList_append, String.toList_append, spelled]
      exact ⟨_, rfl⟩
  have split : (Text.words (c :: more)).map String.ofList = first :: rest := by
    rw [← joined]
    exact Text.words_intercalate all
  have visible : Text.isBlank c = false :=
    Text.isBlank_eq_false (word.2 c (spelled ▸ List.mem_cons_self))
  have letter : c ≠ '*' := by
    rintro rfl
    exact uncommented (by rw [spelled]; rfl)
  rw [joined]
  unfold Draft.feed
  rw [split]
  split
  · rename_i impossible
    cases impossible
  · rename_i star _
    exact absurd (List.cons.inj star).1 letter
  · rename_i same start
    obtain ⟨rfl, rfl⟩ := List.cons.inj same
    obtain ⟨rfl, -⟩ := List.cons.inj start
    rw [visible, if_neg Bool.false_ne_true]
  · rename_i impossible _
    cases impossible

/-! ### Line by line -/

/-- The lines are plain, and reading them takes one draft to the other, wherever they stand in a
file. -/
structure Reads (draft : Draft) (lines : List Line) (next : Draft) : Prop where
  plain : ∀ line ∈ lines, isPlain line.text = true
  read : ∀ (number : Nat) (rest : List (Option String)),
    (readLines draft number (lines.map (fun line => some line.text) ++ rest)).outcome =
      (readLines next (number + lines.length) rest).outcome

namespace Reads

variable {draft next last : Draft}

theorem refl (draft : Draft) : Reads draft [] draft where
  plain := by simp
  read _ _ := rfl

theorem append {lines more : List Line} (first : Reads draft lines next)
    (second : Reads next more last) : Reads draft (lines ++ more) last where
  plain := List.forall_mem_append.mpr ⟨first.plain, second.plain⟩
  read number rest := by
    rw [List.map_append, List.append_assoc, first.read, second.read, List.length_append, Nat.add_assoc]

theorem single {line : Line} (plain : isPlain line.text = true)
    (fed : ∀ number, ∃ journal, draft.feed number line.text.toList = .ok (some next, journal)) :
    Reads draft [line] next where
  plain := List.forall_mem_singleton.mpr plain
  read number rest := by
    obtain ⟨journal, fed⟩ := fed number
    simp only [List.map_cons, List.map_nil, List.cons_append, List.nil_append, readLines, fed,
      Run.outcome_bind, Run.outcome_note, List.length_cons, List.length_nil]
    rfl

/-- A data line of words. -/
theorem data {first : String} {words : List String}
    (all : ∀ word ∈ first :: words, isWord word = true)
    (read : ∀ number, ∃ journal, draft.readData number (first :: words) = .ok (next, journal)) :
    Reads draft [.data (first :: words)] next := by
  refine single (isPlain_data all) fun number => ?_
  obtain ⟨journal, read⟩ := read number
  exact ⟨journal, by rw [feed_data all, read]; rfl⟩

/-- The header of a section. -/
theorem header {first : String} {words : List String}
    (all : ∀ word ∈ first :: words, isWord word = true) (uncommented : first.toList.head? ≠ some '*')
    (opened : draft.openSection first words = .ok (some next)) :
    Reads draft [.header (first :: words)] next :=
  single (Text.isPlain_intercalate all) fun number =>
    ⟨[], by rw [feed_header all uncommented, opened]; rfl⟩

/-- A block of lines for each item, in order: each takes the draft one item further. -/
theorem sweep {β : Type} {items : List β} {lines : Nat → β → List Line} {state : Nat → Draft}
    (step : ∀ index item, items[index]? = some item →
      Reads (state index) (lines index item) (state (index + 1))) :
    Reads (state 0) (items.mapIdx lines).flatten (state items.length) := by
  have upTo : ∀ count ≤ items.length,
      Reads (state 0) ((items.take count).mapIdx lines).flatten (state count) := by
    intro count
    induction count with
    | zero =>
      intro _
      exact refl _
    | succ count ih =>
      intro reach
      have known := List.getElem?_eq_getElem (show count < items.length from reach)
      have earlier := ih (Nat.le_of_succ_le reach)
      rw [List.take_add_one, known, Option.toList_some, List.mapIdx_concat, List.flatten_append,
        List.length_take, Nat.min_eq_left (Nat.le_of_succ_le reach), List.flatten_singleton]
      exact earlier.append (step count _ known)
  have whole := upTo items.length (Nat.le_refl _)
  rwa [List.take_length] at whole

/-- One line for each item. -/
theorem each {β : Type} {items : List β} {line : Nat → β → Line} {state : Nat → Draft}
    (step : ∀ index item, items[index]? = some item →
      Reads (state index) [line index item] (state (index + 1))) :
    Reads (state 0) (items.mapIdx line) (state items.length) := by
  have blocks : items.mapIdx line = (items.mapIdx fun index item => [line index item]).flatten := by
    rw [List.mapIdx_eq_zipIdx_map, List.mapIdx_eq_zipIdx_map, List.map_eq_flatMap, List.flatMap_def]
  rw [blocks]
  exact sweep step

end Reads

end MixedInteger.Mps
