import MixedInteger.Proofs.Mps.Rendering
import MixedInteger.Proofs.Number.IntegerWords

/-! What reading the canonical text of a model comes to, section by section. Each section has a draft
for every number of items read so far, and each line takes the draft to the next one: names are
found where they were declared, coefficients are the first of their place, and the bounds of a
column end up as stated whatever the upper one did to the lower. -/
namespace MixedInteger

/-- An exact integer whose magnitude fits 63 bits. -/
def Number.IsInt64 (x : Number) : Prop := ∃ z : Int, x = .ofInt z ∧ z.natAbs < 2 ^ 63

namespace Number.IsInt64

variable {x : Number}

theorem zero : Number.zero.IsInt64 := ⟨0, rfl, by decide⟩

theorem neg (integer : x.IsInt64) : x.neg.IsInt64 := by
  obtain ⟨z, rfl, small⟩ := integer
  refine ⟨-z, ?_, by omega⟩
  simp [Number.neg, Number.ofInt]

theorem neg_neg (integer : x.IsInt64) : x.neg.neg = x := by
  obtain ⟨z, rfl, -⟩ := integer
  simp [Number.neg, Number.ofInt]

theorem zero_add (integer : x.IsInt64) : Number.zero.add x = x := by
  obtain ⟨z, rfl, -⟩ := integer
  exact congrArg Number.exact (Rat.zero_add z)

theorem text_eq (z : Int) : (Number.ofInt z).text = toString z := by
  simp [Number.text, Number.ofInt, Number.rationalText]

theorem isWord_text (integer : x.IsInt64) : Text.isWord x.text = true := by
  obtain ⟨z, rfl, -⟩ := integer
  rw [text_eq]
  exact isWord_toString z

/-- A number of the file is read as it was written. -/
theorem readNumber_text (integer : x.IsInt64) : Mps.readNumber x.text = .ok x := by
  obtain ⟨z, rfl, small⟩ := integer
  rw [text_eq, Mps.readNumber, readInt64?_toString (by omega) (by omega)]

/-- A bound of the file is not taken for an infinite one. -/
theorem filter_bound (integer : x.IsInt64) :
    (some x).filter (fun bound => bound.toBinary64.abs < Mps.infiniteBound) = some x := by
  obtain ⟨z, rfl, small⟩ := integer
  rw [Option.filter_some, if_pos]
  exact decide_eq_true (Binary64.abs_lt_of_moderate (Binary64.moderate_toBinary64 small))

end Number.IsInt64

namespace Mps

open Text (isWord)

/-! ### Names -/

section Names

variable {β γ : Type} {entries : List β} {name : β → String} {stem : String}

/-- The entries are named by their number. -/
def Numbered (name : β → String) (stem : String) (entries : List β) : Prop :=
  ∀ (index : Nat) (entry : β), entries[index]? = some entry → name entry = stem ++ toString index

theorem numbered_mapIdx {items : List γ} {entry : Nat → γ → β}
    (named : ∀ index item, name (entry index item) = stem ++ toString index) :
    Numbered name stem (items.mapIdx entry) := by
  intro index found known
  rw [List.getElem?_mapIdx, Option.map_eq_some_iff] at known
  obtain ⟨item, -, rfl⟩ := known
  exact named index item

theorem Numbered.set (named : Numbered name stem entries) {index : Nat} {entry new : β}
    (known : entries[index]? = some entry) (same : name new = name entry) :
    Numbered name stem (entries.set index new) := by
  intro other found there
  rw [List.getElem?_set] at there
  split at there
  · rename_i here
    subst here
    split at there
    · obtain rfl := Option.some.inj there
      rw [same, named index entry known]
    · cases there
  · exact named other found there

/-- Of entries that are named by their number, each is found by its name. -/
theorem Numbered.findIdx? (named : Numbered name stem entries) (index : Nat) :
    entries.findIdx? (fun entry => name entry == stem ++ toString index) =
      if index < entries.length then some index else none := by
  split
  · rename_i inside
    refine List.findIdx?_eq_some_iff_getElem.mpr ⟨inside, ?_, fun other before => ?_⟩
    · rw [named index _ (List.getElem?_eq_getElem inside)]
      exact beq_self_eq_true _
    · rw [named other _ (List.getElem?_eq_getElem (before.trans inside)), beq_iff_eq, numbered_inj]
      omega
  · rename_i outside
    refine List.findIdx?_eq_none_iff.mpr fun entry member => ?_
    obtain ⟨other, inside, rfl⟩ := List.mem_iff_getElem.mp member
    rw [named other _ (List.getElem?_eq_getElem inside), beq_eq_false_iff_ne, ne_eq, numbered_inj]
    omega

theorem Numbered.find? (named : Numbered name stem entries) (index : Nat) :
    entries.find? (fun entry => name entry == stem ++ toString index) = entries[index]? := by
  rw [List.find?_eq_bind_findIdx?_getElem?, named.findIdx?]
  split
  · rfl
  · rename_i outside
    exact (List.getElem?_eq_none (Nat.not_lt.mp outside)).symm

/-- The next number is not taken. -/
theorem Numbered.any (named : Numbered name stem entries) :
    (entries.any fun entry => name entry == stem ++ toString entries.length) = false := by
  rw [List.any_eq_false]
  intro entry member
  have unknown := named.findIdx? entries.length
  rw [if_neg (Nat.lt_irrefl _), List.findIdx?_eq_none_iff] at unknown
  rw [unknown entry member]
  exact Bool.false_ne_true

end Names

/-! ### The numbers of a model -/

/-- Every number of a model is an integer that can be written and read. -/
structure Writable (model : Model) : Prop where
  objective : ∀ index, (model.objective.getD index .zero).IsInt64
  constant : model.constant.IsInt64
  coefs : ∀ row ∈ model.rows, ∀ index, (row.coefs.getD index .zero).IsInt64
  rhs : ∀ row ∈ model.rows, row.rhs.IsInt64
  upper : ∀ column ∈ model.columns, ∀ upper, column.upper = some upper → upper.IsInt64
  lower : ∀ column ∈ model.columns, ∀ lower, column.lower = some lower → lower.IsInt64

theorem isInt64_getD {values : List Number} (all : ∀ x ∈ values, x.IsInt64) (index : Nat) :
    (values.getD index .zero).IsInt64 := by
  rw [List.getD_eq_getElem?_getD]
  cases known : values[index]? with
  | none => exact .zero
  | some x => exact all x (List.mem_of_getElem? known)

theorem writable_of_numbers {model : Model} (all : ∀ x ∈ model.numbers, x.IsInt64) :
    Writable model := by
  simp only [Model.numbers, Model.coefficients, Model.bounds, List.mem_append, List.mem_flatMap,
    List.mem_singleton, Option.mem_toList] at all
  refine ⟨isInt64_getD fun x member => ?_, ?_, fun row member => isInt64_getD fun x inside => ?_,
    fun row member => ?_, fun column member upper known => ?_, fun column member lower known => ?_⟩
  · exact all x (.inl (.inl (.inl member)))
  · exact all _ (.inl (.inl (.inr rfl)))
  · exact all x (.inl (.inr ⟨row, member, .inl inside⟩))
  · exact all _ (.inl (.inr ⟨row, member, .inr rfl⟩))
  · exact all upper (.inr ⟨column, member, .inr known⟩)
  · exact all lower (.inr ⟨column, member, .inl known⟩)

/-! ### Rows -/

def rowEntry (index : Nat) (row : Row Number) : RowEntry :=
  { name := rowName index, relation := row.relation }

/-- The first rows of a model have been declared. -/
def rowsDraft (model : Model) (count : Nat) : Draft :=
  { place := .rows, name := "P", maximize := model.maximize, objectiveRow := some "OBJ"
    rows := (model.rows.take count).mapIdx rowEntry }

/-- The words of a line, one by one. -/
theorem words_cons {first : String} {rest : List String} (word : isWord first = true)
    (words : ∀ part ∈ rest, isWord part = true) : ∀ part ∈ first :: rest, isWord part = true :=
  List.forall_mem_cons.mpr ⟨word, words⟩

theorem words_nil : ∀ part ∈ ([] : List String), isWord part = true := by simp

theorem isWord_rowName (index : Nat) : isWord (rowName index) = true :=
  isWord_numbered (by decide) index

theorem isWord_columnName (index : Nat) : isWord (columnName index) = true :=
  isWord_numbered (by decide) index

theorem reads_start (model : Model) :
    Reads {} [.header ["NAME", "P"], .header ["OBJSENSE", if model.maximize then "MAX" else "MIN"],
      .header ["ROWS"], .data ["N", "OBJ"]] (rowsDraft model 0) := by
  have name : Reads {} [.header ["NAME", "P"]] { place := .name, name := "P" } :=
    .header (by decide) (by decide) rfl
  have sense : Reads { place := .name, name := "P" }
      [.header ["OBJSENSE", if model.maximize then "MAX" else "MIN"]]
      { place := .sense, name := "P", maximize := model.maximize } := by
    cases model.maximize with
    | true => exact .header (by decide) (by decide) rfl
    | false => exact .header (by decide) (by decide) rfl
  have rows : Reads { place := .sense, name := "P", maximize := model.maximize } [.header ["ROWS"]]
      { place := .rows, name := "P", maximize := model.maximize } :=
    .header (by decide) (by decide) rfl
  have objective : Reads { place := .rows, name := "P", maximize := model.maximize }
      [.data ["N", "OBJ"]] (rowsDraft model 0) :=
    .data (by decide) fun number => ⟨[], rfl⟩
  exact ((name.append sense).append rows).append objective

theorem mapIdx_take_succ {β γ : Type} {items : List β} {index : Nat} {item : β}
    (known : items[index]? = some item) (f : Nat → β → γ) :
    (items.take (index + 1)).mapIdx f = (items.take index).mapIdx f ++ [f index item] := by
  obtain ⟨inside, -⟩ := List.getElem?_eq_some_iff.mp known
  rw [List.take_add_one, known, Option.toList_some, List.mapIdx_concat, List.length_take,
    Nat.min_eq_left (Nat.le_of_lt inside)]

theorem reads_row {model : Model} {index : Nat} {row : Row Number}
    (known : model.rows[index]? = some row) :
    Reads (rowsDraft model index) [.data [rowKind row.relation, rowName index]]
      (rowsDraft model (index + 1)) := by
  obtain ⟨inside, -⟩ := List.getElem?_eq_some_iff.mp known
  have length : (rowsDraft model index).rows.length = index := by
    simp [rowsDraft, Nat.le_of_lt inside]
  have named : Numbered RowEntry.name "R" (rowsDraft model index).rows :=
    numbered_mapIdx fun _ _ => rfl
  have fresh : (rowsDraft model index).rows.any (·.name == rowName index) = false := by
    have free := named.any
    rwa [length] at free
  have added : (rowsDraft model index).addRow (rowName index) row.relation =
      .ok (rowsDraft model (index + 1)) := by
    rw [Draft.addRow, fresh, if_neg Bool.false_ne_true]
    simp only [rowsDraft, mapIdx_take_succ known]
    rfl
  have kind : isWord (rowKind row.relation) = true := by
    cases row.relation <;> decide
  refine .data (by simp [kind, isWord_rowName]) fun number => ⟨[], ?_⟩
  change (rowsDraft model index).readRow number [rowKind row.relation, rowName index] = _
  cases relation : row.relation with
  | le =>
    rw [relation] at added
    exact congrArg (Except.map (·, [])) added
  | eq =>
    rw [relation] at added
    exact congrArg (Except.map (·, [])) added
  | ge =>
    rw [relation] at added
    exact congrArg (Except.map (·, [])) added

theorem reads_rows (model : Model) :
    Reads (rowsDraft model 0)
      (model.rows.mapIdx fun index row => .data [rowKind row.relation, rowName index])
      (rowsDraft model model.rows.length) :=
  .each fun _ _ known => reads_row known

/-! ### Columns -/

def columnEntry (model : Model) (index : Nat) (column : ModelColumn) : ColumnEntry :=
  { name := columnName index, column := { integral := column.integral }
    cost := some (model.objective.getD index .zero) }

/-- The matrix entries of a column, by row. -/
def columnEntries (rows : List (Row Number)) (index : Nat) : List (Nat × Nat × Number) :=
  rows.mapIdx fun place row => (place, index, row.coefs.getD index .zero)

/-- The first columns of a model have been read. -/
def columnsDraft (model : Model) (count : Nat) : Draft :=
  { rowsDraft model model.rows.length with
    place := .columns
    columns := (model.columns.take count).mapIdx (columnEntry model)
    entries :=
      ((model.columns.take count).mapIdx fun index _ => columnEntries model.rows index).flatten }

/-- A row is not named like anything that starts with another letter. -/
theorem rowName_ne {name : String} (other : name.toList.head? ≠ some 'R') (index : Nat) :
    rowName index ≠ name := by
  rintro rfl
  simp [rowName] at other

theorem target_objective {draft : Draft} (objective : draft.objectiveRow = some "OBJ") :
    draft.target "OBJ" = .ok .objective :=
  if_pos objective

theorem target_row {draft : Draft} (objective : draft.objectiveRow = some "OBJ")
    (named : Numbered RowEntry.name "R" draft.rows) {index : Nat} (inside : index < draft.rows.length) :
    draft.target (rowName index) = .ok (.row index) := by
  have different : ¬ draft.objectiveRow = some (rowName index) := by
    rw [objective, Option.some.injEq]
    exact (rowName_ne (by decide) index).symm
  have found : draft.rows.findIdx? (·.name == rowName index) = some index :=
    (named.findIdx? index).trans (if_pos inside)
  rw [Draft.target, if_neg different, found]

theorem Reads.column {draft next : Draft} {first : String} {words : List String}
    (all : ∀ word ∈ first :: words, isWord word = true) (place : draft.place = .columns)
    (read : draft.readColumn (first :: words) = .ok next) :
    Reads draft [.data (first :: words)] next := by
  refine .data all fun number => ⟨[], ?_⟩
  simp only [Draft.readData, place, read]
  rfl

theorem readColumn_pair {draft declared : Draft} {name row text : String} {column : Nat}
    (plain : row ≠ "'MARKER'") (declares : draft.declareColumn name = (column, declared)) :
    draft.readColumn [name, row, text] = Draft.addCoefficient column declared (row, text) := by
  have ordinary : ¬ some row = some "'MARKER'" := fun same => plain (Option.some.inj same)
  simp only [Draft.readColumn, List.getElem?_cons_succ, List.getElem?_cons_zero, ordinary, ↓reduceIte,
    List.length_cons, List.length_nil, declares, Draft.pairs, List.foldlM_cons, List.foldlM_nil]
  cases Draft.addCoefficient column declared (row, text) <;> rfl

theorem addCoefficient_objective {draft : Draft} {value : Number} (integer : value.IsInt64)
    (objective : draft.objectiveRow = some "OBJ") (column : Nat) :
    Draft.addCoefficient column draft ("OBJ", value.text) =
      .ok { draft with columns := draft.columns.modify column fun entry =>
        { entry with cost := some ((entry.cost.map (·.add value)).getD value) } } := by
  simp only [Draft.addCoefficient, integer.readNumber_text, target_objective objective]
  rfl

theorem addCoefficient_row {draft : Draft} {value : Number} (integer : value.IsInt64)
    (objective : draft.objectiveRow = some "OBJ") (named : Numbered RowEntry.name "R" draft.rows)
    {place : Nat} (inside : place < draft.rows.length) (column : Nat) :
    Draft.addCoefficient column draft (rowName place, value.text) =
      .ok { draft with entries := draft.entries ++ [(place, column, value)] } := by
  simp only [Draft.addCoefficient, integer.readNumber_text, target_row objective named inside]
  rfl

theorem modify_concat {β : Type} (items : List β) (item : β) (change : β → β) :
    (items ++ [item]).modify items.length change = items ++ [change item] := by
  induction items with
  | nil => rfl
  | cons first items ih => simp [ih]

section Column

variable {model : Model} {index : Nat} {column : ModelColumn}

/-- A column has been declared with its cost; the first of its entries have been read. -/
def columnDraft (model : Model) (index : Nat) (column : ModelColumn) (count : Nat) : Draft :=
  { columnsDraft model index with
    columns := (columnsDraft model (index + 1)).columns
    entries := (columnsDraft model index).entries ++ columnEntries (model.rows.take count) index
    integerBlock := column.integral }

theorem length_columnsDraft (known : model.columns[index]? = some column) :
    (columnsDraft model index).columns.length = index := by
  obtain ⟨inside, -⟩ := List.getElem?_eq_some_iff.mp known
  simp [columnsDraft, Nat.le_of_lt inside]

theorem entries_columnsDraft (known : model.columns[index]? = some column) :
    (columnsDraft model (index + 1)).entries =
      (columnsDraft model index).entries ++ columnEntries model.rows index := by
  simp only [columnsDraft, mapIdx_take_succ known, List.flatten_append, List.flatten_singleton]

theorem reads_cost (writable : Writable model) (known : model.columns[index]? = some column) :
    Reads { columnsDraft model index with integerBlock := column.integral }
      [.data [columnName index, "OBJ", (model.objective.getD index .zero).text]]
      (columnDraft model index column 0) := by
  have length := length_columnsDraft known
  have named : Numbered ColumnEntry.name "C" (columnsDraft model index).columns :=
    numbered_mapIdx fun _ _ => rfl
  have unknown : (columnsDraft model index).columns.findIdx? (·.name == columnName index) = none :=
    (named.findIdx? index).trans (if_neg (by omega))
  have declares : Draft.declareColumn
      { columnsDraft model index with integerBlock := column.integral } (columnName index) =
      (index, { columnsDraft model index with
        columns := (columnsDraft model index).columns ++
          [{ name := columnName index, column := { integral := column.integral } }]
        integerBlock := column.integral }) := by
    simp only [Draft.declareColumn, unknown, length]
  have cost := writable.objective index
  refine .column (words_cons (isWord_columnName index) (words_cons (by decide)
    (words_cons cost.isWord_text words_nil))) rfl ?_
  rw [readColumn_pair (by decide) declares, addCoefficient_objective cost rfl]
  have last := modify_concat (columnsDraft model index).columns
    { name := columnName index, column := { integral := column.integral } } fun entry =>
      { entry with cost := some ((entry.cost.map (·.add (model.objective.getD index .zero))).getD
        (model.objective.getD index .zero)) }
  have more : (columnsDraft model (index + 1)).columns =
      (columnsDraft model index).columns ++ [columnEntry model index column] :=
    mapIdx_take_succ known _
  rw [length] at last
  simp only [last]
  simp [columnDraft, columnEntries, more, columnEntry]

theorem reads_entry (writable : Writable model) (known : model.columns[index]? = some column)
    {place : Nat} {row : Row Number} (there : model.rows[place]? = some row) :
    Reads (columnDraft model index column place)
      [.data [columnName index, rowName place, (row.coefs.getD index .zero).text]]
      (columnDraft model index column (place + 1)) := by
  have coefficient := writable.coefs row (List.mem_of_getElem? there) index
  obtain ⟨inside, -⟩ := List.getElem?_eq_some_iff.mp there
  obtain ⟨reach, -⟩ := List.getElem?_eq_some_iff.mp known
  have columns : Numbered ColumnEntry.name "C" (columnDraft model index column place).columns :=
    numbered_mapIdx fun _ _ => rfl
  have rows : Numbered RowEntry.name "R" (columnDraft model index column place).rows :=
    numbered_mapIdx fun _ _ => rfl
  have found : (columnDraft model index column place).columns.findIdx? (·.name == columnName index) =
      some index := by
    refine (columns.findIdx? index).trans (if_pos ?_)
    simp only [columnDraft, columnsDraft, List.length_mapIdx, List.length_take]
    omega
  have declares : (columnDraft model index column place).declareColumn (columnName index) =
      (index, columnDraft model index column place) := by
    simp only [Draft.declareColumn, found]
  refine .column (words_cons (isWord_columnName index) (words_cons (isWord_rowName place)
    (words_cons coefficient.isWord_text words_nil))) rfl ?_
  rw [readColumn_pair (rowName_ne (by decide) place) declares, addCoefficient_row coefficient rfl rows]
  · simp only [columnDraft, columnEntries, mapIdx_take_succ there, List.append_assoc]
  · simpa [columnDraft, columnsDraft, rowsDraft] using inside

/-- A column with all its lines. -/
theorem reads_column (writable : Writable model) (known : model.columns[index]? = some column) :
    Reads (columnsDraft model index) (columnLines model index column)
      (columnsDraft model (index + 1)) := by
  have opening : Reads (columnsDraft model index)
      (if column.integral then [.data ["M", "'MARKER'", "'INTORG'"]] else [])
      { columnsDraft model index with integerBlock := column.integral } := by
    cases column.integral with
    | true => exact .column (by decide) rfl rfl
    | false => exact .refl _
  have closing : Reads (columnDraft model index column model.rows.length)
      (if column.integral then [.data ["M", "'MARKER'", "'INTEND'"]] else [])
      (columnsDraft model (index + 1)) := by
    have ended : { columnDraft model index column model.rows.length with integerBlock := false } =
        columnsDraft model (index + 1) := by
      rw [columnDraft, List.take_length, ← entries_columnsDraft known]
      rfl
    rw [← ended]
    cases flag : column.integral with
    | true => exact .column (by decide) rfl rfl
    | false =>
      have same : { columnDraft model index column model.rows.length with integerBlock := false } =
          columnDraft model index column model.rows.length := by
        rw [columnDraft, flag]
      rw [same]
      exact .refl _
  have body := ((reads_cost writable known).append (.each fun place row there =>
    reads_entry writable known there))
  exact (opening.append body).append closing

end Column

theorem reads_columns {model : Model} (writable : Writable model) :
    Reads (columnsDraft model 0) (model.columns.mapIdx (columnLines model)).flatten
      (columnsDraft model model.columns.length) :=
  .sweep fun _ _ known => reads_column writable known

/-! ### One item at a time -/

section Renewed

variable {β γ : Type} {items : List β} {old new : Nat → β → γ}

/-- A list on the way from one form to another, with the first items in their new form. -/
def renewed (old new : Nat → β → γ) (items : List β) (count : Nat) : List γ :=
  items.mapIdx fun index item => if index < count then new index item else old index item

theorem renewed_zero : renewed old new items 0 = items.mapIdx old := by
  simp only [renewed, Nat.not_lt_zero, ↓reduceIte]

theorem renewed_length : renewed old new items items.length = items.mapIdx new := by
  refine List.mapIdx_eq_mapIdx_iff.mpr fun index inside => ?_
  rw [if_pos inside]

/-- The next item is still in its old form. -/
theorem getElem?_renewed (index : Nat) :
    (renewed old new items index)[index]? = items[index]?.map (old index) := by
  simp [renewed]

theorem modify_renewed {index : Nat} {item : β} (known : items[index]? = some item) {change : γ → γ}
    (here : change (old index item) = new index item) :
    (renewed old new items index).modify index change = renewed old new items (index + 1) := by
  refine List.ext_getElem? fun other => ?_
  rw [List.getElem?_modify, renewed, renewed, List.getElem?_mapIdx, List.getElem?_mapIdx]
  by_cases same : index = other
  · subst same
    simp [known, here]
  · have order : other < index + 1 ↔ other < index := by omega
    simp [same, order]

theorem numbered_renewed {name : γ → String} {stem : String}
    (before : ∀ index item, name (old index item) = stem ++ toString index)
    (after : ∀ index item, name (new index item) = stem ++ toString index) (count : Nat) :
    Numbered name stem (renewed old new items count) := by
  refine numbered_mapIdx fun index item => ?_
  split
  · exact after index item
  · exact before index item

end Renewed

/-! ### Right-hand sides -/

/-- The first right-hand sides have been read. -/
def rhsDraft (model : Model) (count : Nat) : Draft :=
  { columnsDraft model model.columns.length with
    place := .rhs
    constant := model.constant
    rows := renewed rowEntry (fun index row => { rowEntry index row with rhs := some row.rhs })
      model.rows count }

theorem Reads.rhs {draft next : Draft} {first name text : String} {value : Number} {target : Target}
    (all : ∀ word ∈ [first, name, text], isWord word = true) (place : draft.place = .rhs)
    (targeted : draft.target name = .ok target) (integer : readNumber text = .ok value)
    (read : draft.setRhs (target, value) = next) :
    Reads draft [.data [first, name, text]] next := by
  have pair : draft.readPairs [first, name, text] = .ok [(target, value)] := by
    simp only [Draft.readPairs, List.length_cons, List.length_nil, ↓reduceIte, List.drop_succ_cons,
      List.drop_zero, List.isEmpty_cons, Bool.false_eq_true, Draft.pairs, List.mapM_cons, List.mapM_nil,
      targeted, integer]
    rfl
  refine .data all fun number => ⟨[], ?_⟩
  simp only [Draft.readData, place, pair, ← read]
  rfl

theorem reads_constant {model : Model} (writable : Writable model) :
    Reads { columnsDraft model model.columns.length with place := .rhs }
      [.data ["RHS", "OBJ", model.constant.neg.text]] (rhsDraft model 0) := by
  have integer := writable.constant.neg
  refine .rhs (words_cons (by decide) (words_cons (by decide)
    (words_cons integer.isWord_text words_nil))) rfl (target_objective rfl) integer.readNumber_text ?_
  have start : (columnsDraft model model.columns.length).rows = (rhsDraft model 0).rows := by
    rw [rhsDraft, renewed_zero, columnsDraft, rowsDraft, List.take_length]
  simp only [Draft.setRhs, writable.constant.neg_neg, start]
  rfl

theorem reads_rhs {model : Model} (writable : Writable model) {index : Nat} {row : Row Number}
    (known : model.rows[index]? = some row) :
    Reads (rhsDraft model index) [.data ["RHS", rowName index, row.rhs.text]]
      (rhsDraft model (index + 1)) := by
  have integer := writable.rhs row (List.mem_of_getElem? known)
  obtain ⟨inside, -⟩ := List.getElem?_eq_some_iff.mp known
  have rows : Numbered RowEntry.name "R" (rhsDraft model index).rows :=
    numbered_renewed (by intros; rfl) (by intros; rfl) index
  refine .rhs (words_cons (by decide) (words_cons (isWord_rowName index)
    (words_cons integer.isWord_text words_nil))) rfl
    (target_row rfl rows (by simpa [rhsDraft, renewed] using inside)) integer.readNumber_text ?_
  have changed : (rhsDraft model index).rows.modify index
      (fun entry => { entry with rhs := some row.rhs }) = (rhsDraft model (index + 1)).rows :=
    modify_renewed known rfl
  simp only [Draft.setRhs, changed]
  rfl

/-! ### Bounds -/

/-- The bounds of the first columns have been read. -/
def boundsDraft (model : Model) (count : Nat) : Draft :=
  { rhsDraft model model.rows.length with
    place := .bounds
    columns := renewed (columnEntry model)
      (fun index column => { columnEntry model index column with column }) model.columns count }

/-- A stated bound is read as it is. -/
theorem mapM_readNumber {bound : Option Number} (integer : ∀ x, bound = some x → x.IsInt64) :
    (bound.map Number.text).mapM readNumber = .ok bound ∧
      bound.filter (fun x => x.toBinary64.abs < infiniteBound) = bound := by
  cases bound with
  | none => exact ⟨rfl, rfl⟩
  | some x =>
    have known := integer x rfl
    refine ⟨?_, known.filter_bound⟩
    rw [Option.map_some, Option.mapM_some, known.readNumber_text]
    rfl

section Bound

variable {draft : Draft} {entry : ColumnEntry} {index : Nat} {kind : String} {words : List String}
  {column : ModelColumn} {frees : Bool}

def replaceColumn (draft : Draft) (index : Nat) (entry : ColumnEntry) : Draft :=
  { draft with columns := draft.columns.set index entry }

theorem Reads.bound {bound : Option Number} (all : ∀ word ∈ kind :: words, isWord word = true)
    (place : draft.place = .bounds) (named : Numbered ColumnEntry.name "C" draft.columns)
    (known : draft.columns[index]? = some entry)
    (stated : Draft.boundWords (kind :: words) = .ok (columnName index, bound.map Number.text))
    (integer : ∀ x, bound = some x → x.IsInt64)
    (applied : Draft.applyBound kind bound entry.column = .ok (column, frees)) :
    Reads draft [.data (kind :: words)]
      (replaceColumn draft index { entry with column }) := by
  obtain ⟨inside, -⟩ := List.getElem?_eq_some_iff.mp known
  have position : draft.columns.findIdx? (·.name == columnName index) = some index :=
    (named.findIdx? index).trans (if_pos inside)
  have found : draft.columns.find? (·.name == columnName index) = some entry :=
    (named.find? index).trans known
  obtain ⟨read, kept⟩ := mapM_readNumber integer
  refine .data all fun number => ?_
  simp only [Draft.readData, place, Draft.readBound, stated, List.head?_cons, Option.getD_some, bind,
    Except.bind, position, found, read, kept, applied, replaceColumn]
  exact ⟨_, rfl⟩

/-- A bound with its value. -/
theorem Reads.valued {x : Number} (word : isWord kind = true) (valued : Draft.isValued kind = true)
    (place : draft.place = .bounds) (named : Numbered ColumnEntry.name "C" draft.columns)
    (known : draft.columns[index]? = some entry) (integer : x.IsInt64)
    (applied : Draft.applyBound kind (some x) entry.column = .ok (column, frees)) :
    Reads draft [.data [kind, "BND", columnName index, x.text]]
      (replaceColumn draft index { entry with column }) := by
  refine .bound (words_cons word (words_cons (by decide) (words_cons (isWord_columnName index)
    (words_cons integer.isWord_text words_nil)))) place named known ?_
    (fun y same => Option.some.inj same ▸ integer) applied
  rw [Draft.boundWords, valued, if_pos rfl, Option.map_some]

/-- A bound of a kind that has no value. -/
theorem Reads.bare (word : isWord kind = true) (bare : Draft.isValued kind = false)
    (place : draft.place = .bounds) (named : Numbered ColumnEntry.name "C" draft.columns)
    (known : draft.columns[index]? = some entry)
    (applied : Draft.applyBound kind none entry.column = .ok (column, frees)) :
    Reads draft [.data [kind, "BND", columnName index]]
      (replaceColumn draft index { entry with column }) := by
  refine .bound (words_cons word (words_cons (by decide) (words_cons (isWord_columnName index)
    words_nil))) place named known ?_ ?_ applied
  · rw [Draft.boundWords, bare, if_neg Bool.false_ne_true, Option.map_none]
  · simp

/-- A line with an upper bound sets it, whatever it does to the lower bound. -/
theorem reads_upper (place : draft.place = .bounds)
    (named : Numbered ColumnEntry.name "C" draft.columns) (known : draft.columns[index]? = some entry)
    {upper : Option Number} (integer : ∀ x, upper = some x → x.IsInt64) :
    ∃ lower, Reads draft [upperLine index upper]
      (replaceColumn draft index { entry with column := { entry.column with lower, upper } }) := by
  cases upper with
  | some upper => exact ⟨_, .valued (by decide) (by decide) place named known (integer upper rfl) rfl⟩
  | none => exact ⟨entry.column.lower, .bare (by decide) (by decide) place named known rfl⟩

theorem reads_lower (place : draft.place = .bounds)
    (named : Numbered ColumnEntry.name "C" draft.columns) (known : draft.columns[index]? = some entry)
    {lower : Option Number} (integer : ∀ x, lower = some x → x.IsInt64) :
    Reads draft [lowerLine index lower]
      (replaceColumn draft index { entry with column := { entry.column with lower } }) := by
  cases lower with
  | some lower => exact .valued (by decide) (by decide) place named known (integer lower rfl) rfl
  | none => exact .bare (by decide) (by decide) place named known rfl

/-- Both bounds of a column are as stated: the lower one is read last. -/
theorem reads_bound {model : Model} (writable : Writable model)
    (known : model.columns[index]? = some column) :
    Reads (boundsDraft model index) (boundLines index column) (boundsDraft model (index + 1)) := by
  have member := List.mem_of_getElem? known
  have named : Numbered ColumnEntry.name "C" (boundsDraft model index).columns :=
    numbered_renewed (by intros; rfl) (by intros; rfl) index
  have first : (boundsDraft model index).columns[index]? = some (columnEntry model index column) := by
    rw [boundsDraft, getElem?_renewed, known, Option.map_some]
  obtain ⟨inside, -⟩ := List.getElem?_eq_some_iff.mp first
  obtain ⟨lower, above⟩ := reads_upper rfl named first (writable.upper column member)
  have ended : ∀ old, replaceColumn (replaceColumn (boundsDraft model index) index old) index
      { columnEntry model index column with column } = boundsDraft model (index + 1) := by
    intro old
    have changed : (boundsDraft model index).columns.set index
        { columnEntry model index column with column } = (boundsDraft model (index + 1)).columns := by
      rw [List.set_eq_modify]
      exact modify_renewed known rfl
    simp only [replaceColumn, List.set_set, changed]
    rfl
  let middle : ColumnEntry := { columnEntry model index column with
    column := { column with lower } }
  have there : (replaceColumn (boundsDraft model index) index middle).columns[index]? = some middle :=
    List.getElem?_set_self inside
  have still : Numbered ColumnEntry.name "C"
      (replaceColumn (boundsDraft model index) index middle).columns := named.set first rfl
  have below := reads_lower rfl still there (writable.lower column member)
  exact above.append (ended middle ▸ below)

end Bound

theorem reads_bounds {model : Model} (writable : Writable model) :
    Reads (boundsDraft model 0) (model.columns.mapIdx boundLines).flatten
      (boundsDraft model model.columns.length) :=
  .sweep fun _ _ known => reads_bound writable known

end Mps

end MixedInteger
