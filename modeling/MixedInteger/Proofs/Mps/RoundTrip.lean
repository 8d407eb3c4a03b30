import MixedInteger.Proofs.Mps.Reading

/-! Reading inverts the canonical text. The sections of the text take the empty draft to one that
holds the whole model, and closing that draft puts its matrix entries, costs and bounds back
where they came from: a model of integers is read as the same model. -/
namespace MixedInteger.Mps

variable {model : Model}

/-! ### The whole text -/

/-- Everything has been read. -/
def fullDraft (model : Model) : Draft := boundsDraft model model.columns.length

theorem rows_fullDraft : (fullDraft model).rows =
    model.rows.mapIdx fun index row => { rowEntry index row with rhs := some row.rhs } :=
  renewed_length

theorem columns_fullDraft : (fullDraft model).columns =
    model.columns.mapIdx fun index column => { columnEntry model index column with column } :=
  renewed_length

/-- All lines but the last. -/
theorem reads_sections (writable : Writable model) :
    Reads {} (modelLines model).dropLast (fullDraft model) := by
  have columns : Reads (rowsDraft model model.rows.length) [.header ["COLUMNS"]]
      (columnsDraft model 0) :=
    .header (by decide) (by decide) rfl
  have rhs : Reads (columnsDraft model model.columns.length) [.header ["RHS"]]
      { columnsDraft model model.columns.length with place := .rhs } :=
    .header (by decide) (by decide) rfl
  have sides : Reads (rhsDraft model 0)
      (model.rows.mapIdx fun index row => .data ["RHS", rowName index, row.rhs.text])
      (rhsDraft model model.rows.length) :=
    .each fun _ _ known => reads_rhs writable known
  have bounds : Reads (rhsDraft model model.rows.length) [.header ["BOUNDS"]]
      (boundsDraft model 0) := by
    have start : (rhsDraft model model.rows.length).columns = (boundsDraft model 0).columns := by
      rw [boundsDraft, renewed_zero, rhsDraft, columnsDraft, List.take_length]
    refine .header (by decide) (by decide) ?_
    simp only [Draft.openSection, start]
    rfl
  have whole := (reads_start model).append (reads_rows model) |>.append columns
    |>.append (reads_columns writable) |>.append (rhs.append (reads_constant writable))
    |>.append sides |>.append bounds |>.append (reads_bounds writable)
  rw [modelLines, List.dropLast_concat]
  exact whole

theorem readLines_render (writable : Writable model) :
    (readLines {} 1 (Text.lines (render model).toUTF8)).outcome =
      .ok (fullDraft model) := by
  have sections := reads_sections writable
  have lines : modelLines model = (modelLines model).dropLast ++ [.header ["ENDATA"]] := by
    rw [modelLines, List.dropLast_concat]
  have plain : ∀ text ∈ (modelLines model).map Line.text, Text.isPlain text = true := by
    rw [List.forall_mem_map, lines]
    exact List.forall_mem_append.mpr ⟨sections.plain, by decide⟩
  have text : render model = String.join (((modelLines model).map Line.text).map (· ++ "\n")) := by
    rw [render, List.map_map]
    rfl
  rw [text, Text.lines_join plain, List.map_map, lines, List.map_append]
  refine (sections.read 1 _).trans ?_
  have ended : ∀ number,
      (fullDraft model).feed number (Line.header ["ENDATA"]).text.toList = .ok (none, []) :=
    feed_header (by decide) (by decide) (fullDraft model)
  simp only [List.map_cons, List.map_nil, readLines, Function.comp_apply, ended]
  rfl

/-! ### The matrix -/

theorem mapIdx_const {β γ : Type} (items : List β) (f : β → γ) :
    items.mapIdx (fun _ => f) = items.map f :=
  List.ext_getElem? fun index => by rw [List.getElem?_mapIdx, List.getElem?_map]

theorem map_mapIdx {β γ δ : Type} (items : List β) (f : Nat → β → γ) (g : γ → δ) :
    (items.mapIdx f).map g = items.mapIdx fun index item => g (f index item) :=
  List.ext_getElem? fun index => by
    rw [List.getElem?_map, List.getElem?_mapIdx, List.getElem?_mapIdx, Option.map_map]
    rfl

/-- The entries of one column add to that column in every row. -/
theorem foldl_columnEntries (rows : List (Row Number)) (start : Row Number → List Number)
    (index : Nat) : (columnEntries rows index).foldl Draft.addEntry (rows.map start) =
      rows.map fun row => (start row).modify index (·.add (row.coefs.getD index .zero)) := by
  let after (row : Row Number) := (start row).modify index (·.add (row.coefs.getD index .zero))
  have upTo : ∀ count ≤ rows.length,
      (columnEntries (rows.take count) index).foldl Draft.addEntry (rows.map start) =
        renewed (fun _ => start) (fun _ => after) rows count := by
    intro count
    induction count with
    | zero =>
      intro _
      rw [renewed_zero, mapIdx_const]
      rfl
    | succ count ih =>
      intro reach
      have known := List.getElem?_eq_getElem (show count < rows.length from reach)
      rw [columnEntries, mapIdx_take_succ known, List.foldl_append, ← columnEntries,
        ih (Nat.le_of_succ_le reach)]
      exact modify_renewed known rfl
  have whole := upTo rows.length (Nat.le_refl _)
  rwa [List.take_length, renewed_length, mapIdx_const] at whole

/-- The matrix of all entries is the one of the model. -/
theorem matrix_fullDraft (writable : Writable model)
    (shaped : ∀ row ∈ model.rows, row.coefs.length = model.columns.length) :
    (fullDraft model).matrix = model.rows.map Row.coefs := by
  -- The matrix starts as zero, and the entries of a column turn it into the one of the model.
  have upTo : ∀ count ≤ model.columns.length,
      (columnsDraft model count).entries.foldl Draft.addEntry
          (model.rows.map fun _ => model.columns.map fun _ => Number.zero) =
        model.rows.map fun row => renewed (fun _ _ => .zero) (fun _ x => x) row.coefs count := by
    intro count
    induction count with
    | zero =>
      intro _
      refine List.map_congr_left fun row member => ?_
      rw [renewed_zero, mapIdx_const, List.map_const', List.map_const', shaped row member]
    | succ count ih =>
      intro reach
      have known := List.getElem?_eq_getElem (show count < model.columns.length from reach)
      rw [entries_columnsDraft known, List.foldl_append, ih (Nat.le_of_succ_le reach),
        foldl_columnEntries]
      refine List.map_congr_left fun row member => ?_
      have inside : count < row.coefs.length := shaped row member ▸ reach
      have there := List.getElem?_eq_getElem inside
      refine modify_renewed there ?_
      rw [(writable.coefs row member count).zero_add, List.getD_eq_getElem?_getD, there,
        Option.getD_some]
  have start : (fullDraft model).rows.map (fun _ =>
      (fullDraft model).columns.map fun _ => Number.zero) =
      model.rows.map fun _ => model.columns.map fun _ => Number.zero := by
    simp only [rows_fullDraft, columns_fullDraft, List.map_const', List.length_mapIdx]
  rw [Draft.matrix, start]
  refine (upTo _ (Nat.le_refl _)).trans ?_
  refine List.map_congr_left fun row member => ?_
  rw [← shaped row member, renewed_length, mapIdx_const, List.map_id']

/-! ### The model -/

theorem toModel_fullDraft (writable : Writable model)
    (counted : model.objective.length = model.columns.length)
    (shaped : ∀ row ∈ model.rows, row.coefs.length = model.columns.length) :
    (fullDraft model).toModel = model := by
  have matrix := matrix_fullDraft writable shaped
  have objective : (fullDraft model).columns.map
      (fun entry => entry.cost.getD .zero) = model.objective := by
    rw [columns_fullDraft, map_mapIdx]
    refine List.ext_getElem (by simp [counted]) fun index _ inside => ?_
    simp [columnEntry, inside]
  have columns : (fullDraft model).columns.map (·.column) = model.columns := by
    rw [columns_fullDraft, map_mapIdx]
    exact (mapIdx_const model.columns id).trans (List.map_id _)
  have rows : (fullDraft model).toModel.rows = model.rows := by
    have single : (model.rows.map fun row => [row]).flatten = model.rows := by
      rw [← List.flatMap_def, List.flatMap_singleton']
    refine (congrArg List.flatten (List.ext_getElem ?_ fun index _ _ => ?_)).trans single
    · simp [matrix, rows_fullDraft]
    · simp [matrix, rows_fullDraft, rowEntry, modelRows]
  change Model.mk _ (fullDraft model).constant (fullDraft model).toModel.rows _
    (fullDraft model).maximize = model
  rw [rows, objective, columns]
  rfl

/-- A model of integers is read back from its text. -/
theorem parse_render (counted : model.objective.length = model.columns.length)
    (shaped : ∀ row ∈ model.rows, row.coefs.length = model.columns.length)
    (small : model.rows.length * model.columns.length ≤ 100000)
    (integers : ∀ x ∈ model.numbers, ∃ z : Int, x = .ofInt z ∧ z.natAbs ≤ 2 ^ 63 - 1) :
    (parse (Text.lines (render model).toUTF8)).outcome =
      .ok { name := "P", model, maximize := model.maximize } := by
  have writable : Writable model := writable_of_numbers fun x member => by
    obtain ⟨z, same, bound⟩ := integers x member
    exact ⟨z, same, by omega⟩
  have finished : (fullDraft model).finish =
      .ok { name := "P", model, maximize := model.maximize } := by
    have rows : (fullDraft model).rows.length = model.rows.length := by
      rw [rows_fullDraft, List.length_mapIdx]
    have columns : (fullDraft model).columns.length = model.columns.length := by
      rw [columns_fullDraft, List.length_mapIdx]
    have fits : ¬ maxEntries < model.rows.length * model.columns.length := Nat.not_lt.mpr small
    rw [Draft.finish, rows, columns, if_neg fits, Draft.named,
      toModel_fullDraft writable counted shaped]
    rfl
  rw [parse, Run.outcome_bind, readLines_render writable]
  exact congrArg (Except.mapError Failure.refused) finished

/-- Maximise `5 + 3 x - y` over `x ≤ 7`, for a nonnegative integer `x` and `y` from `-6` to `-2`. -/
def sample : Model where
  objective := [.ofInt 3, .ofInt (-1)]
  constant := .ofInt 5
  rows := [⟨[.ofInt 1, .ofInt 0], .le, .ofInt 7⟩]
  columns := [{ integral := true },
    { lower := some (.ofInt (-6)), upper := some (.ofInt (-2)) }]
  maximize := true

/-- The negative upper bound of the last column frees its lower bound, which is then stated. -/
theorem sample_read : (modelLines sample).map Line.text =
    ["NAME P", "OBJSENSE MAX", "ROWS", " N OBJ", " L R0",
      "COLUMNS", " M 'MARKER' 'INTORG'", " C0 OBJ 3", " C0 R0 1", " M 'MARKER' 'INTEND'",
      " C1 OBJ -1", " C1 R0 0", "RHS", " RHS OBJ -5", " RHS R0 7",
      "BOUNDS", " PL BND C0", " LO BND C0 0", " UP BND C1 -2", " LO BND C1 -6", "ENDATA"] ∧
    (parse (Text.lines (render sample).toUTF8)).outcome =
      .ok { name := "P", model := sample, maximize := true } := by
  refine ⟨by decide +kernel, parse_render (by decide) (by decide) (by decide) ?_⟩
  have numbers : sample.numbers = [3, -1, 5, 1, 0, 7, 0, -6, -2].map Number.ofInt := rfl
  have small : ∀ z ∈ [3, -1, 5, 1, 0, 7, 0, -6, -2], Int.natAbs z ≤ 2 ^ 63 - 1 := by decide
  rw [numbers, List.forall_mem_map]
  exact fun z member => ⟨z, rfl, small z member⟩

end MixedInteger.Mps
