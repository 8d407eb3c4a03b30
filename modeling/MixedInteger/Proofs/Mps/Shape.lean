import MixedInteger.Proofs.Mps.DataLines
import MixedInteger.Proofs.Feasible
import Mathlib.Data.List.Dedup

/-! The shape of what is read. A draft declares exactly the rows and columns that its data lines
name, each once, and every matrix entry lies inside it; a number is never read as a NaN. This holds
of the empty draft and each line keeps it, so that closing a draft always gives a model whose counts
agree, or finds the matrix too large. -/
namespace MixedInteger.Mps

/-! ### What data lines declare -/

/-- The constraint row that a data line declares. -/
def declaredRow? : Section × List String → Option String
  | (.rows, ["E", name]) => some name
  | (.rows, ["L", name]) => some name
  | (.rows, ["G", name]) => some name
  | _ => none

/-- The column that a data line has coefficients of. -/
def statedColumn? : Section × List String → Option String
  | (.columns, name :: words) => if words.head? = some "'MARKER'" then none else some name
  | _ => none

theorem declaredRow?_of_ne {place : Section} (elsewhere : place ≠ .rows) (words : List String) :
    declaredRow? (place, words) = none := by
  unfold declaredRow?
  split <;> simp_all

theorem statedColumn?_of_ne {place : Section} (elsewhere : place ≠ .columns) (words : List String) :
    statedColumn? (place, words) = none := by
  unfold statedColumn?
  split <;> simp_all

/-- Names with one more at the end, unless it is among them. -/
def remember (names : List String) : Option String → List String
  | none => names
  | some name => if name ∈ names then names else names ++ [name]

theorem mem_remember {names : List String} {stated : Option String} {name : String} :
    name ∈ remember names stated ↔ name ∈ names ∨ stated = some name := by
  cases stated with
  | none => simp [remember]
  | some other =>
    rw [remember]
    split
    · rename_i known
      constructor
      · exact .inl
      · rintro (known | same)
        · exact known
        · exact Option.some.inj same ▸ known
    · simp [eq_comm]

theorem nodup_remember {names : List String} (different : names.Nodup) (stated : Option String) :
    (remember names stated).Nodup := by
  cases stated with
  | none => exact different
  | some name =>
    rw [remember]
    split
    · exact different
    · rename_i fresh
      exact List.nodup_append.mpr ⟨different, List.nodup_singleton name, by
        rintro _ known _ ⟨⟩ rfl
        · exact fresh known
        · contradiction⟩

theorem length_le_remember (names : List String) (stated : Option String) :
    names.length ≤ (remember names stated).length := by
  cases stated with
  | none => exact Nat.le_refl _
  | some name =>
    rw [remember]
    split <;> simp

namespace Draft

def rowNames (draft : Draft) : List String := draft.rows.map RowEntry.name

def columnNames (draft : Draft) : List String := draft.columns.map ColumnEntry.name

theorem rowNames_of_bare {draft next : Draft} (same : next.bare = draft.bare) :
    next.rowNames = draft.rowNames := by
  have names := congrArg rowNames same
  simp only [rowNames, bare, List.map_map] at names
  exact names

@[simp] theorem rowNames_declareColumn (draft : Draft) (name : String) :
    (draft.declareColumn name).2.rowNames = draft.rowNames := by
  unfold declareColumn
  split <;> rfl

theorem columnNames_declareColumn (draft : Draft) (name : String) :
    (draft.declareColumn name).2.columnNames = remember draft.columnNames (some name) := by
  rw [remember]
  unfold declareColumn
  split
  · rename_i index found
    obtain ⟨inside, named, -⟩ := List.findIdx?_eq_some_iff_getElem.mp found
    have member : name ∈ draft.columnNames :=
      List.mem_map.mpr ⟨draft.columns[index], List.getElem_mem inside, beq_iff_eq.mp named⟩
    rw [if_pos member]
  · rename_i absent
    have fresh : name ∉ draft.columnNames := by
      intro known
      obtain ⟨entry, member, rfl⟩ := List.mem_map.mp known
      simpa using List.findIdx?_eq_none_iff.mp absent entry member
    rw [if_neg fresh]
    simp [columnNames]

/-- Costs do not show in anything else of a column. -/
theorem map_addItems {γ : Type} {view : ColumnEntry → γ}
    (kept : ∀ entry cost, view { entry with cost := cost } = view entry) (column : Nat)
    (draft : Draft) (items : List (Target × Number)) :
    (draft.addItems column items).columns.map view = draft.columns.map view :=
  foldl_keeps (List.map view) (fun columns _ => map_modify (fun entry => kept entry _) columns column)
    (costsOf items) draft.columns

@[simp] theorem columnNames_addItems (column : Nat) (draft : Draft) (items : List (Target × Number)) :
    (draft.addItems column items).columnNames = draft.columnNames :=
  map_addItems (fun _ _ => rfl) column draft items

end Draft

namespace Takes

variable {draft next : Draft} {words : List String}

theorem rowNames_eq (takes : Takes draft words next) :
    next.rowNames = draft.rowNames ++ (declaredRow? (draft.place, words)).toList ∧
      ∀ name ∈ declaredRow? (draft.place, words), name ∉ draft.rowNames := by
  have unchanged : declaredRow? (draft.place, words) = none → next.rowNames = draft.rowNames →
      next.rowNames = draft.rowNames ++ (declaredRow? (draft.place, words)).toList ∧
        ∀ name ∈ declaredRow? (draft.place, words), name ∉ draft.rowNames := by
    intro nothing same
    simp [nothing, same]
  cases takes with
  | sense place | marker place | bound place =>
    exact unchanged (declaredRow?_of_ne (by simp [place]) _) rfl
  | objective place | freeRow place => exact unchanged (by rw [place]; rfl) rfl
  | @row name relation place fresh =>
    have declared : declaredRow? (.rows, [rowKind relation, name]) = some name := by
      cases relation <;> rfl
    rw [place, declared]
    exact ⟨by simp [Draft.rowNames], by rintro _ ⟨⟩; exact fresh⟩
  | column place =>
    exact unchanged (declaredRow?_of_ne (by simp [place]) _) (Draft.rowNames_declareColumn draft _)
  | rhs place =>
    exact unchanged (declaredRow?_of_ne (by simp [place]) _)
      (Draft.rowNames_of_bare (foldl_keeps Draft.bare Draft.bare_setRhs _ draft))
  | range place =>
    exact unchanged (declaredRow?_of_ne (by simp [place]) _)
      (Draft.rowNames_of_bare (foldl_keeps Draft.bare Draft.bare_putRange _ draft))

theorem columnNames_eq (takes : Takes draft words next) :
    next.columnNames = remember draft.columnNames (statedColumn? (draft.place, words)) := by
  cases takes with
  | sense place | objective place | freeRow place | row place =>
    rw [statedColumn?_of_ne (by simp [place])]
    rfl
  | marker place marks =>
    rcases words with _ | ⟨name, words⟩
    · cases marks
    · rw [List.getElem?_cons_succ, ← List.head?_eq_getElem?] at marks
      simp only [place, statedColumn?, marks, ↓reduceIte]
      rfl
  | @column name words items place plain =>
    simp only [place, statedColumn?, plain, ↓reduceIte, Draft.columnNames_addItems]
    exact Draft.columnNames_declareColumn draft name
  | rhs place =>
    rw [statedColumn?_of_ne (by simp [place])]
    exact congrArg (·.map ColumnEntry.name) (Draft.columns_of_bare (foldl_keeps Draft.bare Draft.bare_setRhs _ draft))
  | range place =>
    rw [statedColumn?_of_ne (by simp [place])]
    exact congrArg (·.map ColumnEntry.name) (Draft.columns_of_bare (foldl_keeps Draft.bare Draft.bare_putRange _ draft))
  | @bound words name word value index entry column frees place stated found known =>
    rw [statedColumn?_of_ne (by simp [place])]
    exact map_set known rfl

theorem rows_length_le (takes : Takes draft words next) : draft.rows.length ≤ next.rows.length := by
  have names := congrArg List.length takes.rowNames_eq.1
  simp only [Draft.rowNames, List.length_append, List.length_map] at names
  omega

theorem columns_length_le (takes : Takes draft words next) :
    draft.columns.length ≤ next.columns.length := by
  have names := congrArg List.length takes.columnNames_eq
  have grown := length_le_remember draft.columnNames (statedColumn? (draft.place, words))
  simp only [Draft.columnNames, List.length_map] at names grown
  omega

end Takes

/-! ### Positions and bounds -/

/-- No bound of a column is a NaN. -/
def IsNumeric (column : ModelColumn) : Prop :=
  (∀ bound ∈ column.lower, bound.isNaN = false) ∧ ∀ bound ∈ column.upper, bound.isNaN = false

theorem isNaN_of_readNumber {word : String} {value : Number} (read : readNumber word = .ok value) :
    value.isNaN = false := by
  unfold readNumber at read
  split at read
  · cases read
    rfl
  · split at read
    · rename_i x found
      cases read
      simpa [Number.isNaN] using (Option.filter_eq_some_iff.mp found).2
    · cases read

theorem isNumeric_of_applyBound {kind : String} {value : Option Number} {column next : ModelColumn}
    {frees : Bool} (applied : Draft.applyBound kind value column = .ok (next, frees))
    (numeric : IsNumeric column) (number : ∀ bound ∈ value, bound.isNaN = false) :
    IsNumeric next := by
  have none : ∀ bound ∈ (none : Option Number), bound.isNaN = false := by simp
  have lower : ∀ freed : Bool, ∀ bound ∈ (if freed then Option.none else column.lower),
      bound.isNaN = false := by
    intro freed
    cases freed
    · exact numeric.1
    · exact none
  unfold Draft.applyBound at applied
  split at applied <;> cases applied
  · exact ⟨lower _, number⟩
  · exact ⟨lower _, number⟩
  · exact ⟨number, numeric.2⟩
  · exact ⟨number, numeric.2⟩
  · exact ⟨number, number⟩
  · exact ⟨none, none⟩
  · exact ⟨none, numeric.2⟩
  · exact ⟨numeric.1, none⟩
  · exact ⟨by rintro _ ⟨⟩; rfl, by rintro _ ⟨⟩; rfl⟩

namespace Draft

/-- What a name refers to has that name. -/
theorem named_of_target {draft : Draft} {name : String} {target : Target}
    (found : draft.target name = .ok target) :
    match target with
    | .objective => draft.objectiveRow = some name
    | .row index => (draft.rows[index]?).map RowEntry.name = some name := by
  unfold Draft.target at found
  split at found
  · cases found
    assumption
  · split at found
    · rename_i index known
      cases found
      obtain ⟨inside, named, -⟩ := List.findIdx?_eq_some_iff_getElem.mp known
      simpa [List.getElem?_eq_getElem inside] using named
    · cases found

theorem lt_of_target {draft : Draft} {name : String} {index : Nat}
    (found : draft.target name = .ok (.row index)) : index < draft.rows.length := by
  obtain ⟨row, known, -⟩ := Option.map_eq_some_iff.mp (named_of_target found)
  exact (List.getElem?_eq_some_iff.mp known).1

theorem declareColumn_lt (draft : Draft) (name : String) :
    (draft.declareColumn name).1 < (draft.declareColumn name).2.columns.length := by
  unfold declareColumn
  split
  · rename_i index known
    exact (List.findIdx?_eq_some_iff_getElem.mp known).1
  · simp

@[simp] theorem entries_declareColumn (draft : Draft) (name : String) :
    (draft.declareColumn name).2.entries = draft.entries := by
  unfold declareColumn
  split <;> rfl

@[simp] theorem length_rows_declareColumn (draft : Draft) (name : String) :
    (draft.declareColumn name).2.rows = draft.rows := by
  unfold declareColumn
  split <;> rfl

/-- Every item of a line comes from a pair of it. -/
theorem Resolves.origin {draft : Draft} {stated : List (String × String)}
    {items : List (Target × Number)} (resolved : draft.Resolves stated items)
    {item : Target × Number} (member : item ∈ items) :
    ∃ pair ∈ stated, draft.target pair.1 = .ok item.1 ∧ readNumber pair.2 = .ok item.2 := by
  induction resolved with
  | nil => cases member
  | cons first _ ih =>
    rcases List.mem_cons.mp member with rfl | later
    · exact ⟨_, List.mem_cons_self .., first⟩
    · obtain ⟨pair, stated, found⟩ := ih later
      exact ⟨pair, List.mem_cons_of_mem _ stated, found⟩

theorem mem_entriesOf {column : Nat} {items : List (Target × Number)} {entry : Nat × Nat × Number} :
    entry ∈ entriesOf column items ↔ entry.2.1 = column ∧ (.row entry.1, entry.2.2) ∈ items := by
  obtain ⟨index, position, value⟩ := entry
  simp only [entriesOf, List.mem_filterMap, Prod.exists]
  constructor
  · rintro ⟨_ | _, _, member, same⟩
    · cases same
    · cases same
      exact ⟨rfl, member⟩
  · rintro ⟨rfl, member⟩
    exact ⟨_, _, member, rfl⟩

/-- A draft whose names are different, whose entries lie inside and whose bounds are numbers. -/
structure Coherent (draft : Draft) : Prop where
  rows : draft.rowNames.Nodup
  columns : draft.columnNames.Nodup
  inside : ∀ entry ∈ draft.entries,
    entry.1 < draft.rows.length ∧ entry.2.1 < draft.columns.length
  numeric : ∀ column ∈ draft.columns.map ColumnEntry.column, IsNumeric column

end Draft

namespace Takes

variable {draft next : Draft} {words : List String}

theorem entries_inside (takes : Takes draft words next) {entry : Nat × Nat × Number}
    (member : entry ∈ next.entries) :
    entry ∈ draft.entries ∨ entry.1 < next.rows.length ∧ entry.2.1 < next.columns.length := by
  cases takes with
  | sense | objective | freeRow | row | marker | bound => exact .inl member
  | @column name words items _ _ _ resolved =>
    rcases List.mem_append.mp member with old | new
    · exact .inl (by rwa [Draft.entries_declareColumn] at old)
    · obtain ⟨here, stated⟩ := Draft.mem_entriesOf.mp new
      obtain ⟨pair, -, found, -⟩ := resolved.origin stated
      have columns := congrArg List.length (Draft.columnNames_addItems (draft.declareColumn name).1
        (draft.declareColumn name).2 items)
      simp only [Draft.columnNames, List.length_map] at columns
      refine .inr ⟨?_, ?_⟩
      · change entry.1 < (draft.declareColumn name).2.rows.length
        rw [Draft.length_rows_declareColumn]
        exact Draft.lt_of_target found
      · rw [here, columns]
        exact Draft.declareColumn_lt draft name
  | rhs =>
    exact .inl (Draft.entries_of_bare (foldl_keeps Draft.bare Draft.bare_setRhs _ draft) ▸ member)
  | range =>
    exact .inl (Draft.entries_of_bare (foldl_keeps Draft.bare Draft.bare_putRange _ draft) ▸ member)

theorem numeric (takes : Takes draft words next)
    (before : ∀ column ∈ draft.columns.map ColumnEntry.column, IsNumeric column) :
    ∀ column ∈ next.columns.map ColumnEntry.column, IsNumeric column := by
  cases takes with
  | sense | objective | freeRow | row | marker => exact before
  | @column name words items =>
    rw [Draft.map_addItems (fun _ _ => rfl)]
    unfold Draft.declareColumn
    split
    · exact before
    · rw [List.map_append, List.forall_mem_append]
      exact ⟨before, List.forall_mem_singleton.mpr ⟨by rintro _ ⟨⟩; rfl, by simp⟩⟩
  | rhs =>
    rwa [Draft.columns_of_bare (foldl_keeps Draft.bare Draft.bare_setRhs _ draft)]
  | range =>
    rwa [Draft.columns_of_bare (foldl_keeps Draft.bare Draft.bare_putRange _ draft)]
  | @bound words name word value index entry column frees place stated found known read applied =>
    have number : ∀ bound ∈ value, bound.isNaN = false := by
      cases word with
      | none =>
        cases read
        simp
      | some word =>
        obtain ⟨bound, stated, same⟩ := except_map_eq_ok.mp read
        subst same
        rintro _ ⟨⟩
        exact isNaN_of_readNumber stated
    have changed : IsNumeric column := by
      refine isNumeric_of_applyBound applied ?_ fun bound kept =>
        number bound (Option.filter_eq_some_iff.mp kept).1
      exact before _ (List.mem_map_of_mem (List.mem_of_getElem? known))
    rw [List.map_set]
    intro other member
    rcases List.mem_or_eq_of_mem_set member with old | rfl
    · exact before other old
    · exact changed

theorem coherent (takes : Takes draft words next) (coherent : draft.Coherent) :
    next.Coherent where
  rows := by
    obtain ⟨names, fresh⟩ := takes.rowNames_eq
    rw [names]
    cases declared : declaredRow? (draft.place, words) with
    | none => simpa using coherent.rows
    | some name =>
      rw [List.nodup_append]
      refine ⟨coherent.rows, List.nodup_singleton name, ?_⟩
      rintro _ known _ here rfl
      exact fresh name (by simpa using declared) (List.mem_singleton.mp here ▸ known)
  columns := by
    rw [takes.columnNames_eq]
    exact nodup_remember coherent.columns _
  inside := by
    intro entry member
    rcases takes.entries_inside member with old | new
    · have := coherent.inside entry old
      have := takes.rows_length_le
      have := takes.columns_length_le
      omega
    · exact new
  numeric := takes.numeric coherent.numeric

end Takes

/-! ### The whole file -/

/-- How many constraint rows a file declares. -/
def rowCount (lines : List Statement) : Nat :=
  ((dataLines .start lines).filterMap declaredRow?).length

/-- How many columns a file has coefficients of. -/
def columnCount (lines : List Statement) : Nat :=
  ((dataLines .start lines).filterMap statedColumn?).dedup.length

/-- A draft knows the rows and columns of the data lines that led to it, and no others. -/
structure Draft.Records (draft : Draft) (seen : List (Section × List String)) : Prop where
  coherent : draft.Coherent
  rows : draft.rowNames = seen.filterMap declaredRow?
  columns : ∀ name, name ∈ draft.columnNames ↔ name ∈ seen.filterMap statedColumn?

theorem Leads.records {lines : List Statement} {draft : Draft} (leads : Leads {} lines draft) :
    draft.Records (dataLines .start lines) := by
  refine leads.traces (fun seen state => state.Records seen) ?_ ?_ ?_
  · exact ⟨⟨.nil, .nil, by simp, by simp⟩, rfl, fun name => Iff.rfl⟩
  · intro seen state place name sense records
    exact ⟨⟨records.coherent.rows, records.coherent.columns, records.coherent.inside,
      records.coherent.numeric⟩, records.rows, records.columns⟩
  · intro seen state words next records takes
    refine ⟨takes.coherent records.coherent, ?_, ?_⟩
    · rw [takes.rowNames_eq.1, records.rows, List.filterMap_append]
      cases declared : declaredRow? (state.place, words) <;> simp [declared]
    · intro name
      rw [takes.columnNames_eq, mem_remember, records.columns, List.filterMap_append,
        List.mem_append]
      refine or_congr_right ?_
      cases stated : statedColumn? (state.place, words) <;> simp [stated, eq_comm]

theorem Draft.Records.columns_length {draft : Draft} {seen : List (Section × List String)}
    (records : draft.Records seen) :
    draft.columns.length = (seen.filterMap statedColumn?).dedup.length := by
  have same : draft.columnNames.Perm (seen.filterMap statedColumn?).dedup := by
    rw [List.perm_ext_iff_of_nodup records.coherent.columns (List.nodup_dedup _)]
    intro name
    rw [records.columns, List.mem_dedup]
  simpa [Draft.columnNames] using same.length_eq

theorem Settles.records {lines : List Statement} {last : Draft} (settles : Settles {} lines last) :
    last.Coherent ∧ last.rows.length = rowCount lines ∧ last.columns.length = columnCount lines := by
  obtain ⟨body, rest, rfl, leads, ends⟩ := settles
  have silent : dataLines last.place rest = [] := by
    rcases ends with rfl | ⟨marker, more, rfl, stops⟩
    · rfl
    · obtain ⟨arguments, rfl⟩ := Draft.take_eq_none_iff.mp stops
      rfl
  have seen : dataLines .start (body ++ rest) = dataLines .start body := by
    rw [leads.dataLines_append rest, silent, List.append_nil]
  have records := leads.records
  refine ⟨records.coherent, ?_, ?_⟩
  · rw [rowCount, seen, ← records.rows, Draft.rowNames, List.length_map]
  · rw [columnCount, seen, records.columns_length]

/-! ### The model of a draft -/

/-- Whether a row has two different limits. -/
def RowEntry.isSplit (entry : RowEntry) : Bool :=
  match entry.range with
  | none => false
  | some range =>
    let limits := rangeLimits entry.relation (entry.rhs.getD .zero) range
    !limits.1.same limits.2

namespace Draft

end Draft

/-- What is known of a model beside the draft that it was made from. -/
structure Shaped (draft : Draft) (height width : Nat) (named : NamedModel) : Prop where
  objective : named.model.objective.length = width
  columns : named.model.columns.length = width
  coefs : ∀ row ∈ named.model.rows, row.coefs.length = width
  rows : named.model.rows.length = height + draft.rows.countP RowEntry.isSplit
  sense : named.maximize = draft.maximize
  agree : named.model.maximize = named.maximize
  validate : named.model.validate =
    if named.model.coefficients.all Number.isFinite then .ok () else .error .notFinite

end MixedInteger.Mps
