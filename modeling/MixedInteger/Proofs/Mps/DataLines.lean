import MixedInteger.Proofs.Lists
import MixedInteger.Proofs.Mps.Progress

/-! What the data lines of a file do. `Takes` has one case for each kind of data line, and says
what becomes of a draft that accepts the line; a file's data lines, each with its section, are
then enough to follow an invariant from the first line to the end marker. -/
namespace MixedInteger.Mps

/-! ### Pairs -/

namespace Draft

/-- What the pairs of a line refer to, with their values. -/
def Resolves (draft : Draft) (stated : List (String × String)) (items : List (Target × Number)) :
    Prop :=
  List.Forall₂ (fun pair item => draft.target pair.1 = .ok item.1 ∧ readNumber pair.2 = .ok item.2)
    stated items

/-- The matrix entries among the items of a column. -/
def entriesOf (column : Nat) (items : List (Target × Number)) : List (Nat × Nat × Number) :=
  items.filterMap fun
    | (.row index, value) => some (index, column, value)
    | (.objective, _) => none

/-- The objective coefficients among the items of a column. -/
def costsOf (items : List (Target × Number)) : List Number :=
  items.filterMap fun
    | (.row _, _) => none
    | (.objective, value) => some value

def addCost (column : Nat) (columns : List ColumnEntry) (value : Number) : List ColumnEntry :=
  columns.modify column fun entry =>
    { entry with cost := some ((entry.cost.map (·.add value)).getD value) }

/-- Add the items of a column: entries go to the end, costs add up in place. -/
def addItems (column : Nat) (draft : Draft) (items : List (Target × Number)) : Draft :=
  { draft with
    entries := draft.entries ++ entriesOf column items
    columns := (costsOf items).foldl (addCost column) draft.columns }

/-- Give a row a range; the objective has none. -/
def putRange (draft : Draft) : Target × Number → Draft
  | (.row index, value) =>
    { draft with rows := draft.rows.modify index fun row => { row with range := some value } }
  | (.objective, _) => draft

/-- The words of a line after an optional set name. -/
def withoutSet (words : List String) : List String :=
  if words.length % 2 = 1 then words.drop 1 else words

/-- What one pair refers to, with its value. -/
def readPair (draft : Draft) (pair : String × String) : Except Complaint (Target × Number) := do
  return (← draft.target pair.1, ← readNumber pair.2)

theorem readPairs_eq (draft : Draft) (words : List String) :
    draft.readPairs words = if withoutSet words = [] then .error .pairShape
      else (pairs (withoutSet words)).mapM draft.readPair := by
  simp only [← List.isEmpty_iff]
  rfl

theorem readColumn_eq {draft : Draft} {name : String} {words : List String}
    (plain : words.head? ≠ some "'MARKER'") :
    draft.readColumn (name :: words) =
      if words.length < 2 ∨ words.length % 2 = 1 then .error .columnShape
      else (pairs words).foldlM (addCoefficient (draft.declareColumn name).1)
        (draft.declareColumn name).2 := by
  have ordinary : (name :: words)[1]? ≠ some "'MARKER'" := by
    rwa [List.getElem?_cons_succ, ← List.head?_eq_getElem?]
  exact if_neg ordinary

theorem readColumn_cons {draft : Draft} {name : String} {words : List String}
    (plain : words.head? ≠ some "'MARKER'") (paired : 2 ≤ words.length ∧ words.length % 2 = 0) :
    draft.readColumn (name :: words) =
      (pairs words).foldlM (addCoefficient (draft.declareColumn name).1)
        (draft.declareColumn name).2 := by
  rw [readColumn_eq plain, if_neg (by omega)]

theorem readPair_eq_ok_iff {draft : Draft} {pair : String × String} {item : Target × Number} :
    draft.readPair pair = .ok item ↔
      draft.target pair.1 = .ok item.1 ∧ readNumber pair.2 = .ok item.2 := by
  obtain ⟨target, value⟩ := item
  simp only [readPair, except_bind_eq_ok]
  constructor
  · rintro ⟨_, first, _, second, same⟩
    cases same
    exact ⟨first, second⟩
  · rintro ⟨first, second⟩
    exact ⟨target, first, value, second, rfl⟩

theorem readPairs_eq_ok_iff {draft : Draft} {words : List String} {items : List (Target × Number)} :
    draft.readPairs words = .ok items ↔
      withoutSet words ≠ [] ∧ draft.Resolves (pairs (withoutSet words)) items := by
  rw [readPairs_eq]
  split
  · rename_i empty
    simp [empty]
  · rename_i nonempty
    rw [mapM_eq_ok_iff, and_iff_right nonempty]
    simp only [readPair_eq_ok_iff]
    rfl

@[simp] theorem target_declareColumn (draft : Draft) (name : String) :
    (draft.declareColumn name).2.target = draft.target := by
  unfold declareColumn
  split <;> rfl

theorem addItems_objective (column : Nat) (draft : Draft) (value : Number) :
    draft.addItems column [(.objective, value)] =
      { draft with columns := addCost column draft.columns value } := by
  simp [addItems, entriesOf, costsOf]

theorem addItems_row (column : Nat) (draft : Draft) (index : Nat) (value : Number) :
    draft.addItems column [(.row index, value)] =
      { draft with entries := draft.entries ++ [(index, column, value)] } := by
  simp [addItems, entriesOf, costsOf]

theorem addItems_cons (column : Nat) (draft : Draft) (item : Target × Number)
    (items : List (Target × Number)) :
    draft.addItems column (item :: items) = (draft.addItems column [item]).addItems column items := by
  obtain ⟨target, value⟩ := item
  cases target <;> simp [addItems, entriesOf, costsOf]

theorem addCoefficient_eq_ok_iff {column : Nat} {draft next : Draft} {pair : String × String} :
    addCoefficient column draft pair = .ok next ↔ ∃ item : Target × Number,
      (draft.target pair.1 = .ok item.1 ∧ readNumber pair.2 = .ok item.2) ∧
        next = draft.addItems column [item] := by
  simp only [addCoefficient, except_bind_eq_ok]
  constructor
  · rintro ⟨value, read, target, found, same⟩
    refine ⟨(target, value), ⟨found, read⟩, ?_⟩
    cases target with
    | objective => exact (Except.ok.inj same).symm.trans (addItems_objective column draft value).symm
    | row index => exact (Except.ok.inj same).symm.trans (addItems_row column draft index value).symm
  · rintro ⟨⟨target, value⟩, ⟨found, read⟩, rfl⟩
    refine ⟨value, read, target, found, ?_⟩
    cases target with
    | objective => exact congrArg Except.ok (addItems_objective column draft value).symm
    | row index => exact congrArg Except.ok (addItems_row column draft index value).symm

theorem foldlM_addCoefficient_eq_ok_iff {column : Nat} {draft next : Draft}
    {stated : List (String × String)} :
    stated.foldlM (addCoefficient column) draft = .ok next ↔
      ∃ items, draft.Resolves stated items ∧ next = draft.addItems column items := by
  induction stated generalizing draft with
  | nil =>
    simp only [List.foldlM_nil, Resolves, List.forall₂_nil_left_iff, exists_eq_left, addItems,
      entriesOf, costsOf, List.filterMap_nil, List.append_nil, List.foldl_nil]
    exact ⟨fun same => (Except.ok.inj same).symm, fun same => congrArg _ same.symm⟩
  | cons pair stated ih =>
    rw [List.foldlM_cons, except_bind_eq_ok]
    simp only [addCoefficient_eq_ok_iff, ih, Resolves, List.forall₂_cons_left_iff]
    constructor
    · rintro ⟨_, ⟨item, first, rfl⟩, items, rest, rfl⟩
      exact ⟨item :: items, ⟨item, items, first, rest, rfl⟩, (addItems_cons column draft item items).symm⟩
    · rintro ⟨_, ⟨item, items, first, rest, rfl⟩, rfl⟩
      exact ⟨_, ⟨item, first, rfl⟩, items, rest, addItems_cons column draft item items⟩

theorem foldlM_setRange_eq_ok_iff {draft next : Draft} {items : List (Target × Number)} :
    items.foldlM setRange draft = .ok next ↔
      (∀ item ∈ items, item.1 ≠ .objective) ∧ next = items.foldl putRange draft := by
  induction items generalizing draft with
  | nil =>
    simp only [List.foldlM_nil, List.not_mem_nil, false_implies, implies_true, true_and, List.foldl_nil]
    exact ⟨fun same => (Except.ok.inj same).symm, fun same => congrArg _ same.symm⟩
  | cons item items ih =>
    obtain ⟨_ | index, value⟩ := item
    · simp [List.foldlM_cons, setRange, bind, Except.bind]
    · rw [List.foldlM_cons, List.forall_mem_cons, List.foldl_cons]
      exact ih.trans (by simp [putRange])

end Draft

/-- What a data line does to a draft that accepts it. -/
inductive Takes (draft : Draft) : List String → Draft → Prop where
  | sense {words : List String} {sense : Bool} (place : draft.place = .sense)
      (read : ∀ other : Draft, other.setSense (words.head?.getD "") =
        .ok { other with maximize := sense }) :
      Takes draft words { draft with maximize := sense }
  | objective {name : String} (place : draft.place = .rows) (first : draft.objectiveRow = none) :
      Takes draft ["N", name] { draft with objectiveRow := some name }
  | freeRow {name : String} (place : draft.place = .rows) (later : draft.objectiveRow ≠ none) :
      Takes draft ["N", name] draft
  | row {name : String} {relation : Relation} (place : draft.place = .rows)
      (fresh : name ∉ draft.rows.map RowEntry.name) :
      Takes draft [rowKind relation, name]
        { draft with rows := draft.rows ++ [{ name, relation }] }
  | marker {words : List String} {block : Bool} (place : draft.place = .columns)
      (marks : words[1]? = some "'MARKER'")
      (read : ∀ other : Draft, other.readMarker words[2]? =
        .ok { other with integerBlock := block }) :
      Takes draft words { draft with integerBlock := block }
  | column {name : String} {words : List String} {items : List (Target × Number)}
      (place : draft.place = .columns) (plain : words.head? ≠ some "'MARKER'")
      (paired : 2 ≤ words.length ∧ words.length % 2 = 0)
      (resolved : draft.Resolves (Draft.pairs words) items) :
      Takes draft (name :: words)
        ((draft.declareColumn name).2.addItems (draft.declareColumn name).1 items)
  | rhs {words : List String} {items : List (Target × Number)} (place : draft.place = .rhs)
      (read : draft.readPairs words = .ok items) :
      Takes draft words (items.foldl Draft.setRhs draft)
  | range {words : List String} {items : List (Target × Number)} (place : draft.place = .ranges)
      (read : draft.readPairs words = .ok items) (rows : ∀ item ∈ items, item.1 ≠ .objective) :
      Takes draft words (items.foldl Draft.putRange draft)
  | bound {words : List String} {name : String} {word : Option String} {value : Option Number}
      {index : Nat} {entry : ColumnEntry} {column : ModelColumn} {frees : Bool}
      (place : draft.place = .bounds) (stated : Draft.boundWords words = .ok (name, word))
      (found : draft.columns.findIdx? (·.name == name) = some index)
      (known : draft.columns[index]? = some entry) (read : word.mapM readNumber = .ok value)
      (applied : Draft.applyBound (words.head?.getD "")
        (value.filter fun v => v.toBinary64.abs < infiniteBound) entry.column = .ok (column, frees)) :
      Takes draft words { draft with columns := draft.columns.set index { entry with column } }

namespace Draft

theorem setSense_eq_ok {draft next : Draft} {word : String} (set : draft.setSense word = .ok next) :
    ∃ sense, next = { draft with maximize := sense } ∧
      ∀ other : Draft, other.setSense word = .ok { other with maximize := sense } := by
  unfold setSense at set ⊢
  split at set
  · cases set
    exact ⟨true, rfl, fun other => if_pos ‹_›⟩
  · split at set
    · cases set
      exact ⟨false, rfl, fun other => by rw [if_neg ‹_›, if_pos ‹_›]⟩
    · cases set

theorem readMarker_eq_ok {draft next : Draft} {kind : Option String}
    (read : draft.readMarker kind = .ok next) :
    ∃ block, next = { draft with integerBlock := block } ∧
      ∀ other : Draft, other.readMarker kind = .ok { other with integerBlock := block } := by
  unfold readMarker at read
  split at read
  · cases read
    exact ⟨true, rfl, fun other => rfl⟩
  · cases read
    exact ⟨false, rfl, fun other => rfl⟩
  · cases read

theorem addRow_eq_ok_iff {draft next : Draft} {name : String} {relation : Relation} :
    draft.addRow name relation = .ok next ↔ name ∉ draft.rows.map RowEntry.name ∧
      next = { draft with rows := draft.rows ++ [{ name, relation }] } := by
  have taken : draft.rows.any (·.name == name) = true ↔ name ∈ draft.rows.map RowEntry.name := by
    simp [List.any_eq_true]
  unfold addRow
  split
  · rename_i known
    simp [taken.mp known]
  · rename_i fresh
    rw [taken] at fresh
    simp only [Except.ok.injEq, fresh, not_false_eq_true, true_and]
    exact eq_comm

theorem takes_of_readRow {draft next : Draft} {words : List String} {journal : Journal}
    (place : draft.place = .rows) (read : draft.readRow 0 words = .ok (next, journal)) :
    Takes draft words next := by
  have declared : ∀ {name : String} {relation : Relation},
      (draft.addRow name relation).map (·, ([] : Journal)) = .ok (next, journal) →
        Takes draft [rowKind relation, name] next := by
    intro name relation added
    obtain ⟨_, made, same⟩ := except_map_eq_ok.mp added
    obtain ⟨fresh, rfl⟩ := addRow_eq_ok_iff.mp made
    cases same
    exact .row place fresh
  unfold readRow at read
  split at read
  · split at read
    · rename_i first
      cases read
      exact .objective place first
    · rename_i later
      cases read
      exact .freeRow place (by simp [later])
  · exact declared read
  · exact declared read
  · exact declared read
  · cases read
  · cases read

theorem takes_of_readColumn {draft next : Draft} {words : List String}
    (place : draft.place = .columns) (read : draft.readColumn words = .ok next) :
    Takes draft words next := by
  unfold readColumn at read
  split at read
  · rename_i marks
    obtain ⟨block, rfl, marked⟩ := readMarker_eq_ok read
    exact .marker place marks marked
  · rename_i plain
    split at read
    · rename_i name rest
      split at read
      · cases read
      · rename_i paired
        obtain ⟨items, resolved, same⟩ := foldlM_addCoefficient_eq_ok_iff.mp read
        have known : (draft.declareColumn name).2.Resolves (pairs rest) items := resolved
        rw [Resolves, target_declareColumn] at known
        rw [List.getElem?_cons_succ, ← List.head?_eq_getElem?] at plain
        rw [same]
        exact .column place plain (by omega) known
    · cases read

theorem takes_of_readBound {draft next : Draft} {words : List String} {journal : Journal}
    (place : draft.place = .bounds) (read : draft.readBound 0 words = .ok (next, journal)) :
    Takes draft words next := by
  simp only [readBound, except_bind_eq_ok] at read
  obtain ⟨⟨name, word⟩, stated, read⟩ := read
  split at read
  · rename_i index entry found known
    simp only [except_bind_eq_ok] at read
    obtain ⟨value, read, ⟨column, frees⟩, applied, same⟩ := read
    cases same
    refine .bound place stated found ?_ read applied
    rw [List.find?_eq_bind_findIdx?_getElem?, found] at known
    exact known
  · cases read

theorem readData_eq_ok_iff {draft next : Draft} {words : List String} :
    (draft.readData 0 words).map Prod.fst = .ok next ↔ Takes draft words next := by
  constructor
  · intro accepted
    obtain ⟨⟨_, journal⟩, read, rfl⟩ := except_map_eq_ok.mp accepted
    unfold readData at read
    split at read
    · rename_i place
      obtain ⟨_, set, same⟩ := except_map_eq_ok.mp read
      cases same
      obtain ⟨sense, rfl, stated⟩ := setSense_eq_ok set
      exact .sense place stated
    · rename_i place
      exact takes_of_readRow place read
    · rename_i place
      obtain ⟨_, columns, same⟩ := except_map_eq_ok.mp read
      cases same
      exact takes_of_readColumn place columns
    · rename_i place
      obtain ⟨_, pairs, same⟩ := except_map_eq_ok.mp read
      cases same
      exact .rhs place pairs
    · rename_i place
      obtain ⟨items, pairs, rest⟩ := except_bind_eq_ok.mp read
      obtain ⟨_, set, same⟩ := except_bind_eq_ok.mp rest
      obtain ⟨rows, rfl⟩ := foldlM_setRange_eq_ok_iff.mp set
      cases same
      exact .range place pairs rows
    · rename_i place
      exact takes_of_readBound place read
    · cases read
    · cases read
  · intro takes
    cases takes with
    | sense place read => simp [readData, place, read, Except.map]
    | objective place first => simp [readData, place, readRow, first, Except.map]
    | freeRow place later =>
      obtain ⟨objective, known⟩ := Option.ne_none_iff_exists'.mp later
      simp [readData, place, readRow, known, Except.map]
    | row place fresh =>
      rename_i name relation
      have added : draft.addRow name relation =
          .ok { draft with rows := draft.rows ++ [{ name, relation }] } :=
        addRow_eq_ok_iff.mpr ⟨fresh, rfl⟩
      cases relation <;> simp [readData, place, readRow, rowKind, added, Except.map]
    | marker place marks read => simp [readData, place, readColumn, marks, read, Except.map]
    | column place plain paired resolved =>
      rename_i name words items
      have read : (pairs words).foldlM (addCoefficient (draft.declareColumn name).1)
          (draft.declareColumn name).2 = .ok _ := foldlM_addCoefficient_eq_ok_iff.mpr
        ⟨items, by simpa only [Resolves, target_declareColumn] using resolved, rfl⟩
      simp only [readData, place, readColumn_cons plain paired, read, Except.map]
    | rhs place read => simp [readData, place, read, Except.map]
    | range place read rows =>
      rename_i items
      have set : items.foldlM setRange draft = .ok (items.foldl putRange draft) :=
        foldlM_setRange_eq_ok_iff.mpr ⟨rows, rfl⟩
      simp only [readData, place, read, bind, Except.bind, set, pure, Except.pure, Except.map]
    | bound place stated found known read applied =>
      rename_i name word value index entry column frees
      have entry' : draft.columns.find? (·.name == name) = some entry := by
        rw [List.find?_eq_bind_findIdx?_getElem?, found]
        exact known
      simp only [readData, place, readBound, stated, found, entry', read, applied, bind,
        Except.bind, pure, Except.pure, Except.map]

end Draft

/-- A data line is taken if the section's reader accepts it. -/
theorem Draft.take_data_eq_some_iff {draft next : Draft} {words : List String} :
    draft.take (.data words) = .ok (some next) ↔ Takes draft words next := by
  rw [← readData_eq_ok_iff, take]
  cases draft.readData 0 words <;> simp [Except.map]

theorem settles_data_iff {draft last : Draft} {words : List String} {lines : List Statement} :
    Settles draft (.data words :: lines) last ↔
      ∃ next, Takes draft words next ∧ Settles next lines last := by
  constructor
  · intro settles
    obtain ⟨_ | ⟨first, body⟩, rest, split, leads, ends⟩ := settles
    · obtain rfl : rest = .data words :: lines := split.symm
      rcases ends with none | ⟨marker, more, same, stops⟩
      · cases none
      · cases same
        obtain ⟨arguments, impossible⟩ := Draft.take_eq_none_iff.mp stops
        cases impossible
    · obtain ⟨rfl, rfl⟩ : .data words = first ∧ lines = body ++ rest := List.cons.inj split
      cases leads with
      | cons taken leads =>
        exact ⟨_, Draft.take_data_eq_some_iff.mp taken, body, rest, rfl, leads, ends⟩
  · rintro ⟨next, takes, settles⟩
    exact (settles_cons_iff (Draft.take_data_eq_some_iff.mpr takes)).mpr settles

/-! ### Headers and sections -/

/-- The section that a header opens. -/
def Section.ofHeader : String → Section
  | "NAME" => .name
  | "OBJSENSE" => .sense
  | "ROWS" => .rows
  | "COLUMNS" => .columns
  | "RHS" => .rhs
  | "RANGES" => .ranges
  | "BOUNDS" => .bounds
  | _ => .start

/-- A header touches the section, the name and the sense, and nothing else. -/
theorem Draft.take_header {draft next : Draft} {name : String} {arguments : List String}
    (taken : draft.take (.header name arguments) = .ok (some next)) :
    ∃ title sense, next =
      { draft with place := .ofHeader name, name := title, maximize := sense } := by
  simp only [take, openSection] at taken
  split at taken
  · cases taken
    exact ⟨_, _, rfl⟩
  · split at taken
    · obtain ⟨_, set, same⟩ := except_map_eq_ok.mp taken
      cases same
      obtain ⟨sense, rfl, -⟩ := setSense_eq_ok set
      exact ⟨_, sense, rfl⟩
    · cases taken
      exact ⟨_, _, rfl⟩
  all_goals
    cases taken
    try exact ⟨_, _, rfl⟩

/-- The data lines up to the end marker, each with the section that it stands in. -/
def dataLines : Section → List Statement → List (Section × List String)
  | _, [] => []
  | place, .nothing :: rest => dataLines place rest
  | place, .data words :: rest => (place, words) :: dataLines place rest
  | _, .header name _ :: rest => if name = "ENDATA" then [] else dataLines (.ofHeader name) rest

namespace Draft

@[simp] theorem place_declareColumn (draft : Draft) (name : String) :
    (draft.declareColumn name).2.place = draft.place := by
  unfold declareColumn
  split <;> rfl

@[simp] theorem objectiveRow_declareColumn (draft : Draft) (name : String) :
    (draft.declareColumn name).2.objectiveRow = draft.objectiveRow := by
  unfold declareColumn
  split <;> rfl

/-- A draft without the values of its rows and its constant. -/
def bare (draft : Draft) : Draft :=
  { draft with
    rows := draft.rows.map fun row => { row with rhs := none, range := none }
    constant := .zero }

section Bare

variable {draft next : Draft}

theorem place_of_bare (same : next.bare = draft.bare) : next.place = draft.place :=
  (congrArg place same :)

theorem objectiveRow_of_bare (same : next.bare = draft.bare) :
    next.objectiveRow = draft.objectiveRow :=
  (congrArg objectiveRow same :)

theorem columns_of_bare (same : next.bare = draft.bare) : next.columns = draft.columns :=
  (congrArg columns same :)

theorem entries_of_bare (same : next.bare = draft.bare) : next.entries = draft.entries :=
  (congrArg entries same :)

end Bare

theorem bare_setRhs (draft : Draft) (item : Target × Number) :
    (draft.setRhs item).bare = draft.bare := by
  obtain ⟨_ | index, value⟩ := item
  · rfl
  · simp [setRhs, bare, map_modify]

theorem bare_putRange (draft : Draft) (item : Target × Number) :
    (draft.putRange item).bare = draft.bare := by
  obtain ⟨_ | index, value⟩ := item
  · rfl
  · simp [putRange, bare, map_modify]

end Draft

namespace Takes

variable {draft next : Draft} {words : List String}

theorem place_eq (takes : Takes draft words next) : next.place = draft.place := by
  cases takes with
  | sense | objective | freeRow | row | marker | bound => rfl
  | column => exact Draft.place_declareColumn draft _
  | rhs => exact Draft.place_of_bare (foldl_keeps Draft.bare Draft.bare_setRhs _ draft)
  | range => exact Draft.place_of_bare (foldl_keeps Draft.bare Draft.bare_putRange _ draft)

/-- Once there is an objective it stays. -/
theorem objectiveRow_eq (takes : Takes draft words next) (known : draft.objectiveRow ≠ none) :
    next.objectiveRow = draft.objectiveRow := by
  cases takes with
  | sense | freeRow | row | marker | bound => rfl
  | objective _ first => exact absurd first known
  | column => exact Draft.objectiveRow_declareColumn draft _
  | rhs => exact Draft.objectiveRow_of_bare (foldl_keeps Draft.bare Draft.bare_setRhs _ draft)
  | range => exact Draft.objectiveRow_of_bare (foldl_keeps Draft.bare Draft.bare_putRange _ draft)

end Takes

namespace Leads

variable {draft last : Draft} {lines : List Statement}

/-- What headers keep, and each data line carries on, is kept along a walk together with the data
lines that it went through. -/
theorem traces (kept : List (Section × List String) → Draft → Prop)
    (leads : Leads draft lines last) (begins : kept [] draft)
    (opens : ∀ seen (state : Draft) place name sense, kept seen state →
      kept seen { state with place := place, name := name, maximize := sense })
    (reads : ∀ seen state words next, kept seen state → Takes state words next →
      kept (seen ++ [(state.place, words)]) next) :
    kept (dataLines draft.place lines) last := by
  suffices general : ∀ seen, kept seen draft → kept (seen ++ dataLines draft.place lines) last from
    general [] begins
  clear begins
  induction leads with
  | nil draft =>
    intro seen held
    simpa only [dataLines, List.append_nil] using held
  | @cons draft middle last line lines first rest ih =>
    intro seen held
    cases line with
    | nothing =>
      cases first
      exact ih seen held
    | header name arguments =>
      have onward : name ≠ "ENDATA" := by
        rintro rfl
        cases first
      obtain ⟨title, sense, rfl⟩ := Draft.take_header first
      rw [dataLines, if_neg onward]
      exact ih seen (opens seen draft _ title sense held)
    | data words =>
      have takes := Draft.take_data_eq_some_iff.mp first
      have onward := ih _ (reads seen draft words middle held takes)
      rw [takes.place_eq] at onward
      rw [dataLines, List.append_cons]
      exact onward

theorem objectiveRow_eq (leads : Leads draft lines last) (known : draft.objectiveRow ≠ none) :
    last.objectiveRow = draft.objectiveRow :=
  leads.traces (fun _ state => state.objectiveRow = draft.objectiveRow) rfl
    (fun _ _ _ _ _ same => same)
    fun _ _ _ _ same takes => (takes.objectiveRow_eq (same ▸ known)).trans same

theorem dataLines_append (leads : Leads draft lines last) (more : List Statement) :
    dataLines draft.place (lines ++ more) =
      dataLines draft.place lines ++ dataLines last.place more := by
  induction leads with
  | nil draft => rfl
  | @cons draft middle last line lines first rest ih =>
    cases line with
    | nothing =>
      cases first
      exact ih
    | header name arguments =>
      have onward : name ≠ "ENDATA" := by
        rintro rfl
        cases first
      obtain ⟨title, sense, rfl⟩ := Draft.take_header first
      rw [List.cons_append, dataLines, dataLines, if_neg onward, if_neg onward]
      exact ih
    | data words =>
      have takes := Draft.take_data_eq_some_iff.mp first
      rw [List.cons_append, dataLines, dataLines, ← takes.place_eq, ih, List.cons_append]

end Leads

end MixedInteger.Mps
