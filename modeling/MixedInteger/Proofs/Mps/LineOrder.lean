import MixedInteger.Proofs.Mps.Exchange

/-! The order of lines. Two neighbouring lines of a section can change places if neither touches
what the other one does; then the file still means the same model. Coefficients of one place add up,
and for two lines that share a place this needs exact sums, which integers have. The objective is
spread out from a table of costs by column, and it does not matter in which order. -/
namespace MixedInteger.Mps

namespace Draft

variable {draft next : Draft}

/-! ### Rows by name -/

theorem target_of_bare (same : next.bare = draft.bare) : next.target = draft.target := by
  have search : ∀ (state : Draft) (name : String),
      state.rows.findIdx? (·.name == name) = (state.bare.rows.map RowEntry.name).findIdx? (· == name) := by
    intro state name
    simp only [bare, List.findIdx?_map]
    rfl
  funext name
  unfold target
  rw [objectiveRow_of_bare same, search, search, same]

theorem readPairs_of_bare (same : next.bare = draft.bare) : next.readPairs = draft.readPairs := by
  funext words
  unfold readPairs
  rw [target_of_bare same]

theorem target_inj {one other : String} {target : Target} (first : draft.target one = .ok target)
    (second : draft.target other = .ok target) : one = other := by
  have here := named_of_target first
  have there := named_of_target second
  cases target <;> exact Option.some.inj (here.symm.trans there)

/-- Lines that name different rows have items of different targets. -/
theorem Resolves.apart {one other : List (String × String)} {items more : List (Target × Number)}
    (first : draft.Resolves one items) (second : draft.Resolves other more)
    (disjoint : (one.map Prod.fst).Disjoint (other.map Prod.fst)) :
    ∀ a ∈ items, ∀ b ∈ more, a.1 ≠ b.1 := by
  intro a inOne b inOther same
  obtain ⟨pair, stated, found, -⟩ := first.origin inOne
  obtain ⟨again, restated, refound, -⟩ := second.origin inOther
  have names : pair.1 = again.1 := target_inj found (same ▸ refound)
  exact disjoint (List.mem_map_of_mem stated) (names ▸ List.mem_map_of_mem restated)

theorem setRhs_comm {a b : Target × Number} (apart : a.1 ≠ b.1) :
    (draft.setRhs a).setRhs b = (draft.setRhs b).setRhs a := by
  obtain ⟨_ | i, value⟩ := a <;> obtain ⟨_ | j, other⟩ := b
  · exact absurd rfl apart
  · rfl
  · rfl
  · have distinct : i ≠ j := fun same => apart (congrArg Target.row same)
    simp only [setRhs]
    rw [modify_comm fun same => absurd same distinct]

theorem putRange_comm {a b : Target × Number} (apart : a.1 ≠ b.1) :
    (draft.putRange a).putRange b = (draft.putRange b).putRange a := by
  obtain ⟨_ | i, value⟩ := a <;> obtain ⟨_ | j, other⟩ := b
  · rfl
  · rfl
  · rfl
  · have distinct : i ≠ j := fun same => apart (congrArg Target.row same)
    simp only [putRange]
    rw [modify_comm fun same => absurd same distinct]

/-- Two lines of values for different rows can be read in either order. -/
theorem pairs_exchange {step : Draft → Target × Number → Draft}
    (keeps : ∀ draft item, (step draft item).bare = draft.bare)
    (comm : ∀ {draft a b}, a.1 ≠ b.1 → step (step draft a) b = step (step draft b) a)
    {one other : List String} {items more : List (Target × Number)}
    (first : draft.readPairs one = .ok items)
    (second : (items.foldl step draft).readPairs other = .ok more)
    (disjoint : ((pairs (withoutSet one)).map Prod.fst).Disjoint
      ((pairs (withoutSet other)).map Prod.fst)) :
    draft.readPairs other = .ok more ∧ (more.foldl step draft).readPairs one = .ok items ∧
      more.foldl step (items.foldl step draft) = items.foldl step (more.foldl step draft) := by
  rw [readPairs_of_bare (foldl_keeps Draft.bare keeps _ _)] at second ⊢
  refine ⟨second, first, ?_⟩
  have apart := (readPairs_eq_ok_iff.mp first).2.apart (readPairs_eq_ok_iff.mp second).2 disjoint
  rw [← List.foldl_append, ← List.foldl_append]
  exact foldl_exchange (fun _ => True) (fun _ _ _ _ => trivial)
    (fun _ _ a inOne b inOther => comm (apart a inOne b inOther)) trivial

end Draft

/-! ### Lines by section -/

section Sections

variable {draft next : Draft} {words : List String}

theorem takes_rhs_iff (place : draft.place = .rhs) :
    Takes draft words next ↔
      ∃ items, draft.readPairs words = .ok items ∧ next = items.foldl Draft.setRhs draft := by
  constructor
  · intro takes
    cases takes with
    | rhs _ read => exact ⟨_, read, rfl⟩
    | sense here | objective here | freeRow here | row here | marker here | column here | range here
    | bound here => cases place.symm.trans here
  · rintro ⟨items, read, rfl⟩
    exact .rhs place read

theorem takes_range_iff (place : draft.place = .ranges) :
    Takes draft words next ↔ ∃ items, draft.readPairs words = .ok items ∧
      (∀ item ∈ items, item.1 ≠ .objective) ∧ next = items.foldl Draft.putRange draft := by
  constructor
  · intro takes
    cases takes with
    | range _ read rows => exact ⟨_, read, rows, rfl⟩
    | sense here | objective here | freeRow here | row here | marker here | column here | rhs here
    | bound here => cases place.symm.trans here
  · rintro ⟨items, read, rows, rfl⟩
    exact .range place read rows

/-- A line of a column that is known already. -/
theorem takes_column_iff {name : String} (place : draft.place = .columns)
    (plain : words.head? ≠ some "'MARKER'") {index : Nat}
    (known : draft.declareColumn name = (index, draft)) :
    Takes draft (name :: words) next ↔ (2 ≤ words.length ∧ words.length % 2 = 0) ∧
      ∃ items, draft.Resolves (Draft.pairs words) items ∧ next = draft.addItems index items := by
  constructor
  · intro takes
    cases takes with
    | column _ _ paired resolved =>
      rw [known]
      exact ⟨paired, _, resolved, rfl⟩
    | marker _ marks =>
      rw [List.getElem?_cons_succ, ← List.head?_eq_getElem?] at marks
      exact absurd marks plain
    | sense here | objective here | freeRow here | row here | range here | rhs here | bound here =>
      cases place.symm.trans here
  · rintro ⟨paired, items, resolved, rfl⟩
    have takes : Takes draft (name :: words) _ := .column place plain paired resolved
    rwa [known] at takes

/-- The change that a bound line makes to a column. -/
def BoundChange (words : List String) (word : Option String) (before after : ColumnEntry) : Prop :=
  ∃ value column frees, word.mapM readNumber = .ok value ∧
    Draft.applyBound (words.head?.getD "")
      (value.filter fun v => v.toBinary64.abs < infiniteBound) before.column = .ok (column, frees) ∧
    after = { before with column }

theorem takes_bound_iff {name : String} {word : Option String} (place : draft.place = .bounds)
    (stated : Draft.boundWords words = .ok (name, word)) :
    Takes draft words next ↔ ∃ index before after,
      draft.columnNames.findIdx? (· == name) = some index ∧ draft.columns[index]? = some before ∧
      BoundChange words word before after ∧ next = { draft with columns := draft.columns.set index after } := by
  have search : draft.columnNames.findIdx? (· == name) = draft.columns.findIdx? (·.name == name) := by
    rw [Draft.columnNames, List.findIdx?_map]
    rfl
  rw [search]
  constructor
  · intro takes
    cases takes with
    | bound _ again found known read applied =>
      cases stated.symm.trans again
      exact ⟨_, _, _, found, known, ⟨_, _, _, read, applied, rfl⟩, rfl⟩
    | sense here | objective here | freeRow here | row here | marker here | column here | rhs here
    | range here => cases place.symm.trans here
  · rintro ⟨index, before, _, found, known, ⟨value, column, frees, read, applied, rfl⟩, rfl⟩
    exact .bound place stated found known read applied

end Sections

/-! ### Exchanging two lines -/

section Exchange

variable {draft middle next : Draft} {one other : List String}

theorem exchange_rhs (place : draft.place = .rhs) (first : Takes draft one middle)
    (second : Takes middle other next)
    (disjoint : ((Draft.pairs (Draft.withoutSet one)).map Prod.fst).Disjoint
      ((Draft.pairs (Draft.withoutSet other)).map Prod.fst)) :
    ∃ state, Takes draft other state ∧ Takes state one next := by
  have here := first.place_eq.trans place
  obtain ⟨items, read, rfl⟩ := (takes_rhs_iff place).mp first
  obtain ⟨more, again, rfl⟩ := (takes_rhs_iff here).mp second
  obtain ⟨before, after, same⟩ :=
    Draft.pairs_exchange Draft.bare_setRhs Draft.setRhs_comm read again disjoint
  have between := (takes_rhs_iff place).mpr ⟨more, before, rfl⟩
  exact ⟨_, between, (takes_rhs_iff (between.place_eq.trans place)).mpr ⟨items, after, same⟩⟩

theorem exchange_ranges (place : draft.place = .ranges) (first : Takes draft one middle)
    (second : Takes middle other next)
    (disjoint : ((Draft.pairs (Draft.withoutSet one)).map Prod.fst).Disjoint
      ((Draft.pairs (Draft.withoutSet other)).map Prod.fst)) :
    ∃ state, Takes draft other state ∧ Takes state one next := by
  have here := first.place_eq.trans place
  obtain ⟨items, read, rows, rfl⟩ := (takes_range_iff place).mp first
  obtain ⟨more, again, others, rfl⟩ := (takes_range_iff here).mp second
  obtain ⟨before, after, same⟩ :=
    Draft.pairs_exchange Draft.bare_putRange Draft.putRange_comm read again disjoint
  have between := (takes_range_iff place).mpr ⟨more, before, others, rfl⟩
  exact ⟨_, between, (takes_range_iff (between.place_eq.trans place)).mpr ⟨items, after, rows, same⟩⟩

theorem exchange_bounds {name again : String} {word value : Option String}
    (place : draft.place = .bounds) (first : Takes draft one middle)
    (second : Takes middle other next) (stated : Draft.boundWords one = .ok (name, word))
    (restated : Draft.boundWords other = .ok (again, value)) (distinct : name ≠ again) :
    ∃ state, Takes draft other state ∧ Takes state one next := by
  have here := first.place_eq.trans place
  have names : middle.columnNames = draft.columnNames := by
    rw [first.columnNames_eq, statedColumn?_of_ne (by simp [place])]
    rfl
  obtain ⟨i, before, after, found, known, bounds, rfl⟩ := (takes_bound_iff place stated).mp first
  obtain ⟨j, entry, changed, sought, present, rebounds, rfl⟩ := (takes_bound_iff here restated).mp second
  rw [names] at sought
  have apart : i ≠ j := by
    rintro rfl
    have one := (List.findIdx?_eq_some_iff_getElem.mp found).2.1
    have two := (List.findIdx?_eq_some_iff_getElem.mp sought).2.1
    exact distinct ((beq_iff_eq.mp one).symm.trans (beq_iff_eq.mp two))
  rw [List.getElem?_set_ne apart] at present
  have between := (takes_bound_iff place restated).mpr ⟨j, entry, changed, sought, present, rebounds, rfl⟩
  refine ⟨_, between, (takes_bound_iff (between.place_eq.trans place) stated).mpr
    ⟨i, before, after, ?_, ?_, bounds, ?_⟩⟩
  · rw [between.columnNames_eq, statedColumn?_of_ne (by simp [place])]
    exact found
  · rw [List.getElem?_set_ne apart.symm]
    exact known
  · simp only [List.set_comm after changed apart]

/-- The places that the pairs of a column have values for. -/
def places (name : String) (words : List String) : List (String × String) :=
  (Draft.pairs words).map fun pair => (pair.1, name)

/-- Every value of a line of coefficients is an integer. -/
def IntegerValued (words : List String) : Prop :=
  words[1]? ≠ some "'MARKER'" → ∀ pair ∈ Draft.pairs words.tail, ∃ z : Int,
    readNumber pair.2 = .ok (.ofInt z)

/-- A draft in which every coefficient is exact. -/
def Draft.IsExact (draft : Draft) : Prop :=
  (∀ entry ∈ draft.entries, entry.2.2.isExact) ∧ ExactCosts draft.columns

theorem isExact_of_integerValued {name : String} {words : List String}
    {items : List (Target × Number)} (integers : IntegerValued (name :: words))
    (plain : words.head? ≠ some "'MARKER'") (resolved : draft.Resolves (Draft.pairs words) items) :
    ∀ item ∈ items, item.2.isExact := by
  intro item member
  obtain ⟨pair, stated, -, read⟩ := resolved.origin member
  obtain ⟨z, number⟩ := integers (by rwa [List.getElem?_cons_succ, ← List.head?_eq_getElem?]) pair stated
  rw [Except.ok.inj (read.symm.trans number)]
  rfl

theorem Draft.declareColumn_of_mem {name : String} (known : name ∈ draft.columnNames) :
    ∃ index, draft.columnNames[index]? = some name ∧ ∀ state : Draft,
      state.columnNames = draft.columnNames → state.declareColumn name = (index, state) := by
  have listed : (draft.columnNames.findIdx? (· == name)).isSome := by
    rw [List.findIdx?_isSome]
    exact List.any_eq_true.mpr ⟨name, known, beq_self_eq_true name⟩
  obtain ⟨index, found⟩ := Option.isSome_iff_exists.mp listed
  obtain ⟨inside, named, -⟩ := List.findIdx?_eq_some_iff_getElem.mp found
  refine ⟨index, List.getElem?_eq_some_iff.mpr ⟨inside, beq_iff_eq.mp named⟩, fun state same => ?_⟩
  rw [← same, columnNames, List.findIdx?_map] at found
  unfold declareColumn
  simp only [Function.comp_def] at found
  rw [found]

theorem exchange_columns {name again : String} {words more : List String}
    (place : draft.place = .columns) (first : Takes draft (name :: words) middle)
    (second : Takes middle (again :: more) next)
    (plain : words.head? ≠ some "'MARKER'") (ordinary : more.head? ≠ some "'MARKER'")
    (known : name ∈ draft.columnNames) (present : again ∈ draft.columnNames)
    (apart : (places name words).Disjoint (places again more) ∨
      draft.IsExact ∧ IntegerValued (name :: words) ∧ IntegerValued (again :: more)) :
    ∃ state last, Takes draft (again :: more) state ∧ Takes state (name :: words) last ∧
      Draft.Alike next last := by
  have here := first.place_eq.trans place
  obtain ⟨i, atName, declares⟩ := Draft.declareColumn_of_mem known
  obtain ⟨j, atAgain, redeclares⟩ := Draft.declareColumn_of_mem present
  obtain ⟨paired, items, resolved, rfl⟩ := (takes_column_iff place plain (declares draft rfl)).mp first
  obtain ⟨repaired, others, found, rfl⟩ :=
    (takes_column_iff here ordinary (redeclares _ (Draft.columnNames_addItems ..))).mp second
  have between := (takes_column_iff place ordinary (redeclares draft rfl)).mpr
    ⟨repaired, others, found, rfl⟩
  have after := (takes_column_iff (between.place_eq.trans place) plain
    (declares _ (Draft.columnNames_addItems ..))).mpr ⟨paired, items, resolved, rfl⟩
  refine ⟨_, _, between, after, Draft.addItems_exchange (apart.imp (fun disjoint same => ?_)
    fun ⟨exact, integers, reintegers⟩ => ?_)⟩
  · obtain rfl : name = again := Option.some.inj (atName.symm.trans (same ▸ atAgain))
    refine resolved.apart found fun row inOne inOther => ?_
    obtain ⟨pair, stated, rfl⟩ := List.mem_map.mp inOne
    obtain ⟨repeated, restated, same⟩ := List.mem_map.mp inOther
    exact disjoint (List.mem_map.mpr ⟨pair, stated, rfl⟩)
      (List.mem_map.mpr ⟨repeated, restated, by rw [same]⟩)
  · exact ⟨exact.1, exact.2, List.forall_mem_append.mpr
      ⟨isExact_of_integerValued integers plain resolved,
        isExact_of_integerValued reintegers ordinary found⟩⟩

theorem Takes.isExact {words : List String} (takes : Takes draft words next)
    (integers : draft.place = .columns → IntegerValued words) (exact : draft.IsExact) :
    next.IsExact := by
  cases takes with
  | sense | objective | freeRow | row | marker => exact exact
  | @column name words items place plain paired resolved =>
    have summands := isExact_of_integerValued (integers place) plain resolved
    constructor
    · rw [Draft.addItems, Draft.entries_declareColumn, List.forall_mem_append]
      exact ⟨exact.1, fun entry member => summands _ (Draft.mem_entriesOf.mp member).2⟩
    · refine List.foldlRecOn (Draft.costsOf items) _ ?_ fun columns held value member =>
        Draft.exactCosts_addCost held (summands _ (Draft.mem_costsOf.mp member)) _
      unfold Draft.declareColumn
      split
      · exact exact.2
      · exact List.forall_mem_append.mpr ⟨exact.2, List.forall_mem_singleton.mpr (by simp)⟩
  | @rhs words items =>
    have same := foldl_keeps Draft.bare Draft.bare_setRhs items draft
    rwa [Draft.IsExact, Draft.entries_of_bare same, Draft.columns_of_bare same]
  | @range words items =>
    have same := foldl_keeps Draft.bare Draft.bare_putRange items draft
    rwa [Draft.IsExact, Draft.entries_of_bare same, Draft.columns_of_bare same]
  | bound place stated found known =>
    have cost := exact.2 _ (List.mem_of_getElem? known)
    refine ⟨exact.1, fun entry member => ?_⟩
    rcases List.mem_or_eq_of_mem_set member with old | rfl
    · exact exact.2 entry old
    · exact cost

end Exchange

/-- Every coefficient of a file is an integer. -/
def IntegerColumns (lines : List Statement) : Prop :=
  ∀ words, (.columns, words) ∈ dataLines .start lines → IntegerValued words

theorem Leads.isExact {lines : List Statement} {draft : Draft} (leads : Leads {} lines draft)
    (integers : IntegerColumns lines) : draft.IsExact := by
  refine leads.traces (fun seen state =>
    (∀ words, (Section.columns, words) ∈ seen → IntegerValued words) → state.IsExact) ?_ ?_ ?_ integers
  · intro _
    exact ⟨by simp, by simp [Draft.ExactCosts]⟩
  · intro seen state place name sense exact integers
    exact exact integers
  · intro seen state words next exact takes integers
    refine takes.isExact (fun place => integers words ?_)
      (exact fun line member => integers line (List.mem_append_left _ member))
    rw [place]
    exact List.mem_append_right _ (List.mem_singleton_self _)

/-- Two data lines of one section of a file that can be read in either order. -/
inductive Independent (lines : List Statement) (draft : Draft) : List String → List String → Prop where
  | rhs {one other : List String} (place : draft.place = .rhs)
      (disjoint : ((Draft.pairs (Draft.withoutSet one)).map Prod.fst).Disjoint
        ((Draft.pairs (Draft.withoutSet other)).map Prod.fst)) :
      Independent lines draft one other
  | ranges {one other : List String} (place : draft.place = .ranges)
      (disjoint : ((Draft.pairs (Draft.withoutSet one)).map Prod.fst).Disjoint
        ((Draft.pairs (Draft.withoutSet other)).map Prod.fst)) :
      Independent lines draft one other
  | bounds {one other : List String} {name again : String} {word value : Option String}
      (place : draft.place = .bounds) (stated : Draft.boundWords one = .ok (name, word))
      (restated : Draft.boundWords other = .ok (again, value)) (distinct : name ≠ again) :
      Independent lines draft one other
  /-- Coefficients of different places, or of any places if all of them are integers. -/
  | columns {name again : String} {words more : List String} (place : draft.place = .columns)
      (plain : words.head? ≠ some "'MARKER'") (ordinary : more.head? ≠ some "'MARKER'")
      (known : name ∈ draft.columnNames) (present : again ∈ draft.columnNames)
      (apart : (places name words).Disjoint (places again more) ∨ IntegerColumns lines) :
      Independent lines draft (name :: words) (again :: more)

theorem Independent.exchange {before after : List Statement} {draft middle next : Draft}
    {one other : List String} (leads : Leads {} before draft) (first : Takes draft one middle)
    (second : Takes middle other next)
    (independent : Independent (before ++ .data one :: .data other :: after) draft one other) :
    ∃ state last, Takes draft other state ∧ Takes state one last ∧ Draft.Alike next last := by
  cases independent with
  | rhs place disjoint =>
    obtain ⟨state, between, after⟩ := exchange_rhs place first second disjoint
    exact ⟨state, next, between, after, .refl next⟩
  | ranges place disjoint =>
    obtain ⟨state, between, after⟩ := exchange_ranges place first second disjoint
    exact ⟨state, next, between, after, .refl next⟩
  | bounds place stated restated distinct =>
    obtain ⟨state, between, after⟩ := exchange_bounds place first second stated restated distinct
    exact ⟨state, next, between, after, .refl next⟩
  | columns place plain ordinary known present apart =>
    refine exchange_columns place first second plain ordinary known present
      (apart.imp_right fun integers => ?_)
    rw [IntegerColumns, leads.dataLines_append, place] at integers
    refine ⟨leads.isExact fun line member => integers line (List.mem_append_left _ member),
      integers _ ?_, integers _ ?_⟩ <;> simp [dataLines]

/-! ### The table of costs -/

/-- The objective coefficients by column. -/
def Draft.costs (draft : Draft) : List (Nat × Number) :=
  draft.columns.zipIdx.filterMap fun (entry, column) => entry.cost.map (column, ·)

/-- A row of zeros with costs written over it, one after the other. -/
def spread (count : Nat) (costs : List (Nat × Number)) : List Number :=
  costs.foldl (fun row cost => row.set cost.1 cost.2) (List.replicate count .zero)

theorem foldl_set_of_notMem {order : List (Nat × Number)} {position : Nat}
    (absent : position ∉ order.map Prod.fst) (row : List Number) :
    (order.foldl (fun row cost => row.set cost.1 cost.2) row)[position]? = row[position]? := by
  induction order generalizing row with
  | nil => rfl
  | cons cost order ih =>
    rw [List.map_cons, List.mem_cons, not_or] at absent
    rw [List.foldl_cons, ih absent.2, List.getElem?_set_ne (Ne.symm absent.1)]

theorem foldl_set_of_mem {order : List (Nat × Number)} (distinct : (order.map Prod.fst).Nodup)
    {position : Nat} {value : Number} (member : (position, value) ∈ order) {row : List Number}
    (inside : position < row.length) :
    (order.foldl (fun row cost => row.set cost.1 cost.2) row)[position]? = some value := by
  induction order generalizing row with
  | nil => cases member
  | cons cost order ih =>
    rw [List.map_cons, List.nodup_cons] at distinct
    rw [List.foldl_cons]
    rcases List.mem_cons.mp member with rfl | later
    · rw [foldl_set_of_notMem distinct.1, List.getElem?_set_self inside]
    · exact ih distinct.2 later (by rwa [List.length_set])

namespace Draft

theorem mem_costs {draft : Draft} {position : Nat} {value : Number} :
    (position, value) ∈ draft.costs ↔
      ∃ entry, draft.columns[position]? = some entry ∧ entry.cost = some value := by
  simp only [costs, List.mem_filterMap, Prod.exists, List.mem_zipIdx_iff_getElem?,
    Option.map_eq_some_iff, Prod.mk.injEq]
  constructor
  · rintro ⟨entry, index, known, cost, stated, rfl, rfl⟩
    exact ⟨entry, known, stated⟩
  · rintro ⟨entry, known, stated⟩
    exact ⟨entry, position, known, value, stated, rfl, rfl⟩

theorem nodup_costs (draft : Draft) : (draft.costs.map Prod.fst).Nodup := by
  have positions : draft.columns.zipIdx.Pairwise fun a b => a.2 ≠ b.2 := by
    rw [← List.pairwise_map, List.zipIdx_map_snd]
    exact List.nodup_range'
  rw [List.Nodup, List.pairwise_map]
  refine positions.filterMap _ fun a b apart cost stated other restated => ?_
  obtain ⟨_, -, rfl⟩ := Option.map_eq_some_iff.mp stated
  obtain ⟨_, -, rfl⟩ := Option.map_eq_some_iff.mp restated
  exact apart

theorem spread_costs (draft : Draft) {order : List (Nat × Number)} (same : order.Perm draft.costs) :
    spread draft.columns.length order = draft.toModel.objective := by
  have distinct : (order.map Prod.fst).Nodup := (same.map _).nodup_iff.mpr draft.nodup_costs
  have absent : ∀ position,
      (∀ entry, draft.columns[position]? = some entry → entry.cost = none) →
      position ∉ order.map Prod.fst := by
    intro position free listed
    obtain ⟨⟨_, value⟩, member, rfl⟩ := List.mem_map.mp listed
    obtain ⟨entry, known, cost⟩ := mem_costs.mp (same.mem_iff.mp member)
    cases (free entry known).symm.trans cost
  refine List.ext_getElem? fun position => ?_
  change _ = (draft.columns.map fun entry => entry.cost.getD .zero)[position]?
  rw [List.getElem?_map, spread]
  cases known : draft.columns[position]? with
  | none =>
    rw [foldl_set_of_notMem (absent position (by simp [known]))]
    simpa using known
  | some entry =>
    have inside := (List.getElem?_eq_some_iff.mp known).1
    cases stated : entry.cost with
    | some value =>
      have member := same.mem_iff.mpr (mem_costs.mpr ⟨entry, known, stated⟩)
      rw [foldl_set_of_mem distinct member (by simpa using inside)]
      simp [stated]
    | none =>
      rw [foldl_set_of_notMem (absent position (by simp [known, stated]))]
      simp [inside, stated]

theorem model_of_finish {draft : Draft} {named : NamedModel} (finished : draft.finish = .ok named) :
    named.model = draft.toModel := by
  unfold finish at finished
  split at finished <;> cases finished
  rfl

end Draft

/-- The model of a file does not depend on the order of independent lines, nor on the order in which
the table of costs is gone through. -/
theorem parse_order {texts : List String} {named : NamedModel}
    (accepted : (parse (texts.map some)).outcome = .ok named) :
    (∀ before first second after draft one other, texts = before ++ first :: second :: after →
      Leads {} (before.map statement) draft →
      statement first = .data one → statement second = .data other →
      Independent (texts.map statement) draft one other →
      (parse ((before ++ second :: first :: after).map some)).outcome = .ok named) ∧
    ∃ last, Settles {} (texts.map statement) last ∧
      ∀ order : List (Nat × Number), order.Perm last.costs →
        spread last.columns.length order = named.model.objective := by
  obtain ⟨last, settles, finished⟩ := parse_eq_ok_iff.mp accepted
  constructor
  · rintro before first second after draft one other rfl leads read reread independent
    simp only [List.map_append, List.map_cons, read, reread] at settles independent
    rw [leads.settles_append_iff] at settles
    obtain ⟨middle, taken, rest⟩ := settles_data_iff.mp settles
    obtain ⟨next, retaken, rest⟩ := settles_data_iff.mp rest
    obtain ⟨state, final, between, after, alike⟩ := independent.exchange leads taken retaken
    obtain ⟨closed, settled, same⟩ := alike.settles rest
    refine parse_eq_ok_iff.mpr ⟨closed, ?_, same.finish_eq ▸ finished⟩
    simp only [List.map_append, List.map_cons, read, reread]
    rw [leads.settles_append_iff]
    exact settles_data_iff.mpr ⟨state, between, settles_data_iff.mpr ⟨final, after, settled⟩⟩
  · refine ⟨last, settles, fun order same => ?_⟩
    rw [last.spread_costs same, Draft.model_of_finish finished]

/-- Minimise `x` over `9 x ≤ 4` and `x ≥ 1`. -/
def pantry : NamedModel where
  name := ""
  model := {
    objective := [.ofInt 1]
    rows := [⟨[.ofInt 9], .le, .ofInt 4⟩, ⟨[.ofInt 1], .ge, .ofInt 1⟩]
    columns := [{}] }
  maximize := false

/-- Two lines that share a place, and two right-hand sides. -/
theorem pantry_reordered :
    (parse (["ROWS", " N cost", " L cap", " G low", "COLUMNS", " x cost 1 cap 2", " x cap 4 low 1",
      " x cap 3", "RHS", " cap 4", " low 1"].map some)).outcome = .ok pantry ∧
    (parse (["ROWS", " N cost", " L cap", " G low", "COLUMNS", " x cost 1 cap 2", " x cap 3",
      " x cap 4 low 1", "RHS", " low 1", " cap 4"].map some)).outcome = .ok pantry := by
  have accepted : (parse (["ROWS", " N cost", " L cap", " G low", "COLUMNS", " x cost 1 cap 2",
      " x cap 3", " x cap 4 low 1", "RHS", " cap 4", " low 1"].map some)).outcome = .ok pantry := by
    with_unfolding_all rfl
  obtain ⟨exchanges, -⟩ := parse_order accepted
  constructor
  · refine exchanges ["ROWS", " N cost", " L cap", " G low", "COLUMNS", " x cost 1 cap 2"] _ _
      ["RHS", " cap 4", " low 1"] _ ["x", "cap", "3"] ["x", "cap", "4", "low", "1"] rfl
      (.cons rfl (.cons rfl (.cons rfl (.cons rfl (.cons rfl (.cons rfl (.nil _))))))) rfl rfl
      (.columns rfl (by decide) (by decide) (by decide) (by decide) (.inr ?_))
    have integers : ∀ line ∈ dataLines .start (["ROWS", " N cost", " L cap", " G low", "COLUMNS",
        " x cost 1 cap 2", " x cap 3", " x cap 4 low 1", "RHS", " cap 4", " low 1"].map statement),
        line.1 = .columns → ∀ pair ∈ Draft.pairs line.2.tail, (readInt64? pair.2).isSome := by
      decide +kernel
    intro words member _ pair stated
    obtain ⟨z, read⟩ := Option.isSome_iff_exists.mp (integers _ member rfl pair stated)
    exact ⟨z, by rw [readNumber, read]⟩
  · exact exchanges ["ROWS", " N cost", " L cap", " G low", "COLUMNS", " x cost 1 cap 2",
      " x cap 3", " x cap 4 low 1", "RHS"] _ _ [] _ ["cap", "4"] ["low", "1"] rfl
      (.cons rfl (.cons rfl (.cons rfl (.cons rfl (.cons rfl (.cons rfl (.cons rfl (.cons rfl
        (.cons rfl (.nil _)))))))))) rfl rfl
      (.rhs rfl (by simp [Draft.pairs, Draft.withoutSet]))

end MixedInteger.Mps
