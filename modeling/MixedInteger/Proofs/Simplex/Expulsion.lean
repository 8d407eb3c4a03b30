import MixedInteger.Proofs.Simplex.Artificials
import MixedInteger.Proofs.Simplex.Costs

/-! The end of phase one. Where the artificial columns sum to zero, each of them is zero, so
a basic one leaves its row by a pivot that moves nothing, or its row says nothing about the
other columns and is dropped. Without the artificial columns the rows have the solutions
they had before phase one, and the program's costs are rebuilt on them. -/
namespace MixedInteger.Simplex.Tableau

/-! ### The largest entry -/

theorem foldl_largest {candidates : List (Nat × Rat)} {best : Option (Nat × Rat)} :
    (∀ found, candidates.foldl (fun best candidate =>
        if Scalar.isNegligible candidate.2 then best
        else if best.all fun old => old.2 < candidate.2 then some candidate else best) best =
          some found → best = some found ∨ found ∈ candidates ∧ found.2 ≠ 0) ∧
      (candidates.foldl (fun best candidate =>
        if Scalar.isNegligible candidate.2 then best
        else if best.all fun old => old.2 < candidate.2 then some candidate else best) best =
          none → best = none ∧ ∀ candidate ∈ candidates, candidate.2 = 0) := by
  induction candidates generalizing best with
  | nil => exact ⟨fun found same => .inl same, fun none => ⟨none, by simp⟩⟩
  | cons candidate candidates ih =>
    rw [List.foldl_cons]
    by_cases absent : candidate.2 = 0
    · simp only [(Scalar.isNegligible_iff _).mpr absent, ↓reduceIte]
      refine ⟨fun found same => ?_, fun none => ?_⟩
      · rcases ih.1 found same with old | ⟨member, nonzero⟩
        · exact .inl old
        · exact .inr ⟨by simp [member], nonzero⟩
      · obtain ⟨start, rest⟩ := ih.2 none
        exact ⟨start, by simpa [absent] using rest⟩
    · have test : Scalar.isNegligible candidate.2 = false := by
        rw [← Bool.not_eq_true, Scalar.isNegligible_iff]
        exact absent
      simp only [test, Bool.false_eq_true, ↓reduceIte]
      split
      · refine ⟨fun found same => ?_, fun none => ?_⟩
        · rcases ih.1 found same with old | ⟨member, nonzero⟩
          · obtain rfl := Option.some.inj old
            exact .inr ⟨by simp, absent⟩
          · exact .inr ⟨by simp [member], nonzero⟩
        · exact absurd (ih.2 none).1 (Option.some_ne_none candidate)
      · rename_i smaller
        refine ⟨fun found same => ?_, fun none => ?_⟩
        · rcases ih.1 found same with old | ⟨member, nonzero⟩
          · exact .inl old
          · exact .inr ⟨by simp [member], nonzero⟩
        · rw [(ih.2 none).1] at smaller
          simp at smaller

theorem mem_entries {columns : Nat} {row : TableauRow Rat} {candidate : Nat × Rat} :
    candidate ∈ ((row.coefs.take columns).zipIdx.map fun (a, column) => (column, Scalar.abs a)) ↔
      ∃ a, candidate.1 < columns ∧ row.coefs[candidate.1]? = some a ∧ candidate.2 = |a| := by
  obtain ⟨column, value⟩ := candidate
  simp only [List.mem_map, Prod.exists, Prod.mk.injEq, List.mem_zipIdx_iff_getElem?,
    List.getElem?_take, Scalar.abs_rat]
  constructor
  · rintro ⟨a, place, found, rfl, rfl⟩
    split at found
    · exact ⟨a, by assumption, found, rfl⟩
    · cases found
  · rintro ⟨a, below, found, rfl⟩
    exact ⟨a, column, by rw [if_pos below]; exact found, rfl, rfl⟩

theorem largestEntry_eq_some {columns column : Nat} {row : TableauRow Rat} {size : Rat}
    (largest : largestEntry columns row = some (column, size)) :
    column < columns ∧ entry row column ≠ 0 := by
  rcases foldl_largest.1 _ largest with none | ⟨member, nonzero⟩
  · cases none
  · obtain ⟨a, below, found, value⟩ := mem_entries.mp member
    refine ⟨below, ?_⟩
    have size0 : size = |a| := value
    have whole : a ≠ 0 := by
      rintro rfl
      exact nonzero (by simpa using size0)
    simpa [entry, found] using whole

theorem largestEntry_eq_none {columns column : Nat} {row : TableauRow Rat}
    (none : largestEntry columns row = none) (below : column < columns) : entry row column = 0 := by
  unfold entry
  cases found : row.coefs[column]? with
  | none => simp [found]
  | some a =>
    have member := mem_entries.mpr (⟨a, below, found, rfl⟩ :
      ∃ b, ((column, |a|) : Nat × Rat).1 < columns ∧
        row.coefs[((column, |a|) : Nat × Rat).1]? = some b ∧ ((column, |a|) : Nat × Rat).2 = |b|)
    have zero := (foldl_largest.2 none).2 _ member
    simpa [found] using zero

/-! ### Expelling artificial columns -/

/-- A vertex in which basic artificial columns are zero, with the same solutions as another
tableau wherever the artificial columns are zero. -/
structure Expelling (reached current : Tableau Rat) (width : Nat) : Prop where
  vertex : current.AtVertex width
  frame : current.frame = reached.frame
  constant : current.constant = reached.constant
  zero : ∀ row ∈ current.rows, ∀ basic, row.basic = some basic →
    reached.columnCount ≤ basic → row.rhs = 0
  holds : ∀ x, (∀ index, reached.columnCount ≤ index → x index = 0) →
    (current.Holds x ↔ reached.Holds x)

/-- Rows from a position on have a basic column that is not artificial. -/
def ExpelledFrom (columns position : Nat) (tableau : Tableau Rat) : Prop :=
  ∀ (index : Nat) (row : TableauRow Rat), position ≤ index → tableau.rows[index]? = some row →
    ∃ basic, row.basic = some basic ∧ basic < columns

section Expel

variable {reached current : Tableau Rat} {width index : Nat} {row : TableauRow Rat}

/-- A pivot in a row at zero moves nothing. -/
theorem Expelling.pivot (expelling : Expelling reached current width)
    (known : current.rows[index]? = some row) (rhs : row.rhs = 0) {column : Nat}
    (below : column < reached.columnCount) (occurs : entry row column ≠ 0) :
    Expelling reached (current.pivot index column) width := by
  have admissible : current.Admissible column 0 := by
    refine ⟨fun upper bound => expelling.vertex.framed.limits column upper bound, fun there member => ?_⟩
    rw [zero_mul, sub_zero]
    exact expelling.vertex.within there member
  obtain ⟨vertex, same⟩ := expelling.vertex.pivot (le_refl 0) admissible known occurs
    (by rw [rhs, zero_mul])
  refine ⟨vertex, same.frame.trans expelling.frame, same.constant.trans expelling.constant, ?_,
    fun x artificial => (same.holds x).trans (expelling.holds x artificial)⟩
  intro there member basic named artificial
  obtain ⟨other, found⟩ := List.mem_iff_getElem?.mp member
  rw [getElem?_pivot expelling.vertex.wide known occurs, Option.map_eq_some_iff] at found
  obtain ⟨old, before, rfl⟩ := found
  unfold pivotedRow at named ⊢
  split at named
  · obtain rfl : column = basic := by simpa [TableauRow.scaledBy] using named
    omega
  · rename_i different
    rw [if_neg different]
    have old0 := expelling.zero old (List.mem_of_getElem? before) basic named artificial
    simp [TableauRow.less, TableauRow.scaledBy, rhs, old0]

theorem UnitColumns.eraseIdx {rows : List (TableauRow Rat)}
    (units : UnitColumns (fun _ => True) rows) (index : Nat) :
    UnitColumns (fun _ => True) (rows.eraseIdx index) := by
  intro place other here there basic _ foundHere foundThere named
  rw [List.getElem?_eraseIdx] at foundHere foundThere
  by_cases beforeHere : place < index <;> by_cases beforeThere : other < index
  · rw [if_pos beforeHere] at foundHere
    rw [if_pos beforeThere] at foundThere
    exact units place other here there basic trivial foundHere foundThere named
  · rw [if_pos beforeHere] at foundHere
    rw [if_neg beforeThere] at foundThere
    have apart : place ≠ other + 1 := by omega
    have apart' : place ≠ other := by omega
    rw [if_neg apart']
    exact units.other trivial foundHere named foundThere apart
  · rw [if_neg beforeHere] at foundHere
    rw [if_pos beforeThere] at foundThere
    have apart : place + 1 ≠ other := by omega
    have apart' : place ≠ other := by omega
    rw [if_neg apart']
    exact units.other trivial foundHere named foundThere apart
  · rw [if_neg beforeHere] at foundHere
    rw [if_neg beforeThere] at foundThere
    have value := units (place + 1) (other + 1) here there basic trivial foundHere foundThere named
    simpa using value

/-- A row that mentions artificial columns only says nothing without them. -/
theorem Expelling.eraseRow (expelling : Expelling reached current width)
    (known : current.rows[index]? = some row) (rhs : row.rhs = 0)
    (absent : ∀ column < reached.columnCount, entry row column = 0) :
    Expelling reached { current with rows := current.rows.eraseIdx index } width := by
  have vertex := expelling.vertex
  have sub : ∀ there ∈ current.rows.eraseIdx index, there ∈ current.rows :=
    fun there member => List.mem_of_mem_eraseIdx member
  refine ⟨⟨⟨fun there member => vertex.wide.rows there (sub there member), vertex.wide.reduced,
      vertex.wide.columns⟩, ⟨vertex.framed.limits, vertex.framed.bounded⟩,
      vertex.units.eraseIdx index, fun there member => vertex.named there (sub there member),
      fun there member => vertex.within there (sub there member),
      fun there member => vertex.free there (sub there member)⟩, expelling.frame,
    expelling.constant, fun there member => expelling.zero there (sub there member), ?_⟩
  intro x artificial
  rw [← expelling.holds x artificial]
  have trivially : row.Meets (current.reading x) := by
    unfold TableauRow.Meets
    rw [rhs]
    refine form_eq_zero fun column => ?_
    by_cases below : column < reached.columnCount
    · rw [show row.coefs.getD column 0 = 0 from absent column below, zero_mul]
    · have outside : current.columnCount ≤ column := by
        rw [columnCount_congr expelling.frame]
        exact not_lt.mp below
      rw [reading_of_le outside, artificial column (not_lt.mp below), mul_zero]
  obtain ⟨inside, rfl⟩ := List.getElem?_eq_some_iff.mp known
  have permuted := List.getElem_cons_eraseIdx_perm inside
  constructor
  · intro held there member
    rcases List.mem_cons.mp (permuted.mem_iff.mpr member) with rfl | rest
    · exact trivially
    · exact held there rest
  · intro held there member
    exact held there (sub there member)

/-- One row is done, and those above it stay done. -/
theorem expelArtificial_spec (expelling : Expelling reached current width) {position : Nat}
    (done : ExpelledFrom reached.columnCount (position + 1) current) (dropped : List Nat) :
    ∃ next, (expelArtificial reached.columnCount (current, dropped) position).1 = next ∧
      Expelling reached next width ∧ ExpelledFrom reached.columnCount position next := by
  unfold expelArtificial
  cases known : current.rows[position]? with
  | none =>
    refine ⟨current, by simp [known], expelling, fun index row from' found => ?_⟩
    rcases Nat.eq_or_lt_of_le from' with rfl | later
    · rw [known] at found
      cases found
    · exact done index row later found
  | some row =>
    have member := List.mem_of_getElem? known
    obtain ⟨basic, named⟩ := Option.ne_none_iff_exists'.mp (expelling.vertex.named row member)
    by_cases below : basic < reached.columnCount
    · refine ⟨current, by simp [known, named, below], expelling, fun index there from' found => ?_⟩
      rcases Nat.eq_or_lt_of_le from' with rfl | later
      · obtain rfl : row = there := Option.some.inj (known.symm.trans found)
        exact ⟨basic, named, below⟩
      · exact done index there later found
    · have rhs := expelling.zero row member basic named (not_lt.mp below)
      have test : row.basic.any (· < reached.columnCount) = false := by
        simpa [named] using not_lt.mp below
      cases largest : largestEntry reached.columnCount row with
      | some pair =>
        obtain ⟨column, size⟩ := pair
        obtain ⟨inside, occurs⟩ := largestEntry_eq_some largest
        have unchanged : { current with rows := current.rows.set position { row with rhs := 0 } } =
            current := by
          have same : ({ row with rhs := 0 } : TableauRow Rat) = row := by rw [← rhs]
          obtain ⟨bound, rfl⟩ := List.getElem?_eq_some_iff.mp known
          rw [same, List.set_getElem_self]
        refine ⟨current.pivot position column, ?_, expelling.pivot known rhs inside occurs, ?_⟩
        · simp only [known, test, Bool.false_eq_true, ↓reduceIte, largest, unchanged]
        · intro index there from' found
          rw [getElem?_pivot expelling.vertex.wide known occurs, Option.map_eq_some_iff] at found
          obtain ⟨old, before, rfl⟩ := found
          unfold pivotedRow
          split
          · exact ⟨column, rfl, inside⟩
          · rename_i different
            exact done index old (by omega) before
      | none =>
        refine ⟨{ current with rows := current.rows.eraseIdx position }, ?_,
          expelling.eraseRow known rhs fun column inside => largestEntry_eq_none largest inside, ?_⟩
        · simp only [known, test, Bool.false_eq_true, ↓reduceIte, largest]
        · intro index there from' found
          rw [List.getElem?_eraseIdx_of_ge from'] at found
          exact done (index + 1) there (by omega) found

/-- After all rows, from the last to the first, no basic column is artificial. -/
theorem foldl_expelArtificial (position : Nat) (expelling : Expelling reached current width)
    (done : ExpelledFrom reached.columnCount position current) (dropped : List Nat) :
    ∃ next names, (List.range position).reverse.foldl (expelArtificial reached.columnCount)
        (current, dropped) = (next, names) ∧
      Expelling reached next width ∧ ExpelledFrom reached.columnCount 0 next := by
  induction position generalizing current dropped with
  | zero => exact ⟨current, dropped, rfl, expelling, done⟩
  | succ position ih =>
    rw [List.range_succ, List.reverse_append, List.reverse_singleton, List.singleton_append,
      List.foldl_cons]
    obtain ⟨next, same, further, done'⟩ := expelArtificial_spec expelling done dropped
    obtain ⟨final, names, ran, finished⟩ := ih (same ▸ further) (same ▸ done')
      (expelArtificial reached.columnCount (current, dropped) position).2
    exact ⟨final, names, ran, finished⟩

end Expel

/-! ### Back to the program's costs -/

/-- A vertex of the same rows whose reduced costs are those of the program. -/
structure Restored (tableau ready : Tableau Rat) : Prop where
  vertex : ready.AtVertex tableau.columnCount
  frame : ready.frame = tableau.frame
  constant : ready.constant = tableau.constant
  costReady : ready.costReady = true
  holds : ∀ x, ready.Holds x ↔ tableau.Holds x
  price : ∀ x, ready.Holds x → ready.priceAt x = costAt ready.frame x

/-- The point without its artificial columns. -/
def withoutArtificial (columns : Nat) (x : Nat → Rat) (index : Nat) : Rat :=
  if index < columns then x index else 0

theorem holds_withoutArtificial {tableau : Tableau Rat}
    (wide : ∀ row ∈ tableau.rows, row.coefs.length = tableau.columnCount) (x : Nat → Rat) :
    tableau.Holds (withoutArtificial tableau.columnCount x) ↔ tableau.Holds x := by
  refine forall_congr' fun row => forall_congr' fun member => ?_
  refine meets_congr fun column below => ?_
  rw [wide row member] at below
  simp only [reading, readThrough, withoutArtificial, below, ↓reduceIte]

theorem withoutArtificial_of_le {columns index : Nat} (outside : columns ≤ index) (x : Nat → Rat) :
    withoutArtificial columns x index = 0 := if_neg (not_lt.mpr outside)

/-- A row cut off after the last column says the same where artificial columns are zero. -/
theorem meets_take {row : TableauRow Rat} {columns : Nat} {z : Nat → Rat}
    (zero : ∀ index, columns ≤ index → z index = 0) :
    ({ row with coefs := row.coefs.take columns } : TableauRow Rat).Meets z ↔ row.Meets z := by
  unfold TableauRow.Meets
  have split : form row.coefs z = form (row.coefs.take columns) z := by
    conv_lhs => rw [← List.take_append_drop columns row.coefs]
    rw [form_append]
    have nothing : (form (row.coefs.drop columns) fun place =>
        z (place + (row.coefs.take columns).length)) = 0 := by
      refine form_eq_zero fun place => ?_
      by_cases reach : columns ≤ row.coefs.length
      · rw [zero _ (by rw [List.length_take, Nat.min_eq_left reach]; omega), mul_zero]
      · have empty : row.coefs.drop columns = [] := List.drop_eq_nil_of_le (by omega)
        simp [empty]
    rw [nothing, add_zero]
  rw [split]

/-- The rows of a tableau up to its last column, without the artificial ones behind it. -/
def cutOff (tableau : Tableau Rat) : Tableau Rat :=
  { tableau with
    rows := tableau.rows.map fun row => { row with coefs := row.coefs.take tableau.columnCount } }

section CutOff

variable {tableau : Tableau Rat} {width : Nat}

theorem wide_cutOff (wide : tableau.Wide width) :
    ∀ row ∈ tableau.cutOff.rows, row.coefs.length = tableau.columnCount := by
  refine List.forall_mem_map.mpr fun row member => ?_
  have reach := wide.columns
  rw [← wide.rows row member] at reach
  exact List.length_take_of_le reach

theorem unitColumns_cutOff (units : UnitColumns (fun _ => True) tableau.rows)
    (basics : ∀ row ∈ tableau.rows, ∃ basic, row.basic = some basic ∧ basic < tableau.columnCount) :
    UnitColumns (fun _ => True) tableau.cutOff.rows := by
  intro place other here there basic _ foundHere foundThere named
  simp only [cutOff, List.getElem?_map, Option.map_eq_some_iff] at foundHere foundThere
  obtain ⟨old, foundOld, rfl⟩ := foundHere
  obtain ⟨row, foundRow, rfl⟩ := foundThere
  obtain ⟨own, namedOwn, below⟩ := basics old (List.mem_of_getElem? foundOld)
  obtain rfl : own = basic := Option.some.inj (namedOwn.symm.trans named)
  simp only [entry, List.getD_eq_getElem?_getD, List.getElem?_take_of_lt below]
  rw [← List.getD_eq_getElem?_getD]
  exact units place other old row own trivial foundOld foundRow named

theorem holds_cutOff (wide : tableau.Wide width) (x : Nat → Rat) :
    tableau.cutOff.Holds x ↔ tableau.Holds (withoutArtificial tableau.columnCount x) := by
  refine (holds_withoutArtificial (wide_cutOff wide) x).symm.trans ?_
  refine List.forall_mem_map.trans (forall₂_congr fun row _ => meets_take fun index outside => ?_)
  exact (reading_of_le outside _).trans (withoutArtificial_of_le outside x)

/-- With the program's costs rebuilt on them, the rows that are left are a vertex. -/
theorem AtVertex.cutOff (vertex : tableau.AtVertex width)
    (basics : ∀ row ∈ tableau.rows, ∃ basic, row.basic = some basic ∧ basic < tableau.columnCount) :
    ∃ ready, tableau.cutOff.rebuildCosts = .ok ready ∧ ready.AtVertex tableau.columnCount ∧
      ready.frame = tableau.frame ∧ ready.constant = tableau.constant ∧ ready.costReady = true ∧
      (∀ x, ready.Holds x ↔ tableau.Holds (withoutArtificial tableau.columnCount x)) ∧
      ∀ x, ready.Holds x → ready.priceAt x = costAt ready.frame x := by
  have framed : tableau.cutOff.Framed := ⟨vertex.framed.limits, vertex.framed.bounded⟩
  have wide := wide_cutOff vertex.wide
  have units := unitColumns_cutOff vertex.units basics
  have named : ∀ row ∈ tableau.cutOff.rows, row.basic ≠ none :=
    List.forall_mem_map.mpr vertex.named
  have within : ∀ row ∈ tableau.cutOff.rows, tableau.cutOff.Within row row.rhs :=
    List.forall_mem_map.mpr vertex.within
  obtain ⟨reduced, value, rebuilt, length, free, price⟩ := rebuildCosts_spec framed wide units named
  refine ⟨_, rebuilt, ?_, rfl, rfl, rfl, holds_cutOff vertex.wide, price⟩
  exact {
    wide := ⟨wide, length, le_rfl⟩
    framed := ⟨framed.limits, framed.bounded⟩
    units := units
    named := named
    within := within
    free := free }

end CutOff

/-- Leaving phase one gives a vertex with the program's costs and the solutions of the
auxiliary rows without artificial columns. -/
theorem endPhaseOne_spec {reached : Tableau Rat} {width : Nat} (vertex : reached.AtVertex width)
    (zero : ∀ row ∈ reached.rows, ∀ basic, row.basic = some basic →
      reached.columnCount ≤ basic → row.rhs = 0) :
    ∃ ready dropped, reached.endPhaseOne = .ok (ready, dropped) ∧
      ready.AtVertex reached.columnCount ∧ ready.frame = reached.frame ∧
      ready.constant = reached.constant ∧ ready.costReady = true ∧
      (∀ x, ready.Holds x ↔ reached.Holds (withoutArtificial reached.columnCount x)) ∧
      ∀ x, ready.Holds x → ready.priceAt x = costAt ready.frame x := by
  have start : Expelling reached reached width := ⟨vertex, rfl, rfl, zero, fun _ _ => Iff.rfl⟩
  have nothing : ExpelledFrom reached.columnCount reached.rows.length reached := by
    intro index row past found
    rw [List.getElem?_eq_none past] at found
    cases found
  obtain ⟨expelled, names, ran, expelling, done⟩ :=
    foldl_expelArtificial reached.rows.length start nothing []
  have count : expelled.columnCount = reached.columnCount := columnCount_congr expelling.frame
  have basics : ∀ row ∈ expelled.rows, ∃ basic, row.basic = some basic ∧
      basic < expelled.columnCount := by
    intro row member
    obtain ⟨index, found⟩ := List.mem_iff_getElem?.mp member
    rw [count]
    exact done index row (Nat.zero_le _) found
  obtain ⟨ready, rebuilt, leaves, frame, constant, costReady, holds, price⟩ :=
    expelling.vertex.cutOff basics
  rw [cutOff, count] at rebuilt
  rw [count] at leaves
  refine ⟨ready, names, ?_, leaves, frame.trans expelling.frame, constant.trans expelling.constant,
    costReady, fun x => ?_, price⟩
  · unfold endPhaseOne
    simp only [ran, rebuilt]
    rfl
  · rw [holds, count]
    exact expelling.holds _ fun index outside => withoutArtificial_of_le outside x

end MixedInteger.Simplex.Tableau
