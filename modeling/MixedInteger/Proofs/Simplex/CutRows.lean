import MixedInteger.Proofs.Simplex.Phases

/-! Adding a cut to a tableau. The new row gets a slack of its own, and clearing the basic
columns in it makes that slack basic, so the tableau stays ready for optimisation. Its
solutions are those that satisfy the cut, with the slack as the distance to it, and they
cost what they did before. -/
namespace MixedInteger.Simplex.Tableau

/-- The column that a cut gets. -/
def cutSlack : TableauColumn Rat := { cost := 0, upper := none, lower := 0, integral := false }

/-! ### A frame with one more slack -/

section Frame

variable (frame : List (TableauColumn Rat)) (x : Nat → Rat)

theorem getElem?_append_cutSlack (index : Nat) : (frame ++ [cutSlack])[index]? =
    if index = frame.length then some cutSlack else frame[index]? := by
  rcases lt_trichotomy index frame.length with below | rfl | above
  · rw [List.getElem?_append_left below, if_neg below.ne]
  · simp
  · rw [if_neg above.ne', List.getElem?_eq_none (by simp; omega), List.getElem?_eq_none above.le]

/-- A cut's slack is bounded like an artificial column. -/
theorem inBounds_append_cutSlack : InBounds (frame ++ [cutSlack]) x ↔ InBounds frame x := by
  refine forall_congr' fun index => ?_
  rw [getElem?_append_cutSlack]
  by_cases last : index = frame.length
  · simp [last, cutSlack]
  · simp [last]

/-- A cut's slack costs nothing. -/
theorem costAt_append_cutSlack : costAt (frame ++ [cutSlack]) x = costAt frame x := by
  unfold costAt
  rw [List.map_append, form_append]
  have free : ∀ z : Nat → Rat, form ([cutSlack].map TableauColumn.cost) z = 0 := by
    intro z
    simp [cutSlack, form]
  rw [free, add_zero]
  refine form_congr fun index inside => ?_
  rw [getElem?_append_cutSlack, if_neg (by simpa using inside.ne)]

end Frame

theorem reading_append_cutSlack {tableau extended : Tableau Rat}
    (columns : extended.columns = tableau.columns ++ [cutSlack]) (x : Nat → Rat) :
    extended.reading x = tableau.reading x := by
  funext index
  unfold reading readThrough
  rw [columns, getElem?_append_cutSlack]
  by_cases last : index = tableau.columns.length
  · simp [last, cutSlack, TableauColumn.orient]
  · simp [last]

/-! ### The row of a cut -/

/-- A row with room for the slack of a cut. -/
def widened (row : TableauRow Rat) : TableauRow Rat := { row with coefs := row.coefs ++ [0] }

theorem entry_widened (row : TableauRow Rat) (index : Nat) :
    entry (widened row) index = entry row index := by
  simp only [entry, widened, List.getD_eq_getElem?_getD]
  by_cases inside : index < row.coefs.length
  · rw [List.getElem?_append_left inside]
  · rw [List.getElem?_append_right (not_lt.mp inside), List.getElem?_eq_none (not_lt.mp inside)]
    cases index - row.coefs.length <;> simp

theorem meets_widened (row : TableauRow Rat) (z : Nat → Rat) :
    (widened row).Meets z ↔ row.Meets z := by
  simp [TableauRow.Meets, widened, form_append, form]

theorem subtractFromCut_eq_ok (factor : Rat) {entries row : List Rat}
    (enough : row.length ≤ entries.length) :
    subtractFromCut factor entries row = .ok (subtractMultiple factor entries row) := by
  induction row generalizing entries with
  | nil => cases entries <;> rfl
  | cons a row ih =>
    cases entries with
    | nil => simp at enough
    | cons entry entries =>
      simp only [subtractFromCut, ih (by simpa using enough), subtractMultiple]
      rfl

/-- Eliminating a basic column from a cut is clearing it. -/
theorem eliminateBasic_eq_ok {columns : Nat} {state : List Rat × Rat} {row : TableauRow Rat}
    (same : state.1.length = row.coefs.length)
    (unit : ∀ basic, row.basic = some basic → basic < columns ∧ entry row basic = 1) :
    eliminateBasic columns state row = .ok (cleared (-1) state row) := by
  obtain ⟨coefs, rhs⟩ := state
  unfold eliminateBasic cleared
  cases named : row.basic with
  | none => rfl
  | some basic =>
    obtain ⟨inside, one⟩ := unit basic named
    dsimp only
    by_cases zero : coefs.getD basic 0 = 0
    · simp only [zero, Scalar.isZero_iff, or_true, ↓reduceIte, subtractMultiple_zero, zero_mul,
        mul_zero, add_zero]
      rfl
    · have gone : (subtractMultiple (coefs.getD basic 0) coefs row.coefs).getD basic 0 = 0 := by
        rw [getD_subtractMultiple _ same, show row.coefs.getD basic 0 = 1 from one, mul_one,
          sub_self]
      have kept := set_getD_self (subtractMultiple (coefs.getD basic 0) coefs row.coefs) basic
      rw [gone] at kept
      simp only [Scalar.isZero_iff, zero, not_le.mpr inside, or_false, ↓reduceIte,
        subtractFromCut_eq_ok _ same.ge, bind, Except.bind, kept, pure, Except.pure]
      ring_nf

/-! ### The extended tableau -/

/-- The tableau with one more row `coefs · z ≥ rhs`. -/
structure Extends (tableau extended : Tableau Rat) (coefs : List Rat) (rhs : Rat) : Prop where
  prepared : extended.Prepared
  columns : extended.columns = tableau.columns ++ [cutSlack]
  constant : extended.constant = tableau.constant
  holds : ∀ x, extended.Holds x ↔
    tableau.Holds x ∧ form coefs (tableau.reading x) = rhs + x tableau.columnCount

theorem Extends.frame {tableau extended : Tableau Rat} {coefs : List Rat} {rhs : Rat}
    (extends' : Extends tableau extended coefs rhs) :
    extended.frame = tableau.frame ++ [cutSlack] := by
  rw [Tableau.frame, extends'.columns, List.map_append]
  rfl

theorem Prepared.basic_lt {tableau : Tableau Rat} (prepared : tableau.Prepared)
    {row : TableauRow Rat} (member : row ∈ tableau.rows) {basic : Nat}
    (named : row.basic = some basic) : basic < tableau.columnCount ∧ entry row basic = 1 := by
  obtain ⟨place, found⟩ := List.mem_iff_getElem?.mp member
  have unit := prepared.units.own trivial found named
  refine ⟨?_, unit⟩
  rw [← prepared.wide.rows row member]
  exact lt_length_of_unit unit

/-- A cut as a row with its slack, before basic columns are cleared in it. -/
def openCut (columns : Nat) (coefs : List Rat) : List Rat :=
  let negated := (coefs.take columns).map (- ·)
  negated ++ List.replicate (columns - negated.length) 0 ++ [1]

theorem openCut_eq {columns : Nat} {coefs : List Rat} (short : coefs.length ≤ columns) :
    openCut columns coefs =
      (coefs.map (- ·) ++ List.replicate (columns - coefs.length) 0) ++ [1] := by
  simp [openCut, List.take_of_length_le short]

theorem length_openCut {columns : Nat} {coefs : List Rat} (short : coefs.length ≤ columns) :
    (openCut columns coefs).length = columns + 1 := by
  rw [openCut_eq short]
  simp only [List.length_append, List.length_map, List.length_replicate, List.length_singleton]
  omega

theorem getD_openCut {columns : Nat} {coefs : List Rat} (short : coefs.length ≤ columns) :
    (openCut columns coefs).getD columns 0 = 1 := by
  have length : (coefs.map (- ·) ++ List.replicate (columns - coefs.length) (0 : Rat)).length =
      columns := by
    simp only [List.length_append, List.length_map, List.length_replicate]
    omega
  rw [openCut_eq short, List.getD_eq_getElem?_getD, List.getElem?_append_right length.le, length]
  simp

theorem form_openCut {columns : Nat} {coefs : List Rat} (short : coefs.length ≤ columns)
    (z : Nat → Rat) : form (openCut columns coefs) z = z columns - form coefs z := by
  have length : (coefs.map (- ·) ++ List.replicate (columns - coefs.length) (0 : Rat)).length =
      columns := by
    simp only [List.length_append, List.length_map, List.length_replicate]
    omega
  rw [openCut_eq short, form_append, form_append, length, form_replicate_zero, form_map_neg,
    form_cons, form_nil, Nat.zero_add]
  ring

theorem unitColumns_append {rows : List (TableauRow Rat)} {columns : Nat} {cut : List Rat}
    {rhs : Rat} (units : UnitColumns (fun _ => True) rows)
    (width : ∀ row ∈ rows, row.coefs.length = columns)
    (free : ∀ row ∈ rows.map widened, ∀ basic, row.basic = some basic → cut.getD basic 0 = 0)
    (slack : cut.getD columns 0 = 1) :
    UnitColumns (fun _ => True) (rows.map widened ++ [⟨cut, rhs, some columns⟩]) := by
  intro place other row there basic _ found elsewhere named
  have cases' : ∀ (index : Nat) (item : TableauRow Rat),
      (rows.map widened ++ [⟨cut, rhs, some columns⟩])[index]? = some item →
      (∃ source, rows[index]? = some source ∧ item = widened source) ∨
        (index = rows.length ∧ item = ⟨cut, rhs, some columns⟩) := by
    intro index item known
    by_cases inside : index < rows.length
    · rw [List.getElem?_append_left (by simpa using inside), List.getElem?_map,
        Option.map_eq_some_iff] at known
      obtain ⟨source, first, rfl⟩ := known
      exact .inl ⟨source, first, rfl⟩
    · rw [List.getElem?_append_right (by simpa using inside), List.length_map] at known
      cases distance : index - rows.length with
      | zero =>
        rw [distance] at known
        exact .inr ⟨by omega, by simpa using known.symm⟩
      | succ more =>
        rw [distance] at known
        cases known
  rcases cases' place row found with ⟨source, foundSource, rfl⟩ | ⟨last, rfl⟩
  · rcases cases' other there elsewhere with ⟨target, foundTarget, rfl⟩ | ⟨end', rfl⟩
    · rw [entry_widened]
      exact units place other source target basic trivial foundSource foundTarget named
    · obtain ⟨below, -⟩ := List.getElem?_eq_some_iff.mp foundSource
      rw [if_neg (by omega)]
      exact free _ (List.mem_map_of_mem (List.mem_of_getElem? foundSource)) basic named
  · obtain rfl := Option.some.inj named
    rcases cases' other there elsewhere with ⟨target, foundTarget, rfl⟩ | ⟨end', rfl⟩
    · obtain ⟨below, -⟩ := List.getElem?_eq_some_iff.mp foundTarget
      rw [entry_widened, if_neg (by omega)]
      have size := width target (List.mem_of_getElem? foundTarget)
      simp [entry, size]
    · rw [if_pos (by omega)]
      exact slack

/-- The tableau with a cleared cut as its last row. -/
def withCut (tableau : Tableau Rat) (cut : List Rat) (total : Rat) : Tableau Rat :=
  { tableau with
    rows := tableau.rows.map widened ++ [⟨cut, total, some tableau.columnCount⟩]
    columns := tableau.columns ++ [cutSlack]
    reduced := tableau.reduced ++ [0] }

theorem reading_withCut (tableau : Tableau Rat) (cut : List Rat) (total : Rat) (x : Nat → Rat) :
    (tableau.withCut cut total).reading x = tableau.reading x :=
  reading_append_cutSlack rfl x

theorem holds_withCut (tableau : Tableau Rat) (cut : List Rat) (total : Rat) (x : Nat → Rat) :
    (tableau.withCut cut total).Holds x ↔
      tableau.Holds x ∧ form cut (tableau.reading x) = total := by
  unfold Holds
  rw [reading_withCut]
  simp only [withCut, List.mem_append, List.mem_map, List.mem_singleton]
  constructor
  · intro held
    refine ⟨fun row member => ?_, held _ (.inr rfl)⟩
    exact (meets_widened row _).mp (held _ (.inl ⟨row, member, rfl⟩))
  · rintro ⟨held, met⟩ row (⟨source, member, rfl⟩ | rfl)
    · exact (meets_widened source _).mpr (held source member)
    · exact met

theorem upperAt_withCut (tableau : Tableau Rat) (cut : List Rat) (total : Rat) (index : Nat) :
    (tableau.withCut cut total).upperAt index = tableau.upperAt index := by
  unfold upperAt
  rw [show (tableau.withCut cut total).columns = tableau.columns ++ [cutSlack] from rfl,
    getElem?_append_cutSlack]
  by_cases last : index = tableau.columns.length
  · simp [last, cutSlack]
  · simp [last]

theorem getD_append_zero (coefs : List Rat) (index : Nat) :
    (coefs ++ [0]).getD index 0 = coefs.getD index 0 :=
  entry_widened ⟨coefs, 0, none⟩ index

theorem prepared_withCut {tableau : Tableau Rat} (prepared : tableau.Prepared) {cut : List Rat}
    {total : Rat} (length : cut.length = tableau.columnCount + 1)
    (free : ∀ row ∈ tableau.rows.map widened, ∀ basic, row.basic = some basic →
      cut.getD basic 0 = 0)
    (slack : cut.getD tableau.columnCount 0 = 1) : (tableau.withCut cut total).Prepared := by
  have count : (tableau.withCut cut total).columnCount = tableau.columnCount + 1 := by
    simp [withCut, columnCount]
  exact {
    wide := by
      refine ⟨fun row member => ?_, ?_, le_rfl⟩
      · rw [count]
        rcases List.mem_append.mp member with old | new
        · obtain ⟨source, there, rfl⟩ := List.mem_map.mp old
          simp [widened, prepared.wide.rows source there]
        · obtain rfl := List.mem_singleton.mp new
          exact length
      · rw [count]
        simp [withCut, prepared.wide.reduced]
    framed := by
      refine ⟨fun index upper bound => ?_, fun column member complemented => ?_⟩
      · rw [upperAt_withCut] at bound
        exact prepared.framed.limits index upper bound
      · rcases List.mem_append.mp member with old | new
        · exact prepared.framed.bounded column old complemented
        · obtain rfl := List.mem_singleton.mp new
          cases complemented
    units := unitColumns_append prepared.units prepared.wide.rows free slack
    free := by
      intro ready row member basic named
      change (tableau.reduced ++ [0]).getD basic 0 = 0
      rw [getD_append_zero]
      rcases List.mem_append.mp member with old | new
      · obtain ⟨source, there, rfl⟩ := List.mem_map.mp old
        exact prepared.free ready source there basic named
      · obtain rfl := List.mem_singleton.mp new
        obtain rfl := Option.some.inj named
        simp [prepared.wide.reduced]
    priced := by
      intro ready x held
      have frame : (tableau.withCut cut total).frame = tableau.frame ++ [cutSlack] := by
        simp [Tableau.frame, withCut, cutSlack, TableauColumn.fixedPart]
      obtain ⟨before, -⟩ := (holds_withCut tableau cut total x).mp held
      rw [frame, costAt_append_cutSlack, ← prepared.priced ready x before, priceAt, priceAt,
        reading_withCut]
      simp [withCut, form_append, form] }

/-- Adding a cut to a prepared tableau never fails and keeps it prepared. -/
theorem addCut_spec {tableau : Tableau Rat} (prepared : tableau.Prepared) {coefs : List Rat}
    (short : coefs.length ≤ tableau.columnCount) (rhs : Rat) :
    ∃ extended, tableau.addCut coefs rhs = .ok (tableau.columnCount, extended) ∧
      Extends tableau extended coefs rhs := by
  have widths : ∀ row ∈ tableau.rows.map widened, row.coefs.length = tableau.columnCount + 1 := by
    intro row member
    obtain ⟨source, there, rfl⟩ := List.mem_map.mp member
    simp [widened, prepared.wide.rows source there]
  have units : UnitColumns (fun _ => True) (tableau.rows.map widened) := by
    intro place other row there basic _ found elsewhere named
    rw [List.getElem?_map, Option.map_eq_some_iff] at found elsewhere
    obtain ⟨source, foundSource, rfl⟩ := found
    obtain ⟨target, foundTarget, rfl⟩ := elsewhere
    rw [entry_widened]
    exact prepared.units place other source target basic trivial foundSource foundTarget named
  have steps : ∀ row ∈ tableau.rows.map widened, ∀ state : List Rat × Rat,
      state.1.length = tableau.columnCount + 1 →
      eliminateBasic tableau.columnCount state row = .ok (cleared (-1) state row) := by
    intro row member state size
    refine eliminateBasic_eq_ok (size.trans (widths row member).symm) fun basic named => ?_
    obtain ⟨source, there, rfl⟩ := List.mem_map.mp member
    rw [entry_widened]
    exact prepared.basic_lt there named
  obtain ⟨⟨cut, total⟩, ran, length, free, others, price⟩ :=
    foldlM_cleared widths units (by norm_num : (-1 : Rat) * -1 = 1) steps
      (show (openCut tableau.columnCount coefs, -rhs).1.length = tableau.columnCount + 1 from
        length_openCut short)
  have slack : cut.getD tableau.columnCount 0 = 1 := by
    refine (others tableau.columnCount fun row member => ?_).trans (getD_openCut short)
    obtain ⟨source, there, rfl⟩ := List.mem_map.mp member
    rw [entry_widened]
    simp [entry, prepared.wide.rows source there]
  refine ⟨tableau.withCut cut total, ?_, ?_⟩
  · have eliminated : tableau.addCut coefs rhs = (tableau.rows.map widened).foldlM
        (eliminateBasic tableau.columnCount) (openCut tableau.columnCount coefs, -rhs) >>= fun final =>
          pure (tableau.columnCount, tableau.withCut final.1 final.2) := rfl
    rw [eliminated, ran]
    rfl
  · refine ⟨prepared_withCut prepared length free slack, rfl, rfl, fun x => ?_⟩
    rw [holds_withCut]
    refine and_congr_right fun held => ?_
    have widenedHeld : ∀ row ∈ tableau.rows.map widened, row.Meets (tableau.reading x) := by
      intro row member
      obtain ⟨source, there, rfl⟩ := List.mem_map.mp member
      exact (meets_widened source _).mpr (held source there)
    have kept := price _ widenedHeld
    rw [form_openCut short, reading_of_le le_rfl] at kept
    constructor
    · intro met
      rw [met] at kept
      linarith
    · intro met
      rw [met] at kept
      linarith

end MixedInteger.Simplex.Tableau
