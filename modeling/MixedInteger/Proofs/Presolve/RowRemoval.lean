import MixedInteger.Proofs.Presolve.ActivityBounds
import MixedInteger.Proofs.Presolve.Narrowing

/-! Rows that are dropped are implied by what stays: a row without coefficients holds or
not, a row with one coefficient becomes a bound, and a row decided by its activity follows
from the ranges, once the columns of a forcing row are pinned. Directions follow suit: along
the columns of a forcing row there are none. -/
namespace MixedInteger

theorem Row.mem_support_iff (row : Row Rat) (column : Nat) (a : Rat) :
    (column, a) ∈ row.support ↔ row.coefs[column]? = some a ∧ a ≠ 0 := by
  simp only [Row.support, List.mem_filter, List.mem_map, Prod.exists, Bool.not_eq_true',
    ← Bool.not_eq_true, Scalar.isNegligible_iff, List.mem_zipIdx_iff_getElem?]
  constructor
  · rintro ⟨⟨b, index, found, same⟩, occurs⟩
    cases same
    exact ⟨found, occurs⟩
  · rintro ⟨found, occurs⟩
    exact ⟨⟨a, column, found, rfl⟩, occurs⟩

theorem dot_eq_zero {coefs : List Rat} (absent : ∀ a ∈ coefs, a = 0) (x : List Rat) :
    dot coefs x = 0 := by
  rw [dot_eq_form]
  refine form_eq_zero fun column => ?_
  by_cases inside : column < coefs.length
  · simp [List.getElem?_eq_getElem inside, absent _ (List.getElem_mem inside)]
  · simp [not_lt.mp inside]

theorem Row.support_columns_nodup (row : Row Rat) : (row.support.map Prod.fst).Nodup := by
  have all : (row.coefs.zipIdx.map fun term => (term.2, term.1)).map Prod.fst =
      List.range row.coefs.length := by
    simp [List.map_map, Function.comp_def, List.range_eq_range']
  have part : (row.support.map Prod.fst).Sublist (List.range row.coefs.length) := by
    rw [← all]
    exact List.filter_sublist.map _
  exact part.nodup List.nodup_range

theorem Row.mem_support_columns_iff {row : Row Rat} {column : Nat} :
    column ∈ row.support.map Prod.fst ↔ ∃ a, row.coefs[column]? = some a ∧ a ≠ 0 := by
  simp only [List.mem_map, Prod.exists, row.mem_support_iff, exists_and_right, exists_eq_right]

theorem Row.getD_of_not_mem_support {row : Row Rat} {column : Nat}
    (absent : column ∉ row.support.map Prod.fst) : row.coefs.getD column 0 = 0 := by
  rw [List.getD_eq_getElem?_getD]
  cases found : row.coefs[column]? with
  | none => rfl
  | some a =>
    by_contra occurs
    exact absent (mem_support_columns_iff.mpr ⟨a, found, occurs⟩)

/-- A row with one coefficient is a multiple of its column. -/
theorem Row.dot_of_support_singleton {row : Row Rat} {column : Nat} {a : Rat}
    (only : row.support = [(column, a)]) (x : List Rat) :
    dot row.coefs x = a * x.getD column 0 := by
  have own : row.coefs[column]? = some a :=
    ((row.mem_support_iff column a).mp (by simp [only])).1
  rw [dot_eq_form, form_eq_single column]
  · simp [own]
  · intro other different
    rw [Row.getD_of_not_mem_support (by simpa [only] using different), zero_mul]

/-- A row is zero where all of its columns are. -/
theorem Row.dot_eq_zero_of_support {row : Row Rat} {x : List Rat}
    (still : ∀ column ∈ row.support.map Prod.fst, x.getD column 0 = 0) : dot row.coefs x = 0 := by
  rw [dot_eq_form]
  refine form_eq_zero fun column => ?_
  by_cases occurs : column ∈ row.support.map Prod.fst
  · rw [still column occurs, mul_zero]
  · rw [Row.getD_of_not_mem_support occurs, zero_mul]

namespace Presolve

/-- What a step may need and leave when rows are swept from the last to the first. -/
def RowStep (step : Nat → Reduction Rat Bool) : Prop :=
  ∀ index, Sound (fun state => index < state.program.rows.length ∧ True) (step index)
    fun _ state => index ≤ state.program.rows.length ∧ True

theorem RowStep.sound {step : Nat → Reduction Rat Bool} (steps : RowStep step) :
    Sound (fun _ => True) (do sweepDown (← get).program.rows.length step) fun _ _ => True := by
  refine Sound.get fun seen => ?_
  refine (Sound.sweepDown steps seen.program.rows.length).weaken ?_ fun _ _ => id
  rintro state ⟨rfl, -⟩
  exact ⟨le_refl _, trivial⟩

/-- After a row is dropped, every position below it is still there. -/
theorem le_length_withoutRow {program : Program Rat} {index : Nat}
    (inside : index < program.rows.length) :
    index ≤ (program.withoutRow index).rows.length := by
  simp only [Program.withoutRow, List.length_eraseIdx, inside, ↓reduceIte]
  omega

theorem removeEmptyRow_sound : RowStep removeEmptyRow := by
  rintro index state valid ⟨inside, -⟩
  have known := List.getElem?_eq_getElem inside
  simp only [removeEmptyRow, ends_bind, ends_rowAt known]
  split
  · rename_i absent
    have zero : ∀ a ∈ (state.program.rows[index]).coefs, a = 0 := by simpa using absent
    split
    · rename_i contradicted
      simp only [ends_bind, ends_throw]
      intro x held
      have own := held.rows _ (List.getElem_mem inside)
      rw [dot_eq_zero zero, ← Relation.holds_iff] at own
      simp [own] at contradicted
    · rename_i held
      have holds : (state.program.rows[index]).relation.Holds 0 (state.program.rows[index]).rhs := by
        rw [← Relation.holds_iff]
        simpa using held
      refine ⟨valid.withoutRow, ?_, le_length_withoutRow inside, trivial⟩
      refine Refines.withoutRow known (fun x _ => ?_) (fun d _ => ?_) rfl rfl
      · rwa [dot_eq_zero zero]
      · rw [dot_eq_zero zero]
        exact Relation.holds_refl _ 0
  · exact ⟨valid, Refines.refl state, inside.le, trivial⟩

/-! ### Rows with one coefficient -/

/-- The bounds that a relation to a number puts on a value. -/
def limits : Relation → Rat → Range Rat
  | .le, bound => ⟨none, some bound⟩
  | .ge, bound => ⟨some bound, none⟩
  | .eq, bound => ⟨some bound, some bound⟩

theorem admits_limits (relation : Relation) (bound value : Rat) :
    (limits relation bound).Admits value ↔ relation.Holds value bound := by
  cases relation with
  | le => simp [limits, Range.admits_mk, Relation.Holds]
  | ge => simp [limits, Range.admits_mk, Relation.Holds]
  | eq =>
    simp only [limits, Range.admits_mk, Relation.Holds, Option.some.injEq, forall_eq']
    exact ⟨fun both => le_antisymm both.2 both.1, fun same => ⟨same.ge, same.le⟩⟩

theorem recession_limits (relation : Relation) (bound : Rat) :
    (limits relation bound).recession = limits relation 0 := by
  cases relation <;> rfl

theorem removeSingletonRow_sound : RowStep removeSingletonRow := by
  rintro index state valid ⟨inside, -⟩
  have known := List.getElem?_eq_getElem inside
  simp only [removeSingletonRow, ends_bind, ends_rowAt known]
  generalize same : state.program.rows[index] = row at known
  split
  · rename_i column a only
    obtain ⟨coef, occurs⟩ := (row.mem_support_iff column a).mp (by simp [only])
    have width := valid.rows row (List.mem_of_getElem? known)
    obtain ⟨reach, -⟩ := List.getElem?_eq_some_iff.mp coef
    have there := List.getElem?_eq_getElem (width ▸ reach)
    -- the row says that the column stands in this relation to the bound
    generalize oriented : (if Scalar.isNegative a then row.relation.flipped else row.relation) =
      relation
    have meaning : ∀ (x : List Rat) (rhs : Rat), row.relation.Holds (dot row.coefs x) rhs ↔
        (limits relation (rhs / a)).Admits (x.getD column 0) := by
      intro x rhs
      rw [row.dot_of_support_singleton only, admits_limits, ← oriented]
      rcases lt_or_gt_of_ne occurs with negative | positive
      · rw [if_pos ((Scalar.isNegative_iff a).mpr negative)]
        exact Relation.flipped_holds_div negative
      · rw [if_neg (by simpa using positive.le)]
        exact Relation.holds_div positive
    have directed : ∀ d : List Rat, row.relation.Holds (dot row.coefs d) 0 ↔
        (limits relation (row.rhs / a)).recession.Admits (d.getD column 0) := by
      intro d
      rw [meaning, zero_div, recession_limits]
    have step : Ends (do
          let _ ← tighten column (limits relation (row.rhs / a)).lower
            (limits relation (row.rhs / a)).upper
          removeRow index
          return true) state
        (fun _ next => next.program.Valid ∧ Refines state next ∧
          index ≤ next.program.rows.length ∧ True)
        fun verdict _ => verdict.Certified state.program := by
      rw [ends_bind]
      refine (ends_tighten_implied valid there ?_ ?_).mono ?_ fun _ _ => id
      · intro x held
        exact (meaning x _).mp (held.rows row (List.mem_of_getElem? known))
      · intro d held
        obtain ⟨-, rows, -⟩ := (Program.satisfies_recession_iff _ d).mp held
        exact (directed d).mp (rows row (List.mem_of_getElem? known))
      · rintro _ next ⟨validNext, refines, range, ⟨log, program⟩, admits, recedes⟩
        have rows : next.program.rows = state.program.rows := by rw [program]; rfl
        have narrow : next.program.columns[column]? =
            some { state.program.columns[column] with range } := by
          rw [program, Program.getElem?_narrowed, there]
          simp
        refine ⟨validNext.withoutRow, refines.trans ?_,
          le_length_withoutRow (by rw [rows]; exact inside), trivial⟩
        refine Refines.withoutRow (by rw [rows]; exact known) (fun x held => ?_) (fun d held => ?_)
          rfl rfl
        · exact (meaning x _).mpr ((admits _).mp (held.ranges column _ narrow)).2
        · obtain ⟨-, -, ranges⟩ := (Program.satisfies_recession_iff _ d).mp held
          exact (directed d).mpr ((recedes _).mp (ranges column _ narrow)).2
    cases relation <;> exact step
  · exact ⟨valid, Refines.refl state, inside.le, trivial⟩

/-! ### Rows decided by their activity -/

/-- Some columns have been pinned to values that every feasible point takes there, and nothing else
has changed. No direction is left along them. -/
structure PinsDown (values : Nat → Rat) (columns : List Nat) (state next : State Rat) : Prop where
  valid : next.program.Valid
  refines : Refines state next
  rows : next.program.rows = state.program.rows
  count : next.program.columns.length = state.program.columns.length
  feasible : ∀ x, next.program.Feasible x → state.program.Feasible x
  directions : ∀ d, next.program.recession.Satisfies d → state.program.recession.Satisfies d
  others : ∀ column ∉ columns, next.program.columns[column]? = state.program.columns[column]?
  pinned : ∀ column ∈ columns, ∃ data, next.program.columns[column]? = some data ∧
    (∀ value, data.range.Admits value → value = values column) ∧
    ∀ value, data.range.recession.Admits value → value = 0

theorem PinsDown.nil {state : State Rat} (valid : state.program.Valid) (values : Nat → Rat) :
    PinsDown values [] state state where
  valid := valid
  refines := .refl state
  rows := rfl
  count := rfl
  feasible := fun _ => id
  directions := fun _ => id
  others := fun _ _ => rfl
  pinned := by simp

theorem PinsDown.cons {values : Nat → Rat} {column : Nat} {columns : List Nat}
    {state middle next : State Rat} (first : PinsDown values [column] state middle)
    (fresh : column ∉ columns) (rest : PinsDown values columns middle next) :
    PinsDown values (column :: columns) state next where
  valid := rest.valid
  refines := first.refines.trans rest.refines
  rows := rest.rows.trans first.rows
  count := rest.count.trans first.count
  feasible := fun x held => first.feasible x (rest.feasible x held)
  directions := fun d held => first.directions d (rest.directions d held)
  others := by
    intro other outside
    rw [List.mem_cons, not_or] at outside
    rw [rest.others other outside.2, first.others other (by simpa using outside.1)]
  pinned := by
    rw [List.forall_mem_cons]
    refine ⟨?_, rest.pinned⟩
    obtain ⟨data, found, only⟩ := first.pinned column (List.mem_singleton_self column)
    exact ⟨data, (rest.others column fresh).trans found, only⟩

theorem ends_pinColumn {values : Nat → Rat} {state : State Rat} {column : Nat} {data : Column Rat}
    (valid : state.program.Valid) (known : state.program.columns[column]? = some data)
    (implied : ∀ x, state.program.Feasible x → x.getD column 0 = values column)
    (directed : ∀ d, state.program.recession.Satisfies d → d.getD column 0 = 0) :
    Ends (tighten column (some (values column)) (some (values column))) state
      (fun _ next => PinsDown values [column] state next)
      fun verdict _ => verdict.Certified state.program := by
  refine (ends_tighten_implied valid known ?_ ?_).mono ?_ fun _ _ => id
  · intro x held
    have same := implied x held
    simp only [Range.admits_mk, Option.some.injEq, forall_eq']
    exact ⟨same.ge, same.le⟩
  · intro d held
    rw [directed d held]
    exact Range.admits_recession_zero _
  · rintro _ next ⟨validNext, refines, range, ⟨log, program⟩, admits, recedes⟩
    exact {
      valid := validNext
      refines := refines
      rows := by
        rw [program]
        rfl
      count := by simp [program, Program.narrowed]
      feasible := by
        intro x held
        rw [program] at held
        have before := (Program.satisfies_narrowed known admits x).mp held.toSatisfies
        exact ⟨before.1, (Program.integral_narrowed range x).mp held.integral⟩
      directions := by
        intro d held
        rw [program, Program.recession_narrowed] at held
        exact ((Program.satisfies_narrowed (Program.getElem?_recession known) recedes d).mp held).1
      others := by
        intro other different
        rw [List.mem_singleton] at different
        simp [program, Program.getElem?_narrowed, Ne.symm different]
      pinned := by
        rw [List.forall_mem_singleton]
        refine ⟨{ data with range }, by simp [program, Program.getElem?_narrowed, known],
          fun value held => ?_, fun value held => ?_⟩
        · have between := ((admits value).mp held).2
          simp only [Range.admits_mk, Option.some.injEq, forall_eq'] at between
          exact le_antisymm between.2 between.1
        · have between := ((recedes value).mp held).2
          simp only [Range.admits_recession_iff, ne_eq, reduceCtorEq, not_false_eq_true,
            forall_const] at between
          exact le_antisymm between.2 between.1 }

open Activity in
/-- Pinning the columns of a list to the values that every feasible point takes there. -/
theorem ends_forceColumns (atMin : Bool) {values : Nat → Rat} {terms : List (Nat × Rat)}
    (distinct : (terms.map Prod.fst).Nodup) {state : State Rat} (valid : state.program.Valid)
    (pins : ∀ column a, (column, a) ∈ terms → ∃ data, state.program.columns[column]? = some data ∧
      pinned a data.range atMin = some (values column))
    (implied : ∀ x, state.program.Feasible x → ∀ column ∈ terms.map Prod.fst,
      x.getD column 0 = values column)
    (directed : ∀ d, state.program.recession.Satisfies d → ∀ column ∈ terms.map Prod.fst,
      d.getD column 0 = 0) :
    Ends (forceColumns atMin terms) state
      (fun _ next => PinsDown values (terms.map Prod.fst) state next)
      fun verdict _ => verdict.Certified state.program := by
  induction terms generalizing state with
  | nil => exact .nil valid values
  | cons term terms ih =>
    obtain ⟨column, a⟩ := term
    obtain ⟨data, known, pin⟩ := pins column a List.mem_cons_self
    obtain ⟨fresh, distinctRest⟩ := List.nodup_cons.mp distinct
    have choice : (if Scalar.isPositive a == atMin then data.range.lower else data.range.upper) =
      some (values column) := pin
    simp only [forceColumns, ends_bind, ends_columnAt known, choice]
    refine (ends_pinColumn valid known (fun x held => implied x held column List.mem_cons_self)
      fun d held => directed d held column List.mem_cons_self).mono ?_ fun _ _ => id
    intro _ middle first
    refine (ih distinctRest first.valid ?_ ?_ ?_).mono (fun _ _ rest => first.cons fresh rest)
      fun _ _ certified => first.refines.certified certified
    · intro other b member
      obtain ⟨old, found, pinOld⟩ := pins other b (List.mem_cons_of_mem _ member)
      have different : other ∉ [column] := by
        rw [List.mem_singleton]
        rintro rfl
        exact fresh (List.mem_map.mpr ⟨_, member, rfl⟩)
      exact ⟨old, (first.others other different).trans found, pinOld⟩
    · intro x held other member
      exact implied x (first.feasible x held) other (List.mem_cons_of_mem _ member)
    · intro d held other member
      exact directed d (first.directions d held) other (List.mem_cons_of_mem _ member)

open Activity in
/-- A row whose activity contradicts it has no point in the box. -/
theorem not_holds_of_contradicts {coefs x : List Rat} {columns : List (Column Rat)}
    {relation : Relation} {rhs : Rat} (found : contradicts (ofRow coefs columns) relation rhs = true)
    (inside : InBox columns x) : ¬ relation.Holds (dot coefs x) rhs := by
  have exceeded : (ofRow coefs columns).finiteMin.any (Scalar.exceeds · rhs) = true →
      rhs < dot coefs x := by
    intro some
    obtain ⟨least, known, exceeds⟩ := (Option.any_eq_true _ _).mp some
    exact ((Scalar.exceeds_iff _ _).mp exceeds).trans_le (finiteMin_le known inside)
  have under : (ofRow coefs columns).finiteMax.any (Scalar.exceeds rhs ·) = true →
      dot coefs x < rhs := by
    intro some
    obtain ⟨greatest, known, exceeds⟩ := (Option.any_eq_true _ _).mp some
    exact (le_finiteMax known inside).trans_lt ((Scalar.exceeds_iff _ _).mp exceeds)
  cases relation with
  | le => exact not_le.mpr (exceeded found)
  | ge => exact not_le.mpr (under found)
  | eq =>
    simp only [contradicts, Bool.or_eq_true] at found
    rcases found with high | low
    · exact (exceeded high).ne'
    · exact (under low).ne

open Activity in
/-- A row that its activity implies holds everywhere in the box. -/
theorem holds_of_implies {coefs x : List Rat} {columns : List (Column Rat)} {relation : Relation}
    {rhs : Rat} (found : implies (ofRow coefs columns) relation rhs = true)
    (inside : InBox columns x) : relation.Holds (dot coefs x) rhs := by
  cases relation with
  | le =>
    obtain ⟨greatest, known, within⟩ := (Option.any_eq_true _ _).mp found
    have below : greatest ≤ rhs := by simpa [← Bool.not_eq_true] using within
    exact (le_finiteMax known inside).trans below
  | ge =>
    obtain ⟨least, known, within⟩ := (Option.any_eq_true _ _).mp found
    have above : rhs ≤ least := by simpa [← Bool.not_eq_true] using within
    exact above.trans (finiteMin_le known inside)
  | eq => simp [implies] at found

open Activity in
/-- A row that its activity implies is implied for directions as well. -/
theorem holds_zero_of_implies {coefs d : List Rat} {columns : List (Column Rat)}
    {relation : Relation} {rhs : Rat} (found : implies (ofRow coefs columns) relation rhs = true)
    (inside : InBox (columns.map Column.recession) d) : relation.Holds (dot coefs d) 0 := by
  refine holds_of_implies ?_ inside
  unfold implies at found ⊢
  simp only [finiteMin_eq, finiteMax_eq, finiteSide_recession] at found ⊢
  cases relation with
  | le =>
    obtain ⟨greatest, known, -⟩ := (Option.any_eq_true _ _).mp found
    simp [known]
  | ge =>
    obtain ⟨least, known, -⟩ := (Option.any_eq_true _ _).mp found
    simp [known]
  | eq => exact found

open Activity in
/-- A row that meets a side of its activity pins every column that occurs in it. -/
theorem pinned_of_finiteSide {coefs x : List Rat} {columns : List (Column Rat)} {atMin : Bool}
    {bound : Rat} (met : (ofRow coefs columns).finiteSide atMin = some bound)
    (inside : InBox columns x) (tight : sense atMin * dot coefs x ≤ sense atMin * bound)
    {index : Nat} {a : Rat} {column : Column Rat} (coef : coefs[index]? = some a) (occurs : a ≠ 0)
    (known : columns[index]? = some column) :
    pinned a column.range atMin = some (x.getD index 0) := by
  obtain ⟨finite, side⟩ := finiteSide_eq_some met
  refine pinned_of_sideSum inside finite ?_ coef occurs known
  rwa [side, zero_add]

theorem meets_iff (bound : Option Rat) (rhs : Rat) : meets bound rhs = true ↔ bound = some rhs := by
  have zero : (Scalar.tolerance : Rat) = 0 := rfl
  cases bound <;> simp [meets, zero, sub_eq_zero]

/-- The value that a row at one side of its activity leaves to a column. -/
def forcedValue (atMin : Bool) (coefs : List Rat) (columns : List (Column Rat)) (index : Nat) : Rat :=
  ((columns[index]?).bind fun column =>
    Activity.pinned (coefs.getD index 0) column.range atMin).getD 0

section Forced

open Activity

variable {coefs x : List Rat} {columns : List (Column Rat)} {atMin : Bool} {bound : Rat}

theorem pinned_forcedValue (met : (ofRow coefs columns).finiteSide atMin = some bound) {index : Nat}
    {a : Rat} {column : Column Rat} (coef : coefs[index]? = some a) (occurs : a ≠ 0)
    (known : columns[index]? = some column) :
    pinned a column.range atMin = some (forcedValue atMin coefs columns index) := by
  obtain ⟨finite, -⟩ := finiteSide_eq_some met
  obtain ⟨value, pin⟩ := exists_pinned finite coef occurs known
  simp [forcedValue, known, coef, pin]

theorem eq_forcedValue (met : (ofRow coefs columns).finiteSide atMin = some bound)
    (inside : InBox columns x) (tight : sense atMin * dot coefs x ≤ sense atMin * bound)
    {index : Nat} {a : Rat} {column : Column Rat} (coef : coefs[index]? = some a) (occurs : a ≠ 0)
    (known : columns[index]? = some column) :
    x.getD index 0 = forcedValue atMin coefs columns index := by
  have there := pinned_of_finiteSide met inside tight coef occurs known
  exact Option.some.inj (there.symm.trans (pinned_forcedValue met coef occurs known))

/-- No direction is left along the columns of a forced row. -/
theorem forcedValue_recession (index : Nat) :
    forcedValue atMin coefs (columns.map Column.recession) index = 0 := by
  rw [forcedValue, List.getElem?_map]
  cases columns[index]? with
  | none => rfl
  | some column =>
    simp only [Option.map_some, Option.bind_some, Column.recession, pinned_recession]
    cases pinned (coefs.getD index 0) column.range atMin <;> rfl

/-- The values that a row leaves to its columns bring it to that side of its activity. -/
theorem dot_forcedValue (met : (ofRow coefs columns).finiteSide atMin = some bound)
    (same : columns.length = x.length) (left : ∀ (index : Nat) (a : Rat), coefs[index]? = some a →
      a ≠ 0 → x.getD index 0 = forcedValue atMin coefs columns index) : dot coefs x = bound := by
  obtain ⟨-, side⟩ := finiteSide_eq_some met
  have value : (sideSum atMin coefs columns (0, 0)).1 = 0 + dot coefs x := by
    refine sideSum_of_pinned same fun index a column coef occurs known => ?_
    rw [left index a coef occurs]
    exact pinned_forcedValue met coef occurs known
  rw [← side, value, zero_add]

end Forced

open Activity in
/-- A row forced at one side: its columns are pinned there, and then it holds. -/
theorem ends_forced {state : State Rat} {index : Nat} {row : Row Rat} {atMin : Bool}
    (valid : state.program.Valid) (known : state.program.rows[index]? = some row)
    (met : (ofRow row.coefs state.program.columns).finiteSide atMin = some row.rhs)
    (tight : ∀ value rhs, row.relation.Holds value rhs →
      sense atMin * value ≤ sense atMin * rhs) :
    Ends (do
        forceColumns atMin row.support
        removeRow index
        return true) state
      (fun _ next => next.program.Valid ∧ Refines state next ∧
        index ≤ next.program.rows.length ∧ True)
      fun verdict _ => verdict.Certified state.program := by
  obtain ⟨inside, -⟩ := List.getElem?_eq_some_iff.mp known
  have listed := List.mem_of_getElem? known
  have placed : ∀ (column : Nat) (a : Rat), row.coefs[column]? = some a →
      ∃ data, state.program.columns[column]? = some data := by
    intro column a coef
    obtain ⟨reach, -⟩ := List.getElem?_eq_some_iff.mp coef
    exact ⟨_, List.getElem?_eq_getElem (valid.rows row listed ▸ reach)⟩
  have pins : ∀ column a, (column, a) ∈ row.support → ∃ data,
      state.program.columns[column]? = some data ∧
        pinned a data.range atMin =
          some (forcedValue atMin row.coefs state.program.columns column) := by
    intro column a member
    obtain ⟨coef, occurs⟩ := (row.mem_support_iff column a).mp member
    obtain ⟨data, there⟩ := placed column a coef
    exact ⟨data, there, pinned_forcedValue met coef occurs there⟩
  have implied : ∀ x, state.program.Feasible x → ∀ column ∈ row.support.map Prod.fst,
      x.getD column 0 = forcedValue atMin row.coefs state.program.columns column := by
    intro x held column member
    obtain ⟨a, coef, occurs⟩ := Row.mem_support_columns_iff.mp member
    obtain ⟨data, there⟩ := placed column a coef
    exact eq_forcedValue met held.toSatisfies.inBox (tight _ _ (held.rows row listed)) coef occurs
      there
  have directed : ∀ d, state.program.recession.Satisfies d → ∀ column ∈ row.support.map Prod.fst,
      d.getD column 0 = 0 := by
    intro d held column member
    obtain ⟨a, coef, occurs⟩ := Row.mem_support_columns_iff.mp member
    obtain ⟨data, there⟩ := placed column a coef
    have metZero : (ofRow row.coefs (state.program.columns.map Column.recession)).finiteSide atMin =
        some 0 := by
      rw [finiteSide_recession, met]
      rfl
    have holds := ((Program.satisfies_recession_iff _ d).mp held).2.1 row listed
    rw [eq_forcedValue metZero held.inBox (tight _ _ holds) coef occurs
      (Program.getElem?_recession there), forcedValue_recession]
  rw [ends_bind]
  refine (ends_forceColumns atMin row.support_columns_nodup valid pins implied directed).mono ?_
    fun _ _ => id
  intro _ next forced
  refine ⟨forced.valid.withoutRow, forced.refines.trans ?_,
    le_length_withoutRow (by rw [forced.rows]; exact inside), trivial⟩
  refine Refines.withoutRow (by rw [forced.rows]; exact known) (fun x held => ?_) (fun d held => ?_)
    rfl rfl
  · have value : dot row.coefs x = row.rhs := by
      refine dot_forcedValue met (forced.count ▸ held.length.symm) fun column a coef occurs => ?_
      obtain ⟨last, final, fixed, -⟩ :=
        forced.pinned column (Row.mem_support_columns_iff.mpr ⟨a, coef, occurs⟩)
      exact fixed _ (held.ranges column last final)
    rw [value]
    exact row.relation.holds_refl row.rhs
  · obtain ⟨-, -, ranges⟩ := (Program.satisfies_recession_iff _ d).mp held
    have still : dot row.coefs d = 0 := by
      refine Row.dot_eq_zero_of_support fun column member => ?_
      obtain ⟨last, final, -, fixed⟩ := forced.pinned column member
      exact fixed _ (ranges column last final)
    rw [still]
    exact row.relation.holds_refl 0

theorem checkRowActivity_sound : RowStep checkRowActivity := by
  rintro index state valid ⟨inside, -⟩
  have known := List.getElem?_eq_getElem inside
  simp only [checkRowActivity, ends_bind, ends_rowAt known, ends_get]
  generalize state.program.rows[index] = row at known
  have member := List.mem_of_getElem? known
  split
  · rename_i contradicted
    intro x held
    exact not_holds_of_contradicts contradicted held.toSatisfies.inBox (held.rows row member)
  · split
    · rename_i implied
      refine ⟨valid.withoutRow, ?_, le_length_withoutRow inside, trivial⟩
      exact Refines.withoutRow known (fun x held => holds_of_implies implied held.inBox)
        (fun d held => holds_zero_of_implies implied held.inBox) rfl rfl
    · split
      · rename_i forced
        cases low : (row.relation != .ge && meets (Activity.ofRow row.coefs
            state.program.columns).finiteMin row.rhs) with
        | true =>
          simp only [Bool.and_eq_true, bne_iff_ne, meets_iff] at low
          refine ends_forced valid known low.2 fun value rhs holds => ?_
          have below : value ≤ rhs := by
            revert low holds
            cases row.relation <;> simp +contextual [Relation.Holds]
          simpa [Activity.sense] using below
        | false =>
          rw [low, Bool.false_or, Bool.and_eq_true, bne_iff_ne, meets_iff] at forced
          refine ends_forced valid known forced.2 fun value rhs holds => ?_
          have above : rhs ≤ value := by
            revert forced holds
            cases row.relation <;> simp +contextual [Relation.Holds]
          simpa [Activity.sense] using above
      · exact ⟨valid, Refines.refl state, inside.le, trivial⟩

end Presolve

end MixedInteger
