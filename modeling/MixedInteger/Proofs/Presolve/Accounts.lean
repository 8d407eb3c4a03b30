import MixedInteger.Proofs.Lists
import MixedInteger.Proofs.Presolve.Invariance

/-! Accounts of presolve. Between any two states of a run the counts tell how many rows and columns
were dropped, the log has grown by the columns that were, and no range has become wider. A step that
drops something or narrows a range takes the program strictly below where it was, and no later step
leads back up. -/
namespace MixedInteger

namespace Range

variable {range other : Range Rat}

/-- Two optional bounds of which each is matched by the other are one. -/
theorem eq_of_matched {order : Rat → Rat → Prop}
    (antisymm : ∀ x y, order x y → order y x → x = y) {bound bound' : Option Rat}
    (forth : ∀ x ∈ bound, ∃ y ∈ bound', order x y) (back : ∀ y ∈ bound', ∃ x ∈ bound, order y x) :
    bound = bound' := by
  cases bound with
  | none =>
    cases bound' with
    | none => rfl
    | some y => simpa using back y rfl
  | some x =>
    cases bound' with
    | none => simpa using forth x rfl
    | some y => exact congrArg some (antisymm x y (by simpa using forth x rfl) (by simpa using back y rfl))

/-- Ranges that lie within each other are equal. -/
theorem Within.antisymm (inner : range.Within other) (outer : other.Within range) : range = other := by
  have lower : range.lower = other.lower :=
    eq_of_matched (fun _ _ => le_antisymm) outer.lower inner.lower
  have upper : range.upper = other.upper :=
    eq_of_matched (fun _ _ below above => le_antisymm above below) outer.upper inner.upper
  cases range
  cases other
  exact congr (congrArg Range.mk lower) upper

theorem same_iff (range other : Range Rat) : range.same other = true ↔ range = other := by
  cases range
  cases other
  simp [same]

/-! ### New bounds -/

theorem tightenLower_eq_iff (range : Range Rat) (value : Rat) :
    range.tightenLower value = range ↔ range.raises value = false := by
  obtain ⟨lower, upper⟩ := range
  cases lower with
  | none => simp [tightenLower, raises]
  | some low =>
    by_cases below : value ≤ low
    · simp [tightenLower, raises, below]
    · have apart : value ≠ low := fun same => below same.le
      simp [tightenLower, raises, below, apart]

theorem tightenUpper_eq_iff (range : Range Rat) (value : Rat) :
    range.tightenUpper value = range ↔ range.lowers value = false := by
  obtain ⟨lower, upper⟩ := range
  cases upper with
  | none => simp [tightenUpper, lowers]
  | some high =>
    by_cases above : high ≤ value
    · simp [tightenUpper, lowers, above]
    · have apart : value ≠ high := fun same => above same.ge
      simp [tightenUpper, lowers, above, apart]

/-- A range after optional bounds from both sides, the lower one first. -/
def tightened (range : Range Rat) (lower upper : Option Rat) : Range Rat :=
  upper.elim (lower.elim range range.tightenLower) (lower.elim range range.tightenLower).tightenUpper

section Tightened

variable (range : Range Rat) (lower upper : Option Rat)

theorem elim_tightenLower_within : (lower.elim range range.tightenLower).Within range := by
  cases lower with
  | none => exact .refl _
  | some value => exact .tightenLower _ value

theorem elim_tightenUpper_within : (upper.elim range range.tightenUpper).Within range := by
  cases upper with
  | none => exact .refl _
  | some value => exact .tightenUpper _ value

theorem tightened_within : (range.tightened lower upper).Within range :=
  (elim_tightenUpper_within _ upper).trans (elim_tightenLower_within range lower)

/-- The range is left as it is exactly when neither bound is tighter. -/
theorem tightened_eq_iff : range.tightened lower upper = range ↔
    (lower.any range.raises || upper.any (lower.elim range range.tightenLower).lowers) = false := by
  have low : lower.elim range range.tightenLower = range ↔ lower.any range.raises = false := by
    cases lower with
    | none => simp
    | some value => exact range.tightenLower_eq_iff value
  have high : ∀ first : Range Rat, upper.elim first first.tightenUpper = first ↔
      upper.any first.lowers = false := by
    intro first
    cases upper with
    | none => simp
    | some value => exact first.tightenUpper_eq_iff value
  rw [Bool.or_eq_false_iff, ← low, ← high]
  constructor
  · intro same
    -- The middle range lies between two equal ones.
    have first : lower.elim range range.tightenLower = range := by
      apply Within.antisymm (elim_tightenLower_within range lower)
      have second := elim_tightenUpper_within (lower.elim range range.tightenLower) upper
      rw [tightened] at same
      rwa [same] at second
    refine ⟨first, ?_⟩
    rw [tightened] at same
    rw [same, first]
  · rintro ⟨first, second⟩
    rw [tightened, second, first]

end Tightened

end Range

namespace Presolve

/-! ### The order of states -/

/-- The ranges of the columns left. -/
def ranges (state : State Rat) : List (Range Rat) := state.program.columns.map Column.range

/-- What lies between two states: the rows and columns dropped are counted, the columns are logged,
and as long as all columns are there no range gets wider. -/
structure Accounts (state next : State Rat) : Prop where
  rows : ∃ dropped, next.program.rows.length + dropped = state.program.rows.length ∧
    next.counts.rowsRemoved = state.counts.rowsRemoved + dropped
  columns : ∃ added : UndoLog Rat, next.removed = added ++ state.removed ∧
    next.program.columns.length + added.length = state.program.columns.length ∧
    next.counts.columnsRemoved = state.counts.columnsRemoved + added.length
  within : next.program.columns.length = state.program.columns.length →
    List.Forall₂ Range.Within (ranges next) (ranges state)

/-- What lies between two states of one pass. -/
structure Leads (state next : State Rat) : Prop extends Accounts state next where
  passes : next.counts.passes = state.counts.passes

/-- A step down: a row or column less, or another range. -/
structure Shrinks (state next : State Rat) : Prop extends Leads state next where
  apart : ¬ (next.program.rows.length = state.program.rows.length ∧ ranges next = ranges state)

section Order

variable {state middle next : State Rat}

theorem Accounts.refl (state : State Rat) : Accounts state state where
  rows := ⟨0, rfl, rfl⟩
  columns := ⟨[], rfl, rfl, rfl⟩
  within := fun _ => List.forall₂_same.mpr fun _ _ => .refl _

theorem Accounts.trans (first : Accounts state middle) (second : Accounts middle next) :
    Accounts state next := by
  obtain ⟨few, fewer, counted⟩ := first.rows
  obtain ⟨more, fewest, recounted⟩ := second.rows
  obtain ⟨early, log, narrower, logged⟩ := first.columns
  obtain ⟨late, relog, narrowest, relogged⟩ := second.columns
  refine ⟨⟨few + more, by omega, by omega⟩, ⟨late ++ early, ?_, ?_, ?_⟩, fun same => ?_⟩
  · rw [relog, log, List.append_assoc]
  · rw [List.length_append]
    omega
  · rw [List.length_append]
    omega
  · have inner := second.within (by omega)
    have outer := first.within (by omega)
    refine forall₂_trans inner outer.flip fun _ _ _ wide narrow => ?_
    exact narrow.trans wide

theorem Leads.refl (state : State Rat) : Leads state state := ⟨.refl state, rfl⟩

theorem Leads.trans (first : Leads state middle) (second : Leads middle next) : Leads state next :=
  ⟨first.toAccounts.trans second.toAccounts, second.passes.trans first.passes⟩

/-- States that lead to one another have as many rows and the same ranges. -/
theorem Leads.squeeze (first : Leads state middle) (second : Leads middle next)
    (back : next.program.rows.length = state.program.rows.length ∧ ranges next = ranges state) :
    middle.program.rows.length = state.program.rows.length ∧ ranges middle = ranges state := by
  obtain ⟨few, fewer, -⟩ := first.rows
  obtain ⟨more, fewest, -⟩ := second.rows
  obtain ⟨early, -, narrower, -⟩ := first.columns
  obtain ⟨late, -, narrowest, -⟩ := second.columns
  obtain ⟨sameRows, sameRanges⟩ := back
  have sameColumns : next.program.columns.length = state.program.columns.length := by
    simpa [ranges] using congrArg List.length sameRanges
  have outer := first.within (by omega)
  have inner := second.within (by omega)
  rw [sameRanges] at inner
  exact ⟨by omega, forall₂_antisymm outer inner fun _ _ => Range.Within.antisymm⟩

theorem Shrinks.trans_leads (first : Shrinks state middle) (second : Leads middle next) :
    Shrinks state next :=
  ⟨first.toLeads.trans second, fun back => first.apart (first.toLeads.squeeze second back)⟩

theorem Leads.trans_shrinks (first : Leads state middle) (second : Shrinks middle next) :
    Shrinks state next := by
  refine ⟨first.trans second.toLeads, fun back => second.apart ?_⟩
  have same := first.squeeze second.toLeads back
  exact ⟨back.1.trans same.1.symm, back.2.trans same.2.symm⟩

end Order

/-! ### The four changes -/

section Changes

variable {state : State Rat} {index : Nat}

/-- Another objective, other right-hand sides and as many rows. -/
theorem leads_adjust {program : Program Rat} (rows : program.rows.length = state.program.rows.length)
    (columns : program.columns = state.program.columns) : Leads state { state with program } where
  rows := ⟨0, rows, rfl⟩
  columns := ⟨[], rfl, congrArg List.length columns, rfl⟩
  within := fun _ => by
    have same : ranges { state with program } = ranges state := congrArg (List.map _) columns
    exact same ▸ (Leads.refl state).within rfl
  passes := rfl

/-- A column gets a range within its own one. -/
theorem leads_narrow {column : Column Rat} (known : state.program.columns[index]? = some column)
    {range : Range Rat} (within : range.Within column.range) (boundsTightened : Nat) :
    Leads state { state with
      program := state.program.narrowed index range
      counts := { state.counts with boundsTightened } } where
  rows := ⟨0, rfl, rfl⟩
  columns := ⟨[], rfl, by simp [Program.narrowed], rfl⟩
  within := fun _ => by
    simp only [ranges, List.forall₂_map_left_iff, List.forall₂_map_right_iff, Program.narrowed]
    have same : List.Forall₂ (fun old data : Column Rat => data.range.Within old.range)
        state.program.columns state.program.columns :=
      List.forall₂_same.mpr fun data _ => Range.Within.refl data.range
    exact (forall₂_modify same known fun old wide => within.trans wide).flip
  passes := rfl

/-- The range is another one. -/
theorem shrinks_narrow {column : Column Rat} (known : state.program.columns[index]? = some column)
    {range : Range Rat} (within : range.Within column.range) (apart : range ≠ column.range)
    (boundsTightened : Nat) :
    Shrinks state { state with
      program := state.program.narrowed index range
      counts := { state.counts with boundsTightened } } := by
  refine ⟨leads_narrow known within boundsTightened, fun ⟨_, same⟩ => apart ?_⟩
  have here := congrArg (·[index]?) same
  simpa [ranges, known, Program.getElem?_narrowed] using here

theorem shrinks_dropRow (inside : index < state.program.rows.length) :
    Shrinks state { state with
      program := state.program.withoutRow index
      counts.rowsRemoved := state.counts.rowsRemoved + 1 } where
  rows := ⟨1, by
    have := List.length_eraseIdx_add_one inside
    simpa [Program.withoutRow] using this, rfl⟩
  columns := ⟨[], rfl, rfl, rfl⟩
  within := (Leads.refl state).within
  passes := rfl
  apart := fun ⟨same, _⟩ => by
    have := List.length_eraseIdx_add_one inside
    simp only [Program.withoutRow] at same
    omega

theorem shrinks_dropColumn (inside : index < state.program.columns.length) (column : Column Rat) :
    Shrinks state { state with
      program := state.program.withoutColumn index
      removed := state.removed.push index column
      counts.columnsRemoved := state.counts.columnsRemoved + 1 } := by
  have fewer := List.length_eraseIdx_add_one inside
  refine ⟨⟨⟨⟨0, ?_, rfl⟩, ⟨[⟨index, column⟩], rfl, ?_, rfl⟩, fun same => ?_⟩, rfl⟩, fun ⟨_, same⟩ => ?_⟩
  · simp [Program.withoutColumn]
  · simpa [Program.withoutColumn] using fewer
  · simp only [Program.withoutColumn] at same
    omega
  · have count := congrArg List.length same
    simp only [ranges, Program.withoutColumn, List.length_map] at count
    omega

end Changes

end Presolve

end MixedInteger
