import MixedInteger.Proofs.Ending
import MixedInteger.Proofs.Exact
import MixedInteger.Proofs.Presolve.ColumnRemoval
import MixedInteger.Proofs.Presolve.Narrowing
import MixedInteger.Presolve.Passes

/-! Every reduction is made of four changes: a column's range is narrowed, a row is dropped, a
column is dropped and logged, or right-hand sides and the objective are adjusted. What these four
keep is kept by every pass, whatever rows and columns it finds to work on. -/
namespace MixedInteger

/-- The bounds of a range are those of another one, or tighter. -/
structure Range.Within (range outer : Range Rat) : Prop where
  lower : ∀ low ∈ outer.lower, ∃ new ∈ range.lower, low ≤ new
  upper : ∀ high ∈ outer.upper, ∃ new ∈ range.upper, new ≤ high

namespace Range.Within

variable {range middle outer : Range Rat}

theorem refl (range : Range Rat) : range.Within range :=
  ⟨fun low known => ⟨low, known, le_refl low⟩, fun high known => ⟨high, known, le_refl high⟩⟩

theorem trans (inner : range.Within middle) (further : middle.Within outer) : range.Within outer := by
  constructor
  · intro low known
    obtain ⟨between, found, above⟩ := further.lower low known
    obtain ⟨new, there, higher⟩ := inner.lower between found
    exact ⟨new, there, above.trans higher⟩
  · intro high known
    obtain ⟨between, found, below⟩ := further.upper high known
    obtain ⟨new, there, lower⟩ := inner.upper between found
    exact ⟨new, there, lower.trans below⟩

theorem tightenLower (range : Range Rat) (value : Rat) : (range.tightenLower value).Within range := by
  unfold Range.tightenLower Range.raises
  cases known : range.lower with
  | none => exact ⟨by simp [known], (refl range).upper⟩
  | some low =>
    by_cases below : value ≤ low
    · simpa [below] using refl range
    · exact ⟨by simpa [known, below] using le_of_lt (not_le.mp below), by simpa [below] using (refl range).upper⟩

theorem tightenUpper (range : Range Rat) (value : Rat) : (range.tightenUpper value).Within range := by
  unfold Range.tightenUpper Range.lowers
  cases known : range.upper with
  | none => exact ⟨(refl range).lower, by simp [known]⟩
  | some high =>
    by_cases above : high ≤ value
    · simpa [above] using refl range
    · exact ⟨by simpa [above] using (refl range).lower, by simpa [known, above] using le_of_lt (not_le.mp above)⟩

theorem roundInward (range : Range Rat) : range.roundInward.Within range := by
  constructor
  · intro low known
    exact ⟨Scalar.ceil low, Option.mem_map_of_mem _ known, by
      rw [Scalar.ceil_rat]
      exact Int.le_ceil low⟩
  · intro high known
    exact ⟨Scalar.floor high, Option.mem_map_of_mem _ known, Int.floor_le high⟩

end Range.Within

/-- A row with another right-hand side. -/
def Row.Shifts (row old : Row Rat) : Prop := row.relation = old.relation ∧ row.coefs = old.coefs

namespace Presolve

/-- What the four changes keep. -/
structure Stable (kept : State Rat → Prop) : Prop where
  narrow : ∀ {state next : State Rat} {index : Nat} {column : Column Rat} {range : Range Rat},
    kept state → state.program.columns[index]? = some column → range.Within column.range →
    Narrows state next index range → kept next
  dropRow : ∀ {state next : State Rat} (index : Nat), kept state → next.removed = state.removed →
    next.program = state.program.withoutRow index → kept next
  dropColumn : ∀ {state next : State Rat} {index : Nat} {column : Column Rat}, kept state →
    next.removed = state.removed.push index column →
    next.program = state.program.withoutColumn index → kept next
  adjust : ∀ {state next : State Rat}, kept state → next.removed = state.removed →
    next.program.columns = state.program.columns →
    List.Forall₂ Row.Shifts next.program.rows state.program.rows → kept next

/-- A reduction that ends where a property still holds, unless it stops with a verdict. -/
def Preserves {β : Type} (kept : State Rat → Prop) (step : Reduction Rat β) : Prop :=
  ∀ state, kept state → Ends step state (fun _ next => kept next) fun _ _ => True

theorem ends_attempt_of {β : Type} {state : State Rat} {ok : β → State Rat → Prop}
    (reads : ∀ value, ok value state) (calculation : Except Fault β) :
    Ends (attempt calculation) state ok fun _ _ => True := by
  cases calculation with
  | ok value => exact reads value
  | error cause => exact trivial

theorem ends_columnAt_of {state : State Rat} {index : Nat} {ok : Column Rat → State Rat → Prop}
    (reads : ∀ column, state.program.columns[index]? = some column → ok column state) :
    Ends (columnAt index) state ok fun _ _ => True := by
  cases known : state.program.columns[index]? with
  | some column => exact (ends_columnAt known).mpr (reads column known)
  | none =>
    simp only [columnAt, ends_bind, ends_get, known]
    exact trivial

/-- Steps that only look at the state give a list of results and leave the state as it is. -/
theorem ends_mapM_of_reads {β γ : Type} (meets : γ → β → Prop) {step : β → Reduction Rat γ}
    {state : State Rat} (reads : ∀ item, Ends (step item) state
      (fun result next => next = state ∧ meets result item) fun _ _ => True) (items : List β) :
    Ends (items.mapM step) state
      (fun results next => next = state ∧ List.Forall₂ meets results items) fun _ _ => True := by
  induction items with
  | nil => exact ⟨rfl, .nil⟩
  | cons item items ih =>
    rw [List.mapM_cons, ends_bind]
    refine (reads item).mono ?_ fun _ _ => id
    rintro result _ ⟨rfl, here⟩
    rw [ends_bind]
    refine ih.mono ?_ fun _ _ => id
    rintro results _ ⟨rfl, later⟩
    exact ⟨rfl, .cons here later⟩

namespace Preserves

variable {β γ : Type} {kept : State Rat → Prop}

theorem bind {step : Reduction Rat β} {next : β → Reduction Rat γ} (first : Preserves kept step)
    (rest : ∀ value, Preserves kept (next value)) : Preserves kept (step >>= next) := by
  intro state held
  rw [ends_bind]
  exact (first state held).mono (fun value middle => rest value middle) fun _ _ => id

theorem pure (value : β) : Preserves kept (Pure.pure value) := fun _ held => held

theorem throw (verdict : Verdict) : Preserves kept (MonadExcept.throw verdict : Reduction Rat β) :=
  fun _ _ => trivial

theorem get : Preserves kept (MonadState.get : Reduction Rat (State Rat)) := fun _ held => held

theorem attempt (calculation : Except Fault β) : Preserves kept (Presolve.attempt calculation) := by
  cases calculation with
  | ok value => exact pure value
  | error cause => exact throw _

theorem rowAt (index : Nat) : Preserves kept (Presolve.rowAt index) :=
  get.bind fun _ => attempt _

theorem columnAt (index : Nat) : Preserves kept (Presolve.columnAt index) :=
  get.bind fun _ => attempt _

theorem objectiveAt (index : Nat) : Preserves kept (Presolve.objectiveAt index) :=
  get.bind fun _ => attempt _

theorem mapM {step : β → Reduction Rat γ} (steps : ∀ item, Preserves kept (step item))
    (items : List β) : Preserves kept (items.mapM step) := by
  induction items with
  | nil => exact pure []
  | cons item items ih =>
    rw [List.mapM_cons]
    exact (steps item).bind fun _ => ih.bind fun _ => pure _

theorem sweep {step : Nat → Reduction Rat Bool} (steps : ∀ index, Preserves kept (step index))
    (indices : List Nat) : Preserves kept (Presolve.sweep step indices) := by
  induction indices with
  | nil => exact pure false
  | cons index rest ih => exact (steps index).bind fun _ => ih.bind fun _ => pure _

theorem sweepDown {step : Nat → Reduction Rat Bool} (steps : ∀ index, Preserves kept (step index))
    (count : Nat) : Preserves kept (Presolve.sweepDown count step) :=
  sweep steps _

end Preserves

namespace Stable

variable {kept : State Rat → Prop}

/-- The objective and the counters do not matter. -/
theorem unchanged (stable : Stable kept) {state next : State Rat} (held : kept state)
    (log : next.removed = state.removed) (columns : next.program.columns = state.program.columns)
    (rows : next.program.rows = state.program.rows) : kept next :=
  stable.adjust held log columns (rows ▸ List.forall₂_same.mpr fun _ _ => ⟨rfl, rfl⟩)

theorem tighten (stable : Stable kept) (index : Nat) (lower upper : Option Rat) :
    Preserves kept (Presolve.tighten index lower upper) := by
  intro state held
  rw [Presolve.tighten, ends_bind]
  refine ends_columnAt_of fun column known => ?_
  have first : (lower.elim column.range column.range.tightenLower).Within column.range := by
    cases lower with
    | none => exact .refl _
    | some value => exact .tightenLower _ value
  have second : (upper.elim (lower.elim column.range column.range.tightenLower)
      (lower.elim column.range column.range.tightenLower).tightenUpper).Within column.range := by
    cases upper with
    | none => exact first
    | some value => exact (Range.Within.tightenUpper _ value).trans first
  simp only [setRange, ends_bind, ends_modify]
  split
  · exact trivial
  · split
    · exact stable.narrow held known second ⟨rfl, rfl⟩
    · exact stable.narrow held known second ⟨rfl, rfl⟩

theorem roundBounds (stable : Stable kept) (index : Nat) :
    Preserves kept (Presolve.roundBounds index) := by
  intro state held
  rw [Presolve.roundBounds, ends_bind]
  refine ends_columnAt_of fun column known => ?_
  cases column.integral with
  | false => exact held
  | true =>
    simp only [Bool.not_true, Bool.false_eq_true, ↓reduceIte, setRange, ends_bind, ends_modify]
    have within := Range.Within.roundInward column.range
    split
    · exact trivial
    · split
      · exact stable.narrow held known within ⟨rfl, rfl⟩
      · exact stable.narrow held known within ⟨rfl, rfl⟩

theorem removeRow (stable : Stable kept) (index : Nat) : Preserves kept (Presolve.removeRow index) :=
  fun _ held => stable.dropRow index held rfl rfl

theorem removeColumn (stable : Stable kept) (index : Nat) (recovery : Recovery Rat) :
    Preserves kept (Presolve.removeColumn index recovery) := by
  intro state held
  simp only [Presolve.removeColumn, ends_bind, ends_get]
  refine ends_columnAt_of fun column known => ?_
  split
  · exact stable.dropColumn held rfl rfl
  · exact trivial

theorem removeAtValue (stable : Stable kept) (index : Nat) (value : Rat) :
    Preserves kept (Presolve.removeAtValue index value) := by
  intro state held
  simp only [Presolve.removeAtValue, ends_bind, ends_get]
  -- The new rows are worked out without a change of state, and stored with the column still there.
  refine (ends_mapM_of_reads Row.Shifts (fun row => ?_) state.program.rows).mono ?_ fun _ _ => id
  · rw [ends_bind]
    refine ends_attempt_of (fun a => ⟨rfl, ?_⟩) _
    split <;> exact ⟨rfl, rfl⟩
  · rintro rows _ ⟨rfl, shifted⟩
    simp only [objectiveAt, ends_bind, ends_get]
    refine ends_attempt_of (fun cost => ?_) _
    exact stable.removeColumn index (.constant value) _ (stable.adjust held rfl rfl shifted)

/-! ### Rows -/

/-- How a row reduction that found something ends. -/
theorem takeRow (stable : Stable kept) (index : Nat) :
    Preserves kept (do Presolve.removeRow index; return true) :=
  (stable.removeRow index).bind fun _ => .pure true

theorem removeEmptyRows (stable : Stable kept) : Preserves kept Presolve.removeEmptyRows := by
  refine Preserves.get.bind fun _ => Preserves.sweepDown (fun index => ?_) _
  refine (Preserves.rowAt index).bind fun row => ?_
  split
  · split
    · exact (Preserves.throw _).bind fun _ => stable.takeRow index
    · exact stable.takeRow index
  · exact .pure false

theorem removeSingletonRows (stable : Stable kept) : Preserves kept Presolve.removeSingletonRows := by
  refine Preserves.get.bind fun _ => Preserves.sweepDown (fun index => ?_) _
  refine (Preserves.rowAt index).bind fun row => ?_
  split
  · dsimp only
    split
    · exact (stable.tighten _ _ _).bind fun _ => stable.takeRow index
    · exact (stable.tighten _ _ _).bind fun _ => stable.takeRow index
    · exact (stable.tighten _ _ _).bind fun _ => stable.takeRow index
  · exact .pure false

theorem forceColumns (stable : Stable kept) (atMin : Bool) (entries : List (Nat × Rat)) :
    Preserves kept (Presolve.forceColumns atMin entries) := by
  induction entries with
  | nil => exact .pure ()
  | cons entry rest ih =>
    refine (Preserves.columnAt entry.1).bind fun column => ?_
    dsimp only
    split
    · exact (stable.tighten _ _ _).bind fun _ => ih
    · exact ih

theorem checkRowActivities (stable : Stable kept) : Preserves kept Presolve.checkRowActivities := by
  refine Preserves.get.bind fun _ => Preserves.sweepDown (fun index => ?_) _
  refine (Preserves.rowAt index).bind fun row => Preserves.get.bind fun state => ?_
  dsimp only
  split
  -- A contradicted row stops the pass with a verdict.
  · exact fun _ _ => trivial
  · split
    · exact stable.takeRow index
    · split
      · exact (stable.forceColumns _ _).bind fun _ => stable.takeRow index
      · exact .pure false

/-! ### Bounds -/

theorem tightenBounds (stable : Stable kept) : Preserves kept Presolve.tightenBounds := by
  refine Preserves.get.bind fun _ => Preserves.sweep (fun index => Preserves.sweep (fun column => ?_) _) _
  refine (Preserves.rowAt index).bind fun row => (Preserves.attempt _).bind fun a => ?_
  split
  · exact .pure false
  · refine (Preserves.columnAt column).bind fun _ => Preserves.get.bind fun _ => ?_
    dsimp only
    split
    · exact .pure false
    · exact stable.tighten _ _ _

theorem roundIntegralBounds (stable : Stable kept) : Preserves kept Presolve.roundIntegralBounds :=
  Preserves.get.bind fun _ => Preserves.sweep stable.roundBounds _

/-! ### Columns -/

theorem removeFixedColumns (stable : Stable kept) : Preserves kept Presolve.removeFixedColumns := by
  refine Preserves.get.bind fun _ => Preserves.sweepDown (fun index => ?_) _
  refine (Preserves.columnAt index).bind fun column => ?_
  split
  · exact (stable.removeAtValue _ _).bind fun _ => .pure true
  · exact .pure false

theorem removeEmptyColumns (stable : Stable kept) : Preserves kept Presolve.removeEmptyColumns := by
  refine Preserves.get.bind fun _ => Preserves.sweepDown (fun index => ?_) _
  refine Preserves.get.bind fun _ => ?_
  refine (Preserves.mapM (fun row => Preserves.attempt _) _).bind fun entries => ?_
  split
  · exact .pure false
  · refine (Preserves.objectiveAt index).bind fun _ => (Preserves.columnAt index).bind fun _ => ?_
    split
    · exact (stable.removeAtValue _ _).bind fun _ => .pure true
    · exact .throw _

theorem substituteOut (stable : Stable kept) (row index : Nat) :
    Preserves kept (Presolve.substituteOut row index) := by
  have drop : ∀ recovery, Preserves kept (do
      Presolve.removeRow row
      Presolve.removeColumn index recovery) :=
    fun recovery => (stable.removeRow row).bind fun _ => stable.removeColumn index recovery
  refine (Preserves.rowAt row).bind fun data => (Preserves.attempt _).bind fun a => ?_
  refine (Preserves.objectiveAt index).bind fun cost => ?_
  dsimp only
  split
  · refine Preserves.get.bind fun _ => (Preserves.attempt _).bind fun objective => ?_
    refine Preserves.bind (fun state held => ?_) fun _ => drop _
    exact stable.unchanged held rfl rfl rfl
  · exact drop _

theorem eliminateImpliedFree (stable : Stable kept) (fuel : Nat) :
    Preserves kept (Presolve.eliminateImpliedFree fuel) := by
  induction fuel with
  | zero => exact .pure false
  | succ fuel ih =>
    refine Preserves.get.bind fun _ => (Preserves.attempt _).bind fun found => ?_
    split
    · exact .pure false
    · exact (stable.substituteOut _ _).bind fun _ => ih.bind fun _ => .pure true

theorem removeImpliedFreeColumns (stable : Stable kept) :
    Preserves kept Presolve.removeImpliedFreeColumns :=
  Preserves.get.bind fun _ => stable.eliminateImpliedFree _

/-- What the four changes keep is kept by a pass. -/
theorem pass (stable : Stable kept) : Preserves kept (Presolve.pass : Reduction Rat Bool) := by
  refine stable.removeEmptyRows.bind fun _ => stable.removeSingletonRows.bind fun _ => ?_
  refine stable.checkRowActivities.bind fun _ => stable.removeImpliedFreeColumns.bind fun _ => ?_
  refine stable.tightenBounds.bind fun _ => stable.roundIntegralBounds.bind fun _ => ?_
  exact stable.removeFixedColumns.bind fun _ => stable.removeEmptyColumns.bind fun _ => .pure _

/-- What the four changes keep is kept by any number of passes that leave a program. -/
theorem passes (stable : Stable kept) {count : Nat} {state final : State Rat} (held : kept state)
    (ran : Presolve.passes count state = .ok (.reduced, final)) : kept final := by
  induction count generalizing state with
  | zero =>
    obtain ⟨-, rfl⟩ := Prod.mk.inj (Except.ok.inj ran)
    exact held
  | succ count ih =>
    have counted : kept { state with counts.passes := state.counts.passes + 1 } :=
      stable.unchanged held rfl rfl rfl
    have ends := stable.pass _ counted
    rw [Presolve.passes] at ran
    split at ran
    · rename_i next once
      exact ih (ends.ok_of_run once) ran
    · rename_i next once
      obtain ⟨-, rfl⟩ := Prod.mk.inj (Except.ok.inj ran)
      exact ends.ok_of_run once
    · cases ran
    · cases ran
    · cases ran

end Stable

end Presolve

end MixedInteger
