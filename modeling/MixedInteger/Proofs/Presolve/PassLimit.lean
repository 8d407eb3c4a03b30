import MixedInteger.Proofs.Ending
import MixedInteger.Presolve.Passes

/-! Presolve makes no more passes than it is allowed. Only the loop over passes counts them: no
reduction touches that count, whether it ends or stops with a verdict, over any scalars. -/
namespace MixedInteger.Presolve

variable {α β γ : Type}

/-- A step that leaves the count of passes alone, also where it stops. -/
def Uncounted (step : Reduction α β) : Prop := ∀ state : State α,
  Ends step state (fun _ next => next.counts.passes = state.counts.passes)
    fun _ next => next.counts.passes = state.counts.passes

namespace Uncounted

theorem bind {step : Reduction α β} {next : β → Reduction α γ} (first : Uncounted step)
    (rest : ∀ value, Uncounted (next value)) : Uncounted (step >>= next) := by
  intro state
  rw [ends_bind]
  refine (first state).mono (fun value middle same => ?_) fun _ _ => id
  exact (rest value middle).mono (fun _ _ still => still.trans same) fun _ _ still => still.trans same

theorem pure (value : β) : Uncounted (Pure.pure value : Reduction α β) := fun _ => rfl

theorem throw (verdict : Verdict) : Uncounted (MonadExcept.throw verdict : Reduction α β) := fun _ => rfl

theorem get : Uncounted (MonadState.get : Reduction α (State α)) := fun _ => rfl

theorem attempt (calculation : Except Fault β) :
    Uncounted (Presolve.attempt calculation : Reduction α β) := by
  cases calculation with
  | ok value => exact pure value
  | error cause => exact throw _

/-- How a row reduction that found something ends. -/
theorem takeRow (index : Nat) :
    Uncounted (do Presolve.removeRow index; return true : Reduction α Bool) := fun _ => rfl

theorem rowAt (index : Nat) : Uncounted (Presolve.rowAt index : Reduction α (Row α)) :=
  get.bind fun _ => attempt _

theorem columnAt (index : Nat) : Uncounted (Presolve.columnAt index : Reduction α (Column α)) :=
  get.bind fun _ => attempt _

theorem objectiveAt (index : Nat) : Uncounted (Presolve.objectiveAt index : Reduction α α) :=
  get.bind fun _ => attempt _

theorem mapM {step : β → Reduction α γ} (steps : ∀ item, Uncounted (step item)) (items : List β) :
    Uncounted (items.mapM step) := by
  induction items with
  | nil => exact pure []
  | cons item items ih =>
    rw [List.mapM_cons]
    exact (steps item).bind fun _ => ih.bind fun _ => pure _

theorem sweep {step : Nat → Reduction α Bool} (steps : ∀ index, Uncounted (step index))
    (indices : List Nat) : Uncounted (Presolve.sweep step indices) := by
  induction indices with
  | nil => exact pure false
  | cons index rest ih => exact (steps index).bind fun _ => ih.bind fun _ => pure _

theorem removeColumn (index : Nat) (recovery : Recovery α) :
    Uncounted (Presolve.removeColumn index recovery) := by
  refine get.bind fun state => (columnAt index).bind fun column => ?_
  split
  · exact fun _ => rfl
  · exact throw _

variable [Scalar α]

/-! ### Rows -/

theorem tighten (index : Nat) (lower upper : Option α) :
    Uncounted (Presolve.tighten index lower upper) := by
  refine (columnAt index).bind fun column => bind (fun _ => rfl) fun _ => ?_
  dsimp only
  split
  · exact (throw _).bind fun _ => by split <;> exact fun _ => rfl
  · split <;> exact fun _ => rfl

theorem removeEmptyRow (index : Nat) : Uncounted (Presolve.removeEmptyRow index : Reduction α Bool) := by
  refine (rowAt index).bind fun row => ?_
  split
  · split
    · exact (throw _).bind fun _ => takeRow index
    · exact takeRow index
  · exact pure false

theorem removeSingletonRow (index : Nat) :
    Uncounted (Presolve.removeSingletonRow index : Reduction α Bool) := by
  refine (rowAt index).bind fun row => ?_
  split
  · dsimp only
    split
    · exact (tighten _ _ _).bind fun _ => takeRow index
    · exact (tighten _ _ _).bind fun _ => takeRow index
    · exact (tighten _ _ _).bind fun _ => takeRow index
  · exact pure false

theorem forceColumns (atMin : Bool) (entries : List (Nat × α)) :
    Uncounted (Presolve.forceColumns atMin entries) := by
  induction entries with
  | nil => exact pure ()
  | cons entry rest ih =>
    refine (columnAt entry.1).bind fun column => ?_
    dsimp only
    split
    · exact (tighten _ _ _).bind fun _ => ih
    · exact ih

theorem checkRowActivity (index : Nat) :
    Uncounted (Presolve.checkRowActivity index : Reduction α Bool) := by
  refine (rowAt index).bind fun row => get.bind fun state => ?_
  dsimp only
  split
  · exact fun _ => rfl
  · split
    · exact takeRow index
    · split
      · exact (forceColumns _ _).bind fun _ => takeRow index
      · exact pure false

/-! ### Bounds and columns -/

theorem tightenByRow (index column : Nat) :
    Uncounted (Presolve.tightenByRow index column : Reduction α Bool) := by
  refine (rowAt index).bind fun row => (attempt _).bind fun a => ?_
  split
  · exact pure false
  · refine (columnAt column).bind fun _ => get.bind fun _ => ?_
    dsimp only
    split
    · exact pure false
    · exact tighten _ _ _

theorem roundBounds (index : Nat) : Uncounted (Presolve.roundBounds index : Reduction α Bool) := by
  refine (columnAt index).bind fun column => ?_
  split
  · exact pure false
  · refine bind (fun _ => rfl) fun _ => ?_
    dsimp only
    split
    · exact fun _ => rfl
    · split <;> exact fun _ => rfl

theorem removeAtValue (index : Nat) (value : α) : Uncounted (Presolve.removeAtValue index value) := by
  refine get.bind fun state => (mapM (fun row => (attempt _).bind fun _ => pure _) _).bind fun rows => ?_
  refine (objectiveAt index).bind fun cost => bind (fun _ => rfl) fun _ => ?_
  exact removeColumn index _

theorem removeFixedColumn (index : Nat) :
    Uncounted (Presolve.removeFixedColumn index : Reduction α Bool) := by
  refine (columnAt index).bind fun column => ?_
  split
  · exact (removeAtValue _ _).bind fun _ => pure true
  · exact pure false

theorem removeEmptyColumn (index : Nat) :
    Uncounted (Presolve.removeEmptyColumn index : Reduction α Bool) := by
  refine get.bind fun state => (mapM (fun row => attempt _) _).bind fun entries => ?_
  split
  · exact pure false
  · refine (objectiveAt index).bind fun _ => (columnAt index).bind fun _ => ?_
    split
    · exact (removeAtValue _ _).bind fun _ => pure true
    · exact throw _

theorem substituteOut (row index : Nat) :
    Uncounted (Presolve.substituteOut row index : Reduction α Unit) := by
  have drop : ∀ recovery : Recovery α, Uncounted (do
      Presolve.removeRow row
      Presolve.removeColumn index recovery) :=
    fun recovery => bind (fun _ => rfl) fun _ => removeColumn index recovery
  refine (rowAt row).bind fun data => (attempt _).bind fun a => (objectiveAt index).bind fun cost => ?_
  dsimp only
  split
  · refine get.bind fun _ => (attempt _).bind fun objective => bind (fun _ => rfl) fun _ => ?_
    exact drop _
  · exact drop _

theorem eliminateImpliedFree (fuel : Nat) :
    Uncounted (Presolve.eliminateImpliedFree fuel : Reduction α Bool) := by
  induction fuel with
  | zero => exact pure false
  | succ fuel ih =>
    refine get.bind fun _ => (attempt _).bind fun found => ?_
    split
    · exact pure false
    · exact (substituteOut _ _).bind fun _ => ih.bind fun _ => pure true

theorem pass : Uncounted (Presolve.pass : Reduction α Bool) := by
  refine (get.bind fun _ => sweep removeEmptyRow _).bind fun _ => ?_
  refine (get.bind fun _ => sweep removeSingletonRow _).bind fun _ => ?_
  refine (get.bind fun _ => sweep checkRowActivity _).bind fun _ => ?_
  refine (get.bind fun _ => eliminateImpliedFree _).bind fun _ => ?_
  refine (get.bind fun _ => sweep (fun row => sweep (tightenByRow row) _) _).bind fun _ => ?_
  refine (get.bind fun _ => sweep roundBounds _).bind fun _ => ?_
  refine (get.bind fun _ => sweep removeFixedColumn _).bind fun _ => ?_
  exact (get.bind fun _ => sweep removeEmptyColumn _).bind fun _ => pure _

end Uncounted

variable [Scalar α]

/-- The passes made are no more than those left. -/
theorem passes_count {left : Nat} {state final : State α} {status : Status}
    (ran : passes left state = .ok (status, final)) :
    final.counts.passes ≤ state.counts.passes + left := by
  induction left generalizing state with
  | zero =>
    obtain ⟨-, rfl⟩ := Prod.mk.inj (Except.ok.inj ran)
    exact Nat.le_refl _
  | succ left ih =>
    have uncounted := Uncounted.pass { state with counts.passes := state.counts.passes + 1 }
    rw [passes] at ran
    split at ran
    · rename_i next once
      have made := ih ran
      have same : next.counts.passes = state.counts.passes + 1 := uncounted.ok_of_run once
      omega
    · rename_i next once
      obtain ⟨-, rfl⟩ := Prod.mk.inj (Except.ok.inj ran)
      have same : next.counts.passes = state.counts.passes + 1 := uncounted.ok_of_run once
      omega
    · rename_i next once
      obtain ⟨-, rfl⟩ := Prod.mk.inj (Except.ok.inj ran)
      have same : next.counts.passes = state.counts.passes + 1 := uncounted.failed_of_run once
      omega
    · rename_i next once
      obtain ⟨-, rfl⟩ := Prod.mk.inj (Except.ok.inj ran)
      have same : next.counts.passes = state.counts.passes + 1 := uncounted.failed_of_run once
      omega
    · cases ran

/-- Presolve makes at most the passes it is allowed. -/
theorem run_passes_le {maxPasses : Nat} {program : Program α} {removed : UndoLog α} {status : Status}
    {state : State α} (ran : (run maxPasses program removed).outcome = .ok (status, state)) :
    state.counts.passes ≤ maxPasses := by
  obtain ⟨⟨status', state'⟩, guarded, rest⟩ := Run.ok_of_bind ran
  obtain ⟨-, -, final⟩ := Run.ok_of_bind rest
  obtain ⟨rfl, rfl⟩ := Prod.mk.inj (Run.eq_of_pure final)
  simpa using passes_count (Run.outcome_guard_iff.mp guarded)

end MixedInteger.Presolve
