import MixedInteger.Journal
import MixedInteger.Presolve.Reduction

/-! How a computation on a state ends. `Ends` states one property of a normal end and
one of a failure, each with the state reached. One rule per way of building a
computation turns the statement about a block into a statement about its parts. -/
namespace MixedInteger

/-- A sequence of calculations succeeds when both of its parts do. -/
theorem except_bind_eq_ok {ε β γ : Type} {first : Except ε β} {next : β → Except ε γ}
    {final : γ} :
    first >>= next = .ok final ↔ ∃ value, first = .ok value ∧ next value = .ok final := by
  cases first with
  | error cause => simp [bind, Except.bind]
  | ok value => simp [bind, Except.bind]

/-- What every step of a fold keeps holds at its end. -/
theorem foldlM_keeps {ε σ β : Type} (kept : σ → Prop) {step : σ → β → Except ε σ}
    {items : List β} {start final : σ} (ran : items.foldlM step start = .ok final)
    (begins : kept start)
    (steps : ∀ state item next, item ∈ items → kept state → step state item = .ok next →
      kept next) : kept final := by
  induction items generalizing start with
  | nil =>
    cases ran
    exact begins
  | cons item items ih =>
    rw [List.foldlM_cons] at ran
    cases first : step start item with
    | error cause =>
      rw [first] at ran
      cases ran
    | ok middle =>
      rw [first] at ran
      refine ih ran (steps start item middle List.mem_cons_self begins first) ?_
      intro state other next member
      exact steps state other next (List.mem_cons_of_mem _ member)

/-- A fold whose steps succeed and keep a property succeeds, with the property. -/
theorem exists_foldlM_ok {ε σ β : Type} (kept : σ → Prop) {step : σ → β → Except ε σ}
    {items : List β} {start : σ} (begins : kept start)
    (steps : ∀ state item, item ∈ items → kept state →
      ∃ next, step state item = .ok next ∧ kept next) :
    ∃ final, items.foldlM step start = .ok final ∧ kept final := by
  induction items generalizing start with
  | nil => exact ⟨start, rfl, begins⟩
  | cons item items ih =>
    obtain ⟨middle, first, keeps⟩ := steps start item List.mem_cons_self begins
    rw [List.foldlM_cons, first]
    exact ih keeps fun state other member => steps state other (List.mem_cons_of_mem _ member)

theorem toOption_eq_some_iff {ε β : Type} {result : Except ε β} {value : β} :
    result.toOption = some value ↔ result = .ok value := by
  cases result <;> simp [Except.toOption]

/-- A result that passes a check is there. -/
theorem exists_ok_of_any {ε β : Type} {result : Except ε β} {check : β → Bool}
    (checked : result.toOption.any check = true) :
    ∃ value, result = .ok value ∧ check value = true := by
  obtain ⟨value, known, passed⟩ := (Option.any_eq_true _ _).mp checked
  exact ⟨value, toOption_eq_some_iff.mp known, passed⟩

theorem ok_of_mapError {ε ε' β : Type} {result : Except ε β} {name : ε → ε'} {value : β}
    (known : result.mapError name = .ok value) : result = .ok value := by
  cases result with
  | ok other => exact congrArg _ (Except.ok.inj known)
  | error cause => cases known

namespace Run

variable {β γ : Type}

/-- A sequence ends well when both of its parts do. -/
theorem ok_of_bind {first : Run β} {next : β → Run γ} {final : γ}
    (ran : (first >>= next).outcome = .ok final) :
    ∃ value, first.outcome = .ok value ∧ (next value).outcome = .ok final := by
  rw [outcome_bind] at ran
  cases known : first.outcome with
  | error cause =>
    rw [known] at ran
    cases ran
  | ok value =>
    rw [known] at ran
    exact ⟨value, rfl, ran⟩

theorem outcome_guard_iff {calculation : Except Fault β} {value : β} :
    (Run.guard calculation).outcome = .ok value ↔ calculation = .ok value := by
  cases calculation with
  | error cause => simp [Run.guard, Run.fail]
  | ok result => simp [Run.guard]

theorem eq_of_pure {value final : β} (ran : (pure value : Run β).outcome = .ok final) :
    value = final := by
  simpa using ran

/-- A run that does not fail, and what holds of its value. -/
def Gives (run : Run β) (ok : β → Prop) : Prop := ∃ value, run.outcome = .ok value ∧ ok value

theorem gives_bind (first : Run β) (next : β → Run γ) (ok : γ → Prop) :
    (first >>= next).Gives ok ↔ first.Gives fun value => (next value).Gives ok := by
  unfold Gives
  rw [outcome_bind]
  cases first.outcome with
  | error cause => simp [bind, Except.bind]
  | ok value => simp [bind, Except.bind]

theorem gives_ok {run : Run β} {value : β} {ok : β → Prop} (known : run.outcome = .ok value) :
    run.Gives ok ↔ ok value := by
  simp [Gives, known]

theorem gives_guard {calculation : Except Fault β} {value : β} {ok : β → Prop}
    (known : calculation = .ok value) : (Run.guard calculation).Gives ok ↔ ok value :=
  gives_ok (outcome_guard_iff.mpr known)

end Run

/-- The property that holds of the value and state, or of the failure and state. -/
def Ends {ε σ β : Type} (run : EStateM ε σ β) (start : σ) (ok : β → σ → Prop)
    (failed : ε → σ → Prop) : Prop :=
  match run.run start with
  | .ok value reached => ok value reached
  | .error cause reached => failed cause reached

section

variable {ε σ β γ : Type} {start : σ} {failed : ε → σ → Prop}

@[simp] theorem ends_pure (value : β) (ok : β → σ → Prop) :
    Ends (pure value : EStateM ε σ β) start ok failed ↔ ok value start := Iff.rfl

@[simp] theorem ends_bind (first : EStateM ε σ β) (next : β → EStateM ε σ γ)
    (ok : γ → σ → Prop) :
    Ends (first >>= next) start ok failed ↔
      Ends first start (fun value reached => Ends (next value) reached ok failed) failed := by
  simp only [Ends, EStateM.run_bind]
  cases first.run start <;> rfl

@[simp] theorem ends_get (ok : σ → σ → Prop) :
    Ends (get : EStateM ε σ σ) start ok failed ↔ ok start start := Iff.rfl

@[simp] theorem ends_set (state : σ) (ok : PUnit → σ → Prop) :
    Ends (set state : EStateM ε σ PUnit) start ok failed ↔ ok ⟨⟩ state := Iff.rfl

@[simp] theorem ends_modify (change : σ → σ) (ok : PUnit → σ → Prop) :
    Ends (modify change : EStateM ε σ PUnit) start ok failed ↔ ok ⟨⟩ (change start) := Iff.rfl

@[simp] theorem ends_throw (cause : ε) (ok : β → σ → Prop) :
    Ends (throw cause : EStateM ε σ β) start ok failed ↔ failed cause start := Iff.rfl

theorem Ends.mono {run : EStateM ε σ β} {ok ok' : β → σ → Prop} {failed' : ε → σ → Prop}
    (ends : Ends run start ok failed) (finer : ∀ value reached, ok value reached → ok' value reached)
    (finerFailed : ∀ cause reached, failed cause reached → failed' cause reached) :
    Ends run start ok' failed' := by
  unfold Ends at ends ⊢
  cases outcome : run.run start with
  | ok value reached =>
    rw [outcome] at ends
    exact finer value reached ends
  | error cause reached =>
    rw [outcome] at ends
    exact finerFailed cause reached ends

/-- Two accounts of one computation hold together. -/
theorem Ends.and {run : EStateM ε σ β} {ok ok' : β → σ → Prop} {failed' : ε → σ → Prop}
    (first : Ends run start ok failed) (second : Ends run start ok' failed') :
    Ends run start (fun value reached => ok value reached ∧ ok' value reached)
      fun cause reached => failed cause reached ∧ failed' cause reached := by
  unfold Ends at first second ⊢
  cases outcome : run.run start with
  | ok value reached =>
    rw [outcome] at first second
    exact ⟨first, second⟩
  | error cause reached =>
    rw [outcome] at first second
    exact ⟨first, second⟩

/-- How a computation ends can be found out by running it. -/
instance Ends.decidable {run : EStateM ε σ β} {ok : β → σ → Prop}
    [∀ value reached, Decidable (ok value reached)]
    [∀ cause reached, Decidable (failed cause reached)] : Decidable (Ends run start ok failed) :=
  match ran : run.run start with
  | .ok value reached => decidable_of_iff (ok value reached) (by rw [Ends, ran])
  | .error cause reached => decidable_of_iff (failed cause reached) (by rw [Ends, ran])

/-- A computation that does not fail has a result. -/
theorem Ends.exists_ok {run : EStateM ε σ β} {ok : β → σ → Prop}
    (ends : Ends run start ok fun _ _ => False) :
    ∃ value reached, run.run start = .ok value reached ∧ ok value reached := by
  unfold Ends at ends
  cases ran : run.run start with
  | ok value reached =>
    rw [ran] at ends
    exact ⟨value, reached, rfl, ends⟩
  | error cause reached =>
    rw [ran] at ends
    exact ends.elim

theorem ends_iff_of_ok {run : EStateM ε σ β} {ok : β → σ → Prop} {value : β} {reached : σ}
    (ran : run.run start = .ok value reached) : Ends run start ok failed ↔ ok value reached := by
  simp [Ends, ran]

theorem ends_iff_of_error {run : EStateM ε σ β} {ok : β → σ → Prop} {cause : ε} {reached : σ}
    (ran : run.run start = .error cause reached) :
    Ends run start ok failed ↔ failed cause reached := by
  simp [Ends, ran]

theorem Ends.ok_of_run {run : EStateM ε σ β} {ok : β → σ → Prop} {value : β} {reached : σ}
    (ends : Ends run start ok failed) (ran : run.run start = .ok value reached) :
    ok value reached :=
  (ends_iff_of_ok ran).mp ends

theorem Ends.failed_of_run {run : EStateM ε σ β} {ok : β → σ → Prop} {cause : ε} {reached : σ}
    (ends : Ends run start ok failed) (ran : run.run start = .error cause reached) :
    failed cause reached :=
  (ends_iff_of_error ran).mp ends

end

namespace Presolve

variable {β : Type} {start : State Rat} {failed : Verdict → State Rat → Prop}

theorem ends_attempt_ok {value : β} {calculation : Except Fault β} {ok : β → State Rat → Prop}
    (known : calculation = .ok value) :
    Ends (attempt calculation) start ok failed ↔ ok value start := by
  subst known
  exact Iff.rfl

theorem ends_rowAt {index : Nat} {row : Row Rat} {ok : Row Rat → State Rat → Prop}
    (known : start.program.rows[index]? = some row) :
    Ends (rowAt index) start ok failed ↔ ok row start := by
  simp only [rowAt, ends_bind, ends_get]
  exact ends_attempt_ok (by rw [known]; rfl)

theorem ends_columnAt {index : Nat} {column : Column Rat} {ok : Column Rat → State Rat → Prop}
    (known : start.program.columns[index]? = some column) :
    Ends (columnAt index) start ok failed ↔ ok column start := by
  simp only [columnAt, ends_bind, ends_get]
  exact ends_attempt_ok (by rw [known]; rfl)

theorem ends_objectiveAt {index : Nat} {cost : Rat} {ok : Rat → State Rat → Prop}
    (known : start.program.objective[index]? = some cost) :
    Ends (objectiveAt index) start ok failed ↔ ok cost start := by
  simp only [objectiveAt, ends_bind, ends_get]
  exact ends_attempt_ok (by rw [known]; rfl)

end Presolve

end MixedInteger
