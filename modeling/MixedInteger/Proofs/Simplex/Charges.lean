import MixedInteger.Proofs.Ending
import MixedInteger.Simplex.Optimize

/-! One budget is handed from solve to solve. Every phase hands on the limit it was given, charges no
more than that, and reports the limit only when it is used up. Nothing is assumed about the scalars. -/
namespace MixedInteger.Simplex

namespace Budget

/-- What may happen to a budget: charges up to its limit. -/
structure Spends (before after : Budget) : Prop where
  limit : after.limit = before.limit
  used : ∀ limit, before.limit = some limit → before.used ≤ limit → after.used ≤ limit

variable {before middle after : Budget}

theorem Spends.refl (budget : Budget) : budget.Spends budget := ⟨rfl, fun _ _ => id⟩

theorem Spends.trans (first : before.Spends middle) (second : middle.Spends after) :
    before.Spends after := by
  refine ⟨second.limit.trans first.limit, fun limit known within => ?_⟩
  exact second.used limit (first.limit.trans known) (first.used limit known within)

theorem spends_of_tick (ticked : before.tick = some after) : before.Spends after := by
  unfold tick at ticked
  split at ticked
  · cases ticked
  · rename_i left
    obtain rfl := Option.some.inj ticked
    refine ⟨rfl, fun limit known _ => ?_⟩
    simp only [exhausted, known, Option.any_some, decide_eq_true_eq, Nat.not_le] at left
    exact left

theorem exhausted_of_tick (refused : before.tick = none) : before.exhausted = true := by
  unfold tick at refused
  split at refused
  · assumption
  · cases refused

/-- A budget that is used up is used up exactly. -/
theorem used_of_exhausted (exhausted : before.exhausted = true)
    (within : ∀ limit, before.limit = some limit → before.used ≤ limit) :
    before.limit = some before.used := by
  obtain ⟨limit, known, reached⟩ := (Option.any_eq_true _ _).mp exhausted
  have same := Nat.le_antisymm (of_decide_eq_true reached) (within limit known)
  rw [known, same]

end Budget

/-- What a solve does to its budget: it spends some, and a limit that it reports is used up. -/
structure Charges (before : Budget) (status : Status) (after : Budget) : Prop where
  spends : before.Spends after
  limit : status = .iterationLimit → after.exhausted = true

theorem Charges.after {before middle after : Budget} {status : Status} (spends : before.Spends middle)
    (charges : Charges middle status after) : Charges before status after :=
  ⟨spends.trans charges.spends, charges.limit⟩

variable {α : Type} [Scalar α]

namespace Tableau

theorem iterate_charges (count fuel : Nat) (tableau : Tableau α) (budget : Budget) :
    budget.Spends (iterate count fuel tableau budget).2.2 ∧
      ((iterate count fuel tableau budget).1 = .limit →
        (iterate count fuel tableau budget).2.2.exhausted = true) := by
  induction fuel generalizing tableau budget with
  | zero => exact ⟨.refl budget, nofun⟩
  | succ fuel ih =>
    rw [iterate]
    cases tableau.entering count with
    | none => exact ⟨.refl budget, nofun⟩
    | some column =>
      cases ticked : budget.tick with
      | none => exact ⟨.refl budget, fun _ => Budget.exhausted_of_tick ticked⟩
      | some charged =>
        have spends := Budget.spends_of_tick ticked
        dsimp only
        split
        · exact ⟨spends, nofun⟩
        · rename_i next _
          obtain ⟨further, limit⟩ := ih next charged
          exact ⟨spends.trans further, limit⟩

/-! ### How the phases end -/

/-- Phase one is over at once where no row is pending. Otherwise it iterates from the start that it set
up, and what settles the matter is where the iterations ended. -/
inductive PhaseOneEnds (tableau : Tableau α) (budget : Budget) (phase : Phase α) : Prop
  | ready (opened : phase.status = none) (unspent : phase.budget = budget)
  | iterated {start reached : Tableau α} {ending : Ending}
      (began : tableau.beginPhaseOne tableau.pendingRows = .ok start)
      (ran : iterate start.columnCount (start.iterationBound budget) start budget =
        (ending, reached, phase.budget))
      (limited : phase.status = some .iterationLimit → ending = .limit)
      (settled : phase.status ≠ none → phase.tableau = reached)

theorem phaseOne_cases {tableau : Tableau α} {budget : Budget} {phase : Phase α}
    (ran : tableau.phaseOne budget = .ok phase) : PhaseOneEnds tableau budget phase := by
  unfold phaseOne at ran
  dsimp only at ran
  split at ran
  · split at ran
    · obtain ⟨_, -, made⟩ := except_bind_eq_ok.mp ran
      obtain rfl := Except.ok.inj made
      exact .ready rfl rfl
    · obtain ⟨_, -, made⟩ := except_bind_eq_ok.mp ran
      obtain rfl := Except.ok.inj made
      exact .ready rfl rfl
  · obtain ⟨start, began, rest⟩ := except_bind_eq_ok.mp ran
    cases iterated : iterate start.columnCount (start.iterationBound budget) start budget with
    | mk ending run =>
      obtain ⟨reached, charged⟩ := run
      rw [iterated] at rest
      cases ending with
      | unsettled => cases rest
      | limit =>
        obtain rfl := Except.ok.inj rest
        exact .iterated began iterated (fun _ => rfl) fun _ => rfl
      | unbounded =>
        obtain rfl := Except.ok.inj rest
        exact .iterated began iterated (by simp) fun _ => rfl
      | optimal =>
        dsimp only at rest
        split at rest
        · obtain rfl := Except.ok.inj rest
          exact .iterated began iterated (by simp) fun _ => rfl
        · obtain ⟨⟨ready, dropped⟩, -, made⟩ := except_bind_eq_ok.mp rest
          obtain rfl := Except.ok.inj made
          exact .iterated began iterated (by simp) fun settled => absurd rfl settled

/-- Phase two ends where its iterations do. -/
theorem phaseTwo_cases {before phase : Phase α} (ran : phaseTwo before = .ok phase) :
    ∃ ending, iterate before.tableau.columnCount (before.tableau.iterationBound before.budget)
        before.tableau before.budget = (ending, phase.tableau, phase.budget) ∧
      (phase.status = some .iterationLimit → ending = .limit) := by
  unfold phaseTwo at ran
  cases iterated : iterate before.tableau.columnCount (before.tableau.iterationBound before.budget)
    before.tableau before.budget with
  | mk ending run =>
    obtain ⟨reached, charged⟩ := run
    rw [iterated] at ran
    cases ending with
    | unsettled => cases ran
    | limit =>
      obtain rfl := Except.ok.inj ran
      exact ⟨.limit, rfl, fun _ => rfl⟩
    | unbounded =>
      obtain rfl := Except.ok.inj ran
      exact ⟨.unbounded, rfl, by simp⟩
    | optimal =>
      obtain rfl := Except.ok.inj ran
      exact ⟨.optimal, rfl, by simp⟩

/-- An optimisation ends with phase one where that settles the matter, and with phase two else. -/
theorem optimize_cases {tableau : Tableau α} {budget : Budget} {result : Optimized α}
    (ran : (tableau.optimize budget).outcome = .ok result) :
    ∃ phase, tableau.phaseOne budget = .ok phase ∧
      ((phase.status = some result.status ∧ phase.tableau = result.tableau ∧
          phase.budget = result.budget) ∨
        (phase.status = none ∧ ∃ last, phaseTwo phase = .ok last ∧ last.tableau = result.tableau ∧
          last.budget = result.budget ∧ last.status.getD .optimal = result.status)) := by
  obtain ⟨phase, phases, rest⟩ := Run.ok_of_bind ran
  obtain ⟨-, -, made⟩ := Run.ok_of_bind rest
  obtain rfl := Run.eq_of_pure made
  obtain ⟨first, one, two⟩ := except_bind_eq_ok.mp (Run.outcome_guard_iff.mp phases)
  refine ⟨first, one, ?_⟩
  cases opened : first.status with
  | some status =>
    rw [opened] at two
    obtain rfl := Except.ok.inj two
    rw [opened]
    exact .inl ⟨rfl, rfl, rfl⟩
  | none =>
    rw [opened] at two
    exact .inr ⟨rfl, phase, two, rfl, rfl, rfl⟩

/-! ### What the phases charge -/

/-- A phase hands the budget on, and a limit that it stops at is used up. -/
theorem phaseOne_charges {tableau : Tableau α} {budget : Budget} {phase : Phase α}
    (ran : tableau.phaseOne budget = .ok phase) :
    budget.Spends phase.budget ∧
      (phase.status = some .iterationLimit → phase.budget.exhausted = true) := by
  cases phaseOne_cases ran with
  | ready opened unspent =>
    rw [unspent, opened]
    exact ⟨.refl budget, by simp⟩
  | @iterated start reached ending began iterated limited settled =>
    obtain ⟨spends, limit⟩ :=
      iterate_charges start.columnCount (start.iterationBound budget) start budget
    rw [iterated] at spends limit
    exact ⟨spends, fun stopped => limit (limited stopped)⟩

theorem phaseTwo_charges {before phase : Phase α} (ran : phaseTwo before = .ok phase) :
    before.budget.Spends phase.budget ∧
      (phase.status = some .iterationLimit → phase.budget.exhausted = true) := by
  obtain ⟨ending, iterated, limited⟩ := phaseTwo_cases ran
  obtain ⟨spends, limit⟩ := iterate_charges before.tableau.columnCount
    (before.tableau.iterationBound before.budget) before.tableau before.budget
  rw [iterated] at spends limit
  exact ⟨spends, fun stopped => limit (limited stopped)⟩

/-- What an optimisation does to its budget. -/
theorem optimize_charges {tableau : Tableau α} {budget : Budget} {result : Optimized α}
    (ran : (tableau.optimize budget).outcome = .ok result) :
    Charges budget result.status result.budget := by
  obtain ⟨phase, one, ⟨status, -, same⟩ | ⟨-, last, two, -, same, status⟩⟩ := optimize_cases ran
  · obtain ⟨spends, limit⟩ := phaseOne_charges one
    rw [← same]
    refine ⟨spends, fun stopped => limit ?_⟩
    rw [status, stopped]
  · obtain ⟨spends, -⟩ := phaseOne_charges one
    obtain ⟨further, limit⟩ := phaseTwo_charges two
    rw [← same]
    refine ⟨spends.trans further, fun stopped => limit ?_⟩
    rw [← status] at stopped
    cases named : last.status with
    | none =>
      rw [named] at stopped
      cases stopped
    | some other =>
      rw [named] at stopped
      exact congrArg some stopped

end Tableau

end MixedInteger.Simplex
