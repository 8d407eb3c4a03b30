import MixedInteger.Proofs.Meaning
import MixedInteger.Proofs.Search.Conclusion

/-! What an exact solution says about its model. The solution of the minimisation program goes
through the eliminated columns and the sense of the objective back to the model, and what the
search proved about the program is then a statement about the model's own points and
objective. -/
namespace MixedInteger

/-- The point of a solution in exact numbers. -/
def Solution.point (solution : Solution) : List Rat := solution.values.map Scalar.ofNumber

/-! ### Putting eliminated columns back -/

section

variable {problem expanded : Problem Rat} {program : Program Rat} {value : Rat}

theorem Problem.status_expand (made : problem.expand = .ok expanded) :
    expanded.status = problem.status := by
  unfold Problem.expand at made
  split at made
  · exact Except.ok.inj made ▸ rfl
  · rename_i values _
    cases replayed : problem.removed.replay values with
    | error cause =>
      rw [replayed] at made
      cases made
    | ok whole =>
      rw [replayed] at made
      exact Except.ok.inj made ▸ rfl

/-- Without a stored point there is nothing to report. -/
theorem toSolution_of_blank (blank : Search.Blank problem) (made : problem.expand = .ok expanded) :
    expanded.toSolution.values = [] ∧ expanded.toSolution.objective = none := by
  rw [Problem.expand, blank.1] at made
  obtain rfl := Except.ok.inj made
  simp [Problem.toSolution, blank.1, blank.2]

/-- A stored point is reported as the feasible point it stands for. -/
theorem toSolution_of_attains (attains : Search.Attains program problem value)
    (made : problem.expand = .ok expanded) :
    expanded.toSolution.objective = some (.exact value) ∧
      program.Feasible expanded.toSolution.point ∧
      program.objectiveValue expanded.toSolution.point = value := by
  obtain ⟨optimum, y, x, stored, replayed, held, worth⟩ := attains
  rw [Problem.expand, stored] at made
  dsimp only at made
  rw [replayed] at made
  obtain rfl := Except.ok.inj made
  have point : Solution.point (Problem.toSolution { problem with
      solution := some x, removed := [] }) = x := by
    simp [Solution.point, Problem.toSolution, Scalar.toNumber, Scalar.ofNumber, Function.comp_def]
  refine ⟨?_, point.symm ▸ held, point.symm ▸ worth⟩
  simp [Problem.toSolution, optimum, Scalar.toNumber]

end

namespace Model

/-! ### From the search to the model -/

/-- The exact search over a model takes a node from the pool for which no column is chosen. -/
def Overlooks (clock : Clock.Readings) (model : Model) (settings : Settings) : Prop :=
  ∃ problem : Problem Rat, model.toProblem settings = .ok problem ∧ Search.Overlooks clock problem

/-- The exact search over a model ends on a gap that is closed as far as binary64 can tell. -/
def ClosesGap (clock : Clock.Readings) (model : Model) (settings : Settings) : Prop :=
  ∃ problem : Problem Rat, model.toProblem settings = .ok problem ∧ Search.ClosesGap clock problem

/-- Whether the exact search over a model, run again, ends on an empty pool with a column for
every node it takes. -/
def splitsAll (clock : Clock.Readings) (fuel : Nat) (model : Model) (settings : Settings) : Bool :=
  match (model.toProblem settings : Except Refusal (Problem Rat)) with
  | .error _ => false
  | .ok problem =>
    match Search.prepare.run { problem } with
    | .ok none begun => Search.splitsAll clock fuel 0 begun
    | _ => false

section

variable {model : Model} {settings : Settings} {clock : Clock.Readings} {solution : Solution}

theorem thorough_of_splitsAll {fuel : Nat} (splits : model.splitsAll clock fuel settings = true) :
    ¬ model.Overlooks clock settings ∧ ¬ model.ClosesGap clock settings := by
  unfold splitsAll at splits
  split at splits
  · cases splits
  · rename_i problem made
    split at splits
    · rename_i begun prepared
      have same : ∀ other : Problem Rat, model.toProblem settings = .ok other → other = problem :=
        fun other again => Except.ok.inj (again.symm.trans made)
      obtain ⟨split, apart⟩ := Search.thorough_of_splitsAll prepared splits
      constructor
      · rintro ⟨other, again, overlooked⟩
        exact split (same other again ▸ overlooked)
      · rintro ⟨other, again, closes⟩
        exact apart (same other again ▸ closes)
    · cases splits

theorem toProblem_eq_ok {problem : Problem Rat} (made : model.toProblem settings = .ok problem) :
    ∃ program, model.toProgram = .ok program ∧ Problem.ofProgram program settings = .ok problem := by
  unfold toProblem at made
  cases translated : (model.toProgram : Except Refusal (Program Rat)) with
  | error cause =>
    rw [translated] at made
    cases made
  | ok program =>
    rw [translated] at made
    exact ⟨program, rfl, made⟩

/-- The solution of a minimisation program is read off the end of its search. -/
theorem solveIn_eq_ok (ran : (model.solveIn Rat clock settings).outcome = .ok solution) :
    ∃ (problem : Problem Rat) (status : SolveStatus) (final : Search.State Rat)
      (expanded : Problem Rat), model.toProblem settings = .ok problem ∧
        (Search.solve clock).run { problem } = .ok status final ∧
        final.problem.expand = .ok expanded ∧ solution = expanded.toSolution := by
  obtain ⟨problem, lifted, ran⟩ := Run.ok_of_bind ran
  have made : model.toProblem settings = .ok problem := ok_of_mapError lifted
  obtain ⟨_, -, ran⟩ := Run.ok_of_bind ran
  obtain ⟨status, ended, ran⟩ := Run.ok_of_bind ran
  obtain ⟨expanded, opened, ran⟩ := Run.ok_of_bind ran
  rw [Run.outcome_guard_iff] at opened
  change (Ended.ofResult ((Search.solve clock).run { problem })).outcome = .ok status at ended
  change (Ended.ofResult ((Search.solve clock).run { problem })).problem.expand = _ at opened
  cases searched : (Search.solve clock).run { problem } with
  | error cause final =>
    rw [searched] at ended
    cases ended
  | ok other final =>
    rw [searched] at ended opened
    obtain rfl := Except.ok.inj ended
    exact ⟨problem, other, final, expanded, made, searched, opened, (Run.eq_of_pure ran).symm⟩

/-- A model that calls for exact arithmetic is solved in it. -/
theorem solve_eq_ok (exact : settings.precision.usesExact model.numbers = true)
    (ran : (model.solve clock settings).outcome = .ok solution) :
    ∃ minimised, (model.solveIn Rat clock settings).outcome = .ok minimised ∧
      solution = model.inOwnSense minimised := by
  obtain ⟨chosen, checked, ran⟩ := Run.ok_of_bind ran
  obtain rfl : chosen = true := by
    obtain ⟨_, -, checked⟩ := Run.ok_of_bind checked
    rw [exact] at checked
    split at checked
    · obtain ⟨_, -, checked⟩ := Run.ok_of_bind checked
      exact (Run.eq_of_pure checked).symm
    · exact (Run.eq_of_pure checked).symm
  dsimp only at ran
  rw [if_pos rfl] at ran
  obtain ⟨minimised, solved, ran⟩ := Run.ok_of_bind ran
  exact ⟨minimised, solved, (Run.eq_of_pure ran).symm⟩

@[simp] theorem status_inOwnSense (model : Model) (minimised : Solution) :
    (model.inOwnSense minimised).status = minimised.status := by
  unfold inOwnSense
  split <;> rfl

@[simp] theorem values_inOwnSense (model : Model) (minimised : Solution) :
    (model.inOwnSense minimised).values = minimised.values := by
  unfold inOwnSense
  split <;> rfl

theorem objective_inOwnSense_none {minimised : Solution} (missing : minimised.objective = none) :
    (model.inOwnSense minimised).objective = none := by
  unfold inOwnSense
  split <;> simp [missing]

theorem objective_inOwnSense {minimised : Solution} {value : Rat}
    (known : minimised.objective = some (.exact value)) :
    (model.inOwnSense minimised).objective = some (.exact (model.sense * value)) := by
  unfold inOwnSense sense
  split <;> simp [known, Number.neg]

/-- An exact solution comes from a search over the model's minimisation program, and the answer
of that search holds of the program. -/
theorem solve_answered (exact : settings.precision.usesExact model.numbers = true)
    (ran : (model.solve clock settings).outcome = .ok solution) :
    ∃ (program : Program Rat) (problem final expanded : Problem Rat),
      model.toProgram = .ok program ∧ model.toProblem settings = .ok problem ∧
      Search.Answers clock problem program solution.status final ∧
      final.expand = .ok expanded ∧ solution = model.inOwnSense expanded.toSolution := by
  obtain ⟨minimised, solved, rfl⟩ := solve_eq_ok exact ran
  obtain ⟨problem, status, final, expanded, made, searched, opened, rfl⟩ := solveIn_eq_ok solved
  obtain ⟨program, translated, wrapped⟩ := toProblem_eq_ok made
  have answers := (Search.solve_answers wrapped (structural_toProgram translated) clock).ok_of_run
    searched
  refine ⟨program, problem, final.problem, expanded, translated, made, ?_, opened, rfl⟩
  have status : (model.inOwnSense expanded.toSolution).status = status := by
    rw [status_inOwnSense, Problem.toSolution, Problem.status_expand opened, answers.recorded]
    rfl
  rw [status]
  exact answers

/-- A point that the search stores is reported as a point of the model, at the model's own
objective. -/
theorem reported_of_attains {program : Program Rat} (made : model.toProgram = .ok program)
    {final expanded : Problem Rat} {value : Rat} (attains : Search.Attains program final value)
    (opened : final.expand = .ok expanded)
    (own : solution = model.inOwnSense expanded.toSolution) :
    solution.objective = some (.exact (model.sense * value)) ∧ model.Admits solution.point ∧
      model.value solution.point = model.sense * value := by
  obtain ⟨objective, held, worth⟩ := toSolution_of_attains attains opened
  have point : solution.point = expanded.toSolution.point := by
    rw [own, Solution.point, values_inOwnSense]
    rfl
  rw [point]
  refine ⟨own ▸ objective_inOwnSense objective, (feasible_toProgram_iff made _).mp held, ?_⟩
  rw [objectiveValue_toProgram made] at worth
  rw [← worth, ← mul_assoc, sense_mul_self, one_mul]

/-! ### What the solution says -/

/-- Whatever stopped an exact solve: a reported objective is that of the reported point, which is
a point of the model; and without an objective no point is reported. -/
theorem solve_reports_point (exact : settings.precision.usesExact model.numbers = true)
    (ran : (model.solve clock settings).outcome = .ok solution) :
    (∀ objective, solution.objective = some objective →
      model.Admits solution.point ∧ Scalar.ofNumber objective = model.value solution.point) ∧
    (solution.objective = none → solution.values = []) := by
  obtain ⟨program, problem, final, expanded, made, -, answers, opened, own⟩ :=
    solve_answered exact ran
  rcases answers.reports with blank | ⟨value, attains⟩
  · obtain ⟨nothing, missing⟩ := toSolution_of_blank blank opened
    have none : solution.objective = none := own ▸ objective_inOwnSense_none missing
    refine ⟨fun objective known => ?_, fun _ => ?_⟩
    · rw [none] at known
      cases known
    · rw [own, values_inOwnSense, nothing]
  · obtain ⟨stated, admitted, worth⟩ := reported_of_attains made attains opened own
    refine ⟨fun objective known => ⟨admitted, ?_⟩, fun missing => ?_⟩
    · obtain rfl := Option.some.inj (stated.symm.trans known)
      exact worth.symm
    · rw [stated] at missing
      cases missing

/-- Maximise `5 x + 4 y + 1` over `6 x + 4 y ≤ 21` and `x + 2 y ≤ 6` in integers. -/
def freight : Model where
  objective := [.ofInt 5, .ofInt 4]
  constant := .ofInt 1
  rows := [⟨[.ofInt 6, .ofInt 4], .le, .ofInt 21⟩, ⟨[.ofInt 1, .ofInt 2], .le, .ofInt 6⟩]
  columns := [{ integral := true }, { integral := true }]
  maximize := true

/-- The point that the heuristic found is reported when the node limit stops the search. -/
theorem freight_reported : ∃ solution objective,
    (freight.solve Clock.stopped { nodeLimit := some 1, maxCuts := 0 }).outcome = .ok solution ∧
      solution.status = .nodeLimit ∧ solution.objective = some objective ∧
      freight.Admits solution.point ∧
      Scalar.ofNumber objective = freight.value solution.point := by
  have runs : (freight.solve Clock.stopped { nodeLimit := some 1, maxCuts := 0 }).outcome.toOption.any
      (fun solution => solution.status = .nodeLimit && solution.objective.isSome) = true := by
    decide +kernel
  obtain ⟨solution, ran, checked⟩ := exists_ok_of_any runs
  obtain ⟨limited, found⟩ := Bool.and_eq_true_iff.mp checked
  obtain ⟨objective, stated⟩ := Option.isSome_iff_exists.mp found
  exact ⟨solution, objective, ran, of_decide_eq_true limited, stated,
    (solve_reports_point (by decide +kernel) ran).1 objective stated⟩

/-- Negative verdicts of an exact solve hold: a model that is called infeasible has no point, as
long as a column was chosen for every node taken from the pool; and from any point of a model
that is called unbounded the objective can be improved past every limit. -/
theorem solve_negative_verdicts (exact : settings.precision.usesExact model.numbers = true)
    (ran : (model.solve clock settings).outcome = .ok solution) :
    (solution.status = .infeasible → ¬ model.Overlooks clock settings →
      ∀ x, ¬ model.Admits x) ∧
    (solution.status = .unbounded → ∀ x, model.Admits x → ∀ limit : Rat,
      ∃ y, model.Admits y ∧ model.Prefers (model.value y) limit) := by
  obtain ⟨program, problem, final, expanded, made, prepared, answers, -, -⟩ :=
    solve_answered exact ran
  refine ⟨fun infeasible split x held => ?_, fun unbounded x held limit => ?_⟩
  · have means := answers.infeasible infeasible fun overlooked => split ⟨problem, prepared, overlooked⟩
    exact means x ((feasible_toProgram_iff made x).mpr held)
  · obtain ⟨y, heldY, below⟩ := answers.unbounded unbounded x
      ((feasible_toProgram_iff made x).mpr held) (model.sense * limit)
    refine ⟨y, (feasible_toProgram_iff made y).mp heldY, (prefers_iff _ _ _).mpr ?_⟩
    rw [← objectiveValue_toProgram made]
    exact below

/-- Find a zero or a one whose double is one. -/
def parity : Model where
  objective := [.ofInt 1]
  rows := [⟨[.ofInt 2], .eq, .ofInt 1⟩]
  columns := [.binary]

/-- Maximise `x + y` over `2 x - 2 y ≤ 1`, with `x` an integer. -/
def ramp : Model where
  objective := [.ofInt 1, .ofInt 1]
  rows := [⟨[.ofInt 2, .ofInt (-2)], .le, .ofInt 1⟩]
  columns := [{ integral := true }, {}]
  maximize := true

/-- One model is found infeasible by branching, the other unbounded by its relaxation. -/
theorem parity_infeasible_ramp_unbounded : (∀ x, ¬ parity.Admits x) ∧
    ∀ limit : Rat, ∃ y, ramp.Admits y ∧ limit < ramp.value y := by
  have first : (parity.solve Clock.stopped { presolve := .off, maxCuts := 0 }).outcome.toOption.any
      (fun solution => solution.status = .infeasible) = true := by decide +kernel
  have second : (ramp.solve Clock.stopped { presolve := .off }).outcome.toOption.any
      (fun solution => solution.status = .unbounded) = true := by decide +kernel
  obtain ⟨nowhere, ended, infeasible⟩ := exists_ok_of_any first
  obtain ⟨endless, ran, unbounded⟩ := exists_ok_of_any second
  constructor
  · have splits : parity.splitsAll Clock.stopped 2 { presolve := .off, maxCuts := 0 } = true := by
      decide +kernel
    exact (solve_negative_verdicts (by decide +kernel) ended).1
      (of_decide_eq_true infeasible) (thorough_of_splitsAll splits).1
  · have origin : ramp.Admits [0, 0] := admits_of_toProgram ⟨_, rfl, by decide +kernel⟩
    exact (solve_negative_verdicts (by decide +kernel) ran).2
      (of_decide_eq_true unbounded) [0, 0] origin

/-- An exact optimum is attained by its point. No point of the model is better, as long as a
column was chosen for every node taken from the pool and the search did not end on a gap that is
closed in binary64. -/
theorem solve_optimal (exact : settings.precision.usesExact model.numbers = true)
    (ran : (model.solve clock settings).outcome = .ok solution)
    (optimal : solution.status = .optimal) :
    ∃ objective, solution.objective = some objective ∧ model.Admits solution.point ∧
      Scalar.ofNumber objective = model.value solution.point ∧
      (¬ model.Overlooks clock settings → ¬ model.ClosesGap clock settings →
        ∀ y, model.Admits y → ¬ model.Prefers (model.value y) (Scalar.ofNumber objective)) := by
  obtain ⟨program, problem, final, expanded, made, prepared, answers, opened, own⟩ :=
    solve_answered exact ran
  obtain ⟨value, attains, least⟩ := answers.optimal optimal
  obtain ⟨stated, admitted, worth⟩ := reported_of_attains made attains opened own
  refine ⟨_, stated, admitted, worth.symm, fun split apart y held better => ?_⟩
  have bound := least (fun overlooked => split ⟨problem, prepared, overlooked⟩)
    (fun closes => apart ⟨problem, prepared, closes⟩) y ((feasible_toProgram_iff made y).mpr held)
  have below : model.sense * model.value y < model.sense * (model.sense * value) :=
    (prefers_iff _ _ _).mp better
  rw [← mul_assoc, sense_mul_self, one_mul, ← objectiveValue_toProgram made] at below
  exact absurd bound (not_le.mpr below)

/-- The optimum of `freight` is found by branching, and no point of the model is better. -/
theorem freight_optimal : ∃ solution objective,
    (freight.solve Clock.stopped { maxCuts := 0 }).outcome = .ok solution ∧
      solution.objective = some objective ∧ freight.Admits solution.point ∧
      Scalar.ofNumber objective = freight.value solution.point ∧
      ∀ y, freight.Admits y → ¬ freight.Prefers (freight.value y) (Scalar.ofNumber objective) := by
  have runs : (freight.solve Clock.stopped { maxCuts := 0 }).outcome.toOption.any
      (fun solution => solution.status = .optimal) = true := by decide +kernel
  have splits : freight.splitsAll Clock.stopped 4 { maxCuts := 0 } = true := by decide +kernel
  obtain ⟨split, apart⟩ := thorough_of_splitsAll splits
  obtain ⟨solution, ran, optimal⟩ := exists_ok_of_any runs
  obtain ⟨objective, stated, admitted, worth, best⟩ :=
    solve_optimal (by decide +kernel) ran (of_decide_eq_true optimal)
  exact ⟨solution, objective, ran, stated, admitted, worth, best split apart⟩

/-- Minimise `2 ^ 60 - x - 4 y` over `6 x + 4 y ≤ 9` and `x + 4 y ≤ 4` in zeros and ones. The
values of its points are too close to be told apart in binary64. -/
def ballast : Model where
  objective := [.ofInt (-1), .ofInt (-4)]
  constant := .ofInt (2 ^ 60)
  rows := [⟨[.ofInt 6, .ofInt 4], .le, .ofInt 9⟩, ⟨[.ofInt 1, .ofInt 4], .le, .ofInt 4⟩]
  columns := [.binary, .binary]

/-- A gap that is closed in binary64 ends the search at a point that is not the best. -/
theorem ballast_not_optimal : ∃ solution objective,
    (ballast.solve Clock.stopped {}).outcome = .ok solution ∧ solution.status = .optimal ∧
      solution.objective = some objective ∧
      ∃ y, ballast.Admits y ∧ ballast.Prefers (ballast.value y) (Scalar.ofNumber objective) := by
  have runs : (ballast.solve Clock.stopped {}).outcome.toOption.any (fun solution =>
      solution.status = .optimal && solution.objective.any fun objective =>
        ballast.value [0, 1] < Scalar.ofNumber objective) = true := by decide +kernel
  obtain ⟨solution, ran, checked⟩ := exists_ok_of_any runs
  obtain ⟨optimal, beaten⟩ := Bool.and_eq_true_iff.mp checked
  obtain ⟨objective, stated, above⟩ := (Option.any_eq_true _ _).mp beaten
  have below : ballast.value [0, 1] < Scalar.ofNumber objective := of_decide_eq_true above
  exact ⟨solution, objective, ran, of_decide_eq_true optimal, stated, [0, 1],
    admits_of_toProgram ⟨_, rfl, by decide +kernel⟩, below⟩

end

end Model

end MixedInteger
