import MixedInteger.Proofs.Search.Conclusion

/-! The bound of a search that has ended, whatever ended it. It is made up of the nodes left in
the pool, or of the best value if there are none. A point that beats the best one is in a node
of the pool, which bounds it, or in a node that was given up; so the bound holds of every point
as long as no node was given up. A node whose children are too deep is given up and leaves no
trace in the bound. -/
namespace MixedInteger.Search

section

variable {program : Program Rat} {settings : Settings} {problem : Problem Rat}
  {clock : Clock.Readings} {begun final : State Rat}

/-- When a search has ended, every point that beats the best one is bounded by a node of the
pool or was in a node that was given up. If none was given up, an empty pool means that no point
beats the best one, which is then the reported bound; and else the pool bounds every point that
does. -/
theorem loop_bounds (made : Problem.ofProgram program settings = .ok problem)
    (structural : program.Structural) (prepared : prepare.run { problem } = .ok none begun)
    {fuel : Nat} {limit : Option SolveStatus}
    (looped : (loop clock fuel 0).run begun = .ok limit final) :
    (∀ best, final.incumbent.best = some best →
      final.problem.reference.Feasible best.values ∧
        best.objective = final.problem.structuralObjective best.values) ∧
    (∀ x, final.problem.reference.Feasible x →
      Better final.incumbent (final.problem.structuralObjective x) →
      (∃ node ∈ final.pool, Within node.ranges (final.problem.image x) ∧
        node.optimum ≤ final.problem.structuralObjective x) ∨
      ∃ look, GivenUp clock problem look x) ∧
    ((∀ look x, ¬ GivenUp clock problem look x) →
      (final.pool = [] → finalBound final = final.incumbent.approx ∧
        ∀ x, final.problem.reference.Feasible x →
          ¬ Better final.incumbent (final.problem.structuralObjective x)) ∧
      (final.pool ≠ [] → finalBound final = some final.pool.bestBound ∧
        ∀ x, final.problem.reference.Feasible x →
          Better final.incumbent (final.problem.structuralObjective x) →
          ∃ node ∈ final.pool, node.optimum ≤ final.problem.structuralObjective x)) := by
  obtain ⟨last, before, head, stepped⟩ := loop_last (.first prepared) looped
  obtain ⟨start, represents, covered⟩ := covered_of_heads made structural head
  have ended := covered.step represents.form head stepped
  have alike := ended.consistent.alike
  simp only [Problem.structuralObjective, alike.reference, alike.image_eq]
  have accounted : ∀ x, start.reference.Feasible x →
      Better final.incumbent (start.reference.objectiveValue x) →
      (∃ node ∈ final.pool, Within node.ranges (start.image x) ∧
        node.optimum ≤ start.reference.objectiveValue x) ∨
      ∃ look, GivenUp clock problem look x := by
    intro x held better
    exact (ended.better x held better).imp_right fun lost => ⟨_, lost.1⟩
  refine ⟨ended.consistent.incumbent, accounted, fun kept => ⟨fun empty => ?_, fun nonempty => ?_⟩⟩
  · refine ⟨by simp [finalBound, empty], fun x held better => ?_⟩
    rcases accounted x held better with ⟨node, member, -⟩ | ⟨look, lost⟩
    · rw [empty] at member
      cases member
    · exact kept look x lost
  · refine ⟨by simp [finalBound, nonempty], fun x held better => ?_⟩
    rcases accounted x held better with ⟨node, member, -, below⟩ | ⟨look, lost⟩
    · exact ⟨node, member, below⟩
    · exact absurd lost (kept look x)

end

/-- Minimise `-x - 4 y` over `6 x + 4 y ≤ 9` and `x + 4 y ≤ 4` in zeros and ones. Rounding the
root gives `(1, 0)`; the optimum is `(0, 1)`. -/
def stowage : Program Rat where
  objective := [-1, -4]
  constant := 0
  rows := [⟨[6, 4], .le, 9⟩, ⟨[1, 4], .le, 4⟩]
  columns := [.integer ⟨some 0, some 1⟩, .integer ⟨some 0, some 1⟩]

def stowageProblem (settings : Settings) : Problem Rat where
  working := stowage
  reference := stowage
  settings := settings

/-- A search that a node limit stops at its root is left with the root, which bounds the
optimum. -/
theorem stowage_bounded : ∃ begun final node,
    prepare.run { problem := stowageProblem { nodeLimit := some 1 } } = .ok none begun ∧
    (loop Clock.stopped 1 0).run begun = .ok (some .nodeLimit) final ∧ final.pool = [node] ∧
    final.problem.reference.Feasible [0, 1] ∧
    Better final.incumbent (final.problem.structuralObjective [0, 1]) ∧
    node.optimum ≤ final.problem.structuralObjective [0, 1] := by
  have runs : Ends prepare { problem := stowageProblem { nodeLimit := some 1 } }
      (fun result begun => result = none ∧
        (begun.chosen.all fun node => !decide (GivesUp begun.problem node)) = true ∧
        Ends (loop Clock.stopped 1 0) begun
          (fun limit final => limit = some .nodeLimit ∧ final.pool.length = 1 ∧
            final.problem.reference.Feasible [0, 1] ∧
            final.incumbent.dominates (final.problem.structuralObjective [0, 1]) = false)
          fun _ _ => False)
      fun _ _ => False := by decide +kernel
  obtain ⟨_, begun, prepared, rfl, splits, runs⟩ := runs.exists_ok
  obtain ⟨_, final, looped, rfl, single, held, beaten⟩ := runs.exists_ok
  obtain ⟨node, alone⟩ := List.length_eq_one_iff.mp single
  have better := (dominates_eq_false_iff _ _).mp beaten
  -- The search stops at its first head, so that no later one can give a node up.
  have heads : ∀ look state, Heads Clock.stopped (stowageProblem { nodeLimit := some 1 }) look
      state → state = begun := by
    intro look state head
    induction head with
    | first again => exact (EStateM.Result.ok.inj (again.symm.trans prepared)).2
    | next head stepped ih =>
      subst ih
      have more : (advance 0).run _ = .ok .more _ := stepped
      rw [loop, EStateM.run_bind, show Clock.stopped 0 = 0 from rfl, more] at looped
      cases looped
  have kept : ∀ look x,
      ¬ GivenUp Clock.stopped (stowageProblem { nodeLimit := some 1 }) look x := by
    rintro look x ⟨earlier, -, state, other, head, chosen, given, -⟩
    obtain rfl := heads earlier state head
    simp [chosen, given] at splits
  have structural : stowage.Structural := by simp [Program.Structural, stowage, Column.integer]
  have made : Problem.ofProgram stowage { nodeLimit := some 1 } =
      .ok (stowageProblem { nodeLimit := some 1 }) := rfl
  obtain ⟨-, -, bounds⟩ := loop_bounds made structural prepared looped
  obtain ⟨-, covered⟩ := (bounds kept).2 (by simp [alone])
  obtain ⟨other, member, below⟩ := covered [0, 1] held better
  rw [alone, List.mem_singleton] at member
  exact ⟨begun, final, node, prepared, looped, alone, held, better, member ▸ below⟩

/-- A search without children ends on an empty pool and reports the value of its best point as
the bound, though another point is better. -/
theorem stowage_bound_beaten : ∃ begun final best,
    prepare.run { problem := stowageProblem { depthLimit := some 0 } } = .ok none begun ∧
    (loop Clock.stopped 2 0).run begun = .ok none final ∧ final.pool = [] ∧
    final.incumbent.best = some best ∧ finalBound final = some best.approx ∧
    final.problem.reference.Feasible [0, 1] ∧
    final.problem.structuralObjective [0, 1] < best.objective := by
  have runs : Ends prepare { problem := stowageProblem { depthLimit := some 0 } }
      (fun result begun => result = none ∧ Ends (loop Clock.stopped 2 0) begun
        (fun limit final => limit = none ∧ final.pool.isEmpty = true ∧
          final.problem.reference.Feasible [0, 1] ∧ (final.incumbent.best.any fun best =>
            final.problem.structuralObjective [0, 1] < best.objective) = true)
        fun _ _ => False)
      fun _ _ => False := by decide +kernel
  obtain ⟨_, begun, prepared, rfl, runs⟩ := runs.exists_ok
  obtain ⟨_, final, looped, rfl, empty, held, beaten⟩ := runs.exists_ok
  obtain ⟨best, known, below⟩ := (Option.any_eq_true _ _).mp beaten
  refine ⟨begun, final, best, prepared, looped, List.isEmpty_iff.mp empty, known, ?_, held,
    of_decide_eq_true below⟩
  simp [finalBound, empty, IncumbentTracker.approx, known]

end MixedInteger.Search
