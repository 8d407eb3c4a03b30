import MixedInteger.Proofs.Simplex.Rays
import MixedInteger.Proofs.Simplex.Termination

/-! Both phases together. From any prepared tableau, optimisation ends with a status that is
right about the solutions in the box: at an optimal vertex, with a proof that there is no
solution, or with a ray. Phase one never breaks down, because the sum of its artificial
columns is bounded below; and both phases settle within their bounds on iterations. -/
namespace MixedInteger.Simplex

namespace Tableau

/-- No solution of the rows lies in the box. -/
def Unsolvable (tableau : Tableau Rat) : Prop :=
  ∀ x, tableau.Holds x → ¬ InBounds tableau.frame x

/-- Solutions in the box have costs below every limit. -/
def Bottomless (tableau : Tableau Rat) : Prop :=
  ∀ limit, ∃ x, tableau.Holds x ∧ InBounds tableau.frame x ∧ costAt tableau.frame x < limit

theorem Ray.bottomless {tableau : Tableau Rat} {start direction : Nat → Rat} {slope : Rat}
    (ray : tableau.Ray start direction slope) : tableau.Bottomless := by
  intro limit
  obtain ⟨times, below⟩ :=
    exists_step_below ray.falls one_pos (costAt tableau.frame start) limit
  refine ⟨along start direction times, ray.rows _ _ ray.held,
    ray.box _ _ times.cast_nonneg ray.inside, ?_⟩
  rw [ray.cost _ _ ray.held]
  simpa using below

/-! ### Limits on iterations -/

theorem limit_of_tick {budget charged : Budget} (ticked : budget.tick = some charged) :
    charged.limit = budget.limit := by
  unfold Budget.tick at ticked
  split at ticked
  · cases ticked
  · obtain rfl := Option.some.inj ticked
    rfl

theorem iterate_limit {count fuel : Nat} {tableau : Tableau Rat} {budget : Budget} :
    (iterate count fuel tableau budget).2.2.limit = budget.limit := by
  induction fuel generalizing tableau budget with
  | zero => rfl
  | succ fuel ih =>
    rw [iterate]
    split
    · rfl
    · split
      · rfl
      · rename_i charged ticked
        dsimp only
        split
        · exact limit_of_tick ticked
        · exact ih.trans (limit_of_tick ticked)

/-- Only a limit on iterations stops a run at its limit. -/
theorem limit_ne_none {count fuel : Nat} {tableau : Tableau Rat} {budget : Budget}
    (stopped : (iterate count fuel tableau budget).1 = .limit) : budget.limit ≠ none := by
  induction fuel generalizing tableau budget with
  | zero => cases stopped
  | succ fuel ih =>
    rw [iterate] at stopped
    split at stopped
    · cases stopped
    · split at stopped
      · rename_i ticked
        intro free
        simp [Budget.tick, Budget.exhausted, free] at ticked
      · rename_i charged ticked
        dsimp only at stopped
        split at stopped
        · cases stopped
        · rw [← limit_of_tick ticked]
          exact ih stopped

/-! ### Phase one -/

section PhaseOne

variable {tableau start reached : Tableau Rat} {artificial : Nat}

theorem Auxiliary.price_nonneg (auxiliary : Auxiliary tableau start artificial)
    (same : SameProblem start reached) {x : Nat → Rat} (held : reached.Holds x)
    (inside : InBounds reached.frame x) : 0 ≤ reached.priceAt x := by
  have held' := (same.holds x).mp held
  rw [same.price x held', auxiliary.price x held']
  refine Finset.sum_nonneg fun place _ => ?_
  have here := inside (tableau.columnCount + place)
  have outside : reached.frame[tableau.columnCount + place]? = none := by
    rw [same.frame, auxiliary.frame]
    refine List.getElem?_eq_none ?_
    rw [length_frame]
    omega
  rwa [outside] at here

/-- A solution in the box would bring the artificial columns to zero. -/
theorem Auxiliary.unsolvable (auxiliary : Auxiliary tableau start artificial)
    (prepared : tableau.Prepared) (same : SameProblem start reached)
    (optimal : ∀ column < tableau.columnCount, 0 ≤ reached.reduced.getD column 0)
    (positive : 0 < reached.value) : tableau.Unsolvable := by
  intro x held inside
  let cleared := withoutArtificial tableau.columnCount x
  have zero : ∀ index, tableau.columnCount ≤ index → cleared index = 0 :=
    fun index outside => withoutArtificial_of_le outside x
  have heldStart : start.Holds cleared :=
    (auxiliary.holds cleared zero).mpr ((holds_withoutArtificial prepared.wide.rows x).mpr held)
  have frame : reached.frame = tableau.frame := same.frame.trans auxiliary.frame
  have insideCleared : InBounds reached.frame cleared := by
    intro index
    have here := inside index
    rw [frame]
    by_cases below : index < tableau.columnCount
    · simpa [cleared, withoutArtificial, below] using here
    · have outside : tableau.frame[index]? = none := by
        refine List.getElem?_eq_none ?_
        rw [length_frame]
        omega
      rw [outside]
      exact (zero index (not_lt.mp below)).ge
  have nothing : reached.priceAt cleared = 0 := by
    rw [same.price cleared heldStart, auxiliary.price cleared heldStart]
    refine Finset.sum_eq_zero fun place _ => ?_
    exact zero _ (Nat.le_add_right _ _)
  have count : reached.columnCount = tableau.columnCount := columnCount_congr frame
  have above := value_le_priceAt reached optimal insideCleared fun column past _ => by
    rw [reading_of_le (by rw [count]; exact past), zero column past]
  rw [nothing] at above
  linarith

/-- At the value zero every basic artificial column is zero. -/
theorem Auxiliary.artificial_zero (auxiliary : Auxiliary tableau start artificial)
    (same : SameProblem start reached)
    (vertex : reached.AtVertex (tableau.columnCount + artificial)) (value : reached.value ≤ 0)
    {row : TableauRow Rat} (member : row ∈ reached.rows) {basic : Nat}
    (named : row.basic = some basic) (outside : tableau.columnCount ≤ basic) : row.rhs = 0 := by
  have frame : reached.frame = tableau.frame := same.frame.trans auxiliary.frame
  have count : reached.columnCount = tableau.columnCount := columnCount_congr frame
  have held := holds_vertexPoint vertex
  have heldStart := (same.holds _).mp held
  have inside := inBounds_vertexPoint vertex
  have sum : ∑ place ∈ Finset.range artificial,
      reached.vertexPoint (tableau.columnCount + place) = reached.value := by
    rw [← auxiliary.price _ heldStart, ← same.price _ heldStart, priceAt_vertexPoint vertex]
  have nonneg : ∀ place ∈ Finset.range artificial,
      0 ≤ reached.vertexPoint (tableau.columnCount + place) := by
    intro place _
    have here := inside (tableau.columnCount + place)
    rwa [List.getElem?_eq_none (by rw [length_frame, count]; omega)] at here
  have total : ∑ place ∈ Finset.range artificial,
      reached.vertexPoint (tableau.columnCount + place) = 0 :=
    le_antisymm (sum.le.trans value) (Finset.sum_nonneg nonneg)
  have each := (Finset.sum_eq_zero_iff_of_nonneg nonneg).mp total
  obtain ⟨place, found⟩ := List.mem_iff_getElem?.mp member
  have unit := vertex.units.own trivial found named
  have below : basic < row.coefs.length := lt_length_of_unit unit
  rw [vertex.wide.rows row member] at below
  have here := each (basic - tableau.columnCount) (Finset.mem_range.mpr (by omega))
  rw [Nat.add_sub_cancel' outside] at here
  have reading := congrFun (reached.reading_pointOf (reached.basicReading TableauRow.rhs)) basic
  rw [basicReading_basic vertex.units member named, reading_of_le (by rw [count]; exact outside)]
    at reading
  rw [← reading]
  exact here

end PhaseOne

/-- What phase one may end with. -/
def PhaseOneMeans (tableau : Tableau Rat) (phase : Phase Rat) : Prop :=
  match phase.status with
  | none => tableau.Restored phase.tableau
  | some .infeasible => tableau.Unsolvable
  | some .iterationLimit => phase.budget.limit ≠ none
  | some _ => False

theorem phaseOne_spec {tableau : Tableau Rat} (prepared : tableau.Prepared) (budget : Budget) :
    ∃ phase, tableau.phaseOne budget = .ok phase ∧ phase.budget.limit = budget.limit ∧
      tableau.PhaseOneMeans phase := by
  unfold phaseOne
  by_cases settled : tableau.pendingRows = []
  · have feasible : ∀ row ∈ tableau.rows, row.basic ≠ none ∧ tableau.Within row row.rhs := by
      intro row member
      obtain ⟨index, found⟩ := List.mem_iff_getElem?.mp member
      refine isPending_eq_false ?_
      by_contra pending
      have listed := mem_pendingRows.mpr ⟨row, found, by simpa using pending⟩
      rw [settled] at listed
      simp at listed
    simp only [settled, List.isEmpty_nil, ↓reduceIte]
    cases ready : tableau.costReady with
    | true =>
      refine ⟨_, rfl, rfl, ⟨⟨prepared.wide, prepared.framed, prepared.units,
        fun row member => (feasible row member).1, fun row member => (feasible row member).2,
        prepared.free ready⟩, rfl, rfl, ready, fun _ => Iff.rfl, prepared.priced ready⟩⟩
    | false =>
      obtain ⟨reduced, value, rebuilt, length, free, price⟩ := rebuildCosts_spec prepared.framed
        prepared.wide.rows prepared.units fun row member => (feasible row member).1
      let ready := { tableau with reduced, value, costReady := true }
      refine ⟨{ status := none, tableau := ready, budget }, ?_, rfl, ?_⟩
      · simp only [Bool.false_eq_true, ↓reduceIte, rebuilt]
        rfl
      · exact ⟨⟨⟨prepared.wide.rows, length, prepared.wide.columns⟩,
          ⟨prepared.framed.limits, prepared.framed.bounded⟩, prepared.units,
          fun row member => (feasible row member).1, fun row member => (feasible row member).2, free⟩,
          rfl, rfl, rfl, fun _ => Iff.rfl, price⟩
  · have test : tableau.pendingRows.isEmpty = false := by simpa using settled
    obtain ⟨start, began, auxiliary⟩ := beginPhaseOne_spec prepared
    obtain ⟨ending, reached, charged, ran, vertex, same, means⟩ := iterate_means start.columnCount
      (start.iterationBound budget) budget auxiliary.vertex
    have limit : charged.limit = budget.limit := by
      have kept : (iterate start.columnCount (start.iterationBound budget) start budget).2.2.limit =
        budget.limit := iterate_limit
      rwa [ran] at kept
    have frame : reached.frame = tableau.frame := same.frame.trans auxiliary.frame
    have count : reached.columnCount = tableau.columnCount := columnCount_congr frame
    have countStart : start.columnCount = tableau.columnCount := columnCount_congr auxiliary.frame
    simp only [test, Bool.false_eq_true, ↓reduceIte, began, bind, Except.bind, ran]
    cases ending with
    | unsettled => exact absurd (congrArg Prod.fst ran) (auxiliary.vertex.settles _ budget)
    | limit =>
      have limited : charged.limit ≠ none := limit ▸ limit_ne_none (congrArg Prod.fst ran)
      exact ⟨_, rfl, limit, limited⟩
    | unbounded =>
      -- The artificial columns cannot fall below zero.
      obtain ⟨column, -, improving, free⟩ := means
      obtain ⟨x, held, inside, below⟩ := exists_priceAt_lt vertex improving free 0
      exact absurd below (not_lt.mpr (auxiliary.price_nonneg same held inside))
    | optimal =>
      rw [Ending.Means, countStart] at means
      by_cases positive : 0 < reached.value
      · have exceeded : Scalar.exceeds reached.value 0 = true := (Scalar.exceeds_iff _ _).mpr positive
        simp only [exceeded, ↓reduceIte]
        exact ⟨_, rfl, limit, auxiliary.unsolvable prepared same means positive⟩
      · have under : Scalar.exceeds reached.value 0 = false :=
          (Scalar.exceeds_eq_false_iff _ _).mpr (not_lt.mp positive)
        obtain ⟨ready, dropped, ended, atVertex, sameFrame, constant, costReady, holds, price⟩ :=
          endPhaseOne_spec vertex fun row member basic named outside =>
            auxiliary.artificial_zero same vertex (not_lt.mp positive) member named (count ▸ outside)
        simp only [under, Bool.false_eq_true, ↓reduceIte, ended]
        refine ⟨_, rfl, limit, ⟨count ▸ atVertex, sameFrame.trans frame,
          constant.trans (same.constant.trans auxiliary.constant), costReady, fun x => ?_, price⟩⟩
        rw [holds, count, same.holds, auxiliary.holds _ fun index outside =>
          withoutArtificial_of_le outside x]
        exact holds_withoutArtificial prepared.wide.rows x

/-! ### Phase two -/

/-- A run from a restored tableau stays restored. -/
theorem Restored.run {tableau ready reached : Tableau Rat} (restored : tableau.Restored ready)
    (vertex : reached.AtVertex tableau.columnCount) (same : SameProblem ready reached) :
    tableau.Restored reached where
  vertex := vertex
  frame := same.frame.trans restored.frame
  constant := same.constant.trans restored.constant
  costReady := same.costReady.trans restored.costReady
  holds x := (same.holds x).trans (restored.holds x)
  price x held := by
    have before := (same.holds x).mp held
    rw [same.price x before, restored.price x before, same.frame]

theorem Restored.prepared {tableau ready : Tableau Rat} (restored : tableau.Restored ready) :
    ready.Prepared :=
  ⟨columnCount_congr restored.frame ▸ restored.vertex.wide, restored.vertex.framed,
    restored.vertex.units, fun _ => restored.vertex.free, fun _ => restored.price⟩

end Tableau

/-- What the status of an optimisation says about the tableau it started from. -/
def Status.Means (tableau final : Tableau Rat) : Status → Prop
  | optimal => tableau.Restored final ∧
      ∀ column < tableau.columnCount, 0 ≤ final.reduced.getD column 0
  | infeasible => tableau.Unsolvable
  | unbounded => tableau.Bottomless
  | iterationLimit => True
  | error => False

/-- The proof that goes with a status: an unbounded tableau has a ray. -/
def Status.Certifies (tableau final : Tableau Rat) : Status → Prop
  | unbounded => ∃ start direction slope, tableau.Ray start direction slope
  | status => status.Means tableau final

theorem Status.Certifies.means {tableau final : Tableau Rat} {status : Status}
    (certifies : status.Certifies tableau final) : status.Means tableau final := by
  cases status with
  | unbounded =>
    obtain ⟨start, direction, slope, ray⟩ := certifies
    exact ray.bottomless
  | optimal => exact certifies
  | infeasible => exact certifies
  | iterationLimit => exact certifies
  | error => exact certifies

namespace Tableau

theorem phaseTwo_spec {tableau : Tableau Rat} {phase : Phase Rat}
    (restored : tableau.Restored phase.tableau) :
    ∃ final status, phaseTwo phase = .ok final ∧ final.status = some status ∧
      final.budget.limit = phase.budget.limit ∧
      (status = .iterationLimit → phase.budget.limit ≠ none) ∧
      status.Certifies tableau final.tableau := by
  obtain ⟨ending, reached, charged, ran, vertex, same, means⟩ :=
    iterate_means phase.tableau.columnCount (phase.tableau.iterationBound phase.budget)
      phase.budget restored.vertex
  have limit : charged.limit = phase.budget.limit := by
    have kept : (iterate phase.tableau.columnCount (phase.tableau.iterationBound phase.budget)
      phase.tableau phase.budget).2.2.limit = phase.budget.limit := iterate_limit
    rwa [ran] at kept
  have after := restored.run vertex same
  have count : phase.tableau.columnCount = tableau.columnCount := columnCount_congr restored.frame
  unfold phaseTwo
  simp only [ran]
  cases ending with
  | unsettled => exact absurd (congrArg Prod.fst ran) (restored.vertex.settles _ phase.budget)
  | limit =>
    exact ⟨_, .iterationLimit, rfl, rfl, limit, fun _ => limit_ne_none (congrArg Prod.fst ran), trivial⟩
  | optimal =>
    rw [Ending.Means, count] at means
    exact ⟨_, .optimal, rfl, rfl, limit, by simp, after, means⟩
  | unbounded =>
    obtain ⟨column, -, improving, free⟩ := means
    exact ⟨_, .unbounded, rfl, rfl, limit, by simp, _, _, _, after.ray improving free⟩

/-- Optimisation of a prepared tableau ends with a status and its proof, and with a limit on
iterations only where there is one. -/
theorem optimize_certifies {tableau : Tableau Rat} (prepared : tableau.Prepared) (budget : Budget) :
    ∃ result, (tableau.optimize budget).outcome = .ok result ∧
      result.budget.limit = budget.limit ∧
      (result.status = .iterationLimit → budget.limit ≠ none) ∧
      result.status.Certifies tableau result.tableau := by
  obtain ⟨phase, first, limit, means⟩ := phaseOne_spec prepared budget
  cases status : phase.status with
  | some verdict =>
    refine ⟨{ status := verdict, tableau := phase.tableau, budget := phase.budget }, ?_, limit, ?_⟩
    · unfold optimize optimizePhases
      rw [first]
      simp only [bind, Except.bind, status, Option.isSome_some, ↓reduceIte]
      simp [Run.guard, status, Run.bind, pure, Except.pure, Run.note]
    · rw [PhaseOneMeans, status] at means
      cases verdict with
      | infeasible => exact ⟨by simp, means⟩
      | iterationLimit => exact ⟨fun _ => limit ▸ means, trivial⟩
      | optimal => exact means.elim
      | unbounded => exact means.elim
      | error => exact means.elim
  | none =>
    rw [PhaseOneMeans, status] at means
    obtain ⟨final, verdict, second, named, kept, limited, right'⟩ := phaseTwo_spec means
    refine ⟨{ status := verdict, tableau := final.tableau, budget := final.budget }, ?_,
      kept.trans limit, limit ▸ limited, right'⟩
    unfold optimize optimizePhases
    rw [first]
    simp only [bind, Except.bind, status, Option.isSome_none, Bool.false_eq_true, ↓reduceIte,
      second]
    simp [Run.guard, named, Run.bind, pure, Run.note]

/-- The status of an optimisation is right. -/
theorem optimize_spec {tableau : Tableau Rat} (prepared : tableau.Prepared) (budget : Budget) :
    ∃ result, (tableau.optimize budget).outcome = .ok result ∧
      result.status.Means tableau result.tableau := by
  obtain ⟨result, ran, -, -, certifies⟩ := optimize_certifies prepared budget
  exact ⟨result, ran, certifies.means⟩

/-- At an optimum the solution that is read off is in the box and as cheap as any other. -/
theorem Restored.optimum {tableau final : Tableau Rat} (restored : tableau.Restored final)
    (optimal : ∀ column < tableau.columnCount, 0 ≤ final.reduced.getD column 0) :
    tableau.Holds final.vertexPoint ∧ InBounds tableau.frame final.vertexPoint ∧
      costAt tableau.frame final.vertexPoint = final.value ∧
      ∀ x, tableau.Holds x → InBounds tableau.frame x → final.value ≤ costAt tableau.frame x := by
  have held := holds_vertexPoint restored.vertex
  refine ⟨(restored.holds _).mp held, ?_, ?_, fun x holds inside => ?_⟩
  · rw [← restored.frame]
    exact inBounds_vertexPoint restored.vertex
  · rw [← restored.frame, ← restored.price _ held, priceAt_vertexPoint restored.vertex]
  · have there := (restored.holds x).mpr holds
    rw [← restored.frame] at inside ⊢
    rw [← restored.price x there]
    refine value_le_priceAt final optimal inside fun column past below => ?_
    rw [restored.vertex.wide.reduced] at below
    omega

end Tableau

end MixedInteger.Simplex
