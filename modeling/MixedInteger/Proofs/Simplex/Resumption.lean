import MixedInteger.Proofs.Simplex.Reoptimization

/-! Optimising again. A run of iterations stops at a tableau whose next iteration is known: none
enters, nothing gives way, or the budget is spent. Where phase two was reached, the tableau that is
left is a vertex of the program, so another optimisation goes on from it. Where phase one did not
get to its end, an artificial column is still basic. It counts as a feasible basic column, so that
phase one is skipped, and the program's costs cannot be taken from a basis that contains it. -/
namespace MixedInteger.Simplex

namespace Tableau

/-! ### How a run of iterations stops -/

/-- What the next iteration of a stopped run would do. -/
def Ending.Stops (tableau : Tableau Rat) (count : Nat) : Ending → Prop
  | .optimal => tableau.entering count = none
  | .unbounded => ∃ column, tableau.entering count = some column ∧ tableau.step column = none
  | .limit => ∃ column, tableau.entering count = some column
  | .unsettled => True

theorem iterate_stops {count fuel : Nat} {tableau reached : Tableau Rat} {budget charged : Budget}
    {ending : Ending} (ran : iterate count fuel tableau budget = (ending, reached, charged)) :
    ending.Stops reached count := by
  induction fuel generalizing tableau budget with
  | zero =>
    cases ran
    trivial
  | succ fuel ih =>
    rw [iterate] at ran
    split at ran
    · rename_i enters
      cases ran
      exact enters
    · rename_i column enters
      split at ran
      · cases ran
        exact ⟨column, enters⟩
      · dsimp only at ran
        split at ran
        · rename_i stuck
          cases ran
          exact ⟨column, enters, stuck⟩
        · exact ih ran

theorem iterate_of_optimal {tableau : Tableau Rat} {count : Nat}
    (stops : Ending.optimal.Stops tableau count) (fuel : Nat) (budget : Budget) :
    iterate count (fuel + 1) tableau budget = (.optimal, tableau, budget) := by
  have enters : tableau.entering count = none := stops
  rw [iterate, enters]

theorem iterate_of_unbounded {tableau : Tableau Rat} {count : Nat}
    (stops : Ending.unbounded.Stops tableau count) (fuel : Nat) {budget charged : Budget}
    (ticked : budget.tick = some charged) :
    ∃ reached, iterate count (fuel + 1) tableau budget = (.unbounded, reached, charged) := by
  obtain ⟨column, enters, stuck⟩ := stops
  have still : tableau.ratioTest column = none := Option.map_eq_none_iff.mp stuck
  -- The count of iterations plays no part in the ratio test.
  have counted : step { tableau with iterations := tableau.iterations + 1 } column = none :=
    Option.map_eq_none_iff.mpr still
  rw [iterate, enters]
  simp only [ticked, counted]
  exact ⟨_, rfl⟩

/-! ### Settled rows -/

theorem pendingRows_eq_nil {tableau : Tableau Rat} {width : Nat} (vertex : tableau.AtVertex width) :
    tableau.pendingRows = [] := by
  apply List.eq_nil_iff_forall_not_mem.mpr
  intro index listed
  obtain ⟨row, found, pending⟩ := mem_pendingRows.mp listed
  have member := List.mem_of_getElem? found
  obtain ⟨low, high⟩ := vertex.within row member
  simp only [isPending, Bool.or_eq_true, Option.isNone_iff_eq_none, Scalar.exceeds_iff,
    Option.any_eq_true] at pending
  rcases pending with (unnamed | below) | ⟨upper, bound, above⟩
  · exact vertex.named row member unnamed
  · exact absurd below (not_lt.mpr low)
  · exact absurd above (not_lt.mpr (high upper bound))

/-- What an optimisation makes of the end of its phases. -/
theorem outcome_optimize (tableau : Tableau Rat) (budget : Budget) :
    (tableau.optimize budget).outcome =
      match tableau.optimizePhases budget with
      | .ok phase => .ok ⟨phase.status.getD .optimal, phase.tableau, phase.budget⟩
      | .error fault => .error (.fault fault) := by
  unfold optimize
  cases tableau.optimizePhases budget with
  | ok phase => simp [Run.guard, Run.bind, Run.note, bind, pure]
  | error fault => simp [Run.guard, Run.fail, Run.bind, bind]

theorem optimizePhases_of_ready {tableau : Tableau Rat} (settled : tableau.pendingRows = [])
    (ready : tableau.costReady = true) (budget : Budget) :
    tableau.optimizePhases budget = phaseTwo { status := none, tableau, budget } := by
  simp only [optimizePhases, phaseOne, settled, ready, List.isEmpty_nil, ↓reduceIte]
  rfl

/-! ### Artificial columns that stay basic -/

/-- An artificial column is still basic. -/
def Stranded (tableau : Tableau Rat) : Prop :=
  ∃ row ∈ tableau.rows, ∃ basic ∈ row.basic, tableau.columnCount ≤ basic

instance decidableStranded (tableau : Tableau Rat) : Decidable tableau.Stranded :=
  inferInstanceAs (Decidable (∃ row ∈ tableau.rows, ∃ basic ∈ row.basic,
    tableau.columnCount ≤ basic))

theorem not_stranded {tableau : Tableau Rat} (vertex : tableau.AtVertex tableau.columnCount) :
    ¬ tableau.Stranded := by
  rintro ⟨row, member, basic, named, outside⟩
  obtain ⟨place, found⟩ := List.mem_iff_getElem?.mp member
  have inside := lt_length_of_unit (vertex.units.own trivial found named)
  rw [vertex.wide.rows row member] at inside
  omega

theorem length_subtractMultiple (factor : Rat) (entries pivot : List Rat) :
    (subtractMultiple factor entries pivot).length = entries.length := by
  induction entries generalizing pivot with
  | nil => simp [subtractMultiple]
  | cons entry entries ih =>
    cases pivot with
    | nil => simp [subtractMultiple]
    | cons a pivot => simp [subtractMultiple, ih]

/-- Clearing one row keeps the number of costs, or finds a basic column without one. -/
theorem clearReduced_cases (state : List Rat × Rat) (row : TableauRow Rat) :
    (∃ next, clearReduced state row = .ok next ∧ next.1.length = state.1.length ∧
      ∃ basic, row.basic = some basic ∧ basic < state.1.length) ∨
    clearReduced state row = .error .outOfRange := by
  obtain ⟨reduced, value⟩ := state
  unfold clearReduced
  cases named : row.basic with
  | none => exact .inr rfl
  | some basic =>
    cases cost : reduced[basic]? with
    | none => exact .inr (by simp [cost, throw, throwThe, MonadExceptOf.throw])
    | some factor =>
      obtain ⟨inside, -⟩ := List.getElem?_eq_some_iff.mp cost
      apply Or.inl
      simp only [cost]
      by_cases zero : Scalar.isZero factor = true
      · exact ⟨(reduced, value), by simp [zero, pure, Except.pure], rfl, basic, rfl, inside⟩
      · refine ⟨((subtractMultiple factor reduced row.coefs).set basic 0, value + factor * row.rhs),
          by simp [zero, pure, Except.pure], ?_, basic, rfl, inside⟩
        simp [length_subtractMultiple]

/-- The costs cannot be rebuilt while a basic column lies outside of the tableau. -/
theorem rebuildCosts_of_stranded {tableau : Tableau Rat} (stranded : tableau.Stranded) :
    tableau.rebuildCosts = .error .outOfRange := by
  obtain ⟨row, member, basic, named, outside⟩ := stranded
  have fails : ∀ (rows : List (TableauRow Rat)) (state : List Rat × Rat),
      state.1.length = tableau.columnCount → row ∈ rows →
      rows.foldlM clearReduced state = .error .outOfRange := by
    intro rows
    induction rows with
    | nil => exact fun state _ impossible => nomatch impossible
    | cons first rest ih =>
      intro state size listed
      rw [List.foldlM_cons]
      rcases clearReduced_cases state first with ⟨next, cleared, same, own, known, inside⟩ | failed
      · rw [cleared]
        refine ih next (same.trans size) ((List.mem_cons.mp listed).resolve_left ?_)
        rintro rfl
        obtain rfl := Option.some.inj (known.symm.trans named)
        omega
      · rw [failed]
        rfl
  have costs : tableau.orientedCosts.1.length = tableau.columnCount := by
    simp [orientedCosts, columnCount]
  unfold rebuildCosts
  rw [fails tableau.rows tableau.orientedCosts costs member]
  rfl

theorem optimize_of_stranded {tableau : Tableau Rat} (settled : tableau.pendingRows = [])
    (stale : tableau.costReady = false) (stranded : tableau.Stranded) (budget : Budget) :
    (tableau.optimize budget).outcome = .error (.fault .outOfRange) := by
  have failed : tableau.optimizePhases budget = .error .outOfRange := by
    simp only [optimizePhases, phaseOne, settled, stale, List.isEmpty_nil, ↓reduceIte,
      Bool.false_eq_true, rebuildCosts_of_stranded stranded]
    rfl
  rw [outcome_optimize, failed]

section PhaseOne

variable {tableau start reached : Tableau Rat} {artificial : Nat}

/-- Without a basic artificial column phase one has nothing left to do: all artificial columns
are zero wherever a single column is moved from the vertex. -/
theorem Auxiliary.stranded (auxiliary : Auxiliary tableau start artificial)
    (same : SameProblem start reached)
    (vertex : reached.AtVertex (tableau.columnCount + artificial))
    (unfinished : 0 < reached.value ∨ ∃ column, reached.entering tableau.columnCount = some column) :
    reached.Stranded := by
  have count : reached.columnCount = tableau.columnCount :=
    columnCount_congr (same.frame.trans auxiliary.frame)
  by_contra inside
  have absent : ∀ place, ∀ row ∈ reached.rows, row.basic ≠ some (tableau.columnCount + place) := by
    intro place row member named
    exact inside ⟨row, member, _, named, by rw [count]; exact Nat.le_add_right _ _⟩
  have price : ∀ z, reached.Holds (reached.pointOf z) →
      (∀ place, z (tableau.columnCount + place) = 0) → reached.priceAt (reached.pointOf z) = 0 := by
    intro z held zero
    have heldStart := (same.holds _).mp held
    rw [same.price _ heldStart, auxiliary.price _ heldStart]
    apply Finset.sum_eq_zero
    intro place _
    have reading := congrFun (reached.reading_pointOf z) (tableau.columnCount + place)
    rw [reading_of_le (by rw [count]; exact Nat.le_add_right _ _)] at reading
    rw [reading, zero]
  have value : reached.value = 0 := by
    rw [← priceAt_vertexPoint vertex]
    exact price _ (holds_vertexPoint vertex) fun place => basicReading_nonbasic (absent place)
  rcases unfinished with positive | ⟨column, enters⟩
  · exact positive.ne' value
  · obtain ⟨below, improving⟩ := entering_eq_some enters
    have moved : reached.priceAt (reached.movedPoint column 1) =
        reached.value + reached.reduced.getD column 0 * 1 := priceAt_movedPoint vertex improving
    have held : reached.Holds (reached.movedPoint column 1) := holds_movedPoint vertex improving
    have zero : reached.priceAt (reached.movedPoint column 1) = 0 := price _ held fun place => by
      rw [Function.update_of_ne (by omega), basicReading_nonbasic (absent place)]
    rw [zero, value] at moved
    linarith

end PhaseOne

/-! ### What an optimisation leaves -/

/-- The tableau that an optimisation leaves, by its status. Either phase two was reached and stopped
at a vertex of the program, or phase one did not get to its end. -/
def Leaves (tableau : Tableau Rat) (result : Optimized Rat) : Prop :=
  (tableau.Restored result.tableau ∧
    match result.status with
    | .optimal => Ending.optimal.Stops result.tableau result.tableau.columnCount
    | .unbounded => Ending.unbounded.Stops result.tableau result.tableau.columnCount
    | .iterationLimit => True
    | _ => False) ∨
  (result.tableau.pendingRows = [] ∧ result.tableau.costReady = false ∧ result.tableau.Stranded ∧
    (result.status = .infeasible ∨ result.status = .iterationLimit))

theorem costReady_beginPhaseOne {tableau start : Tableau Rat} {pending : List Nat}
    (began : tableau.beginPhaseOne pending = .ok start) : start.costReady = false := by
  unfold beginPhaseOne at began
  cases oriented : pending.foldlM orientRow tableau with
  | error cause =>
    rw [oriented] at began
    cases began
  | ok middle =>
    rw [oriented] at began
    cases began
    rfl

/-- Phase one has nothing to decide where no row is pending. -/
theorem status_of_settled {tableau : Tableau Rat} {budget : Budget} {phase : Phase Rat}
    (settled : tableau.pendingRows = []) (ran : tableau.phaseOne budget = .ok phase) :
    phase.status = none := by
  simp only [phaseOne, settled, List.isEmpty_nil, ↓reduceIte] at ran
  split at ran
  · cases ran
    rfl
  · cases rebuilt : tableau.rebuildCosts with
    | error cause =>
      rw [rebuilt] at ran
      cases ran
    | ok ready =>
      rw [rebuilt] at ran
      cases ran
      rfl

theorem phaseOne_leaves {tableau : Tableau Rat} (prepared : tableau.Prepared) (budget : Budget) :
    ∃ phase, tableau.phaseOne budget = .ok phase ∧
      (phase.status = none ∧ tableau.Restored phase.tableau ∨
        phase.tableau.pendingRows = [] ∧ phase.tableau.costReady = false ∧
        phase.tableau.Stranded ∧
        (phase.status = some .infeasible ∨ phase.status = some .iterationLimit)) := by
  obtain ⟨phase, ran, -, means⟩ := phaseOne_spec prepared budget
  refine ⟨phase, ran, ?_⟩
  cases status : phase.status with
  | none =>
    rw [PhaseOneMeans, status] at means
    exact .inl ⟨rfl, means⟩
  | some verdict =>
    have pending : tableau.pendingRows.isEmpty = false := by
      by_contra settled
      have free := status_of_settled (by simpa using settled) ran
      cases free.symm.trans status
    obtain ⟨start, began, auxiliary⟩ := beginPhaseOne_spec prepared
    obtain ⟨ending, reached, charged, iterated, vertex, same, -⟩ := iterate_means start.columnCount
      (start.iterationBound budget) budget auxiliary.vertex
    have stops := iterate_stops iterated
    have stale : reached.costReady = false := same.costReady.trans (costReady_beginPhaseOne began)
    have settled := pendingRows_eq_nil vertex
    have count : start.columnCount = tableau.columnCount := columnCount_congr auxiliary.frame
    simp only [phaseOne, pending, Bool.false_eq_true, ↓reduceIte, began, bind, Except.bind,
      iterated] at ran
    cases ending with
    | unsettled => cases ran
    | limit =>
      obtain rfl := Except.ok.inj ran
      obtain ⟨column, enters⟩ := stops
      exact .inr ⟨settled, stale, auxiliary.stranded same vertex (.inr ⟨column, count ▸ enters⟩),
        .inr status.symm⟩
    | unbounded =>
      obtain rfl := Except.ok.inj ran
      exact means.elim
    | optimal =>
      dsimp only at ran
      split at ran
      · rename_i positive
        obtain rfl := Except.ok.inj ran
        exact .inr ⟨settled, stale, auxiliary.stranded same vertex
          (.inl ((Scalar.exceeds_iff _ _).mp positive)), .inl status.symm⟩
      · cases ended : reached.endPhaseOne with
        | error cause =>
          rw [ended] at ran
          cases ran
        | ok pair =>
          rw [ended] at ran
          cases ran
          cases status

theorem optimize_leaves {tableau : Tableau Rat} (prepared : tableau.Prepared) (budget : Budget) :
    ∃ result, (tableau.optimize budget).outcome = .ok result ∧ tableau.Leaves result := by
  obtain ⟨phase, first, ⟨open', restored⟩ | ⟨settled, stale, stranded, verdict⟩⟩ :=
    phaseOne_leaves prepared budget
  · obtain ⟨ending, reached, charged, ran, vertex, same, -⟩ :=
      iterate_means phase.tableau.columnCount (phase.tableau.iterationBound phase.budget)
        phase.budget restored.vertex
    have after := restored.run vertex same
    have stops := iterate_stops ran
    rw [← columnCount_congr same.frame] at stops
    have phases : tableau.optimizePhases budget = phaseTwo phase := by
      simp [optimizePhases, first, open', bind, Except.bind]
    rw [outcome_optimize, phases, phaseTwo, ran]
    cases ending with
    | unsettled => exact absurd (congrArg Prod.fst ran) (restored.vertex.settles _ phase.budget)
    | limit => exact ⟨_, rfl, .inl ⟨after, trivial⟩⟩
    | optimal => exact ⟨_, rfl, .inl ⟨after, stops⟩⟩
    | unbounded => exact ⟨_, rfl, .inl ⟨after, stops⟩⟩
  · have phases : tableau.optimizePhases budget = .ok phase := by
      rcases verdict with status | status <;>
        simp [optimizePhases, first, status, bind, Except.bind, pure, Except.pure]
    rw [outcome_optimize, phases]
    refine ⟨_, rfl, .inr ⟨settled, stale, stranded, ?_⟩⟩
    rcases verdict with status | status
    · exact .inl (by simp [status])
    · exact .inr (by simp [status])

/-- An optimal vertex is left as it is. -/
theorem Restored.optimize_optimal {tableau ready : Tableau Rat} (restored : tableau.Restored ready)
    (stops : Ending.optimal.Stops ready ready.columnCount) (budget : Budget) :
    (ready.optimize budget).outcome = .ok ⟨.optimal, ready, budget⟩ := by
  have settled := pendingRows_eq_nil restored.vertex
  rw [outcome_optimize, optimizePhases_of_ready settled restored.costReady, phaseTwo,
    iterationBound, iterate_of_optimal stops]
  rfl

theorem Restored.optimize_unbounded {tableau ready : Tableau Rat}
    (restored : tableau.Restored ready)
    (stops : Ending.unbounded.Stops ready ready.columnCount) {budget : Budget}
    (left : budget.exhausted = false) :
    ∃ result, (ready.optimize budget).outcome = .ok result ∧ result.status = .unbounded := by
  have settled := pendingRows_eq_nil restored.vertex
  have ticked : budget.tick = some { budget with used := budget.used + 1 } := by
    simp [Budget.tick, left]
  rw [outcome_optimize, optimizePhases_of_ready settled restored.costReady, phaseTwo,
    iterationBound]
  obtain ⟨reached, ran⟩ := iterate_of_unbounded stops _ ticked
  rw [ran]
  exact ⟨_, rfl, rfl⟩

end Tableau

/-- Optimising again. After an optimum nothing changes; a ray is found again while the budget has
an iteration left; and where the limit fell in phase two, going on without a limit ends as one run
without a limit does. Where phase one did not get to its end, which is so whenever the program is
infeasible, an artificial column is still basic and every further optimisation fails. -/
theorem optimize_again {program : Program Rat} {form : StandardForm Rat}
    (built : StandardForm.ofProgram program = .ok form) (budget : Budget) :
    ∃ first, ((Tableau.ofForm form).optimize budget).outcome = .ok first ∧
      (first.status = .optimal → ∀ again, ∃ second,
        (first.tableau.optimize again).outcome = .ok second ∧ second.status = .optimal ∧
        second.tableau.solution = first.tableau.solution) ∧
      (first.status = .unbounded → ∀ again, again.exhausted = false → ∃ second,
        (first.tableau.optimize again).outcome = .ok second ∧ second.status = .unbounded) ∧
      (first.status = .iterationLimit → ¬ first.tableau.Stranded → ∀ used, ∃ second single,
        (first.tableau.optimize { limit := none, used }).outcome = .ok second ∧
        ((Tableau.ofForm form).optimize {}).outcome = .ok single ∧ second.status = single.status ∧
        (second.status = .optimal →
          second.tableau.objectiveValue = single.tableau.objectiveValue)) ∧
      (first.status = .infeasible → first.tableau.Stranded) ∧
      (first.tableau.Stranded → ∀ again,
        (first.tableau.optimize again).outcome = .error (.fault .outOfRange)) ∧
      first.status ≠ .error := by
  obtain ⟨lower, builds⟩ := StandardForm.builds_of_ofProgram built
  obtain ⟨first, ran, left⟩ := Tableau.optimize_leaves builds.prepared budget
  refine ⟨first, ran, ?_⟩
  obtain ⟨status, tableau, spent⟩ := first
  rcases left with ⟨restored, stops⟩ | ⟨settled, stale, stranded, verdict⟩
  · have inside : ¬ tableau.Stranded :=
      Tableau.not_stranded (Tableau.columnCount_congr restored.frame ▸ restored.vertex)
    cases status with
    | optimal =>
      refine ⟨fun _ again => ⟨_, restored.optimize_optimal stops again, rfl, rfl⟩, nofun, nofun,
        nofun, fun stranded => absurd stranded inside, nofun⟩
    | unbounded =>
      refine ⟨nofun, fun _ again left => restored.optimize_unbounded stops left, nofun, nofun,
        fun stranded => absurd stranded inside, nofun⟩
    | iterationLimit =>
      refine ⟨nofun, nofun, fun _ _ used => ?_, nofun, fun stranded => absurd stranded inside,
        nofun⟩
      have serves := (Serves.start builds).restored restored
      obtain ⟨second, solved, resumed, scratch, same, -, value, -⟩ := serves.optimize_eq_solve used
      rw [outcome_solveProgram built] at scratch
      cases single : ((Tableau.ofForm form).optimize {}).outcome with
      | error cause =>
        rw [single] at scratch
        cases scratch
      | ok result =>
        rw [single] at scratch
        obtain rfl := Except.ok.inj scratch
        exact ⟨second, result, resumed, rfl, same, value⟩
    | infeasible => exact stops.elim
    | error => exact stops.elim
  · have fails := Tableau.optimize_of_stranded settled stale stranded
    rcases verdict with rfl | rfl
    · exact ⟨nofun, nofun, nofun, fun _ => stranded, fun _ => fails, nofun⟩
    · exact ⟨nofun, nofun, fun _ inside => absurd stranded inside, nofun, fun _ => fails, nofun⟩

/-- A limit that falls in phase two, one iteration before the optimum. -/
theorem crate_goes_on : ∃ (form : StandardForm Rat) (first second single : Optimized Rat),
    StandardForm.ofProgram crate = .ok form ∧
    ((Tableau.ofForm form).optimize { limit := some 2 }).outcome = .ok first ∧
    first.status = .iterationLimit ∧ ¬ first.tableau.Stranded ∧
    (first.tableau.optimize {}).outcome = .ok second ∧
    ((Tableau.ofForm form).optimize {}).outcome = .ok single ∧ second.status = single.status ∧
    single.status = .optimal ∧ second.tableau.objectiveValue = -9/2 ∧
    second.tableau.objectiveValue = single.tableau.objectiveValue := by
  have runs : (do
      let form ← (StandardForm.ofProgram crate).toOption
      let first ← ((Tableau.ofForm form).optimize { limit := some 2 }).outcome.toOption
      let second ← (first.tableau.optimize {}).outcome.toOption
      guard (first.status = Status.iterationLimit ∧ ¬ first.tableau.Stranded ∧
        second.status = Status.optimal ∧ second.tableau.objectiveValue = -9/2)).isSome = true := by
    decide +kernel
  obtain ⟨_, runs⟩ := Option.isSome_iff_exists.mp runs
  simp only [bind, Option.bind_eq_some_iff, toOption_eq_some_iff] at runs
  obtain ⟨form, built, first, stopped, second, resumed, checked⟩ := runs
  obtain ⟨limit, inside, optimal, value⟩ := (Option.guard_eq_some' _).mp checked
  obtain ⟨first', again, -, -, goesOn, -⟩ := optimize_again built { limit := some 2 }
  obtain rfl := Except.ok.inj (again.symm.trans stopped)
  obtain ⟨second', single, resumed', scratch, same, agree⟩ := goesOn limit inside 0
  obtain rfl := Except.ok.inj (resumed'.symm.trans resumed)
  exact ⟨form, first', second', single, built, stopped, limit, inside, resumed, scratch, same,
    same ▸ optimal, value, agree optimal⟩

/-- One column below one that a row wants to be two. -/
def gap : Program Rat where
  objective := [0]
  constant := 0
  rows := [⟨[1], .ge, 2⟩]
  columns := [.continuous ⟨some 0, some 1⟩]

/-- The second optimisation of an infeasible program fails, and so does one that goes on from a
limit in phase one, although the program has an optimum. -/
theorem second_run_fails :
    (∃ (form : StandardForm Rat) (first : Optimized Rat), StandardForm.ofProgram gap = .ok form ∧
      ((Tableau.ofForm form).optimize {}).outcome = .ok first ∧ first.status = .infeasible ∧
      (first.tableau.optimize {}).outcome = .error (.fault .outOfRange)) ∧
    ∃ (form : StandardForm Rat) (first single : Optimized Rat),
      StandardForm.ofProgram crate = .ok form ∧
      ((Tableau.ofForm form).optimize { limit := some 1 }).outcome = .ok first ∧
      first.status = .iterationLimit ∧
      (first.tableau.optimize {}).outcome = .error (.fault .outOfRange) ∧
      ((Tableau.ofForm form).optimize {}).outcome = .ok single ∧ single.status = .optimal := by
  constructor
  · have runs : (do
        let form ← (StandardForm.ofProgram gap).toOption
        let first ← ((Tableau.ofForm form).optimize {}).outcome.toOption
        guard (first.status = Status.infeasible ∧ first.tableau.pendingRows = [] ∧
          first.tableau.costReady = false ∧ first.tableau.Stranded)).isSome = true := by
      decide +kernel
    obtain ⟨_, runs⟩ := Option.isSome_iff_exists.mp runs
    simp only [bind, Option.bind_eq_some_iff, toOption_eq_some_iff] at runs
    obtain ⟨form, built, first, stopped, checked⟩ := runs
    obtain ⟨status, settled, stale, stranded⟩ := (Option.guard_eq_some' _).mp checked
    exact ⟨form, first, built, stopped, status,
      Tableau.optimize_of_stranded settled stale stranded {}⟩
  · have runs : (do
        let form ← (StandardForm.ofProgram crate).toOption
        let first ← ((Tableau.ofForm form).optimize { limit := some 1 }).outcome.toOption
        let single ← ((Tableau.ofForm form).optimize {}).outcome.toOption
        guard (first.status = Status.iterationLimit ∧ first.tableau.pendingRows = [] ∧
          first.tableau.costReady = false ∧ first.tableau.Stranded ∧
          single.status = Status.optimal)).isSome = true := by
      decide +kernel
    obtain ⟨_, runs⟩ := Option.isSome_iff_exists.mp runs
    simp only [bind, Option.bind_eq_some_iff, toOption_eq_some_iff] at runs
    obtain ⟨form, built, first, stopped, single, scratch, checked⟩ := runs
    obtain ⟨status, settled, stale, stranded, optimal⟩ := (Option.guard_eq_some' _).mp checked
    exact ⟨form, first, single, built, stopped, status,
      Tableau.optimize_of_stranded settled stale stranded {}, scratch, optimal⟩

end MixedInteger.Simplex
