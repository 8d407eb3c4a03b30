import MixedInteger.Proofs.Outcome
import MixedInteger.Proofs.Simplex.Reoptimization

/-! An exact solve comes through. A model that passes its checks has a problem, the preparation
of the search does not fail, no step from any state of the search does, and wherever the search
ends its best point can be put back over all columns. A failing part fails the whole step, so no
point is refused by its check, no relaxation breaks down and no child is unbounded. Positions and
pivots that are used without a test fit by the shape of tableaus, nodes and the table of
partners. -/
namespace MixedInteger

/-! ### Linear solves -/

namespace Simplex

/-- One iteration over the first `count` columns stays inside its lists and divides by no zero:
rows and reduced costs have the same length, which is enough for all columns, every row has a
basic column inside it, and the entry that is pivoted on is there and not zero. -/
structure Tableau.StepsInside (tableau : Tableau Rat) (count : Nat) : Prop where
  columns : tableau.columnCount ≤ tableau.reduced.length
  rows : ∀ row ∈ tableau.rows, row.coefs.length = tableau.reduced.length ∧
    ∃ basic, row.basic = some basic ∧ basic < row.coefs.length
  pivot : ∀ column length index atUpper, tableau.entering count = some column →
    tableau.ratioTest column = some (length, .row index atUpper) →
    column < tableau.reduced.length ∧ ∃ source,
      (if atUpper then tableau.complementBasic index else tableau).rows[index]? = some source ∧
        Tableau.entry source column ≠ 0

/-- A tableau reaches as far as its columns do, every iteration of either phase from it stays
inside its lists, and so do the pivots between the phases, on the largest entries of rows. -/
structure Tableau.StaysInside (tableau : Tableau Rat) : Prop where
  rows : ∀ row ∈ tableau.rows, row.coefs.length = tableau.columnCount ∧
    ∀ basic, row.basic = some basic → basic < tableau.columnCount
  reduced : tableau.reduced.length = tableau.columnCount
  first : ∀ start run length, tableau.beginPhaseOne tableau.pendingRows = .ok start →
    run 0 = start → Tableau.Trail start.columnCount run length →
    ∀ k ≤ length, (run k).StepsInside start.columnCount
  between : ∀ (row : TableauRow Rat) (column : Nat) (size : Rat),
    Tableau.largestEntry tableau.columnCount row = some (column, size) →
    column < tableau.columnCount ∧ Tableau.entry row column ≠ 0
  second : ∀ budget phase run length, tableau.phaseOne budget = .ok phase → phase.status = none →
    run 0 = phase.tableau → Tableau.Trail phase.tableau.columnCount run length →
    ∀ k ≤ length, (run k).StepsInside phase.tableau.columnCount

section

variable {tableau : Tableau Rat} {width : Nat}

/-- The row that gives way has an entry to pivot on, also after its basic column was
complemented. -/
theorem Tableau.AtVertex.exists_pivot (vertex : tableau.AtVertex width) {column index : Nat}
    (improving : tableau.reduced.getD column 0 < 0) {length : Rat} {atUpper : Bool}
    (tested : tableau.ratioTest column = some (length, .row index atUpper)) :
    ∃ source, (if atUpper then tableau.complementBasic index else tableau).rows[index]? =
      some source ∧ Tableau.entry source column ≠ 0 := by
  obtain ⟨-, -, blocks⟩ := Tableau.ratioTest_eq_some vertex.framed.limits vertex.within tested
  cases atUpper with
  | false =>
    obtain ⟨source, known, positive, -⟩ := blocks
    exact ⟨source, known, positive.ne'⟩
  | true =>
    obtain ⟨source, upper, known, negative, limit, -⟩ := blocks
    obtain ⟨leaving, named⟩ := Option.ne_none_iff_exists'.mp
      (vertex.named source (List.mem_of_getElem? known))
    obtain ⟨-, found, opposite⟩ := vertex.complemented_row improving known named limit
    exact ⟨_, found, opposite ▸ neg_ne_zero.mpr negative.ne⟩

theorem Tableau.AtVertex.stepsInside (vertex : tableau.AtVertex width) (count : Nat) :
    tableau.StepsInside count := by
  refine ⟨vertex.wide.reduced ▸ vertex.wide.columns, fun row member => ?_,
    fun column length index atUpper enters tested => ?_⟩
  · obtain ⟨place, found⟩ := List.mem_iff_getElem?.mp member
    obtain ⟨basic, named⟩ := Option.ne_none_iff_exists'.mp (vertex.named row member)
    have unit := vertex.units.own trivial found named
    exact ⟨(vertex.wide.rows row member).trans vertex.wide.reduced.symm, basic, named,
      Tableau.lt_length_of_unit unit⟩
  · obtain ⟨-, improving⟩ := Tableau.entering_eq_some enters
    refine ⟨?_, vertex.exists_pivot improving tested⟩
    by_contra outside
    simp [not_lt.mp outside] at improving

/-- No optimisation of a session leaves its lists or divides by zero. -/
theorem Session.staysInside {program extended : Program Rat}
    (session : Session program extended tableau) : tableau.StaysInside := by
  obtain ⟨form, lower, serves⟩ := session.serves
  have prepared := serves.prepared
  refine ⟨fun row member => ⟨prepared.wide.rows row member, fun basic named => ?_⟩,
    prepared.wide.reduced, ?_, fun _ _ _ => Tableau.largestEntry_eq_some, ?_⟩
  · exact (prepared.basic_lt member named).1
  · rintro start run length began rfl trail k inside
    obtain ⟨start', again, auxiliary⟩ := Tableau.beginPhaseOne_spec prepared
    obtain rfl := Except.ok.inj (again.symm.trans began)
    exact (trail.reaches auxiliary.vertex inside).1.stepsInside _
  · intro budget phase run length ran settled start trail k inside
    obtain ⟨phase', again, -, means⟩ := Tableau.phaseOne_spec prepared budget
    obtain rfl := Except.ok.inj (again.symm.trans ran)
    rw [Tableau.PhaseOneMeans, settled] at means
    exact (trail.reaches (start ▸ means.vertex) inside).1.stepsInside _

end

end Simplex

/-! ### The search -/

namespace Search

/-- The lists of a search fit each other: rows and the table of partners reach as far as the
columns do, and so do the ranges, the point and the candidates of every open node. -/
structure Aligned (state : State Rat) : Prop where
  shaped : state.problem.working.Shaped
  paired : state.problem.Paired
  nodes : ∀ node ∈ state.pool,
    node.ranges.length = state.problem.working.columns.length ∧
      node.solution.length = state.problem.working.columns.length ∧
      ∀ column, column ∈ node.fractional.map Prod.fst ∨ node.mostFractional = some column →
        column < state.problem.working.columns.length

/-- Every child of an open node is relaxed without a breakdown and is not unbounded, and its
point passes the check if it is integral. -/
def ChildrenSettle (state : State Rat) : Prop :=
  ∀ node ∈ state.pool, ∀ column value direction, ∃ status child next,
    (solveNode (childOn node state.problem.partner column value direction)).run state =
        .ok (status, child) next ∧
      status ≠ .error ∧ status ≠ .unbounded ∧
      (status = .optimal → child.isIntegral = true →
        ∃ improved last, (accept child).run next = .ok improved last)

/-- A solve that cannot fail, however many steps its search makes: the preparation succeeds, so
does every step from every state of the search, and wherever the solve ends the eliminated
columns can be put back. -/
structure ComesThrough (clock : Clock.Readings) (problem : Problem Rat) : Prop where
  prepares : ∃ result begun, prepare.run { problem } = .ok result begun ∧
    ∀ status, result = some status → ∃ expanded, begun.problem.expand = .ok expanded
  aligned : ∀ look state, Heads clock problem look state → Aligned state
  children : ∀ look state, Heads clock problem look state → ChildrenSettle state
  steps : ∀ look state, Heads clock problem look state →
    ∃ progress next, (advance (clock look)).run state = .ok progress next
  concludes : ∀ look state limit final, Heads clock problem look state →
    (advance (clock look)).run state = .ok (lastProgress limit) final →
    ∃ status closed expanded, (conclude limit >>= settle).run final = .ok status closed ∧
      closed.problem.expand = .ok expanded

section

variable {program : Program Rat} {settings : Settings} {problem start : Problem Rat}
  {clock : Clock.Readings} {look : Nat} {state : State Rat}

/-- A stored point that stands for a feasible one can be put back over all columns. -/
theorem Reports.exists_expand (reports : Reports program problem) :
    ∃ expanded, problem.expand = .ok expanded := by
  unfold Problem.expand
  rcases reports with ⟨missing, -⟩ | ⟨value, -, y, x, stored, replayed, -⟩
  · exact ⟨problem, by rw [missing]⟩
  · refine ⟨{ problem with solution := some x, removed := [] }, ?_⟩
    rw [stored]
    dsimp only
    rw [replayed]
    rfl

theorem Consistent.aligned (consistent : Consistent start state) (form : start.InWorkingForm) :
    Aligned state := by
  have moved := consistent.alike.inWorkingForm form
  refine ⟨moved.shaped, moved.paired, fun node member => ?_⟩
  have fits := consistent.nodes node member
  rw [consistent.alike.length]
  refine ⟨fits.length, fits.satisfied.length, ?_⟩
  rintro column (listed | most)
  · obtain ⟨data, known, -⟩ := fits.candidates.listed column listed
    exact (List.getElem?_eq_some_iff.mp known).1
  · obtain ⟨data, known, -⟩ := fits.candidates.most column most
    exact (List.getElem?_eq_some_iff.mp known).1

theorem Consistent.childrenSettle (consistent : Consistent start state) (form : Rooted start) :
    ChildrenSettle state := by
  intro node member column value direction
  have fits := consistent.nodes node member
  obtain ⟨⟨status, child⟩, next, solved, unmoved, -, settles⟩ :=
    (solveNode_settles form.toInWorkingForm consistent
      ((length_childOn direction).trans fits.length) (wholeRanges_childOn fits.whole direction)
      (narrows_childOn fits.narrows direction)).exists_ok
  refine ⟨status, child, next, solved, ?_, ?_, ?_⟩
  · rintro rfl
    exact settles
  · rintro rfl
    exact form.level settles.1
  · rintro rfl integral
    obtain ⟨childFits, worth, -, -⟩ := settles
    obtain ⟨improved, last, accepted, -⟩ := (accept_advances form.toInWorkingForm
      (Advances.of_unmoved consistent unmoved).consistent childFits integral worth).exists_ok
    exact ⟨improved, last, accepted⟩

/-- A search over a checked program comes through, if no reports are asked for. -/
theorem comesThrough (made : Problem.ofProgram program settings = .ok problem)
    (structural : program.Structural) (quiet : settings.verbose = false)
    (clock : Clock.Readings) : ComesThrough clock problem := by
  refine ⟨?_, fun look state head => ?_, fun look state head => ?_,
    fun look state head => exists_advance_ok made structural quiet head _,
    fun look state limit final head stepped => ?_⟩
  · obtain ⟨result, begun, began, prepares⟩ := (prepare_prepares made structural).exists_ok
    exact ⟨result, begun, began, fun status ended => (prepares.ended status ended).1.exists_expand⟩
  · obtain ⟨start, represents, covered⟩ := covered_of_heads made structural head
    exact covered.consistent.aligned represents.form.toInWorkingForm
  · obtain ⟨start, represents, covered⟩ := covered_of_heads made structural head
    exact covered.consistent.childrenSettle represents.form
  · obtain ⟨status, closed, ran, answers⟩ :=
      (conclude_answers made structural head stepped).exists_ok
    obtain ⟨expanded, opened⟩ := answers.reports.exists_expand
    exact ⟨status, closed, expanded, ran, opened⟩

end

end Search

/-! ### The model -/

theorem Ended.outcome_solution {ended : Ended Rat} {status : SolveStatus} {expanded : Problem Rat}
    (known : ended.outcome = .ok status) (opened : ended.problem.expand = .ok expanded) :
    ended.solution.outcome = .ok expanded.toSolution := by
  rw [Ended.solution, known, opened]
  rfl

namespace Model

section

variable {model : Model} {settings : Settings} {clock : Clock.Readings}

/-- The counts of a model that passes its checks agree. -/
theorem counts_of_validate (accepted : model.validate = .ok ()) :
    model.objective.length = model.columns.length ∧
      ∀ row ∈ model.rows, row.coefs.length = model.columns.length := by
  unfold validate at accepted
  dsimp only at accepted
  split at accepted
  · cases accepted
  · rename_i same
    split at accepted
    · cases accepted
    · rename_i agree
      have rows := (rowMismatch?_eq_none_iff _ _).mp agree
      exact ⟨not_not.mp same, fun row member => rows _ (List.mem_map_of_mem member)⟩

/-- A model that passes its checks has a problem. -/
theorem exists_toProblem (accepted : model.validate = .ok ()) (settings : Settings) :
    ∃ (program : Program Rat) (problem : Problem Rat), model.toProgram = .ok program ∧
      Problem.ofProgram program settings = .ok problem ∧
      model.toProblem settings = .ok problem := by
  obtain ⟨program, translated⟩ : ∃ program : Program Rat, model.toProgram = .ok program := by
    unfold toProgram
    rw [accepted]
    exact ⟨_, rfl⟩
  obtain ⟨objective, rows⟩ := counts_of_validate accepted
  have counts : program.objective.length = program.columns.length ∧
      program.validateRows = .ok () := by
    rw [Program.validateRows_eq_ok_iff]
    obtain rfl := toProgram_eq_ok translated
    refine ⟨by simpa using objective, fun row member => ?_⟩
    obtain ⟨source, there, rfl⟩ := List.mem_map.mp member
    simpa [exactRow] using rows source there
  have wrapped : Problem.ofProgram program settings =
      .ok { working := program, reference := program, settings } := by
    rw [Problem.ofProgram, if_neg (not_not.mpr counts.1), counts.2]
  refine ⟨program, _, translated, wrapped, ?_⟩
  unfold toProblem
  rw [translated]
  exact wrapped

/-- An exact solve of a model that passes its checks is the solve of its problem. -/
theorem outcome_solve (accepted : model.validate = .ok ())
    (exact : settings.precision.usesExact model.numbers = true) {problem : Problem Rat}
    (made : model.toProblem settings = .ok problem) :
    (model.solve clock settings).outcome =
      (problem.solve clock).solution.outcome.map model.inOwnSense := by
  have chosen : (model.chooseArithmetic settings).outcome = .ok true := by
    simp only [chooseArithmetic, accepted, exact]
    split <;> rfl
  have lifted : (Run.lift ((model.toProblem settings).mapError Failure.refused)).outcome =
      .ok problem := by
    rw [made]
    rfl
  rw [solve, Run.outcome_bind, chosen]
  change ((model.solveIn Rat clock settings) >>= fun solution =>
    pure (model.inOwnSense solution)).outcome = _
  rw [Run.outcome_bind, solveIn, Run.outcome_bind, lifted]
  change ((problem.solve clock).solution.outcome >>= _) = _
  cases (problem.solve clock).solution.outcome <;> rfl

/-- Exact solves never fail. A model that passes its checks, solved in exact arithmetic without
reports, has a solution, unless its search goes on for more steps than a 64-bit counter counts;
and however many steps the search makes, neither the preparation nor any step nor the end of it
fails, and no linear solve leaves its lists or divides by zero. -/
theorem solve_does_not_fail (accepted : model.validate = .ok ())
    (exact : settings.precision.usesExact model.numbers = true) (quiet : settings.verbose = false)
    (clock : Clock.Readings) : ∃ problem : Problem Rat, model.toProblem settings = .ok problem ∧
      ((∃ solution, (model.solve clock settings).outcome = .ok solution) ∨
        ((model.solve clock settings).outcome = .error (.fault .unsettled) ∧
          ∃ look state, 2 ^ 64 ≤ look ∧ Search.Heads clock problem look state)) ∧
      Search.ComesThrough clock problem ∧
      ∀ program extended tableau, Simplex.Session program extended tableau →
        tableau.StaysInside := by
  obtain ⟨program, problem, translated, wrapped, made⟩ := exists_toProblem accepted settings
  have structural := structural_toProgram translated
  refine ⟨problem, made, ?_, Search.comesThrough wrapped structural quiet clock,
    fun _ _ _ session => session.staysInside⟩
  have answers := Search.solve_answers wrapped structural clock
  rw [outcome_solve accepted exact made, Problem.solve]
  cases ran : (Search.solve clock).run { problem } with
  | ok status final =>
    obtain ⟨expanded, opened⟩ := (answers.ok_of_run ran).reports.exists_expand
    rw [Ended.outcome_solution rfl opened]
    exact .inl ⟨model.inOwnSense expanded.toSolution, rfl⟩
  | error cause final =>
    obtain ⟨rfl, late⟩ := answers.failed_of_run ran quiet
    exact .inr ⟨rfl, late⟩

/-- Minimise `3 x + 2 y` over `2 x + 2 y ≥ 3`, `x - 3 y ≤ 2` and `2 x - y ≥ -7` in integers, with
`x` free and `y` at most `4`. -/
def trestle : Model where
  objective := [.ofInt 3, .ofInt 2]
  rows := [⟨[.ofInt 2, .ofInt 2], .ge, .ofInt 3⟩, ⟨[.ofInt 1, .ofInt (-3)], .le, .ofInt 2⟩,
    ⟨[.ofInt 2, .ofInt (-1)], .ge, .ofInt (-7)⟩]
  columns := [{ lower := none, integral := true }, { upper := some (.ofInt 4), integral := true }]

/-- A free column is split, a cut is added and the root is branched on, with presolve at every
node. -/
theorem trestle_comes_through : ∃ (problem : Problem Rat) (solution : Solution),
    (trestle.solve Clock.stopped { presolve := .full }).outcome = .ok solution ∧
      solution.status = .optimal ∧ solution.stats.cutsAdded = 1 ∧
      solution.stats.nodesExplored = 3 ∧
      trestle.toProblem { presolve := .full } = .ok problem ∧
      Search.ComesThrough Clock.stopped problem := by
  have runs : (trestle.solve Clock.stopped { presolve := .full }).outcome.toOption.any
      (fun solution => solution.status = .optimal && solution.stats.cutsAdded = 1 &&
        solution.stats.nodesExplored = 3) = true := by
    decide +kernel
  obtain ⟨solution, ran, checked⟩ := exists_ok_of_any runs
  simp only [Bool.and_eq_true, decide_eq_true_eq] at checked
  obtain ⟨⟨optimal, cuts⟩, nodes⟩ := checked
  have accepted : trestle.validate = .ok () := rfl
  have exact : ({ presolve := .full } : Settings).precision.usesExact trestle.numbers = true := by
    decide +kernel
  obtain ⟨problem, made, -, through, -⟩ := solve_does_not_fail accepted exact rfl Clock.stopped
  exact ⟨problem, solution, ran, optimal, cuts, nodes, made, through⟩

end

end Model

end MixedInteger
