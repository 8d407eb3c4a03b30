import Mathlib.Logic.Relation
import MixedInteger.Proofs.Simplex.Charges
import MixedInteger.Proofs.Simplex.Reoptimization

/-! The tableau throughout a session. The changes that a tableau is put through keep the solutions of
its rows, whether it rests between two calls or stands at the head of an iteration. There, in either
phase, distinct unit columns are basic, each within its bounds and without reduced cost, and the
reduced costs stand for what the phase minimises. An iteration changes the value by the reduced cost
of the entering column times the length of the step. -/
namespace MixedInteger.Simplex

namespace Tableau

/-! ### Changes that keep the solutions -/

/-- The solutions of the rows, read through shift and orientation, are kept by every change that a
tableau is put through. -/
structure KeepsSolutions (tableau : Tableau Rat) : Prop where
  pivot : ∀ index source column, tableau.rows[index]? = some source → entry source column ≠ 0 →
    ∀ x, (tableau.pivot index column).Holds x ↔ tableau.Holds x
  flip : ∀ column x, (tableau.flip column).Holds x ↔ tableau.Holds x
  complementBasic : ∀ index x, (tableau.complementBasic index).Holds x ↔ tableau.Holds x
  negateRow : ∀ index x, (tableau.negateRow index).Holds x ↔ tableau.Holds x

variable {tableau next : Tableau Rat} {width count column : Nat}

/-- Only the complement needs unit columns: it rewrites one row, and no other may mention the column
that it turns around. -/
theorem keepsSolutions (wide : tableau.Wide width) (units : UnitColumns (fun _ => True) tableau.rows) :
    tableau.KeepsSolutions where
  pivot _ _ _ known occurs x := holds_pivot wide known occurs x
  flip column x := by
    cases bound : tableau.upperAt column with
    | none => simp only [Tableau.flip, bound]
    | some upper => exact holds_flip wide bound x
  complementBasic index x := by
    cases known : tableau.rows[index]? with
    | none => simp only [Tableau.complementBasic, known]
    | some row =>
      cases limit : tableau.basicUpper row with
      | none =>
        unfold Tableau.complementBasic
        cases named : row.basic <;> simp only [known, limit, named]
      | some upper =>
        obtain ⟨basic, named, bound⟩ := Option.bind_eq_some_iff.mp limit
        exact holds_complementBasic units trivial known named bound x
  negateRow index x := holds_negateRow tableau index x

theorem AtVertex.keepsSolutions (vertex : tableau.AtVertex width) : tableau.KeepsSolutions :=
  Tableau.keepsSolutions vertex.wide vertex.units

/-- A column that is basic in two rows would have both a one and a zero there. -/
theorem AtVertex.nodup_basis (vertex : tableau.AtVertex width) : tableau.basis.Nodup := by
  rw [List.nodup_iff_getElem?_ne_getElem?]
  intro place other before inside same
  have inside : other < tableau.rows.length := by simpa [basis] using inside
  have here := List.getElem?_eq_getElem (before.trans inside)
  have there := List.getElem?_eq_getElem inside
  rw [getElem?_basis here, getElem?_basis there] at same
  obtain ⟨basic, named⟩ := Option.ne_none_iff_exists'.mp (vertex.named _ (List.mem_of_getElem? there))
  have own := vertex.units.own trivial there named
  have absent := vertex.units.other trivial here (Option.some.inj same |>.trans named) there before.ne
  rw [own] at absent
  exact one_ne_zero absent

/-! ### Iterations -/

/-- The value does not rise, and it falls unless the step has no length. -/
theorem AtVertex.step_value (vertex : tableau.AtVertex width)
    (enters : tableau.entering count = some column)
    (stepped : { tableau with iterations := tableau.iterations + 1 }.step column = some next) :
    ∃ length way, tableau.ratioTest column = some (length, way) ∧ 0 ≤ length ∧
      next.value = tableau.value + tableau.reduced.getD column 0 * length ∧
      next.value ≤ tableau.value ∧ (next.value < tableau.value ∨ length = 0) := by
  have improving := (entering_eq_some enters).2
  have counted : { tableau with iterations := tableau.iterations + 1 }.AtVertex width :=
    vertex.congr rfl rfl rfl
  obtain ⟨⟨length, way⟩, tested, rfl⟩ := Option.map_eq_some_iff.mp stepped
  obtain ⟨nonneg, -, -⟩ := ratioTest_eq_some counted.framed.limits counted.within tested
  obtain ⟨value, -⟩ := counted.exchange_cases improving tested
  have change : (Tableau.exchange { tableau with iterations := tableau.iterations + 1 } column way).value =
    tableau.value + tableau.reduced.getD column 0 * length := value
  refine ⟨length, way, tested, nonneg, change, ?_, ?_⟩
  · have drop := mul_nonpos_of_nonpos_of_nonneg improving.le nonneg
    linarith
  · rcases nonneg.eq_or_lt with rfl | positive
    · exact .inr rfl
    · have drop := mul_neg_of_neg_of_pos improving positive
      exact .inl (by linarith)

/-- Iterations lead from vertex to vertex of one problem. -/
theorem AtVertex.iterated {start head : Tableau Rat} (vertex : start.AtVertex width)
    (heads : Relation.ReflTransGen (Iterates count) start head) :
    head.AtVertex width ∧ SameProblem start head := by
  induction heads with
  | refl => exact ⟨vertex, .refl start⟩
  | tail _ iterates ih =>
    obtain ⟨before, same⟩ := ih
    obtain ⟨after, further⟩ := iterates.reaches before
    exact ⟨after, same.trans further⟩

/-! ### Phases -/

theorem AtVertex.of_iterate {reached : Tableau Rat} {fuel : Nat} {budget charged : Budget}
    {ending : Ending} (vertex : tableau.AtVertex width)
    (ran : iterate count fuel tableau budget = (ending, reached, charged)) :
    reached.AtVertex width := by
  obtain ⟨_, _, _, again, there, -, -⟩ := iterate_means count fuel budget vertex
  obtain ⟨-, rfl, -⟩ : _ ∧ _ ∧ _ := by simpa using again.symm.trans ran
  exact there

/-- Whatever an optimisation ends with, it leaves a vertex. -/
theorem optimize_vertex (prepared : tableau.Prepared) {budget : Budget} {result : Optimized Rat}
    (ran : (tableau.optimize budget).outcome = .ok result) :
    ∃ width, result.tableau.AtVertex width := by
  obtain ⟨phase, one, ⟨status, same, -⟩ | ⟨opened, last, two, same, -, -⟩⟩ := optimize_cases ran
  · rw [← same]
    cases phaseOne_cases one with
    | ready opened unspent =>
      rw [opened] at status
      cases status
    | @iterated start reached ending began iterated limited settled =>
      obtain ⟨again, started, auxiliary⟩ := beginPhaseOne_spec prepared
      obtain rfl := Except.ok.inj (started.symm.trans began)
      rw [settled (by simp [status])]
      exact ⟨_, auxiliary.vertex.of_iterate iterated⟩
  · obtain ⟨again, first, -, means⟩ := phaseOne_spec prepared budget
    obtain rfl := Except.ok.inj (first.symm.trans one)
    rw [PhaseOneMeans, opened] at means
    obtain ⟨ending, iterated, -⟩ := phaseTwo_cases two
    exact ⟨_, same ▸ means.vertex.of_iterate iterated⟩

end Tableau

/-! ### Sessions -/

section Session

variable {program extended : Program Rat} {tableau : Tableau Rat}

/-- Where a phase of an optimisation begins to iterate, and what it minimises. Phase one minimises
the sum of the artificial columns, which come after the tableau's own; phase two minimises the
program's objective, less the constant that the tableau carries. -/
inductive Begins (program : Program Rat) (tableau : Tableau Rat) (budget : Budget) :
    Tableau Rat → ((Nat → Rat) → Rat) → Prop
  | one {start : Tableau Rat} (pending : tableau.pendingRows ≠ [])
      (began : tableau.beginPhaseOne tableau.pendingRows = .ok start) :
      Begins program tableau budget start fun x =>
        ∑ place ∈ Finset.range tableau.pendingRows.length, x (tableau.columnCount + place)
  | two {phase : Phase Rat} (ran : tableau.phaseOne budget = .ok phase) (opened : phase.status = none) :
      Begins program tableau budget phase.tableau fun x =>
        program.objectiveValue (firstValues program.columns.length x) - tableau.constant

/-- A phase begins at a vertex whose reduced costs stand for what it minimises. -/
theorem Session.begins_vertex (session : Session program extended tableau) {budget : Budget}
    {start : Tableau Rat} {objective : (Nat → Rat) → Rat}
    (begins : Begins extended tableau budget start objective) :
    start.AtVertex start.reduced.length ∧ ∀ x, start.Holds x → start.priceAt x = objective x := by
  obtain ⟨form, lower, serves⟩ := session.serves
  cases begins with
  | one pending began =>
    obtain ⟨again, same, auxiliary⟩ := Tableau.beginPhaseOne_spec serves.prepared
    obtain rfl := Except.ok.inj (same.symm.trans began)
    exact ⟨auxiliary.vertex.wide.reduced.symm ▸ auxiliary.vertex, auxiliary.price⟩
  | two ran opened =>
    obtain ⟨again, same, -, means⟩ := Tableau.phaseOne_spec serves.prepared budget
    obtain rfl := Except.ok.inj (same.symm.trans ran)
    rw [Tableau.PhaseOneMeans, opened] at means
    refine ⟨means.vertex.wide.reduced.symm ▸ means.vertex, fun x held => ?_⟩
    rw [means.price x held, means.frame, serves.frame, serves.constant]
    exact eq_sub_of_add_eq (serves.builds.objectiveValue_firstValues x).symm

/-- The tableau throughout a session. At rest, and after an optimisation however it ended, changes keep
the solutions; so they do at the head of every iteration of either phase. There the tableau is at a
vertex with distinct basic columns, its reduced costs stand for what the phase minimises, and an
iteration changes the value by the reduced cost of the entering column times the length of the step. -/
theorem Session.tableau_invariant (session : Session program extended tableau) (budget : Budget) :
    tableau.KeepsSolutions ∧
    (∀ result, (tableau.optimize budget).outcome = .ok result → result.tableau.KeepsSolutions) ∧
    ∀ start objective, Begins extended tableau budget start objective →
      ∀ head, Relation.ReflTransGen (Tableau.Iterates start.columnCount) start head →
        head.KeepsSolutions ∧
        head.AtVertex start.reduced.length ∧ head.basis.Nodup ∧
        (∀ x, head.Holds x → head.priceAt x = objective x) ∧
        ∀ column next, head.entering start.columnCount = some column →
          { head with iterations := head.iterations + 1 }.step column = some next →
          ∃ length way, head.ratioTest column = some (length, way) ∧ 0 ≤ length ∧
            next.value = head.value + head.reduced.getD column 0 * length ∧
            next.value ≤ head.value ∧ (next.value < head.value ∨ length = 0) := by
  obtain ⟨form, lower, serves⟩ := session.serves
  refine ⟨Tableau.keepsSolutions serves.prepared.wide serves.prepared.units, fun result ran => ?_,
    fun start objective begins head heads => ?_⟩
  · obtain ⟨width, vertex⟩ := Tableau.optimize_vertex serves.prepared ran
    exact vertex.keepsSolutions
  · obtain ⟨vertex, price⟩ := session.begins_vertex begins
    obtain ⟨there, same⟩ := vertex.iterated heads
    refine ⟨there.keepsSolutions, there, there.nodup_basis, fun x held => ?_,
      fun column next enters stepped => there.step_value enters stepped⟩
    have held' := (same.holds x).mp held
    rw [same.price x held', price x held']

/-- Minimise `x - y` over `x + 2 y ≥ 3`, with `y` at most one. -/
def ramp : Program Rat where
  objective := [1, -1]
  constant := 0
  rows := [⟨[1, 2], .ge, 3⟩]
  columns := [.continuous .nonnegative, .continuous ⟨some 0, some 1⟩]

/-- Phase one first moves `y` to its upper bound, which leaves a third of the violation. -/
theorem ramp_invariant : ∃ form start next, StandardForm.ofProgram ramp = .ok form ∧
    Begins ramp (Tableau.ofForm form) {} start (fun x => x 3) ∧
    Tableau.Iterates start.columnCount start next ∧ start.value = 3 ∧ next.value = 1 ∧
    next.AtVertex 4 ∧ (∀ x, next.Holds x → next.priceAt x = x 3) ∧ next.KeepsSolutions := by
  have runs : (do
      let form ← (StandardForm.ofProgram ramp).toOption
      let start ← ((Tableau.ofForm form).beginPhaseOne (Tableau.ofForm form).pendingRows).toOption
      let column ← start.entering start.columnCount
      let next ← { start with iterations := start.iterations + 1 }.step column
      guard (start.value = 3 ∧ next.value = 1 ∧ start.reduced.length = 4 ∧
        (Tableau.ofForm form).pendingRows = [0] ∧ (Tableau.ofForm form).columnCount = 3)).isSome =
      true := by decide +kernel
  obtain ⟨_, runs⟩ := Option.isSome_iff_exists.mp runs
  simp only [bind, Option.bind_eq_some_iff, toOption_eq_some_iff] at runs
  obtain ⟨form, built, start, began, column, enters, next, stepped, checked⟩ := runs
  obtain ⟨before, after, width, pending, count⟩ := (Option.guard_eq_some' _).mp checked
  have begins : Begins ramp (Tableau.ofForm form) {} start fun x => x 3 := by
    have listed : (Tableau.ofForm form).pendingRows ≠ [] := by simp [pending]
    simpa [pending, count] using Begins.one listed began
  have iterates : Tableau.Iterates start.columnCount start next := ⟨column, enters, stepped⟩
  obtain ⟨-, -, heads⟩ := Session.tableau_invariant (.fresh built) {}
  obtain ⟨keeps, vertex, -, price, -⟩ := heads start _ begins next (.single iterates)
  exact ⟨form, start, next, built, begins, iterates, before, after, width ▸ vertex, price, keeps⟩

end Session

end MixedInteger.Simplex
