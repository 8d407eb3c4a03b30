import MixedInteger.Proofs.Completion
import MixedInteger.Proofs.Search.IntegerPoints

/-! Branch and bound ends on bounded integers. A node with `n` integral points has fewer than `2 n`
nodes in its tree, itself included: the value that is branched on lies strictly between two
integers of its range, so the two children have a point each at least and share out those of the
node. The load of a pool adds these bounds up. Every step that goes on lowers it, whichever node
and column it chooses, so a search makes fewer steps than twice the integral points of the program
it was given, and it is never cut short by the bound on its steps. -/
namespace MixedInteger.Search

/-! ### The load of a pool -/

/-- A bound on the nodes in the trees of boxes. -/
def load (columns : List (Column Rat)) (boxes : List (List (Range Rat))) : Nat :=
  (boxes.map fun ranges => 2 * points columns ranges - 1).sum

section

variable (columns : List (Column Rat)) {boxes others : List (List (Range Rat))}

theorem load_append : load columns (boxes ++ others) = load columns boxes + load columns others := by
  simp [load]

theorem load_le_of_sublist (fewer : boxes.Sublist others) :
    load columns boxes ≤ load columns others :=
  (fewer.map _).sum_le_sum fun _ _ => Nat.zero_le _

/-- Taking a node out takes its tree out. -/
theorem load_eraseIdx {position : Nat} {ranges : List (Range Rat)}
    (found : boxes[position]? = some ranges) :
    load columns (boxes.eraseIdx position) + (2 * points columns ranges - 1) =
      load columns boxes := by
  obtain ⟨inside, rfl⟩ := List.getElem?_eq_some_iff.mp found
  have permuted := (List.getElem_cons_eraseIdx_perm inside).map fun ranges =>
    2 * points columns ranges - 1
  have total := permuted.sum_eq
  rw [List.map_cons, List.sum_cons] at total
  rw [load, load, ← total, Nat.add_comm]

end

/-! ### One step -/

section

variable {start : Problem Rat} {state next : State Rat} {node : Node Rat}

theorem Node.Fits.inside_root (fits : node.Fits start) :
    Inside node.ranges (Node.root start.working).ranges := by
  refine ⟨fits.length.trans (by simp [Node.root]), fun index range whole there known => ?_⟩
  rw [Node.root, List.getElem?_map] at known
  obtain ⟨column, found, rfl⟩ := Option.map_eq_some_iff.mp known
  exact fits.narrows index column range found there

/-- The children of a node weigh less than the node: the column that is chosen has a fractional
value between the bounds of its range. -/
theorem load_halves_lt (fits : node.Fits start)
    (boxed : BoxedRanges start.working.columns (Node.root start.working).ranges)
    {problem : Problem Rat} {boxes : List (List (Range Rat))} (halves : Halves problem node boxes) :
    load start.working.columns boxes < 2 * points start.working.columns node.ranges - 1 := by
  obtain ⟨place, value, low, high, selected, solved, rfl⟩ := halves
  have sharp := fits.sharp place (selectColumn_eq_ok selected)
  obtain ⟨other, column, again, known, flagged, plain, fractional⟩ :=
    mem_fractionalColumns_iff.mp sharp
  obtain rfl := Option.some.inj (again.symm.trans solved)
  have shared := points_childOn_le (boxed.inside fits.inside_root) fits.whole known flagged plain
    fits.length solved fractional fits.inside low high
  have down := one_le_points start.working.columns (childOn node low place other .down).ranges
  have up := one_le_points start.working.columns (childOn node high place other .up).ranges
  simp only [load, List.map_cons, List.map_nil, List.sum_cons, List.sum_nil]
  omega

/-- A step that goes on lowers the load. -/
theorem load_lt_of_takes (consistent : Consistent start state)
    (boxed : BoxedRanges start.working.columns (Node.root start.working).ranges)
    (takes : Takes state next) :
    load start.working.columns (next.pool.map (·.ranges)) <
      load start.working.columns (state.pool.map (·.ranges)) := by
  obtain ⟨position, node, found, branched⟩ := takes
  have fits := consistent.nodes node (List.mem_of_getElem? found)
  have total := load_eraseIdx start.working.columns
    (show (state.pool.map (·.ranges))[position]? = some node.ranges by simp [found])
  rw [List.eraseIdx_map] at total
  rcases branched with fewer | ⟨boxes, extra, halves, grown, ranges⟩
  · have rest := load_le_of_sublist start.working.columns (fewer.map (·.ranges))
    have own := one_le_points start.working.columns node.ranges
    omega
  · have rest := load_le_of_sublist start.working.columns (grown.map (·.ranges))
    rw [List.map_append, load_append] at rest
    have children := load_le_of_sublist start.working.columns ranges
    have lighter := load_halves_lt fits boxed halves
    omega

end

/-! ### A whole search -/

theorem programPoints_of_alike {start other : Problem Rat} (alike : start.Alike other) :
    programPoints other.working = programPoints start.working := by
  have cores : ∀ problem : Problem Rat, programPoints problem.working =
      ((problem.working.columns.map Column.core).map fun column =>
        choices column column.range).prod := by
    intro problem
    rw [List.map_map]
    rfl
  rw [cores, cores, alike.columns]

section

variable {program : Program Rat} {settings : Settings} {problem : Problem Rat}
  {clock : Clock.Readings} {look : Nat} {begun state : State Rat}

/-- The steps made and the load that is left never exceed the load of the root. -/
theorem heads_drain (made : Problem.ofProgram program settings = .ok problem)
    (structural : program.Structural) (boxed : program.Boxed)
    (began : prepare.run { problem } = .ok none begun) (head : Heads clock problem look state) :
    ∃ start, start.Alike begun.problem ∧ Represents program settings start ∧
      Covered clock problem look start state ∧
      look + load start.working.columns (state.pool.map (·.ranges)) <
        2 * programPoints start.working := by
  induction head with
  | first prepared =>
    obtain ⟨-, rfl⟩ := EStateM.Result.ok.inj (began.symm.trans prepared)
    obtain ⟨start, represents, consistent, covers, single⟩ :=
      ((prepare_prepares made structural).ok_of_run prepared).ready rfl
    refine ⟨start, consistent.alike, represents,
      ⟨consistent, fun x held better => .inl (covers x held better)⟩, ?_⟩
    have root := load_le_of_sublist start.working.columns single
    have own := one_le_points start.working.columns (Node.root start.working).ranges
    simp only [load, List.map_cons, List.map_nil, List.sum_cons, List.sum_nil,
      points_root] at root own ⊢
    omega
  | next head stepped ih =>
    obtain ⟨start, alike, represents, covered, bound⟩ := ih
    have boxedRoot := boxedRanges_root represents.form.toInWorkingForm
      (boxed_of_reduces represents.reduces boxed)
    have lighter := load_lt_of_takes covered.consistent boxedRoot
      ((advance_takes _).ok_of_run stepped rfl)
    refine ⟨start, alike, represents, covered.step represents.form head stepped, ?_⟩
    omega

/-- The loop of a search ends before its bound on the steps. -/
theorem loop_ends (made : Problem.ofProgram program settings = .ok problem)
    (structural : program.Structural) (boxed : program.Boxed)
    (began : prepare.run { problem } = .ok none begun) :
    Ends (loop clock (stepBound begun.problem.working) 0) begun (fun _ _ => True)
      fun cause _ => ReportFails settings cause := by
  cases looped : (loop clock (stepBound begun.problem.working) 0).run begun with
  | ok limit stopped =>
    rw [ends_iff_of_ok looped]
    trivial
  | error cause reached =>
    rw [ends_iff_of_error looped]
    rcases loop_error (.first began) looped with ⟨-, outrun⟩ | ⟨place, before, head, failed⟩
    · obtain ⟨start, alike, -, -, bound⟩ := heads_drain made structural boxed began outrun
      rw [stepBound_eq, programPoints_of_alike alike] at bound
      omega
    · obtain ⟨start, represents, covered⟩ := covered_of_heads made structural head
      have fails := (advance_steps represents.form covered.consistent _).failed_of_run failed
      rwa [represents.settings] at fails

theorem Heads.exists_prepared (head : Heads clock problem look state) :
    ∃ begun, prepare.run { problem } = .ok none begun := by
  induction head with
  | first prepared => exact ⟨_, prepared⟩
  | next _ _ ih => exact ih

/-- The steps to a head are fewer than twice the integral points of the program. -/
theorem heads_bounded (made : Problem.ofProgram program settings = .ok problem)
    (structural : program.Structural) (boxed : program.Boxed)
    (head : Heads clock problem look state) : look < 2 * programPoints program := by
  obtain ⟨begun, began⟩ := head.exists_prepared
  obtain ⟨start, -, represents, -, bound⟩ := heads_drain made structural boxed began head
  have reduces := represents.reduces
  calc look ≤ look + load start.working.columns (state.pool.map (·.ranges)) := Nat.le_add_right _ _
    _ < 2 * programPoints start.working := bound
    _ ≤ 2 * programPoints start.reference := Nat.mul_le_mul_left 2
        (programPoints_working_le represents.form.toInWorkingForm (boxed_of_reduces reduces boxed)
          (reduces.structural structural))
    _ ≤ 2 * programPoints program :=
        Nat.mul_le_mul_left 2 (programPoints_le_of_reduces reduces boxed)

theorem solve_finishes (made : Problem.ofProgram program settings = .ok problem)
    (structural : program.Structural) (boxed : program.Boxed) (clock : Clock.Readings) :
    Ends (solve clock) { problem } (fun _ _ => True) fun cause _ => ReportFails settings cause := by
  obtain ⟨result, begun, began, -⟩ := (prepare_prepares made structural).exists_ok
  rw [solve, ends_bind, ends_iff_of_ok began]
  cases result with
  | some status => trivial
  | none =>
    simp only [ends_bind, ends_get]
    refine (loop_ends made structural boxed began).mono (fun limit stopped _ => ?_) fun _ _ => id
    refine (conclude_stores limit).mono (fun status closed _ => ?_) fun _ _ => False.elim
    trivial

/-- A problem over bounded integers is solved in finitely many steps, whatever the settings: the
preparation with the root's relaxation ends, the loop makes fewer steps than twice the integral
points of the reference program, every child's relaxation on the way ends, and so does the solve.
It fails only for a report whose interval is no time span. -/
theorem solve_ends (made : Problem.ofProgram program settings = .ok problem)
    (structural : program.Structural) (boxed : problem.reference.Boxed) (clock : Clock.Readings) :
    (∃ result begun, prepare.run { problem } = .ok result begun) ∧
    (∀ look state, Heads clock problem look state →
      look < 2 * programPoints problem.reference ∧ ChildrenSettle state) ∧
    ((∃ status, (problem.solve clock).outcome = .ok status) ∨
      ∃ cause, (problem.solve clock).outcome = .error cause ∧ ReportFails settings cause) := by
  obtain ⟨result, begun, began, -⟩ := (prepare_prepares made structural).exists_ok
  have given : problem.reference = program := by rw [(ofProgram_eq_ok made).1]
  rw [given] at boxed ⊢
  refine ⟨⟨result, begun, began⟩, fun look state head => ?_, ?_⟩
  · obtain ⟨start, represents, covered⟩ := covered_of_heads made structural head
    exact ⟨heads_bounded made structural boxed head,
      covered.consistent.childrenSettle represents.form⟩
  · have finishes := solve_finishes made structural boxed clock
    unfold Problem.solve
    cases ran : (solve clock).run { problem } with
    | ok status final => exact .inl ⟨status, rfl⟩
    | error cause final => exact .inr ⟨cause, rfl, finishes.failed_of_run ran⟩

end

/-- Minimise `-5 x - 4 y` over `6 x + 4 y ≤ 15` with `x` an integer from zero to three and `y` zero
or one. The root is fractional. -/
def hold : Program Rat where
  objective := [-5, -4]
  constant := 0
  rows := [⟨[6, 4], .le, 15⟩]
  columns := [.integer ⟨some 0, some 3⟩, .integer ⟨some 0, some 1⟩]

def holdProblem : Problem Rat where
  working := hold
  reference := hold
  settings := { presolve := .off, maxCuts := 0 }

/-- A search over eight integral points makes at least one step and fewer than sixteen. -/
theorem hold_ends : (∃ state, Heads Clock.stopped holdProblem 1 state) ∧
    (∀ look state, Heads Clock.stopped holdProblem look state → look < 16) ∧
    ∃ status, (holdProblem.solve Clock.stopped).outcome = .ok status := by
  have runs : Ends prepare { problem := holdProblem } (fun result begun => result = none ∧
      Ends (advance 0) begun (fun progress _ => progress = .more) fun _ _ => False)
        fun _ _ => False := by decide +kernel
  have made : Problem.ofProgram hold { presolve := .off, maxCuts := 0 } = .ok holdProblem := rfl
  have structural : hold.Structural := by simp [Program.Structural, hold, Column.integer]
  have boxed : hold.Boxed := by simp [Program.Boxed, hold, Column.integer]
  have eight : programPoints hold = 8 := by decide +kernel
  obtain ⟨-, bounded, ended⟩ := solve_ends made structural boxed Clock.stopped
  refine ⟨?_, fun look state head => ?_, ?_⟩
  · obtain ⟨_, begun, prepared, rfl, steps⟩ := runs.exists_ok
    obtain ⟨_, next, stepped, rfl⟩ := steps.exists_ok
    exact ⟨next, .next (.first prepared) stepped⟩
  · have steps := (bounded look state head).1
    rwa [show programPoints holdProblem.reference = 8 from eight] at steps
  · rcases ended with finished | ⟨cause, -, fails⟩
    · exact finished
    · cases fails.verbose

end MixedInteger.Search
