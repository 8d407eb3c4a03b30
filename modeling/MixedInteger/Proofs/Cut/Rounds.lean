import MixedInteger.Proofs.Cut.ProgramSpace

/-! Rounds of cuts. A round optimises the tableau, generates a cut, adds it and records its
definition, so that later cuts may mention its slack. Along any number of rounds the slack
column of every recorded cut stands for the definition in program columns; with that, each
new cut is valid and separating in both spaces, at the same slack. -/
namespace MixedInteger.Cut

open Simplex
open Simplex.Tableau (InBounds cutSlack Extends)

/-- The tableaux and generators that rounds of cuts lead to. -/
inductive Rounds (program : Program Rat) (form : StandardForm Rat) (filter : Filter) :
    Tableau Rat → Generator Rat → Prop
  | start : Rounds program form filter (Tableau.ofForm form)
      { filter, program, base := (Tableau.ofForm form).columnCount }
  | round {tableau extended : Tableau Rat} {generator next : Generator Rat} {budget : Budget}
      {result : Optimized Rat} {cut : GomoryCut Rat} {place : Nat}
      (before : Rounds program form filter tableau generator)
      (optimized : (tableau.optimize budget).outcome = .ok result)
      (optimal : result.status = .optimal)
      (generated : generator.generate result.tableau = .ok (next, some cut))
      (added : result.tableau.addCut cut.coefs cut.rhs = .ok (place, extended)) :
      Rounds program form filter extended (next.record cut)

/-- A tableau with cuts and a generator that knows what their slacks stand for. -/
structure Tracks (program : Program Rat) (form : StandardForm Rat) (generator : Generator Rat)
    (tableau : Tableau Rat) : Prop where
  strengthens : Strengthens program form tableau
  prepared : tableau.Prepared
  source : generator.program = program
  base : generator.base = program.columns.length
  defined : generator.Defined
  count : tableau.columnCount = program.columns.length + generator.definitions.length
  slacks : ∀ x, tableau.Holds x → ∀ (place : Nat) (d : List Rat) (e : Rat),
    generator.definitions[place]? = some (d, e) →
      x (program.columns.length + place) = dot d (firstValues program.columns.length x) - e

section

variable {program : Program Rat} {form : StandardForm Rat} {lower : List Rat}
  {tableau extended final : Tableau Rat} {generator next : Generator Rat} {cut : GomoryCut Rat}

/-! ### Programs of equalities -/

theorem slackRows_eq_nil (equalities : ∀ row ∈ program.rows, row.relation = .eq) :
    StandardForm.slackRows program = [] := by
  refine List.eq_nil_iff_forall_not_mem.mpr ?_
  rintro ⟨index, relation⟩ there
  obtain ⟨row, found, rfl, inequality⟩ := mem_slackRows.mp there
  exact inequality (equalities row (List.mem_of_getElem? found))

theorem columnCount_ofForm (builds : StandardForm.Builds program form lower)
    (equalities : ∀ row ∈ program.rows, row.relation = .eq) :
    (Tableau.ofForm form).columnCount = program.columns.length := by
  rw [builds.columnCount, slackRows_eq_nil equalities, List.length_nil, Nat.add_zero]

/-- A solution of the tableau meets the rows of the program. -/
theorem equations_of_holds (builds : StandardForm.Builds program form lower)
    (equalities : ∀ row ∈ program.rows, row.relation = .eq) {x : Nat → Rat}
    (held : (Tableau.ofForm form).Holds x) :
    ∀ row ∈ program.rows, dot row.coefs (firstValues program.columns.length x) = row.rhs := by
  intro row member
  obtain ⟨index, found⟩ := List.mem_iff_getElem?.mp member
  have equation := (builds.holds_iff x).mp held index row found
  rw [slackRows_eq_nil equalities] at equation
  rw [dot_firstValues (builds.valid.rows row member)]
  simpa [slackCoefs] using equation

namespace Tracks

/-! ### Reading a point through its image -/

/-- The oriented image of a solution's own columns is the tableau's reading of it. -/
theorem image_eq (tracks : Tracks program form generator tableau)
    (builds : StandardForm.Builds program form lower)
    (equalities : ∀ row ∈ program.rows, row.relation = .eq) {x : Nat → Rat}
    (held : tableau.Holds x) {index : Nat} (inside : index < tableau.columnCount) :
    (generator.image tableau (firstValues program.columns.length x)).getD index 0 =
      tableau.reading x index := by
  have known := List.getElem?_eq_getElem inside
  rw [getD_image generator _ known, Generator.slot, Tableau.reading, Tableau.readThrough, known]
  split
  · rename_i own
    rw [getD_firstValues (tracks.base ▸ own)]
  · rename_i past
    rw [tracks.base, not_lt] at past
    -- The column is the slack of a cut, which is neither shifted nor complemented.
    have plain : (tableau.columns[index]).fixedPart = cutSlack := by
      obtain ⟨cuts, frame⟩ := tracks.strengthens.frame
      have there : tableau.frame[index]? = some (tableau.columns[index]).fixedPart := by
        rw [Tableau.getElem?_frame, known]
        rfl
      rw [frame, List.getElem?_append_right (by
        rw [Tableau.length_frame, columnCount_ofForm builds equalities]; exact past)] at there
      exact List.eq_of_mem_replicate (List.mem_of_getElem? there)
    have low : (tableau.columns[index]).lower = 0 := congrArg TableauColumn.lower plain
    have high : (tableau.columns[index]).upper = none := congrArg TableauColumn.upper plain
    have reads : (tableau.columns[index]).orient (x index) = x index := by
      simp only [TableauColumn.orient, high, low, sub_zero]
    obtain ⟨place, rfl⟩ := Nat.exists_eq_add_of_le past
    have recorded : place < generator.definitions.length := by
      have count := tracks.count
      omega
    rw [tracks.base, Nat.add_sub_cancel_left, List.getElem?_eq_getElem recorded]
    simp only [Option.map_some, Option.getD_some]
    exact (tracks.slacks x held place _ _ (List.getElem?_eq_getElem recorded)).symm.trans reads.symm

theorem dot_image (tracks : Tracks program form generator tableau)
    (builds : StandardForm.Builds program form lower)
    (equalities : ∀ row ∈ program.rows, row.relation = .eq) {x : Nat → Rat}
    (held : tableau.Holds x) {coefs : List Rat} (full : coefs.length = tableau.columnCount) :
    dot coefs (generator.image tableau (firstValues program.columns.length x)) =
      MixedInteger.form coefs (tableau.reading x) := by
  rw [dot_eq_form]
  refine form_congr fun index inside => ?_
  rw [tracks.image_eq builds equalities held (full ▸ inside)]

/-- At a solution, a generated cut has the same slack in both spaces. -/
theorem same_slack (tracks : Tracks program form generator tableau)
    (builds : StandardForm.Builds program form lower)
    (equalities : ∀ row ∈ program.rows, row.relation = .eq)
    (full : cut.coefs.length = tableau.columnCount)
    (translated : generator.toProgramSpace tableau cut.coefs cut.rhs =
      .ok (cut.programCoefs, cut.programRhs)) {x : Nat → Rat} (held : tableau.Holds x) :
    cut.programCoefs.length = program.columns.length ∧
      dot cut.programCoefs (firstValues program.columns.length x) - cut.programRhs =
        MixedInteger.form cut.coefs (tableau.reading x) - cut.rhs := by
  have equations := equations_of_holds builds equalities (tracks.strengthens.back x held)
  rw [← tracks.dot_image builds equalities held full]
  obtain rfl := tracks.source
  exact toProgramSpace_spec tracks.defined builds.valid.rows full translated _ equations

/-! ### One round -/

theorem start (builds : StandardForm.Builds program form lower)
    (equalities : ∀ row ∈ program.rows, row.relation = .eq) (filter : Filter) :
    Tracks program form { filter, program, base := (Tableau.ofForm form).columnCount }
      (Tableau.ofForm form) where
  strengthens := Strengthens.start builds
  prepared := builds.prepared
  source := rfl
  base := columnCount_ofForm builds equalities
  defined _ member := nomatch member
  count := columnCount_ofForm builds equalities
  slacks _ _ _ _ _ impossible := nomatch impossible

/-- Optimisation changes nothing about what the slacks stand for. -/
theorem optimized (tracks : Tracks program form generator tableau) {budget : Budget}
    {result : Optimized Rat} (optimized : (tableau.optimize budget).outcome = .ok result)
    (optimal : result.status = .optimal) :
    Tracks program form generator result.tableau ∧ Optimum result.tableau := by
  obtain ⟨result', again, means⟩ := Tableau.optimize_spec tracks.prepared budget
  obtain rfl := Except.ok.inj (again.symm.trans optimized)
  rw [optimal] at means
  obtain ⟨restored, reduced⟩ := means
  have optimum := optimum_of_restored restored reduced
  refine ⟨⟨tracks.strengthens.restored restored, optimum.prepared, tracks.source, tracks.base,
    tracks.defined, ?_, fun x held => ?_⟩, optimum⟩
  · rw [Tableau.columnCount_congr restored.frame]
    exact tracks.count
  · exact tracks.slacks x ((restored.holds x).mp held)

/-- Counting candidates changes nothing either. -/
theorem recount (tracks : Tracks program form generator tableau) (counts : Counts) :
    Tracks program form { generator with counts } tableau :=
  ⟨tracks.strengthens, tracks.prepared, tracks.source, tracks.base, tracks.defined, tracks.count,
    tracks.slacks⟩

/-- Recording a cut that was added says what its slack stands for. -/
theorem record (tracks : Tracks program form generator tableau)
    (builds : StandardForm.Builds program form lower)
    (equalities : ∀ row ∈ program.rows, row.relation = .eq) (bounds : program.WholeBounds)
    (optimum : Optimum tableau) {row : TableauRow Rat} (made : FromRow tableau row cut)
    (translated : generator.toProgramSpace tableau cut.coefs cut.rhs =
      .ok (cut.programCoefs, cut.programRhs)) {place : Nat}
    (added : tableau.addCut cut.coefs cut.rhs = .ok (place, extended)) :
    Tracks program form (generator.record cut) extended := by
  obtain ⟨extended', again, extends', stronger⟩ :=
    tracks.strengthens.addCut builds bounds optimum made
  obtain ⟨-, rfl⟩ := Prod.mk.inj (Except.ok.inj (again.symm.trans added))
  have slack : ∀ x, tableau.Holds x → cut.programCoefs.length = program.columns.length ∧ _ :=
    fun x => tracks.same_slack builds equalities made.length translated
  refine ⟨stronger, extends'.prepared, tracks.source, tracks.base, ?_, ?_, ?_⟩
  · intro definition member
    rcases List.mem_append.mp member with old | new
    · exact tracks.defined definition old
    · obtain rfl := List.mem_singleton.mp new
      rw [Generator.record, tracks.source]
      exact (slack _ optimum.held).1
  · rw [Tableau.columnCount, extends'.columns, Generator.record, List.length_append,
      List.length_append, ← Tableau.columnCount, tracks.count, Nat.add_assoc]
    rfl
  · intro x held index d e found
    obtain ⟨before, distance⟩ := (extends'.holds x).mp held
    rw [Generator.record] at found
    by_cases old : index < generator.definitions.length
    · rw [List.getElem?_append_left old] at found
      exact tracks.slacks x before index d e found
    · rw [List.getElem?_append_right (not_lt.mp old), List.getElem?_singleton] at found
      split at found
      · rename_i last
        obtain ⟨rfl, rfl⟩ := Prod.mk.inj (Option.some.inj found)
        obtain rfl : index = generator.definitions.length := by omega
        rw [(slack x before).2, distance, ← tracks.count]
        ring
      · cases found

end Tracks

/-- Any number of rounds keeps track of the slacks. -/
theorem Rounds.tracks (builds : StandardForm.Builds program form lower)
    (equalities : ∀ row ∈ program.rows, row.relation = .eq) (bounds : program.WholeBounds)
    {filter : Filter} (rejects : filter.RejectsWhole)
    (rounds : Rounds program form filter tableau generator) :
    Tracks program form generator tableau ∧ generator.filter = filter := by
  induction rounds with
  | start => exact ⟨Tracks.start builds equalities filter, rfl⟩
  | round _ optimized optimal generated added ih =>
    obtain ⟨tracks, sameFilter⟩ := ih
    obtain ⟨tracked, optimum⟩ := tracks.optimized optimized optimal
    obtain ⟨kept, rows⟩ := generate_spec (sameFilter ▸ rejects) generated
    obtain ⟨⟨counts, rfl⟩, translated⟩ := generate_translates generated
    obtain ⟨row, made⟩ := rows _ rfl
    refine ⟨?_, sameFilter⟩
    exact (tracked.recount counts).record builds equalities bounds optimum made
      (translated _ rfl) added

/-! ### Separation -/

/-- The cut of a row vanishes at the vertex: it has no basic column. -/
theorem FromRow.vertex {row : TableauRow Rat} (made : FromRow tableau row cut) :
    MixedInteger.form cut.coefs (tableau.reading tableau.vertexPoint) = 0 := by
  obtain ⟨factor, -, -, coefs⟩ := made.scaled
  rw [coefs, form_map_mul, Tableau.vertexPoint, Tableau.reading_pointOf,
    form_eq_zero fun index => ?_, mul_zero]
  by_cases basic : index ∈ basicColumns tableau
  · have absent : (rowCut tableau row (Int.fract row.rhs)).getD index 0 = 0 := by
      rw [List.getD_eq_getElem?_getD, getElem?_rowCut]
      cases tableau.columns[index]? with
      | none => rfl
      | some column => simp [basic]
    rw [absent, zero_mul]
  · rw [Tableau.basicReading_nonbasic, mul_zero]
    intro other member named
    exact basic (List.mem_filterMap.mpr ⟨other, member, named⟩)

/-- Orienting the solution that is read off gives the oriented values back. -/
theorem zipWith_orient_solution (tableau : Tableau Rat) :
    tableau.columns.zipWith TableauColumn.orient tableau.solution = tableau.orientedValues := by
  refine List.ext_getElem? fun index => ?_
  rw [List.getElem?_zipWith, Tableau.solution, List.getElem?_zipWith]
  cases known : tableau.columns[index]? with
  | none =>
    have outside : tableau.orientedValues.length ≤ index := by
      rw [Tableau.length_orientedValues]
      exact List.getElem?_eq_none_iff.mp known
    rw [List.getElem?_eq_none outside]
  | some column =>
    cases tableau.orientedValues[index]? with
    | none => rfl
    | some value =>
      refine congrArg some ((congrArg column.orient ?_).trans (column.orient_restore value))
      unfold TableauColumn.restore
      cases column.upper <;> cases column.complemented <;> rfl

/-- After any number of rounds, a generated cut holds at every feasible point of the program and
at its oriented image, with the same slack in both spaces, and the solution of the tableau
violates it in both. -/
theorem rounds_valid_separating (equalities : ∀ row ∈ program.rows, row.relation = .eq)
    (bounds : program.WholeBounds) (built : StandardForm.ofProgram program = .ok form)
    {filter : Filter} (rejects : filter.RejectsWhole)
    (rounds : Rounds program form filter tableau generator) {budget : Budget}
    {result : Optimized Rat} (optimized : (tableau.optimize budget).outcome = .ok result)
    (optimal : result.status = .optimal)
    (generated : generator.generate result.tableau = .ok (next, some cut)) :
    (∀ p, program.Feasible p →
      cut.programRhs ≤ dot cut.programCoefs p ∧
      cut.rhs ≤ dot cut.coefs (generator.image result.tableau p) ∧
      dot cut.programCoefs p - cut.programRhs =
        dot cut.coefs (generator.image result.tableau p) - cut.rhs) ∧
    dot cut.programCoefs (result.tableau.solution.take program.columns.length) < cut.programRhs ∧
    dot cut.coefs (result.tableau.columns.zipWith TableauColumn.orient result.tableau.solution) <
      cut.rhs := by
  obtain ⟨lower, builds⟩ := StandardForm.builds_of_ofProgram built
  obtain ⟨before, sameFilter⟩ := rounds.tracks builds equalities bounds rejects
  obtain ⟨tracks, optimum⟩ := before.optimized optimized optimal
  obtain ⟨-, rows⟩ := generate_spec (sameFilter ▸ rejects) generated
  obtain ⟨row, made⟩ := rows cut rfl
  obtain ⟨factor, positive, rhs, -⟩ := made.scaled
  have slack : ∀ x, result.tableau.Holds x → _ ∧ _ := fun x =>
    tracks.same_slack builds equalities made.length ((generate_translates generated).2 cut rfl)
  refine ⟨fun p held => ?_, ?_, ?_⟩
  · -- A feasible point is the program's part of a solution in the box.
    obtain ⟨x, holds, inside, rfl⟩ := tracks.strengthens.forth p held
    have valid := made.valid optimum.prepared.units optimum.prepared.wide holds inside
      (tracks.strengthens.reading_whole builds bounds held.integral)
    obtain ⟨-, same⟩ := slack x holds
    rw [tracks.dot_image builds equalities holds made.length]
    exact ⟨by linarith, valid, same⟩
  · obtain ⟨-, same⟩ := slack _ optimum.held
    rw [take_solution optimum.prepared.units (tracks.strengthens.columns_le builds)]
    rw [made.vertex] at same
    linarith
  · have oriented : dot cut.coefs result.tableau.orientedValues = 0 := by
      rw [← made.vertex, dot_eq_form, Tableau.vertexPoint, Tableau.reading_pointOf]
      refine form_congr fun index inside => ?_
      rw [Tableau.getD_orientedValues optimum.prepared.units (made.length ▸ inside)]
    rw [zipWith_orient_solution, oriented]
    linarith

/-- Maximise `y` under two lines that meet at height `3/2`, with integral slacks. The second cut
of this program mentions the slack of the first. -/
def ridge : Program Rat where
  objective := [0, -1, 0, 0]
  constant := 0
  rows := [⟨[3, 2, 1, 0], .eq, 6⟩, ⟨[-3, 2, 0, 1], .eq, 0⟩]
  columns := [.integer .nonnegative, .integer .nonnegative,
    { range := .nonnegative, integral := true, slack := true },
    { range := .nonnegative, integral := true, slack := true }]

theorem ridge_second_cut : ∃ (form : StandardForm Rat) (tableau : Tableau Rat)
    (generator : Generator Rat) (result : Optimized Rat) (cut : GomoryCut Rat),
    Rounds ridge form { minCosine := .zero } tableau generator ∧
    (tableau.optimize {}).outcome = .ok result ∧ cut.coefs = [0, 0, 0, 4, 1] ∧
    (∀ p, ridge.Feasible p → cut.programRhs ≤ dot cut.programCoefs p) ∧
    dot cut.programCoefs (result.tableau.solution.take 4) < cut.programRhs := by
  have runs : (do
      let form ← (StandardForm.ofProgram ridge).toOption
      let first ← ((Tableau.ofForm form).optimize {}).outcome.toOption
      let generator : Generator Rat :=
        ⟨{ minCosine := .zero }, ridge, (Tableau.ofForm form).columnCount, [], {}⟩
      let (next, found) ← (generator.generate first.tableau).toOption
      let cut ← found
      let (_, tableau) ← (first.tableau.addCut cut.coefs cut.rhs).toOption
      let second ← (tableau.optimize {}).outcome.toOption
      let (_, last) ← ((next.record cut).generate second.tableau).toOption
      let last ← last
      guard (first.status = Status.optimal ∧ second.status = Status.optimal ∧
        last.coefs = [0, 0, 0, 4, 1])).isSome = true := by decide +kernel
  obtain ⟨_, runs⟩ := Option.isSome_iff_exists.mp runs
  simp only [bind, Option.bind_eq_some_iff, toOption_eq_some_iff, Prod.exists] at runs
  obtain ⟨form, built, first, optimized, next, found, generated, cut, rfl, place, tableau, added,
    second, again, last, other, generatedAgain, cut', rfl, status⟩ := runs
  obtain ⟨optimal, optimalAgain, coefs⟩ := (Option.guard_eq_some' _).mp status
  have bounds : ridge.WholeBounds := by
    intro column member _
    have range : column.range = .nonnegative := by
      simp only [ridge, List.mem_cons, List.not_mem_nil, or_false] at member
      rcases member with rfl | rfl | rfl | rfl <;> rfl
    rw [range]
    exact ⟨fun lower low => Option.some.inj low ▸ Whole.zero, fun upper high => nomatch high⟩
  have rejects : Filter.RejectsWhole { minCosine := .zero } := by decide +kernel
  have rounds : Rounds ridge form { minCosine := .zero } tableau (next.record cut) :=
    .round .start optimized optimal generated added
  obtain ⟨valid, separated, -⟩ := rounds_valid_separating (by decide) bounds built
    rejects rounds again optimalAgain generatedAgain
  exact ⟨form, tableau, _, second, cut', rounds, again, coefs, fun p held => (valid p held).1, separated⟩

end

end MixedInteger.Cut
