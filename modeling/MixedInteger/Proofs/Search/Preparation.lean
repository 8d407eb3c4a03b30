import MixedInteger.Proofs.Search.PoolGrowth
import MixedInteger.Solve

/-! The way to the first state of a search. Presolve and the rounding of integral bounds leave
a program that stands for the one given, its working form is taken over as it stands, and once
the root is solved every better point is open. A solve that ends on the way has its answer
already: the optimum, or that there is no point or no optimum. Nothing on the way fails. -/
namespace MixedInteger.Search

open Presolve (Reduces)

/-! ### Rounding the bounds -/

/-- A column with its bounds rounded, if it is integral. -/
def roundedColumn (column : Column Rat) : Column Rat :=
  if column.integral then { column with range := column.range.roundInward } else column

theorem roundRanges_eq {columns rounded : List (Column Rat)}
    (ran : roundRanges columns = (rounded, false)) : rounded = columns.map roundedColumn := by
  induction columns generalizing rounded with
  | nil =>
    cases ran
    rfl
  | cons column columns ih =>
    rw [roundRanges] at ran
    rw [List.map_cons, roundedColumn]
    cases flagged : column.integral with
    | false =>
      simp only [flagged, Bool.not_false, ↓reduceIte] at ran
      obtain ⟨rfl, nonempty⟩ := Prod.mk.inj ran
      rw [← ih (Prod.ext rfl nonempty)]
      rfl
    | true =>
      simp only [flagged, Bool.not_true, Bool.false_eq_true, ↓reduceIte] at ran
      split at ran
      · cases ran
      · obtain ⟨rfl, nonempty⟩ := Prod.mk.inj ran
        rw [← ih (Prod.ext rfl nonempty)]
        rfl

/-- Rounding stops at a column whose range holds no integer. -/
theorem roundRanges_empty {columns rounded : List (Column Rat)}
    (ran : roundRanges columns = (rounded, true)) :
    ∃ column ∈ columns, column.integral = true ∧ column.range.roundInward.isEmpty = true := by
  induction columns generalizing rounded with
  | nil => cases ran
  | cons column columns ih =>
    have later : ∀ others, roundRanges columns = (others, true) → ∃ data ∈ column :: columns,
        data.integral = true ∧ data.range.roundInward.isEmpty = true := by
      intro others ends
      obtain ⟨data, member, rest⟩ := ih ends
      exact ⟨data, List.mem_cons_of_mem _ member, rest⟩
    rw [roundRanges] at ran
    cases flagged : column.integral with
    | false =>
      simp only [flagged, Bool.not_false, ↓reduceIte] at ran
      exact later _ (Prod.ext rfl (Prod.mk.inj ran).2)
    | true =>
      simp only [flagged, Bool.not_true, Bool.false_eq_true, ↓reduceIte] at ran
      split at ran
      · rename_i nothing
        exact ⟨column, List.mem_cons_self, flagged, nothing⟩
      · exact later _ (Prod.ext rfl (Prod.mk.inj ran).2)

/-- A program whose rounding fails has no feasible point. -/
theorem infeasible_of_roundRanges {program : Program Rat} {rounded : List (Column Rat)}
    (ran : roundRanges program.columns = (rounded, true)) :
    Presolve.Verdict.infeasible.Means program := by
  intro x held
  obtain ⟨column, member, flagged, nothing⟩ := roundRanges_empty ran
  obtain ⟨index, known⟩ := List.mem_iff_getElem?.mp member
  have whole := held.integral index column known flagged
  exact Range.not_admits_of_isEmpty nothing _
    ((Range.admits_roundInward whole).mpr (held.ranges index column known))

theorem admits_roundedColumn {column : Column Rat} {value : Rat}
    (held : (roundedColumn column).range.Admits value) : column.range.Admits value := by
  unfold roundedColumn at held
  split at held
  · exact Range.admits_of_roundInward held
  · exact held

theorem integral_roundedColumn (column : Column Rat) :
    (roundedColumn column).integral = column.integral := by
  unfold roundedColumn
  split <;> rfl

theorem narrower_roundedColumn (column : Column Rat) :
    Presolve.Narrower (roundedColumn column) column := by
  refine ⟨fun _ => admits_roundedColumn, integral_roundedColumn column, ?_, ?_⟩
  · unfold roundedColumn
    split <;> rfl
  · unfold roundedColumn
    split <;> rfl

/-- Rounding the integral bounds loses no feasible point. -/
theorem reduces_rounded (program : Program Rat) (removed : UndoLog Rat) :
    Reduces { program, removed }
      { program := { program with columns := program.columns.map roundedColumn }, removed } := by
  refine ⟨fun y held => ⟨y, ?_, rfl, fun integral index column known flagged => ?_, rfl⟩,
    fun x held => ⟨x, ?_, le_rfl⟩, ?_, id⟩
  · refine ⟨held.length.trans (by simp), held.rows, fun index column known => ?_⟩
    have there : (program.columns.map roundedColumn)[index]? = some (roundedColumn column) := by
      simp [known]
    exact admits_roundedColumn (held.ranges index _ there)
  · have there : (program.columns.map roundedColumn)[index]? = some (roundedColumn column) := by
      simp [known]
    exact integral index _ there ((integral_roundedColumn column).trans flagged)
  · refine ⟨⟨held.length.trans (by simp), held.rows, fun index data found => ?_⟩,
      fun index data found flagged => ?_⟩
    · rw [List.getElem?_map, Option.map_eq_some_iff] at found
      obtain ⟨column, known, rfl⟩ := found
      unfold roundedColumn
      split
      · rename_i flagged
        exact (Range.admits_roundInward (held.integral index column known flagged)).mpr
          (held.ranges index column known)
      · exact held.ranges index column known
    · rw [List.getElem?_map, Option.map_eq_some_iff] at found
      obtain ⟨column, known, rfl⟩ := found
      exact held.integral index column known ((integral_roundedColumn column).symm.trans flagged)
  · rw [List.sublistForall₂_map_left_iff]
    refine List.sublistForall₂_iff.mpr ⟨_, List.forall₂_same.mpr fun column _ => ?_, .refl _⟩
    exact narrower_roundedColumn column

theorem wholeBounds_rounded (program : Program Rat) :
    Program.WholeBounds { program with columns := program.columns.map roundedColumn } := by
  intro column member flagged
  obtain ⟨source, -, rfl⟩ := List.mem_map.mp member
  rw [integral_roundedColumn] at flagged
  rw [roundedColumn, if_pos flagged]
  exact Range.roundInward_wholeBounds source.range

/-! ### Up to the working form -/

/-- The program a solve works on, with the columns eliminated so far. -/
def reduction (problem : Problem Rat) : Presolve.State Rat :=
  { program := problem.working, removed := problem.removed }

/-- No point is stored. -/
def Blank (problem : Problem Rat) : Prop := problem.solution = none ∧ problem.optimum = none

/-- No node is open and no point is known. -/
structure Fresh (state : State Rat) : Prop where
  pool : state.pool = []
  incumbent : state.incumbent.best = none
  blank : Blank state.problem

/-- The stored point is the image of a feasible point of a program, at the stored value. -/
def Attains (program : Program Rat) (problem : Problem Rat) (value : Rat) : Prop :=
  problem.optimum = some value ∧ ∃ y x, problem.solution = some y ∧
    problem.removed.replay y = .ok x ∧ program.Feasible x ∧ program.objectiveValue x = value

/-- A stored point, if there is one, is the image of a feasible point. -/
def Reports (program : Program Rat) (problem : Problem Rat) : Prop :=
  Blank problem ∨ ∃ value, Attains program problem value

/-- What the status of a solve says about a program and the stored point. A limit says
nothing. -/
def Concludes (program : Program Rat) (problem : Problem Rat) : SolveStatus → Prop
  | .optimal => ∃ value, Attains program problem value ∧
      ∀ y, program.Feasible y → value ≤ program.objectiveValue y
  | .infeasible => Presolve.Verdict.infeasible.Means program
  | .unbounded => Presolve.Verdict.unbounded.Means program
  | _ => True

/-- A program that presolve solves has the empty point as its optimum. -/
theorem attains_of_solved {before after : Presolve.State Rat} (reduces : Reduces before after)
    (columns : after.program.columns = []) (rows : after.program.rows = [])
    (nothing : before.removed = []) (problem : Problem Rat) (removed : problem.removed = after.removed)
    (solution : problem.solution = some [])
    (optimum : problem.optimum = some after.program.constant) :
    Attains before.program problem after.program.constant ∧
      ∀ y, before.program.Feasible y →
        after.program.constant ≤ before.program.objectiveValue y := by
  have satisfied : after.program.Satisfies [] :=
    ⟨by simp [columns], by simp [rows], by simp [columns]⟩
  have constant : after.program.objectiveValue [] = after.program.constant := by
    simp [Program.objectiveValue]
  obtain ⟨x, held, value, integral, replayed⟩ := reduces.back [] satisfied
  have whole : before.program.Integral x := integral (by simp [Program.Integral, columns])
  refine ⟨⟨optimum, [], x, solution, ?_, ⟨held, whole⟩, value.trans constant⟩, fun y heldY => ?_⟩
  · rw [removed, replayed, nothing]
    rfl
  · obtain ⟨z, heldZ, below⟩ := reduces.forth y heldY
    obtain rfl : z = [] := by
      have length := heldZ.length
      rw [columns] at length
      exact List.length_eq_zero_iff.mp length
    exact constant.symm.le.trans below

section

variable {state : State Rat}

/-- What presolve at the root leaves: a program that stands for the one given, or an answer. -/
structure Presolved (before : Problem Rat) (result : Option SolveStatus) (state : State Rat) :
    Prop where
  reduced : result = none → Reduces (reduction before) (reduction state.problem) ∧
    state.problem.working.Valid ∧ Fresh state
  ended : ∀ status, result = some status → Reports before.working state.problem ∧
    Concludes before.working state.problem status
  settings : state.problem.settings = before.settings

theorem adoptPresolved_reduces (nothing : state.problem.removed = []) (fresh : Fresh state)
    {status : Presolve.Status} {final : Presolve.State Rat}
    (means : status.Means (reduction state.problem) final) :
    Leads (adoptPresolved status final) state (Presolved state.problem) := by
  simp only [Leads, adoptPresolved, ends_bind, ends_get]
  cases status with
  | infeasible =>
    refine ⟨by simp, fun status ended => ?_, rfl⟩
    obtain rfl := Option.some.inj ended
    exact ⟨.inl fresh.blank, means⟩
  | unbounded =>
    refine ⟨by simp, fun status ended => ?_, rfl⟩
    obtain rfl := Option.some.inj ended
    exact ⟨.inl fresh.blank, means⟩
  | solved =>
    obtain ⟨reduces, -, columns, rows⟩ := means
    refine ⟨by simp, fun status ended => ?_, rfl⟩
    obtain rfl := Option.some.inj ended
    obtain ⟨attains, least⟩ := attains_of_solved reduces columns rows nothing
      { state.problem with
        working := final.program, removed := final.removed, solution := some []
        optimum := some final.program.constant
        stats := { state.problem.stats with presolve := final.counts } } rfl rfl rfl
    exact ⟨.inr ⟨_, attains⟩, _, attains, least⟩
  | reduced =>
    obtain ⟨reduces, valid, -⟩ := means
    exact ⟨fun _ => ⟨reduces.recounted _ rfl rfl, valid, fresh.pool, fresh.incumbent, fresh.blank⟩,
      by simp, rfl⟩

theorem presolveRoot_reduces (valid : state.problem.working.Valid)
    (nothing : state.problem.removed = []) (fresh : Fresh state) :
    Leads presolveRoot state (Presolved state.problem) := by
  simp only [Leads, presolveRoot, ends_bind, ends_get]
  split
  · exact ⟨fun _ => ⟨.refl _, valid, fresh⟩, by simp, rfl⟩
  · simp only [ends_bind]
    obtain ⟨status, final, ended, means⟩ := Presolve.run_means valid
      state.problem.settings.presolvePasses state.problem.removed
    rw [ends_perform ended]
    refine leads_told fun journal => ?_
    refine adoptPresolved_reduces ?_ ?_ ?_
    · exact nothing
    · exact ⟨fresh.pool, fresh.incumbent, fresh.blank⟩
    · exact means

/-- Rounding at the root leaves integral bounds on integral columns, or shows that there is no
feasible point. -/
theorem roundRoot_reduces (shaped : state.problem.working.Shaped) (fresh : Fresh state) :
    Leads roundRoot state fun nonempty next => Fresh next ∧
      next.problem.settings = state.problem.settings ∧
      if nonempty then Reduces (reduction state.problem) (reduction next.problem) ∧
        next.problem.working.WholeBounds ∧ next.problem.working.Shaped
      else Presolve.Verdict.infeasible.Means state.problem.working := by
  simp only [Leads, roundRoot, ends_bind, ends_get]
  cases rounding : roundRanges state.problem.working.columns with
  | mk rounded empty =>
    refine ⟨⟨fresh.pool, fresh.incumbent, fresh.blank⟩, rfl, ?_⟩
    cases empty with
    | true => exact infeasible_of_roundRanges rounding
    | false =>
      obtain rfl := roundRanges_eq rounding
      refine ⟨reduces_rounded _ _, wholeBounds_rounded _, ?_, fun row member => ?_⟩
      · simpa using shaped.objective
      · simpa using shaped.rows row member

/-- The working form is built over the program as it stands, which becomes the reference. -/
theorem prepareWorking_form (structural : state.problem.working.Structural)
    (shaped : state.problem.working.Shaped) (bounds : state.problem.working.WholeBounds)
    (fresh : Fresh state) : Leads prepareWorking state fun _ next =>
      next.problem.InWorkingForm ∧ Fresh next ∧
        next.problem.reference = state.problem.working ∧
        next.problem.removed = state.problem.removed ∧
        next.problem.settings = state.problem.settings := by
  obtain ⟨reference, -, removed, solution, optimum, settings⟩ := prepared_keeps { state.problem with
    frozen := state.problem.working.rows, reference := state.problem.working }
  refine ⟨inWorkingForm_prepared ?_ ?_ ?_ rfl rfl, ⟨fresh.pool, fresh.incumbent,
    solution.trans fresh.blank.1, optimum.trans fresh.blank.2⟩, reference, removed, settings⟩
  · exact structural
  · exact shaped
  · exact bounds

end

/-! ### The root -/

section

variable {start : Problem Rat} {state : State Rat}

theorem consistent_of_fresh (alike : start.Alike state.problem) (fresh : Fresh state) :
    Consistent start state := by
  refine ⟨alike, fun best known => ?_, fun node member => ?_⟩
  · rw [fresh.incumbent] at known
    cases known
  · rw [fresh.pool] at member
    cases member

/-- Every feasible point is in the root. -/
theorem within_root (form : start.InWorkingForm) {x : List Rat}
    (held : start.reference.Feasible x) :
    Within (Node.root start.working).ranges (start.image x) := by
  intro index range found
  simp only [Node.root, List.getElem?_map, Option.map_eq_some_iff] at found
  obtain ⟨column, known, rfl⟩ := found
  exact (form.image x held).1.ranges index column known

/-- The root is solved, or the solve ends with an answer. -/
theorem solveRoot_settles (form : state.problem.InWorkingForm) (fresh : Fresh state) :
    Leads solveRoot state fun result next => Unmoved state next ∧
      match result with
      | .ok root => root.ranges = (Node.root state.problem.working).ranges ∧
          root.Settles state.problem .optimal
      | .error status => status ≠ .optimal ∧
          Concludes state.problem.reference next.problem status := by
  simp only [Leads, solveRoot, ends_bind, ends_get, ends_modify]
  refine (solveNode_settles form (consistent_of_fresh ?_ ?_) (by simp [Node.root])
    (wholeRanges_root form.bounds) (narrows_root _)).mono (fun value solved ends => ?_) fun _ _ => id
  · exact .refl _
  · exact ⟨fresh.pool, fresh.incumbent, fresh.blank⟩
  · obtain ⟨status, root⟩ := value
    obtain ⟨quiet, ranges, settles⟩ := ends
    dsimp only at ranges settles
    dsimp only
    refine (count_unmoved _).mono (fun _ counted tallied => ?_) fun _ _ => id
    have moved : Unmoved state counted :=
      Unmoved.trans (⟨.refl _, rfl, rfl, id⟩ : Unmoved state { state with
        budget := { limit := state.problem.settings.iterationLimit } }) (quiet.trans tallied)
    cases status with
    | infeasible =>
      refine ⟨moved, by simp, fun x held => settles x held ?_⟩
      rw [ranges]
      exact within_root form held
    | unbounded => exact ⟨moved, by simp, settles.2 ranges⟩
    | iterationLimit => exact ⟨moved, by simp, trivial⟩
    | error => exact settles
    | optimal =>
      refine leads_told fun journal => ?_
      exact ⟨moved.trans ⟨.refl _, rfl, rfl, id⟩, ranges, settles⟩

/-- A search begins with every better point open: an integral root is the best point, and any
other root is the first node of the pool. -/
theorem begin_covers (form : start.InWorkingForm) (consistent : Consistent start state)
    {root : Node Rat} (ranges : root.ranges = (Node.root start.working).ranges)
    (settles : root.Settles start .optimal) : Leads (begin root) state fun _ next =>
      Consistent start next ∧ ∀ x, start.reference.Feasible x →
        Better next.incumbent (start.reference.objectiveValue x) → Open start next.pool x := by
  obtain ⟨fits, worth, least, -⟩ := settles
  have below : ∀ x, start.reference.Feasible x → Within root.ranges (start.image x) ∧
      root.optimum ≤ start.reference.objectiveValue x := by
    intro x held
    have inside : Within root.ranges (start.image x) := ranges ▸ within_root form held
    exact ⟨inside, least x held inside⟩
  simp only [Leads, begin, ends_bind, ends_modify]
  set rooted : State Rat := { state with root := (root.approx, root.infeasibility) }
  have placed := Advances.of_unmoved consistent (⟨.refl _, rfl, rfl, id⟩ : Unmoved state rooted)
  refine (count_unmoved _).mono (fun _ counted quiet => ?_) fun _ _ => id
  have ready := placed.then_unmoved quiet
  split
  · rename_i integral
    simp only [ends_bind]
    refine (accept_advances form ready.consistent fits integral worth).mono (fun _ next ends => ?_)
      fun _ _ => id
    exact ⟨ends.1.consistent, fun x held better =>
      absurd (ends.2 _ better) (not_lt.mpr (below x held).2)⟩
  · simp only [ends_bind]
    refine (tryHeuristic_advances form ready.consistent fits.satisfied.length).mono
      (fun _ tried advances => ?_) fun _ _ => id
    exact ⟨(advances_push advances.consistent fits).consistent, fun x held _ =>
      ⟨root, List.mem_append_right _ List.mem_cons_self, below x held⟩⟩

end

/-! ### The whole preparation -/

theorem ofProgram_eq_ok {program : Program Rat} {settings : Settings} {problem : Problem Rat}
    (made : Problem.ofProgram program settings = .ok problem) :
    problem = { working := program, reference := program, settings } ∧ program.Shaped := by
  unfold Problem.ofProgram at made
  split at made
  · cases made
  · rename_i counts
    split at made
    · cases made
    · rename_i rows
      exact ⟨(Except.ok.inj made).symm, not_not.mp counts, program.validateRows_eq_ok_iff.mp rows⟩

/-- A problem with a solved root whose reference stands for a program, under the same settings.
No point of it is known. -/
structure Represents (program : Program Rat) (settings : Settings) (start : Problem Rat) : Prop where
  form : Rooted start
  reduces : Reduces { program, removed := [] }
    { program := start.reference, removed := start.removed }
  blank : Blank start
  settings : start.settings = settings

/-- What the preparation of a solve leads to: a search in which every better point is open and at
most the root is in the pool, or an answer. -/
structure Prepares (program : Program Rat) (settings : Settings) (result : Option SolveStatus)
    (state : State Rat) : Prop where
  ready : result = none → ∃ start, Represents program settings start ∧ Consistent start state ∧
    (∀ x, start.reference.Feasible x →
      Better state.incumbent (start.reference.objectiveValue x) → Open start state.pool x) ∧
    (state.pool.map (·.ranges)).Sublist [(Node.root start.working).ranges]
  ended : ∀ status, result = some status → Reports program state.problem ∧
    Concludes program state.problem status

/-- A solve that ends during its preparation, with no point stored. -/
theorem Prepares.of_blank {program : Program Rat} {settings : Settings} {status : SolveStatus}
    {state : State Rat} (blank : Blank state.problem)
    (concludes : Concludes program state.problem status) :
    Prepares program settings (some status) state := by
  refine ⟨by simp, fun other ended => ?_⟩
  obtain rfl := Option.some.inj ended
  exact ⟨.inl blank, concludes⟩

/-- An answer other than an optimum goes back to the program before a reduction. -/
theorem Concludes.of_reduces {before after : Presolve.State Rat} (reduces : Reduces before after)
    {problem : Problem Rat} {status : SolveStatus} (unsolved : status ≠ .optimal)
    (concludes : Concludes after.program problem status) :
    Concludes before.program problem status := by
  cases status with
  | optimal => exact absurd rfl unsolved
  | infeasible =>
    have means : Presolve.Verdict.infeasible.Means after.program := concludes
    exact reduces.means means
  | unbounded =>
    have means : Presolve.Verdict.unbounded.Means after.program := concludes
    exact reduces.means means
  | nodeLimit | iterationLimit | timeLimit | depthLimit | gapLimit => trivial

/-- Every solve of a structural program is prepared for the search, or has its answer. -/
theorem prepare_prepares {program : Program Rat} {settings : Settings} {problem : Problem Rat}
    (made : Problem.ofProgram program settings = .ok problem) (structural : program.Structural) :
    Leads prepare { problem } (Prepares program settings) := by
  obtain ⟨rfl, shaped⟩ := ofProgram_eq_ok made
  have blank : Blank { working := program, reference := program, settings } := ⟨rfl, rfl⟩
  simp only [Leads, prepare, ends_bind, ends_get]
  refine leads_told fun journal => ?_
  split
  · rename_i empty
    exact .of_blank blank fun x held =>
      Program.not_satisfies_of_hasEmptyRange empty x held.toSatisfies
  · rename_i nonempty
    have valid : program.Valid := ⟨shaped, program.hasEmptyRange_eq_false_iff.mp (by simpa using nonempty)⟩
    simp only [ends_bind]
    refine (presolveRoot_reduces ?_ rfl ⟨rfl, rfl, blank⟩).mono (fun result presolved ends => ?_)
      fun _ _ => id
    · exact valid
    have settingsPresolved := ends.settings
    cases result with
    | some status => exact ⟨by simp, fun other ended => ends.ended other ended⟩
    | none =>
      obtain ⟨first, validNow, fresh⟩ := ends.reduced rfl
      simp only [ends_bind]
      refine (roundRoot_reduces validNow.toShaped fresh).mono (fun rounds rounded ends => ?_)
        fun _ _ => id
      obtain ⟨freshNow, settingsNow, ends⟩ := ends
      cases rounds with
      | false =>
        have means : Presolve.Verdict.infeasible.Means presolved.problem.working := ends
        exact .of_blank freshNow.blank (first.means means)
      | true =>
        obtain ⟨second, bounds, shapedNow⟩ := ends
        have reduces := first.trans second
        simp only [Bool.not_true, Bool.false_eq_true, ↓reduceIte, ends_bind]
        refine (prepareWorking_form (reduces.structural structural) shapedNow bounds freshNow).mono
          (fun _ working ends => ?_) fun _ _ => id
        obtain ⟨form, freshWorking, reference, removed, settingsWorking⟩ := ends
        have stands : Reduces { program, removed := [] }
            { program := working.problem.reference, removed := working.problem.removed } := by
          rw [reference, removed]
          exact reduces
        refine (solveRoot_settles form freshWorking).mono (fun result solved ends => ?_) fun _ _ => id
        obtain ⟨quiet, ends⟩ := ends
        cases result with
        | error status =>
          obtain ⟨unsolved, concludes⟩ := ends
          refine .of_blank ?_ (.of_reduces stands unsolved concludes)
          exact ⟨quiet.problem.solution.trans freshWorking.blank.1,
            quiet.problem.optimum.trans freshWorking.blank.2⟩
        | ok root =>
          obtain ⟨ranges, settles⟩ := ends
          have consistent := (Advances.of_unmoved
            (consistent_of_fresh (.refl _) freshWorking) quiet).consistent
          simp only [ends_bind]
          refine ((begin_covers form consistent ranges settles).and (begin_grows root)).mono
            (fun _ begun ends => ?_) fun _ _ => And.left
          obtain ⟨⟨ready, covers⟩, grown⟩ := ends
          have kept := settingsWorking.trans (settingsNow.trans settingsPresolved)
          have single : (begun.pool.map (·.ranges)).Sublist
              [(Node.root working.problem.working).ranges] := by
            rw [quiet.pool, freshWorking.pool] at grown
            rw [← ranges]
            exact grown.map _
          exact ⟨fun _ => ⟨working.problem, ⟨⟨form, settles.2.2.2 ranges⟩, stands,
            freshWorking.blank, kept⟩, ready, covers, single⟩, by simp⟩

end MixedInteger.Search
