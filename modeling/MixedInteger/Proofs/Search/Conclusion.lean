import MixedInteger.Proofs.Search.Coverage

/-! The answer of a solve. A loop ends with a last step from a head, so whatever beats the best
point by then is open or was given up. When the pool is empty nothing is open, and what is left
is whether a node was given up; a gap that is closed in binary64 leaves the pool as it is. -/
namespace MixedInteger.Search

/-- A step ends the search because its gap is closed, as far as binary64 can tell. -/
def ClosesGap (clock : Clock.Readings) (problem : Problem Rat) : Prop :=
  ∃ look state next, Heads clock problem look state ∧
    (advance (clock look)).run state = .ok (.stopped .optimal) next

/-- What the status of a solve says, and what it rests on. An empty pool proves something only
if every node taken from it was split, and a closed gap proves nothing. -/
structure Answers (clock : Clock.Readings) (problem : Problem Rat) (program : Program Rat)
    (status : SolveStatus) (final : Problem Rat) : Prop where
  recorded : final.status = some status
  reports : Reports program final
  infeasible : status = .infeasible → ¬ Overlooks clock problem →
    Presolve.Verdict.infeasible.Means program
  unbounded : status = .unbounded → Presolve.Verdict.unbounded.Means program
  optimal : status = .optimal → ∃ value, Attains program final value ∧
    (¬ Overlooks clock problem → ¬ ClosesGap clock problem →
      ∀ y, program.Feasible y → value ≤ program.objectiveValue y)

/-! ### The steps of a loop -/

section

variable {clock : Clock.Readings} {problem : Problem Rat} {state final : State Rat}

/-- What the last step of a loop led to. -/
def lastProgress (limit : Option SolveStatus) : Progress := limit.elim .done .stopped

/-- A loop that begins at a head makes its last step from a head. -/
theorem loop_last {fuel look : Nat} {limit : Option SolveStatus}
    (head : Heads clock problem look state)
    (ran : (loop clock fuel look).run state = .ok limit final) :
    ∃ last before, Heads clock problem last before ∧
      (advance (clock last)).run before = .ok (lastProgress limit) final := by
  induction fuel generalizing look state with
  | zero => cases ran
  | succ fuel ih =>
    rw [loop, EStateM.run_bind] at ran
    cases stepped : (advance (clock look)).run state with
    | error cause reached =>
      rw [stepped] at ran
      cases ran
    | ok progress reached =>
      rw [stepped] at ran
      cases progress with
      | more => exact ih (head.next stepped) ran
      | done =>
        obtain ⟨rfl, rfl⟩ := EStateM.Result.ok.inj ran
        exact ⟨look, state, head, stepped⟩
      | stopped status =>
        obtain ⟨rfl, rfl⟩ := EStateM.Result.ok.inj ran
        exact ⟨look, state, head, stepped⟩

/-- A loop fails for making more steps than it is allowed, or because a step from a head does. -/
theorem loop_error {fuel look : Nat} {cause : Failure} (head : Heads clock problem look state)
    (ran : (loop clock fuel look).run state = .error cause final) :
    (cause = .fault .unsettled ∧ Heads clock problem (look + fuel) final) ∨
      ∃ place reached, Heads clock problem place reached ∧
        (advance (clock place)).run reached = .error cause final := by
  induction fuel generalizing look state with
  | zero =>
    obtain ⟨rfl, rfl⟩ := EStateM.Result.error.inj ran
    exact .inl ⟨rfl, head⟩
  | succ fuel ih =>
    rw [loop, EStateM.run_bind] at ran
    cases stepped : (advance (clock look)).run state with
    | error other reached =>
      rw [stepped] at ran
      obtain ⟨rfl, rfl⟩ := EStateM.Result.error.inj ran
      exact .inr ⟨look, state, head, stepped⟩
    | ok progress next =>
      rw [stepped] at ran
      cases progress with
      | more =>
        rw [Nat.add_comm fuel 1, ← Nat.add_assoc]
        exact ih (head.next stepped) ran
      | done => cases ran
      | stopped status => cases ran

/-- If no step from a head fails, a loop fails only for making more steps than it is allowed. -/
theorem loop_fails {fuel look : Nat} {cause : Failure}
    (steps : ∀ place reached, Heads clock problem place reached →
      ∃ progress next, (advance (clock place)).run reached = .ok progress next)
    (head : Heads clock problem look state)
    (ran : (loop clock fuel look).run state = .error cause final) :
    cause = .fault .unsettled ∧ Heads clock problem (look + fuel) final := by
  rcases loop_error head ran with outrun | ⟨place, reached, there, failed⟩
  · exact outrun
  · obtain ⟨progress, next, stepped⟩ := steps place reached there
    cases stepped.symm.trans failed

/-- Whether a loop from a head ends on an empty pool, with a column for every node it takes. -/
def splitsAll (clock : Clock.Readings) : Nat → Nat → State Rat → Bool
  | 0, _, _ => false
  | fuel + 1, look, state =>
    match (advance (clock look)).run state with
    | .ok .more next =>
      (state.chosen.all fun node => !decide (Unselected state.problem node)) &&
        splitsAll clock fuel (look + 1) next
    | .ok .done _ => true
    | _ => false

/-- The heads of a loop are those that `splitsAll` goes through. -/
theorem splitsAll_of_heads {begun : State Rat} {look fuel : Nat}
    (prepared : prepare.run { problem } = .ok none begun)
    (splits : splitsAll clock fuel 0 begun = true) (head : Heads clock problem look state) :
    ∃ left, splitsAll clock (left + 1) look state = true := by
  have positive : ∀ left place reached, splitsAll clock left place reached = true →
      ∃ fewer, splitsAll clock (fewer + 1) place reached = true := by
    intro left place reached checked
    cases left with
    | zero => cases checked
    | succ fewer => exact ⟨fewer, checked⟩
  induction head with
  | first again =>
    obtain ⟨-, rfl⟩ := EStateM.Result.ok.inj (prepared.symm.trans again)
    exact positive _ _ _ splits
  | next head stepped ih =>
    obtain ⟨left, checked⟩ := ih
    rw [splitsAll, stepped] at checked
    exact positive _ _ _ (Bool.and_eq_true_iff.mp checked).2

/-- What the verdicts of a search rest on can be checked by running it. -/
theorem thorough_of_splitsAll {begun : State Rat} {fuel : Nat}
    (prepared : prepare.run { problem } = .ok none begun)
    (splits : splitsAll clock fuel 0 begun = true) :
    ¬ Overlooks clock problem ∧ ¬ ClosesGap clock problem := by
  constructor
  · rintro ⟨look, state, next, node, head, stepped, chosen, unselected⟩
    obtain ⟨left, checked⟩ := splitsAll_of_heads prepared splits head
    rw [splitsAll, stepped] at checked
    have selected := (Bool.and_eq_true_iff.mp checked).1
    rw [chosen] at selected
    simp [unselected] at selected
  · rintro ⟨look, state, next, head, stepped⟩
    obtain ⟨left, checked⟩ := splitsAll_of_heads prepared splits head
    rw [splitsAll, stepped] at checked
    cases checked

end

/-! ### Closing the search -/

section

variable {clock : Clock.Readings} {problem start : Problem Rat} {program : Program Rat}
  {settings : Settings} {look : Nat} {state final : State Rat}

/-- The best point of a search is stored at its end. -/
theorem conclude_stores (limit : Option SolveStatus) :
    Leads (conclude limit) state fun status next => status = finalStatus state limit ∧
      next.problem.removed = state.problem.removed ∧
      next.problem.solution =
        (state.incumbent.best.map (·.values)).or state.problem.solution ∧
      next.problem.optimum =
        (state.incumbent.best.map (·.objective)).or state.problem.optimum := by
  simp only [Leads, conclude, ends_bind, ends_get, count, ends_modify]
  exact leads_told fun journal => ⟨rfl, rfl, rfl, rfl⟩

/-- A best point of the search is attained in the program that the reference stands for. -/
theorem attains_of_best (represents : Represents program settings start)
    (consistent : Consistent start state) {best : Incumbent Rat}
    (known : state.incumbent.best = some best) {stored : Problem Rat}
    (removed : stored.removed = state.problem.removed)
    (solution : stored.solution = some best.values)
    (optimum : stored.optimum = some best.objective) :
    Attains program stored best.objective := by
  obtain ⟨held, value⟩ := consistent.incumbent best known
  obtain ⟨x, satisfied, worth, integral, replayed⟩ := represents.reduces.back _ held.toSatisfies
  refine ⟨optimum, best.values, x, solution, ?_, ⟨satisfied, integral held.integral⟩,
    worth.trans value.symm⟩
  rw [removed, consistent.alike.removed, replayed]
  rfl

/-- With an empty pool and no depth limit, only an overlooked node hides a better point. -/
theorem Covered.exhausted (covered : Covered clock problem look start state)
    (empty : state.pool = []) (shallow : state.depthLimited = false)
    (split : ¬ Overlooks clock problem) {x : List Rat} (held : start.reference.Feasible x) :
    ¬ Better state.incumbent (start.reference.objectiveValue x) := by
  intro better
  rcases covered.better x held better with ⟨node, member, -⟩ | ⟨-, overlooked | deep⟩
  · rw [empty] at member
    cases member
  · exact split overlooked
  · rw [shallow] at deep
    cases deep

/-- Only an empty pool without a best point is called infeasible. -/
theorem finalStatus_infeasible {limit : Option SolveStatus}
    (stops : ∀ status, limit = some status → MayStop state status)
    (infeasible : finalStatus state limit = .infeasible) :
    limit = none ∧ state.depthLimited = false ∧ state.incumbent.best = none := by
  cases limit with
  | some status =>
    obtain rfl : status = .infeasible := infeasible
    rcases stops _ rfl with limited | ⟨closed, -⟩
    · cases limited
    · cases closed
  | none =>
    simp only [finalStatus] at infeasible
    split_ifs at infeasible with deep found
    exact ⟨rfl, by simpa using deep, by simpa using found⟩

/-- A search never ends unbounded. -/
theorem finalStatus_ne_unbounded {limit : Option SolveStatus}
    (stops : ∀ status, limit = some status → MayStop state status) :
    finalStatus state limit ≠ .unbounded := by
  intro unbounded
  cases limit with
  | some status =>
    obtain rfl : status = .unbounded := unbounded
    rcases stops _ rfl with limited | ⟨closed, -⟩
    · cases limited
    · cases closed
  | none =>
    simp only [finalStatus] at unbounded
    split_ifs at unbounded

/-- An optimum is the best point of a search that ended on a closed gap or an empty pool. -/
theorem finalStatus_optimal {limit : Option SolveStatus}
    (stops : ∀ status, limit = some status → MayStop state status)
    (optimal : finalStatus state limit = .optimal) :
    (∃ best, state.incumbent.best = some best) ∧
      (limit = some .optimal ∨ (limit = none ∧ state.depthLimited = false)) := by
  cases limit with
  | some status =>
    obtain rfl : status = .optimal := optimal
    rcases stops _ rfl with limited | ⟨-, found⟩
    · cases limited
    · exact ⟨Option.isSome_iff_exists.mp found, .inl rfl⟩
  | none =>
    simp only [finalStatus] at optimal
    split_ifs at optimal with deep found
    exact ⟨Option.isSome_iff_exists.mp found, .inr ⟨rfl, by simpa using deep⟩⟩

/-- The answer of a search, read off its last step. -/
theorem answers_of_last (represents : Represents program settings start)
    (covered : Covered clock problem look start state) (head : Heads clock problem look state)
    {limit : Option SolveStatus}
    (stepped : (advance (clock look)).run state = .ok (lastProgress limit) final)
    {stored : Problem Rat} (recorded : stored.status = some (finalStatus final limit))
    (removed : stored.removed = final.problem.removed)
    (solution : stored.solution =
      (final.incumbent.best.map (·.values)).or final.problem.solution)
    (optimum : stored.optimum =
      (final.incumbent.best.map (·.objective)).or final.problem.optimum) :
    Answers clock problem program (finalStatus final limit) stored := by
  have steps := (advance_steps represents.form covered.consistent _).ok_of_run stepped
  have last := covered.step represents.form head stepped
  have alike := last.consistent.alike
  rw [alike.solution, represents.blank.1, Option.or_none] at solution
  rw [alike.optimum, represents.blank.2, Option.or_none] at optimum
  have attained : ∀ best, final.incumbent.best = some best →
      Attains program stored best.objective := by
    intro best known
    rw [known] at solution optimum
    exact attains_of_best represents last.consistent known removed solution optimum
  have stops : ∀ status, limit = some status → MayStop final status := by
    rintro status rfl
    exact steps.stops status rfl
  refine ⟨recorded, ?_, fun infeasible split => ?_,
    fun unbounded => absurd unbounded (finalStatus_ne_unbounded stops), fun optimal => ?_⟩
  · cases known : final.incumbent.best with
    | none =>
      rw [known] at solution optimum
      exact .inl ⟨solution, optimum⟩
    | some best => exact .inr ⟨_, attained best known⟩
  · obtain ⟨rfl, shallow, unknown⟩ := finalStatus_infeasible stops infeasible
    have means : Presolve.Verdict.infeasible.Means start.reference := by
      intro x held
      refine last.exhausted (steps.done rfl) shallow split held fun best known => ?_
      rw [unknown] at known
      cases known
    exact represents.reduces.means means
  · obtain ⟨⟨best, known⟩, ended⟩ := finalStatus_optimal stops optimal
    refine ⟨best.objective, attained best known, fun split unclosed y held => ?_⟩
    rcases ended with rfl | ⟨rfl, shallow⟩
    · exact absurd ⟨look, state, final, head, stepped⟩ unclosed
    · obtain ⟨x, heldX, below⟩ := represents.reduces.forth y held
      refine le_trans (not_lt.mp fun better => ?_) below
      refine last.exhausted (steps.done rfl) shallow split heldX fun other again => ?_
      obtain rfl := Option.some.inj (known.symm.trans again)
      exact better

end

/-- Wherever a search ends, closing it gives an answer. -/
theorem conclude_answers {program : Program Rat} {settings : Settings} {problem : Problem Rat}
    (made : Problem.ofProgram program settings = .ok problem) (structural : program.Structural)
    {clock : Clock.Readings} {look : Nat} {state final : State Rat} {limit : Option SolveStatus}
    (head : Heads clock problem look state)
    (stepped : (advance (clock look)).run state = .ok (lastProgress limit) final) :
    Leads (conclude limit >>= settle) final fun status closed =>
      Answers clock problem program status closed.problem := by
  obtain ⟨start, represents, covered⟩ := covered_of_heads made structural head
  simp only [Leads, ends_bind]
  refine (conclude_stores limit).mono (fun status closed stores => ?_) fun _ _ => id
  obtain ⟨rfl, removed, solution, optimum⟩ := stores
  simp only [settle, ends_bind, ends_modify, ends_pure]
  exact answers_of_last represents covered head stepped rfl removed solution optimum

/-! ### The whole solve -/

/-- A search is given at least the steps that a 64-bit counter counts. -/
theorem le_stepBound (program : Program Rat) : 2 ^ 64 ≤ stepBound program := by
  unfold stepBound
  exact Nat.le_add_left _ _

/-- Every solve that ends gives an answer about the program it was given. Where no reports are
asked for, it fails only for making more steps than a 64-bit counter counts. -/
theorem solve_answers {program : Program Rat} {settings : Settings} {problem : Problem Rat}
    (made : Problem.ofProgram program settings = .ok problem) (structural : program.Structural)
    (clock : Clock.Readings) : Ends (solve clock) { problem }
      (fun status final => Answers clock problem program status final.problem)
      fun cause _ => settings.verbose = false → cause = .fault .unsettled ∧
        ∃ look state, 2 ^ 64 ≤ look ∧ Heads clock problem look state := by
  obtain ⟨result, prepared, began, prepares⟩ := (prepare_prepares made structural).exists_ok
  rw [solve, ends_bind, ends_iff_of_ok began]
  cases result with
  | some status =>
    obtain ⟨reports, concludes⟩ := prepares.ended status rfl
    simp only [settle, ends_bind, ends_modify, ends_pure]
    refine ⟨rfl, reports, ?_, ?_, ?_⟩
    · rintro rfl -
      exact concludes
    · rintro rfl
      exact concludes
    · rintro rfl
      obtain ⟨value, attains, least⟩ := concludes
      exact ⟨value, attains, fun _ _ => least⟩
  | none =>
    simp only [ends_bind, ends_get]
    cases looped : (loop clock (stepBound prepared.problem.working) 0).run prepared with
    | error cause reached =>
      rw [ends_iff_of_error looped]
      intro quiet
      obtain ⟨unsettled, head⟩ := loop_fails
        (fun _ _ head => exists_advance_ok made structural quiet head _) (.first began) looped
      refine ⟨unsettled, _, reached, ?_, head⟩
      rw [Nat.zero_add]
      exact le_stepBound _
    | ok limit stopped =>
      rw [ends_iff_of_ok looped]
      obtain ⟨last, before, head, stepped⟩ := loop_last (.first began) looped
      rw [← ends_bind]
      exact (conclude_answers made structural head stepped).mono (fun _ _ => id)
        fun _ _ => False.elim

end MixedInteger.Search
