import MixedInteger.Proofs.Search.Preparation

/-! Coverage: at every head of the search loop, each point that beats the best one is open.
Its image lies in the ranges of some node of the pool, and that node promises no more than the
point has. The only points that may be missing are those of nodes that were given up. Which
node, which column and which side come first does not matter, and neither do the settings. -/
namespace MixedInteger.Search

/-- The states at the head of the search loop of a problem, by the number of steps made. -/
inductive Heads (clock : Clock.Readings) (problem : Problem Rat) : Nat → State Rat → Prop
  | first {state : State Rat} (prepared : prepare.run { problem } = .ok none state) :
      Heads clock problem 0 state
  | next {look : Nat} {state later : State Rat} (head : Heads clock problem look state)
      (stepped : (advance (clock look)).run state = .ok .more later) :
      Heads clock problem (look + 1) later

/-- A point in a node that was given up before a head. -/
def GivenUp (clock : Clock.Readings) (problem : Problem Rat) (look : Nat) (x : List Rat) : Prop :=
  ∃ earlier < look, ∃ state node, Heads clock problem earlier state ∧ state.chosen = some node ∧
    GivesUp state.problem node ∧ Within node.ranges (state.problem.image x)

/-- A step of the search takes a node from the pool for which no column is chosen. -/
def Overlooks (clock : Clock.Readings) (problem : Problem Rat) : Prop :=
  ∃ look state next node, Heads clock problem look state ∧
    (advance (clock look)).run state = .ok .more next ∧ state.chosen = some node ∧
    Unselected state.problem node

/-- The better points are open, as far as no node with them was given up. Giving up for depth
is on record. -/
structure Covered (clock : Clock.Readings) (problem : Problem Rat) (look : Nat)
    (start : Problem Rat) (state : State Rat) : Prop where
  consistent : Consistent start state
  better : ∀ x, start.reference.Feasible x →
    Better state.incumbent (start.reference.objectiveValue x) →
    Open start state.pool x ∨ (GivenUp clock problem look x ∧
      (Overlooks clock problem ∨ state.depthLimited = true))

section

variable {clock : Clock.Readings} {problem start : Problem Rat} {look : Nat}
  {state next : State Rat} {progress : Progress}

theorem GivenUp.later {x : List Rat} (lost : GivenUp clock problem look x) {after : Nat}
    (later : look ≤ after) : GivenUp clock problem after x := by
  obtain ⟨earlier, before, rest⟩ := lost
  exact ⟨earlier, before.trans_le later, rest⟩

/-- A step keeps the coverage. -/
theorem Covered.step (covered : Covered clock problem look start state)
    (form : Rooted start) (head : Heads clock problem look state)
    (stepped : (advance (clock look)).run state = .ok progress next) :
    Covered clock problem (look + 1) start next := by
  have steps := (advance_steps form covered.consistent _).ok_of_run stepped
  refine ⟨steps.consistent, fun x held better => ?_⟩
  rcases covered.better x held (steps.improves _ better) with before | ⟨lost, cause⟩
  · rcases steps.covers x held better before with after | ⟨rfl, node, chosen, given, inside⟩
    · exact .inl after
    · rw [← covered.consistent.alike.image_eq] at inside
      refine .inr ⟨⟨look, Nat.lt_succ_self look, state, node, head, chosen, given, inside⟩, ?_⟩
      refine (steps.skips rfl node chosen given).imp_left fun unselected => ?_
      exact ⟨look, state, next, node, head, stepped, chosen, unselected⟩
  · exact .inr ⟨lost.later (Nat.le_succ look), cause.imp_right steps.skipped⟩

end

section

variable {program : Program Rat} {settings : Settings} {problem : Problem Rat}
  {clock : Clock.Readings} {look : Nat} {state : State Rat}

/-- The coverage holds at every head. -/
theorem covered_of_heads (made : Problem.ofProgram program settings = .ok problem)
    (structural : program.Structural) (head : Heads clock problem look state) :
    ∃ start, Represents program settings start ∧ Covered clock problem look start state := by
  induction head with
  | first prepared =>
    obtain ⟨start, represents, consistent, covers, -⟩ :=
      ((prepare_prepares made structural).ok_of_run prepared).ready rfl
    exact ⟨start, represents, consistent, fun x held better => .inl (covers x held better)⟩
  | next head stepped ih =>
    obtain ⟨start, represents, covered⟩ := ih
    exact ⟨start, represents, covered.step represents.form head stepped⟩

/-- Where no reports are asked for, no step from a head fails. -/
theorem exists_advance_ok (made : Problem.ofProgram program settings = .ok problem)
    (structural : program.Structural) (quiet : settings.verbose = false)
    (head : Heads clock problem look state) (elapsed : Nat) :
    ∃ progress next, (advance elapsed).run state = .ok progress next := by
  obtain ⟨start, represents, covered⟩ := covered_of_heads made structural head
  have silent : start.settings.verbose = false := by rw [represents.settings, quiet]
  have steps := advance_steps represents.form covered.consistent elapsed
  obtain ⟨progress, next, stepped, -⟩ := (steps.mono (fun _ _ => id) fun _ _ fails =>
    Bool.false_ne_true (silent.symm.trans fails.verbose)).exists_ok
  exact ⟨progress, next, stepped⟩

/-- At every head of the loop, as long as every node taken from the pool was split, the best
point is feasible and has the stored objective, and each point with a better objective has its
image inside the ranges of a node whose optimum is not above that objective. -/
theorem heads_cover (made : Problem.ofProgram program settings = .ok problem)
    (structural : program.Structural) (head : Heads clock problem look state)
    (split : ∀ earlier < look, ∀ before node, Heads clock problem earlier before →
      before.chosen = some node → ¬ GivesUp before.problem node) :
    (∀ best, state.incumbent.best = some best →
      state.problem.reference.Feasible best.values ∧
        best.objective = state.problem.structuralObjective best.values) ∧
    ∀ x, state.problem.reference.Feasible x →
      (∀ best, state.incumbent.best = some best →
        state.problem.structuralObjective x < best.objective) →
      ∃ node ∈ state.pool, node.ranges.length = (state.problem.image x).length ∧
        Within node.ranges (state.problem.image x) ∧
        node.optimum ≤ state.problem.structuralObjective x := by
  obtain ⟨start, represents, covered⟩ := covered_of_heads made structural head
  have alike := covered.consistent.alike
  simp only [Problem.structuralObjective, alike.reference, alike.image_eq]
  refine ⟨covered.consistent.incumbent, fun x held better => ?_⟩
  rcases covered.better x held better with ⟨node, member, inside, below⟩ | ⟨lost, -⟩
  · have length := (represents.form.image x held).1.length
    exact ⟨node, member, (covered.consistent.nodes node member).length.trans length.symm, inside,
      below⟩
  · obtain ⟨earlier, before, former, node, past, chosen, given, -⟩ := lost
    exact absurd given (split earlier before former node past chosen)

end

/-- Minimise `-5 x - 4 y` over `6 x + 4 y ≤ 15` with `x` a free integer and `y` zero or one.
The column of `x` is split, and the root is fractional. -/
def cargo : Program Rat where
  objective := [-5, -4]
  constant := 0
  rows := [⟨[6, 4], .le, 15⟩]
  columns := [.integer .free, .integer ⟨some 0, some 1⟩]

def cargoProblem : Problem Rat where
  working := cargo
  reference := cargo
  settings := { presolve := .off, maxCuts := 0 }

/-- After one step a node is left, and whatever beats the best point is in it. -/
theorem cargo_covered : ∃ state node, Heads Clock.stopped cargoProblem 1 state ∧ state.pool = [node] ∧
    ∀ x, state.problem.reference.Feasible x →
      (∀ best, state.incumbent.best = some best →
        state.problem.structuralObjective x < best.objective) →
      Within node.ranges (state.problem.image x) := by
  have runs : (match prepare.run { problem := cargoProblem } with
      | .ok none state => (state.chosen.all fun node => !decide (GivesUp state.problem node)) &&
        match (advance 0).run state with
        | .ok .more next => next.pool.length = 1
        | _ => false
      | .ok (some _) _ => false
      | .error _ _ => false) = true := by decide +kernel
  split at runs
  · rename_i state prepared
    rw [Bool.and_eq_true] at runs
    obtain ⟨splits, rest⟩ := runs
    split at rest
    · rename_i next stepped
      obtain ⟨node, single⟩ := List.length_eq_one_iff.mp (of_decide_eq_true rest)
      have head : Heads Clock.stopped cargoProblem 1 next := .next (.first prepared) stepped
      have made : Problem.ofProgram cargo { presolve := .off, maxCuts := 0 } = .ok cargoProblem := rfl
      have structural : cargo.Structural := by simp [Program.Structural, cargo, Column.integer]
      have split : ∀ earlier < 1, ∀ before node, Heads Clock.stopped cargoProblem earlier before →
          before.chosen = some node → ¬ GivesUp before.problem node := by
        intro earlier before former other past chosen
        obtain rfl : earlier = 0 := by omega
        cases past with
        | first again =>
          obtain ⟨-, rfl⟩ := EStateM.Result.ok.inj (prepared.symm.trans again)
          simpa [chosen] using splits
      obtain ⟨-, covers⟩ := heads_cover made structural head split
      refine ⟨next, node, head, single, fun x held better => ?_⟩
      obtain ⟨other, member, -, inside, -⟩ := covers x held better
      rw [single, List.mem_singleton] at member
      exact member ▸ inside
    · cases rest
  · cases runs
  · cases runs

end MixedInteger.Search
