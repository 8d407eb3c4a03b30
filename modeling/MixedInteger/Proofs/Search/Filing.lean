import MixedInteger.Proofs.Search.Children
import MixedInteger.Proofs.Search.Relaxation
import MixedInteger.Proofs.Search.Repair
import MixedInteger.Proofs.Search.WorkingForm

/-! What the parts of a search do to the points still to be found. A point is open when some
node of the pool holds its image and does not promise more than its objective. Steps advance
the search and do not fail: the best point only improves, and an open point stays open as long
as it beats the best one. Filing a solved child opens every point of the child that beats the
best; the point of an integral child passes the audit. -/
namespace MixedInteger.Search

/-! ### Where a computation leads -/

/-- A computation does not fail, and this holds of its value and state. -/
abbrev Leads {β : Type} (run : SearchM Rat β) (state : State Rat)
    (ok : β → State Rat → Prop) : Prop :=
  Ends run state ok fun _ _ => False

section

variable {β : Type} {state : State Rat}

theorem ends_perform {run : Run β} {value : β} (known : run.outcome = .ok value)
    (ok : β → State Rat → Prop) (failed : Failure → State Rat → Prop) :
    Ends (perform run) state ok failed ↔
      ok value { state with journal := state.journal ++ run.journal } := by
  simp only [perform, ends_bind, ends_modify, known]
  rfl

/-- A message on the way, left or not, leads to the same end. -/
theorem leads_told {told : Prop} [Decidable told] {severity : Severity} {text : String}
    {rest : SearchM Rat β} {ok : β → State Rat → Prop}
    (leads : ∀ journal, Leads rest { state with journal } ok) :
    Leads (if told then say severity text >>= fun _ => rest else rest) state ok := by
  split
  · simp only [Leads, say, ends_bind]
    exact (ends_perform rfl _ _).mpr (leads _)
  · exact leads state.journal

end

/-! ### Steps that leave the tree alone -/

/-- The same tree, up to branching costs, counters, messages and budget. That a child was
skipped is not forgotten. -/
structure Unmoved (state next : State Rat) : Prop where
  problem : state.problem.Alike next.problem
  pool : next.pool = state.pool
  incumbent : next.incumbent = state.incumbent
  skipped : state.depthLimited = true → next.depthLimited = true

namespace Unmoved

variable {first second third : State Rat}

theorem refl (state : State Rat) : Unmoved state state := ⟨.refl _, rfl, rfl, id⟩

theorem trans (left : Unmoved first second) (right : Unmoved second third) : Unmoved first third :=
  ⟨left.problem.trans right.problem, right.pool.trans left.pool,
    right.incumbent.trans left.incumbent, fun before => right.skipped (left.skipped before)⟩

end Unmoved

section

variable {β : Type} {state : State Rat}

theorem perform_unmoved {run : Run β} {value : β} (known : run.outcome = .ok value) :
    Leads (perform run) state fun result next => Unmoved state next ∧ result = value :=
  (ends_perform known _ _).mpr ⟨⟨.refl _, rfl, rfl, id⟩, rfl⟩

theorem guard_unmoved {calculation : Except Fault β} {value : β} (known : calculation = .ok value) :
    Leads (perform (Run.guard calculation)) state fun result next =>
      Unmoved state next ∧ result = value :=
  perform_unmoved (Run.outcome_guard_iff.mpr known)

theorem say_unmoved (severity : Severity) (text : String) :
    Leads (say severity text) state fun _ next => Unmoved state next :=
  (perform_unmoved rfl).mono (fun _ _ ends => ends.1) fun _ _ => id

theorem count_unmoved (change : Stats → Stats) :
    Leads (count change) state fun _ next => Unmoved state next :=
  ⟨⟨rfl, rfl, rfl, rfl, rfl, rfl, rfl, rfl, rfl, rfl, rfl⟩, rfl, rfl, id⟩

/-- Branching costs are no part of what a column means. -/
theorem observe_unmoved (column : Nat) (direction : Direction) (loss distance : Binary64) :
    Leads (observe column direction loss distance) state fun _ next => Unmoved state next := by
  have core : ∀ data : Column Rat, (data.observe loss distance direction).core = data.core := by
    intro data
    cases direction <;> rfl
  refine ⟨⟨rfl, rfl, rfl, rfl, rfl, rfl, rfl, rfl, ?_, rfl, rfl⟩, rfl, rfl, id⟩
  refine List.ext_getElem? fun place => ?_
  simp only [List.getElem?_map, List.getElem?_modify]
  cases state.problem.working.columns[place]? with
  | none => rfl
  | some data =>
    by_cases here : column = place
    · simp [here, core]
    · simp [here]

/-- Solving a node changes nothing but the budget. -/
theorem solveNode_unmoved {node : Node Rat} {right : Relaxed Rat → Prop}
    (relaxes : (relax (.ofSettings state.problem.settings) state.problem.working node
      state.budget).Gives right) :
    Leads (solveNode node) state fun value next => Unmoved state next ∧
      ∃ relaxed, value = (relaxed.status, relaxed.node) ∧ right relaxed := by
  obtain ⟨relaxed, ran, held⟩ := relaxes
  simp only [Leads, solveNode, ends_bind, ends_get]
  refine (perform_unmoved ran).mono (fun result reached ends => ?_) fun _ _ => id
  obtain ⟨quiet, rfl⟩ := ends
  simp only [ends_modify, ends_pure]
  exact ⟨quiet.trans ⟨.refl _, rfl, rfl, id⟩, result, rfl, held⟩

/-- Reports are asked for at a frequency whose interval is no time span. -/
structure ReportFails (settings : Settings) (cause : Failure) : Prop where
  verbose : settings.verbose = true
  interval : Clock.reportInterval settings.reportFrequency = .error .spanOverflow
  cause : cause = .fault .spanOverflow

theorem interval_of_reportDue {since : Nat} {frequency : Binary64} {cause : Fault}
    (failed : Clock.reportDue since frequency = .error cause) :
    Clock.reportInterval frequency = .error .spanOverflow ∧ cause = .spanOverflow := by
  have overflow : ∀ other, Clock.reportInterval frequency = .error other → other = .spanOverflow := by
    intro other interval
    unfold Clock.reportInterval at interval
    dsimp only at interval
    split at interval
    · cases interval
    · split at interval
      · exact (Except.error.inj interval).symm
      · cases interval
  unfold Clock.reportDue at failed
  cases interval : Clock.reportInterval frequency with
  | ok span =>
    rw [interval] at failed
    cases failed
  | error other =>
    rw [interval] at failed
    obtain rfl := Except.error.inj failed
    obtain rfl := overflow other interval
    exact ⟨rfl, rfl⟩

/-- A report changes nothing. It fails only where reports are asked for, at a frequency whose
interval is no time span. -/
theorem reportProgress_unmoved (elapsed : Nat) :
    Ends (reportProgress elapsed) state (fun _ next => Unmoved state next)
      fun cause _ => ReportFails state.problem.settings cause := by
  simp only [reportProgress, ends_bind, ends_get]
  cases verbose : state.problem.settings.verbose with
  | false => exact Unmoved.refl state
  | true =>
    simp only [Bool.not_true, Bool.false_eq_true, ↓reduceIte, ends_bind]
    cases known : Clock.reportDue (elapsed - state.lastReport)
        state.problem.settings.reportFrequency with
    | error cause =>
      obtain ⟨interval, rfl⟩ := interval_of_reportDue known
      exact ⟨verbose, interval, rfl⟩
    | ok due =>
      rw [ends_perform (Run.outcome_guard_iff.mpr rfl)]
      split
      · exact ⟨.refl _, rfl, rfl, id⟩
      · simp only [ends_bind, ends_set]
        refine (say_unmoved _ _).mono (fun _ last quiet => ?_) fun _ _ => False.elim
        exact Unmoved.trans
          (⟨.refl _, rfl, rfl, id⟩ : Unmoved state { state with lastReport := elapsed }) quiet

end

/-! ### The best point -/

/-- A value below that of the best point, any value if there is none. -/
def Better (tracker : IncumbentTracker Rat) (value : Rat) : Prop :=
  ∀ best, tracker.best = some best → value < best.objective

theorem dominates_eq_false_iff (tracker : IncumbentTracker Rat) (value : Rat) :
    tracker.dominates value = false ↔ Better tracker value := by
  unfold IncumbentTracker.dominates Better
  cases tracker.best with
  | none => simp
  | some best => simp

/-- A value that is not below a dominated one is no better. -/
theorem not_better_of_dominates {tracker : IncumbentTracker Rat} {value other : Rat}
    (dominated : tracker.dominates value = true) (above : value ≤ other) :
    ¬ Better tracker other := by
  intro better
  have free : tracker.dominates value = false :=
    (dominates_eq_false_iff tracker value).mpr fun best known =>
      above.trans_lt (better best known)
  rw [free] at dominated
  cases dominated

/-- After an update, a better value beats both the old point and the new one. -/
theorem better_update_iff (tracker : IncumbentTracker Rat) (values : List Rat)
    (objective value : Rat) : Better (tracker.update values objective) value ↔
      Better tracker value ∧ value < objective := by
  cases dominated : tracker.dominates objective with
  | true =>
    rw [show tracker.update values objective = tracker by simp [IncumbentTracker.update, dominated]]
    refine ⟨fun better => ⟨better, not_le.mp fun above => ?_⟩, And.left⟩
    exact not_better_of_dominates dominated above better
  | false =>
    have beaten := (dominates_eq_false_iff tracker objective).mp dominated
    simp only [IncumbentTracker.update, dominated, Bool.false_eq_true, ↓reduceIte]
    constructor
    · intro better
      have below := better _ rfl
      exact ⟨fun best known => below.trans (beaten best known), below⟩
    · rintro ⟨-, below⟩ best known
      obtain rfl := Option.some.inj known
      exact below

/-! ### Open points -/

/-- Some node holds the image of a point and promises no more than the point's objective. -/
def Open (start : Problem Rat) (pool : Pool Rat) (x : List Rat) : Prop :=
  ∃ node ∈ pool, Within node.ranges (start.image x) ∧
    node.optimum ≤ start.reference.objectiveValue x

/-- A solved node over the columns of the working program: no range is wider than that of its
column, integral columns have integral bounds and are the only candidates for branching, and the
node's point is one of the working program inside the node, fractional at every candidate and
integral off the slacks if there is none. -/
structure Node.Fits (start : Problem Rat) (node : Node Rat) : Prop where
  length : node.ranges.length = start.working.columns.length
  whole : WholeRanges start.working.columns node.ranges
  narrows : Narrows start.working.columns node.ranges
  candidates : Candidates start.working.columns node
  satisfied : start.working.Satisfies node.solution
  inside : Within node.ranges node.solution
  sharp : ∀ index, node.Proposes index →
    index ∈ fractionalColumns start.working.columns node.solution
  settled : node.isIntegral = true → start.working.IntegralOffSlacks node.solution

/-- A state of the search over a prepared problem: its nodes fit, and its best point is
feasible and has the stored objective. -/
structure Consistent (start : Problem Rat) (state : State Rat) : Prop where
  alike : start.Alike state.problem
  incumbent : ∀ best, state.incumbent.best = some best →
    start.reference.Feasible best.values ∧
      best.objective = start.reference.objectiveValue best.values
  nodes : ∀ node ∈ state.pool, node.Fits start

/-- What a part of the search may do: the state stays consistent, the best point only
improves, and open points stay open while they are better. -/
structure Advances (start : Problem Rat) (state next : State Rat) : Prop where
  consistent : Consistent start next
  improves : ∀ value, Better next.incumbent value → Better state.incumbent value
  keeps : ∀ x, Better next.incumbent (start.reference.objectiveValue x) →
    Open start state.pool x → Open start next.pool x
  skipped : state.depthLimited = true → next.depthLimited = true

namespace Advances

variable {start : Problem Rat} {first second third : State Rat}

theorem refl (consistent : Consistent start first) : Advances start first first :=
  ⟨consistent, fun _ => id, fun _ _ => id, id⟩

theorem trans (left : Advances start first second) (right : Advances start second third) :
    Advances start first third := by
  refine ⟨right.consistent, fun value better => left.improves value (right.improves value better),
    fun x better before => ?_, fun before => right.skipped (left.skipped before)⟩
  exact right.keeps x better (left.keeps x (right.improves _ better) before)

theorem of_unmoved (consistent : Consistent start first) (unmoved : Unmoved first second) :
    Advances start first second := by
  refine ⟨⟨consistent.alike.trans unmoved.problem, ?_, ?_⟩, ?_, ?_, unmoved.skipped⟩
  · rw [unmoved.incumbent]
    exact consistent.incumbent
  · rw [unmoved.pool]
    exact consistent.nodes
  · rw [unmoved.incumbent]
    exact fun _ => id
  · rw [unmoved.pool]
    exact fun _ _ => id

theorem then_unmoved (advances : Advances start first second) (unmoved : Unmoved second third) :
    Advances start first third :=
  advances.trans (of_unmoved advances.consistent unmoved)

end Advances

section Steps

variable {start : Problem Rat} {state : State Rat}

theorem Open.append {pool : Pool Rat} {x : List Rat} (opened : Open start pool x)
    (more : Pool Rat) : Open start (pool ++ more) x := by
  obtain ⟨node, member, inside⟩ := opened
  exact ⟨node, List.mem_append_left more member, inside⟩

/-- A node joins the pool. -/
theorem advances_push (consistent : Consistent start state) {node : Node Rat}
    (fits : node.Fits start) : Advances start state { state with pool := state.pool ++ [node] } := by
  refine ⟨⟨consistent.alike, consistent.incumbent, fun other member => ?_⟩, fun _ => id,
    fun x _ before => before.append [node], id⟩
  rcases List.mem_append.mp member with old | new
  · exact consistent.nodes other old
  · obtain rfl := List.mem_singleton.mp new
    exact fits

/-- A feasible point is offered at its objective. -/
theorem offer_advances (consistent : Consistent start state) {values : List Rat} {objective : Rat}
    (held : start.reference.Feasible values)
    (value : objective = start.reference.objectiveValue values) :
    Leads (offer values objective) state fun _ next => Advances start state next ∧
      ∀ other, Better next.incumbent other → other < objective := by
  have updated : Advances start state
      { state with incumbent := state.incumbent.update values objective } := by
    refine ⟨⟨consistent.alike, fun best known => ?_, consistent.nodes⟩, fun other better => ?_,
      fun _ _ => id, id⟩
    · dsimp only at known
      unfold IncumbentTracker.update at known
      split at known
      · exact consistent.incumbent best known
      · obtain rfl := Option.some.inj known
        exact ⟨held, value⟩
    · exact ((better_update_iff _ _ _ _).mp better).1
  have below : ∀ other, Better (state.incumbent.update values objective) other →
      other < objective := fun other better => ((better_update_iff _ _ _ _).mp better).2
  simp only [Leads, offer, ends_bind, ends_get]
  cases dominated : state.incumbent.dominates objective with
  | true =>
    rw [show state.incumbent.update values objective = state.incumbent by
      simp [IncumbentTracker.update, dominated]] at below
    exact ⟨.refl consistent, below⟩
  | false =>
    simp only [Bool.false_eq_true, ↓reduceIte, ends_bind, ends_set]
    refine leads_told fun journal => ?_
    exact ⟨updated.then_unmoved ⟨.refl _, rfl, rfl, id⟩, below⟩

/-- A feasible point passes the audit. -/
theorem audit_eq_none {problem : Problem Rat} {values : List Rat}
    (frozen : problem.frozen = problem.reference.rows)
    (held : problem.reference.Feasible values) : problem.audit values = none := by
  have rows : firstViolated problem.frozen values = none := by
    have noTolerance : (Scalar.tolerance : Rat) = 0 := rfl
    rw [firstViolated, List.findIdx?_eq_none_iff, frozen]
    intro row member
    simp only [Bool.not_eq_false', Row.holdsScaled, noTolerance, zero_mul,
      Relation.holdsWithin_zero_iff, Row.activity]
    exact held.rows row member
  unfold Problem.audit
  rw [rows]
  dsimp only
  rw [Option.map_eq_none_iff, List.findIdx?_eq_none_iff]
  rintro ⟨column, value⟩ member
  obtain ⟨index, found⟩ := List.mem_iff_getElem?.mp member
  obtain ⟨known, there⟩ := List.getElem?_zip_eq_some.mp found
  have inside := held.ranges index column known
  have whole := held.integral index column known
  rw [List.getD_eq_getElem?_getD, there, Option.getD_some] at inside whole
  simp only [Bool.or_eq_false_iff, Bool.not_eq_false', Range.contains_iff,
    Bool.and_eq_false_imp, Scalar.isIntegral_iff]
  exact ⟨inside, whole⟩

/-- The point of an integral node passes the check and is offered at the node's optimum. -/
theorem accept_advances (form : start.InWorkingForm) (consistent : Consistent start state)
    {node : Node Rat} (fits : node.Fits start) (integral : node.isIntegral = true)
    (value : start.working.objectiveValue node.solution = node.optimum) :
    Leads (accept node) state fun _ next => Advances start state next ∧
      ∀ other, Better next.incumbent other → other < node.optimum := by
  have alike := consistent.alike
  obtain ⟨point, read, -, objective, feasible⟩ :=
    form.structural node.solution fits.satisfied.length
  have held := feasible fits.satisfied (fits.settled integral)
  have passed : state.problem.audit point = none :=
    audit_eq_none (alike.inWorkingForm form).frozen (alike.reference ▸ held)
  simp only [Leads, accept, ends_bind, ends_get]
  refine (guard_unmoved ((alike.toStructural_eq _).trans read)).mono
    (fun values reached ends => ?_) fun _ _ => id
  obtain ⟨quiet, rfl⟩ := ends
  rw [passed]
  have stored : state.problem.structuralObjective values = node.optimum := by
    rw [Problem.structuralObjective, alike.reference, objective, value]
  have moved := Advances.of_unmoved consistent quiet
  dsimp only
  rw [stored]
  refine (offer_advances moved.consistent held (by rw [objective, value])).mono
    (fun _ next ends => ?_) fun _ _ => id
  exact ⟨moved.trans ends.1, ends.2⟩

/-- The heuristic offers feasible points only. -/
theorem tryHeuristic_advances (form : start.InWorkingForm) (consistent : Consistent start state)
    {node : Node Rat} (length : node.solution.length = start.working.columns.length) :
    Leads (tryHeuristic node) state fun _ next => Advances start state next := by
  have alike := consistent.alike
  obtain ⟨point, read, size, -⟩ := form.structural node.solution length
  obtain ⟨found, repaired⟩ := Rounding.exists_roundAndRepair_ok size
  simp only [Leads, tryHeuristic, ends_bind, ends_get]
  split
  · exact .refl consistent
  · simp only [ends_bind]
    refine (guard_unmoved ((alike.toStructural_eq _).trans read)).mono
      (fun values reached ends => ?_) fun _ _ => id
    obtain ⟨quiet, rfl⟩ := ends
    refine (guard_unmoved ((congrArg (Rounding.roundAndRepair · values) alike.reference).trans
      repaired)).mono (fun result later ends => ?_) fun _ _ => id
    obtain ⟨still, rfl⟩ := ends
    have moved := Advances.of_unmoved consistent (quiet.trans still)
    cases result with
    | none => exact moved
    | some repair =>
      have held := Rounding.roundAndRepair_feasible form.referenceBounds size repaired
      simp only [ends_bind]
      refine (offer_advances moved.consistent held ?_).mono (fun improved next ends => ?_)
        fun _ _ => id
      · rw [Problem.structuralObjective, alike.reference]
      · have offered := moved.trans ends.1
        split
        · simp only [ends_bind]
          refine (count_unmoved _).mono (fun _ last counted => ?_) fun _ _ => id
          exact offered.then_unmoved counted
        · exact offered

/-- A solved child is kept, dominated or offered: every better point in it is open
afterwards. -/
theorem file_advances (form : start.InWorkingForm) (consistent : Consistent start state)
    {child : Node Rat} (fits : child.Fits start)
    (value : start.working.objectiveValue child.solution = child.optimum) :
    Leads (file child) state fun _ next => Advances start state next ∧
      ∀ x, Better next.incumbent (start.reference.objectiveValue x) →
        Within child.ranges (start.image x) → child.optimum ≤ start.reference.objectiveValue x →
        Open start next.pool x := by
  simp only [Leads, file, ends_bind, ends_get]
  split
  · rename_i dominated
    simp only [ends_bind]
    refine (count_unmoved _).mono (fun _ next quiet => ?_) fun _ _ => id
    refine ⟨.of_unmoved consistent quiet, fun x better _ above => ?_⟩
    rw [quiet.incumbent] at better
    exact absurd better (not_better_of_dominates dominated above)
  · split
    · rename_i integral
      refine (accept_advances form consistent fits integral value).mono (fun _ next ends => ?_)
        fun _ _ => id
      exact ⟨ends.1, fun x better _ above => absurd (ends.2 _ better) (not_lt.mpr above)⟩
    · simp only [ends_bind]
      refine (tryHeuristic_advances form consistent fits.satisfied.length).mono
        (fun _ middle advances => ?_) fun _ _ => id
      simp only [ends_get]
      split
      · rename_i dominated
        simp only [ends_bind]
        refine (count_unmoved _).mono (fun _ next quiet => ?_) fun _ _ => id
        refine ⟨advances.then_unmoved quiet, fun x better _ above => ?_⟩
        rw [quiet.incumbent] at better
        exact absurd better (not_better_of_dominates dominated above)
      · simp only [ends_bind, ends_modify]
        refine ⟨advances.trans (advances_push advances.consistent fits), fun x _ inside below => ?_⟩
        exact ⟨child, List.mem_append_right _ List.mem_cons_self, inside, below⟩

end Steps

end MixedInteger.Search
