import MixedInteger.Proofs.Search.Expansion

/-! What a step of the search does to the pool. A step that goes on takes one node out and puts at
most its two children in, each with the ranges that branching gave it; everything else a step does
leaves the pool alone or drops nodes from it. This holds of every step that does not fail, over
whatever program the search runs. -/
namespace MixedInteger.Search

/-! ### Parts of a step that leave the pool alone -/

/-- A computation keeps the pool, if it does not fail. -/
def Spares {β : Type} (run : SearchM Rat β) : Prop :=
  ∀ state, Ends run state (fun _ next => next.pool = state.pool) fun _ _ => True

section

variable {β γ : Type} {state : State Rat}

theorem Spares.bind {first : SearchM Rat β} {next : β → SearchM Rat γ} (left : Spares first)
    (right : ∀ value, Spares (next value)) : Spares (first >>= next) := by
  intro state
  rw [ends_bind]
  refine (left state).mono (fun value reached kept => ?_) fun _ _ => id
  refine (right value reached).mono (fun _ last still => ?_) fun _ _ => id
  exact still.trans kept

theorem spares_pure (value : β) : Spares (pure value : SearchM Rat β) := fun _ => rfl

theorem spares_perform (run : Run β) : Spares (perform run) := by
  intro state
  simp only [perform, ends_bind, ends_modify]
  split
  · exact rfl
  · trivial

/-- A calculation that does not fail gives its value and keeps the pool. -/
theorem guard_spares (calculation : Except Fault β) : Ends (perform (Run.guard calculation)) state
    (fun value next => calculation = .ok value ∧ next.pool = state.pool) fun _ _ => True := by
  cases calculation with
  | error cause => trivial
  | ok value =>
    rw [ends_perform (Run.outcome_guard_iff.mpr rfl)]
    exact ⟨rfl, rfl⟩

theorem spares_count (change : Stats → Stats) : Spares (count change) := fun _ => rfl

theorem spares_observe (column : Nat) (direction : Direction) (loss distance : Binary64) :
    Spares (observe column direction loss distance) := fun _ => rfl

theorem spares_offer (values : List Rat) (objective : Rat) : Spares (offer values objective) := by
  intro state
  simp only [offer, ends_bind, ends_get]
  split
  · exact rfl
  · simp only [ends_bind, ends_set]
    split
    · simp only [ends_bind]
      exact (spares_perform _ _).mono (fun _ _ => id) fun _ _ => id
    · exact rfl

theorem spares_accept (node : Node Rat) : Spares (accept node) := by
  intro state
  simp only [accept, ends_bind, ends_get]
  refine (spares_perform _ state).mono (fun values reached kept => ?_) fun _ _ => id
  split
  · trivial
  · exact (spares_offer _ _ reached).mono (fun _ _ still => still.trans kept) fun _ _ => id

theorem spares_tryHeuristic (node : Node Rat) : Spares (tryHeuristic node) := by
  intro state
  simp only [tryHeuristic, ends_bind, ends_get]
  split
  · exact rfl
  · refine (Spares.bind (spares_perform _) fun values => ?_) state
    apply (spares_perform _).bind
    intro found
    cases found with
    | none => exact spares_pure false
    | some repaired =>
      apply (spares_offer _ _).bind
      intro improved
      split
      · exact (spares_count _).bind fun _ => spares_pure improved
      · exact spares_pure improved

theorem spares_skipDeep (limit : Nat) : Spares (skipDeep limit) := by
  intro state
  exact (skipDeep_unmoved limit).mono (fun _ _ ends => ends.1.pool) fun _ _ _ => trivial

/-- A node that is solved keeps its ranges. -/
theorem solveNode_ranges (node : Node Rat) : Ends (solveNode node) state
    (fun value next => next.pool = state.pool ∧ value.2.ranges = node.ranges) fun _ _ => True := by
  simp only [solveNode, ends_bind, ends_get]
  cases ran : (relax (.ofSettings state.problem.settings) state.problem.working node
      state.budget).outcome with
  | error cause =>
    simp only [perform, ends_bind, ends_modify, ran]
    trivial
  | ok relaxed =>
    rw [ends_perform ran]
    exact ⟨rfl, (relax_leaves ran).ranges⟩

end

/-! ### Filing and branching -/

section

variable {state : State Rat} {node : Node Rat}

/-- A child joins the pool or does not. -/
theorem file_grows (child : Node Rat) : Ends (file child) state
    (fun _ next => next.pool.Sublist (state.pool ++ [child])) fun _ _ => True := by
  have kept : ∀ reached : State Rat, reached.pool = state.pool →
      reached.pool.Sublist (state.pool ++ [child]) := by
    intro reached same
    rw [same]
    exact List.sublist_append_left _ _
  simp only [file, ends_bind, ends_get]
  split
  · simp only [ends_bind]
    exact (spares_count _ state).mono (fun _ => kept) fun _ _ => id
  · split
    · exact (spares_accept child state).mono (fun _ => kept) fun _ _ => id
    · simp only [ends_bind]
      refine (spares_tryHeuristic child state).mono (fun _ tried same => ?_) fun _ _ => id
      simp only [ends_get]
      split
      · simp only [ends_bind]
        exact (spares_count _ tried).mono (fun _ next still => kept next (still.trans same))
          fun _ _ => id
      · simp only [ends_bind, ends_modify]
        show (tried.pool ++ [child]).Sublist _
        rw [same]

/-- A search begins with its root in the pool, or with nothing. -/
theorem begin_grows (root : Node Rat) : Ends (begin root) state
    (fun _ next => next.pool.Sublist (state.pool ++ [root])) fun _ _ => True := by
  simp only [begin, ends_bind, ends_modify]
  refine (spares_count _ _).mono (fun _ counted same => ?_) fun _ _ => id
  split
  · simp only [ends_bind]
    refine (spares_accept root counted).mono (fun _ next kept => ?_) fun _ _ => id
    rw [ends_pure, kept, same]
    exact List.sublist_append_left _ _
  · simp only [ends_bind]
    refine (spares_tryHeuristic root counted).mono (fun _ tried kept => ?_) fun _ _ => id
    simp only [ends_modify]
    show (tried.pool ++ [root]).Sublist _
    rw [kept, same]

/-- The pool gains at most nodes with the given ranges, and may lose others. -/
def Gains (state next : State Rat) (boxes : List (List (Range Rat))) : Prop :=
  ∃ extra : List (Node Rat), next.pool.Sublist (state.pool ++ extra) ∧
    (extra.map (·.ranges)).Sublist boxes

theorem Gains.of_sublist {next : State Rat} (fewer : next.pool.Sublist state.pool)
    (boxes : List (List (Range Rat))) : Gains state next boxes :=
  ⟨[], by simpa using fewer, List.nil_sublist _⟩

theorem Gains.trans {middle next : State Rat} {first second : List (List (Range Rat))}
    (left : Gains state middle first) (right : Gains middle next second) :
    Gains state next (first ++ second) := by
  obtain ⟨one, pool, ranges⟩ := left
  obtain ⟨two, later, others⟩ := right
  refine ⟨one ++ two, later.trans ?_, ?_⟩
  · rw [← List.append_assoc]
    exact pool.append_right two
  · rw [List.map_append]
    exact ranges.append others

/-- One side of a branch adds at most its child. -/
theorem branchOn_gains (column : Nat) (value : Rat) (part : Binary64) (direction : Direction) :
    Ends (branchOn node column value part direction) state (fun _ next => Gains state next
      [(childOn node state.problem.partner column value direction).ranges]) fun _ _ => True := by
  have kept : ∀ reached : State Rat, reached.pool = state.pool → Gains state reached
      [(childOn node state.problem.partner column value direction).ranges] := by
    intro reached same
    exact .of_sublist (same ▸ .refl _) _
  simp only [branchOn, ends_bind, ends_get]
  split
  · simp only [ends_bind]
    exact (spares_skipDeep _ state).mono (fun _ => kept) fun _ _ => id
  · simp only [ends_bind]
    refine (spares_count _ state).mono (fun _ counted same => ?_) fun _ _ => id
    refine (solveNode_ranges _).mono (fun solved relaxed ends => ?_) fun _ _ => id
    obtain ⟨status, child⟩ := solved
    obtain ⟨still, ranges⟩ := ends
    dsimp only at ranges
    dsimp only
    refine (spares_count _ relaxed).mono (fun _ tallied noted => ?_) fun _ _ => id
    have pool := noted.trans (still.trans same)
    cases status with
    | infeasible =>
      simp only [ends_bind]
      exact (spares_count _ tallied).mono (fun _ next last => kept next (last.trans pool))
        fun _ _ => id
    | iterationLimit => exact kept tallied pool
    | unbounded => trivial
    | error => trivial
    | optimal =>
      simp only [ends_bind]
      refine (spares_observe _ _ _ _ tallied).mono (fun _ observed seen => ?_) fun _ _ => id
      refine (spares_count _ observed).mono (fun _ deepened counted => ?_) fun _ _ => id
      refine (file_grows child).mono (fun _ next grown => ?_) fun _ _ => id
      refine ⟨[child], ?_, by simp [ranges]⟩
      rwa [counted, seen, pool] at grown

theorem prunePool_shrinks : Ends prunePool state
    (fun _ next => next.pool.Sublist state.pool) fun _ _ => True := by
  simp only [prunePool, ends_bind, ends_get]
  split
  · exact .refl _
  · simp only [ends_bind, ends_set]
    refine (spares_count _ _).mono (fun _ next same => ?_) fun _ _ => id
    rw [same]
    exact List.filter_sublist

/-- The boxes come from the two sides of the column chosen for branching on a node. -/
def Halves (problem : Problem Rat) (node : Node Rat) (boxes : List (List (Range Rat))) : Prop :=
  ∃ column value low high,
    selectColumn problem.settings.rule node.fractional node.mostFractional
      problem.working.columns = .ok (some column) ∧
    node.solution[column]? = some value ∧
    boxes = [(childOn node low column value .down).ranges,
      (childOn node high column value .up).ranges]

/-- The pool loses nodes, or gains at most the two children of a node. -/
def Branched (problem : Problem Rat) (node : Node Rat) (before after : List (Node Rat)) : Prop :=
  after.Sublist before ∨ ∃ boxes extra, Halves problem node boxes ∧
    after.Sublist (before ++ extra) ∧ (extra.map (·.ranges)).Sublist boxes

/-- Branching on a node adds at most its two children, as long as no limit stops it. -/
theorem branch_branched : Ends (branch node) state (fun result next => result = none →
    Branched state.problem node state.pool next.pool) fun _ _ => True := by
  simp only [branch, ends_bind, ends_get]
  refine (guard_spares _).mono (fun selected chosen ends => ?_) fun _ _ => id
  obtain ⟨choice, same⟩ := ends
  cases selected with
  | none => exact fun _ => .inl (same ▸ .refl _)
  | some column =>
    simp only [ends_bind]
    refine (guard_spares _).mono (fun value read ends => ?_) fun _ _ => id
    obtain ⟨found, still⟩ := ends
    have solved : node.solution[column]? = some value := by
      unfold inRange at found
      split at found
      · rename_i known
        rw [known, Except.ok.inj found]
      · cases found
    refine (branchOn_gains column value _ .down).mono (fun first left down => ?_) fun _ _ => id
    cases first with
    | error limit => simp
    | ok improvedDown =>
      simp only [ends_bind]
      refine (branchOn_gains column value _ .up).mono (fun second right up => ?_) fun _ _ => id
      cases second with
      | error limit => simp
      | ok improvedUp =>
        obtain ⟨extra, grown, ranges⟩ := down.trans up
        rw [still, same] at grown
        have split : ∀ last : State Rat, last.pool.Sublist right.pool →
            Branched state.problem node state.pool last.pool := fun last fewer =>
          .inr ⟨_, extra, ⟨column, value, _, _, choice, solved, rfl⟩, fewer.trans grown, ranges⟩
        dsimp only
        split
        · simp only [ends_bind]
          exact prunePool_shrinks.mono (fun _ last fewer _ => split last fewer) fun _ _ => id
        · exact fun _ => split right (.refl _)

/-- What a step that goes on does to the pool. -/
def Takes (state next : State Rat) : Prop :=
  ∃ position node, state.pool[position]? = some node ∧
    Branched state.problem node (state.pool.eraseIdx position) next.pool

theorem expandNode_takes (elapsed : Nat) : Ends (expandNode elapsed) state
    (fun progress next => progress = .more → Takes state next) fun _ _ => True := by
  simp only [expandNode, ends_bind, ends_get]
  split
  · simp
  · rename_i position selected
    split
    · trivial
    · rename_i node rest taken
      obtain ⟨same, found, pair⟩ := Option.map_eq_some_iff.mp taken
      obtain ⟨rfl, rfl⟩ := Prod.mk.inj pair
      simp only [ends_bind, ends_set]
      refine branch_branched.mono (fun result reached branched => ?_) fun _ _ => id
      cases result with
      | some limit =>
        simp only [ends_bind, ends_modify, ends_pure]
        simp
      | none =>
        simp only [ends_bind]
        refine (reportProgress_unmoved elapsed).mono (fun _ next quiet _ => ?_) fun _ _ _ => trivial
        refine ⟨position, same, found, ?_⟩
        rw [quiet.pool]
        exact branched rfl

/-- A step that goes on takes a node out of the pool and puts at most its two children in. -/
theorem advance_takes (elapsed : Nat) : Ends (advance elapsed) state
    (fun progress next => progress = .more → Takes state next) fun _ _ => True := by
  simp only [advance, ends_bind, ends_get]
  split
  · simp
  · split
    · simp
    · simp only [ends_bind, count, ends_modify]
      refine gapReached_unmoved.mono (fun result reached ends => ?_) fun _ _ => False.elim
      obtain ⟨-, going, -⟩ := ends
      cases result with
      | some status => simp
      | none =>
        obtain rfl := going rfl
        exact expandNode_takes elapsed

end

end MixedInteger.Search
