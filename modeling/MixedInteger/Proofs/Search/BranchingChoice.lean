import MixedInteger.Proofs.Ending
import MixedInteger.Proofs.Number.FractionWords
import MixedInteger.Proofs.Search.Children
import MixedInteger.Proofs.Search.Relaxation
import MixedInteger.Proofs.Search.Representation

/-! When a solved node has a column to branch on. A census keeps the fractional columns, the
binary64 number of each fractional part and the column nearest to one half, all from one pass.
The nearest column is missing exactly when no fractional part has a number, because its numerator
is past the finite ones. The two rules that look at it then find nothing, although the node is
fractional: the most fractional rule always, and the pseudocost rule when a candidate has no costs
yet and it falls back. Every other choice is one of the fractional columns. -/
namespace MixedInteger.Search

/-- The fractional part has a numerator past the finite binary64 numbers. -/
def Unreadable (value : Rat) : Prop := Binary64.overflow ≤ (Int.fract value).num.natAbs

/-! ### The census -/

/-- The number that a census stores for a fractional value. -/
def partOf (value : Rat) : Binary64 := nearestBinary64 (Int.fract value)

/-- The distance to one half that a census compares. -/
def distanceOf (value : Rat) : Binary64 := (partOf value - .ofFraction false 1 2).abs

theorem fract_pos {value : Rat} (fractional : ¬ Whole value) : 0 < Int.fract value := by
  refine Int.fract_pos.mpr fun same => fractional ⟨⌊value⌋, same.symm⟩

theorem not_whole_of_isFractional {entry : (Rat × Column Rat) × Nat}
    (counted : isFractional entry = true) : ¬ Whole entry.1.1 := by
  rw [← Scalar.isIntegral_iff]
  simp only [isFractional, Bool.and_eq_true, Bool.not_eq_true'] at counted
  simp [counted.2]

/-- What counting a fractional column does. -/
theorem count_eq {entry : (Rat × Column Rat) × Nat} (counted : isFractional entry = true)
    (census : Node.Census) :
    (census.count entry).fractional = census.fractional ++ [(entry.2, partOf entry.1.1)] ∧
      (census.count entry).mostFractional =
        (if distanceOf entry.1.1 < census.closest then some entry.2 else census.mostFractional) ∧
      (census.count entry).closest =
        if distanceOf entry.1.1 < census.closest then distanceOf entry.1.1 else census.closest := by
  obtain ⟨⟨value, column⟩, place⟩ := entry
  have flags : (!column.integral || column.slack || Scalar.isIntegral value) = false := by
    simp only [isFractional, Bool.and_eq_true, Bool.not_eq_true'] at counted
    simp [counted.1.1, counted.1.2, counted.2]
  have part : (Scalar.toBinary64 (Scalar.fraction value) : Binary64) = partOf value := by
    rw [Scalar.fraction_rat]
    rfl
  simp only [Node.Census.count, flags, Bool.false_eq_true, ↓reduceIte, part]
  exact ⟨trivial, rfl, rfl⟩

/-- A census stores the number of each fractional part beside its column. -/
theorem fractional_foldl_count (entries : List ((Rat × Column Rat) × Nat)) (census : Node.Census) :
    (entries.foldl Node.Census.count census).fractional = census.fractional ++
      (entries.filter isFractional).map fun entry => (entry.2, partOf entry.1.1) := by
  induction entries generalizing census with
  | nil => simp
  | cons entry entries ih =>
    rw [List.foldl_cons, ih]
    cases counted : isFractional entry with
    | false =>
      rw [count_of_not_fractional counted, List.filter_cons_of_neg (by simp [counted])]
    | true =>
      rw [(count_eq counted census).1, List.filter_cons_of_pos counted]
      simp

theorem mostFractional_foldl_ne_none {entries : List ((Rat × Column Rat) × Nat)}
    {census : Node.Census} (found : census.mostFractional ≠ none) :
    (entries.foldl Node.Census.count census).mostFractional ≠ none := by
  induction entries generalizing census with
  | nil => exact found
  | cons entry entries ih =>
    rw [List.foldl_cons]
    apply ih
    cases counted : isFractional entry with
    | false => rwa [count_of_not_fractional counted]
    | true =>
      rw [(count_eq counted census).2.1]
      split
      · simp
      · exact found

/-- A census finds no nearest column exactly when no fractional part has a number. -/
theorem mostFractional_foldl_eq_none_iff {entries : List ((Rat × Column Rat) × Nat)}
    {census : Node.Census} (unset : census.mostFractional = none)
    (far : census.closest = .infinity) :
    (entries.foldl Node.Census.count census).mostFractional = none ↔
      ∀ entry ∈ entries, isFractional entry = true → Unreadable entry.1.1 := by
  induction entries generalizing census with
  | nil => simp [unset]
  | cons entry entries ih =>
    rw [List.foldl_cons, List.forall_mem_cons]
    cases counted : isFractional entry with
    | false =>
      rw [count_of_not_fractional counted, ih unset far]
      simp
    | true =>
      have fractional := not_whole_of_isFractional counted
      obtain ⟨-, most, closest⟩ := count_eq counted census
      rw [far] at most closest
      by_cases large : Unreadable entry.1.1
      · -- The distance is no number, so that the census stays as it is.
        have never : ¬ distanceOf entry.1.1 < .infinity :=
          Binary64.not_distance_lt (fract_pos fractional) (Int.fract_lt_one _) large _
        rw [if_neg never] at most closest
        rw [ih (most.trans unset) closest]
        exact ⟨fun later => ⟨fun _ => large, later⟩, And.right⟩
      · have nearer : distanceOf entry.1.1 < .infinity :=
          Binary64.distance_lt_infinity (fract_pos fractional) (Int.fract_lt_one _)
            (Nat.not_le.mp large)
        rw [if_pos nearer] at most
        refine iff_of_false ?_ fun both => large (both.1 rfl)
        exact mostFractional_foldl_ne_none (by rw [most]; simp)

section Finish

variable (program : Program Rat) (node : Node Rat) (solution : List Rat) (optimum : Rat)

theorem mem_fractional_finish_iff {index : Nat} {part : Binary64} :
    (index, part) ∈ (node.finish program solution optimum).fractional ↔
      index ∈ fractionalColumns program.columns solution ∧
        ∃ value, solution[index]? = some value ∧ partOf value = part := by
  have listed := fractional_foldl_count (solution.zip program.columns).zipIdx {}
  have stored : (node.finish program solution optimum).fractional =
    ((solution.zip program.columns).zipIdx.foldl Node.Census.count {}).fractional := rfl
  rw [stored, listed, List.nil_append, List.mem_map, fractionalColumns]
  constructor
  · rintro ⟨entry, member, same⟩
    obtain ⟨rfl, rfl⟩ := Prod.mk.inj same
    refine ⟨List.mem_map_of_mem member, entry.1.1, ?_, rfl⟩
    have there := List.mem_zipIdx_iff_getElem?.mp (List.mem_of_mem_filter member)
    exact (List.getElem?_zip_eq_some.mp there).1
  · rintro ⟨member, value, solved, rfl⟩
    obtain ⟨entry, kept, rfl⟩ := List.mem_map.mp member
    have there := List.mem_zipIdx_iff_getElem?.mp (List.mem_of_mem_filter kept)
    have own := (List.getElem?_zip_eq_some.mp there).1
    obtain rfl := Option.some.inj (own.symm.trans solved)
    exact ⟨entry, kept, rfl⟩

theorem mostFractional_finish_eq_none_iff :
    (node.finish program solution optimum).mostFractional = none ↔
      ∀ index ∈ fractionalColumns program.columns solution, ∀ value,
        solution[index]? = some value → Unreadable value := by
  have counted : (node.finish program solution optimum).mostFractional =
    ((solution.zip program.columns).zipIdx.foldl Node.Census.count {}).mostFractional := rfl
  rw [counted, mostFractional_foldl_eq_none_iff rfl rfl, fractionalColumns]
  constructor
  · intro none index member value solved
    obtain ⟨entry, kept, rfl⟩ := List.mem_map.mp member
    obtain ⟨inside, flagged⟩ := List.mem_filter.mp kept
    have own := (List.getElem?_zip_eq_some.mp (List.mem_zipIdx_iff_getElem?.mp inside)).1
    obtain rfl := Option.some.inj (own.symm.trans solved)
    exact none entry inside flagged
  · intro none entry inside flagged
    have own := (List.getElem?_zip_eq_some.mp (List.mem_zipIdx_iff_getElem?.mp inside)).1
    exact none entry.2 (List.mem_map_of_mem (List.mem_filter.mpr ⟨inside, flagged⟩)) _ own

end Finish

/-! ### The rules -/

/-- A candidate whose fractional part has no number has no score either, once it has costs. -/
theorem isNaN_pseudocostScore {column : Column Rat} {part : Binary64} (nan : part.isNaN = true)
    (costs : column.hasCosts = true) : (pseudocostScore column part).isNaN = true := by
  have down : (part * column.downCost.average).isNaN = true := Binary64.isNaN_combine_left nan _
  have rest : (Binary64.one - part).isNaN = true := Binary64.isNaN_combine_right _ nan
  have up : ((Binary64.one - part) * column.upCost.average).isNaN = true :=
    Binary64.isNaN_combine_left rest _
  have least : ((part * column.downCost.average).min
      ((Binary64.one - part) * column.upCost.average)).isNaN = true := by
    rw [Binary64.min, if_pos down]
    exact up
  simp only [pseudocostScore, costs, Bool.not_true, Bool.false_eq_true, ↓reduceIte]
  exact Binary64.isNaN_combine_left (Binary64.isNaN_combine_right _ least) _

/-- With a column to fall back on, every candidate leads to a choice. -/
theorem bestScore_ne_none {columns : List (Column Rat)} {fallback : Nat}
    {best : Option (Nat × Binary64)} {fractional : Fractions} {choice : Option Nat}
    (ran : bestScore columns (some fallback) best fractional = .ok choice)
    (some' : best ≠ none ∨ fractional ≠ []) : choice ≠ none := by
  induction fractional generalizing best with
  | nil =>
    obtain rfl := Except.ok.inj ran
    simpa using some'
  | cons pair rest ih =>
    rw [bestScore] at ran
    split at ran
    · cases ran
    · dsimp only at ran
      split at ran
      · obtain rfl := Except.ok.inj ran
        simp
      · refine ih ran (.inl ?_)
        cases best with
        | none => simp
        | some old => split <;> simp

/-- With nothing to fall back on and no numbers, a candidate without costs leaves no choice. -/
theorem bestScore_eq_none_iff {columns : List (Column Rat)} {best : Option (Nat × Binary64)}
    {fractional : Fractions} {choice : Option Nat}
    (ran : bestScore columns none best fractional = .ok choice)
    (nan : ∀ pair ∈ fractional, pair.2.isNaN = true) :
    choice = none ↔ best = none ∧ fractional = [] ∨
      ∃ index ∈ fractional.map Prod.fst, ∃ column, columns[index]? = some column ∧
        column.hasCosts = false := by
  induction fractional generalizing best with
  | nil =>
    obtain rfl := Except.ok.inj ran
    simp
  | cons pair rest ih =>
    obtain ⟨index, part⟩ := pair
    rw [List.forall_mem_cons] at nan
    rw [bestScore] at ran
    split at ran
    · cases ran
    · rename_i column known
      dsimp only at ran
      cases costs : column.hasCosts with
      | false =>
        have zero : pseudocostScore column part = .zero := by simp [pseudocostScore, costs]
        rw [zero, if_pos (by decide)] at ran
        obtain rfl := Except.ok.inj ran
        simp [known, costs]
      | true =>
        rw [if_neg (Binary64.not_le_of_isNaN (isNaN_pseudocostScore nan.1 costs))] at ran
        rw [ih ran nan.2]
        have found : (if best.all (fun old => old.2 < pseudocostScore column part) = true then
            some (index, pseudocostScore column part) else best) ≠ none := by
          cases best with
          | none => simp
          | some old => split <;> simp
        simp [found, known, costs]

/-- The choice of a rule is lost: no candidate's fractional part has a number, and the rule looks
for the one nearest to one half. -/
def Lost (rule : BranchingRule) (columns : List (Column Rat)) (node : Node Rat) : Prop :=
  (∀ index ∈ node.fractional.map Prod.fst, ∀ value, node.solution[index]? = some value →
    Unreadable value) ∧
  (rule = .mostFractional ∨ rule = .pseudocost ∧ ∃ index ∈ node.fractional.map Prod.fst,
    ∃ column, columns[index]? = some column ∧ column.hasCosts = false)

/-- A node that holds the census of its point. -/
def Counted (working : Program Rat) (node : Node Rat) : Prop :=
  ∃ source : Node Rat, node = source.finish working node.solution node.optimum

section Choice

variable {working : Program Rat} {node : Node Rat} {columns : List (Column Rat)}
  {rule : BranchingRule} {choice : Option Nat}

theorem Counted.keys (counted : Counted working node) :
    node.fractional.map Prod.fst = fractionalColumns working.columns node.solution := by
  obtain ⟨source, finished⟩ := counted
  conv_lhs => rw [finished]
  exact fractional_finish working source _ _

theorem Counted.most_mem (counted : Counted working node) {index : Nat}
    (most : node.mostFractional = some index) : index ∈ node.fractional.map Prod.fst := by
  have proposed : node.Proposes index := .inr most
  rw [counted.keys]
  obtain ⟨source, finished⟩ := counted
  rw [finished] at proposed
  exact proposes_finish working source _ _ proposed

theorem Counted.most_eq_none_iff (counted : Counted working node) :
    node.mostFractional = none ↔ ∀ index ∈ node.fractional.map Prod.fst, ∀ value,
      node.solution[index]? = some value → Unreadable value := by
  have keys := counted.keys
  obtain ⟨source, finished⟩ := counted
  have stored := mostFractional_finish_eq_none_iff working source node.solution node.optimum
  rw [← finished, ← keys] at stored
  exact stored

/-- The candidates of an unreadable node have no numbers. -/
theorem Counted.isNaN (counted : Counted working node)
    (unreadable : ∀ index ∈ node.fractional.map Prod.fst, ∀ value,
      node.solution[index]? = some value → Unreadable value) :
    ∀ pair ∈ node.fractional, pair.2.isNaN = true := by
  have keys := counted.keys
  obtain ⟨source, finished⟩ := counted
  rintro ⟨index, part⟩ member
  rw [finished, mem_fractional_finish_iff] at member
  obtain ⟨listed, value, solved, rfl⟩ := member
  obtain ⟨_, _, own, -, -, -, fractional⟩ := mem_fractionalColumns_iff.mp listed
  obtain rfl := Option.some.inj (own.symm.trans solved)
  exact Binary64.isNaN_nearestBinary64 (fract_pos fractional) (Int.fract_lt_one _)
    (unreadable index (keys ▸ listed) _ solved)

/-- A rule leaves a node without a choice exactly when there is no candidate or its choice is
lost. -/
theorem Counted.select_eq_none_iff (counted : Counted working node)
    (ran : selectColumn rule node.fractional node.mostFractional columns = .ok choice) :
    choice = none ↔ node.isIntegral = true ∨ Lost rule columns node := by
  have integral : node.isIntegral = true ↔ node.fractional = [] := List.isEmpty_iff
  rw [integral, Lost, ← counted.most_eq_none_iff]
  cases rule with
  | firstFractional =>
    obtain rfl := Except.ok.inj ran
    simp
  | lastFractional =>
    obtain rfl := Except.ok.inj ran
    simp
  | mostFractional =>
    obtain rfl := Except.ok.inj ran
    refine ⟨fun none => .inr ⟨none, .inl rfl⟩, ?_⟩
    rintro (empty | ⟨none, -⟩)
    · rw [counted.most_eq_none_iff, empty]
      simp
    · exact none
  | pseudocost =>
    rw [selectColumn] at ran
    cases most : node.mostFractional with
    | none =>
      rw [most] at ran
      have nan := counted.isNaN (counted.most_eq_none_iff.mp most)
      rw [bestScore_eq_none_iff ran nan]
      simp
    | some nearest =>
      rw [most] at ran
      have member := counted.most_mem most
      have candidates : node.fractional ≠ [] := by
        rintro empty
        simp [empty] at member
      simp [candidates, bestScore_ne_none ran (.inr candidates)]

/-- Branching without a choice leaves the search as it is, although the node is gone. -/
theorem branch_of_select_none {state : State Rat}
    (selected : selectColumn state.problem.settings.rule node.fractional node.mostFractional
      state.problem.working.columns = .ok none) : (branch node).run state = .ok none state := by
  have unchanged : (perform (Run.guard (selectColumn state.problem.settings.rule node.fractional
      node.mostFractional state.problem.working.columns)) : SearchM Rat _).run state =
      .ok none state := by
    rw [selected]
    show EStateM.Result.ok none { state with journal := state.journal ++ [] } = _
    rw [List.append_nil]
  show (perform _ >>= _ : SearchM Rat _).run state = _
  rw [EStateM.run_bind, unchanged]
  rfl

end Choice

/-! ### Relaxed nodes -/

section Relaxed

variable {options : RelaxationOptions} {working : Program Rat} {node : Node Rat}
  {budget : Simplex.Budget} {relaxed : Relaxed Rat}

/-- An optimal relaxation leaves the census of its point, whatever program it was run on. -/
theorem relax_counted (ran : (relax options working node budget).outcome = .ok relaxed)
    (optimal : relaxed.status = .optimal) : Counted working relaxed.node := by
  obtain ⟨source, -, ⟨unsettled, -⟩ | ⟨values, optimum, left⟩⟩ := relax_leaves ran
  · exact absurd optimal unsettled
  · refine ⟨source, ?_⟩
    rw [left]
    rfl

/-- After an optimal relaxation every rule makes a choice among the fractional columns. There is
none if the node is integral, and none as well if the rule's choice is lost. -/
theorem relaxed_node_branches
    (ran : (relax options working node budget).outcome = .ok relaxed)
    (optimal : relaxed.status = .optimal) {columns : List (Column Rat)}
    (long : working.columns.length ≤ columns.length) (rule : BranchingRule) :
    ∃ choice, selectColumn rule relaxed.node.fractional relaxed.node.mostFractional columns =
        .ok choice ∧
      (∀ index, choice = some index → index ∈ relaxed.node.fractional.map Prod.fst) ∧
      (choice = none ↔ relaxed.node.isIntegral = true ∨ Lost rule columns relaxed.node) := by
  have counted := relax_counted ran optimal
  have inside : ∀ index ∈ relaxed.node.fractional.map Prod.fst, index < columns.length := by
    intro index member
    rw [counted.keys] at member
    obtain ⟨-, column, -, known, -⟩ := mem_fractionalColumns_iff.mp member
    exact (List.getElem?_eq_some_iff.mp known).1.trans_le long
  obtain ⟨choice, selected⟩ := exists_selectColumn_ok inside rule relaxed.node.mostFractional
  refine ⟨choice, selected, fun index chosen => ?_, counted.select_eq_none_iff selected⟩
  subst chosen
  exact (selectColumn_eq_ok selected).elim id counted.most_mem

end Relaxed

/-- Minimise `-x` over `(2 ^ 1024 + 1) x ≤ 2 ^ 1024` for an integer `x` from zero to ten. -/
def sliver : Program Rat where
  constant := 0
  objective := [-1]
  rows := [⟨[2 ^ 1024 + 1], .le, 2 ^ 1024⟩]
  columns := [.integer ⟨some 0, some 10⟩]

def sliverProblem : Problem Rat where
  working := sliver
  reference := sliver
  settings := {}

/-- The relaxation of `sliver` takes `x` just below one, to a fraction without a number. -/
theorem sliver_relaxed : ∃ relaxed,
    (relax ⟨false, 0, 0⟩ sliverProblem.boundBelow.addSlacks.working
      (Node.root sliverProblem.boundBelow.addSlacks.working) {}).outcome = .ok relaxed ∧
    relaxed.status = .optimal ∧ relaxed.node.fractional.map Prod.fst = [0] ∧
    ∀ value, relaxed.node.solution[0]? = some value → Unreadable value := by
  have runs : ((relax ⟨false, 0, 0⟩ sliverProblem.boundBelow.addSlacks.working
      (Node.root sliverProblem.boundBelow.addSlacks.working) {}).outcome.toOption.any fun relaxed =>
        relaxed.status = .optimal && relaxed.node.fractional.map Prod.fst = [0] &&
        (relaxed.node.solution[0]?.all fun value =>
          decide (Binary64.overflow ≤ (Int.fract value).num.natAbs))) = true := by decide +kernel
  obtain ⟨relaxed, ran, checked⟩ := exists_ok_of_any runs
  simp only [Bool.and_eq_true, decide_eq_true_eq] at checked
  obtain ⟨⟨optimal, keys⟩, large⟩ := checked
  refine ⟨relaxed, ran, optimal, keys, fun value solved => ?_⟩
  rw [solved] at large
  simpa [Unreadable] using large

/-- The first fractional column of `sliver` is a choice, whatever its number. -/
theorem sliver_first_chosen : ∃ relaxed,
    (relax ⟨false, 0, 0⟩ sliverProblem.boundBelow.addSlacks.working
      (Node.root sliverProblem.boundBelow.addSlacks.working) {}).outcome = .ok relaxed ∧
    relaxed.status = .optimal ∧
    selectColumn .firstFractional relaxed.node.fractional relaxed.node.mostFractional
      sliverProblem.boundBelow.addSlacks.working.columns = .ok (some 0) := by
  obtain ⟨relaxed, ran, optimal, keys, -⟩ := sliver_relaxed
  obtain ⟨choice, selected, listed, lost⟩ :=
    relaxed_node_branches ran optimal le_rfl .firstFractional
  have fractional : relaxed.node.fractional ≠ [] := fun empty => by simp [empty] at keys
  cases choice with
  | none => simp [Lost, Node.isIntegral, fractional] at lost
  | some index =>
    obtain rfl : index = 0 := by simpa [keys] using listed index rfl
    exact ⟨relaxed, ran, optimal, selected⟩

/-- The most fractional rule finds no column at the fractional root of `sliver`, nor does the
pseudocost rule before a branch was observed. Branching then ends without a child. -/
theorem sliver_lost : ∃ relaxed,
    (relax ⟨false, 0, 0⟩ sliverProblem.boundBelow.addSlacks.working
      (Node.root sliverProblem.boundBelow.addSlacks.working) {}).outcome = .ok relaxed ∧
    relaxed.status = .optimal ∧ relaxed.node.isIntegral = false ∧
    (∀ rule, rule = .mostFractional ∨ rule = .pseudocost →
      selectColumn rule relaxed.node.fractional relaxed.node.mostFractional
        sliverProblem.boundBelow.addSlacks.working.columns = .ok none) ∧
    ∀ state : State Rat, state.problem = sliverProblem.boundBelow.addSlacks →
      (branch relaxed.node).run state = .ok none state := by
  obtain ⟨relaxed, ran, optimal, keys, large⟩ := sliver_relaxed
  have fresh : (sliverProblem.boundBelow.addSlacks.working.columns[0]?.any fun column =>
    !column.hasCosts) = true := by decide +kernel
  have none : ∀ rule, rule = .mostFractional ∨ rule = .pseudocost →
      selectColumn rule relaxed.node.fractional relaxed.node.mostFractional
        sliverProblem.boundBelow.addSlacks.working.columns = .ok none := by
    intro rule looks
    obtain ⟨column, known, unseen⟩ := (Option.any_eq_true _ _).mp fresh
    have inside : ∀ index ∈ relaxed.node.fractional.map Prod.fst,
        index < sliverProblem.boundBelow.addSlacks.working.columns.length := by
      rw [keys]
      simpa using (List.getElem?_eq_some_iff.mp known).1
    obtain ⟨choice, selected⟩ := exists_selectColumn_ok inside rule relaxed.node.mostFractional
    have lost : Lost rule sliverProblem.boundBelow.addSlacks.working.columns relaxed.node := by
      refine ⟨by simpa [keys] using large, looks.imp_right fun pseudocost => ⟨pseudocost, 0, ?_⟩⟩
      exact ⟨by simp [keys], column, known, by simpa using unseen⟩
    rw [selected, ((relax_counted ran optimal).select_eq_none_iff selected).mpr (.inr lost)]
  refine ⟨relaxed, ran, optimal, ?_, none, fun state same => branch_of_select_none ?_⟩
  · have fractional : relaxed.node.fractional ≠ [] := fun empty => by simp [empty] at keys
    simpa [Node.isIntegral] using fractional
  · rw [same]
    exact none _ (.inr rfl)

end MixedInteger.Search
