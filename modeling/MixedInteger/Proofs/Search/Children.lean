import MixedInteger.Proofs.Recession
import MixedInteger.Search.Tree

/-! Nodes and their children. A node stands for the points of the working program in its
ranges. Branching happens only on integral columns, and the two children then share out the
node's integral points: a value is at most the floor or at least the ceiling of the
fractional one, and a split column with a positive part has no negative one. Ranges of
integral columns keep integral bounds all the way down, and no range gets wider, so that a
node has no other directions than the whole program. -/
namespace MixedInteger

/-! ### Programs under other ranges -/

/-- Every value lies in its range. -/
def Within (ranges : List (Range Rat)) (y : List Rat) : Prop :=
  ∀ (index : Nat) (range : Range Rat), ranges[index]? = some range → range.Admits (y.getD index 0)

/-- Integral columns have integral bounds. -/
def WholeRanges (columns : List (Column Rat)) (ranges : List (Range Rat)) : Prop :=
  ∀ (index : Nat) (column : Column Rat) (range : Range Rat), columns[index]? = some column →
    ranges[index]? = some range → column.integral = true → range.WholeBounds

/-- No range admits more than its column does. -/
def Narrows (columns : List (Column Rat)) (ranges : List (Range Rat)) : Prop :=
  ∀ (index : Nat) (column : Column Rat) (range : Range Rat), columns[index]? = some column →
    ranges[index]? = some range → ∀ value, range.Admits value → column.range.Admits value

namespace Program

variable {program : Program Rat} {ranges : List (Range Rat)}

theorem columns_withRanges (same : ranges.length = program.columns.length) :
    (program.withRanges ranges).columns =
      program.columns.zipWith (fun column range => { column with range }) ranges := by
  simp [withRanges, same]

theorem getElem?_withRanges (same : ranges.length = program.columns.length) {index : Nat}
    {column : Column Rat} (known : program.columns[index]? = some column) {range : Range Rat}
    (there : ranges[index]? = some range) :
    (program.withRanges ranges).columns[index]? = some { column with range } := by
  rw [columns_withRanges same, List.getElem?_zipWith, known, there]

theorem length_withRanges (same : ranges.length = program.columns.length) :
    (program.withRanges ranges).columns.length = program.columns.length := by
  simp [columns_withRanges same, same]

/-- A column under other ranges is one of the program's with its new range. -/
theorem columns_withRanges_cases (same : ranges.length = program.columns.length) {index : Nat}
    {data : Column Rat} (known : (program.withRanges ranges).columns[index]? = some data) :
    ∃ column range, program.columns[index]? = some column ∧ ranges[index]? = some range ∧
      data = { column with range } := by
  rw [columns_withRanges same, List.getElem?_zipWith] at known
  cases first : program.columns[index]? with
  | none => simp [first] at known
  | some column =>
    cases second : ranges[index]? with
    | none => simp [first, second] at known
    | some range =>
      rw [first, second] at known
      exact ⟨column, range, rfl, rfl, (Option.some.inj known).symm⟩

/-- Under its own ranges a program stays as it is. -/
theorem withRanges_own (program : Program Rat) :
    program.withRanges (program.columns.map (·.range)) = program := by
  have columns : (program.withRanges (program.columns.map (·.range))).columns = program.columns := by
    rw [columns_withRanges (by simp)]
    refine List.ext_getElem? fun index => ?_
    rw [List.getElem?_zipWith, List.getElem?_map]
    cases program.columns[index]? <;> rfl
  calc program.withRanges (program.columns.map (·.range))
      = { program with columns := (program.withRanges (program.columns.map (·.range))).columns } := rfl
    _ = program := by rw [columns]

theorem Shaped.withRanges (shaped : program.Shaped) (same : ranges.length = program.columns.length) :
    (program.withRanges ranges).Shaped := by
  refine ⟨?_, fun row member => ?_⟩
  · rw [length_withRanges same]
    exact shaped.objective
  · rw [length_withRanges same]
    exact shaped.rows row member

theorem wholeBounds_withRanges (same : ranges.length = program.columns.length)
    (whole : WholeRanges program.columns ranges) : (program.withRanges ranges).WholeBounds := by
  intro data member flagged
  obtain ⟨index, found⟩ := List.mem_iff_getElem?.mp member
  obtain ⟨column, range, known, there, rfl⟩ := columns_withRanges_cases same found
  exact whole index column range known there flagged

theorem BoundedBelow.withRanges (floor : program.BoundedBelow)
    (same : ranges.length = program.columns.length) (narrows : Narrows program.columns ranges) :
    (program.withRanges ranges).BoundedBelow := by
  intro data member
  obtain ⟨index, found⟩ := List.mem_iff_getElem?.mp member
  obtain ⟨column, range, known, there, rfl⟩ := columns_withRanges_cases same found
  exact (Range.bounds_of_narrower (narrows index column range known there)).1
    (floor column (List.mem_of_getElem? known))

/-- Narrower ranges leave no new direction. -/
theorem descends_of_withRanges (same : ranges.length = program.columns.length)
    (narrows : Narrows program.columns ranges) (descends : (program.withRanges ranges).Descends) :
    program.Descends := by
  obtain ⟨d, recedes, slope⟩ := descends
  obtain ⟨length, rows, inside⟩ := (satisfies_recession_iff _ d).mp recedes
  refine ⟨d, (satisfies_recession_iff program d).mpr
    ⟨length.trans (length_withRanges same), rows, fun index column known => ?_⟩, slope⟩
  obtain ⟨below, -⟩ := List.getElem?_eq_some_iff.mp known
  have there := List.getElem?_eq_getElem (same.symm ▸ below)
  exact Range.admits_recession_of_narrower (narrows index column _ known there)
    (inside index _ (getElem?_withRanges same known there))

/-- The points under other ranges. -/
theorem satisfies_withRanges_iff (same : ranges.length = program.columns.length) (y : List Rat) :
    (program.withRanges ranges).Satisfies y ↔ y.length = program.columns.length ∧
      (∀ row ∈ program.rows, row.relation.Holds (dot row.coefs y) row.rhs) ∧ Within ranges y := by
  constructor
  · intro held
    refine ⟨held.length.trans (length_withRanges same), held.rows, fun index range there => ?_⟩
    obtain ⟨below, -⟩ := List.getElem?_eq_some_iff.mp there
    have known := List.getElem?_eq_getElem (same ▸ below)
    exact held.ranges index _ (getElem?_withRanges same known there)
  · rintro ⟨length, rows, inside⟩
    refine ⟨length.trans (length_withRanges same).symm, rows, fun index data found => ?_⟩
    obtain ⟨column, range, -, there, rfl⟩ := columns_withRanges_cases same found
    exact inside index range there

theorem integral_withRanges_iff (same : ranges.length = program.columns.length) (y : List Rat) :
    (program.withRanges ranges).Integral y ↔ program.Integral y := by
  constructor
  · intro integral index column known flagged
    obtain ⟨below, -⟩ := List.getElem?_eq_some_iff.mp known
    have there := List.getElem?_eq_getElem (same.symm ▸ below)
    exact integral index _ (getElem?_withRanges same known there) flagged
  · intro integral index data found flagged
    obtain ⟨column, range, known, -, rfl⟩ := columns_withRanges_cases same found
    exact integral index column known flagged

/-- A feasible point that lies in the ranges is feasible under them. -/
theorem Feasible.withRanges {y : List Rat} (held : program.Feasible y)
    (same : ranges.length = program.columns.length) (inside : Within ranges y) :
    (program.withRanges ranges).Feasible y :=
  ⟨(satisfies_withRanges_iff same y).mpr ⟨held.length, held.rows, inside⟩,
    (integral_withRanges_iff same y).mpr held.integral⟩

end Program

theorem Range.WholeBounds.tightenLower {range : Range Rat} {value : Rat}
    (bounds : range.WholeBounds) (whole : Whole value) : (range.tightenLower value).WholeBounds := by
  unfold Range.tightenLower
  split
  · refine ⟨fun lower eq => ?_, bounds.2⟩
    obtain rfl := Option.some.inj eq
    exact whole
  · exact bounds

theorem Range.WholeBounds.tightenUpper {range : Range Rat} {value : Rat}
    (bounds : range.WholeBounds) (whole : Whole value) : (range.tightenUpper value).WholeBounds := by
  unfold Range.tightenUpper
  split
  · refine ⟨bounds.1, fun upper eq => ?_⟩
    obtain rfl := Option.some.inj eq
    exact whole
  · exact bounds

namespace Search

/-! ### The root -/

theorem wholeRanges_root {program : Program Rat} (bounds : program.WholeBounds) :
    WholeRanges program.columns (Node.root program).ranges := by
  intro index column range known found flagged
  simp only [Node.root, List.getElem?_map, known, Option.map_some, Option.some.injEq] at found
  subst found
  exact bounds column (List.mem_of_getElem? known) flagged

theorem narrows_root (program : Program Rat) :
    Narrows program.columns (Node.root program).ranges := by
  intro index column range known found value
  simp only [Node.root, List.getElem?_map, known, Option.map_some, Option.some.injEq] at found
  subst found
  exact id

/-! ### Narrower nodes -/

section

variable {ranges : List (Range Rat)} {place : Nat} {change : Range Rat → Range Rat}

/-- Changing one range adds a condition on the value at its place, if there is one. -/
theorem within_modify_iff {extra : Rat → Prop}
    (meaning : ∀ range value, (change range).Admits value ↔ range.Admits value ∧ extra value)
    {y : List Rat} : Within (ranges.modify place change) y ↔
      Within ranges y ∧ (place < ranges.length → extra (y.getD place 0)) := by
  constructor
  · intro inside
    have entry : ∀ (index : Nat) (range : Range Rat), ranges[index]? = some range →
        (if place = index then change range else range).Admits (y.getD index 0) := by
      intro index range there
      refine inside index _ ?_
      rw [List.getElem?_modify, there]
      rfl
    refine ⟨fun index range there => ?_, fun below => ?_⟩
    · have held := entry index range there
      split at held
      · exact ((meaning range _).mp held).1
      · exact held
    · have held := entry place _ (List.getElem?_eq_getElem below)
      rw [if_pos rfl] at held
      exact ((meaning _ _).mp held).2
  · rintro ⟨inside, here⟩ index range found
    rw [List.getElem?_modify] at found
    obtain ⟨old, there, rfl⟩ := Option.map_eq_some_iff.mp found
    by_cases same : place = index
    · subst same
      rw [if_pos rfl]
      obtain ⟨below, -⟩ := List.getElem?_eq_some_iff.mp there
      exact (meaning old _).mpr ⟨inside place old there, here below⟩
    · rw [if_neg same]
      exact inside index old there

theorem wholeRanges_modify {columns : List (Column Rat)} (whole : WholeRanges columns ranges)
    (keeps : ∀ range : Range Rat, range.WholeBounds → (change range).WholeBounds) :
    WholeRanges columns (ranges.modify place change) := by
  intro index column range known found flagged
  rw [List.getElem?_modify] at found
  obtain ⟨old, there, rfl⟩ := Option.map_eq_some_iff.mp found
  have bounds := whole index column old known there flagged
  by_cases same : place = index
  · rw [if_pos same]
    exact keeps old bounds
  · rw [if_neg same]
    exact bounds

theorem narrows_modify {columns : List (Column Rat)} (narrows : Narrows columns ranges)
    (narrower : ∀ range value, (change range).Admits value → range.Admits value) :
    Narrows columns (ranges.modify place change) := by
  intro index column range known found value held
  rw [List.getElem?_modify] at found
  obtain ⟨old, there, rfl⟩ := Option.map_eq_some_iff.mp found
  refine narrows index column old known there value ?_
  by_cases same : place = index
  · rw [if_pos same] at held
    exact narrower old value held
  · rwa [if_neg same] at held

end

variable {node : Node Rat} {partner : List (Option Nat)} {column : Nat} {value : Rat}

theorem length_childOn (direction : Direction) :
    (childOn node partner column value direction).ranges.length = node.ranges.length := by
  cases direction with
  | down => simp [childOn, Node.narrow, Node.child]
  | up =>
    unfold childOn
    dsimp only
    split <;> simp [Node.narrow, Node.child]

/-- Children keep integral bounds. -/
theorem wholeRanges_childOn {columns : List (Column Rat)} (whole : WholeRanges columns node.ranges)
    (direction : Direction) :
    WholeRanges columns (childOn node partner column value direction).ranges := by
  cases direction with
  | down =>
    exact wholeRanges_modify whole fun range bounds => bounds.tightenUpper ⟨⌊value⌋, rfl⟩
  | up =>
    have raised : WholeRanges columns
        (node.ranges.modify column (·.tightenLower (Scalar.ceil value))) :=
      wholeRanges_modify whole fun range bounds =>
        bounds.tightenLower ⟨⌈value⌉, (Scalar.ceil_rat value).symm⟩
    unfold childOn
    dsimp only
    split
    · exact wholeRanges_modify raised fun range bounds => bounds.tightenUpper Whole.zero
    · exact raised

/-- Children are narrower. -/
theorem narrows_childOn {columns : List (Column Rat)} (narrows : Narrows columns node.ranges)
    (direction : Direction) :
    Narrows columns (childOn node partner column value direction).ranges := by
  have lowered : ∀ (limit : Rat) (range : Range Rat) (x : Rat),
      (range.tightenUpper limit).Admits x → range.Admits x :=
    fun limit range x held => ((range.admits_tightenUpper limit x).mp held).1
  cases direction with
  | down => exact narrows_modify narrows (lowered _)
  | up =>
    have raised : Narrows columns (node.ranges.modify column (·.tightenLower (Scalar.ceil value))) :=
      narrows_modify narrows fun range x held => ((range.admits_tightenLower _ x).mp held).1
    unfold childOn
    dsimp only
    split
    · exact narrows_modify raised (lowered _)
    · exact raised

/-- The child below holds the points of the node up to the floor. -/
theorem within_down_iff {y : List Rat} :
    Within (childOn node partner column value .down).ranges y ↔ Within node.ranges y ∧
      (column < node.ranges.length → y.getD column 0 ≤ ⌊value⌋) :=
  within_modify_iff fun range x => range.admits_tightenUpper _ x

/-- The child above holds the points of the node from the ceiling on. If that is positive, the
other part of a split column is not. -/
theorem within_up_iff {y : List Rat} :
    Within (childOn node partner column value .up).ranges y ↔ Within node.ranges y ∧
      (column < node.ranges.length → ⌈value⌉ ≤ y.getD column 0) ∧
      ∀ other, (partner[column]?).join = some other → (0 : Rat) < ⌈value⌉ →
        other < node.ranges.length → y.getD other 0 ≤ 0 := by
  have raised : Within (node.ranges.modify column (·.tightenLower (Scalar.ceil value))) y ↔
      Within node.ranges y ∧ (column < node.ranges.length → Scalar.ceil value ≤ y.getD column 0) :=
    within_modify_iff fun range x => range.admits_tightenLower _ x
  rw [Scalar.ceil_rat] at raised
  unfold childOn
  simp only [Scalar.ceil_rat]
  split
  · rename_i other positive paired
    rw [Scalar.isPositive_iff] at positive
    refine (within_modify_iff fun range x => range.admits_tightenUpper 0 x).trans ?_
    refine (and_congr_left fun _ => raised).trans ?_
    simp [paired, positive, and_assoc, Node.narrow, Node.child]
  · rename_i apart
    refine raised.trans ?_
    have never : ∀ other, (partner[column]?).join = some other → ¬ (0 : Rat) < ⌈value⌉ :=
      fun other paired positive => apart other ((Scalar.isPositive_iff _).mpr positive) paired
    constructor
    · rintro ⟨inside, above⟩
      exact ⟨inside, above, fun other paired positive => absurd positive (never other paired)⟩
    · rintro ⟨inside, above, -⟩
      exact ⟨inside, above⟩

/-- Every integral point of a node is in one of its children. -/
theorem within_childOn {y : List Rat} (inside : Within node.ranges y)
    (whole : Whole (y.getD column 0))
    (apart : ∀ other, (partner[column]?).join = some other → 0 < y.getD column 0 →
      y.getD other 0 ≤ 0) :
    Within (childOn node partner column value .down).ranges y ∨
      Within (childOn node partner column value .up).ranges y := by
  rcases le_or_gt (y.getD column 0) value with low | high
  · exact .inl (within_down_iff.mpr ⟨inside, fun _ => whole.le_floor low⟩)
  · have above := whole.ceil_le high.le
    exact .inr (within_up_iff.mpr ⟨inside, fun _ => above, fun other paired positive _ =>
      apart other paired (positive.trans_le above)⟩)

/-! ### Fractional columns -/

/-- The columns that a census counts. -/
def isFractional (entry : (Rat × Column Rat) × Nat) : Bool :=
  entry.1.2.integral && !entry.1.2.slack && !Scalar.isIntegral entry.1.1

theorem count_of_not_fractional {entry : (Rat × Column Rat) × Nat}
    (skipped : isFractional entry = false) (census : Node.Census) : census.count entry = census := by
  obtain ⟨⟨value, column⟩, place⟩ := entry
  have flags : (!column.integral || column.slack || Scalar.isIntegral value) = true := by
    simp only [isFractional, Bool.and_eq_false_iff, Bool.not_eq_false'] at skipped
    rcases skipped with (continuous | slack) | whole
    · simp [continuous]
    · simp [slack]
    · simp [whole]
  simp only [Node.Census.count, flags, ↓reduceIte]

theorem count_of_fractional {entry : (Rat × Column Rat) × Nat}
    (counted : isFractional entry = true) (census : Node.Census) :
    (census.count entry).fractional.map Prod.fst =
        census.fractional.map Prod.fst ++ [entry.2] ∧
      ∀ index, (census.count entry).mostFractional = some index →
        census.mostFractional = some index ∨ index = entry.2 := by
  obtain ⟨⟨value, column⟩, place⟩ := entry
  have flags : (!column.integral || column.slack || Scalar.isIntegral value) = false := by
    simp only [isFractional, Bool.and_eq_true, Bool.not_eq_true'] at counted
    simp [counted.1.1, counted.1.2, counted.2]
  simp only [Node.Census.count, flags, Bool.false_eq_true, ↓reduceIte]
  refine ⟨by simp, fun index found => ?_⟩
  split at found
  · exact .inr (Option.some.inj found).symm
  · exact .inl found

/-- A census lists the fractional columns in order, and the one nearest to one half is one
of them. -/
theorem foldl_count (entries : List ((Rat × Column Rat) × Nat)) (census : Node.Census) :
    (entries.foldl Node.Census.count census).fractional.map Prod.fst =
        census.fractional.map Prod.fst ++ (entries.filter isFractional).map Prod.snd ∧
      ∀ index, (entries.foldl Node.Census.count census).mostFractional = some index →
        census.mostFractional = some index ∨ index ∈ (entries.filter isFractional).map Prod.snd := by
  induction entries generalizing census with
  | nil => simp
  | cons entry entries ih =>
    obtain ⟨keys, most⟩ := ih (census.count entry)
    rw [List.foldl_cons, keys]
    cases counted : isFractional entry with
    | false =>
      rw [count_of_not_fractional counted] at most ⊢
      rw [List.filter_cons_of_neg (by simp [counted])]
      exact ⟨rfl, most⟩
    | true =>
      obtain ⟨key, nearest⟩ := count_of_fractional counted census
      rw [List.filter_cons_of_pos counted, key, List.map_cons]
      refine ⟨by simp, fun index found => ?_⟩
      rcases most index found with earlier | later
      · rcases nearest index earlier with before | rfl
        · exact .inl before
        · exact .inr List.mem_cons_self
      · exact .inr (List.mem_cons_of_mem _ later)

/-- The columns that a census of a point lists. -/
def fractionalColumns (columns : List (Column Rat)) (solution : List Rat) : List Nat :=
  ((solution.zip columns).zipIdx.filter isFractional).map Prod.snd

theorem mem_fractionalColumns_iff {columns : List (Column Rat)} {solution : List Rat} {index : Nat} :
    index ∈ fractionalColumns columns solution ↔ ∃ value column, solution[index]? = some value ∧
      columns[index]? = some column ∧ column.integral = true ∧ column.slack = false ∧
      ¬ Whole value := by
  have flags : ∀ (value : Rat) (column : Column Rat), isFractional ((value, column), index) = true ↔
      column.integral = true ∧ column.slack = false ∧ ¬ Whole value := by
    intro value column
    rw [isFractional, ← Scalar.isIntegral_iff]
    simp [and_assoc]
  constructor
  · intro member
    obtain ⟨⟨⟨value, column⟩, place⟩, inside, rfl⟩ := List.mem_map.mp member
    obtain ⟨there, counted⟩ := List.mem_filter.mp inside
    obtain ⟨solved, known⟩ := List.getElem?_zip_eq_some.mp (List.mem_zipIdx_iff_getElem?.mp there)
    exact ⟨value, column, solved, known, (flags value column).mp counted⟩
  · rintro ⟨value, column, solved, known, counted⟩
    have paired : (solution.zip columns)[index]? = some (value, column) :=
      List.getElem?_zip_eq_some.mpr ⟨solved, known⟩
    exact List.mem_map.mpr ⟨((value, column), index), List.mem_filter.mpr
      ⟨List.mem_zipIdx_iff_getElem?.mpr paired, (flags value column).mpr counted⟩, rfl⟩

/-- A solved node lists its fractional columns. -/
theorem fractional_finish (program : Program Rat) (node : Node Rat) (solution : List Rat)
    (optimum : Rat) : (node.finish program solution optimum).fractional.map Prod.fst =
      fractionalColumns program.columns solution :=
  (foldl_count (solution.zip program.columns).zipIdx {}).1

/-- A node's candidates for branching: the columns it lists, and the one nearest to one half. -/
def Node.Proposes (node : Node Rat) (index : Nat) : Prop :=
  index ∈ node.fractional.map Prod.fst ∨ node.mostFractional = some index

/-- The candidates of a solved node are columns with a fractional value. -/
theorem proposes_finish (program : Program Rat) (node : Node Rat) (solution : List Rat)
    (optimum : Rat) {index : Nat}
    (proposed : (node.finish program solution optimum).Proposes index) :
    index ∈ fractionalColumns program.columns solution := by
  rcases proposed with listed | most
  · rwa [fractional_finish] at listed
  · rcases (foldl_count (solution.zip program.columns).zipIdx {}).2 index most with none | member
    · cases none
    · exact member

/-- A solved node's candidates for branching are integral columns of the program. -/
structure Candidates (columns : List (Column Rat)) (node : Node Rat) : Prop where
  listed : ∀ index ∈ node.fractional.map Prod.fst, ∃ column, columns[index]? = some column ∧
    column.integral = true
  most : ∀ index, node.mostFractional = some index → ∃ column, columns[index]? = some column ∧
    column.integral = true

theorem candidates_finish (program : Program Rat) (node : Node Rat) (solution : List Rat)
    (optimum : Rat) : Candidates program.columns (node.finish program solution optimum) := by
  have counted : ∀ index, (node.finish program solution optimum).Proposes index →
      ∃ column, program.columns[index]? = some column ∧ column.integral = true := by
    intro index proposed
    obtain ⟨-, column, -, known, flagged, -⟩ :=
      mem_fractionalColumns_iff.mp (proposes_finish program node solution optimum proposed)
    exact ⟨column, known, flagged⟩
  exact ⟨fun index listed => counted index (.inl listed), fun index most => counted index (.inr most)⟩

/-- A solved node without candidates is integral off the slacks. -/
theorem integralOffSlacks_finish (program : Program Rat) (node : Node Rat) {solution : List Rat}
    (optimum : Rat) (length : solution.length = program.columns.length)
    (integral : (node.finish program solution optimum).isIntegral = true) :
    program.IntegralOffSlacks solution := by
  intro index column known flagged plain
  have none : (node.finish program solution optimum).fractional = [] := List.isEmpty_iff.mp integral
  have keys := fractional_finish program node solution optimum
  rw [none, List.map_nil] at keys
  obtain ⟨below, -⟩ := List.getElem?_eq_some_iff.mp known
  have there := List.getElem?_eq_getElem (length.symm ▸ below)
  rw [List.getD_eq_getElem?_getD, there, Option.getD_some]
  by_contra fractional
  have listed := mem_fractionalColumns_iff.mpr ⟨_, column, there, known, flagged, plain, fractional⟩
  rw [← keys] at listed
  cases listed

/-! ### The choice of a column -/

theorem bestScore_eq_ok {columns : List (Column Rat)} {fallback : Option Nat}
    {best : Option (Nat × Binary64)} {fractional : Fractions} {chosen : Nat}
    (selected : bestScore columns fallback best fractional = .ok (some chosen)) :
    chosen ∈ fractional.map Prod.fst ∨ fallback = some chosen ∨ best.map Prod.fst = some chosen := by
  induction fractional generalizing best with
  | nil =>
    simp only [bestScore, Except.ok.injEq] at selected
    exact .inr (.inr selected)
  | cons pair rest ih =>
    obtain ⟨index, part⟩ := pair
    rw [bestScore] at selected
    split at selected
    · cases selected
    · dsimp only at selected
      split at selected
      · exact .inr (.inl (Except.ok.inj selected))
      · rcases ih selected with later | fallen | kept
        · exact .inl (List.mem_cons_of_mem _ later)
        · exact .inr (.inl fallen)
        · split at kept
          · obtain rfl := Option.some.inj kept
            exact .inl List.mem_cons_self
          · exact .inr (.inr kept)

theorem exists_bestScore_ok {columns : List (Column Rat)} {fallback : Option Nat}
    {fractional : Fractions} (listed : ∀ index ∈ fractional.map Prod.fst, index < columns.length)
    (best : Option (Nat × Binary64)) :
    ∃ chosen, bestScore columns fallback best fractional = .ok chosen := by
  induction fractional generalizing best with
  | nil => exact ⟨_, rfl⟩
  | cons pair rest ih =>
    obtain ⟨index, part⟩ := pair
    rw [bestScore, List.getElem?_eq_getElem (listed index List.mem_cons_self)]
    dsimp only
    split
    · exact ⟨_, rfl⟩
    · exact ih (fun other member => listed other (List.mem_cons_of_mem index member)) _

/-- Every rule makes its choice, if the candidates are columns. -/
theorem exists_selectColumn_ok {columns : List (Column Rat)} {fractional : Fractions}
    (listed : ∀ index ∈ fractional.map Prod.fst, index < columns.length) (rule : BranchingRule)
    (most : Option Nat) : ∃ chosen, selectColumn rule fractional most columns = .ok chosen := by
  cases rule with
  | pseudocost => exact exists_bestScore_ok listed none
  | mostFractional => exact ⟨_, rfl⟩
  | firstFractional => exact ⟨_, rfl⟩
  | lastFractional => exact ⟨_, rfl⟩

/-- Every rule chooses among the candidates. -/
theorem selectColumn_eq_ok {columns : List (Column Rat)} {rule : BranchingRule}
    {fractional : Fractions} {most : Option Nat} {chosen : Nat}
    (selected : selectColumn rule fractional most columns = .ok (some chosen)) :
    chosen ∈ fractional.map Prod.fst ∨ most = some chosen := by
  cases rule with
  | pseudocost =>
    rcases bestScore_eq_ok selected with listed | fallen | impossible
    · exact .inl listed
    · exact .inr fallen
    · cases impossible
  | mostFractional => exact .inr (Except.ok.inj selected)
  | firstFractional =>
    obtain ⟨pair, first, rfl⟩ := Option.map_eq_some_iff.mp (Except.ok.inj selected)
    exact .inl (List.mem_map_of_mem (List.mem_of_head? first))
  | lastFractional =>
    obtain ⟨pair, last, rfl⟩ := Option.map_eq_some_iff.mp (Except.ok.inj selected)
    exact .inl (List.mem_map_of_mem (List.mem_of_getLast? last))

theorem Candidates.selected {columns others : List (Column Rat)} {node : Node Rat}
    (candidates : Candidates columns node) {rule : BranchingRule} {chosen : Nat}
    (selected : selectColumn rule node.fractional node.mostFractional others = .ok (some chosen)) :
    ∃ column, columns[chosen]? = some column ∧ column.integral = true := by
  rcases selectColumn_eq_ok selected with listed | most
  · exact candidates.listed chosen listed
  · exact candidates.most chosen most

end Search

end MixedInteger
