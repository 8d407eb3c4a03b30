import MixedInteger.Proofs.Presolve.Refinement
import MixedInteger.Proofs.Search.Partition
import MixedInteger.Proofs.Search.WorkingForm
import Mathlib.Algebra.Order.BigOperators.Group.List

/-! How many integral points a box has. Branching looks at the integral columns that are no
slacks; where each of them has two bounds, a box holds finitely many points over these columns.
Presolve, the rounding of bounds and the working form leave no more of them than the program had,
and the two children of a node share its points out without adding any. -/
namespace MixedInteger

/-! ### One range -/

theorem Orientation.sign_cases (orientation : Orientation) :
    (orientation.sign : Rat) = 1 ∨ (orientation.sign : Rat) = -1 := by
  cases orientation with
  | positive => exact .inl rfl
  | negated => exact .inr rfl
  | positivePart => exact .inl rfl
  | negativePart => exact .inr rfl

/-- A range inside another one, up to a sign, has two bounds if the other has. -/
theorem Range.bounds_of_mirrored {range other : Range Rat} (orientation : Orientation)
    (narrower : ∀ value, range.Admits value → other.Admits (orientation.sign * value))
    (boxed : other.lower ≠ none ∧ other.upper ≠ none) :
    range.lower ≠ none ∧ range.upper ≠ none := by
  rcases orientation.sign_cases with same | turned
  · have inside : ∀ value, range.Admits value → other.Admits value := by
      intro value held
      simpa [same] using narrower value held
    exact ⟨(bounds_of_narrower inside).1 boxed.1, (bounds_of_narrower inside).2 boxed.2⟩
  · have inside : ∀ value, (⟨range.upper.map (- ·), range.lower.map (- ·)⟩ : Range Rat).Admits value →
        other.Admits value := by
      intro value held
      have back : range.Admits (-value) := by
        refine ⟨fun lower known => ?_, fun upper known => ?_⟩
        · have := held.2 (-lower) (by simp [known])
          linarith
        · have := held.1 (-upper) (by simp [known])
          linarith
      simpa [turned] using narrower _ back
    obtain ⟨low, high⟩ := bounds_of_narrower inside
    exact ⟨by simpa using high boxed.2, by simpa using low boxed.1⟩

namespace Search

theorem integersIn_eq (lower upper : Rat) :
    integersIn ⟨some lower, some upper⟩ = ⌊upper - lower⌋.toNat + 1 := rfl

theorem one_le_integersIn (range : Range Rat) : 1 ≤ integersIn range := by
  rcases range with ⟨_ | lower, _ | upper⟩ <;> simp [integersIn, Range.width, Scalar.toNumber]

/-- A range inside another one, up to a sign, holds no more integers. -/
theorem integersIn_le {range other : Range Rat} (orientation : Orientation)
    (narrower : ∀ value, range.Admits value → other.Admits (orientation.sign * value))
    (boxed : other.lower ≠ none ∧ other.upper ≠ none) : integersIn range ≤ integersIn other := by
  obtain ⟨low, high⟩ := Range.bounds_of_mirrored orientation narrower boxed
  rcases range with ⟨_ | lower, _ | upper⟩
  · exact absurd rfl low
  · exact absurd rfl low
  · exact absurd rfl high
  · rcases other with ⟨_ | least, _ | most⟩
    · exact absurd rfl boxed.1
    · exact absurd rfl boxed.1
    · exact absurd rfl boxed.2
    · rw [integersIn_eq, integersIn_eq]
      apply Nat.succ_le_succ
      by_cases empty : upper < lower
      · have negative : ⌊upper - lower⌋ ≤ 0 := Int.floor_nonpos (by linarith)
        omega
      · have ends : lower ≤ upper := not_lt.mp empty
        have first := narrower lower ⟨by simp, by simpa using ends⟩
        have last := narrower upper ⟨by simpa using ends, by simp⟩
        have width : upper - lower ≤ most - least := by
          have firstLow := first.1 least rfl
          have firstHigh := first.2 most rfl
          have lastLow := last.1 least rfl
          have lastHigh := last.2 most rfl
          rcases orientation.sign_cases with same | turned
          · rw [same] at firstLow lastHigh
            linarith
          · rw [turned] at firstHigh lastLow
            linarith
        exact Int.toNat_le_toNat (Int.floor_le_floor width)

/-- Splitting a range at a fractional value shares out its integers. -/
theorem integersIn_split {lower upper value : Rat} (wholeLower : Whole lower)
    (wholeUpper : Whole upper) (fractional : ¬ Whole value) (above : lower ≤ value)
    (below : value ≤ upper) :
    integersIn ((⟨some lower, some upper⟩ : Range Rat).tightenUpper (Scalar.floor value)) +
      integersIn ((⟨some lower, some upper⟩ : Range Rat).tightenLower (Scalar.ceil value)) =
        integersIn ⟨some lower, some upper⟩ := by
  obtain ⟨first, rfl⟩ := wholeLower
  obtain ⟨last, rfl⟩ := wholeUpper
  obtain ⟨floorLt, ltCeil⟩ := floor_lt_ceil_of_fractional fractional
  have next : ⌈value⌉ = ⌊value⌋ + 1 := by
    apply le_antisymm (Int.ceil_le_floor_add_one value)
    exact_mod_cast floorLt.trans ltCeil
  have least : first ≤ ⌊value⌋ := Int.le_floor.mpr above
  have most : ⌈value⌉ ≤ last := Int.ceil_le.mpr below
  have lowered : (⟨some (first : Rat), some (last : Rat)⟩ : Range Rat).lowers ⌊value⌋ = true := by
    have : ⌊value⌋ < last := by omega
    simpa [Range.lowers] using this
  have raised : (⟨some (first : Rat), some (last : Rat)⟩ : Range Rat).raises ⌈value⌉ = true := by
    have : first < ⌈value⌉ := by omega
    simpa [Range.raises] using this
  rw [Scalar.floor_rat, Scalar.ceil_rat, Range.tightenUpper, if_pos lowered, Range.tightenLower,
    if_pos raised, integersIn_eq, integersIn_eq, integersIn_eq]
  norm_cast
  simp only [Int.floor_intCast]
  omega

/-! ### Boxes -/

/-- How many values a range leaves to a column: the integers in it, if the column is one to
branch on. -/
def choices (column : Column Rat) (range : Range Rat) : Nat :=
  if column.integral && !column.slack then integersIn range else 1

/-- How many integral points the ranges leave to the columns to branch on. -/
def points (columns : List (Column Rat)) (ranges : List (Range Rat)) : Nat :=
  (List.zipWith choices columns ranges).prod

/-- Every column to branch on has two bounds. -/
def BoxedRanges (columns : List (Column Rat)) (ranges : List (Range Rat)) : Prop :=
  ∀ (index : Nat) (column : Column Rat) (range : Range Rat), columns[index]? = some column →
    ranges[index]? = some range → column.integral = true → column.slack = false →
    range.lower ≠ none ∧ range.upper ≠ none

theorem one_le_choices (column : Column Rat) (range : Range Rat) : 1 ≤ choices column range := by
  unfold choices
  split
  · exact one_le_integersIn range
  · exact le_rfl

theorem one_le_points (columns : List (Column Rat)) (ranges : List (Range Rat)) :
    1 ≤ points columns ranges := by
  apply List.one_le_prod_of_one_le
  intro count member
  obtain ⟨place, found⟩ := List.mem_iff_getElem?.mp member
  rw [List.getElem?_zipWith] at found
  split at found
  · obtain rfl := Option.some.inj found
    exact one_le_choices _ _
  · cases found

section

variable {columns : List (Column Rat)} {ranges : List (Range Rat)} {place : Nat}
  {column : Column Rat} {range : Range Rat}

/-- The points of a box are those over the other columns, once for each value of one column. -/
theorem exists_points_set (known : columns[place]? = some column)
    (there : ranges[place]? = some range) :
    ∃ others, ∀ other, points columns (ranges.set place other) = others * choices column other := by
  have inside : place < (List.zipWith choices columns ranges).length := by
    have first := (List.getElem?_eq_some_iff.mp known).1
    have second := (List.getElem?_eq_some_iff.mp there).1
    rw [List.length_zipWith]
    omega
  refine ⟨((List.zipWith choices columns ranges).take place).prod *
    ((List.zipWith choices columns ranges).drop (place + 1)).prod, fun other => ?_⟩
  have entries : List.zipWith choices columns (ranges.set place other) =
      (List.zipWith choices columns ranges).set place (choices column other) := by
    refine List.ext_getElem? fun index => ?_
    rw [List.getElem?_zipWith, List.getElem?_set, List.getElem?_set, List.getElem?_zipWith]
    by_cases here : place = index
    · subst here
      have below := (List.getElem?_eq_some_iff.mp there).1
      obtain ⟨first, same⟩ := List.getElem?_eq_some_iff.mp known
      simp [below, first, same]
    · simp [here]
  rw [points, entries, List.prod_set, if_pos inside]
  ring

/-- A narrower box has no more points. -/
theorem points_le {outer : List (Range Rat)} (inside : Inside ranges outer)
    (boxed : BoxedRanges columns outer) : points columns ranges ≤ points columns outer := by
  refine List.Forall₂.prod_le_prod' (List.forall₂_iff_get.mpr ⟨?_, fun index here there => ?_⟩)
  · simp [inside.1]
  · rw [List.length_zipWith] at here there
    have known := List.getElem?_eq_getElem (show index < columns.length by omega)
    have narrow := List.getElem?_eq_getElem (show index < ranges.length by omega)
    have wide := List.getElem?_eq_getElem (show index < outer.length by omega)
    simp only [List.get_eq_getElem, List.getElem_zipWith]
    unfold choices
    split
    · rename_i chosen
      rw [Bool.and_eq_true, Bool.not_eq_true'] at chosen
      refine integersIn_le .positive (fun value held => ?_)
        (boxed index _ _ known wide chosen.1 chosen.2)
      simpa [Orientation.sign] using inside.2 index _ _ narrow wide value held
    · exact le_rfl

theorem BoxedRanges.inside {outer : List (Range Rat)} (boxed : BoxedRanges columns outer)
    (inside : Inside ranges outer) : BoxedRanges columns ranges := by
  intro index column range known there flagged plain
  obtain ⟨below, -⟩ := List.getElem?_eq_some_iff.mp there
  have wide := List.getElem?_eq_getElem (inside.1 ▸ below)
  obtain ⟨low, high⟩ := boxed index column _ known wide flagged plain
  have narrower := Range.bounds_of_narrower (inside.2 index _ _ there wide)
  exact ⟨narrower.1 low, narrower.2 high⟩

theorem inside_modify {change : Range Rat → Range Rat}
    (narrower : ∀ range value, (change range).Admits value → range.Admits value) :
    Inside (ranges.modify place change) ranges := by
  refine ⟨List.length_modify _ _ _, fun index range whole there known value held => ?_⟩
  rw [List.getElem?_modify, known] at there
  obtain rfl := Option.some.inj there
  dsimp only at held
  split at held
  · exact narrower whole value held
  · exact held

end

section Children

variable {columns : List (Column Rat)} {node : Node Rat} {place : Nat} {column : Column Rat}
  {value : Rat}

/-- The child above has no more points than the node has from the ceiling on. -/
theorem points_up_le (boxed : BoxedRanges columns node.ranges) (partner : List (Option Nat)) :
    points columns (childOn node partner place value .up).ranges ≤
      points columns (node.ranges.modify place (·.tightenLower (Scalar.ceil value))) := by
  have raised : Inside (node.ranges.modify place (·.tightenLower (Scalar.ceil value)))
      node.ranges :=
    inside_modify fun range x held => ((range.admits_tightenLower _ x).mp held).1
  unfold childOn
  dsimp only
  split
  · exact points_le (inside_modify fun range x held => ((range.admits_tightenUpper _ x).mp held).1)
      (boxed.inside raised)
  · exact le_rfl

/-- The children of a node on a fractional column share out its points. -/
theorem points_childOn_le (boxed : BoxedRanges columns node.ranges)
    (whole : WholeRanges columns node.ranges) (known : columns[place]? = some column)
    (flagged : column.integral = true) (plain : column.slack = false)
    (length : node.ranges.length = columns.length) (solved : node.solution[place]? = some value)
    (fractional : ¬ Whole value) (inside : Within node.ranges node.solution)
    (low high : List (Option Nat)) :
    points columns (childOn node low place value .down).ranges +
      points columns (childOn node high place value .up).ranges ≤ points columns node.ranges := by
  obtain ⟨below, -⟩ := List.getElem?_eq_some_iff.mp known
  have there := List.getElem?_eq_getElem (length.symm ▸ below)
  obtain ⟨others, product⟩ := exists_points_set known there
  have counted : ∀ range, choices column range = integersIn range := by
    intro range
    simp [choices, flagged, plain]
  have changed : ∀ change : Range Rat → Range Rat, points columns (node.ranges.modify place change) =
      others * integersIn (change node.ranges[place]) := by
    intro change
    rw [List.modify_eq_set_getElem?, there]
    exact (product _).trans (by rw [counted])
  have own : points columns node.ranges = others * integersIn node.ranges[place] := by
    rw [← counted, ← product, List.set_getElem_self]
  have split : integersIn (node.ranges[place].tightenUpper (Scalar.floor value)) +
      integersIn (node.ranges[place].tightenLower (Scalar.ceil value)) =
        integersIn node.ranges[place] := by
    have admitted := inside place _ there
    rw [List.getD_eq_getElem?_getD, solved, Option.getD_some] at admitted
    have bounds := whole place column _ known there flagged
    obtain ⟨least, most⟩ := boxed place column _ known there flagged plain
    obtain ⟨lower, first⟩ := Option.ne_none_iff_exists'.mp least
    obtain ⟨upper, last⟩ := Option.ne_none_iff_exists'.mp most
    have shape : node.ranges[place] = ⟨some lower, some upper⟩ := by
      rw [← first, ← last]
    rw [shape]
    exact integersIn_split (bounds.1 lower first) (bounds.2 upper last) fractional
      (admitted.1 lower first) (admitted.2 upper last)
  calc points columns (childOn node low place value .down).ranges +
        points columns (childOn node high place value .up).ranges
      ≤ others * integersIn (node.ranges[place].tightenUpper (Scalar.floor value)) +
          others * integersIn (node.ranges[place].tightenLower (Scalar.ceil value)) := by
        refine Nat.add_le_add (changed _).le ((points_up_le boxed high).trans (changed _).le)
    _ = points columns node.ranges := by rw [← Nat.mul_add, split, own]

end Children

/-! ### Programs -/

/-- How many integral points the ranges of a program leave to the columns to branch on. -/
def programPoints (program : Program Rat) : Nat :=
  (program.columns.map fun column => choices column column.range).prod

theorem points_root (program : Program Rat) :
    points program.columns (Node.root program).ranges = programPoints program := by
  simp [points, programPoints, Node.root, List.zipWith_map_right, List.zipWith_self]

theorem stepBound_eq (program : Program Rat) :
    stepBound program = 2 * programPoints program + 2 ^ 64 := by
  have product : ∀ columns : List (Column Rat),
      ((columns.filter fun column => column.integral && !column.slack).map fun column =>
        integersIn column.range).foldr (· * ·) 1 =
          (columns.map fun column => choices column column.range).prod := by
    intro columns
    induction columns with
    | nil => rfl
    | cons column columns ih =>
      rw [List.map_cons, List.prod_cons, ← ih, List.filter_cons, choices]
      split
      · rfl
      · rw [Nat.one_mul]
  exact congrArg (2 * · + 2 ^ 64) (product program.columns)

section Reduces

variable {before after : Presolve.State Rat}

theorem boxed_of_reduces (reduces : Presolve.Reduces before after)
    (boxed : before.program.Boxed) : after.program.Boxed := by
  intro column member flagged
  obtain ⟨source, there, narrower⟩ := reduces.source member
  obtain ⟨low, high⟩ := boxed source there (narrower.integral.symm.trans flagged)
  have bounds := Range.bounds_of_narrower narrower.range
  exact ⟨bounds.1 low, bounds.2 high⟩

theorem choices_le_of_narrower {column source : Column Rat}
    (narrower : Presolve.Narrower column source)
    (boxed : source.integral = true → source.range.lower ≠ none ∧ source.range.upper ≠ none) :
    choices column column.range ≤ choices source source.range := by
  unfold choices
  rw [narrower.integral, narrower.slack]
  split
  · rename_i chosen
    rw [Bool.and_eq_true] at chosen
    refine integersIn_le .positive (fun value held => ?_) (boxed chosen.1)
    simpa [Orientation.sign] using narrower.range value held
  · exact le_rfl

/-- A reduction leaves no more points than there were. -/
theorem programPoints_le_of_reduces (reduces : Presolve.Reduces before after)
    (boxed : before.program.Boxed) :
    programPoints after.program ≤ programPoints before.program := by
  obtain ⟨kept, narrower, sublist⟩ := List.sublistForall₂_iff.mp reduces.columns
  obtain ⟨length, columns⟩ := List.forall₂_iff_get.mp narrower
  refine List.SublistForall₂.prod_le_prod' ?_ fun count member => ?_
  · rw [List.sublistForall₂_map_left_iff, List.sublistForall₂_map_right_iff]
    refine List.sublistForall₂_iff.mpr ⟨kept,
      List.forall₂_iff_get.mpr ⟨length, fun index here there => ?_⟩, sublist⟩
    exact choices_le_of_narrower (columns index here there)
      (boxed _ (sublist.subset (List.get_mem kept _)))
  · obtain ⟨column, -, rfl⟩ := List.mem_map.mp member
    exact one_le_choices _ _

end Reduces

section WorkingForm

variable {start : Problem Rat}

/-- What a working column that is branched on stands for, if no integral column is free. -/
theorem exists_reference (form : start.InWorkingForm) (boxed : start.reference.Boxed)
    {place : Nat} {column : Column Rat} (known : start.working.columns[place]? = some column)
    (flagged : column.integral = true) (plain : column.slack = false) :
    ∃ (data : Column Rat) (orientation : Orientation), start.reference.columns[place]? = some data ∧
      data.integral = true ∧ (data.range.lower ≠ none ∧ data.range.upper ≠ none) ∧
      ∀ value, column.range.Admits value → data.range.Admits (orientation.sign * value) := by
  obtain ⟨index, data, there, integral, free | ⟨rfl, orientation, back⟩⟩ :=
    form.parts place column known plain
  · obtain ⟨low, -⟩ := boxed data (List.mem_of_getElem? there) (integral ▸ flagged)
    exact absurd (Range.free_of_admits free).1 low
  · have bounds := boxed data (List.mem_of_getElem? there) (integral ▸ flagged)
    exact ⟨data, orientation, there, integral ▸ flagged, bounds, back⟩

theorem boxedRanges_root (form : start.InWorkingForm) (boxed : start.reference.Boxed) :
    BoxedRanges start.working.columns (Node.root start.working).ranges := by
  intro place column range known found flagged plain
  simp only [Node.root, List.getElem?_map, known, Option.map_some, Option.some.injEq] at found
  subst found
  obtain ⟨data, orientation, -, -, bounds, back⟩ := exists_reference form boxed known flagged plain
  exact Range.bounds_of_mirrored orientation back bounds

/-- Counts that are one past the end of another list, and no larger before, have no larger
product. -/
theorem prod_le_of_getD {counts others : List Nat}
    (below : ∀ place count, counts[place]? = some count → count ≤ others.getD place 1)
    (positive : ∀ other ∈ others, 1 ≤ other) : counts.prod ≤ others.prod := by
  induction counts generalizing others with
  | nil => exact List.one_le_prod_of_one_le positive
  | cons count counts ih =>
    rw [List.prod_cons]
    cases others with
    | nil =>
      have rest := @ih [] (fun place later found => by simpa using below (place + 1) later found)
        (by simp)
      have first : count ≤ 1 := by simpa using below 0 count rfl
      simpa using Nat.mul_le_mul first rest
    | cons other others =>
      rw [List.prod_cons]
      refine Nat.mul_le_mul (by simpa using below 0 count rfl) (ih (fun place later found => ?_) ?_)
      · simpa using below (place + 1) later found
      · exact fun later member => positive later (List.mem_cons_of_mem other member)

/-- The working form leaves no more points than the reference program has. -/
theorem programPoints_working_le (form : start.InWorkingForm) (boxed : start.reference.Boxed)
    (structural : start.reference.Structural) :
    programPoints start.working ≤ programPoints start.reference := by
  refine prod_le_of_getD (fun place count found => ?_) fun count member => ?_
  · rw [List.getElem?_map] at found
    obtain ⟨column, known, rfl⟩ := Option.map_eq_some_iff.mp found
    rw [choices]
    split
    · rename_i chosen
      rw [Bool.and_eq_true, Bool.not_eq_true'] at chosen
      obtain ⟨data, orientation, there, flagged, bounds, back⟩ :=
        exists_reference form boxed known chosen.1 chosen.2
      have upright := (structural data (List.mem_of_getElem? there)).1
      rw [List.getD_eq_getElem?_getD, List.getElem?_map, there]
      simpa [choices, flagged, upright] using integersIn_le orientation back bounds
    · rw [List.getD_eq_getElem?_getD, List.getElem?_map]
      cases start.reference.columns[place]? with
      | none => exact le_rfl
      | some data => exact one_le_choices _ _
  · obtain ⟨column, -, rfl⟩ := List.mem_map.mp member
    exact one_le_choices _ _

end WorkingForm

end Search

end MixedInteger
