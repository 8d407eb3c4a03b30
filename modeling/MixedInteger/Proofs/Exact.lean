import Mathlib.Algebra.BigOperators.Intervals
import Mathlib.Algebra.Order.BigOperators.Group.Finset
import Mathlib.Data.Rat.Floor
import Mathlib.Tactic.FieldSimp
import Mathlib.Tactic.Linarith
import Mathlib.Tactic.Ring
import MixedInteger.Range
import MixedInteger.Relation

/-! Exact arithmetic has no tolerances: every comparison of the rational scalar is
the plain comparison of numbers, ranges are intervals and relations hold literally.
Later modules read rational solves only through these lemmas. -/
namespace MixedInteger

/-- A rational that is an integer. -/
def Whole (x : Rat) : Prop := ∃ z : Int, (z : Rat) = x

namespace Scalar

@[simp] theorem isZero_iff (x : Rat) : isZero x = true ↔ x = 0 := by
  unfold isZero
  exact beq_iff_eq

@[simp] theorem isZero_eq_false_iff (x : Rat) : isZero x = false ↔ x ≠ 0 := by
  rw [← Bool.not_eq_true, isZero_iff]

@[simp] theorem abs_rat (x : Rat) : Scalar.abs x = |x| := by
  change (if x < 0 then -x else x) = |x|
  split
  · rename_i negative
    exact (abs_of_neg negative).symm
  · rename_i nonnegative
    exact (abs_of_nonneg (not_lt.mp nonnegative)).symm

@[simp] theorem isNegligible_iff (x : Rat) : isNegligible x = true ↔ x = 0 := by
  have zero : (epsilon : Rat) = 0 := rfl
  simp [isNegligible, zero]

@[simp] theorem isPos_iff (x : Rat) : isPos x = true ↔ 0 < x := by
  have zero : (epsilon : Rat) = 0 := rfl
  simp [isPos, zero]

@[simp] theorem isNeg_iff (x : Rat) : isNeg x = true ↔ x < 0 := by
  have zero : (epsilon : Rat) = 0 := rfl
  simp [isNeg, zero]

@[simp] theorem exceeds_iff (x y : Rat) : exceeds x y = true ↔ y < x := by
  have zero : (tolerance : Rat) = 0 := rfl
  simp [exceeds, zero]

@[simp] theorem exceeds_eq_false_iff (x y : Rat) : exceeds x y = false ↔ x ≤ y := by
  rw [← Bool.not_eq_true, exceeds_iff, not_lt]

@[simp] theorem isPositive_iff (x : Rat) : isPositive x = true ↔ 0 < x := by
  change decide (0 < x) = true ↔ _
  simp

@[simp] theorem isNegative_iff (x : Rat) : isNegative x = true ↔ x < 0 := by
  change decide (x < 0) = true ↔ _
  simp

theorem isIntegral_iff (x : Rat) : isIntegral x = true ↔ Whole x := by
  change decide (x.den = 1) = true ↔ _
  rw [decide_eq_true_eq]
  constructor
  · intro one
    exact ⟨x.num, Rat.coe_int_num_of_den_eq_one one⟩
  · rintro ⟨z, rfl⟩
    exact Rat.den_intCast z

@[simp] theorem floor_rat (x : Rat) : Scalar.floor x = (⌊x⌋ : Rat) := rfl

@[simp] theorem ceil_rat (x : Rat) : Scalar.ceil x = (⌈x⌉ : Rat) := by
  change ((Rat.ceil x : Int) : Rat) = _
  have floor : (-x).floor = ⌊-x⌋ := rfl
  rw [Rat.ceil_eq_neg_floor_neg, floor, Int.floor_neg, neg_neg]

theorem clampZero_of_nonneg {x : Rat} (nonneg : 0 ≤ x) : clampZero x = x := by
  simp [clampZero, not_lt.mpr nonneg]

/-- The fractional part of a rational is its distance from the integer below. -/
@[simp] theorem fraction_rat (x : Rat) : fraction x = Int.fract x := by
  have nonneg : ¬ x - (⌊x⌋ : Rat) < 0 := not_lt.mpr (Int.fract_nonneg x)
  simp only [fraction, floor_rat, nonneg, ↓reduceIte]
  rfl

end Scalar

namespace Whole

theorem intCast (z : Int) : Whole (z : Rat) := ⟨z, rfl⟩

theorem zero : Whole 0 := ⟨0, rfl⟩

theorem one : Whole 1 := ⟨1, rfl⟩

theorem add {x y : Rat} (hx : Whole x) (hy : Whole y) : Whole (x + y) := by
  obtain ⟨a, rfl⟩ := hx
  obtain ⟨b, rfl⟩ := hy
  exact ⟨a + b, by push_cast; ring⟩

theorem neg {x : Rat} (hx : Whole x) : Whole (-x) := by
  obtain ⟨a, rfl⟩ := hx
  exact ⟨-a, by push_cast; ring⟩

theorem sub {x y : Rat} (hx : Whole x) (hy : Whole y) : Whole (x - y) := by
  rw [sub_eq_add_neg]
  exact hx.add hy.neg

theorem mul {x y : Rat} (hx : Whole x) (hy : Whole y) : Whole (x * y) := by
  obtain ⟨a, rfl⟩ := hx
  obtain ⟨b, rfl⟩ := hy
  exact ⟨a * b, by push_cast; ring⟩

/-- Rounding keeps an integer. -/
theorem round_eq {x : Rat} (whole : Whole x) : Scalar.round x = x := by
  obtain ⟨z, rfl⟩ := whole
  change ((Rat.floor ((z : Rat) + mkRat 1 2) : Int) : Rat) = z
  have half : (mkRat 1 2 : Rat) = 1 / 2 := by norm_num
  have floor : (⌊(z : Rat) + 1 / 2⌋ : Int) = z := by
    rw [Int.floor_eq_iff]
    constructor <;> linarith
  rw [half]
  exact congrArg _ floor

/-- Rounding gives an integer. -/
theorem round (x : Rat) : Whole (Scalar.round x) := ⟨_, rfl⟩

theorem le_floor {x y : Rat} (whole : Whole x) (le : x ≤ y) : x ≤ (⌊y⌋ : Rat) := by
  obtain ⟨z, rfl⟩ := whole
  exact_mod_cast Int.le_floor.mpr le

theorem ceil_le {x y : Rat} (whole : Whole x) (le : y ≤ x) : (⌈y⌉ : Rat) ≤ x := by
  obtain ⟨z, rfl⟩ := whole
  exact_mod_cast Int.ceil_le.mpr le

end Whole

namespace Range

/-- The values between the bounds. -/
def Admits (range : Range Rat) (x : Rat) : Prop :=
  (∀ lower, range.lower = some lower → lower ≤ x) ∧
    ∀ upper, range.upper = some upper → x ≤ upper

theorem admits_mk (lower upper : Option Rat) (x : Rat) : (Range.mk lower upper).Admits x ↔
    (∀ bound, lower = some bound → bound ≤ x) ∧ ∀ bound, upper = some bound → x ≤ bound := Iff.rfl

theorem contains_iff (range : Range Rat) (x : Rat) : range.contains x = true ↔ range.Admits x := by
  rcases range with ⟨_ | lower, _ | upper⟩ <;>
    simp [contains, Admits, ← Bool.not_eq_true]

theorem not_admits_of_isEmpty {range : Range Rat} (empty : range.isEmpty = true) (x : Rat) :
    ¬ range.Admits x := by
  rcases range with ⟨_ | lower, _ | upper⟩ <;> simp [isEmpty] at empty
  rintro ⟨above, below⟩
  have := above lower rfl
  have := below upper rfl
  linarith

theorem lower_le_upper {range : Range Rat} {lower upper : Rat} (nonempty : range.isEmpty = false)
    (low : range.lower = some lower) (up : range.upper = some upper) : lower ≤ upper := by
  simpa [isEmpty, low, up, ← Bool.not_eq_true] using nonempty

theorem exists_admits {range : Range Rat} (nonempty : range.isEmpty = false) :
    ∃ value, range.Admits value := by
  rcases range with ⟨_ | lower, _ | upper⟩
  · exact ⟨0, by simp, by simp⟩
  · exact ⟨upper, by simp, by simp⟩
  · exact ⟨lower, by simp, by simp⟩
  · have le := lower_le_upper nonempty rfl rfl
    exact ⟨lower, by simp, by simpa using le⟩

/-- A tightened lower bound excludes exactly what is below it. -/
theorem admits_tightenLower (range : Range Rat) (value x : Rat) :
    (range.tightenLower value).Admits x ↔ range.Admits x ∧ value ≤ x := by
  rcases range with ⟨_ | lower, upper⟩
  · simp [tightenLower, raises, Admits, and_comm]
  · by_cases tighter : value ≤ lower
    · simp only [tightenLower, raises, tighter, decide_true, Bool.not_true, Bool.false_eq_true,
        ↓reduceIte, Admits]
      constructor
      · intro held
        exact ⟨held, tighter.trans (held.1 lower rfl)⟩
      · exact And.left
    · simp only [tightenLower, raises, tighter, decide_false, Bool.not_false, ↓reduceIte, Admits,
        Option.some.injEq, forall_eq']
      constructor
      · rintro ⟨above, below⟩
        exact ⟨⟨(not_le.mp tighter).le.trans above, below⟩, above⟩
      · rintro ⟨⟨_, below⟩, above⟩
        exact ⟨above, below⟩

/-- A tightened upper bound excludes exactly what is above it. -/
theorem admits_tightenUpper (range : Range Rat) (value x : Rat) :
    (range.tightenUpper value).Admits x ↔ range.Admits x ∧ x ≤ value := by
  rcases range with ⟨lower, _ | upper⟩
  · simp [tightenUpper, lowers, Admits]
  · by_cases tighter : upper ≤ value
    · simp only [tightenUpper, lowers, tighter, decide_true, Bool.not_true, Bool.false_eq_true,
        ↓reduceIte, Admits]
      constructor
      · intro held
        exact ⟨held, (held.2 upper rfl).trans tighter⟩
      · exact And.left
    · simp only [tightenUpper, lowers, tighter, decide_false, Bool.not_false, ↓reduceIte, Admits,
        Option.some.injEq, forall_eq']
      constructor
      · rintro ⟨above, below⟩
        exact ⟨⟨above, below.trans (not_le.mp tighter).le⟩, below⟩
      · rintro ⟨⟨above, _⟩, below⟩
        exact ⟨above, below⟩

/-- Rounding bounds inward loses values but adds none. -/
theorem admits_of_roundInward {range : Range Rat} {x : Rat} (held : range.roundInward.Admits x) :
    range.Admits x := by
  refine ⟨fun lower eq => ?_, fun upper eq => ?_⟩
  · exact (Int.le_ceil lower).trans (held.1 _ (by simp [roundInward, eq]))
  · exact (held.2 _ (by simp [roundInward, eq])).trans (Int.floor_le upper)

/-- Rounding bounds inward keeps every integer. -/
theorem admits_roundInward {range : Range Rat} {x : Rat} (whole : Whole x) :
    range.roundInward.Admits x ↔ range.Admits x := by
  refine ⟨admits_of_roundInward, fun held => ⟨fun lower eq => ?_, fun upper eq => ?_⟩⟩
  · obtain ⟨old, known, rfl⟩ := Option.map_eq_some_iff.mp eq
    simpa using whole.ceil_le (held.1 old known)
  · obtain ⟨old, known, rfl⟩ := Option.map_eq_some_iff.mp eq
    simpa using whole.le_floor (held.2 old known)

/-- Both finite bounds are integers. -/
def WholeBounds (range : Range Rat) : Prop :=
  (∀ lower, range.lower = some lower → Whole lower) ∧
    ∀ upper, range.upper = some upper → Whole upper

theorem roundInward_wholeBounds (range : Range Rat) : range.roundInward.WholeBounds := by
  constructor
  · intro lower eq
    obtain ⟨old, -, rfl⟩ := Option.map_eq_some_iff.mp eq
    exact ⟨⌈old⌉, (Scalar.ceil_rat old).symm⟩
  · intro upper eq
    obtain ⟨old, -, rfl⟩ := Option.map_eq_some_iff.mp eq
    exact ⟨⌊old⌋, rfl⟩

theorem isFixed_iff (range : Range Rat) :
    range.isFixed = true ↔ ∃ value, range.lower = some value ∧ range.upper = some value := by
  have zero : (Scalar.tolerance : Rat) = 0 := rfl
  rcases range with ⟨_ | lower, _ | upper⟩ <;> simp [isFixed, zero, sub_eq_zero, eq_comm]

end Range

namespace Relation

/-- The relation between two numbers, taken literally. -/
def Holds : Relation → Rat → Rat → Prop
  | le, lhs, rhs => lhs ≤ rhs
  | eq, lhs, rhs => lhs = rhs
  | ge, lhs, rhs => rhs ≤ lhs

theorem holdsWithin_zero_iff (relation : Relation) (lhs rhs : Rat) :
    relation.holdsWithin lhs rhs 0 = true ↔ relation.Holds lhs rhs := by
  cases relation <;> simp [holdsWithin, Holds, sub_eq_zero]

theorem holds_iff (relation : Relation) (lhs rhs : Rat) :
    relation.holds lhs rhs = true ↔ relation.Holds lhs rhs :=
  relation.holdsWithin_zero_iff lhs rhs

/-- Dividing both sides by a negative number flips the relation. -/
theorem flipped_holds_div {relation : Relation} {a x rhs : Rat} (negative : a < 0) :
    relation.Holds (a * x) rhs ↔ relation.flipped.Holds x (rhs / a) := by
  cases relation
  · exact (div_le_iff_of_neg' negative).symm
  · simp only [Holds, flipped, eq_div_iff negative.ne, mul_comm]
  · exact (le_div_iff_of_neg' negative).symm

/-- Dividing both sides by a positive number keeps the relation. -/
theorem holds_div {relation : Relation} {a x rhs : Rat} (positive : 0 < a) :
    relation.Holds (a * x) rhs ↔ relation.Holds x (rhs / a) := by
  cases relation
  · exact (le_div_iff₀' positive).symm
  · simp only [Holds, eq_div_iff positive.ne', mul_comm]
  · exact (div_le_iff₀' positive).symm

end Relation

end MixedInteger
