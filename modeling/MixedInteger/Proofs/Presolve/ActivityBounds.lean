import MixedInteger.Proofs.Recession
import MixedInteger.Presolve.Rows
import MixedInteger.Presolve.Bounds

/-! The activity of a row encloses every value the row takes on the box of ranges, also
with one column's term taken out again, and a row that meets one of its bounds pins every
column that occurs in it. Least and greatest activity are two sides of one argument: a
side is a Boolean, true for the least, and `sense` turns the order around for the other.
The sum is followed term by term. For directions every finite bound is zero, and exactly the
same terms are infinite. -/
namespace MixedInteger

namespace Activity

/-- The factor that makes both sides a lower bound. -/
def sense : Bool → Rat
  | true => 1
  | false => -1

/-- One side of an activity: its finite part and the number of infinite terms. -/
def side (activity : Activity Rat) : Bool → Rat × Nat
  | true => (activity.min, activity.minInfinite)
  | false => (activity.max, activity.maxInfinite)

/-- The bound of a range at which `a * x` is extreme. -/
def pinned (a : Rat) (range : Range Rat) (atMin : Bool) : Option Rat :=
  if Scalar.isPositive a == atMin then range.lower else range.upper

/-- A side with another contribution, infinite ones being counted. -/
def extend (side : Rat × Nat) : Option Rat → Rat × Nat
  | some value => (side.1 + value, side.2)
  | none => (side.1, side.2 + 1)

theorem contribution_eq (a : Rat) (range : Range Rat) :
    contribution a range =
      ((pinned a range true).map (a * ·), (pinned a range false).map (a * ·)) := by
  unfold contribution pinned
  cases Scalar.isPositive a <;> rfl

theorem side_addTerm (activity : Activity Rat) (a : Rat) (range : Range Rat) (atMin : Bool) :
    (activity.addTerm a range).side atMin =
      extend (activity.side atMin) ((pinned a range atMin).map (a * ·)) := by
  simp only [addTerm, contribution_eq]
  cases atMin
  · cases pinned a range false <;> rfl
  · cases pinned a range true <;> rfl

/-- The pinned value is extreme among the values of the range. -/
theorem pinned_extreme {a x bound : Rat} {range : Range Rat} {atMin : Bool} (held : range.Admits x)
    (known : pinned a range atMin = some bound) :
    sense atMin * (a * bound) ≤ sense atMin * (a * x) := by
  unfold pinned at known
  by_cases positive : 0 < a
  · rw [(Scalar.isPositive_iff a).mpr positive] at known
    cases atMin
    · have := mul_le_mul_of_nonneg_left (held.2 bound known) positive.le
      simp only [sense]
      linarith
    · have := mul_le_mul_of_nonneg_left (held.1 bound known) positive.le
      simp only [sense]
      linarith
  · have sign : Scalar.isPositive a = false := by simpa [← Bool.not_eq_true] using positive
    rw [sign] at known
    cases atMin
    · have := mul_le_mul_of_nonpos_left (held.1 bound known) (not_lt.mp positive)
      simp only [sense]
      linarith
    · have := mul_le_mul_of_nonpos_left (held.2 bound known) (not_lt.mp positive)
      simp only [sense]
      linarith

/-! ### Sums over a row -/

/-- The values lie in the ranges of the columns. -/
def InBox (columns : List (Column Rat)) (x : List Rat) : Prop :=
  List.Forall₂ (fun column value => column.range.Admits value) columns x

/-- The sum over a row on one side; columns that do not occur contribute nothing. -/
def sideSum (atMin : Bool) : List Rat → List (Column Rat) → Rat × Nat → Rat × Nat
  | a :: coefs, column :: columns, total =>
    sideSum atMin coefs columns
      (if a = 0 then total else extend total ((pinned a column.range atMin).map (a * ·)))
  | _, _, total => total

theorem side_ofRow (coefs : List Rat) (columns : List (Column Rat)) (atMin : Bool) :
    (ofRow coefs columns).side atMin = sideSum atMin coefs columns (0, 0) := by
  suffices general : ∀ activity : Activity Rat,
      ((coefs.zip columns).foldl (fun activity (a, column) =>
        if Scalar.isZero a then activity else activity.addTerm a column.range) activity).side atMin =
      sideSum atMin coefs columns (activity.side atMin) by
    have start : (zero : Activity Rat).side atMin = (0, 0) := by cases atMin <;> rfl
    rw [ofRow, general, start]
  induction coefs generalizing columns with
  | nil => intro activity; rfl
  | cons a coefs ih =>
    intro activity
    cases columns with
    | nil => rfl
    | cons column columns =>
      rw [List.zip_cons_cons, List.foldl_cons, ih, sideSum]
      by_cases absent : a = 0
      · simp [absent]
      · have present : Scalar.isZero a = false := by simpa [← Bool.not_eq_true] using absent
        simp [absent, present, side_addTerm]

variable {coefs x : List Rat} {columns : List (Column Rat)} {atMin : Bool}

/-- Infinite terms are never taken back. -/
theorem finite_of_sideSum {total : Rat × Nat} (finite : (sideSum atMin coefs columns total).2 = 0) :
    total.2 = 0 := by
  induction coefs generalizing columns total with
  | nil => exact finite
  | cons a coefs ih =>
    cases columns with
    | nil => exact finite
    | cons column columns =>
      have before := ih (by simpa [sideSum] using finite)
      by_cases absent : a = 0
      · simpa [absent] using before
      · cases known : pinned a column.range atMin with
        | none => simp [absent, known, extend] at before
        | some bound => simpa [absent, known, extend] using before

/-- A finite side bounds the row's value everywhere in the box. -/
theorem sideSum_bounds (inside : InBox columns x) {total : Rat × Nat}
    (finite : (sideSum atMin coefs columns total).2 = 0) :
    sense atMin * (sideSum atMin coefs columns total).1 ≤
      sense atMin * (total.1 + dot coefs x) := by
  induction inside generalizing coefs total with
  | nil =>
    cases coefs <;> simp [sideSum]
  | @cons column value columns x held _ ih =>
    cases coefs with
    | nil => simp [sideSum]
    | cons a coefs =>
      rw [sideSum] at finite ⊢
      have step := ih finite
      by_cases absent : a = 0
      · simpa [absent] using step
      · cases known : pinned a column.range atMin with
        | none =>
          have before := finite_of_sideSum finite
          simp [absent, known, extend] at before
        | some bound =>
          have extreme := pinned_extreme held known
          simp only [absent, known, extend, Option.map_some, ↓reduceIte] at step ⊢
          rw [dot_cons]
          linarith

/-- A point whose row value meets a finite side has every occurring column pinned. -/
theorem pinned_of_sideSum (inside : InBox columns x) {total : Rat × Nat}
    (finite : (sideSum atMin coefs columns total).2 = 0)
    (meets : sense atMin * (total.1 + dot coefs x) ≤
      sense atMin * (sideSum atMin coefs columns total).1)
    {index : Nat} {a : Rat} {column : Column Rat} (coef : coefs[index]? = some a) (occurs : a ≠ 0)
    (known : columns[index]? = some column) :
    pinned a column.range atMin = some (x.getD index 0) := by
  induction inside generalizing coefs total index with
  | nil => simp at known
  | @cons first value columns x held inside ih =>
    cases coefs with
    | nil => simp at coef
    | cons b coefs =>
      rw [sideSum] at finite meets
      have within := sideSum_bounds inside finite
      by_cases absent : b = 0
      · cases index with
        | zero => simp_all
        | succ index =>
          refine ih finite ?_ (by simpa using coef) (by simpa using known)
          simpa [absent] using meets
      · cases own : pinned b first.range atMin with
        | none =>
          have before := finite_of_sideSum finite
          simp [absent, own, extend] at before
        | some bound =>
          have extreme := pinned_extreme held own
          simp only [absent, own, extend, Option.map_some, ↓reduceIte, dot_cons] at within meets finite
          cases index with
          | zero =>
            -- both inequalities are tight, so the first term is at its extreme
            obtain rfl : first = column := by simpa using known
            obtain rfl : b = a := by simpa using coef
            have tight : sense atMin * (b * bound) = sense atMin * (b * value) := by linarith
            have nonzero : sense atMin ≠ 0 := by cases atMin <;> simp [sense]
            have same := mul_left_cancel₀ absent (mul_left_cancel₀ nonzero tight)
            simp [own, same]
          | succ index =>
            refine ih finite ?_ (by simpa using coef) (by simpa using known)
            linarith

/-- With every occurring column pinned the row's value meets the side. -/
theorem sideSum_of_pinned {total : Rat × Nat} (same : columns.length = x.length)
    (all : ∀ (index : Nat) (a : Rat) (column : Column Rat), coefs[index]? = some a → a ≠ 0 →
      columns[index]? = some column → pinned a column.range atMin = some (x.getD index 0)) :
    (sideSum atMin coefs columns total).1 = total.1 + dot coefs x := by
  induction coefs generalizing columns x total with
  | nil => simp [sideSum]
  | cons a coefs ih =>
    cases columns with
    | nil =>
      obtain rfl : x = [] := List.length_eq_zero_iff.mp same.symm
      simp [sideSum]
    | cons column columns =>
      cases x with
      | nil => simp at same
      | cons value x =>
        rw [sideSum, dot_cons, ih (x := x) (by simpa using same)
          fun index b other coef occurs known => by
            simpa using all (index + 1) b other (by simpa using coef) occurs (by simpa using known)]
        by_cases absent : a = 0
        · simp [absent]
        · have own := all 0 a column rfl absent rfl
          simp only [List.getD_cons_zero] at own
          simp [absent, own, extend, add_assoc]

/-- A finite side has a bound to pin every occurring column to. -/
theorem exists_pinned {total : Rat × Nat} (finite : (sideSum atMin coefs columns total).2 = 0)
    {index : Nat} {a : Rat} {column : Column Rat} (coef : coefs[index]? = some a) (occurs : a ≠ 0)
    (known : columns[index]? = some column) : ∃ bound, pinned a column.range atMin = some bound := by
  induction coefs generalizing columns total index with
  | nil => simp at coef
  | cons b coefs ih =>
    cases columns with
    | nil => simp at known
    | cons first columns =>
      rw [sideSum] at finite
      cases index with
      | zero =>
        obtain rfl : first = column := by simpa using known
        obtain rfl : b = a := by simpa using coef
        cases own : pinned b first.range atMin with
        | none =>
          have before := finite_of_sideSum finite
          simp [occurs, own, extend] at before
        | some bound => exact ⟨bound, rfl⟩
      | succ index => exact ih finite (by simpa using coef) (by simpa using known)

/-- A side of an activity, if it is finite. -/
def finiteSide (activity : Activity Rat) (atMin : Bool) : Option Rat :=
  if (activity.side atMin).2 = 0 then some (activity.side atMin).1 else none

theorem finiteMin_eq (activity : Activity Rat) : activity.finiteMin = activity.finiteSide true := rfl

theorem finiteMax_eq (activity : Activity Rat) : activity.finiteMax = activity.finiteSide false :=
  rfl

theorem finiteSide_eq_some {bound : Rat}
    (known : (ofRow coefs columns).finiteSide atMin = some bound) :
    (sideSum atMin coefs columns (0, 0)).2 = 0 ∧
      (sideSum atMin coefs columns (0, 0)).1 = bound := by
  simpa [finiteSide, side_ofRow] using known

/-- A finite side of a row's activity bounds the row everywhere in the box. -/
theorem finiteSide_bounds {bound : Rat}
    (known : (ofRow coefs columns).finiteSide atMin = some bound) (inside : InBox columns x) :
    sense atMin * bound ≤ sense atMin * dot coefs x := by
  obtain ⟨finite, rfl⟩ := finiteSide_eq_some known
  simpa using sideSum_bounds inside finite

theorem finiteMin_le {bound : Rat} (known : (ofRow coefs columns).finiteMin = some bound)
    (inside : InBox columns x) : bound ≤ dot coefs x := by
  rw [finiteMin_eq] at known
  simpa [sense] using finiteSide_bounds known inside

theorem le_finiteMax {bound : Rat} (known : (ofRow coefs columns).finiteMax = some bound)
    (inside : InBox columns x) : dot coefs x ≤ bound := by
  rw [finiteMax_eq] at known
  simpa [sense] using finiteSide_bounds known inside

/-! ### One column taken out -/

/-- Without its own contribution a side bounds the rest of the sum. An infinite own
contribution has been counted. -/
def BoundsRest (atMin : Bool) (side : Rat × Nat) (own : Option Rat) (rest : Rat) : Prop :=
  (∀ bound, residual side.1 side.2 own = some bound → sense atMin * bound ≤ sense atMin * rest) ∧
    (own = none → 0 < side.2)

theorem boundsRest_extend {side : Rat × Nat} {own : Option Rat} {total : Rat}
    (bounds : side.2 = 0 → sense atMin * side.1 ≤ sense atMin * total) :
    BoundsRest atMin (extend side own) own total := by
  obtain ⟨sum, infinite⟩ := side
  refine ⟨fun bound known => ?_, fun missing => ?_⟩
  · rcases own with _ | value <;> rcases infinite with _ | count <;>
      simp only [extend, residual, Nat.zero_add, add_sub_cancel_right, Option.some.injEq,
        reduceCtorEq] at known
    · exact known ▸ bounds rfl
    · exact known ▸ bounds rfl
  · subst missing
    exact Nat.succ_pos _

theorem BoundsRest.extend {side : Rat × Nat} {own other : Option Rat} {rest term : Rat}
    (bounds : BoundsRest atMin side own rest)
    (fits : ∀ value, other = some value → sense atMin * value ≤ sense atMin * term) :
    BoundsRest atMin (Activity.extend side other) own (rest + term) := by
  obtain ⟨within, counted⟩ := bounds
  obtain ⟨sum, infinite⟩ := side
  refine ⟨fun bound known => ?_, fun missing => ?_⟩
  · cases other with
    | none =>
      -- a second infinite contribution leaves no bound
      cases own with
      | none =>
        obtain ⟨count, rfl⟩ := Nat.exists_eq_succ_of_ne_zero (counted rfl).ne'
        simp [Activity.extend, residual] at known
      | some old => simp [Activity.extend, residual] at known
    | some value =>
      have small := fits value rfl
      rcases own with _ | old
      · rcases infinite with _ | _ | count
        · simp [Activity.extend, residual] at known
        · have := within sum rfl
          simp only [Activity.extend, residual, Option.some.injEq] at known
          rw [← known]
          linarith
        · simp [Activity.extend, residual] at known
      · rcases infinite with _ | count
        · have := within (sum - old) rfl
          simp only [Activity.extend, residual, Option.some.injEq] at known
          rw [← known]
          linarith
        · simp [Activity.extend, residual] at known
  · have := counted missing
    cases other <;> simp_all [Activity.extend]

theorem sideSum_boundsRest (inside : InBox columns x) {side : Rat × Nat} {own : Option Rat}
    {rest : Rat} (bounds : BoundsRest atMin side own rest) :
    BoundsRest atMin (sideSum atMin coefs columns side) own (rest + dot coefs x) := by
  induction inside generalizing coefs side rest with
  | nil => cases coefs <;> simpa [sideSum] using bounds
  | @cons column value columns x held _ ih =>
    cases coefs with
    | nil => simpa [sideSum] using bounds
    | cons b coefs =>
      rw [sideSum, dot_cons, ← add_assoc]
      refine ih ?_
      by_cases absent : b = 0
      · simpa [absent] using bounds
      · simp only [absent, ↓reduceIte]
        refine bounds.extend fun term known => ?_
        obtain ⟨bound, pin, rfl⟩ := Option.map_eq_some_iff.mp known
        exact pinned_extreme held pin

/-- Taking out the term of a column that occurs leaves bounds on the rest of the row. -/
theorem sideSum_rest (inside : InBox columns x) {index : Nat} {column : Column Rat} {a : Rat}
    (known : columns[index]? = some column) (coef : coefs[index]? = some a) (occurs : a ≠ 0)
    {side : Rat × Nat} {total : Rat}
    (bounds : side.2 = 0 → sense atMin * side.1 ≤ sense atMin * total) :
    BoundsRest atMin (sideSum atMin coefs columns side) ((pinned a column.range atMin).map (a * ·))
      (total + (dot coefs x - a * x.getD index 0)) := by
  induction inside generalizing coefs index side total with
  | nil => simp at known
  | @cons first value columns x held inside ih =>
    cases coefs with
    | nil => simp at coef
    | cons b coefs =>
      rw [sideSum]
      cases index with
      | zero =>
        -- the column's own term: from here on the bounds exclude it
        obtain rfl : first = column := by simpa using known
        obtain rfl : b = a := by simpa using coef
        simp only [occurs, ↓reduceIte]
        let own := (pinned b first.range atMin).map (b * ·)
        have rest : BoundsRest atMin (sideSum atMin coefs columns (extend side own)) own
            (total + dot coefs x) := sideSum_boundsRest inside (boundsRest_extend bounds)
        simpa [add_sub_cancel_left] using rest
      | succ index =>
        have regroup : total + (dot (b :: coefs) (value :: x) - a * (value :: x).getD (index + 1) 0) =
            total + b * value + (dot coefs x - a * x.getD index 0) := by
          simp only [dot_cons, List.getD_cons_succ]
          ring
        rw [regroup]
        refine ih (by simpa using known) (by simpa using coef) ?_
        by_cases absent : b = 0
        · simpa [absent] using bounds
        · cases own : pinned b first.range atMin with
          | none => simp [absent, extend]
          | some bound =>
            have extreme := pinned_extreme held own
            simp only [absent, extend, Option.map_some, ↓reduceIte]
            intro finite
            have := bounds finite
            linarith

theorem boundsRest_ofRow {index : Nat} {column : Column Rat} {a : Rat}
    (inside : InBox columns x) (known : columns[index]? = some column)
    (coef : coefs[index]? = some a) (occurs : a ≠ 0) (atMin : Bool) :
    BoundsRest atMin ((ofRow coefs columns).side atMin)
      ((pinned a column.range atMin).map (a * ·)) (dot coefs x - a * x.getD index 0) := by
  have start : ((0, 0) : Rat × Nat).2 = 0 → sense atMin * ((0, 0) : Rat × Nat).1 ≤
      sense atMin * 0 := fun _ => le_refl _
  have rest := sideSum_rest inside known coef occurs start
  rwa [zero_add, ← side_ofRow] at rest

theorem residualMin_le {index : Nat} {column : Column Rat} {a bound : Rat}
    (inside : InBox columns x) (known : columns[index]? = some column)
    (coef : coefs[index]? = some a) (occurs : a ≠ 0)
    (rest : (ofRow coefs columns).residualMin a column.range = some bound) :
    bound ≤ dot coefs x - a * x.getD index 0 := by
  have within := (boundsRest_ofRow inside known coef occurs true).1 bound
    (by simpa [residualMin, contribution_eq, side] using rest)
  simpa [sense] using within

theorem le_residualMax {index : Nat} {column : Column Rat} {a bound : Rat}
    (inside : InBox columns x) (known : columns[index]? = some column)
    (coef : coefs[index]? = some a) (occurs : a ≠ 0)
    (rest : (ofRow coefs columns).residualMax a column.range = some bound) :
    dot coefs x - a * x.getD index 0 ≤ bound := by
  have within := (boundsRest_ofRow inside known coef occurs false).1 bound
    (by simpa [residualMax, contribution_eq, side] using rest)
  simp only [sense] at within
  linarith

/-! ### Directions -/

theorem pinned_recession (a : Rat) (range : Range Rat) (atMin : Bool) :
    pinned a range.recession atMin = (pinned a range atMin).map fun _ => 0 := by
  unfold pinned
  split <;> rfl

theorem sideSum_recession (atMin : Bool) (coefs : List Rat) (columns : List (Column Rat))
    (total : Rat × Nat) : sideSum atMin coefs (columns.map Column.recession) (0, total.2) =
      (0, (sideSum atMin coefs columns total).2) := by
  induction coefs generalizing columns total with
  | nil => rfl
  | cons a coefs ih =>
    cases columns with
    | nil => rfl
    | cons column columns =>
      rw [List.map_cons, sideSum, sideSum, ← ih]
      by_cases absent : a = 0
      · simp [absent]
      · simp only [absent, ↓reduceIte, Column.recession, pinned_recession]
        cases pinned a column.range atMin <;> simp [extend]

theorem side_recession (coefs : List Rat) (columns : List (Column Rat)) (atMin : Bool) :
    (ofRow coefs (columns.map Column.recession)).side atMin =
      (0, ((ofRow coefs columns).side atMin).2) := by
  rw [side_ofRow, side_ofRow]
  exact sideSum_recession atMin coefs columns (0, 0)

/-- A side is finite for directions exactly when it is for points. -/
theorem finiteSide_recession (coefs : List Rat) (columns : List (Column Rat)) (atMin : Bool) :
    (ofRow coefs (columns.map Column.recession)).finiteSide atMin =
      ((ofRow coefs columns).finiteSide atMin).map fun _ => 0 := by
  rw [finiteSide, finiteSide, side_recession]
  split <;> rfl

theorem residual_recession (sum : Rat) (infinite : Nat) (own : Option Rat) :
    residual (0 : Rat) infinite (own.map fun _ => 0) =
      (residual sum infinite own).map fun _ => 0 := by
  rcases own with _ | value <;> rcases infinite with _ | _ | count <;> simp [residual]

theorem contribution_recession (a : Rat) (range : Range Rat) :
    contribution a range.recession = ((contribution a range).1.map fun _ => 0,
      (contribution a range).2.map fun _ => 0) := by
  simp [contribution_eq, pinned_recession, Function.comp_def]

theorem residualMin_recession (coefs : List Rat) (columns : List (Column Rat)) (a : Rat)
    (range : Range Rat) :
    (ofRow coefs (columns.map Column.recession)).residualMin a range.recession =
      ((ofRow coefs columns).residualMin a range).map fun _ => 0 := by
  have least := side_recession coefs columns true
  simp only [side, Prod.mk.injEq] at least
  rw [residualMin, residualMin, contribution_recession, least.1, least.2]
  exact residual_recession _ _ _

theorem residualMax_recession (coefs : List Rat) (columns : List (Column Rat)) (a : Rat)
    (range : Range Rat) :
    (ofRow coefs (columns.map Column.recession)).residualMax a range.recession =
      ((ofRow coefs columns).residualMax a range).map fun _ => 0 := by
  have greatest := side_recession coefs columns false
  simp only [side, Prod.mk.injEq] at greatest
  rw [residualMax, residualMax, contribution_recession, greatest.1, greatest.2]
  exact residual_recession _ _ _

end Activity

theorem Activity.inBox_of_admits {columns : List (Column Rat)} {x : List Rat}
    (length : x.length = columns.length)
    (ranges : ∀ (index : Nat) (column : Column Rat), columns[index]? = some column →
      column.range.Admits (x.getD index 0)) : InBox columns x := by
  refine List.forall₂_iff_get.mpr ⟨length.symm, fun index inside inside' => ?_⟩
  have := ranges index _ (List.getElem?_eq_getElem inside)
  simpa [List.getElem?_eq_getElem inside'] using this

theorem Program.Satisfies.inBox {program : Program Rat} {x : List Rat}
    (held : program.Satisfies x) : Activity.InBox program.columns x :=
  Activity.inBox_of_admits held.length held.ranges

end MixedInteger
