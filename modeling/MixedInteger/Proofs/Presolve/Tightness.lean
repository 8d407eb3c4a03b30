import MixedInteger.Presolve.Columns
import MixedInteger.Proofs.Presolve.BoundTightening

/-! Activity bounds are exact. A side of a row's activity is a sum with one term per column that
occurs, so the side with a term taken out is the side of the row without that coefficient. Over
ranges that are not empty a finite side is attained, and a side with an infinite term is passed
by some point of the box. The bounds that a row implies for one of its columns are therefore the
least and the greatest value that the row allows beside the other ranges. -/
namespace MixedInteger

namespace Activity

/-! ### A side as a sum -/

/-- What a contribution adds to a side. -/
def term : Option Rat → Rat × Nat
  | some value => (value, 0)
  | none => (0, 1)

theorem extend_eq_add (side : Rat × Nat) (own : Option Rat) : extend side own = side + term own := by
  cases own <;> simp [extend, term, Prod.ext_iff]

/-- The term of one column in a side; columns that do not occur have none. -/
def termOf (atMin : Bool) (a : Rat) (column : Column Rat) : Rat × Nat :=
  if a = 0 then (0, 0) else term ((pinned a column.range atMin).map (a * ·))

theorem termOf_zero (atMin : Bool) (column : Column Rat) : termOf atMin 0 column = (0, 0) := if_pos rfl

theorem termOf_of_ne_zero {a : Rat} (occurs : a ≠ 0) (atMin : Bool) (column : Column Rat) :
    termOf atMin a column = term ((pinned a column.range atMin).map (a * ·)) := if_neg occurs

/-- One side of a row's activity. -/
abbrev rowSide (atMin : Bool) (coefs : List Rat) (columns : List (Column Rat)) : Rat × Nat :=
  (ofRow coefs columns).side atMin

section Sums

variable (atMin : Bool) (a : Rat) (coefs : List Rat) (column : Column Rat) (columns : List (Column Rat))

theorem sideSum_eq_add (total : Rat × Nat) :
    sideSum atMin coefs columns total = total + sideSum atMin coefs columns (0, 0) := by
  induction coefs generalizing columns total with
  | nil => simp [sideSum]
  | cons a coefs ih =>
    cases columns with
    | nil => simp [sideSum]
    | cons column columns =>
      rw [sideSum, sideSum, ih columns, ih columns (if a = 0 then (0, 0) else _)]
      by_cases absent : a = 0
      · simp [absent]
      · simp only [absent, ↓reduceIte, extend_eq_add, Prod.mk_zero_zero, zero_add, add_assoc]

theorem rowSide_nil_left : rowSide atMin [] columns = (0, 0) := by
  rw [rowSide, side_ofRow]
  rfl

theorem rowSide_cons : rowSide atMin (a :: coefs) (column :: columns) =
    termOf atMin a column + rowSide atMin coefs columns := by
  simp only [rowSide, side_ofRow]
  rw [sideSum, sideSum_eq_add, termOf]
  by_cases absent : a = 0
  · simp [absent]
  · simp only [absent, ↓reduceIte, extend_eq_add, Prod.mk_zero_zero, zero_add]

end Sums

/-- A side is the term of one column and the side of the row without that coefficient. -/
theorem rowSide_eq_add (atMin : Bool) {coefs : List Rat} {columns : List (Column Rat)} {index : Nat}
    {a : Rat} {column : Column Rat} (coef : coefs[index]? = some a)
    (known : columns[index]? = some column) :
    rowSide atMin coefs columns =
      termOf atMin a column + rowSide atMin (coefs.set index 0) columns := by
  induction index generalizing coefs columns with
  | zero =>
    cases coefs with
    | nil => cases coef
    | cons b coefs =>
      cases columns with
      | nil => cases known
      | cons first columns =>
        obtain rfl := Option.some.inj coef
        obtain rfl := Option.some.inj known
        rw [List.set_cons_zero, rowSide_cons, rowSide_cons, termOf_zero, Prod.mk_zero_zero, zero_add]
  | succ index ih =>
    cases coefs with
    | nil => cases coef
    | cons b coefs =>
      cases columns with
      | nil => cases known
      | cons first columns =>
        rw [List.set_cons_succ, rowSide_cons, rowSide_cons, ih coef known, add_left_comm]

/-! ### Extreme values -/

/-- An optional bound on one side of a set is its extreme value, and is missing where values go
beyond every limit. -/
def Extreme (atMin : Bool) (values : Set Rat) : Option Rat → Prop
  | some bound => bound ∈ values ∧ ∀ value ∈ values, sense atMin * bound ≤ sense atMin * value
  | none => ∀ limit, ∃ value ∈ values, sense atMin * value < limit

/-- The least value of a set, there if the set is bounded below. -/
def LeastOf (values : Set Rat) (bound : Option Rat) : Prop :=
  (bound ≠ none ↔ BddBelow values) ∧ ∀ least, bound = some least → IsLeast values least

/-- The greatest value of a set, there if the set is bounded above. -/
def GreatestOf (values : Set Rat) (bound : Option Rat) : Prop :=
  (bound ≠ none ↔ BddAbove values) ∧ ∀ greatest, bound = some greatest → IsGreatest values greatest

section Extremes

variable {atMin : Bool} {values : Set Rat} {bound : Option Rat}

theorem Extreme.leastOf (extreme : Extreme true values bound) : LeastOf values bound := by
  cases bound with
  | some least =>
    obtain ⟨member, below⟩ := extreme
    have isLeast : IsLeast values least := by
      refine ⟨member, fun value inside => ?_⟩
      simpa [sense] using below value inside
    constructor
    · simpa using isLeast.bddBelow
    · intro other same
      exact Option.some.inj same ▸ isLeast
  | none =>
    constructor
    · simp only [ne_eq, not_true_eq_false, false_iff]
      rintro ⟨limit, below⟩
      obtain ⟨value, inside, beyond⟩ := extreme limit
      have := below inside
      simp only [sense, one_mul] at beyond
      exact absurd beyond (not_lt.mpr this)
    · rintro _ ⟨⟩

theorem Extreme.greatestOf (extreme : Extreme false values bound) : GreatestOf values bound := by
  cases bound with
  | some greatest =>
    obtain ⟨member, above⟩ := extreme
    have isGreatest : IsGreatest values greatest := by
      refine ⟨member, fun value inside => ?_⟩
      have := above value inside
      simp only [sense] at this
      linarith
    constructor
    · simpa using isGreatest.bddAbove
    · intro other same
      exact Option.some.inj same ▸ isGreatest
  | none =>
    constructor
    · simp only [ne_eq, not_true_eq_false, false_iff]
      rintro ⟨limit, above⟩
      obtain ⟨value, inside, beyond⟩ := extreme (-limit)
      have := above inside
      simp only [sense] at beyond
      linarith
    · rintro _ ⟨⟩

/-- What the least value says where a count of infinite terms decides whether it is there. -/
theorem LeastOf.of_count {infinite : Nat} {sum : Rat}
    (least : LeastOf values (if infinite = 0 then some sum else none)) :
    (infinite = 0 ↔ BddBelow values) ∧ (infinite = 0 → IsLeast values sum) := by
  by_cases finite : infinite = 0 <;> simpa [LeastOf, finite] using least

/-- What the greatest value says where a count of infinite terms decides whether it is there. -/
theorem GreatestOf.of_count {infinite : Nat} {sum : Rat}
    (greatest : GreatestOf values (if infinite = 0 then some sum else none)) :
    (infinite = 0 ↔ BddAbove values) ∧ (infinite = 0 → IsGreatest values sum) := by
  by_cases finite : infinite = 0 <;> simpa [GreatestOf, finite] using greatest

/-- Being on the right side of an extreme value is not to be beyond every value. -/
theorem Extreme.respects_iff (extreme : Extreme atMin values bound) (value : Rat) :
    (∀ limit, bound = some limit → sense atMin * limit ≤ sense atMin * value) ↔
      ∃ other ∈ values, sense atMin * other ≤ sense atMin * value := by
  cases bound with
  | some limit =>
    obtain ⟨member, below⟩ := extreme
    constructor
    · intro respects
      exact ⟨limit, member, respects limit rfl⟩
    · rintro ⟨other, inside, beyond⟩ known same
      exact Option.some.inj same ▸ (below other inside).trans beyond
  | none =>
    obtain ⟨other, inside, beyond⟩ := extreme (sense atMin * value)
    constructor
    · intro _
      exact ⟨other, inside, beyond.le⟩
    · rintro _ _ ⟨⟩

/-- A limit holds of all values if the extreme value respects it. -/
theorem Extreme.all_iff (extreme : Extreme atMin values bound) (limit : Rat) :
    (∃ extremum, bound = some extremum ∧ sense atMin * limit ≤ sense atMin * extremum) ↔
      ∀ value ∈ values, sense atMin * limit ≤ sense atMin * value := by
  cases bound with
  | some extremum =>
    obtain ⟨member, below⟩ := extreme
    constructor
    · rintro ⟨known, same, respects⟩ value inside
      obtain rfl := Option.some.inj same
      exact respects.trans (below value inside)
    · intro all
      exact ⟨extremum, rfl, all extremum member⟩
  | none =>
    obtain ⟨value, inside, beyond⟩ := extreme (sense atMin * limit)
    constructor
    · rintro ⟨_, ⟨⟩, -⟩
    · intro all
      exact absurd beyond (not_lt.mpr (all value inside))

end Extremes

/-! ### The values of a row -/

/-- The values that a row takes on the box. -/
def rowValues (coefs : List Rat) (columns : List (Column Rat)) : Set Rat :=
  {value | ∃ x, InBox columns x ∧ dot coefs x = value}

/-- The values of a row without the term of one column. -/
def restValues (coefs : List Rat) (columns : List (Column Rat)) (index : Nat) : Set Rat :=
  rowValues (coefs.set index 0) columns

theorem exists_inBox {columns : List (Column Rat)}
    (nonempty : ∀ column ∈ columns, column.range.isEmpty = false) : ∃ x, InBox columns x := by
  induction columns with
  | nil => exact ⟨[], .nil⟩
  | cons column columns ih =>
    obtain ⟨own, rest⟩ := List.forall_mem_cons.mp nonempty
    obtain ⟨value, held⟩ := Range.exists_admits own
    obtain ⟨x, inside⟩ := ih rest
    exact ⟨value :: x, .cons held inside⟩

theorem pinned_eq {a : Rat} (occurs : a ≠ 0) (range : Range Rat) (atMin : Bool) :
    pinned a range atMin = if 0 < sense atMin * a then range.lower else range.upper := by
  unfold pinned
  rcases lt_or_gt_of_ne occurs with negative | positive
  · have sign : Scalar.isPositive a = false := by simpa [← Bool.not_eq_true] using negative.le
    cases atMin <;> simp [sign, sense, negative, negative.le]
  · have sign : Scalar.isPositive a = true := (Scalar.isPositive_iff a).mpr positive
    cases atMin <;> simp [sign, sense, positive, positive.le]

/-- Both bounds of a range that is not empty are admitted. -/
theorem admits_pinned {a bound : Rat} {range : Range Rat} {atMin : Bool}
    (nonempty : range.isEmpty = false) (known : pinned a range atMin = some bound) :
    range.Admits bound := by
  unfold pinned at known
  split at known
  · constructor
    · intro lower low
      exact (Option.some.inj (low.symm.trans known)).le
    · exact fun upper high => Range.lower_le_upper nonempty known high
  · constructor
    · exact fun lower low => Range.lower_le_upper nonempty low known
    · intro upper high
      exact (Option.some.inj (known.symm.trans high)).le

/-- Without a bound on one side the term of a column goes beyond every limit. -/
theorem exists_admits_beyond {a : Rat} {range : Range Rat} {atMin : Bool} (occurs : a ≠ 0)
    (nonempty : range.isEmpty = false) (unpinned : pinned a range atMin = none) (limit : Rat) :
    ∃ value, range.Admits value ∧ sense atMin * (a * value) < limit := by
  obtain ⟨start, held⟩ := Range.exists_admits nonempty
  have nonzero : sense atMin * a ≠ 0 := mul_ne_zero (by cases atMin <;> simp [sense]) occurs
  have exact : sense atMin * a * ((limit - 1) / (sense atMin * a)) = limit - 1 :=
    mul_div_cancel₀ _ nonzero
  rw [pinned_eq occurs] at unpinned
  split at unpinned
  · rename_i positive
    refine ⟨start ⊓ (limit - 1) / (sense atMin * a), ⟨by simp [unpinned], fun upper high => ?_⟩, ?_⟩
    · exact inf_le_left.trans (held.2 upper high)
    · have below := mul_le_mul_of_nonneg_left
        (inf_le_right : start ⊓ (limit - 1) / (sense atMin * a) ≤ _) positive.le
      rw [exact, mul_assoc] at below
      linarith
  · rename_i negative
    refine ⟨start ⊔ (limit - 1) / (sense atMin * a), ⟨fun lower low => ?_, by simp [unpinned]⟩, ?_⟩
    · exact (held.1 lower low).trans le_sup_left
    · have below := mul_le_mul_of_nonpos_left
        (le_sup_right : _ ≤ start ⊔ (limit - 1) / (sense atMin * a)) (not_lt.mp negative)
      rw [exact, mul_assoc] at below
      linarith

section Values

variable {coefs : List Rat} {columns : List (Column Rat)} {atMin : Bool}

/-- A finite side is the value of the row at some point of the box. -/
theorem exists_inBox_attaining (width : coefs.length = columns.length)
    (nonempty : ∀ column ∈ columns, column.range.isEmpty = false)
    (finite : (rowSide atMin coefs columns).2 = 0) :
    ∃ x, InBox columns x ∧ dot coefs x = (rowSide atMin coefs columns).1 := by
  induction columns generalizing coefs with
  | nil =>
    obtain rfl := List.length_eq_zero_iff.mp width
    exact ⟨[], .nil, by rw [rowSide_nil_left]; rfl⟩
  | cons column columns ih =>
    cases coefs with
    | nil => cases width
    | cons a coefs =>
      obtain ⟨own, others⟩ := List.forall_mem_cons.mp nonempty
      rw [rowSide_cons, Prod.snd_add, Nat.add_eq_zero_iff] at finite
      obtain ⟨counted, finite⟩ := finite
      obtain ⟨x, inside, value⟩ := ih (Nat.succ.inj width) others finite
      by_cases absent : a = 0
      · obtain ⟨any, held⟩ := Range.exists_admits own
        refine ⟨any :: x, .cons held inside, ?_⟩
        rw [dot_cons, value, rowSide_cons, absent, termOf_zero]
        simp
      · rw [termOf_of_ne_zero absent] at counted
        cases known : pinned a column.range atMin with
        | none => simp [known, term] at counted
        | some bound =>
          refine ⟨bound :: x, .cons (admits_pinned own known) inside, ?_⟩
          rw [dot_cons, value, rowSide_cons, termOf_of_ne_zero absent, known]
          rfl

/-- A side with an infinite term is passed at some point of the box. -/
theorem exists_inBox_beyond (width : coefs.length = columns.length)
    (nonempty : ∀ column ∈ columns, column.range.isEmpty = false)
    (infinite : (rowSide atMin coefs columns).2 ≠ 0) (limit : Rat) :
    ∃ x, InBox columns x ∧ sense atMin * dot coefs x < limit := by
  induction columns generalizing coefs limit with
  | nil =>
    obtain rfl := List.length_eq_zero_iff.mp width
    rw [rowSide_nil_left] at infinite
    exact absurd rfl infinite
  | cons column columns ih =>
    cases coefs with
    | nil => cases width
    | cons a coefs =>
      obtain ⟨own, others⟩ := List.forall_mem_cons.mp nonempty
      by_cases unpinned : a ≠ 0 ∧ pinned a column.range atMin = none
      · obtain ⟨x, inside⟩ := exists_inBox others
        obtain ⟨value, held, beyond⟩ := exists_admits_beyond unpinned.1 own unpinned.2
          (limit - sense atMin * dot coefs x)
        refine ⟨value :: x, .cons held inside, ?_⟩
        rw [dot_cons, mul_add]
        linarith
      -- The infinite term is in the rest of the row, which makes up for any first value.
      · have counted : (termOf atMin a column).2 = 0 := by
          by_cases absent : a = 0
          · rw [absent, termOf_zero]
          · obtain ⟨bound, known⟩ := Option.ne_none_iff_exists'.mp fun none => unpinned ⟨absent, none⟩
            rw [termOf_of_ne_zero absent, known]
            rfl
        rw [rowSide_cons, Prod.snd_add, counted, zero_add] at infinite
        obtain ⟨value, held⟩ := Range.exists_admits own
        obtain ⟨x, inside, beyond⟩ :=
          ih (Nat.succ.inj width) others infinite (limit - sense atMin * (a * value))
        refine ⟨value :: x, .cons held inside, ?_⟩
        rw [dot_cons, mul_add]
        linarith

/-- A side of a row's activity, where finite, is the extreme value of the row on the box. -/
theorem extreme_finiteSide (width : coefs.length = columns.length)
    (nonempty : ∀ column ∈ columns, column.range.isEmpty = false) (atMin : Bool) :
    Extreme atMin (rowValues coefs columns) ((ofRow coefs columns).finiteSide atMin) := by
  cases known : (ofRow coefs columns).finiteSide atMin with
  | some bound =>
    constructor
    · obtain ⟨finite, value⟩ : (rowSide atMin coefs columns).2 = 0 ∧
          (rowSide atMin coefs columns).1 = bound := by simpa [finiteSide] using known
      exact value ▸ exists_inBox_attaining width nonempty finite
    · rintro _ ⟨x, inside, rfl⟩
      exact finiteSide_bounds known inside
  | none =>
    intro limit
    have infinite : (rowSide atMin coefs columns).2 ≠ 0 := by simpa [finiteSide] using known
    obtain ⟨x, inside, beyond⟩ := exists_inBox_beyond width nonempty infinite limit
    exact ⟨_, ⟨x, inside, rfl⟩, beyond⟩

/-! ### One column taken out -/

theorem residual_add_term (rest : Rat × Nat) (own : Option Rat) :
    residual (term own + rest).1 (term own + rest).2 own = if rest.2 = 0 then some rest.1 else none := by
  obtain ⟨sum, infinite⟩ := rest
  cases own with
  | some value => cases infinite <;> simp [residual, term]
  | none =>
    cases infinite with
    | zero => simp [residual, term]
    | succ count => simp [residual, term, Nat.add_comm 1]

/-- One side of an activity with the contribution of a column taken out. -/
def residualSide (activity : Activity Rat) (a : Rat) (range : Range Rat) (atMin : Bool) : Option Rat :=
  residual (activity.side atMin).1 (activity.side atMin).2 ((pinned a range atMin).map (a * ·))

theorem residualMin_eq (activity : Activity Rat) (a : Rat) (range : Range Rat) :
    activity.residualMin a range = activity.residualSide a range true := by
  rw [residualMin, contribution_eq]
  rfl

theorem residualMax_eq (activity : Activity Rat) (a : Rat) (range : Range Rat) :
    activity.residualMax a range = activity.residualSide a range false := by
  rw [residualMax, contribution_eq]
  rfl

variable {index : Nat} {a : Rat} {column : Column Rat}

/-- Taking a column's contribution out gives the side of the row without it. -/
theorem residualSide_ofRow (coef : coefs[index]? = some a) (occurs : a ≠ 0)
    (known : columns[index]? = some column) (atMin : Bool) :
    (ofRow coefs columns).residualSide a column.range atMin =
      (ofRow (coefs.set index 0) columns).finiteSide atMin := by
  have split := rowSide_eq_add atMin coef known
  rw [termOf_of_ne_zero occurs, rowSide] at split
  rw [residualSide, split, residual_add_term]
  rfl

theorem extreme_residualSide (width : coefs.length = columns.length)
    (nonempty : ∀ column ∈ columns, column.range.isEmpty = false) (coef : coefs[index]? = some a)
    (occurs : a ≠ 0) (known : columns[index]? = some column) (atMin : Bool) :
    Extreme atMin (restValues coefs columns index)
      ((ofRow coefs columns).residualSide a column.range atMin) := by
  rw [residualSide_ofRow coef occurs known]
  exact extreme_finiteSide (by rw [List.length_set, width]) nonempty atMin

end Values

end Activity

namespace Presolve

open Activity

/-! ### The values that a row allows for a column -/

/-- The values of a column for which a row holds at some point with all other columns in their
ranges. -/
def allowedValues (row : Row Rat) (columns : List (Column Rat)) (index : Nat) : Set Rat :=
  {value | ∃ x : List Rat, x.length = columns.length ∧
    (∀ other column, other ≠ index → columns[other]? = some column →
      column.range.Admits (x.getD other 0)) ∧
    row.relation.Holds (dot row.coefs x) row.rhs ∧ x.getD index 0 = value}

/-- Between two values of a set. -/
def Between (values : Set Rat) (value : Rat) : Prop :=
  (∃ low ∈ values, low ≤ value) ∧ ∃ high ∈ values, value ≤ high

section Allowed

variable {row : Row Rat} {columns : List (Column Rat)} {index : Nat} {a : Rat} {column : Column Rat}

/-- A row allows a value if some value of the rest of the row goes with it. -/
theorem mem_allowedValues_iff (nonempty : column.range.isEmpty = false)
    (coef : row.coefs[index]? = some a) (known : columns[index]? = some column) {value : Rat} :
    value ∈ allowedValues row columns index ↔
      ∃ rest ∈ restValues row.coefs columns index, row.relation.Holds (rest + a * value) row.rhs := by
  obtain ⟨reach, -⟩ := List.getElem?_eq_some_iff.mp coef
  obtain ⟨below, -⟩ := List.getElem?_eq_some_iff.mp known
  have own : row.coefs.getD index 0 = a := by simp [coef]
  constructor
  · rintro ⟨x, length, others, holds, rfl⟩
    obtain ⟨any, held⟩ := Range.exists_admits nonempty
    have inside : index < x.length := length ▸ below
    refine ⟨dot (row.coefs.set index 0) (x.set index any), ⟨x.set index any, ?_, rfl⟩, ?_⟩
    · apply inBox_of_admits (by rw [List.length_set, length])
      intro other data there
      by_cases same : other = index
      · subst same
        obtain rfl := Option.some.inj (known.symm.trans there)
        simpa [inside] using held
      · simpa [List.getElem?_set_ne (Ne.symm same)] using others other data same there
    · have absent : (row.coefs.set index 0).getD index 0 = 0 := by simp [reach]
      rw [dot_set_right _ inside, absent, dot_set reach, own]
      convert holds using 1
      ring
  · rintro ⟨_, ⟨x, inside, rfl⟩, holds⟩
    have length : x.length = columns.length := inside.length_eq.symm
    have within : index < x.length := length ▸ below
    refine ⟨x.set index value, by rw [List.length_set, length], fun other data apart there => ?_, ?_, ?_⟩
    · have reached := List.forall₂_iff_get.mp inside
      obtain ⟨place, rfl⟩ := List.getElem?_eq_some_iff.mp there
      have held := reached.2 other place (length ▸ place)
      rw [List.getD_eq_getElem?_getD, List.getElem?_set_ne (Ne.symm apart)]
      simpa [length ▸ place] using held
    · rw [dot_set_right _ within, own]
      convert holds using 1
      rw [dot_set reach, own]
      ring
    · simp [within]

/-- The side of a column's range that a side of the rest of the row limits. -/
def limitedSide (a : Rat) (restAtMin : Bool) : Bool := decide (0 < a) != restAtMin

/-- The relation that says nothing on that side. -/
def silent : Bool → Relation
  | true => .ge
  | false => .le

/-- The bound that one side of the rest of a row implies. -/
def impliedBound (relation : Relation) (a rhs : Rat) (restAtMin : Bool) (rest : Option Rat) :
    Option Rat :=
  if relation = silent restAtMin then none else rest.map fun value => (rhs - value) / a

theorem impliedBounds_eq (relation : Relation) (a rhs : Rat) (rest : Bool → Option Rat) :
    impliedBounds relation a rhs (rest true) (rest false) =
      if 0 < a then (impliedBound relation a rhs false (rest false),
        impliedBound relation a rhs true (rest true))
      else (impliedBound relation a rhs true (rest true),
        impliedBound relation a rhs false (rest false)) := by
  unfold impliedBounds
  by_cases positive : 0 < a
  · rw [(Scalar.isPositive_iff a).mpr positive, if_pos positive]
    rfl
  · have sign : Scalar.isPositive a = false := by simpa [← Bool.not_eq_true] using positive
    rw [sign, if_neg positive]
    rfl

/-- A side of the rest and the side it limits are on opposite sides of the term. -/
theorem sense_limitedSide (a : Rat) (restAtMin : Bool) :
    sense restAtMin * a = -(sense (limitedSide a restAtMin) * |a|) := by
  unfold limitedSide
  by_cases positive : 0 < a
  · cases restAtMin <;> simp [positive, sense, abs_of_pos positive]
  · cases restAtMin <;> simp [positive, sense, abs_of_nonpos (not_lt.mp positive)]

theorem sense_mul_self (atMin : Bool) : sense atMin * sense atMin = 1 := by
  cases atMin <;> simp [sense]

/-- Unless it says nothing there, a relation bounds its left side. -/
theorem sense_le_of_holds {relation : Relation} {atMin : Bool} (speaks : relation ≠ silent atMin)
    {lhs rhs : Rat} (holds : relation.Holds lhs rhs) : sense atMin * lhs ≤ sense atMin * rhs := by
  cases relation <;> cases atMin <;> simp_all [silent, sense, Relation.Holds]

theorem holds_silent_iff (atMin : Bool) (lhs rhs : Rat) :
    (silent atMin).Holds lhs rhs ↔ sense atMin * rhs ≤ sense atMin * lhs := by
  cases atMin <;> simp [silent, sense, Relation.Holds]

/-- The bound that a row implies for a column is the extreme value that it allows. -/
theorem extreme_impliedBound {rests : Set Rat} {rest : Option Rat} {restAtMin : Bool}
    (occupied : rests.Nonempty) (extreme : Extreme restAtMin rests rest) (occurs : a ≠ 0)
    (relation : Relation) (rhs : Rat) :
    Extreme (limitedSide a restAtMin) {value | ∃ rest ∈ rests, relation.Holds (rest + a * value) rhs}
      (impliedBound relation a rhs restAtMin rest) := by
  have size : 0 < |a| := abs_pos.mpr occurs
  have opposite := sense_limitedSide a restAtMin
  have unit := sense_mul_self (limitedSide a restAtMin)
  have solved : ∀ value, value + a * ((rhs - value) / a) = rhs := by
    intro value
    rw [mul_div_cancel₀ _ occurs]
    ring
  unfold impliedBound
  split
  · rename_i same
    subst same
    obtain ⟨value, member⟩ := occupied
    intro limit
    -- Far enough on the limited side the row holds whatever the rest is.
    let far := (limit - 1) ⊓ sense restAtMin * (value - rhs) / |a|
    have reach : |a| * far ≤ sense restAtMin * (value - rhs) := by
      rw [mul_comm, ← le_div_iff₀ size]
      exact inf_le_right
    refine ⟨sense (limitedSide a restAtMin) * far, ⟨value, member, ?_⟩, ?_⟩
    · rw [holds_silent_iff, mul_add, ← mul_assoc _ a, opposite]
      have moved : -(sense (limitedSide a restAtMin) * |a|) *
          (sense (limitedSide a restAtMin) * far) = -(|a| * far) := by
        calc _ = -(|a| * far) * (sense (limitedSide a restAtMin) * sense (limitedSide a restAtMin)) := by
              ring
          _ = _ := by rw [unit, mul_one]
      rw [moved]
      linarith
    · rw [← mul_assoc, unit, one_mul]
      exact inf_le_left.trans_lt (sub_one_lt limit)
  · rename_i speaks
    cases rest with
    | some extremum =>
      obtain ⟨member, below⟩ := extreme
      refine ⟨⟨extremum, member, ?_⟩, ?_⟩
      · rw [solved]
        exact relation.holds_refl rhs
      · rintro value ⟨other, inside, holds⟩
        have bounded := sense_le_of_holds speaks holds
        have least := below other inside
        have exact := congrArg (sense restAtMin * ·) (solved extremum)
        simp only [mul_add, ← mul_assoc, opposite] at bounded exact
        have scaled : |a| * (sense (limitedSide a restAtMin) * ((rhs - extremum) / a)) ≤
            |a| * (sense (limitedSide a restAtMin) * value) := by linarith
        exact le_of_mul_le_mul_left scaled size
    | none =>
      intro limit
      obtain ⟨other, inside, beyond⟩ := extreme (|a| * limit + sense restAtMin * rhs)
      refine ⟨(rhs - other) / a, ⟨other, inside, ?_⟩, ?_⟩
      · rw [solved]
        exact relation.holds_refl rhs
      · have exact := congrArg (sense restAtMin * ·) (solved other)
        simp only [mul_add, ← mul_assoc, opposite] at exact
        have scaled : |a| * (sense (limitedSide a restAtMin) * ((rhs - other) / a)) < |a| * limit := by
          linarith
        exact lt_of_mul_lt_mul_left scaled size.le

/-- The bounds that a row implies for a column are the extreme values that it allows. -/
theorem extreme_impliedBounds (width : row.coefs.length = columns.length)
    (nonempty : ∀ column ∈ columns, column.range.isEmpty = false)
    (coef : row.coefs[index]? = some a) (occurs : a ≠ 0) (known : columns[index]? = some column) :
    let activity := Activity.ofRow row.coefs columns
    let bounds := impliedBounds row.relation a row.rhs (activity.residualMin a column.range)
      (activity.residualMax a column.range)
    Extreme true (allowedValues row columns index) bounds.1 ∧
      Extreme false (allowedValues row columns index) bounds.2 := by
  have extreme := extreme_residualSide width nonempty coef occurs known
  have same : allowedValues row columns index = {value | ∃ rest ∈ restValues row.coefs columns index,
      row.relation.Holds (rest + a * value) row.rhs} := by
    ext value
    exact mem_allowedValues_iff (nonempty column (List.mem_of_getElem? known)) coef known
  have occupied : (restValues row.coefs columns index).Nonempty := by
    obtain ⟨x, inside⟩ := exists_inBox nonempty
    exact ⟨_, x, inside, rfl⟩
  have low := extreme_impliedBound occupied (extreme true) occurs row.relation row.rhs
  have high := extreme_impliedBound occupied (extreme false) occurs row.relation row.rhs
  simp only [residualMin_eq, residualMax_eq, same]
  rw [impliedBounds_eq]
  by_cases positive : 0 < a
  · simp only [limitedSide, positive] at low high
    simp only [positive, ↓reduceIte]
    exact ⟨high, low⟩
  · simp only [limitedSide, positive] at low high
    simp only [positive, ↓reduceIte]
    exact ⟨low, high⟩

/-- Being between two extreme values is to be between two values. -/
theorem between_iff {lower upper : Option Rat} {values : Set Rat} (least : Extreme true values lower)
    (greatest : Extreme false values upper) (value : Rat) :
    (Range.mk lower upper).Admits value ↔ Between values value := by
  have low := least.respects_iff value
  have high := greatest.respects_iff value
  simp only [sense, one_mul, neg_one_mul, neg_le_neg_iff] at low high
  rw [Range.admits_mk, low, high, Between]

/-- A column is implied free when the row, taken as an equality, allows no value outside of its
range. -/
theorem impliedFree_iff (width : row.coefs.length = columns.length)
    (nonempty : ∀ column ∈ columns, column.range.isEmpty = false)
    (coef : row.coefs[index]? = some a) (occurs : a ≠ 0) (known : columns[index]? = some column) :
    impliedFree row a column.range columns = true ↔
      ∀ value ∈ allowedValues { row with relation := .eq } columns index, column.range.Admits value := by
  obtain ⟨least, greatest⟩ :=
    @extreme_impliedBounds { row with relation := .eq } _ _ _ _ width nonempty coef occurs known
  have low := least.all_iff
  have high := greatest.all_iff
  simp only [sense, one_mul, neg_one_mul, neg_le_neg_iff] at low high
  simp only [impliedFree, Bool.and_eq_true, Option.all_eq_true, Option.any_eq_true, Bool.not_eq_true',
    Scalar.exceeds_eq_false_iff, low, high]
  constructor
  · rintro ⟨lower, upper⟩ value member
    exact ⟨fun bound same => lower bound same value member, fun bound same => upper bound same value member⟩
  · intro all
    exact ⟨fun bound same value member => (all value member).1 bound same,
      fun bound same value member => (all value member).2 bound same⟩

/-- Bounds that gain nothing may be left out. -/
theorem admits_worthwhile (range : Range Rat) (lower upper : Option Rat) (value : Rat) :
    range.Admits value ∧
        (Range.mk (lower.filter fun bound => range.lower.all fun old => worthwhile (bound - old) bound)
          (upper.filter fun bound => range.upper.all fun old => worthwhile (old - bound) bound)).Admits value ↔
      range.Admits value ∧ (Range.mk lower upper).Admits value := by
  have zero : (Scalar.tolerance : Rat) = 0 := rfl
  refine and_congr_right fun held => ?_
  simp only [Range.admits_mk, Option.filter_eq_some_iff, Option.all_eq_true, worthwhile, zero, zero_mul,
    decide_eq_true_eq, sub_pos, and_imp]
  constructor
  · rintro ⟨low, high⟩
    constructor
    · intro bound same
      by_contra above
      exact above (low bound same fun old known => (held.1 old known).trans_lt (not_le.mp above))
    · intro bound same
      by_contra below
      exact below (high bound same fun old known => (not_le.mp below).trans_le (held.2 old known))
  · rintro ⟨low, high⟩
    exact ⟨fun bound same _ => low bound same, fun bound same _ => high bound same⟩

/-- Narrowing by a row leaves of a range what the row allows, and stops when that is nothing. -/
theorem ends_tightenByRow {state : State Rat} {rowIndex : Nat}
    (found : state.program.rows[rowIndex]? = some row)
    (width : row.coefs.length = state.program.columns.length)
    (nonempty : ∀ column ∈ state.program.columns, column.range.isEmpty = false)
    (coef : row.coefs[index]? = some a) (occurs : a ≠ 0)
    (known : state.program.columns[index]? = some column) :
    Ends (tightenByRow rowIndex index) state
      (fun _ next => ∃ range, Narrows state next index range ∧ range.isEmpty = false ∧
        ∀ value, range.Admits value ↔ column.range.Admits value ∧
          Between (allowedValues row state.program.columns index) value)
      fun verdict _ => verdict = .infeasible ∧ ∀ value, ¬ (column.range.Admits value ∧
        Between (allowedValues row state.program.columns index) value) := by
  obtain ⟨least, greatest⟩ := extreme_impliedBounds width nonempty coef occurs known
  have between := between_iff least greatest
  have coefficient : row.coef index = .ok a := by rw [Row.coef, coef]; rfl
  have present : Scalar.isNegligible a = false := by simpa [← Bool.not_eq_true] using occurs
  simp only [tightenByRow, ends_bind, ends_rowAt found, ends_attempt_ok coefficient, present,
    Bool.false_eq_true, ↓reduceIte, ends_columnAt known, ends_get]
  have exact := admits_worthwhile column.range
    (impliedBounds row.relation a row.rhs ((Activity.ofRow row.coefs state.program.columns).residualMin a
      column.range) ((Activity.ofRow row.coefs state.program.columns).residualMax a column.range)).1
    (impliedBounds row.relation a row.rhs ((Activity.ofRow row.coefs state.program.columns).residualMin a
      column.range) ((Activity.ofRow row.coefs state.program.columns).residualMax a column.range)).2
  split
  -- Nothing is gained where the range already lies between the implied bounds.
  · rename_i idle
    simp only [Bool.and_eq_true, Option.isNone_iff_eq_none] at idle
    refine ⟨column.range, ⟨rfl, ?_⟩, nonempty column (List.mem_of_getElem? known), fun value => ?_⟩
    · exact (Program.narrowed_self known).symm
    · rw [← between, ← exact, idle.1, idle.2]
      simp [Range.admits_mk]
  · refine (ends_tighten known _ _).mono ?_ ?_
    · rintro _ next ⟨range, narrows, left, meaning, -⟩
      exact ⟨range, narrows, left, fun value => by rw [meaning, exact, between]⟩
    · rintro verdict _ ⟨rfl, nothing⟩
      exact ⟨rfl, fun value => by rw [← between, ← exact]; exact nothing value⟩

end Allowed

/-- The activity of a row and its residuals are the least and greatest values of the row and of its
rest on the box, there exactly when such values are bounded. What narrowing and the test for implied
free columns derive from them is the tightest that the row and the other ranges allow. -/
theorem activity_tight {coefs : List Rat} {columns : List (Column Rat)}
    (width : coefs.length = columns.length)
    (nonempty : ∀ column ∈ columns, column.range.isEmpty = false) :
    let activity := Activity.ofRow coefs columns
    ((activity.minInfinite = 0 ↔ BddBelow (rowValues coefs columns)) ∧
      (activity.minInfinite = 0 → IsLeast (rowValues coefs columns) activity.min)) ∧
    ((activity.maxInfinite = 0 ↔ BddAbove (rowValues coefs columns)) ∧
      (activity.maxInfinite = 0 → IsGreatest (rowValues coefs columns) activity.max)) ∧
    ∀ (index : Nat) (a : Rat) (column : Column Rat), coefs[index]? = some a → a ≠ 0 →
      columns[index]? = some column →
      LeastOf (restValues coefs columns index) (activity.residualMin a column.range) ∧
      GreatestOf (restValues coefs columns index) (activity.residualMax a column.range) ∧
      ∀ (relation : Relation) (rhs : Rat),
        let row : Row Rat := ⟨coefs, relation, rhs⟩
        let bounds := impliedBounds relation a rhs (activity.residualMin a column.range)
          (activity.residualMax a column.range)
        LeastOf (allowedValues row columns index) bounds.1 ∧
        GreatestOf (allowedValues row columns index) bounds.2 ∧
        (impliedFree row a column.range columns = true ↔
          ∀ value ∈ allowedValues ⟨coefs, .eq, rhs⟩ columns index, column.range.Admits value) ∧
        ∀ (state : State Rat) (rowIndex : Nat), state.program.columns = columns →
          state.program.rows[rowIndex]? = some row →
          Ends (tightenByRow rowIndex index) state
            (fun _ next => ∃ range, Narrows state next index range ∧ range.isEmpty = false ∧
              ∀ value, range.Admits value ↔ column.range.Admits value ∧
                Between (allowedValues row columns index) value)
            fun verdict _ => verdict = .infeasible ∧ ∀ value, ¬ (column.range.Admits value ∧
              Between (allowedValues row columns index) value) := by
  intro activity
  refine ⟨?_, ?_, ?_⟩
  · apply LeastOf.of_count
    exact (extreme_finiteSide width nonempty true).leastOf
  · apply GreatestOf.of_count
    exact (extreme_finiteSide width nonempty false).greatestOf
  · intro index a column coef occurs known
    have extreme := extreme_residualSide width nonempty coef occurs known
    refine ⟨?_, ?_, ?_⟩
    · rw [residualMin_eq]
      exact (extreme true).leastOf
    · rw [residualMax_eq]
      exact (extreme false).greatestOf
    · intro relation rhs row bounds
      obtain ⟨low, high⟩ := @extreme_impliedBounds row _ _ _ _ width nonempty coef occurs known
      refine ⟨low.leastOf, high.greatestOf, ?_, ?_⟩
      · exact @impliedFree_iff row _ _ _ _ width nonempty coef occurs known
      · rintro state rowIndex rfl found
        exact ends_tightenByRow found width nonempty coef occurs known

/-- With `x` in `[0, 4]` and `y` up to one, `2x - 3y` has a least value and no greatest one. The
infinite term is that of `y`, so `2x - 3y ≥ 2` still limits `y`, by the greatest value of `2x`. -/
theorem activity_tight_halfOpen :
    let columns : List (Column Rat) := [.continuous ⟨some 0, some 4⟩, .continuous ⟨none, some 1⟩]
    IsLeast (rowValues [2, -3] columns) (-3) ∧ ¬ BddAbove (rowValues [2, -3] columns) ∧
      IsGreatest (restValues [2, -3] columns 1) 8 ∧
      IsGreatest (allowedValues ⟨[2, -3], .ge, 2⟩ columns 1) 2 := by
  intro columns
  have tight := @activity_tight [2, -3] columns rfl (by decide +kernel)
  obtain ⟨⟨-, least⟩, ⟨unbounded, -⟩, residuals⟩ := tight
  obtain ⟨-, greatest, implied⟩ := residuals 1 (-3) _ rfl (by decide) rfl
  obtain ⟨-, bound, -⟩ := implied .ge 2
  refine ⟨?_, ?_, ?_, ?_⟩
  · have value : (Activity.ofRow [2, -3] columns).min = -3 := by decide +kernel
    have attained := least (by decide)
    rwa [value] at attained
  · rw [← unbounded]
    decide
  · exact greatest.2 8 (by decide +kernel)
  · exact bound.2 2 (by decide +kernel)

end Presolve

end MixedInteger
