import MixedInteger.Proofs.Recession
import MixedInteger.Problem

/-! The first step to working form: every column gets a finite lower bound. A column that is
only bounded above is negated, and a free one is split into its parts above and below zero.
One column at a time, a point of the reference program turns into a point with the same row
activities and the same objective: each of its values is replaced by its parts, whose signed
sum is the value. The other way round, the signed sums of the parts of any point are a point of
the reference program. -/
namespace MixedInteger

/-! ### Parts of a column -/

/-- The value of a working column at a point of the reference program. -/
def Column.part (x : List Rat) (column : Column Rat) : Rat :=
  let value := x.getD (column.origin.getD 0) 0
  match column.orientation with
  | .positive => value
  | .negated => -value
  | .positivePart => max value 0
  | .negativePart => max (-value) 0

/-- The coefficient of a working column that goes with the coefficients of the reference
columns. -/
def Column.weight (costs : List Rat) (column : Column Rat) : Rat :=
  if column.slack then 0 else column.orientation.sign * costs.getD (column.origin.getD 0) 0

/-- A column's own part and the extra ones stand for the column. -/
structure Splits (source : Column Rat) (index : Nat) (own : Column Rat)
    (extra : List (Column Rat)) : Prop where
  traced : ∀ column ∈ own :: extra, column.slack = false ∧ column.origin = some index ∧
    column.integral = source.integral
  sides : ∀ column ∈ extra, column.orientation = .negativePart ∧ own.orientation = .positivePart
  total : ∀ x, own.orientation.sign * own.part x - (extra.map (Column.part x)).sum = x.getD index 0
  admits : ∀ x, source.range.Admits (x.getD index 0) → ∀ column ∈ own :: extra,
    column.range.Admits (column.part x)
  whole : ∀ x, Whole (x.getD index 0) → ∀ column ∈ own :: extra, Whole (column.part x)
  bounds : source.range.WholeBounds → ∀ column ∈ own :: extra, column.range.WholeBounds
  floor : ∀ column ∈ own :: extra, column.range.lower ≠ none
  back : (∀ value, source.range.Admits value) ∨ (extra = [] ∧
    ∀ value, own.range.Admits value → source.range.Admits (own.orientation.sign * value))

/-- The parts of a column with finite lower bounds. -/
def boundedParts (index : Nat) (column : Column Rat) : Column Rat × List (Column Rat) :=
  match column.range.lower, column.range.upper with
  | some _, _ => ({ column with origin := some index }, [])
  | none, some upper =>
    ({ column with origin := some index, range := ⟨some (-upper), none⟩, orientation := .negated }, [])
  | none, none =>
    ({ column with origin := some index, range := .nonnegative, orientation := .positivePart },
      [{ range := .nonnegative, integral := column.integral, orientation := .negativePart
         origin := some index }])

theorem Whole.max_zero {x : Rat} (whole : Whole x) : Whole (max x 0) := by
  rcases max_choice x 0 with own | zero
  · rw [own]
    exact whole
  · rw [zero]
    exact Whole.zero

theorem wholeBounds_nonnegative : (Range.nonnegative : Range Rat).WholeBounds := by
  refine ⟨fun lower eq => ?_, fun upper eq => nomatch eq⟩
  obtain rfl := Option.some.inj eq
  exact Whole.zero

theorem admits_nonnegative {x : Rat} (nonneg : 0 ≤ x) : (Range.nonnegative : Range Rat).Admits x := by
  refine ⟨fun lower eq => ?_, fun upper eq => nomatch eq⟩
  obtain rfl := Option.some.inj eq
  exact nonneg

section Parts

variable {column : Column Rat} (plain : column.slack = false) (index : Nat)

include plain

/-- A column that is bounded below stays as it is. -/
theorem splits_kept {lower : Rat} (upright : column.orientation = .positive)
    (low : column.range.lower = some lower) :
    Splits column index { column with origin := some index } [] where
  traced := by simp [plain]
  sides := by simp
  total := by
    intro x
    simp [upright, Orientation.sign, Column.part]
  admits := by
    intro x held
    simpa [Column.part, upright] using held
  whole := by
    intro x held
    simpa [Column.part, upright] using held
  bounds := by
    intro held
    simpa using held
  floor := by simp [low]
  back := .inr ⟨rfl, fun value held => by simpa [upright, Orientation.sign] using held⟩

/-- A column that is only bounded above is negated. -/
theorem splits_negated {upper : Rat} (low : column.range.lower = none)
    (high : column.range.upper = some upper) :
    Splits column index { column with
      origin := some index, range := ⟨some (-upper), none⟩, orientation := .negated } [] where
  traced := by simp [plain]
  sides := by simp
  total := by
    intro x
    simp [Orientation.sign, Column.part]
  admits := by
    intro x held
    have below := held.2 upper high
    simpa [Column.part, Range.Admits] using below
  whole := by
    intro x held
    simpa [Column.part] using held.neg
  bounds := by
    intro held
    have whole := (held.2 upper high).neg
    simpa [Range.WholeBounds] using whole
  floor := by simp
  back := by
    refine .inr ⟨rfl, fun value held => ?_⟩
    have below : -upper ≤ value := held.1 (-upper) rfl
    refine ⟨fun lower bound => ?_, fun other bound => ?_⟩
    · rw [low] at bound
      cases bound
    · obtain rfl : upper = other := Option.some.inj (high.symm.trans bound)
      simp only [Orientation.sign]
      linarith

/-- A free column is the difference of two parts that are not negative. -/
theorem splits_free (low : column.range.lower = none) (high : column.range.upper = none) :
    Splits column index
      { column with origin := some index, range := .nonnegative, orientation := .positivePart }
      [{ range := .nonnegative, integral := column.integral, orientation := .negativePart
         origin := some index }] where
  traced := by simp [plain]
  sides := by simp
  total := by
    intro x
    simp only [Orientation.sign, Column.part, List.map_cons, List.map_nil, List.sum_cons,
      List.sum_nil, Option.getD_some, add_zero, one_mul]
    rcases le_total 0 (x.getD index 0) with nonneg | nonpos
    · rw [max_eq_left nonneg, max_eq_right (neg_nonpos.mpr nonneg), sub_zero]
    · rw [max_eq_right nonpos, max_eq_left (neg_nonneg.mpr nonpos), zero_sub, neg_neg]
  admits := by
    intro x _
    rw [List.forall_mem_cons, List.forall_mem_singleton]
    exact ⟨admits_nonnegative (le_max_right _ _), admits_nonnegative (le_max_right _ _)⟩
  whole := by
    intro x held
    rw [List.forall_mem_cons, List.forall_mem_singleton]
    exact ⟨held.max_zero, held.neg.max_zero⟩
  bounds := by
    intro _
    rw [List.forall_mem_cons, List.forall_mem_singleton]
    exact ⟨wholeBounds_nonnegative, wholeBounds_nonnegative⟩
  floor := by simp [Range.nonnegative]
  back := .inl fun value => by simp [Range.Admits, low, high]

theorem splits_boundedParts (upright : column.orientation = .positive) :
    Splits column index (boundedParts index column).1 (boundedParts index column).2 := by
  unfold boundedParts
  split
  · rename_i lower low
    exact splits_kept plain index upright low
  · rename_i upper low high
    exact splits_negated plain index low high
  · rename_i low high
    exact splits_free plain index low high

end Parts

/-! ### One column of a problem -/

/-- Coefficients with one column replaced by its parts. -/
def splitCoefs (index : Nat) (own : Column Rat) (extra : List (Column Rat)) (coefs : List Rat) :
    List Rat :=
  coefs.set index (own.orientation.sign * coefs.getD index 0) ++
    extra.map fun _ => -(coefs.getD index 0)

/-- A problem with one column replaced by its parts. -/
def Problem.split (problem : Problem Rat) (index : Nat) (own : Column Rat)
    (extra : List (Column Rat)) : Problem Rat :=
  { problem with
    working := { problem.working with
      rows := problem.working.rows.map fun row =>
        { row with coefs := splitCoefs index own extra row.coefs }
      objective := splitCoefs index own extra problem.working.objective
      columns := problem.working.columns.set index own ++ extra }
    partner := problem.partner.set index (if extra.isEmpty then problem.partner.getD index none
      else some problem.working.columns.length) ++ extra.map fun _ => some index }

theorem set_getD_eq_self {β : Type} (items : List β) (index : Nat) (default : β) :
    items.set index (items.getD index default) = items := by
  refine List.ext_getElem? fun place => ?_
  rw [List.getElem?_set]
  split
  · rename_i same
    subst same
    split
    · rename_i inside
      simp [inside]
    · rename_i outside
      exact (List.getElem?_eq_none (not_lt.mp outside)).symm
  · rfl

theorem splitCoefs_upright {own : Column Rat} (upright : own.orientation.sign = (1 : Rat))
    (index : Nat) (coefs : List Rat) : splitCoefs index own [] coefs = coefs := by
  rw [splitCoefs, upright, one_mul, set_getD_eq_self, List.map_nil, List.append_nil]

theorem splitCoefs_negated {own : Column Rat} (negated : own.orientation.sign = (-1 : Rat))
    (index : Nat) (coefs : List Rat) : splitCoefs index own [] coefs = coefs.modify index (- ·) := by
  rw [splitCoefs, negated, List.map_nil, List.append_nil]
  refine List.ext_getElem? fun place => ?_
  rw [List.getElem?_set, List.getElem?_modify]
  by_cases same : index = place
  · subst same
    by_cases inside : index < coefs.length
    · simp [inside]
    · simp [inside]
  · simp [same]

theorem splitCoefs_split {own other : Column Rat} (upright : own.orientation.sign = (1 : Rat))
    {index : Nat} {coefs : List Rat} (inside : index < coefs.length) :
    splitCoefs index own [other] coefs = coefs ++ (coefs[index]?.map (- ·)).toList := by
  rw [splitCoefs, upright, one_mul, set_getD_eq_self]
  simp [List.getElem?_eq_getElem inside]

section

variable {problem : Problem Rat} {index : Nat} {own other : Column Rat}

theorem split_upright (upright : own.orientation.sign = (1 : Rat)) :
    problem.split index own [] = { problem with working := { problem.working with
      columns := problem.working.columns.set index own } } := by
  simp only [Problem.split, splitCoefs_upright upright, List.map_id', List.append_nil,
    List.isEmpty_nil, ↓reduceIte, List.map_nil, set_getD_eq_self]

theorem split_negated (negated : own.orientation.sign = (-1 : Rat)) :
    problem.split index own [] = { problem with working := { problem.working with
      rows := Problem.mapColumn index (- ·) problem.working.rows
      objective := problem.working.objective.modify index (- ·)
      columns := problem.working.columns.set index own } } := by
  simp only [Problem.split, splitCoefs_negated negated, List.append_nil, List.isEmpty_nil,
    ↓reduceIte, List.map_nil, set_getD_eq_self, Problem.mapColumn]

theorem split_free (upright : own.orientation.sign = (1 : Rat)) (shaped : problem.working.Shaped)
    (inside : index < problem.working.columns.length) :
    problem.split index own [other] = { problem with
      working := { problem.working with
        rows := problem.working.rows.map fun row =>
          { row with coefs := row.coefs ++ (row.coefs[index]?.map (- ·)).toList }
        objective := problem.working.objective ++
          (problem.working.objective[index]?.map (- ·)).toList
        columns := problem.working.columns.set index own ++ [other] }
      partner := problem.partner.set index (some problem.working.columns.length) ++
        [some index] } := by
  have rows : (problem.working.rows.map fun row =>
      ({ row with coefs := splitCoefs index own [other] row.coefs } : Row Rat)) =
      problem.working.rows.map fun row =>
        { row with coefs := row.coefs ++ (row.coefs[index]?.map (- ·)).toList } := by
    refine List.map_congr_left fun row member => ?_
    rw [splitCoefs_split upright (by rw [shaped.rows row member]; exact inside)]
  simp only [Problem.split, rows, splitCoefs_split upright (shaped.objective.symm ▸ inside),
    List.isEmpty_cons, Bool.false_eq_true, ↓reduceIte, List.map_cons, List.map_nil]

end

/-- Bounding a column below replaces it by its parts. -/
theorem boundColumn_eq {problem : Problem Rat} (shaped : problem.working.Shaped) {index : Nat}
    {column : Column Rat} (known : problem.working.columns[index]? = some column)
    (upright : column.orientation = .positive) :
    problem.boundColumn index =
      problem.split index (boundedParts index column).1 (boundedParts index column).2 := by
  obtain ⟨inside, -⟩ := List.getElem?_eq_some_iff.mp known
  unfold Problem.boundColumn boundedParts
  simp only [known]
  cases low : column.range.lower with
  | some lower =>
    simp only
    rw [split_upright (by rw [upright]; rfl)]
  | none =>
    cases high : column.range.upper with
    | some upper =>
      simp only
      rw [split_negated rfl]
      rfl
    | none =>
      simp only
      rw [split_free rfl shaped inside]
      rfl

/-! ### All columns -/

theorem dot_const {β : Type} (a : Rat) {items : List β} {values : List Rat}
    (same : values.length = items.length) :
    dot (items.map fun _ => a) values = a * values.sum := by
  induction items generalizing values with
  | nil =>
    obtain rfl := List.length_eq_zero_iff.mp same
    simp
  | cons item items ih =>
    cases values with
    | nil => simp at same
    | cons value values =>
      rw [List.map_cons, dot_cons, ih (by simpa using same), List.sum_cons]
      ring

/-- Replacing a column by its parts keeps every activity. -/
theorem dot_splitCoefs {source own : Column Rat} {index : Nat} {extra : List (Column Rat)}
    (splits : Splits source index own extra) {coefs img : List Rat}
    (same : coefs.length = img.length) (inside : index < img.length) {x : List Rat}
    (value : img.getD index 0 = x.getD index 0) :
    dot (splitCoefs index own extra coefs)
      (img.set index (own.part x) ++ extra.map (Column.part x)) = dot coefs img := by
  have total := splits.total x
  rw [splitCoefs, dot_append (by simpa using same), dot_const _ (by simp), dot_set (same ▸ inside),
    dot_set_right _ inside, value, ← total]
  simp only [List.getD_eq_getElem?_getD, List.getElem?_set_self inside, Option.getD_some]
  ring

/-- A point or a linear form in the middle of the transformation: columns still waiting show the
entry of the reference column, the others what they make of it. -/
def staged (view : List Rat → Column Rat → Rat) (count done : Nat) (columns : List (Column Rat))
    (x : List Rat) : List Rat :=
  columns.mapIdx fun place column =>
    if done ≤ place ∧ place < count then x.getD place 0 else view x column

section Staged

variable (view : List Rat → Column Rat → Rat) {count done : Nat} {columns : List (Column Rat)}

theorem getElem?_staged (count done : Nat) (columns : List (Column Rat)) (x : List Rat)
    (place : Nat) : (staged view count done columns x)[place]? = (columns[place]?).map fun column =>
      if done ≤ place ∧ place < count then x.getD place 0 else view x column := by
  simp [staged]

theorem length_staged (count done : Nat) (columns : List (Column Rat)) (x : List Rat) :
    (staged view count done columns x).length = columns.length := by
  simp [staged]

/-- At the start nothing has changed. -/
theorem staged_zero {x : List Rat} (length : x.length = columns.length) :
    staged view columns.length 0 columns x = x := by
  refine List.ext_getElem? fun place => ?_
  rw [getElem?_staged]
  by_cases inside : place < columns.length
  · simp [inside, length]
  · simp [inside, length]

/-- In the end every column shows its own view. -/
theorem staged_all (count : Nat) (columns : List (Column Rat)) (x : List Rat) :
    staged view count count columns x = columns.map (view x) := by
  refine List.ext_getElem? fun place => ?_
  have past : ¬ (count ≤ place ∧ place < count) := by omega
  rw [getElem?_staged, List.getElem?_map]
  simp only [if_neg past]

theorem staged_split (long : count ≤ columns.length) (own : Column Rat) (extra : List (Column Rat))
    (x : List Rat) : staged view count (done + 1) (columns.set done own ++ extra) x =
      (staged view count done columns x).set done (view x own) ++ extra.map (view x) := by
  refine List.ext_getElem? fun place => ?_
  rw [getElem?_staged]
  by_cases inside : place < columns.length
  · rw [List.getElem?_append_left (by simpa using inside),
      List.getElem?_append_left (by simpa [length_staged] using inside), List.getElem?_set,
      List.getElem?_set, length_staged, getElem?_staged]
    by_cases same : done = place
    · subst same
      simp [inside]
    · have waits : done + 1 ≤ place ↔ done ≤ place := by omega
      simp [same, waits]
  · have outside : ¬ (done + 1 ≤ place ∧ place < count) := by omega
    rw [List.getElem?_append_right (by simpa using inside),
      List.getElem?_append_right (by simpa [length_staged] using inside), List.length_set,
      List.length_set, length_staged, List.getElem?_map]
    simp only [if_neg outside]

/-- The next column to be replaced still shows the reference entry. -/
theorem getD_staged_next (below : done < count) (long : count ≤ columns.length) (x : List Rat) :
    (staged view count done columns x).getD done 0 = x.getD done 0 := by
  rw [List.getD_eq_getElem?_getD, getElem?_staged,
    List.getElem?_eq_getElem (below.trans_le long)]
  simp [below]

/-- Replacing a column by its parts replaces its coefficient by theirs. -/
theorem staged_weight_split {source own : Column Rat} {extra : List (Column Rat)}
    (splits : Splits source done own extra) (below : done < count) (long : count ≤ columns.length)
    (costs : List Rat) : staged Column.weight count (done + 1) (columns.set done own ++ extra) costs =
      splitCoefs done own extra (staged Column.weight count done columns costs) := by
  have weight : ∀ column ∈ own :: extra,
      column.weight costs = column.orientation.sign * costs.getD done 0 := by
    intro column member
    obtain ⟨plain, origin, -⟩ := splits.traced column member
    simp [Column.weight, plain, origin]
  have others : extra.map (Column.weight costs) = extra.map fun _ => -(costs.getD done 0) := by
    refine List.map_congr_left fun column member => ?_
    rw [weight column (List.mem_cons_of_mem own member), (splits.sides column member).1]
    simp [Orientation.sign]
  rw [staged_split Column.weight long, splitCoefs, getD_staged_next Column.weight below long,
    weight own List.mem_cons_self, others]

end Staged

/-- The two columns are the parts of one split column. -/
def Opposite (column other : Column Rat) : Prop :=
  other.slack = false ∧ other.origin = column.origin ∧
    ((column.orientation = .positivePart ∧ other.orientation = .negativePart) ∨
      (column.orientation = .negativePart ∧ other.orientation = .positivePart))

/-- A split column has a part on one side only. -/
theorem Opposite.apart {column other : Column Rat} (opposite : Opposite column other)
    {x : List Rat} (positive : 0 < column.part x) : other.part x ≤ 0 := by
  obtain ⟨-, origin, ⟨above, below⟩ | ⟨below, above⟩⟩ := opposite
  · simp only [Column.part, above, below, origin, lt_max_iff, lt_self_iff_false, or_false,
      max_le_iff, le_refl, and_true] at positive ⊢
    linarith
  · simp only [Column.part, above, below, origin, lt_max_iff, lt_self_iff_false, or_false,
      max_le_iff, le_refl, and_true] at positive ⊢
    linarith

/-- A column that has been bounded below. Where the reference column is not free, it is the only
part. -/
structure Placed (reference : Program Rat) (problem : Problem Rat) (place : Nat)
    (column : Column Rat) : Prop where
  plain : column.slack = false
  floor : column.range.lower ≠ none
  source : ∃ index data, reference.columns[index]? = some data ∧ column.origin = some index ∧
    column.integral = data.integral ∧ (place < reference.columns.length → index = place) ∧
    ((∀ value, data.range.Admits value) ∨ (index = place ∧
      ∀ value, column.range.Admits value → data.range.Admits (column.orientation.sign * value)))
  admits : ∀ x, reference.Satisfies x → column.range.Admits (column.part x)
  whole : ∀ x, reference.Integral x → column.integral = true → Whole (column.part x)
  pair : ∀ other, (problem.partner[place]?).join = some other →
    ∃ data, problem.working.columns[other]? = some data ∧ Opposite column data

/-- The first columns have been bounded below. -/
structure Bounding (reference : Program Rat) (done : Nat) (problem : Problem Rat) : Prop where
  constant : problem.working.constant = reference.constant
  long : reference.columns.length ≤ problem.working.columns.length
  partners : problem.partner.length = problem.working.columns.length
  bounds : problem.working.WholeBounds
  waiting : ∀ place, done ≤ place → place < reference.columns.length →
    problem.working.columns[place]? = reference.columns[place]? ∧
      problem.partner[place]? = some none
  placed : ∀ (place : Nat) (column : Column Rat), problem.working.columns[place]? = some column →
    place < done ∨ reference.columns.length ≤ place → Placed reference problem place column
  rows : problem.working.rows = reference.rows.map fun row => { row with
    coefs := staged Column.weight reference.columns.length done problem.working.columns row.coefs }
  objective : problem.working.objective =
    staged Column.weight reference.columns.length done problem.working.columns reference.objective
  activity : ∀ costs x, costs.length = reference.columns.length →
    x.length = reference.columns.length →
    dot (staged Column.weight reference.columns.length done problem.working.columns costs)
      (staged Column.part reference.columns.length done problem.working.columns x) = dot costs x

section Step

variable {reference : Program Rat} {problem : Problem Rat} {done place : Nat}
  {source own column : Column Rat} {extra : List (Column Rat)}

theorem getElem?_split_columns (different : place ≠ done)
    (inside : place < problem.working.columns.length) :
    (problem.split done own extra).working.columns[place]? = problem.working.columns[place]? := by
  simp only [Problem.split]
  rw [List.getElem?_append_left (by simpa using inside), List.getElem?_set_ne different.symm]

theorem getElem?_split_own (inside : done < problem.working.columns.length) :
    (problem.split done own extra).working.columns[done]? = some own := by
  simp only [Problem.split]
  rw [List.getElem?_append_left (by simpa using inside), List.getElem?_set_self inside]

theorem getElem?_split_extra (place : Nat) :
    (problem.split done own extra).working.columns[problem.working.columns.length + place]? =
      extra[place]? := by
  simp only [Problem.split]
  rw [List.getElem?_append_right (by simp), List.length_set, Nat.add_sub_cancel_left]

theorem getElem?_split_partner (different : place ≠ done) (inside : place < problem.partner.length) :
    (problem.split done own extra).partner[place]? = problem.partner[place]? := by
  simp only [Problem.split]
  rw [List.getElem?_append_left (by simpa using inside), List.getElem?_set_ne different.symm]

theorem Bounding.shaped (bounding : Bounding reference done problem) : problem.working.Shaped := by
  refine ⟨?_, fun row member => ?_⟩
  · rw [bounding.objective, length_staged]
  · rw [bounding.rows] at member
    obtain ⟨source, -, rfl⟩ := List.mem_map.mp member
    exact length_staged _ _ _ _ _

/-- A column that was placed before stays so: it is not part of the one being split. -/
theorem Placed.split (placed : Placed reference problem place column)
    (known : problem.working.columns[done]? = some source) (upright : source.orientation = .positive)
    (different : place ≠ done) (inside : place < problem.working.columns.length)
    (partners : problem.partner.length = problem.working.columns.length) :
    Placed reference (problem.split done own extra) place column := by
  refine ⟨placed.plain, placed.floor, placed.source, placed.admits, placed.whole,
    fun other paired => ?_⟩
  rw [getElem?_split_partner different (partners.symm ▸ inside)] at paired
  obtain ⟨data, there, opposite⟩ := placed.pair other paired
  refine ⟨data, ?_, opposite⟩
  obtain ⟨below, -⟩ := List.getElem?_eq_some_iff.mp there
  rw [getElem?_split_columns ?_ below]
  · exact there
  · rintro rfl
    obtain rfl := Option.some.inj (known.symm.trans there)
    obtain ⟨-, -, ⟨-, side⟩ | ⟨-, side⟩⟩ := opposite
    · rw [upright] at side
      cases side
    · rw [upright] at side
      cases side

theorem Splits.opposite (splits : Splits source done own extra) {other : Column Rat}
    (member : other ∈ extra) : Opposite own other ∧ Opposite other own := by
  obtain ⟨below, above⟩ := splits.sides other member
  obtain ⟨plainOwn, originOwn, -⟩ := splits.traced own List.mem_cons_self
  obtain ⟨plainOther, originOther, -⟩ := splits.traced other (List.mem_cons_of_mem _ member)
  exact ⟨⟨plainOther, originOther.trans originOwn.symm, .inl ⟨above, below⟩⟩,
    ⟨plainOwn, originOwn.trans originOther.symm, .inr ⟨below, above⟩⟩⟩

/-- The parts of the split column are placed: its own part where it was, the others past the
reference columns. -/
theorem Splits.placed (splits : Splits source done own extra)
    (known : reference.columns[done]? = some source) (member : column ∈ own :: extra)
    (home : place < reference.columns.length → done = place)
    (only : extra = [] → done = place ∧ column = own)
    (pair : ∀ other, ((problem.split done own extra).partner[place]?).join = some other →
      ∃ data, (problem.split done own extra).working.columns[other]? = some data ∧
        Opposite column data) :
    Placed reference (problem.split done own extra) place column := by
  obtain ⟨plain, origin, integral⟩ := splits.traced column member
  refine ⟨plain, splits.floor column member, ⟨done, source, known, origin, integral, home, ?_⟩,
    fun x held => ?_, fun x held flagged => ?_, pair⟩
  · rcases splits.back with free | ⟨alone, back⟩
    · exact .inl free
    · obtain ⟨here, rfl⟩ := only alone
      exact .inr ⟨here, back⟩
  · exact splits.admits x (held.ranges done source known) column member
  · exact splits.whole x (held done source known (integral ▸ flagged)) column member

/-- Columns after a split: an old one, the column's own part, or an extra part. -/
theorem split_columns_cases (inside : done < problem.working.columns.length)
    (found : (problem.split done own extra).working.columns[place]? = some column) :
    (place ≠ done ∧ place < problem.working.columns.length ∧
        problem.working.columns[place]? = some column) ∨
      (place = done ∧ column = own) ∨
      ∃ later, place = problem.working.columns.length + later ∧ extra[later]? = some column := by
  by_cases below : place < problem.working.columns.length
  · by_cases same : place = done
    · subst same
      rw [getElem?_split_own inside] at found
      exact .inr (.inl ⟨rfl, (Option.some.inj found).symm⟩)
    · rw [getElem?_split_columns same below] at found
      exact .inl ⟨same, below, found⟩
  · obtain ⟨later, rfl⟩ := Nat.exists_eq_add_of_le (not_lt.mp below)
    rw [getElem?_split_extra] at found
    exact .inr (.inr ⟨later, rfl, found⟩)

theorem Bounding.placed_split (bounding : Bounding reference done problem)
    (below : done < reference.columns.length) (known : reference.columns[done]? = some source)
    (upright : source.orientation = .positive) (splits : Splits source done own extra)
    (found : (problem.split done own extra).working.columns[place]? = some column)
    (settled : place < done + 1 ∨ reference.columns.length ≤ place) :
    Placed reference (problem.split done own extra) place column := by
  obtain ⟨current, free⟩ := bounding.waiting done le_rfl below
  have long := bounding.long
  have inside : done < problem.working.columns.length := below.trans_le long
  rcases split_columns_cases inside found with ⟨different, there, old⟩ | ⟨rfl, rfl⟩ | ⟨later, rfl, new⟩
  · have placed := bounding.placed place column old (by omega)
    exact placed.split (current.trans known) upright different there bounding.partners
  · refine splits.placed known List.mem_cons_self (fun _ => rfl) (fun _ => ⟨rfl, rfl⟩)
      fun other paired => ?_
    simp only [Problem.split] at paired
    rw [List.getElem?_append_left (by simpa [bounding.partners] using inside),
      List.getElem?_set_self (bounding.partners.symm ▸ inside)] at paired
    cases extra with
    | nil => simp [free] at paired
    | cons first rest =>
      obtain rfl : problem.working.columns.length = other := by simpa using paired
      refine ⟨first, ?_, (splits.opposite List.mem_cons_self).1⟩
      have position : (problem.split place column (first :: rest)).working.columns[
          problem.working.columns.length + 0]? = (first :: rest)[0]? := getElem?_split_extra 0
      simpa using position
  · have member := List.mem_of_getElem? new
    refine splits.placed known (List.mem_cons_of_mem _ member) (by omega) (fun none => ?_)
      fun other paired => ?_
    · rw [none] at member
      cases member
    · simp only [Problem.split] at paired
      rw [List.getElem?_append_right (by simp [bounding.partners]), List.length_set,
        bounding.partners, Nat.add_sub_cancel_left, List.getElem?_map, new] at paired
      obtain rfl : done = other := by simpa using paired
      exact ⟨own, getElem?_split_own inside, (splits.opposite member).2⟩

theorem Bounding.bounds_split (bounding : Bounding reference done problem)
    (inside : done < problem.working.columns.length)
    (known : problem.working.columns[done]? = some source) (splits : Splits source done own extra) :
    (problem.split done own extra).working.WholeBounds := by
  intro column member flagged
  obtain ⟨place, found⟩ := List.mem_iff_getElem?.mp member
  have parts : column ∈ own :: extra → column.range.WholeBounds := by
    intro part
    obtain ⟨-, -, integral⟩ := splits.traced column part
    exact splits.bounds (bounding.bounds source (List.mem_of_getElem? known) (integral ▸ flagged))
      column part
  rcases split_columns_cases inside found with ⟨-, -, old⟩ | ⟨-, same⟩ | ⟨later, -, new⟩
  · exact bounding.bounds column (List.mem_of_getElem? old) flagged
  · exact parts (same ▸ List.mem_cons_self)
  · exact parts (List.mem_cons_of_mem own (List.mem_of_getElem? new))

theorem Bounding.waiting_split (bounding : Bounding reference done problem)
    (later : done + 1 ≤ place) (under : place < reference.columns.length) :
    (problem.split done own extra).working.columns[place]? = reference.columns[place]? ∧
      (problem.split done own extra).partner[place]? = some none := by
  obtain ⟨same, alone⟩ := bounding.waiting place (by omega) under
  have there : place < problem.working.columns.length := under.trans_le bounding.long
  constructor
  · rw [getElem?_split_columns (by omega) there]
    exact same
  · rw [getElem?_split_partner (by omega) (bounding.partners.symm ▸ there)]
    exact alone

/-- Bounding the next column keeps everything about the columns before. -/
theorem Bounding.step (bounding : Bounding reference done problem) (structural : reference.Structural)
    (below : done < reference.columns.length) :
    Bounding reference (done + 1) (problem.boundColumn done) := by
  have known := List.getElem?_eq_getElem below
  set source := reference.columns[done] with named
  obtain ⟨plain, upright⟩ := structural source (List.mem_of_getElem? known)
  have current : problem.working.columns[done]? = some source :=
    (bounding.waiting done le_rfl below).1.trans known
  have splits := splits_boundedParts plain done upright
  have inside : done < problem.working.columns.length := below.trans_le bounding.long
  rw [boundColumn_eq bounding.shaped current upright]
  set own := (boundedParts done source).1
  set extra := (boundedParts done source).2
  have count : (problem.split done own extra).working.columns.length =
      problem.working.columns.length + extra.length := by
    simp [Problem.split]
  have weights : ∀ costs : List Rat, staged Column.weight reference.columns.length (done + 1)
      (problem.split done own extra).working.columns costs = splitCoefs done own extra
        (staged Column.weight reference.columns.length done problem.working.columns costs) :=
    staged_weight_split splits below bounding.long
  exact {
    constant := bounding.constant
    long := by
      rw [count]
      exact bounding.long.trans (Nat.le_add_right _ _)
    partners := by
      rw [count, ← bounding.partners]
      simp [Problem.split]
    bounds := bounding.bounds_split inside current splits
    waiting := fun _ later under => bounding.waiting_split later under
    placed := fun _ _ found settled => bounding.placed_split below known upright splits found settled
    rows := by
      simp only [weights]
      simp only [Problem.split, bounding.rows, List.map_map, Function.comp_def]
    objective := by
      rw [weights, ← bounding.objective]
      rfl
    activity := by
      intro costs x width length
      -- The image of a point changes with the column, and no activity notices.
      have image : staged Column.part reference.columns.length (done + 1)
          (problem.split done own extra).working.columns x = _ :=
        staged_split Column.part bounding.long own extra x
      rw [weights, image, dot_splitCoefs splits (by rw [length_staged, length_staged])
        (by rw [length_staged]; exact inside) (getD_staged_next Column.part below bounding.long x)]
      exact bounding.activity costs x width length }

end Step

/-- Nothing has been bounded yet. -/
theorem bounding_start {reference : Program Rat} (shaped : reference.Shaped)
    (bounds : reference.WholeBounds) {problem : Problem Rat} (working : problem.working = reference) :
    Bounding reference 0
      { problem with partner := List.replicate reference.columns.length none } where
  constant := by rw [working]
  long := by rw [working]
  partners := by simp [working]
  bounds := working ▸ bounds
  waiting := by
    intro place _ below
    refine ⟨by rw [working], ?_⟩
    simp [below]
  placed := by
    intro place column found settled
    obtain ⟨below, -⟩ := List.getElem?_eq_some_iff.mp found
    rw [working] at below
    omega
  rows := by
    rw [working]
    refine (List.map_id' reference.rows).symm.trans (List.map_congr_left fun row member => ?_)
    rw [staged_zero Column.weight (shaped.rows row member)]
  objective := by rw [working, staged_zero Column.weight shaped.objective]
  activity := by
    intro costs x width length
    rw [working, staged_zero Column.weight width, staged_zero Column.part length]

/-- After all columns, every one of them is placed. -/
theorem bounding_boundBelow {problem : Problem Rat} (structural : problem.working.Structural)
    (shaped : problem.working.Shaped) (bounds : problem.working.WholeBounds) :
    Bounding problem.working problem.working.columns.length problem.boundBelow := by
  have steps : ∀ done ≤ problem.working.columns.length, Bounding problem.working done
      ((List.range done).foldl Problem.boundColumn
        { problem with partner := List.replicate problem.working.columns.length none }) := by
    intro done
    induction done with
    | zero =>
      intro _
      exact bounding_start shaped bounds rfl
    | succ done ih =>
      intro reach
      rw [List.range_succ, List.foldl_append]
      exact (ih (by omega)).step structural (by omega)
  exact steps _ le_rfl

/-! ### Signed sums -/

/-- Values of the reference columns are the signed sums of their parts, as every linear form
sees them. -/
def Gathers (count : Nat) (columns : List (Column Rat)) (w values : List Rat) : Prop :=
  ∀ costs : List Rat, costs.length = count →
    dot costs values = dot (columns.map (Column.weight costs)) w

/-- The linear form that reads one column. -/
def unitForm (count index : Nat) : List Rat := (List.replicate count 0).set index 1

theorem length_unitForm (count index : Nat) : (unitForm count index).length = count := by
  simp [unitForm]

theorem getD_unitForm {count index : Nat} (inside : index < count) (place : Nat) :
    (unitForm count index).getD place 0 = if index = place then 1 else 0 := by
  rw [unitForm, List.getD_eq_getElem?_getD, List.getElem?_set]
  by_cases same : index = place
  · subst same
    simp [inside]
  · rw [if_neg same, if_neg same, ← List.getD_eq_getElem?_getD, getD_replicate_zero]

theorem dot_unitForm {count index : Nat} (inside : index < count) (values : List Rat) :
    dot (unitForm count index) values = values.getD index 0 := by
  rw [unitForm, dot_set (by simpa using inside), dot_comm, dot_replicate_zero, getD_replicate_zero]
  ring

theorem whole_dot {coefs values : List Rat}
    (whole : ∀ place, Whole (coefs.getD place 0 * values.getD place 0)) :
    Whole (dot coefs values) := by
  induction coefs generalizing values with
  | nil => exact Whole.zero
  | cons a coefs ih =>
    cases values with
    | nil => simpa using Whole.zero
    | cons value values =>
      rw [dot_cons]
      exact (whole 0).add (ih fun place => whole (place + 1))

theorem whole_sign (orientation : Orientation) : Whole (orientation.sign : Rat) := by
  cases orientation <;> first | exact Whole.one | exact Whole.one.neg

section Gathered

variable {reference : Program Rat} {problem : Problem Rat} {w values : List Rat}

/-- What a working column weighs in the form of one reference column. -/
theorem Placed.weight_unit {place index : Nat} {column data : Column Rat}
    (placed : Placed reference problem place column)
    (known : reference.columns[index]? = some data) :
    (column.origin = some index ∧ column.integral = data.integral ∧
        column.weight (unitForm reference.columns.length index) = column.orientation.sign) ∨
      (column.origin ≠ some index ∧
        column.weight (unitForm reference.columns.length index) = 0) := by
  obtain ⟨inside, -⟩ := List.getElem?_eq_some_iff.mp known
  obtain ⟨own, source, there, origin, integral, -⟩ := placed.source
  rw [Column.weight, if_neg (by simp [placed.plain]), origin, Option.getD_some,
    getD_unitForm inside]
  by_cases same : index = own
  · subst same
    obtain rfl := Option.some.inj (known.symm.trans there)
    exact .inl ⟨rfl, integral, by simp⟩
  · exact .inr ⟨by simpa using Ne.symm same, by simp [same]⟩

/-- A column that is not free is its only part. -/
theorem Bounding.getD_of_gathers (bounding : Bounding reference reference.columns.length problem)
    (gathers : Gathers reference.columns.length problem.working.columns w values) {index : Nat}
    {data own : Column Rat} (known : reference.columns[index]? = some data)
    (bounded : ¬ ∀ value, data.range.Admits value)
    (there : problem.working.columns[index]? = some own) :
    values.getD index 0 = own.orientation.sign * w.getD index 0 := by
  obtain ⟨inside, -⟩ := List.getElem?_eq_some_iff.mp known
  obtain ⟨reach, -⟩ := List.getElem?_eq_some_iff.mp there
  have single : problem.working.columns.map
      (Column.weight (unitForm reference.columns.length index)) =
      (List.replicate problem.working.columns.length 0).set index own.orientation.sign := by
    refine List.ext_getElem? fun place => ?_
    rw [List.getElem?_map, List.getElem?_set]
    by_cases here : index = place
    · subst here
      have placed := bounding.placed index own there (lt_or_ge _ _)
      obtain ⟨source, -, -, origin, -, home, -⟩ := placed.source
      rw [home inside] at origin
      rcases placed.weight_unit known with ⟨-, -, weight⟩ | ⟨elsewhere, -⟩
      · rw [there, Option.map_some, weight]
        simp [reach]
      · exact absurd origin elsewhere
    · rw [if_neg here, List.getElem?_replicate]
      cases found : problem.working.columns[place]? with
      | none =>
        have past := List.getElem?_eq_none_iff.mp found
        rw [if_neg (not_lt.mpr past)]
        rfl
      | some column =>
        obtain ⟨below, -⟩ := List.getElem?_eq_some_iff.mp found
        have placed := bounding.placed place column found (lt_or_ge _ _)
        rw [if_pos below, Option.map_some]
        rcases placed.weight_unit known with ⟨traced, -, -⟩ | ⟨-, weight⟩
        · obtain ⟨source, other, standing, origin, -, -, free | ⟨only, -⟩⟩ := placed.source
          · obtain rfl := Option.some.inj (traced.symm.trans origin)
            obtain rfl := Option.some.inj (known.symm.trans standing)
            exact absurd free bounded
          · obtain rfl := Option.some.inj (traced.symm.trans origin)
            exact absurd only here
        · rw [weight]
  rw [← dot_unitForm inside, gathers _ (length_unitForm _ _), single,
    dot_set (by simpa using reach), dot_comm, dot_replicate_zero, getD_replicate_zero]
  ring

/-- The signed sums of the parts of a point are a point of the reference program. -/
theorem Bounding.satisfies_of_gathers
    (bounding : Bounding reference reference.columns.length problem) (shaped : reference.Shaped)
    (held : problem.working.Satisfies w) (length : values.length = reference.columns.length)
    (gathers : Gathers reference.columns.length problem.working.columns w values) :
    reference.Satisfies values := by
  refine ⟨length, fun row member => ?_, fun index data known => ?_⟩
  · have there := List.mem_map_of_mem (f := fun row : Row Rat => { row with
      coefs := staged Column.weight reference.columns.length reference.columns.length
        problem.working.columns row.coefs }) member
    rw [← bounding.rows] at there
    have met := held.rows _ there
    dsimp only at met
    rwa [staged_all, ← gathers row.coefs (shaped.rows row member)] at met
  · obtain ⟨inside, -⟩ := List.getElem?_eq_some_iff.mp known
    have there := List.getElem?_eq_getElem (inside.trans_le bounding.long)
    have placed := bounding.placed index _ there (lt_or_ge _ _)
    obtain ⟨own, source, standing, -, -, home, side⟩ := placed.source
    obtain rfl := home inside
    obtain rfl := Option.some.inj (known.symm.trans standing)
    by_cases free : ∀ value, data.range.Admits value
    · exact free _
    · rw [bounding.getD_of_gathers gathers known free there]
      rcases side with impossible | ⟨-, back⟩
      · exact absurd impossible free
      · exact back _ (held.ranges own _ there)

/-- Where the parts are integral, so are their signed sums. -/
theorem Bounding.integral_of_gathers
    (bounding : Bounding reference reference.columns.length problem)
    (integral : problem.working.Integral w)
    (gathers : Gathers reference.columns.length problem.working.columns w values) :
    reference.Integral values := by
  intro index data known flagged
  obtain ⟨inside, -⟩ := List.getElem?_eq_some_iff.mp known
  rw [← dot_unitForm inside, gathers _ (length_unitForm _ _)]
  refine whole_dot fun place => ?_
  cases found : problem.working.columns[place]? with
  | none => simpa [found] using Whole.zero
  | some column =>
    have entry : (problem.working.columns.map (Column.weight
        (unitForm reference.columns.length index))).getD place 0 =
          column.weight (unitForm reference.columns.length index) := by
      simp [found]
    rw [entry]
    have placed := bounding.placed place column found (lt_or_ge _ _)
    rcases placed.weight_unit known with ⟨-, same, weight⟩ | ⟨-, weight⟩
    · rw [weight]
      exact (whole_sign _).mul (integral place column found (same.trans flagged))
    · rw [weight, zero_mul]
      exact Whole.zero

end Gathered

end MixedInteger
