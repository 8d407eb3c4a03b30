import MixedInteger.Proofs.Simplex.RowOperations
import MixedInteger.Simplex.Iterate

/-! One iteration and a run of them. A tableau at a vertex has a unit basic column in
every row, within its bounds, and no reduced cost on basic columns. The ratio test finds
the longest step that keeps all basic columns within bounds, so an iteration leads from
vertex to vertex of the same problem; where nothing limits the step there is a ray. A run
of iterations ends at a vertex without improving columns, on a ray, or at the limit. -/
namespace MixedInteger.Simplex.Tableau

/-! ### Vertices -/

/-- Upper bounds are not negative, and only bounded columns are complemented. -/
structure Framed (tableau : Tableau Rat) : Prop where
  limits : ∀ index upper, tableau.upperAt index = some upper → 0 ≤ upper
  bounded : ∀ column ∈ tableau.columns, column.complemented = true → column.upper.isSome = true

/-- The basic column of a row is within its bounds. -/
def Within (tableau : Tableau Rat) (row : TableauRow Rat) (value : Rat) : Prop :=
  0 ≤ value ∧ ∀ upper, tableau.basicUpper row = some upper → value ≤ upper

/-- Every row has a unit basic column within its bounds, without reduced cost. -/
structure AtVertex (tableau : Tableau Rat) (width : Nat) : Prop where
  wide : tableau.Wide width
  framed : tableau.Framed
  units : UnitColumns (fun _ => True) tableau.rows
  named : ∀ row ∈ tableau.rows, row.basic ≠ none
  within : ∀ row ∈ tableau.rows, tableau.Within row row.rhs
  free : ∀ row ∈ tableau.rows, ∀ basic, row.basic = some basic → tableau.reduced.getD basic 0 = 0

/-- Another tableau of the same problem, with the same objective. -/
structure SameProblem (tableau other : Tableau Rat) : Prop where
  frame : other.frame = tableau.frame
  constant : other.constant = tableau.constant
  costReady : other.costReady = tableau.costReady
  holds : ∀ x, other.Holds x ↔ tableau.Holds x
  price : ∀ x, tableau.Holds x → other.priceAt x = tableau.priceAt x

theorem SameProblem.refl (tableau : Tableau Rat) : SameProblem tableau tableau :=
  ⟨rfl, rfl, rfl, fun _ => Iff.rfl, fun _ _ => rfl⟩

theorem SameProblem.trans {first second third : Tableau Rat} (left : SameProblem first second)
    (right : SameProblem second third) : SameProblem first third := by
  refine ⟨right.frame.trans left.frame, right.constant.trans left.constant,
    right.costReady.trans left.costReady, fun x => (right.holds x).trans (left.holds x), ?_⟩
  intro x held
  exact (right.price x ((left.holds x).mpr held)).trans (left.price x held)

theorem framed_toggle {tableau other : Tableau Rat} {index : Nat} {upper : Rat}
    (framed : tableau.Framed) (toggled : other.columns = tableau.toggle index)
    (bound : tableau.upperAt index = some upper) : other.Framed := by
  have frame : other.frame = tableau.frame := by
    rw [frame, toggled]
    exact frame_toggle tableau index
  refine ⟨fun place limit known => ?_, fun column member complemented => ?_⟩
  · rw [upperAt_congr frame] at known
    exact framed.limits place limit known
  · obtain ⟨place, found⟩ := List.mem_iff_getElem?.mp member
    rw [toggled, toggle, List.getElem?_modify, Option.map_eq_map, Option.map_eq_some_iff] at found
    obtain ⟨old, there, rfl⟩ := found
    by_cases same : index = place
    · subst same
      have finite : old.upper = some upper := by simpa [upperAt, there] using bound
      simp [finite]
    · simp only [same, ↓reduceIte] at complemented ⊢
      exact framed.bounded old (List.mem_of_getElem? there) complemented

theorem basicUpper_congr {tableau other : Tableau Rat} (same : other.frame = tableau.frame)
    {row there : TableauRow Rat} (basic : there.basic = row.basic) :
    other.basicUpper there = tableau.basicUpper row := by
  unfold basicUpper
  rw [basic]
  exact congrArg _ (funext fun index => upperAt_congr same index)

theorem within_congr {tableau other : Tableau Rat} (same : other.frame = tableau.frame)
    {row there : TableauRow Rat} (basic : there.basic = row.basic) (value : Rat) :
    other.Within there value ↔ tableau.Within row value := by
  unfold Within
  rw [basicUpper_congr same basic]

/-! ### The ratio test -/

/-- A step of the entering column that keeps every basic column within its bounds. -/
def Admissible (tableau : Tableau Rat) (column : Nat) (length : Rat) : Prop :=
  (∀ upper, tableau.upperAt column = some upper → length ≤ upper) ∧
    ∀ row ∈ tableau.rows, tableau.Within row (row.rhs - length * entry row column)

/-- What gives way does so exactly at the step. -/
def Blocks (tableau : Tableau Rat) (column : Nat) (length : Rat) : Leaving → Prop
  | .flip => tableau.upperAt column = some length
  | .row index false => ∃ row, tableau.rows[index]? = some row ∧ 0 < entry row column ∧
      row.rhs = length * entry row column
  | .row index true => ∃ row upper, tableau.rows[index]? = some row ∧ entry row column < 0 ∧
      tableau.basicUpper row = some upper ∧ row.rhs - length * entry row column = upper

section RatioTest

variable {tableau : Tableau Rat} {column : Nat} {row : TableauRow Rat}

theorem within_of_rowRatio_eq_none (none : tableau.rowRatio column row = none)
    (within : tableau.Within row row.rhs) {length : Rat} (nonneg : 0 ≤ length) :
    tableau.Within row (row.rhs - length * entry row column) := by
  have zero : (Scalar.epsilon : Rat) = 0 := rfl
  simp only [rowRatio, zero, neg_zero] at none
  split at none
  · cases none
  · rename_i notPositive
    have nonpos := not_lt.mp notPositive
    have gain : length * entry row column ≤ 0 := mul_nonpos_of_nonneg_of_nonpos nonneg nonpos
    refine ⟨by have := within.1; linarith, fun upper known => ?_⟩
    split at none
    · rw [known] at none
      cases none
    · rename_i notNegative
      have absent : entry row column = 0 := le_antisymm nonpos (not_lt.mp notNegative)
      rw [absent, mul_zero, sub_zero]
      exact within.2 upper known

theorem within_of_rowRatio_eq_some {ratio : Rat} {atUpper : Bool}
    (some : tableau.rowRatio column row = some (ratio, atUpper))
    (within : tableau.Within row row.rhs) {index : Nat} (found : tableau.rows[index]? = .some row) :
    0 ≤ ratio ∧ tableau.Blocks column ratio (.row index atUpper) ∧
      ∀ length, 0 ≤ length → length ≤ ratio →
        tableau.Within row (row.rhs - length * entry row column) := by
  have zero : (Scalar.epsilon : Rat) = 0 := rfl
  simp only [rowRatio, zero, neg_zero] at some
  split at some
  · rename_i positive
    rw [Scalar.clampZero_of_nonneg within.1] at some
    obtain ⟨rfl, rfl⟩ : row.rhs / entry row column = ratio ∧ false = atUpper := by simpa using some
    refine ⟨div_nonneg within.1 positive.le,
      ⟨row, found, positive, (div_mul_cancel₀ _ positive.ne').symm⟩, fun length nonneg short => ?_⟩
    have reach : length * entry row column ≤ row.rhs := (le_div_iff₀ positive).mp short
    have gain : 0 ≤ length * entry row column := mul_nonneg nonneg positive.le
    refine ⟨by linarith, fun upper known => ?_⟩
    have := within.2 upper known
    linarith
  · split at some
    · rename_i negative
      obtain ⟨upper, known, pair⟩ := Option.map_eq_some_iff.mp some
      have room : 0 ≤ upper - row.rhs := by have := within.2 upper known; linarith
      rw [Scalar.clampZero_of_nonneg room] at pair
      obtain ⟨rfl, rfl⟩ : (upper - row.rhs) / -entry row column = ratio ∧ true = atUpper := by
        simpa using pair
      have positive : 0 < -entry row column := by linarith
      refine ⟨div_nonneg room positive.le, ⟨row, upper, found, negative, known, ?_⟩,
        fun length nonneg short => ?_⟩
      · have exact := div_mul_cancel₀ (upper - row.rhs) positive.ne'
        linarith
      · have reach : length * -entry row column ≤ upper - row.rhs := (le_div_iff₀ positive).mp short
        have gain : 0 ≤ length * -entry row column := mul_nonneg nonneg positive.le
        refine ⟨by have := within.1; linarith, fun limit bound => ?_⟩
        obtain rfl : upper = limit := Option.some.inj (known.symm.trans bound)
        linarith
    · cases some

/-- What the ratio test knows after some rows: steps up to the best ratio are allowed by
these rows and the column's own bound, and what it names gives way there. -/
def TestedUpTo (tableau : Tableau Rat) (column : Nat) (rows : List (TableauRow Rat))
    (best : Option (Rat × Leaving)) : Prop :=
  (∀ ratio leaving, best = some (ratio, leaving) →
    0 ≤ ratio ∧ tableau.Blocks column ratio leaving) ∧
  ∀ length, 0 ≤ length → (∀ ratio leaving, best = some (ratio, leaving) → length ≤ ratio) →
    (∀ upper, tableau.upperAt column = some upper → length ≤ upper) ∧
      ∀ row ∈ rows, tableau.Within row (row.rhs - length * entry row column)

theorem le_of_beats {ratio old : Rat} {leaving : Leaving}
    (beats : tableau.beats row ratio (some (old, leaving)) = true) : ratio ≤ old := by
  have zero : (Scalar.epsilon : Rat) = 0 := rfl
  cases leaving with
  | flip =>
    simp only [Tableau.beats, zero, sub_zero, decide_eq_true_eq] at beats
    exact beats.le
  | row index atUpper =>
    simp only [Tableau.beats, zero, sub_zero, Bool.or_eq_true, decide_eq_true_eq,
      Bool.and_eq_true, Scalar.abs_rat, abs_nonpos_iff] at beats
    rcases beats with less | ⟨same, -⟩
    · exact less.le
    · exact (sub_eq_zero.mp same).le

theorem le_of_not_beats {ratio : Rat} {best : Option (Rat × Leaving)}
    (beaten : tableau.beats row ratio best = false) :
    ∃ old leaving, best = some (old, leaving) ∧ old ≤ ratio := by
  have zero : (Scalar.epsilon : Rat) = 0 := rfl
  cases best with
  | none => cases beaten
  | some pair =>
    obtain ⟨old, leaving⟩ := pair
    refine ⟨old, leaving, rfl, ?_⟩
    cases leaving with
    | flip =>
      simpa only [Tableau.beats, zero, sub_zero, decide_eq_false_iff_not, not_lt] using beaten
    | row index atUpper =>
      simp only [Tableau.beats, zero, sub_zero, Bool.or_eq_false_iff, decide_eq_false_iff_not,
        not_lt] at beaten
      exact beaten.1

/-- One row more. -/
theorem TestedUpTo.considerRow {rows : List (TableauRow Rat)} {best : Option (Rat × Leaving)}
    (tested : tableau.TestedUpTo column rows best) {index : Nat}
    (found : tableau.rows[index]? = some row) (within : tableau.Within row row.rhs) :
    tableau.TestedUpTo column (rows ++ [row]) (tableau.considerRow column best (row, index)) := by
  obtain ⟨blocked, allows⟩ := tested
  unfold Tableau.considerRow
  cases ratio : tableau.rowRatio column row with
  | none =>
    refine ⟨blocked, fun length nonneg short => ?_⟩
    obtain ⟨own, others⟩ := allows length nonneg short
    refine ⟨own, fun other member => ?_⟩
    rcases List.mem_append.mp member with before | here
    · exact others other before
    · obtain rfl := List.mem_singleton.mp here
      exact within_of_rowRatio_eq_none ratio within nonneg
  | some pair =>
    obtain ⟨value, atUpper⟩ := pair
    obtain ⟨nonnegative, gives, keeps⟩ := within_of_rowRatio_eq_some ratio within found
    simp only
    split
    · rename_i beats
      refine ⟨?_, fun length nonneg short => ?_⟩
      · intro new leaving same
        obtain ⟨rfl, rfl⟩ : value = new ∧ .row index atUpper = leaving := by simpa using same
        exact ⟨nonnegative, gives⟩
      · have shorter : length ≤ value := short value _ rfl
        have old : ∀ ratio leaving, best = some (ratio, leaving) → length ≤ ratio := by
          rintro older leaving rfl
          exact shorter.trans (le_of_beats beats)
        obtain ⟨own, others⟩ := allows length nonneg old
        refine ⟨own, fun other member => ?_⟩
        rcases List.mem_append.mp member with before | here
        · exact others other before
        · obtain rfl := List.mem_singleton.mp here
          exact keeps length nonneg shorter
    · rename_i beaten
      obtain ⟨old, leaving, same, le⟩ := le_of_not_beats (Bool.eq_false_iff.mpr beaten)
      refine ⟨blocked, fun length nonneg short => ?_⟩
      obtain ⟨own, others⟩ := allows length nonneg short
      refine ⟨own, fun other member => ?_⟩
      rcases List.mem_append.mp member with before | here
      · exact others other before
      · obtain rfl := List.mem_singleton.mp here
        exact keeps length nonneg ((short old leaving same).trans le)

theorem testedUpTo_ratioTest (limits : ∀ index upper, tableau.upperAt index = some upper → 0 ≤ upper)
    (within : ∀ row ∈ tableau.rows, tableau.Within row row.rhs) :
    tableau.TestedUpTo column tableau.rows (tableau.ratioTest column) := by
  have scan : ∀ (rest before : List (TableauRow Rat)) (best : Option (Rat × Leaving)),
      tableau.rows = before ++ rest → tableau.TestedUpTo column before best →
      tableau.TestedUpTo column tableau.rows
        ((rest.zipIdx before.length).foldl (tableau.considerRow column) best) := by
    intro rest
    induction rest with
    | nil =>
      intro before best split tested
      rw [List.append_nil] at split
      rw [split]
      exact tested
    | cons row rest ih =>
      intro before best split tested
      have found : tableau.rows[before.length]? = some row := by simp [split]
      have next := ih (before ++ [row]) (tableau.considerRow column best (row, before.length))
        (by simp [split])
        (tested.considerRow found (within row (List.mem_of_getElem? found)))
      simpa using next
  refine scan tableau.rows [] _ rfl ⟨?_, fun length nonneg short => ⟨fun upper known => ?_, ?_⟩⟩
  · intro ratio leaving same
    obtain ⟨upper, known, pair⟩ := Option.map_eq_some_iff.mp same
    obtain ⟨rfl, rfl⟩ : upper = ratio ∧ .flip = leaving := by simpa using pair
    exact ⟨limits column upper known, known⟩
  · exact short upper .flip (by rw [known]; rfl)
  · simp

/-- The step that the ratio test finds is admissible, and what it names gives way there. -/
theorem ratioTest_eq_some {length : Rat} {leaving : Leaving}
    (limits : ∀ index upper, tableau.upperAt index = some upper → 0 ≤ upper)
    (within : ∀ row ∈ tableau.rows, tableau.Within row row.rhs)
    (found : tableau.ratioTest column = some (length, leaving)) :
    0 ≤ length ∧ tableau.Admissible column length ∧ tableau.Blocks column length leaving := by
  obtain ⟨blocked, allows⟩ := testedUpTo_ratioTest limits within
  obtain ⟨nonneg, blocks⟩ := blocked length leaving found
  refine ⟨nonneg, allows length nonneg fun ratio other same => ?_, blocks⟩
  obtain ⟨rfl, -⟩ : length = ratio ∧ leaving = other := by simpa [found] using same
  exact le_refl _

/-- If nothing gives way, every step is admissible. -/
theorem ratioTest_eq_none
    (limits : ∀ index upper, tableau.upperAt index = some upper → 0 ≤ upper)
    (within : ∀ row ∈ tableau.rows, tableau.Within row row.rhs)
    (none : tableau.ratioTest column = none) {length : Rat} (nonneg : 0 ≤ length) :
    tableau.Admissible column length := by
  obtain ⟨-, allows⟩ := testedUpTo_ratioTest limits within
  refine allows length nonneg fun ratio leaving same => ?_
  rw [none] at same
  cases same

end RatioTest

/-! ### One iteration -/

section Step

variable {tableau : Tableau Rat} {width column : Nat} {length : Rat}

/-- An improving column is not basic. -/
theorem AtVertex.not_basic (vertex : tableau.AtVertex width)
    (improving : tableau.reduced.getD column 0 < 0) {row : TableauRow Rat}
    (member : row ∈ tableau.rows) : row.basic ≠ some column := by
  intro named
  rw [vertex.free row member column named] at improving
  exact lt_irrefl 0 improving

/-- The column moves to its other bound. -/
theorem AtVertex.flip (vertex : tableau.AtVertex width)
    (improving : tableau.reduced.getD column 0 < 0)
    (admissible : tableau.Admissible column length)
    (bound : tableau.upperAt column = some length) :
    (tableau.flip column).AtVertex width ∧ SameProblem tableau (tableau.flip column) := by
  have same : SameProblem tableau (tableau.flip column) := by
    refine ⟨frame_flip column, ?_, ?_, fun x => holds_flip vertex.wide bound x,
      fun x _ => priceAt_flip vertex.wide bound x⟩
    · rw [flip_eq bound]
    · rw [flip_eq bound]
  have member : ∀ row ∈ (tableau.flip column).rows, ∃ old ∈ tableau.rows,
      reflectedRow column length old = row := by
    intro row member
    rw [flip_eq bound] at member
    exact List.mem_map.mp member
  -- Entries change in the flipped column only, and that column is not basic.
  have kept : ∀ old ∈ tableau.rows, ∀ row ∈ tableau.rows, ∀ basic, row.basic = some basic →
      entry (reflectedRow column length old) basic = entry old basic := by
    intro old _ row there basic named
    have different : column ≠ basic := by
      rintro rfl
      exact vertex.not_basic improving there named
    simp [entry, reflectedRow, different]
  refine ⟨{ wide := flip_wide vertex.wide bound
            framed := framed_toggle vertex.framed (by rw [flip_eq bound]) bound
            units := ?units, named := ?named, within := ?within, free := ?free }, same⟩
  case units =>
    intro place other here there basic _ foundHere foundThere named
    rw [flip_eq bound, List.getElem?_map, Option.map_eq_some_iff] at foundHere foundThere
    obtain ⟨old, foundOld, rfl⟩ := foundHere
    obtain ⟨row, foundRow, rfl⟩ := foundThere
    rw [kept row (List.mem_of_getElem? foundRow) old (List.mem_of_getElem? foundOld) basic named]
    exact vertex.units place other old row basic trivial foundOld foundRow named
  case named =>
    intro row inside
    obtain ⟨old, there, rfl⟩ := member row inside
    exact vertex.named old there
  case within =>
    intro row inside
    obtain ⟨old, there, rfl⟩ := member row inside
    refine (within_congr (frame_flip column) rfl _).mpr ?_
    rw [show (reflectedRow column length old).rhs = old.rhs - length * entry old column from
      congrArg _ (mul_comm _ _)]
    exact admissible.2 old there
  case free =>
    intro row inside basic named
    obtain ⟨old, there, rfl⟩ := member row inside
    have different : column ≠ basic := by
      rintro rfl
      exact vertex.not_basic improving there named
    have free := vertex.free old there basic named
    rw [flip_eq bound]
    simpa [different] using free

/-- The column becomes basic in a row whose basic column reaches zero. -/
theorem AtVertex.pivot (vertex : tableau.AtVertex width) {index : Nat} {source : TableauRow Rat}
    (nonneg : 0 ≤ length) (admissible : tableau.Admissible column length)
    (known : tableau.rows[index]? = some source) (occurs : entry source column ≠ 0)
    (blocks : source.rhs = length * entry source column) :
    (tableau.pivot index column).AtVertex width ∧
      SameProblem tableau (tableau.pivot index column) := by
  have wide := vertex.wide
  have ratio : source.rhs / entry source column = length := by
    rw [blocks, mul_div_cancel_right₀ _ occurs]
  have columns : (tableau.pivot index column).columns = tableau.columns := by
    rw [pivot_eq wide known occurs]
  have frame : (tableau.pivot index column).frame = tableau.frame := by
    rw [Tableau.frame, columns]
    rfl
  have same : SameProblem tableau (tableau.pivot index column) := by
    refine ⟨frame, ?_, ?_, fun x => holds_pivot wide known occurs x,
      fun x held => priceAt_pivot wide known occurs held⟩
    · rw [pivot_eq wide known occurs]
    · rw [pivot_eq wide known occurs]
  have member : ∀ row ∈ (tableau.pivot index column).rows, ∃ other old,
      tableau.rows[other]? = some old ∧ pivotedRow source index column other old = row := by
    intro row member
    obtain ⟨other, found⟩ := List.mem_iff_getElem?.mp member
    rw [getElem?_pivot wide known occurs, Option.map_eq_some_iff] at found
    obtain ⟨old, there, rfl⟩ := found
    exact ⟨other, old, there, rfl⟩
  refine ⟨{ wide := pivot_wide wide known occurs
            framed := ?framed, units := ?units, named := ?named, within := ?within, free := ?free },
    same⟩
  case framed =>
    refine ⟨fun place upper bound => ?_, ?_⟩
    · rw [upperAt_congr frame] at bound
      exact vertex.framed.limits place upper bound
    · rw [columns]
      exact vertex.framed.bounded
  case units =>
    intro place other here there basic _ foundHere foundThere named
    exact unitColumns_pivot wide known occurs vertex.units place other here there basic
      (.inl trivial) foundHere foundThere named
  case named =>
    intro row inside
    obtain ⟨other, old, there, rfl⟩ := member row inside
    unfold pivotedRow
    split
    · exact Option.some_ne_none column
    · exact vertex.named old (List.mem_of_getElem? there)
  case within =>
    intro row inside
    obtain ⟨other, old, there, rfl⟩ := member row inside
    unfold pivotedRow
    split
    · rw [show (source.scaledBy (entry source column) column).rhs = length from ratio]
      refine ⟨nonneg, fun upper bound => ?_⟩
      have limit : (tableau.pivot index column).upperAt column = some upper := bound
      rw [upperAt_congr frame] at limit
      exact admissible.1 upper limit
    · refine (within_congr frame rfl _).mpr ?_
      have moved : (old.less (source.scaledBy (entry source column) column)
          (entry old column)).rhs = old.rhs - length * entry old column := by
        simp only [TableauRow.less, TableauRow.scaledBy, ratio]
        ring
      rw [moved]
      exact admissible.2 old (List.mem_of_getElem? there)
  case free =>
    intro row inside basic named
    obtain ⟨other, old, there, rfl⟩ := member row inside
    rw [getD_reduced_pivot wide known occurs]
    by_cases own : other = index
    · obtain rfl : column = basic := by simpa [pivotedRow, own, TableauRow.scaledBy] using named
      rw [div_self occurs, mul_one, sub_self]
    · have namedOld : old.basic = some basic := by
        simpa [pivotedRow, own, TableauRow.less] using named
      rw [vertex.units.other trivial there namedOld known own, zero_div, mul_zero, sub_zero]
      exact vertex.free old (List.mem_of_getElem? there) basic namedOld

/-- A row whose basic column reaches its upper bound is expressed through the complement
first. -/
theorem AtVertex.complementBasic (vertex : tableau.AtVertex width) {index basic : Nat}
    {source : TableauRow Rat} {upper : Rat} (known : tableau.rows[index]? = some source)
    (named : source.basic = some basic) (bound : tableau.upperAt basic = some upper) :
    (tableau.complementBasic index).AtVertex width ∧
      SameProblem tableau (tableau.complementBasic index) := by
  have frame : (tableau.complementBasic index).frame = tableau.frame := frame_complementBasic index
  have free := vertex.free source (List.mem_of_getElem? known) basic named
  have same : SameProblem tableau (tableau.complementBasic index) := by
    refine ⟨frame, ?_, ?_, fun x => holds_complementBasic vertex.units trivial known named bound x,
      fun x _ => priceAt_complementBasic known named bound free x⟩
    · rw [complementBasic_eq known named bound]
    · rw [complementBasic_eq known named bound]
  have member : ∀ row ∈ (tableau.complementBasic index).rows,
      row = complementedRow basic upper source ∨ row ∈ tableau.rows := by
    intro row member
    obtain ⟨other, found⟩ := List.mem_iff_getElem?.mp member
    rw [getElem?_complementBasic known named bound] at found
    split at found
    · exact .inl (Option.some.inj found).symm
    · exact .inr (List.mem_of_getElem? found)
  have here := List.mem_of_getElem? known
  refine ⟨{ wide := complementBasic_wide vertex.wide known named bound
            framed := framed_toggle vertex.framed (by rw [complementBasic_eq known named bound]) bound
            units := unitColumns_complementBasic vertex.units known named bound
            named := ?named, within := ?within, free := ?free }, same⟩
  case named =>
    intro row inside
    rcases member row inside with rfl | old
    · exact vertex.named source here
    · exact vertex.named row old
  case within =>
    intro row inside
    rcases member row inside with rfl | old
    · have limit : tableau.basicUpper source = some upper := by
        rw [basicUpper, named]
        exact bound
      obtain ⟨low, high⟩ := vertex.within source here
      refine (within_congr frame rfl _).mpr ⟨?_, fun limit' bound' => ?_⟩
      · have := high upper limit
        simp only [complementedRow]
        linarith
      · obtain rfl : upper = limit' := Option.some.inj (limit.symm.trans bound')
        simp only [complementedRow]
        linarith
    · exact (within_congr frame rfl _).mpr (vertex.within row old)
  case free =>
    intro row inside other namedOther
    have reduced : (tableau.complementBasic index).reduced = tableau.reduced := by
      rw [complementBasic_eq known named bound]
    rw [reduced]
    rcases member row inside with rfl | old
    · exact vertex.free source here other namedOther
    · exact vertex.free row old other namedOther

/-- Letting go what gives way leads to another vertex of the same problem. -/
theorem AtVertex.exchange (vertex : tableau.AtVertex width)
    (improving : tableau.reduced.getD column 0 < 0) (nonneg : 0 ≤ length)
    (admissible : tableau.Admissible column length) {leaving : Leaving}
    (blocks : tableau.Blocks column length leaving) :
    (tableau.exchange column leaving).AtVertex width ∧
      SameProblem tableau (tableau.exchange column leaving) := by
  cases leaving with
  | flip => exact vertex.flip improving admissible blocks
  | row index atUpper =>
    cases atUpper with
    | false =>
      obtain ⟨source, known, positive, exact⟩ := blocks
      exact vertex.pivot nonneg admissible known positive.ne' exact
    | true =>
      obtain ⟨source, upper, known, negative, limit, exact⟩ := blocks
      obtain ⟨basic, named, bound⟩ := Option.bind_eq_some_iff.mp limit
      have here := List.mem_of_getElem? known
      obtain ⟨between, same⟩ := vertex.complementBasic known named bound
      have found : (tableau.complementBasic index).rows[index]? =
          some (complementedRow basic upper source) := by
        rw [getElem?_complementBasic known named bound, if_pos rfl]
      have different : column ≠ basic := by
        rintro rfl
        exact vertex.not_basic improving here named
      have opposite : entry (complementedRow basic upper source) column = -entry source column := by
        rw [entry_complementedRow, if_neg different]
      have admissible' : (tableau.complementBasic index).Admissible column length := by
        refine ⟨fun bound' known' => admissible.1 bound' ?_, fun row member => ?_⟩
        · rwa [upperAt_congr same.frame] at known'
        · obtain ⟨other, there⟩ := List.mem_iff_getElem?.mp member
          rw [getElem?_complementBasic known named bound] at there
          split at there
          · obtain rfl := Option.some.inj there
            refine (within_congr same.frame rfl _).mpr ?_
            have reached : (complementedRow basic upper source).rhs -
                length * entry (complementedRow basic upper source) column = 0 := by
              rw [opposite]
              simp only [complementedRow]
              linarith
            rw [reached]
            refine ⟨le_refl 0, fun bound' known' => ?_⟩
            obtain rfl : upper = bound' := Option.some.inj (limit.symm.trans known')
            exact vertex.framed.limits basic upper bound
          · exact (within_congr same.frame rfl _).mpr (admissible.2 row (List.mem_of_getElem? there))
      have occurs : entry (complementedRow basic upper source) column ≠ 0 := by
        rw [opposite]
        exact neg_ne_zero.mpr negative.ne
      obtain ⟨final, further⟩ := between.pivot nonneg admissible' found occurs (by
        rw [opposite]
        simp only [complementedRow]
        linarith)
      exact ⟨final, same.trans further⟩

end Step

/-- Counters and the entering rule are not part of the problem. -/
theorem AtVertex.congr {tableau other : Tableau Rat} {width : Nat} (vertex : tableau.AtVertex width)
    (rows : other.rows = tableau.rows) (columns : other.columns = tableau.columns)
    (reduced : other.reduced = tableau.reduced) : other.AtVertex width := by
  obtain ⟨otherRows, otherColumns, otherReduced, value, constant, ready, bland, iterations⟩ := other
  subst rows columns reduced
  exact ⟨⟨vertex.wide.rows, vertex.wide.reduced, vertex.wide.columns⟩,
    ⟨vertex.framed.limits, vertex.framed.bounded⟩, vertex.units, vertex.named, vertex.within,
    vertex.free⟩

theorem SameProblem.congr {tableau other next : Tableau Rat} (same : SameProblem tableau other)
    (rows : next.rows = other.rows) (columns : next.columns = other.columns)
    (reduced : next.reduced = other.reduced) (value : next.value = other.value)
    (constant : next.constant = other.constant) (costReady : next.costReady = other.costReady) :
    SameProblem tableau next := by
  obtain ⟨_, _, _, _, _, _, bland, iterations⟩ := next
  subst rows columns reduced value constant costReady
  exact ⟨same.frame, same.constant, same.costReady, same.holds, same.price⟩

/-- An iteration leads to a vertex of the same problem. -/
theorem AtVertex.step {tableau next : Tableau Rat} {width column : Nat}
    (vertex : tableau.AtVertex width) (improving : tableau.reduced.getD column 0 < 0)
    (stepped : tableau.step column = some next) :
    next.AtVertex width ∧ SameProblem tableau next := by
  obtain ⟨⟨length, leaving⟩, tested, rfl⟩ := Option.map_eq_some_iff.mp stepped
  obtain ⟨nonneg, admissible, blocks⟩ :=
    ratioTest_eq_some vertex.framed.limits vertex.within tested
  obtain ⟨reached, same⟩ := vertex.exchange improving nonneg admissible blocks
  exact ⟨reached.congr rfl rfl rfl, same.congr rfl rfl rfl rfl rfl rfl⟩

/-! ### The entering column -/

theorem mem_improving {tableau : Tableau Rat} {count : Nat} {candidate : Nat × Rat} :
    candidate ∈ (((tableau.reduced.take count).zipIdx.map fun (cost, column) =>
      (column, cost)).filter fun candidate => Scalar.isNeg candidate.2) ↔
      candidate.1 < count ∧ tableau.reduced[candidate.1]? = some candidate.2 ∧
        candidate.2 < 0 := by
  obtain ⟨column, cost⟩ := candidate
  simp only [List.mem_filter, List.mem_map, Prod.exists, Prod.mk.injEq, Scalar.isNeg_iff,
    List.mem_zipIdx_iff_getElem?, List.getElem?_take]
  constructor
  · rintro ⟨⟨a, b, found, rfl, rfl⟩, negative⟩
    split at found
    · exact ⟨by assumption, found, negative⟩
    · cases found
  · rintro ⟨below, found, negative⟩
    exact ⟨⟨cost, column, by rw [if_pos below]; exact found, rfl, rfl⟩, negative⟩

theorem foldl_leastReduced_mem (rest : List (Nat × Rat)) (first : Nat × Rat) :
    rest.foldl leastReduced first ∈ first :: rest := by
  induction rest generalizing first with
  | nil => simp
  | cons next rest ih =>
    have found := ih (leastReduced first next)
    rw [List.foldl_cons]
    rcases List.mem_cons.mp found with same | later
    · rw [same]
      unfold leastReduced
      split <;> simp
    · simp [later]

theorem entering_eq_some {tableau : Tableau Rat} {count column : Nat}
    (enters : tableau.entering count = some column) :
    column < count ∧ tableau.reduced.getD column 0 < 0 := by
  have improving : ∀ candidate : Nat × Rat, candidate.1 = column →
      candidate ∈ (((tableau.reduced.take count).zipIdx.map fun (cost, column) =>
        (column, cost)).filter fun candidate => Scalar.isNeg candidate.2) →
      column < count ∧ tableau.reduced.getD column 0 < 0 := by
    rintro candidate rfl member
    obtain ⟨below, found, negative⟩ := mem_improving.mp member
    exact ⟨below, by simpa [found] using negative⟩
  unfold entering at enters
  simp only at enters
  split at enters
  · cases enters
  · rename_i first rest found
    split at enters
    · refine improving first (Option.some.inj enters) ?_
      rw [found]
      simp
    · refine improving (rest.foldl leastReduced first) (Option.some.inj enters) ?_
      rw [found]
      exact foldl_leastReduced_mem rest first

theorem entering_eq_none {tableau : Tableau Rat} {count : Nat} (none : tableau.entering count = none)
    {column : Nat} (below : column < count) : 0 ≤ tableau.reduced.getD column 0 := by
  by_contra negative
  have inside : column < tableau.reduced.length := by
    by_contra outside
    simp [not_lt.mp outside] at negative
  have member := mem_improving.mpr (⟨below, List.getElem?_eq_getElem inside, by
    simpa [inside] using negative⟩ :
      (column, tableau.reduced[column]).1 < count ∧ _ ∧ (column, tableau.reduced[column]).2 < 0)
  unfold entering at none
  simp only at none
  split at none
  · rename_i found
    rw [found] at member
    simp at member
  · split at none <;> cases none

/-! ### Runs of iterations -/

/-- What the end of a run says about the vertex it ended at. -/
def Ending.Means (tableau : Tableau Rat) (count : Nat) : Ending → Prop
  | .optimal => ∀ column < count, 0 ≤ tableau.reduced.getD column 0
  | .unbounded => ∃ column < count, tableau.reduced.getD column 0 < 0 ∧
      ∀ length, 0 ≤ length → tableau.Admissible column length
  | .limit => True
  | .unsettled => True

/-- A run from a vertex stays at vertices of the same problem, and its end is justified. -/
theorem iterate_means {tableau : Tableau Rat} {width : Nat} (count fuel : Nat) (budget : Budget)
    (vertex : tableau.AtVertex width) :
    ∃ ending reached charged, iterate count fuel tableau budget = (ending, reached, charged) ∧
      reached.AtVertex width ∧ SameProblem tableau reached ∧ ending.Means reached count := by
  induction fuel generalizing tableau budget with
  | zero => exact ⟨.unsettled, tableau, budget, rfl, vertex, SameProblem.refl _, trivial⟩
  | succ fuel ih =>
    rw [iterate]
    cases enters : tableau.entering count with
    | none =>
      exact ⟨.optimal, tableau, budget, rfl, vertex, SameProblem.refl _,
        fun column below => entering_eq_none enters below⟩
    | some column =>
      obtain ⟨below, improving⟩ := entering_eq_some enters
      cases ticked : budget.tick with
      | none => exact ⟨.limit, tableau, budget, rfl, vertex, SameProblem.refl _, trivial⟩
      | some charged =>
        let counted := { tableau with iterations := tableau.iterations + 1 }
        have vertex' : counted.AtVertex width := vertex.congr rfl rfl rfl
        have same : SameProblem tableau counted :=
          (SameProblem.refl tableau).congr rfl rfl rfl rfl rfl rfl
        cases stepped : counted.step column with
        | none =>
          have tested : counted.ratioTest column = none := Option.map_eq_none_iff.mp stepped
          refine ⟨.unbounded, counted, charged, by simp only [counted, stepped], vertex', same,
            column, below, improving, fun length nonneg => ?_⟩
          exact ratioTest_eq_none vertex'.framed.limits vertex'.within tested nonneg
        | some next =>
          obtain ⟨reachedNext, sameNext⟩ := vertex'.step improving stepped
          obtain ⟨ending, reached, final, ran, atVertex, further, means⟩ := ih charged reachedNext
          exact ⟨ending, reached, final, by simp only [counted, stepped, ran], atVertex,
            (same.trans sameNext).trans further, means⟩

end MixedInteger.Simplex.Tableau
