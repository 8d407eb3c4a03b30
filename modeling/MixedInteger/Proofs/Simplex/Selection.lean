import MixedInteger.Proofs.Simplex.Certificates

/-! Which column enters and what gives way. Under the lowest-index rule every column before the
entering one has a reduced cost that is not negative. The ratio test prefers the entering
column's own bound on ties, and among rows of the same ratio the one with the lowest basic
column. From this follows all that one iteration can do: it moves the entering column by the
length found, and either reflects that column or exchanges it for the basic column of one
row. -/
namespace MixedInteger.Simplex.Tableau

/-! ### The entering column -/

/-- The lowest improving column among the first `count`. -/
structure Lowest (tableau : Tableau Rat) (count column : Nat) : Prop where
  below : column < count
  improving : tableau.reduced.getD column 0 < 0
  before : ∀ other < column, 0 ≤ tableau.reduced.getD other 0

/-- Columns are considered in order, so the first candidate is the lowest. -/
theorem lowest_of_entering {tableau : Tableau Rat} {count column : Nat}
    (bland : tableau.bland = true) (enters : tableau.entering count = some column) :
    tableau.Lowest count column := by
  obtain ⟨below, improving⟩ := entering_eq_some enters
  refine ⟨below, improving, fun other earlier => ?_⟩
  by_contra negative
  have inside : other < tableau.reduced.length := by
    by_contra outside
    simp [not_lt.mp outside] at negative
  have cost : tableau.reduced[other] < 0 := by simpa [inside] using negative
  have member := mem_improving.mpr (⟨earlier.trans below, List.getElem?_eq_getElem inside, cost⟩ :
    (other, tableau.reduced[other]).1 < count ∧ _ ∧ (other, tableau.reduced[other]).2 < 0)
  unfold entering at enters
  simp only [bland, ↓reduceIte] at enters
  split at enters
  · cases enters
  · rename_i first rest found
    obtain rfl := Option.some.inj enters
    have sorted : (first :: rest).Pairwise fun left right => left.1 < right.1 := by
      rw [← found]
      refine List.Pairwise.filter _ (List.pairwise_map.mpr ?_)
      have indices := List.pairwise_lt_range' (s := 0) (n := (tableau.reduced.take count).length)
      rw [← List.zipIdx_map_snd, List.pairwise_map] at indices
      exact indices
    rw [found] at member
    rcases List.mem_cons.mp member with same | later
    · rw [← same] at earlier
      exact lt_irrefl _ earlier
    · exact absurd (List.rel_of_pairwise_cons sorted later) (not_lt.mpr earlier.le)

/-! ### Ties in the ratio test -/

theorem basicBefore_irrefl (row : TableauRow Rat) : basicBefore row row = false := by
  unfold basicBefore
  cases row.basic <;> simp

/-- A row that is not before one is not before an earlier one. -/
theorem basicBefore_eq_false_of_before {row old other : TableauRow Rat}
    (before : basicBefore row old = true) (after : basicBefore other old = false) :
    basicBefore other row = false := by
  unfold basicBefore at before after ⊢
  cases own : row.basic <;> cases best : old.basic <;> cases there : other.basic <;>
    simp_all
  omega

/-- What the ratio test has settled after some rows: no ratio seen is below the best one, the
column's own bound is kept unless a row is strictly below it, and of the rows at the best ratio
none comes before the one named. -/
structure Preferred (tableau : Tableau Rat) (column : Nat) (rows : List (TableauRow Rat))
    (best : Option (Rat × Leaving)) : Prop where
  bound : ∀ upper, tableau.upperAt column = some upper → ∃ ratio leaving,
    best = some (ratio, leaving) ∧ ratio ≤ upper ∧ (leaving ≠ .flip → ratio < upper)
  least : ∀ row ∈ rows, ∀ ratio atUpper, tableau.rowRatio column row = some (ratio, atUpper) →
    ∃ old leaving, best = some (old, leaving) ∧ old ≤ ratio
  first : ∀ ratio index atUpper, best = some (ratio, .row index atUpper) →
    ∃ source, tableau.rows[index]? = some source ∧ ∀ row ∈ rows, ∀ side,
      tableau.rowRatio column row = some (ratio, side) → basicBefore row source = false

section Ties

variable {tableau : Tableau Rat} {column index : Nat} {row : TableauRow Rat}
  {rows : List (TableauRow Rat)} {best : Option (Rat × Leaving)}

/-- What it takes to beat the best ratio so far. -/
theorem beats_cases {ratio old : Rat} {leaving : Leaving}
    (beats : tableau.beats row ratio (some (old, leaving)) = true) :
    ratio < old ∨ (ratio = old ∧ ∃ place side source, leaving = .row place side ∧
      tableau.rows[place]? = some source ∧ basicBefore row source = true) := by
  have zero : (Scalar.epsilon : Rat) = 0 := rfl
  cases leaving with
  | flip =>
    simp only [Tableau.beats, zero, sub_zero, decide_eq_true_eq] at beats
    exact .inl beats
  | row place side =>
    simp only [Tableau.beats, zero, sub_zero, Bool.or_eq_true, decide_eq_true_eq,
      Bool.and_eq_true, Scalar.abs_rat, abs_nonpos_iff] at beats
    rcases beats with less | ⟨same, before⟩
    · exact .inl less
    · obtain ⟨source, found, earlier⟩ := (Option.any_eq_true _ _).mp before
      exact .inr ⟨sub_eq_zero.mp same, place, side, source, rfl, found, earlier⟩

/-- A row that does not beat another one at the same ratio does not come before it. -/
theorem not_before_of_not_beats {ratio : Rat} {place : Nat} {side : Bool}
    {source : TableauRow Rat} (found : tableau.rows[place]? = some source)
    (beaten : tableau.beats row ratio (some (ratio, .row place side)) = false) :
    basicBefore row source = false := by
  have zero : (Scalar.epsilon : Rat) = 0 := rfl
  simpa [Tableau.beats, zero, found] using beaten

/-- One row more. -/
theorem Preferred.considerRow (preferred : tableau.Preferred column rows best)
    (found : tableau.rows[index]? = some row) :
    tableau.Preferred column (rows ++ [row]) (tableau.considerRow column best (row, index)) := by
  unfold Tableau.considerRow
  cases tested : tableau.rowRatio column row with
  | none =>
    have silent : ∀ other ∈ rows ++ [row], ∀ ratio side,
        tableau.rowRatio column other = some (ratio, side) → other ∈ rows := by
      intro other member ratio side known
      refine (List.mem_append.mp member).resolve_right fun here => ?_
      obtain rfl := List.mem_singleton.mp here
      rw [tested] at known
      cases known
    refine ⟨preferred.bound, fun other member ratio side known => ?_,
      fun ratio place atUpper same => ?_⟩
    · exact preferred.least other (silent other member ratio side known) ratio side known
    · obtain ⟨source, there, before⟩ := preferred.first ratio place atUpper same
      exact ⟨source, there, fun other member side known =>
        before other (silent other member ratio side known) side known⟩
  | some pair =>
    obtain ⟨value, atUpper⟩ := pair
    have own : ∀ other ∈ rows ++ [row], ∀ ratio side,
        tableau.rowRatio column other = some (ratio, side) →
        other ∈ rows ∨ (other = row ∧ ratio = value) := by
      intro other member ratio side known
      refine (List.mem_append.mp member).imp_right fun here => ?_
      obtain rfl := List.mem_singleton.mp here
      rw [tested] at known
      exact ⟨rfl, (Prod.mk.inj (Option.some.inj known)).1.symm⟩
    simp only
    split
    · rename_i beats
      have lower : ∀ old leaving, best = some (old, leaving) → value ≤ old := by
        rintro old leaving rfl
        exact le_of_beats beats
      refine ⟨fun upper bound => ?_, fun other member ratio side known => ?_,
        fun ratio place side same => ?_⟩
      · obtain ⟨old, leaving, rfl, le, strict⟩ := preferred.bound upper bound
        have less : value < upper := by
          rcases beats_cases beats with less | ⟨rfl, place, side, -, rfl, -⟩
          · exact less.trans_le le
          · exact strict (by simp)
        exact ⟨value, _, rfl, less.le, fun _ => less⟩
      · rcases own other member ratio side known with before | ⟨-, rfl⟩
        · obtain ⟨old, leaving, same, le⟩ := preferred.least other before ratio side known
          exact ⟨value, _, rfl, (lower old leaving same).trans le⟩
        · exact ⟨ratio, _, rfl, le_rfl⟩
      · obtain ⟨rfl, rfl, rfl⟩ : value = ratio ∧ index = place ∧ atUpper = side := by
          simpa using same
        refine ⟨row, found, fun other member side known => ?_⟩
        rcases own other member _ side known with before | ⟨rfl, -⟩
        · obtain ⟨old, leaving, rfl, le⟩ := preferred.least other before _ side known
          rcases beats_cases beats with less | ⟨rfl, place, at', source, rfl, there, earlier⟩
          · exact absurd le (not_le.mpr less)
          · obtain ⟨same, again, notBefore⟩ := preferred.first _ place at' rfl
            obtain rfl := Option.some.inj (there.symm.trans again)
            exact basicBefore_eq_false_of_before earlier (notBefore other before side known)
        · exact basicBefore_irrefl other
    · rename_i beaten
      rw [Bool.not_eq_true] at beaten
      obtain ⟨old, leaving, rfl, le⟩ := le_of_not_beats beaten
      refine ⟨preferred.bound, fun other member ratio side known => ?_,
        fun ratio place side same => ?_⟩
      · rcases own other member ratio side known with before | ⟨-, rfl⟩
        · exact preferred.least other before ratio side known
        · exact ⟨old, leaving, rfl, le⟩
      · obtain ⟨source, there, before⟩ := preferred.first ratio place side same
        refine ⟨source, there, fun other member side' known => ?_⟩
        rcases own other member ratio side' known with earlier | ⟨rfl, rfl⟩
        · exact before other earlier side' known
        · obtain ⟨rfl, rfl⟩ : old = ratio ∧ leaving = .row place side := by simpa using same
          exact not_before_of_not_beats there beaten

/-- The preferences hold at the end of the test. -/
theorem preferred_ratioTest (tableau : Tableau Rat) (column : Nat) :
    tableau.Preferred column tableau.rows (tableau.ratioTest column) := by
  have scan : ∀ (rest before : List (TableauRow Rat)) (best : Option (Rat × Leaving)),
      tableau.rows = before ++ rest → tableau.Preferred column before best →
      tableau.Preferred column tableau.rows
        ((rest.zipIdx before.length).foldl (tableau.considerRow column) best) := by
    intro rest
    induction rest with
    | nil =>
      intro before best split preferred
      rw [List.append_nil] at split
      rw [split]
      exact preferred
    | cons row rest ih =>
      intro before best split preferred
      have found : tableau.rows[before.length]? = some row := by simp [split]
      have next := ih (before ++ [row]) (tableau.considerRow column best (row, before.length))
        (by simp [split]) (preferred.considerRow found)
      simpa using next
  refine scan tableau.rows [] _ rfl ⟨fun upper bound => ?_, by simp, fun ratio place side same => ?_⟩
  · exact ⟨upper, .flip, by rw [bound]; rfl, le_rfl, by simp⟩
  · obtain ⟨upper, -, pair⟩ := Option.map_eq_some_iff.mp same
    simp at pair

end Ties

/-! ### One iteration -/

/-- The basic column of every row. -/
def basis (tableau : Tableau Rat) : List (Option Nat) := tableau.rows.map (·.basic)

theorem getElem?_basis {tableau : Tableau Rat} {index : Nat} {row : TableauRow Rat}
    (known : tableau.rows[index]? = some row) : tableau.basis[index]? = some row.basic := by
  simp [basis, known]

theorem mem_basis_iff {tableau : Tableau Rat} {column : Nat} :
    some column ∈ tableau.basis ↔ ∃ row ∈ tableau.rows, row.basic = some column := by
  simp [basis]

/-- The entering column moves to its other bound. -/
structure Flips (tableau next : Tableau Rat) (column : Nat) (length : Rat) : Prop where
  bound : tableau.upperAt column = some length
  basis : next.basis = tableau.basis
  columns : next.columns = tableau.toggle column
  reduced : next.reduced = tableau.reduced.set column (-tableau.reduced.getD column 0)

/-- The entering column takes the place of the basic column of a row. That one is at zero after
the step, or at its upper bound and then complemented; no row at the same ratio has a lower
basic column; and the entering column is short of its own bound. -/
structure Exchanges (tableau next : Tableau Rat) (column : Nat) (length : Rat) (index : Nat)
    (source : TableauRow Rat) (leaving : Nat) : Prop where
  short : ∀ upper, tableau.upperAt column = some upper → length < upper
  known : tableau.rows[index]? = some source
  named : source.basic = some leaving
  basis : next.basis = tableau.basis.set index (some column)
  blocks : (next.columns = tableau.columns ∧ 0 < entry source column ∧
      source.rhs = length * entry source column) ∨
    (next.columns = tableau.toggle leaving ∧ entry source column < 0 ∧
      tableau.upperAt leaving = some (source.rhs - length * entry source column))
  first : ∀ row ∈ tableau.rows, 0 < entry row column → row.rhs = length * entry row column →
    ∀ basic, row.basic = some basic → leaving ≤ basic

section Step

variable {tableau next : Tableau Rat} {width column : Nat}

theorem basis_pivot (wide : tableau.Wide width) {index : Nat} {source : TableauRow Rat}
    (known : tableau.rows[index]? = some source) (occurs : entry source column ≠ 0) :
    (tableau.pivot index column).basis = tableau.basis.set index (some column) := by
  refine List.ext_getElem? fun place => ?_
  obtain ⟨inside, -⟩ := List.getElem?_eq_some_iff.mp known
  simp only [basis, List.getElem?_map, getElem?_pivot wide known occurs, List.getElem?_set,
    List.length_map, inside]
  by_cases same : index = place
  · subst same
    simp [known, pivotedRow, TableauRow.scaledBy]
  · cases tableau.rows[place]? with
    | none => simp [same]
    | some row => simp [same, Ne.symm same, pivotedRow, TableauRow.less]

theorem basis_complementBasic (index : Nat) :
    (tableau.complementBasic index).basis = tableau.basis := by
  unfold complementBasic
  split
  · rfl
  · rename_i row known
    split
    · refine List.ext_getElem? fun place => ?_
      obtain ⟨inside, -⟩ := List.getElem?_eq_some_iff.mp known
      simp only [basis, List.getElem?_map, List.getElem?_set, inside]
      by_cases same : index = place
      · subst same
        simp [known]
      · simp [same]
    · rfl

/-- A row that gives way at its upper bound is complemented, which turns the entry around that
is then pivoted on. -/
theorem AtVertex.complemented_row (vertex : tableau.AtVertex width)
    (improving : tableau.reduced.getD column 0 < 0) {index leaving : Nat}
    {source : TableauRow Rat} {upper : Rat} (known : tableau.rows[index]? = some source)
    (named : source.basic = some leaving) (limit : tableau.basicUpper source = some upper) :
    tableau.upperAt leaving = some upper ∧
      (tableau.complementBasic index).rows[index]? = some (complementedRow leaving upper source) ∧
      entry (complementedRow leaving upper source) column = -entry source column := by
  have bounded : tableau.upperAt leaving = some upper := by
    rwa [basicUpper, named] at limit
  have distinct : column ≠ leaving := by
    rintro rfl
    exact vertex.not_basic improving (List.mem_of_getElem? known) named
  refine ⟨bounded, ?_, ?_⟩
  · rw [getElem?_complementBasic known named bounded, if_pos rfl]
  · rw [entry_complementedRow, if_neg distinct]

/-- What bringing a column in does to the value, the basis, the orientations and the reduced
costs. -/
theorem AtVertex.exchange_cases (vertex : tableau.AtVertex width)
    (improving : tableau.reduced.getD column 0 < 0) {length : Rat} {way : Leaving}
    (tested : tableau.ratioTest column = some (length, way)) :
    (tableau.exchange column way).value = tableau.value + tableau.reduced.getD column 0 * length ∧
      (Flips tableau (tableau.exchange column way) column length ∨ ∃ index source leaving,
        Exchanges tableau (tableau.exchange column way) column length index source leaving) := by
  obtain ⟨-, -, blocks⟩ := ratioTest_eq_some vertex.framed.limits vertex.within tested
  obtain ⟨bound, -, first⟩ := preferred_ratioTest tableau column
  cases way with
  | flip =>
    have bounded : tableau.upperAt column = some length := blocks
    have same : tableau.exchange column .flip = _ := flip_eq bounded
    rw [same]
    refine ⟨rfl, .inl ⟨bounded, ?_, rfl, rfl⟩⟩
    simp [basis, reflectedRow, Function.comp_def]
  | row index atUpper =>
    obtain ⟨source, known, earliest⟩ := first length index atUpper tested
    have member := List.mem_of_getElem? known
    obtain ⟨leaving, named⟩ := Option.ne_none_iff_exists'.mp (vertex.named source member)
    have short : ∀ upper, tableau.upperAt column = some upper → length < upper := by
      intro upper bounded
      obtain ⟨ratio, other, same, -, strict⟩ := bound upper bounded
      obtain ⟨rfl, rfl⟩ : length = ratio ∧ .row index atUpper = other := by
        simpa [tested] using same
      exact strict (by simp)
    have lowest : ∀ row ∈ tableau.rows, 0 < entry row column →
        row.rhs = length * entry row column → ∀ basic, row.basic = some basic →
          leaving ≤ basic := by
      intro row there positive exact basic namedRow
      have ratio : tableau.rowRatio column row = some (length, false) := by
        have zero : (Scalar.epsilon : Rat) = 0 := rfl
        rw [rowRatio, zero, if_pos positive, Scalar.clampZero_of_nonneg (vertex.within row there).1,
          exact, mul_div_cancel_right₀ _ positive.ne']
      have after := earliest row there false ratio
      simpa [basicBefore, namedRow, named] using after
    cases atUpper with
    | false =>
      obtain ⟨same, again, positive, exact⟩ := blocks
      obtain rfl := Option.some.inj (known.symm.trans again)
      have pivots : tableau.exchange column (.row index false) = tableau.pivot index column := rfl
      refine ⟨?_, .inr ⟨index, source, leaving, short, known, named,
        basis_pivot vertex.wide known positive.ne', .inl ⟨?_, positive, exact⟩, lowest⟩⟩
      · rw [pivots, pivot_eq vertex.wide known positive.ne', exact,
          mul_div_cancel_right₀ _ positive.ne']
      · rw [pivots, pivot_eq vertex.wide known positive.ne']
    | true =>
      obtain ⟨same, upper, again, negative, limit, exact⟩ := blocks
      obtain rfl := Option.some.inj (known.symm.trans again)
      obtain ⟨bounded, found, opposite⟩ := vertex.complemented_row improving known named limit
      have wide := complementBasic_wide vertex.wide known named bounded
      have occurs : entry (complementedRow leaving upper source) column ≠ 0 := by
        rw [opposite]
        exact neg_ne_zero.mpr negative.ne
      have rhs : (complementedRow leaving upper source).rhs =
          length * entry (complementedRow leaving upper source) column := by
        rw [opposite]
        simp only [complementedRow]
        linarith
      have pivots : tableau.exchange column (.row index true) =
          (tableau.complementBasic index).pivot index column := rfl
      refine ⟨?_, .inr ⟨index, source, leaving, short, known, named, ?_,
        .inr ⟨?_, negative, by rw [exact]; exact bounded⟩, lowest⟩⟩
      · rw [pivots, pivot_eq wide found occurs, rhs, mul_div_cancel_right₀ _ occurs,
          complementBasic_eq known named bounded]
      · have kept : (tableau.complementBasic index).basis = tableau.basis :=
          basis_complementBasic index
        rw [← kept]
        exact basis_pivot wide found occurs
      · rw [pivots, pivot_eq wide found occurs, complementBasic_eq known named bounded]

/-- All that one iteration can do. The value changes by the reduced cost times the length, and
the lowest-index rule comes into force when it does not fall. -/
theorem AtVertex.step_cases (vertex : tableau.AtVertex width)
    (improving : tableau.reduced.getD column 0 < 0)
    (stepped : tableau.step column = some next) :
    ∃ length, 0 ≤ length ∧ next.value = tableau.value + tableau.reduced.getD column 0 * length ∧
      next.bland = !Scalar.isPos (tableau.value - next.value) ∧
      (Flips tableau next column length ∨
        ∃ index source leaving, Exchanges tableau next column length index source leaving) := by
  obtain ⟨⟨length, way⟩, tested, rfl⟩ := Option.map_eq_some_iff.mp stepped
  obtain ⟨nonneg, -, -⟩ := ratioTest_eq_some vertex.framed.limits vertex.within tested
  obtain ⟨value, moves⟩ := vertex.exchange_cases improving tested
  refine ⟨length, nonneg, value, rfl, ?_⟩
  -- The entering rule is no part of what moves.
  rcases moves with flips | ⟨index, source, leaving, exchanges⟩
  · exact .inl ⟨flips.bound, flips.basis, flips.columns, flips.reduced⟩
  · exact .inr ⟨index, source, leaving, exchanges.short, exchanges.known, exchanges.named,
      exchanges.basis, exchanges.blocks, exchanges.first⟩

end Step

end MixedInteger.Simplex.Tableau
