import Mathlib.Algebra.BigOperators.Field
import MixedInteger.Proofs.Simplex.RowOperations
import MixedInteger.Proofs.Ending
import MixedInteger.Proofs.PrimitiveMultiple
import MixedInteger.Cut.Gomory

/-! Why a Gomory cut loses no integral point. In a row with a fractional right-hand side,
every nonbasic column contributes a rise, a fall and an integer; the integers and the basic
column are whole, so rises less falls are congruent to the fractional part. Either the rises
then reach that part, or the falls reach what is missing to one, and in both cases the cut
holds. Scaling by a positive factor keeps it, and no other row than a fractional one is ever
used. -/
namespace MixedInteger

theorem Whole.sum {indices : Finset Nat} {f : Nat → Rat} (all : ∀ index ∈ indices, Whole (f index)) :
    Whole (∑ index ∈ indices, f index) :=
  Finset.sum_induction f Whole (fun _ _ => Whole.add) Whole.zero all

namespace Cut

open Simplex (Tableau TableauRow TableauColumn)
open Simplex.Tableau (entry UnitColumns)

/-! ### One column -/

/-- The coefficient of a nonbasic column, with the divisors known not to be zero. -/
def share (f0 : Rat) (integral : Bool) (a : Rat) : Rat :=
  if a = 0 then 0
  else if integral then
    if Int.fract a ≤ f0 then Int.fract a / f0 else (1 - Int.fract a) / (1 - f0)
  else if 0 < a then a / f0
  else -a / (1 - f0)

theorem divide_eq_ok {x y : Rat} (divisor : y ≠ 0) : divide x y = .ok (x / y) := by
  have nonzero : Scalar.isZero y = false := (Scalar.isZero_eq_false_iff y).mpr divisor
  simp [divide, nonzero]

theorem coefficient_eq_ok {f0 : Rat} (positive : 0 < f0) (below : f0 < 1) (integral : Bool)
    (a : Rat) : coefficient f0 integral a = .ok (share f0 integral a) := by
  have high : f0 ≠ 0 := positive.ne'
  have low : 1 - f0 ≠ 0 := sub_ne_zero.mpr below.ne'
  unfold coefficient share
  simp only [Scalar.isNegligible_iff, Scalar.fraction_rat, Scalar.isPositive_iff,
    divide_eq_ok high, divide_eq_ok low]
  split
  · rfl
  · cases integral with
    | true =>
      simp only [↓reduceIte]
      split <;> rfl
    | false =>
      simp only [Bool.false_eq_true, ↓reduceIte]
      split <;> rfl

/-- What a column contributes to its row: a rise, a fall, and an integer that neither
counts. -/
structure Contribution (f0 g a z : Rat) (rise fall : Rat) : Prop where
  rise_nonneg : 0 ≤ rise
  fall_nonneg : 0 ≤ fall
  value : g * z = rise / f0 + fall / (1 - f0)
  rest : Whole (a * z - (rise - fall))

theorem share_contributes (f0 : Rat) (integral : Bool) (a : Rat) {z : Rat} (nonneg : 0 ≤ z)
    (whole : integral = true → Whole z) :
    ∃ rise fall, Contribution f0 (share f0 integral a) a z rise fall := by
  unfold share
  split
  · rename_i zero
    refine ⟨0, 0, le_rfl, le_rfl, by simp, ?_⟩
    simpa [zero] using Whole.zero
  · split
    · rename_i flagged
      have low := Int.fract_nonneg a
      have high := Int.fract_lt_one a
      have floor : a - Int.fract a = (⌊a⌋ : Rat) := Int.self_sub_fract a
      split
      · refine ⟨Int.fract a * z, 0, mul_nonneg low nonneg, le_rfl, by ring, ?_⟩
        have part : a * z - (Int.fract a * z - 0) = (⌊a⌋ : Rat) * z := by rw [← floor]; ring
        rw [part]
        exact (Whole.intCast _).mul (whole flagged)
      · refine ⟨0, (1 - Int.fract a) * z, le_rfl, mul_nonneg (by linarith) nonneg, by ring, ?_⟩
        have part : a * z - (0 - (1 - Int.fract a) * z) = ((⌊a⌋ : Rat) + 1) * z := by
          rw [← floor]; ring
        rw [part]
        exact ((Whole.intCast _).add Whole.one).mul (whole flagged)
    · split
      · rename_i above
        exact ⟨a * z, 0, mul_nonneg above.le nonneg, le_rfl, by ring, by simpa using Whole.zero⟩
      · rename_i above
        exact ⟨0, -a * z, le_rfl, mul_nonneg (by linarith) nonneg, by ring,
          by simpa using Whole.zero⟩

/-! ### One row -/

/-- The cut of a row holds wherever the row does, if every column contributes. -/
theorem one_le_form {coefs cut : List Rat} {z : Nat → Rat} {rhs : Rat}
    (positive : 0 < Int.fract rhs) (width : cut.length = coefs.length)
    (meets : form coefs z = rhs)
    (contributes : ∀ index, ∃ rise fall, Contribution (Int.fract rhs) (cut.getD index 0)
      (coefs.getD index 0) (z index) rise fall) : 1 ≤ form cut z := by
  choose rise fall parts using contributes
  have below := Int.fract_lt_one rhs
  set f0 := Int.fract rhs with fraction
  set rises := ∑ index ∈ Finset.range coefs.length, rise index with risesDef
  set falls := ∑ index ∈ Finset.range coefs.length, fall index with fallsDef
  have risesNonneg : 0 ≤ rises := Finset.sum_nonneg fun index _ => (parts index).rise_nonneg
  have fallsNonneg : 0 ≤ falls := Finset.sum_nonneg fun index _ => (parts index).fall_nonneg
  have total : form cut z = rises / f0 + falls / (1 - f0) := by
    rw [form_eq_sum, width, risesDef, fallsDef, Finset.sum_div, Finset.sum_div,
      ← Finset.sum_add_distrib]
    exact Finset.sum_congr rfl fun index _ => (parts index).value
  have rest : Whole (rhs - (rises - falls)) := by
    have split : rhs - (rises - falls) = ∑ index ∈ Finset.range coefs.length,
        (coefs.getD index 0 * z index - (rise index - fall index)) := by
      rw [Finset.sum_sub_distrib, Finset.sum_sub_distrib, ← form_eq_sum, meets]
    rw [split]
    exact Whole.sum fun index _ => (parts index).rest
  -- Rises less falls differ from the fractional part by an integer.
  obtain ⟨excess, same⟩ : Whole (rises - falls - f0) := by
    have part : rises - falls - f0 = (⌊rhs⌋ : Rat) - (rhs - (rises - falls)) := by
      rw [← Int.self_sub_fract rhs, ← fraction]; ring
    rw [part]
    exact (Whole.intCast _).sub rest
  rw [total]
  rcases le_or_gt 0 excess with up | down
  · have enough : f0 ≤ rises := by
      have : (0 : Rat) ≤ excess := by exact_mod_cast up
      linarith
    have reached : 1 ≤ rises / f0 := (one_le_div positive).mpr enough
    have others : 0 ≤ falls / (1 - f0) := div_nonneg fallsNonneg (by linarith)
    linarith
  · have enough : 1 - f0 ≤ falls := by
      have : (excess : Rat) ≤ -1 := by exact_mod_cast (by omega : excess ≤ -1)
      linarith
    have reached : 1 ≤ falls / (1 - f0) := (one_le_div (by linarith)).mpr enough
    have others : 0 ≤ rises / f0 := div_nonneg risesNonneg positive.le
    linarith

/-- The cut of a row over the tableau columns, before scaling. -/
def rowCut (tableau : Tableau Rat) (row : TableauRow Rat) (f0 : Rat) : List Rat :=
  tableau.columns.zipIdx.map fun (column, index) =>
    if (basicColumns tableau).contains index then 0
    else share f0 column.integral (entry row index)

theorem mapM_eq_ok {β γ : Type} {items : List β} {f : β → Except Fault γ} {g : β → γ}
    (each : ∀ item, f item = .ok (g item)) : items.mapM f = .ok (items.map g) := by
  induction items with
  | nil => rfl
  | cons item items ih =>
    simp only [List.mapM_cons, each item, ih, List.map_cons]
    rfl

theorem rawCut_eq_ok {f0 : Rat} (positive : 0 < f0) (below : f0 < 1) (tableau : Tableau Rat)
    (row : TableauRow Rat) : rawCut tableau row f0 = .ok (rowCut tableau row f0 ++ [1]) := by
  unfold rawCut
  dsimp only
  rw [mapM_eq_ok fun item => ?_]
  · rfl
  · obtain ⟨column, index⟩ := item
    dsimp only
    split
    · rfl
    · exact coefficient_eq_ok positive below _ _

theorem getElem?_rowCut (tableau : Tableau Rat) (row : TableauRow Rat) (f0 : Rat) (index : Nat) :
    (rowCut tableau row f0)[index]? = (tableau.columns[index]?).map fun column =>
      if (basicColumns tableau).contains index then 0
      else share f0 column.integral (entry row index) := by
  simp only [rowCut, List.getElem?_map, List.getElem?_zipIdx, Option.map_map, Function.comp_def,
    Nat.zero_add]

theorem length_rowCut (tableau : Tableau Rat) (row : TableauRow Rat) (f0 : Rat) :
    (rowCut tableau row f0).length = tableau.columnCount := by
  simp [rowCut, Tableau.columnCount]

/-- The cut of a source row holds at every solution in the box whose integral columns read
as integers. -/
theorem one_le_rowCut {tableau : Tableau Rat} {row : TableauRow Rat}
    (units : UnitColumns (fun _ => True) tableau.rows) (member : row ∈ tableau.rows)
    (width : row.coefs.length = tableau.columnCount) (source : Generator.isSource tableau row = true)
    (positive : 0 < Int.fract row.rhs) {z : Nat → Rat} (meets : row.Meets z)
    (nonneg : ∀ index, 0 ≤ z index)
    (whole : ∀ (index : Nat) (column : TableauColumn Rat), tableau.columns[index]? = some column →
      column.integral = true → Whole (z index)) :
    1 ≤ form (rowCut tableau row (Int.fract row.rhs)) z := by
  refine one_le_form positive ((length_rowCut _ _ _).trans width.symm) meets fun index => ?_
  rw [List.getD_eq_getElem?_getD, getElem?_rowCut]
  cases known : tableau.columns[index]? with
  | none =>
    have outside : tableau.columnCount ≤ index := List.getElem?_eq_none_iff.mp known
    have absent : row.coefs.getD index 0 = 0 := by simp [width, outside]
    refine ⟨0, 0, le_rfl, le_rfl, by simp, ?_⟩
    rw [absent, zero_mul, sub_zero, sub_zero]
    exact Whole.zero
  | some column =>
    simp only [Option.map_some, Option.getD_some]
    split
    · -- A basic column is the row's own, which is whole, or does not occur in the row.
      rename_i basic
      refine ⟨0, 0, le_rfl, le_rfl, by simp, ?_⟩
      rw [sub_zero, sub_zero]
      obtain ⟨own, named, flagged⟩ := (Option.any_eq_true _ _).mp source
      obtain ⟨place, found⟩ := List.mem_iff_getElem?.mp member
      obtain ⟨there, memberThere, namedThere⟩ := List.mem_filterMap.mp (List.contains_iff_mem.mp basic)
      obtain ⟨other, foundThere⟩ := List.mem_iff_getElem?.mp memberThere
      have unit := units other place there row index trivial foundThere found namedThere
      by_cases same : other = place
      · subst same
        obtain rfl := Option.some.inj (found.symm.trans foundThere)
        obtain rfl := Option.some.inj (named.symm.trans namedThere)
        rw [if_pos rfl] at unit
        rw [known, Option.any_some] at flagged
        rw [show row.coefs.getD own 0 = 1 from unit, one_mul]
        exact whole own column known flagged
      · rw [if_neg same] at unit
        rw [show row.coefs.getD index 0 = 0 from unit, zero_mul]
        exact Whole.zero
    · exact share_contributes _ _ _ (nonneg index) (whole index column known)

/-! ### The generator -/

/-- No row with an integral basic value passes the filter. -/
def Filter.RejectsWhole (filter : Filter) : Prop :=
  Generator.awayness (0 : Rat) < filter.minAwayness

instance (filter : Filter) : Decidable filter.RejectsWhole :=
  inferInstanceAs (Decidable (Generator.awayness (0 : Rat) < filter.minAwayness))

theorem rejectsWhole_default : ({} : Filter).RejectsWhole := by decide +kernel

/-- A cut that a row of the tableau gives: the row's own, scaled. -/
structure FromRow (tableau : Tableau Rat) (row : TableauRow Rat) (cut : GomoryCut Rat) : Prop where
  member : row ∈ tableau.rows
  source : Generator.isSource tableau row = true
  fractional : 0 < Int.fract row.rhs
  scaled : ∃ factor, 0 < factor ∧ cut.rhs = factor ∧
    cut.coefs = (rowCut tableau row (Int.fract row.rhs)).map (factor * ·)

theorem derive_eq_ok {generator : Generator Rat} {tableau : Tableau Rat} {row : TableauRow Rat}
    {found : Option (GomoryCut Rat)} {counts : Counts} (positive : 0 < Int.fract row.rhs)
    (derived : generator.derive tableau row (Int.fract row.rhs) = .ok (found, counts))
    (cut : GomoryCut Rat) (kept : found = some cut) :
    ∃ factor, 0 < factor ∧ cut.rhs = factor ∧
      cut.coefs = (rowCut tableau row (Int.fract row.rhs)).map (factor * ·) := by
  subst kept
  obtain ⟨factor, above, scaled⟩ :=
    exists_primitiveMultiple (rowCut tableau row (Int.fract row.rhs) ++ [1])
  have multiple : (Scalar.scaleToIntegers (rowCut tableau row (Int.fract row.rhs) ++ [1])) =
      (rowCut tableau row (Int.fract row.rhs)).map (factor * ·) ++ [factor] := by
    rw [show Scalar.scaleToIntegers (rowCut tableau row (Int.fract row.rhs) ++ [1]) = _ from scaled]
    simp
  unfold Generator.derive at derived
  rw [rawCut_eq_ok positive (Int.fract_lt_one _)] at derived
  simp only [bind, Except.bind, multiple] at derived
  split at derived
  · cases derived
  · split at derived
    · cases derived
    · split at derived
      · obtain ⟨rfl, -⟩ := by simpa [pure, Except.pure] using derived
        refine ⟨factor, above, ?_, ?_⟩
        · have exact : Scalar.isExact Rat = true := rfl
          simp [relax, exact]
        · simp
      · cases derived

/-- What trying a row can do: nothing, or derive the cut of a source row that the filter lets
through and keep it or the best one so far. Only the counts change. -/
theorem considerRow_cases {tableau : Tableau Rat} {row : TableauRow Rat}
    {generator next : Generator Rat} {best found : Option (GomoryCut Rat)}
    (tried : Generator.considerRow tableau (generator, best) row = .ok (next, found)) :
    (next = generator ∧ found = best) ∨
      (Generator.isSource tableau row = true ∧
        ¬ Generator.awayness (Int.fract row.rhs) < generator.filter.minAwayness ∧
        ∃ before after kept, Generator.derive { generator with counts := before } tableau row
            (Int.fract row.rhs) = .ok (kept, after) ∧
          next = { generator with counts := after } ∧ (found = best ∨ found = kept)) := by
  unfold Generator.considerRow at tried
  simp only [Scalar.fraction_rat] at tried
  split at tried
  · obtain ⟨rfl, rfl⟩ := by simpa [pure, Except.pure] using tried
    exact .inl ⟨rfl, rfl⟩
  · rename_i passes
    simp only [Bool.or_eq_true, Bool.not_eq_eq_eq_not, Bool.not_true, decide_eq_true_eq, not_or,
      Bool.not_eq_false] at passes
    refine .inr ⟨passes.1, passes.2,
      { generator.counts with candidates := generator.counts.candidates + 1 }, ?_⟩
    cases derived : Generator.derive { generator with
        counts := { generator.counts with candidates := generator.counts.candidates + 1 } }
          tableau row (Int.fract row.rhs) with
    | error cause =>
      rw [derived] at tried
      cases tried
    | ok pair =>
      obtain ⟨kept, counts⟩ := pair
      rw [derived] at tried
      simp only [bind, Except.bind] at tried
      refine ⟨counts, kept, rfl, ?_⟩
      cases kept with
      | none =>
        obtain ⟨rfl, rfl⟩ := by simpa [pure, Except.pure] using tried
        exact ⟨rfl, .inl rfl⟩
      | some cut =>
        obtain ⟨rfl, chosen⟩ := by simpa [pure, Except.pure] using tried
        refine ⟨rfl, ?_⟩
        split at chosen
        · exact .inr chosen.symm
        · exact .inl chosen.symm

/-- A right-hand side that the filter lets through is fractional. -/
theorem fract_pos_of_away {filter : Filter} {rhs : Rat} (rejects : filter.RejectsWhole)
    (away : ¬ Generator.awayness (Int.fract rhs) < filter.minAwayness) : 0 < Int.fract rhs := by
  refine lt_of_le_of_ne (Int.fract_nonneg _) fun whole => ?_
  rw [← whole] at away
  exact away rejects

/-- Trying a row keeps the filter, and a cut it keeps is that of a row. -/
theorem considerRow_keeps {tableau : Tableau Rat} {row : TableauRow Rat} (member : row ∈ tableau.rows)
    {generator next : Generator Rat} {best found : Option (GomoryCut Rat)}
    (rejects : generator.filter.RejectsWhole)
    (before : ∀ cut, best = some cut → ∃ row, FromRow tableau row cut)
    (tried : Generator.considerRow tableau (generator, best) row = .ok (next, found)) :
    next.filter = generator.filter ∧ ∀ cut, found = some cut → ∃ row, FromRow tableau row cut := by
  rcases considerRow_cases tried with ⟨rfl, rfl⟩ | ⟨source, away, tried, after, kept, derived, rfl, chosen⟩
  · exact ⟨rfl, before⟩
  · have positive := fract_pos_of_away rejects away
    refine ⟨rfl, fun cut same => ?_⟩
    rcases chosen with rfl | rfl
    · exact before cut same
    · exact ⟨row, member, source, positive, derive_eq_ok positive derived cut same⟩

/-- A generated cut is that of a row with a fractional basic value. -/
theorem generate_spec {generator next : Generator Rat} {tableau : Tableau Rat}
    {found : Option (GomoryCut Rat)} (rejects : generator.filter.RejectsWhole)
    (generated : generator.generate tableau = .ok (next, found)) :
    next.filter = generator.filter ∧ ∀ cut, found = some cut → ∃ row, FromRow tableau row cut := by
  have kept := foldlM_keeps (fun state : Generator Rat × Option (GomoryCut Rat) =>
      state.1.filter = generator.filter ∧ ∀ cut, state.2 = some cut → ∃ row, FromRow tableau row cut)
    generated ⟨rfl, fun _ impossible => nomatch impossible⟩ ?_
  · exact kept
  · rintro ⟨middle, best⟩ row ⟨after, found'⟩ member ⟨filter, before⟩ tried
    obtain ⟨same, rows⟩ := considerRow_keeps member (filter ▸ rejects) before tried
    exact ⟨same.trans filter, rows⟩

/-- A cut holds at every solution in the box whose integral columns read as integers. -/
theorem FromRow.valid {tableau : Tableau Rat} {row : TableauRow Rat} {cut : GomoryCut Rat}
    (made : FromRow tableau row cut) (units : UnitColumns (fun _ => True) tableau.rows)
    (wide : tableau.Wide tableau.columnCount) {x : Nat → Rat} (held : tableau.Holds x)
    (inside : Tableau.InBounds tableau.frame x)
    (whole : ∀ (index : Nat) (column : TableauColumn Rat), tableau.columns[index]? = some column →
      column.integral = true → Whole (tableau.reading x index)) :
    cut.rhs ≤ form cut.coefs (tableau.reading x) := by
  obtain ⟨factor, positive, rhs, coefs⟩ := made.scaled
  have bounds := (Tableau.inBounds_iff tableau x).mp inside
  have one := one_le_rowCut units made.member (wide.rows row made.member) made.source
    made.fractional (held row made.member) (fun index => (bounds index).1) whole
  rw [rhs, coefs, form_map_mul]
  exact le_mul_of_one_le_right positive.le one

theorem FromRow.length {tableau : Tableau Rat} {row : TableauRow Rat} {cut : GomoryCut Rat}
    (made : FromRow tableau row cut) : cut.coefs.length = tableau.columnCount := by
  obtain ⟨factor, -, -, coefs⟩ := made.scaled
  rw [coefs, List.length_map, length_rowCut]

end Cut

end MixedInteger
