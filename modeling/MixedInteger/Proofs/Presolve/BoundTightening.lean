import MixedInteger.Proofs.Presolve.ActivityBounds
import MixedInteger.Proofs.Presolve.Narrowing

/-! Bounds derived from rows hold at every feasible point and for every direction, and rounding the bounds of
integral columns loses no integer; afterwards these bounds are integers. -/
namespace MixedInteger.Presolve

/-- The bounds that a row implies for one of its columns, given limits on the rest. -/
theorem admits_impliedBounds {relation : Relation} {a rhs rest x : Rat} {restMin restMax : Option Rat}
    (occurs : a ≠ 0) (low : ∀ bound, restMin = some bound → bound ≤ rest)
    (high : ∀ bound, restMax = some bound → rest ≤ bound)
    (holds : relation.Holds (rest + a * x) rhs) :
    (Range.mk (impliedBounds relation a rhs restMin restMax).1
      (impliedBounds relation a rhs restMin restMax).2).Admits x := by
  have fromMin : ∀ bound, (if relation = .ge then none
      else restMin.map fun rest => (rhs - rest) / a) = some bound → a * x ≤ a * bound := by
    intro bound known
    by_cases side : relation = .ge
    · simp [side] at known
    · simp only [side, ↓reduceIte, Option.map_eq_some_iff] at known
      obtain ⟨least, eq, rfl⟩ := known
      rw [mul_div_cancel₀ _ occurs]
      have := low least eq
      have : rest + a * x ≤ rhs := by
        cases relation
        · exact holds
        · exact holds.le
        · exact absurd rfl side
      linarith
  have fromMax : ∀ bound, (if relation = .le then none
      else restMax.map fun rest => (rhs - rest) / a) = some bound → a * bound ≤ a * x := by
    intro bound known
    by_cases side : relation = .le
    · simp [side] at known
    · simp only [side, ↓reduceIte, Option.map_eq_some_iff] at known
      obtain ⟨greatest, eq, rfl⟩ := known
      rw [mul_div_cancel₀ _ occurs]
      have := high greatest eq
      have : rhs ≤ rest + a * x := by
        cases relation
        · exact absurd rfl side
        · exact holds.ge
        · exact holds
      linarith
  rcases lt_or_gt_of_ne occurs with negative | positive
  · have sign : Scalar.isPositive a = false := by simpa [← Bool.not_eq_true] using negative.le
    simp only [impliedBounds, sign, Bool.false_eq_true, ↓reduceIte]
    exact ⟨fun bound known => (mul_le_mul_left_of_neg negative).mp (fromMin bound known),
      fun bound known => (mul_le_mul_left_of_neg negative).mp (fromMax bound known)⟩
  · simp only [impliedBounds, (Scalar.isPositive_iff a).mpr positive, ↓reduceIte]
    exact ⟨fun bound known => le_of_mul_le_mul_left (fromMax bound known) positive,
      fun bound known => le_of_mul_le_mul_left (fromMin bound known) positive⟩

/-- The residual activities of a row bound one of its columns: whatever value the column
takes beside a point of the box, if the row then holds, the value lies between them. -/
theorem admits_residualBounds {columns : List (Column Rat)} {row : Row Rat} {index : Nat}
    {column : Column Rat} {a value : Rat} {x : List Rat} (inside : Activity.InBox columns x)
    (known : columns[index]? = some column) (coef : row.coefs[index]? = some a)
    (occurs : a ≠ 0) {relation : Relation}
    (holds : relation.Holds (dot row.coefs x - a * x.getD index 0 + a * value) row.rhs) :
    let activity := Activity.ofRow row.coefs columns
    let bounds := impliedBounds relation a row.rhs (activity.residualMin a column.range)
      (activity.residualMax a column.range)
    (Range.mk bounds.1 bounds.2).Admits value :=
  admits_impliedBounds occurs (fun _ => Activity.residualMin_le inside known coef occurs)
    (fun _ => Activity.le_residualMax inside known coef occurs) holds

theorem impliedBounds_recession (relation : Relation) (a rhs : Rat) (restMin restMax : Option Rat) :
    impliedBounds relation a 0 (restMin.map fun _ => 0) (restMax.map fun _ => 0) =
      ((impliedBounds relation a rhs restMin restMax).1.map fun _ => 0,
        (impliedBounds relation a rhs restMin restMax).2.map fun _ => 0) := by
  unfold impliedBounds
  cases Scalar.isPositive a <;> cases relation <;> simp [Function.comp_def]

/-- The bounds that a row puts on the values of a column hold, at zero, for directions. -/
theorem admits_recession_residualBounds {columns : List (Column Rat)} {row : Row Rat} {index : Nat}
    {column : Column Rat} {a value : Rat} {d : List Rat}
    (inside : Activity.InBox (columns.map Column.recession) d)
    (known : columns[index]? = some column) (coef : row.coefs[index]? = some a) (occurs : a ≠ 0)
    {relation : Relation}
    (holds : relation.Holds (dot row.coefs d - a * d.getD index 0 + a * value) 0) :
    let activity := Activity.ofRow row.coefs columns
    let bounds := impliedBounds relation a row.rhs (activity.residualMin a column.range)
      (activity.residualMax a column.range)
    (Range.mk bounds.1 bounds.2).recession.Admits value := by
  have there : (columns.map Column.recession)[index]? = some column.recession := by simp [known]
  have coefs : row.recession.coefs[index]? = some a := coef
  have bounds := admits_residualBounds inside there coefs occurs holds
  simp only [Row.recession, Column.recession, Activity.residualMin_recession,
    Activity.residualMax_recession, impliedBounds_recession _ _ row.rhs] at bounds
  exact bounds

/-- The numbers of rows and columns. -/
def Sized (rows columns : Nat) (state : State Rat) : Prop :=
  state.program.rows.length = rows ∧ state.program.columns.length = columns

theorem Narrows.sized {state next : State Rat} {index : Nat} {range : Range Rat}
    (narrows : Narrows state next index range) {rows columns : Nat}
    (sized : Sized rows columns state) : Sized rows columns next := by
  obtain ⟨-, program⟩ := narrows
  simpa [Sized, program, Program.narrowed] using sized

theorem tightenByRow_sound {rows columns index column : Nat} (insideRow : index < rows)
    (insideColumn : column < columns) :
    Sound (Sized rows columns) (tightenByRow index column) fun _ => Sized rows columns := by
  rintro state valid sized
  obtain ⟨row, known⟩ : ∃ row, state.program.rows[index]? = some row :=
    ⟨_, List.getElem?_eq_getElem (sized.1 ▸ insideRow)⟩
  obtain ⟨data, there⟩ : ∃ data, state.program.columns[column]? = some data :=
    ⟨_, List.getElem?_eq_getElem (sized.2 ▸ insideColumn)⟩
  have width := valid.rows row (List.mem_of_getElem? known)
  have reach : column < row.coefs.length := by rw [width, sized.2]; exact insideColumn
  obtain ⟨a, coef⟩ : ∃ a, row.coefs[column]? = some a := ⟨_, List.getElem?_eq_getElem reach⟩
  have coefficient : row.coef column = .ok a := by rw [Row.coef, coef]; rfl
  simp only [tightenByRow, ends_bind, ends_rowAt known, ends_attempt_ok coefficient]
  split
  · exact ⟨valid, Refines.refl state, sized⟩
  · rename_i occurs
    rw [Scalar.isNegligible_iff] at occurs
    simp only [ends_bind, ends_columnAt there, ends_get]
    split
    · exact ⟨valid, Refines.refl state, sized⟩
    · refine (ends_tighten_implied valid there ?_ ?_).mono ?_ fun _ _ => id
      · intro x held
        have holds := held.rows row (List.mem_of_getElem? known)
        rw [← sub_add_cancel (dot row.coefs x) (a * x.getD column 0)] at holds
        have bounds := admits_residualBounds held.toSatisfies.inBox there coef occurs holds
        refine ⟨fun bound kept => bounds.1 bound ?_, fun bound kept => bounds.2 bound ?_⟩
        · exact (Option.filter_eq_some_iff.mp kept).1
        · exact (Option.filter_eq_some_iff.mp kept).1
      · intro d held
        obtain ⟨-, rows, -⟩ := (Program.satisfies_recession_iff _ d).mp held
        have holds := rows row (List.mem_of_getElem? known)
        rw [← sub_add_cancel (dot row.coefs d) (a * d.getD column 0)] at holds
        have bounds := admits_recession_residualBounds held.inBox there coef occurs holds
        rw [Range.admits_recession_iff] at bounds ⊢
        dsimp only at bounds ⊢
        refine ⟨fun kept => bounds.1 ?_, fun kept => bounds.2 ?_⟩
        · exact fun missing => kept (by rw [missing]; rfl)
        · exact fun missing => kept (by rw [missing]; rfl)
      · rintro _ next ⟨validNext, refines, range, narrows, -⟩
        exact ⟨validNext, refines, narrows.sized sized⟩

theorem tightenBounds_sound : Sound (fun _ => True) tightenBounds fun _ _ => True := by
  refine Sound.get fun seen => ?_
  have sweeps : Sound (Sized seen.program.rows.length seen.program.columns.length)
      (sweep (fun row => sweep (tightenByRow row) (List.range seen.program.columns.length))
        (List.range seen.program.rows.length))
      fun _ => Sized seen.program.rows.length seen.program.columns.length := by
    refine Sound.sweep_inv fun row inRows => Sound.sweep_inv fun column inColumns => ?_
    exact tightenByRow_sound (List.mem_range.mp inRows) (List.mem_range.mp inColumns)
  refine sweeps.weaken ?_ fun _ _ _ => trivial
  rintro state ⟨rfl, -⟩
  exact ⟨rfl, rfl⟩

/-! ### Rounding -/

/-- The number of columns, and integral bounds at the positions that are done. -/
def Rounded (columns : Nat) (done : Nat → Prop) (state : State Rat) : Prop :=
  state.program.columns.length = columns ∧
    ∀ (index : Nat) (column : Column Rat), done index →
      state.program.columns[index]? = some column → column.integral = true →
        column.range.WholeBounds

theorem roundBounds_sound {columns index : Nat} (inside : index < columns) (done : Nat → Prop) :
    Sound (Rounded columns done) (roundBounds index)
      fun _ => Rounded columns fun other => done other ∨ other = index := by
  rintro state valid ⟨count, whole⟩
  obtain ⟨column, known⟩ : ∃ column, state.program.columns[index]? = some column :=
    ⟨_, List.getElem?_eq_getElem (count ▸ inside)⟩
  simp only [roundBounds, ends_bind, ends_columnAt known]
  split
  · rename_i continuous
    refine ⟨valid, Refines.refl state, count, ?_⟩
    rintro other data (old | rfl) found flagged
    · exact whole other data old found flagged
    · obtain rfl : column = data := Option.some.inj (known.symm.trans found)
      simp [flagged] at continuous
  · rename_i integral
    have flagged : column.integral = true := by simpa using integral
    have rounds : ∀ x, state.program.Feasible x →
        column.range.roundInward.Admits (x.getD index 0) := by
      intro x held
      exact (Range.admits_roundInward (held.integral index column known flagged)).mpr
        (held.ranges index column known)
    have meaning : ∀ value, column.range.roundInward.Admits value ↔
        column.range.Admits value ∧ column.range.roundInward.Admits value := by
      intro value
      exact ⟨fun held => ⟨Range.admits_of_roundInward held, held⟩, And.right⟩
    have recedes : ∀ value, column.range.roundInward.recession.Admits value ↔
        column.range.recession.Admits value ∧ column.range.roundInward.recession.Admits value := by
      intro value
      rw [column.range.recession_roundInward, and_self]
    simp only [setRange]
    cases empty : column.range.roundInward.isEmpty with
    | true =>
      intro x held
      exact Range.not_admits_of_isEmpty empty _ (rounds x held)
    | false =>
      have final : ∀ next : State Rat, Narrows state next index column.range.roundInward →
          next.program.Valid ∧ Refines state next ∧
            Rounded columns (fun other => done other ∨ other = index) next := by
        rintro next ⟨log, program⟩
        refine ⟨?_, Refines.narrowed known meaning recedes rounds ?_ log program, ?_, ?_⟩
        · rw [program]
          exact valid.narrowed empty
        · intro d held
          rw [column.range.recession_roundInward]
          exact ((Program.satisfies_recession_iff _ d).mp held).2.2 index column known
        · rw [program]
          simpa [Program.narrowed] using count
        · intro other data settled found
          rw [program, Program.getElem?_narrowed, Option.map_eq_some_iff] at found
          obtain ⟨old, there, rfl⟩ := found
          by_cases same : index = other
          · intro _
            simpa [same] using Range.roundInward_wholeBounds column.range
          · rcases settled with before | rfl
            · simpa [same] using whole other old before there
            · exact absurd rfl same
      simp only [Bool.false_eq_true, ↓reduceIte]
      split
      · exact final _ ⟨rfl, rfl⟩
      · exact final _ ⟨rfl, rfl⟩

/-- After the rounding every integral column has integral bounds. -/
theorem roundIntegralBounds_sound :
    Sound (fun _ => True) roundIntegralBounds fun _ state => state.program.WholeBounds := by
  refine Sound.get fun seen => ?_
  have sweeps : Sound (Rounded seen.program.columns.length fun _ => False)
      (sweep roundBounds (List.range seen.program.columns.length)) fun _ =>
        Rounded seen.program.columns.length fun index =>
          False ∨ index ∈ List.range seen.program.columns.length :=
    Sound.sweep (fun index member done => roundBounds_sound (List.mem_range.mp member) done) _
  refine sweeps.weaken ?_ ?_
  · rintro state ⟨rfl, -⟩
    exact ⟨rfl, by simp⟩
  · rintro _ state ⟨count, whole⟩ column member flagged
    obtain ⟨index, found⟩ := List.mem_iff_getElem?.mp member
    obtain ⟨inside, -⟩ := List.getElem?_eq_some_iff.mp found
    exact whole index column (.inr (List.mem_range.mpr (count ▸ inside))) found flagged

end MixedInteger.Presolve
