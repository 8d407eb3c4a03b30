import Mathlib.Data.Fintype.BigOperators
import MixedInteger.Proofs.Simplex.Stalling

/-! Every run of iterations ends. A run passes through vertices of one problem and its value
never rises. There are only so many bases, orientations and entering rules, so a run that is
long enough comes back to all three. The value is then the same in between, every step in
between has length zero, and the lowest column entered each time: a circle, and there are
none. -/
namespace MixedInteger.Simplex.Tableau

/-! ### Runs -/

/-- One iteration over the first `count` columns. -/
def Iterates (count : Nat) (tableau next : Tableau Rat) : Prop :=
  ∃ column, tableau.entering count = some column ∧
    { tableau with iterations := tableau.iterations + 1 }.step column = some next

/-- The first `length` iterations of a run. -/
def Trail (count : Nat) (run : Nat → Tableau Rat) (length : Nat) : Prop :=
  ∀ k < length, Iterates count (run k) (run (k + 1))

/-- What one iteration does to the value and the entering rule. -/
structure Descends (count : Nat) (tableau next : Tableau Rat) : Prop where
  rows : next.basis.length = tableau.basis.length
  value : next.value ≤ tableau.value
  cautious : next.value = tableau.value → next.bland = true
  stalls : tableau.bland = true → next.value = tableau.value →
    ∃ column, Stall count tableau next column

section

variable {tableau next : Tableau Rat} {count width : Nat}

theorem Iterates.reaches (iterates : Iterates count tableau next) (vertex : tableau.AtVertex width) :
    next.AtVertex width ∧ SameProblem tableau next := by
  obtain ⟨column, enters, stepped⟩ := iterates
  have counted : { tableau with iterations := tableau.iterations + 1 }.AtVertex width :=
    vertex.congr rfl rfl rfl
  obtain ⟨reached, same⟩ := counted.step (entering_eq_some enters).2 stepped
  exact ⟨reached, same.frame, same.constant, same.costReady, same.holds, same.price⟩

theorem Iterates.descends (iterates : Iterates count tableau next)
    (vertex : tableau.AtVertex width) : Descends count tableau next := by
  obtain ⟨column, enters, stepped⟩ := iterates
  have counted : { tableau with iterations := tableau.iterations + 1 }.AtVertex width :=
    vertex.congr rfl rfl rfl
  have improving := (entering_eq_some enters).2
  obtain ⟨length, nonneg, value, bland, moves⟩ := counted.step_cases improving stepped
  have value : next.value = tableau.value + tableau.reduced.getD column 0 * length := value
  have drop : tableau.reduced.getD column 0 * length ≤ 0 :=
    mul_nonpos_of_nonpos_of_nonneg improving.le nonneg
  refine ⟨?_, by linarith, fun same => ?_, fun lowest same => ?_⟩
  · rcases moves with flips | ⟨index, source, leaving, exchanges⟩
    · exact congrArg List.length flips.basis
    · rw [exchanges.basis, List.length_set]
      rfl
  · have still : tableau.value - next.value = 0 := by rw [same, sub_self]
    rw [bland]
    change (!Scalar.isPos (tableau.value - next.value)) = true
    rw [still]
    rfl
  · have zero : length = 0 := by
      have product : tableau.reduced.getD column 0 * length = 0 := by linarith
      exact (mul_eq_zero.mp product).resolve_left improving.ne
    subst zero
    refine ⟨column, lowest_of_entering lowest enters, ?_⟩
    rcases moves with flips | ⟨index, source, leaving, exchanges⟩
    · exact .inl ⟨flips.bound, flips.basis, flips.columns, flips.reduced⟩
    · exact .inr ⟨index, source, leaving, exchanges.short, exchanges.known, exchanges.named,
        exchanges.basis, exchanges.blocks, exchanges.first⟩

end

section Runs

variable {run : Nat → Tableau Rat} {count width length : Nat}

theorem Trail.reaches (trail : Trail count run length) (vertex : (run 0).AtVertex width) {k : Nat}
    (inside : k ≤ length) : (run k).AtVertex width ∧ SameProblem (run 0) (run k) := by
  induction k with
  | zero => exact ⟨vertex, SameProblem.refl _⟩
  | succ k ih =>
    obtain ⟨before, same⟩ := ih (Nat.le_of_lt inside)
    obtain ⟨after, step⟩ := (trail k inside).reaches before
    exact ⟨after, same.trans step⟩

theorem Trail.descends (trail : Trail count run length) (vertex : (run 0).AtVertex width) {k : Nat}
    (inside : k < length) : Descends count (run k) (run (k + 1)) :=
  (trail k inside).descends (trail.reaches vertex inside.le).1

theorem Trail.value_le (trail : Trail count run length) (vertex : (run 0).AtVertex width)
    {first last : Nat} (order : first ≤ last) (inside : last ≤ length) :
    (run last).value ≤ (run first).value := by
  induction last, order using Nat.le_induction with
  | base => exact le_rfl
  | succ last _ ih => exact (trail.descends vertex inside).value.trans (ih (Nat.le_of_lt inside))

theorem Trail.length_basis (trail : Trail count run length) (vertex : (run 0).AtVertex width)
    {k : Nat} (inside : k ≤ length) : (run k).basis.length = (run 0).basis.length := by
  induction k with
  | zero => rfl
  | succ k ih => exact (trail.descends vertex inside).rows.trans (ih (Nat.le_of_lt inside))

/-- A run cannot come back to its basis, orientations and entering rule. -/
theorem Trail.not_back (trail : Trail count run length) (vertex : (run 0).AtVertex width)
    (positive : 0 < length) (basis : (run length).basis = (run 0).basis)
    (columns : (run length).columns = (run 0).columns)
    (bland : (run length).bland = (run 0).bland) : False := by
  obtain ⟨reached, same⟩ := trail.reaches vertex le_rfl
  have back : (run length).value = (run 0).value :=
    value_eq_of_basis_eq vertex reached same basis columns
  have value : ∀ k ≤ length, (run k).value = (run 0).value := fun k inside =>
    le_antisymm (trail.value_le vertex (Nat.zero_le k) inside)
      (back ▸ trail.value_le vertex inside le_rfl)
  have still : ∀ k < length, (run (k + 1)).value = (run k).value := fun k inside =>
    (value (k + 1) inside).trans (value k inside.le).symm
  have cautious : ∀ k < length, (run (k + 1)).bland = true := fun k inside =>
    (trail.descends vertex inside).cautious (still k inside)
  have lowest : ∀ k ≤ length, (run k).bland = true := by
    intro k inside
    cases k with
    | zero =>
      obtain ⟨last, rfl⟩ := Nat.exists_eq_add_of_lt positive
      rw [← bland]
      exact cautious _ (by omega)
    | succ k => exact cautious k inside
  have circle : Circle count width run length :=
    { positive, value, basis, columns
      vertex := fun k inside => (trail.reaches vertex inside).1
      same := fun k inside => (trail.reaches vertex inside).2
      stalls := fun k inside =>
        (trail.descends vertex inside).stalls (lowest k inside.le) (still k inside) }
  exact circle.elim

end Runs

/-! ### Postures -/

/-- The basic column of each row, the orientation of each column and the entering rule. -/
def posture (rows columns width : Nat) (tableau : Tableau Rat) :
    (Fin rows → Fin (width + 1)) × (Fin columns → Bool) × Bool :=
  (fun row => Fin.ofNat (width + 1) ((tableau.basis.getD row none).getD 0),
    fun column => (tableau.columns[column.val]?).any TableauColumn.complemented,
    tableau.bland)

/-- How many postures there are. -/
def postures (rows columns width : Nat) : Nat := 2 * (width + 1) ^ rows * 2 ^ columns

theorem card_posture (rows columns width : Nat) :
    Fintype.card ((Fin rows → Fin (width + 1)) × (Fin columns → Bool) × Bool) =
      postures rows columns width := by
  simp only [Fintype.card_prod, Fintype.card_fun, Fintype.card_fin, Fintype.card_bool, postures]
  ring

section Postures

variable {tableau other : Tableau Rat} {width : Nat}

/-- Every row names a basic column of the tableau. -/
theorem AtVertex.basis_eq_some (vertex : tableau.AtVertex width) {row : Nat}
    (inside : row < tableau.basis.length) :
    ∃ basic < width, tableau.basis[row]? = some (some basic) := by
  have below : row < tableau.rows.length := by simpa [basis] using inside
  have known := List.getElem?_eq_getElem below
  have member := List.getElem_mem below
  obtain ⟨basic, named⟩ := Option.ne_none_iff_exists'.mp (vertex.named _ member)
  have unit := vertex.units.own trivial known named
  have short : basic < (tableau.rows[row]).coefs.length := lt_length_of_unit unit
  rw [vertex.wide.rows _ member] at short
  exact ⟨basic, short, by rw [getElem?_basis known, named]⟩

theorem basis_eq_of_posture_eq (vertex : tableau.AtVertex width) (vertexOther : other.AtVertex width)
    {rows columns : Nat} (count : tableau.basis.length = rows) (countOther : other.basis.length = rows)
    (same : other.posture rows columns width = tableau.posture rows columns width) :
    other.basis = tableau.basis := by
  refine List.ext_getElem? fun row => ?_
  by_cases inside : row < rows
  · obtain ⟨basic, below, found⟩ := vertex.basis_eq_some (count.symm ▸ inside)
    obtain ⟨basicOther, belowOther, foundOther⟩ := vertexOther.basis_eq_some (countOther.symm ▸ inside)
    have alike := congrFun (congrArg Prod.fst same) ⟨row, inside⟩
    simp only [posture, List.getD_eq_getElem?_getD, found, foundOther, Option.getD_some, Fin.ext_iff,
      Fin.val_ofNat, Nat.mod_eq_of_lt (Nat.lt_succ_of_lt below),
      Nat.mod_eq_of_lt (Nat.lt_succ_of_lt belowOther)] at alike
    rw [found, foundOther, alike]
  · rw [List.getElem?_eq_none (by omega), List.getElem?_eq_none (by omega)]

theorem columns_eq_of_posture_eq (frame : other.frame = tableau.frame) {rows : Nat}
    (same : other.posture rows tableau.columnCount width =
      tableau.posture rows tableau.columnCount width) : other.columns = tableau.columns := by
  have count : other.columns.length = tableau.columns.length := columnCount_congr frame
  refine List.ext_getElem count fun column insideOther inside => ?_
  have fixed := congrArg (·[column]?) frame
  have orientation := congrFun (congrArg (fun posture => posture.2.1) same) ⟨column, inside⟩
  simp only [getElem?_frame, List.getElem?_eq_getElem inside, List.getElem?_eq_getElem insideOther,
    Option.map_some, Option.some.injEq, posture, Option.any_some] at fixed orientation
  generalize other.columns[column] = left at fixed orientation ⊢
  generalize tableau.columns[column] = right at fixed orientation ⊢
  cases left
  cases right
  simpa [TableauColumn.fixedPart, and_assoc] using And.intro fixed orientation

/-- A run is shorter than the number of postures. -/
theorem Trail.length_lt {run : Nat → Tableau Rat} {count length : Nat}
    (trail : Trail count run length) (vertex : (run 0).AtVertex width) :
    length < postures (run 0).rows.length (run 0).columnCount width := by
  by_contra long
  rw [not_lt, ← card_posture] at long
  obtain ⟨i, j, apart, alike⟩ := Fintype.exists_ne_map_eq_of_card_lt
    (fun k : Fin (length + 1) => (run k).posture (run 0).rows.length (run 0).columnCount width)
    (by rw [Fintype.card_fin]; omega)
  wlog order : i < j generalizing i j
  · exact this j i apart.symm alike.symm (lt_of_le_of_ne (not_lt.mp order) apart.symm)
  have insideFirst : i.val ≤ length := by omega
  have insideLast : j.val ≤ length := by omega
  have rows : (run 0).basis.length = (run 0).rows.length := by simp [basis]
  obtain ⟨first, fromStart⟩ := trail.reaches vertex insideFirst
  obtain ⟨last, toEnd⟩ := trail.reaches vertex insideLast
  have columnCount : (run i).columnCount = (run 0).columnCount := columnCount_congr fromStart.frame
  have basis := basis_eq_of_posture_eq first last
    ((trail.length_basis vertex insideFirst).trans rows)
    ((trail.length_basis vertex insideLast).trans rows) alike.symm
  have columns : (run j).columns = (run i).columns :=
    columns_eq_of_posture_eq (toEnd.frame.trans fromStart.frame.symm)
      (by rw [columnCount]; exact alike.symm)
  have rule : (run j).bland = (run i).bland := congrArg (fun posture => posture.2.2) alike.symm
  have shifted : Trail count (fun k => run (i + k)) (j - i) :=
    fun k below => trail (i + k) (by omega)
  have whole : i.val + (j.val - i.val) = j.val := by omega
  refine shifted.not_back first (by omega) ?_ ?_ ?_ <;> simp only [whole, Nat.add_zero]
  · exact basis
  · exact columns
  · exact rule

/-- From a vertex, all runs are shorter than one bound. -/
theorem AtVertex.bounded (vertex : tableau.AtVertex width) (count : Nat) :
    ∃ bound, ∀ run length, run 0 = tableau → Trail count run length → length < bound := by
  refine ⟨postures tableau.rows.length tableau.columnCount width, ?_⟩
  rintro run length rfl trail
  exact trail.length_lt vertex

end Postures

/-! ### The iteration loop -/

/-- A loop that outlives its fuel has made that many iterations. -/
theorem exists_trail {count fuel : Nat} {tableau : Tableau Rat} {budget : Budget}
    (unsettled : (iterate count fuel tableau budget).1 = .unsettled) :
    ∃ run, run 0 = tableau ∧ Trail count run fuel := by
  induction fuel generalizing tableau budget with
  | zero => exact ⟨fun _ => tableau, rfl, fun k impossible => absurd impossible (Nat.not_lt_zero k)⟩
  | succ fuel ih =>
    rw [iterate] at unsettled
    split at unsettled
    · cases unsettled
    · rename_i column enters
      split at unsettled
      · cases unsettled
      · dsimp only at unsettled
        split at unsettled
        · cases unsettled
        · rename_i next stepped
          obtain ⟨run, start, trail⟩ := ih unsettled
          refine ⟨fun k => Nat.casesOn k tableau run, rfl, fun k below => ?_⟩
          cases k with
          | zero => exact ⟨column, enters, stepped.trans (congrArg some start.symm)⟩
          | succ k => exact trail k (by omega)

/-- The loop settles within its bound on iterations. -/
theorem AtVertex.settles {tableau : Tableau Rat} {width : Nat} (vertex : tableau.AtVertex width)
    (count : Nat) (budget : Budget) :
    (iterate count (tableau.iterationBound budget) tableau budget).1 ≠ .unsettled := by
  intro unsettled
  obtain ⟨run, rfl, trail⟩ := exists_trail unsettled
  have short := trail.length_lt vertex
  simp only [iterationBound, vertex.wide.reduced, Nat.pow_eq, postures] at short
  omega

end MixedInteger.Simplex.Tableau
