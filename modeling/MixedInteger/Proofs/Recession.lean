import MixedInteger.Proofs.Feasible
import MixedInteger.Undo

/-! Directions that lead out of a program nowhere. The recession of a program keeps its rows,
relations and costs, and moves every right-hand side and every bound to zero; its points are the
directions in which one can go from any point as far as one likes. A program descends when one
of them lowers the objective, and then the objective has no least value, if there is a point at
all. Whether a program descends is a matter of its coefficients and of which bounds there are. -/
namespace MixedInteger

namespace Range

/-- The directions that stay inside a range: its finite bounds, at zero. -/
def recession (range : Range Rat) : Range Rat :=
  ⟨range.lower.map fun _ => 0, range.upper.map fun _ => 0⟩

theorem admits_recession_iff (range : Range Rat) (d : Rat) :
    range.recession.Admits d ↔ (range.lower ≠ none → 0 ≤ d) ∧ (range.upper ≠ none → d ≤ 0) := by
  rcases range with ⟨_ | lower, _ | upper⟩ <;> simp [recession, Admits]

theorem admits_recession_zero (range : Range Rat) : range.recession.Admits 0 := by
  simp [admits_recession_iff]

theorem isEmpty_recession (range : Range Rat) : range.recession.isEmpty = false := by
  rcases range with ⟨_ | lower, _ | upper⟩ <;> simp [recession, isEmpty]

theorem Admits.move {range : Range Rat} {x d t : Rat} (held : range.Admits x)
    (recedes : range.recession.Admits d) (forward : 0 ≤ t) : range.Admits (x + t * d) := by
  rw [admits_recession_iff] at recedes
  refine ⟨fun lower known => ?_, fun upper known => ?_⟩
  · have up := mul_nonneg forward (recedes.1 (by simp [known]))
    have := held.1 lower known
    linarith
  · have down := mul_nonpos_of_nonneg_of_nonpos forward (recedes.2 (by simp [known]))
    have := held.2 upper known
    linarith

theorem admits_recession_tightenLower (range : Range Rat) (value d : Rat) :
    (range.tightenLower value).recession.Admits d ↔ range.recession.Admits d ∧ 0 ≤ d := by
  simp only [admits_recession_iff, tightenLower]
  cases raised : range.raises value with
  | true => simp +contextual [and_comm]
  | false =>
    have present : range.lower ≠ none := by
      intro missing
      simp [raises, missing] at raised
    simp +contextual [present]

theorem admits_recession_tightenUpper (range : Range Rat) (value d : Rat) :
    (range.tightenUpper value).recession.Admits d ↔ range.recession.Admits d ∧ d ≤ 0 := by
  simp only [admits_recession_iff, tightenUpper]
  cases lowered : range.lowers value with
  | true => simp +contextual [and_comm]
  | false =>
    have present : range.upper ≠ none := by
      intro missing
      simp [lowers, missing] at lowered
    simp +contextual [present]

theorem recession_roundInward (range : Range Rat) :
    range.roundInward.recession = range.recession := by
  simp [recession, roundInward, Function.comp_def]

/-- A range inside another one has every bound that the other has. -/
theorem bounds_of_narrower {range other : Range Rat}
    (narrower : ∀ x, range.Admits x → other.Admits x) :
    (other.lower ≠ none → range.lower ≠ none) ∧ (other.upper ≠ none → range.upper ≠ none) := by
  constructor
  · intro bounded missing
    obtain ⟨lower, known⟩ := Option.ne_none_iff_exists'.mp bounded
    have below :=
      (narrower (min (lower - 1) (range.upper.getD 0)) ⟨by simp [missing], ?_⟩).1 lower known
    · have := min_le_left (lower - 1) (range.upper.getD 0)
      linarith
    · intro upper there
      simp [there]
  · intro bounded missing
    obtain ⟨upper, known⟩ := Option.ne_none_iff_exists'.mp bounded
    have above :=
      (narrower (max (upper + 1) (range.lower.getD 0)) ⟨?_, by simp [missing]⟩).2 upper known
    · have := le_max_left (upper + 1) (range.lower.getD 0)
      linarith
    · intro lower there
      simp [there]

theorem admits_recession_of_narrower {range other : Range Rat}
    (narrower : ∀ x, range.Admits x → other.Admits x) {d : Rat}
    (recedes : range.recession.Admits d) : other.recession.Admits d := by
  obtain ⟨lower, upper⟩ := bounds_of_narrower narrower
  rw [admits_recession_iff] at recedes ⊢
  exact ⟨fun known => recedes.1 (lower known), fun known => recedes.2 (upper known)⟩

end Range

theorem Relation.holds_refl (relation : Relation) (value : Rat) : relation.Holds value value := by
  cases relation <;> simp [Holds]

/-- What stays below a limit all along a line does not rise. -/
theorem nonpos_of_line {a b limit : Rat} (line : ∀ t, 0 ≤ t → a + t * b ≤ limit) : b ≤ 0 := by
  by_contra rises
  have positive : 0 < b := not_le.mp rises
  have far := line ((|limit - a| + 1) / b) (by positivity)
  rw [div_mul_cancel₀ _ positive.ne'] at far
  have := le_abs_self (limit - a)
  linarith

theorem nonneg_of_line {a b limit : Rat} (line : ∀ t, 0 ≤ t → limit ≤ a + t * b) : 0 ≤ b := by
  have turned : ∀ t, 0 ≤ t → -a + t * -b ≤ -limit := by
    intro t forward
    have := line t forward
    linarith
  have falls := nonpos_of_line turned
  linarith

theorem Relation.holds_zero_of_line {relation : Relation} {a b rhs : Rat}
    (line : ∀ t, 0 ≤ t → relation.Holds (a + t * b) rhs) : relation.Holds b 0 := by
  cases relation with
  | le => exact nonpos_of_line line
  | eq =>
    have falls : b ≤ 0 := nonpos_of_line fun t forward => (line t forward).le
    have rises : 0 ≤ b := nonneg_of_line fun t forward => (line t forward).ge
    exact le_antisymm falls rises
  | ge => exact nonneg_of_line line

theorem Range.admits_recession_of_line {range : Range Rat} {x d : Rat}
    (line : ∀ t, 0 ≤ t → range.Admits (x + t * d)) : range.recession.Admits d := by
  rw [admits_recession_iff]
  constructor
  · intro bounded
    obtain ⟨lower, known⟩ := Option.ne_none_iff_exists'.mp bounded
    exact nonneg_of_line fun t forward => (line t forward).1 lower known
  · intro bounded
    obtain ⟨upper, known⟩ := Option.ne_none_iff_exists'.mp bounded
    exact nonpos_of_line fun t forward => (line t forward).2 upper known

theorem getD_replicate_zero (count index : Nat) :
    (List.replicate count (0 : Rat)).getD index 0 = 0 := by
  rw [List.getD_eq_getElem?_getD, List.getElem?_replicate]
  split <;> rfl

theorem dot_replicate_zero (coefs : List Rat) (count : Nat) :
    dot coefs (List.replicate count 0) = 0 := by
  rw [dot_comm, dot_eq_form, form_replicate_zero]

/-- The rule of an eliminated column, for directions. -/
def Recovery.recession : Recovery Rat → Recovery Rat
  | constant _ => constant 0
  | affine _ terms => affine 0 terms

def Column.recession (column : Column Rat) : Column Rat :=
  { column with
    range := column.range.recession
    integral := false
    recovery := column.recovery.map Recovery.recession }

def Row.recession (row : Row Rat) : Row Rat := { row with rhs := 0 }

def UndoLog.recession (log : UndoLog Rat) : UndoLog Rat :=
  log.map fun entry => { entry with column := entry.column.recession }

namespace Program

/-- The program whose points are the directions that stay inside a program. -/
def recession (program : Program Rat) : Program Rat where
  objective := program.objective
  constant := 0
  rows := program.rows.map Row.recession
  columns := program.columns.map Column.recession

/-- Some direction that stays inside the program lowers the objective. -/
def Descends (program : Program Rat) : Prop :=
  ∃ d, program.recession.Satisfies d ∧ dot program.objective d < 0

variable {program : Program Rat}

theorem objectiveValue_recession (program : Program Rat) (d : List Rat) :
    program.recession.objectiveValue d = dot program.objective d := by
  simp [objectiveValue, recession]

theorem getElem?_recession {index : Nat} {column : Column Rat}
    (known : program.columns[index]? = some column) :
    program.recession.columns[index]? = some column.recession := by
  simp [recession, known]

/-- A direction, row by row and range by range. -/
theorem satisfies_recession_iff (program : Program Rat) (d : List Rat) :
    program.recession.Satisfies d ↔ d.length = program.columns.length ∧
      (∀ row ∈ program.rows, row.relation.Holds (dot row.coefs d) 0) ∧
      ∀ (index : Nat) (column : Column Rat), program.columns[index]? = some column →
        column.range.recession.Admits (d.getD index 0) := by
  constructor
  · intro held
    refine ⟨by simpa [recession] using held.length, fun row member => ?_,
      fun index column known => ?_⟩
    · exact held.rows row.recession (List.mem_map_of_mem member)
    · exact held.ranges index column.recession (getElem?_recession known)
  · rintro ⟨length, rows, ranges⟩
    refine ⟨by simpa [recession] using length, fun row member => ?_, fun index column known => ?_⟩
    · obtain ⟨source, there, rfl⟩ := List.mem_map.mp member
      exact rows source there
    · simp only [recession, List.getElem?_map, Option.map_eq_some_iff] at known
      obtain ⟨source, there, rfl⟩ := known
      exact ranges index source there

theorem integral_recession (program : Program Rat) (d : List Rat) :
    program.recession.Integral d := by
  intro index column known flagged
  simp only [recession, List.getElem?_map, Option.map_eq_some_iff] at known
  obtain ⟨source, -, rfl⟩ := known
  cases flagged

theorem feasible_recession_iff (program : Program Rat) (d : List Rat) :
    program.recession.Feasible d ↔ program.recession.Satisfies d :=
  ⟨fun held => held.toSatisfies, fun held => ⟨held, program.integral_recession d⟩⟩

theorem Valid.recession (valid : program.Valid) : program.recession.Valid := by
  refine ⟨⟨by simpa [Program.recession] using valid.objective, fun row member => ?_⟩,
    fun column member => ?_⟩
  · obtain ⟨source, there, rfl⟩ := List.mem_map.mp member
    simpa [Program.recession, Row.recession] using valid.rows source there
  · obtain ⟨source, -, rfl⟩ := List.mem_map.mp member
    exact source.range.isEmpty_recession

/-- Standing still is a direction. -/
theorem satisfies_recession_zero (program : Program Rat) :
    program.recession.Satisfies (List.replicate program.columns.length 0) := by
  refine (satisfies_recession_iff program _).mpr ⟨by simp, fun row _ => ?_,
    fun index column _ => ?_⟩
  · rw [dot_replicate_zero]
    exact row.relation.holds_refl 0
  · rw [getD_replicate_zero]
    exact column.range.admits_recession_zero

theorem getD_move {x d : List Rat} (same : d.length = x.length) (t : Rat) (index : Nat) :
    (x.zipWith (fun value step => value + t * step) d).getD index 0 =
      x.getD index 0 + t * d.getD index 0 := by
  simp only [List.getD_eq_getElem?_getD, List.getElem?_zipWith]
  by_cases inside : index < x.length
  · simp [inside, same ▸ inside]
  · simp [not_lt.mp inside, same ▸ not_lt.mp inside]

/-- Going along a direction changes a linear form by its value on the direction. -/
theorem dot_move (coefs : List Rat) {x d : List Rat} (same : d.length = x.length) (t : Rat) :
    dot coefs (x.zipWith (fun value step => value + t * step) d) =
      dot coefs x + t * dot coefs d := by
  simp only [dot_eq_form]
  rw [← form_add_mul]
  refine form_congr fun index _ => ?_
  rw [getD_move same]

/-- A line that does not leave the program goes along a direction. -/
theorem satisfies_recession_of_line {x d : List Rat} (same : d.length = x.length)
    (line : ∀ t, 0 ≤ t → program.Satisfies (x.zipWith (fun value step => value + t * step) d)) :
    program.recession.Satisfies d := by
  refine (satisfies_recession_iff program d).mpr ⟨?_, fun row member => ?_,
    fun index column known => ?_⟩
  · have length := (line 0 le_rfl).length
    rwa [List.length_zipWith, ← same, min_self] at length
  · have moves : ∀ t, 0 ≤ t →
        row.relation.Holds (dot row.coefs x + t * dot row.coefs d) row.rhs := by
      intro t forward
      rw [← dot_move _ same]
      exact (line t forward).rows row member
    exact Relation.holds_zero_of_line moves
  · refine Range.admits_recession_of_line (x := x.getD index 0) fun t forward => ?_
    rw [← getD_move same]
    exact (line t forward).ranges index column known

/-- From any point one can go along a direction as far as one likes. -/
theorem Satisfies.move {x d : List Rat} (held : program.Satisfies x)
    (recedes : program.recession.Satisfies d) {t : Rat} (forward : 0 ≤ t) :
    ∃ y, program.Satisfies y ∧
      program.objectiveValue y = program.objectiveValue x + t * dot program.objective d := by
  obtain ⟨length, rows, ranges⟩ := (satisfies_recession_iff program d).mp recedes
  have same : d.length = x.length := length.trans held.length.symm
  refine ⟨x.zipWith (fun value step => value + t * step) d, ⟨?_, fun row member => ?_,
    fun index column known => ?_⟩, ?_⟩
  · simp [same, held.length]
  · have old := held.rows row member
    have step := rows row member
    rw [dot_move _ same]
    cases relation : row.relation with
    | le =>
      rw [relation] at old step
      have := mul_nonpos_of_nonneg_of_nonpos forward (show dot row.coefs d ≤ 0 from step)
      have : dot row.coefs x ≤ row.rhs := old
      change dot row.coefs x + t * dot row.coefs d ≤ row.rhs
      linarith
    | eq =>
      rw [relation] at old step
      change dot row.coefs x + t * dot row.coefs d = row.rhs
      rw [show dot row.coefs d = 0 from step, show dot row.coefs x = row.rhs from old, mul_zero,
        add_zero]
    | ge =>
      rw [relation] at old step
      have := mul_nonneg forward (show 0 ≤ dot row.coefs d from step)
      have : row.rhs ≤ dot row.coefs x := old
      change row.rhs ≤ dot row.coefs x + t * dot row.coefs d
      linarith
  · rw [getD_move same]
    exact (held.ranges index column known).move (ranges index column known) forward
  · simp only [objectiveValue, dot_move _ same]
    ring

/-- A program with a point and a least objective does not descend. -/
theorem not_descends_of_bound {x : List Rat} (held : program.Satisfies x) {bound : Rat}
    (least : ∀ y, program.Satisfies y → bound ≤ program.objectiveValue y) :
    ¬ program.Descends := by
  rintro ⟨d, recedes, slope⟩
  -- far enough along the direction the objective is below the bound
  have room := least x held
  obtain ⟨y, heldY, value⟩ := held.move recedes
    (t := (program.objectiveValue x - bound + 1) / -dot program.objective d)
    (div_nonneg (by linarith) (by linarith))
  have moved := least y heldY
  rw [value, div_mul_eq_mul_div, div_neg, mul_div_assoc, div_self slope.ne] at moved
  linarith

end Program

end MixedInteger
