import MixedInteger.Proofs.Cut.Validity
import MixedInteger.Proofs.Simplex.Correctness
import MixedInteger.Proofs.Simplex.CutRows

/-! A relaxation with cuts. Cuts are added to an optimal tableau and the tableau is optimised
again, any number of times. Its solutions stay solutions of the program's form, and every
integral point of the program stays one of its solutions: a cut only loses points that are
not integral. So the optimum of the strengthened tableau still bounds the integral points
from below, and an infeasible one shows that there are none. -/
namespace MixedInteger.Cut

open Simplex
open Simplex.Tableau (InBounds costAt cutSlack Extends)

/-! ### Optimal tableaux -/

/-- A prepared tableau whose vertex is in the box and as cheap as any other solution. -/
structure Optimum (tableau : Tableau Rat) : Prop where
  prepared : tableau.Prepared
  held : tableau.Holds tableau.vertexPoint
  inside : InBounds tableau.frame tableau.vertexPoint
  cost : costAt tableau.frame tableau.vertexPoint = tableau.value
  least : ∀ x, tableau.Holds x → InBounds tableau.frame x → tableau.value ≤ costAt tableau.frame x

theorem optimum_of_restored {tableau final : Tableau Rat} (restored : tableau.Restored final)
    (optimal : ∀ column < tableau.columnCount, 0 ≤ final.reduced.getD column 0) : Optimum final := by
  obtain ⟨held, inside, cost, least⟩ := restored.optimum optimal
  rw [← restored.frame] at inside cost least
  refine ⟨restored.prepared, (restored.holds _).mpr held, inside, cost, fun x holds => ?_⟩
  exact least x ((restored.holds x).mp holds)

/-! ### Whole steps -/

/-- Some multiple of a direction is whole in the first columns. -/
theorem exists_whole_step (direction : Nat → Rat) (count : Nat) :
    ∃ step : Nat, 0 < step ∧ ∀ index < count, Whole (step * direction index) := by
  induction count with
  | zero => exact ⟨1, one_pos, fun index below => absurd below (Nat.not_lt_zero index)⟩
  | succ count ih =>
    obtain ⟨step, positive, whole⟩ := ih
    refine ⟨step * (direction count).den, Nat.mul_pos positive (direction count).den_pos, ?_⟩
    intro index below
    rw [Nat.cast_mul]
    rcases Nat.lt_succ_iff_lt_or_eq.mp below with before | rfl
    · have scaled := (Whole.intCast (direction count).den).mul (whole index before)
      rw [mul_right_comm, mul_comm]
      exact_mod_cast scaled
    · rw [mul_assoc, Rat.den_mul_eq_num]
      exact_mod_cast (Whole.intCast step).mul (Whole.intCast (direction index).num)

/-! ### Tableaux with cuts -/

/-- A tableau with cuts, seen from the program it was made for. -/
structure Strengthens (program : Program Rat) (form : StandardForm Rat) (tableau : Tableau Rat) :
    Prop where
  frame : ∃ cuts, tableau.frame = (Tableau.ofForm form).frame ++ List.replicate cuts cutSlack
  constant : tableau.constant = form.constant
  back : ∀ x, tableau.Holds x → (Tableau.ofForm form).Holds x
  forth : ∀ y, program.Feasible y → ∃ x, tableau.Holds x ∧ InBounds tableau.frame x ∧
    firstValues program.columns.length x = y

theorem inBounds_append_cuts (frame : List (TableauColumn Rat)) (cuts : Nat) (x : Nat → Rat) :
    InBounds (frame ++ List.replicate cuts cutSlack) x ↔ InBounds frame x := by
  induction cuts with
  | zero => simp
  | succ cuts ih =>
    rw [List.replicate_succ', ← List.append_assoc, Tableau.inBounds_append_cutSlack, ih]

theorem costAt_append_cuts (frame : List (TableauColumn Rat)) (cuts : Nat) (x : Nat → Rat) :
    costAt (frame ++ List.replicate cuts cutSlack) x = costAt frame x := by
  induction cuts with
  | zero => simp
  | succ cuts ih =>
    rw [List.replicate_succ', ← List.append_assoc, Tableau.costAt_append_cutSlack, ih]

section

variable {program : Program Rat} {form : StandardForm Rat} {lower : List Rat}
  {tableau extended final : Tableau Rat} {coefs : List Rat} {rhs : Rat}

namespace Strengthens

theorem inBounds_iff (strengthens : Strengthens program form tableau) (x : Nat → Rat) :
    InBounds tableau.frame x ↔ InBounds (Tableau.ofForm form).frame x := by
  obtain ⟨cuts, frame⟩ := strengthens.frame
  rw [frame, inBounds_append_cuts]

theorem costAt_eq (strengthens : Strengthens program form tableau) (x : Nat → Rat) :
    costAt tableau.frame x = costAt (Tableau.ofForm form).frame x := by
  obtain ⟨cuts, frame⟩ := strengthens.frame
  rw [frame, costAt_append_cuts]

theorem columns_le (strengthens : Strengthens program form tableau)
    (builds : StandardForm.Builds program form lower) :
    program.columns.length ≤ tableau.columnCount := by
  obtain ⟨cuts, frame⟩ := strengthens.frame
  rw [← Tableau.length_frame, frame, List.length_append, Tableau.length_frame, builds.columnCount]
  omega

/-- The tableau of the form itself has no cuts. -/
theorem start (builds : StandardForm.Builds program form lower) :
    Strengthens program form (Tableau.ofForm form) :=
  ⟨⟨0, by simp⟩, rfl, fun _ => id, fun y held => ⟨withSlacks program y,
    builds.holds_withSlacks held.toSatisfies, builds.inBounds_withSlacks held.toSatisfies,
    StandardForm.Builds.firstValues_withSlacks held.toSatisfies⟩⟩

/-- Optimisation changes nothing about the problem. -/
theorem restored (strengthens : Strengthens program form tableau)
    (restored : tableau.Restored final) : Strengthens program form final := by
  refine ⟨?_, restored.constant.trans strengthens.constant, fun x held => ?_, fun y held => ?_⟩
  · rw [restored.frame]
    exact strengthens.frame
  · exact strengthens.back x ((restored.holds x).mp held)
  · obtain ⟨x, holds, inside, values⟩ := strengthens.forth y held
    exact ⟨x, (restored.holds x).mpr holds, restored.frame ▸ inside, values⟩

/-- At an integral point of the program, integral columns read as integers. -/
theorem reading_whole (strengthens : Strengthens program form tableau)
    (builds : StandardForm.Builds program form lower) (bounds : program.WholeBounds) {x : Nat → Rat}
    (integral : program.Integral (firstValues program.columns.length x)) (index : Nat)
    (column : TableauColumn Rat) (known : tableau.columns[index]? = some column)
    (flagged : column.integral = true) : Whole (tableau.reading x index) := by
  obtain ⟨cuts, frame⟩ := strengthens.frame
  have fixed : tableau.frame[index]? = some column.fixedPart := by
    rw [Tableau.getElem?_frame, known]
    rfl
  rw [frame] at fixed
  rcases builds.position_cases index with ⟨source, there⟩ | ⟨place, inside, rfl⟩ | ⟨past, none⟩
  · have own := builds.column_own there
    obtain ⟨below, -⟩ := List.getElem?_eq_some_iff.mp there
    obtain ⟨reach, -⟩ := List.getElem?_eq_some_iff.mp own
    rw [List.getElem?_append_left (by rw [Tableau.length_frame]; exact reach),
      Tableau.getElem?_frame, own] at fixed
    obtain ⟨-, low⟩ := builds.lower_eq there
    -- The column keeps the bounds of the program's, which are integers.
    have shape := Option.some.inj fixed
    have lowerSame : column.lower = lower.getD index 0 :=
      (congrArg TableauColumn.lower shape).symm
    have upperSame : column.upper = source.range.upper.map (· - lower.getD index 0) :=
      (congrArg TableauColumn.upper shape).symm
    have flaggedSource : source.integral = true :=
      (congrArg TableauColumn.integral shape).trans flagged
    have whole := bounds source (List.mem_of_getElem? there) flaggedSource
    have lowerWhole : Whole column.lower := lowerSame ▸ whole.1 _ low
    have value := integral index source there flaggedSource
    rw [getD_firstValues below] at value
    have shifted : Whole (x index - column.lower) := value.sub lowerWhole
    simp only [Tableau.reading, Tableau.readThrough, known, TableauColumn.orient]
    split
    · rename_i upper _ bound _
      rw [upperSame, Option.map_eq_some_iff] at bound
      obtain ⟨high, finite, rfl⟩ := bound
      exact ((whole.2 high finite).sub (lowerSame ▸ lowerWhole)).sub shifted
    · exact shifted
  · have own := builds.column_slack inside
    obtain ⟨reach, -⟩ := List.getElem?_eq_some_iff.mp own
    rw [List.getElem?_append_left (by rw [Tableau.length_frame]; exact reach),
      Tableau.getElem?_frame, own] at fixed
    have kept := congrArg TableauColumn.integral (Option.some.inj fixed)
    exact absurd (kept.trans flagged) (by simp [TableauColumn.fixedPart])
  · have outside : (Tableau.ofForm form).frame.length ≤ index := by
      rw [Tableau.length_frame]
      exact List.getElem?_eq_none_iff.mp none
    rw [List.getElem?_append_right outside] at fixed
    have slack := List.eq_of_mem_replicate (List.mem_of_getElem? fixed)
    have kept := congrArg TableauColumn.integral slack
    exact absurd (flagged.symm.trans kept) (by simp [cutSlack])

/-- A cut that holds at every integral point keeps them all. -/
theorem extend (strengthens : Strengthens program form tableau)
    (builds : StandardForm.Builds program form lower) (prepared : tableau.Prepared)
    (extends' : Extends tableau extended coefs rhs) (width : coefs.length = tableau.columnCount)
    (valid : ∀ x, tableau.Holds x → InBounds tableau.frame x →
      program.Integral (firstValues program.columns.length x) →
        rhs ≤ MixedInteger.form coefs (tableau.reading x)) :
    Strengthens program form extended := by
  refine ⟨?_, extends'.constant.trans strengthens.constant, fun x held => ?_, fun y held => ?_⟩
  · obtain ⟨cuts, frame⟩ := strengthens.frame
    refine ⟨cuts + 1, ?_⟩
    rw [extends'.frame, frame, List.replicate_succ', List.append_assoc]
  · exact strengthens.back x ((extends'.holds x).mp held).1
  · obtain ⟨x, holds, inside, values⟩ := strengthens.forth y held
    have reach := valid x holds inside (values ▸ held.integral)
    -- The slack of the cut is how far the point is from it.
    set slack := MixedInteger.form coefs (tableau.reading x) - rhs with distance
    have apart : ∀ index < tableau.columnCount,
        Function.update x tableau.columnCount slack index = x index :=
      fun index below => Function.update_of_ne below.ne _ _
    have reads : ∀ index < tableau.columnCount,
        tableau.reading (Function.update x tableau.columnCount slack) index =
          tableau.reading x index := by
      intro index below
      simp only [Tableau.reading, Tableau.readThrough, apart index below]
    refine ⟨Function.update x tableau.columnCount slack, (extends'.holds _).mpr ⟨?_, ?_⟩, ?_, ?_⟩
    · intro row member
      refine (Tableau.meets_congr fun column below => ?_).mpr (holds row member)
      rw [prepared.wide.rows row member] at below
      exact reads column below
    · rw [Function.update_self, distance, form_congr fun column below => by
        rw [reads column (width ▸ below)]]
      ring
    · rw [extends'.frame, Tableau.inBounds_append_cutSlack]
      intro index
      by_cases last : index = tableau.columnCount
      · subst last
        rw [List.getElem?_eq_none (Tableau.length_frame tableau).le, Function.update_self]
        exact sub_nonneg.mpr reach
      · rw [Function.update_of_ne last]
        exact inside index
    · rw [← values]
      refine List.map_congr_left fun index member => apart index ?_
      exact (List.mem_range.mp member).trans_le (strengthens.columns_le builds)

/-- One round: a cut of the current tableau can be added, and keeps every integral point. -/
theorem addCut (strengthens : Strengthens program form tableau)
    (builds : StandardForm.Builds program form lower) (bounds : program.WholeBounds)
    (optimum : Optimum tableau) {row : TableauRow Rat} {cut : GomoryCut Rat}
    (made : FromRow tableau row cut) :
    ∃ extended, tableau.addCut cut.coefs cut.rhs = .ok (tableau.columnCount, extended) ∧
      Extends tableau extended cut.coefs cut.rhs ∧ Strengthens program form extended := by
  obtain ⟨extended, added, extends'⟩ :=
    Tableau.addCut_spec optimum.prepared made.length.le cut.rhs
  refine ⟨extended, added, extends', ?_⟩
  refine strengthens.extend builds optimum.prepared extends' made.length fun x held inside integral => ?_
  exact made.valid optimum.prepared.units optimum.prepared.wide held inside
    (strengthens.reading_whole builds bounds integral)

/-! ### What the tableau says about the program -/

/-- The optimum of the tableau bounds the integral points, and its vertex is a point of the
relaxation. -/
theorem optimal (strengthens : Strengthens program form tableau)
    (builds : StandardForm.Builds program form lower) (optimum : Optimum tableau) :
    program.Satisfies (tableau.solution.take program.columns.length) ∧
      program.objectiveValue (tableau.solution.take program.columns.length) =
        tableau.objectiveValue ∧
      ∀ y, program.Feasible y → tableau.objectiveValue ≤ program.objectiveValue y := by
  rw [take_solution optimum.prepared.units (strengthens.columns_le builds)]
  refine ⟨?_, ?_, fun y held => ?_⟩
  · exact builds.satisfies (strengthens.back _ optimum.held)
      ((strengthens.inBounds_iff _).mp optimum.inside)
  · rw [builds.objectiveValue_firstValues, ← strengthens.costAt_eq, optimum.cost,
      ← strengthens.constant]
    rfl
  · obtain ⟨x, holds, inside, rfl⟩ := strengthens.forth y held
    rw [builds.objectiveValue_firstValues, ← strengthens.costAt_eq, ← strengthens.constant]
    exact add_le_add_left (optimum.least x holds inside) _

theorem infeasible (strengthens : Strengthens program form tableau)
    (unsolvable : tableau.Unsolvable) (y : List Rat) : ¬ program.Feasible y := by
  intro held
  obtain ⟨x, holds, inside, -⟩ := strengthens.forth y held
  exact unsolvable x holds inside

/-- From an integral point, a ray of the tableau leads to integral points below every limit: it
is followed in steps that are whole in every column of the program. -/
theorem unbounded (strengthens : Strengthens program form tableau)
    (builds : StandardForm.Builds program form lower) {start direction : Nat → Rat} {slope : Rat}
    (ray : tableau.Ray start direction slope) {y : List Rat} (held : program.Feasible y)
    (limit : Rat) : ∃ other, program.Feasible other ∧ program.objectiveValue other < limit := by
  obtain ⟨x, holds, inside, rfl⟩ := strengthens.forth y held
  obtain ⟨step, positive, whole⟩ := exists_whole_step direction program.columns.length
  obtain ⟨times, below⟩ := Tableau.exists_step_below ray.falls (Nat.cast_pos.mpr positive)
    (program.objectiveValue (firstValues program.columns.length x)) limit
  have nonneg : (0 : Rat) ≤ times * step := by positivity
  have holds' := ray.rows x (times * step) holds
  have inside' := ray.box x (times * step) nonneg inside
  refine ⟨firstValues program.columns.length (Tableau.along x direction (times * step)),
    ⟨builds.satisfies (strengthens.back _ holds') ((strengthens.inBounds_iff _).mp inside'), ?_⟩, ?_⟩
  · intro index column known flagged
    obtain ⟨reach, -⟩ := List.getElem?_eq_some_iff.mp known
    have before := held.integral index column known flagged
    rw [getD_firstValues reach] at before ⊢
    have moved : Whole ((times : Rat) * (step * direction index)) :=
      (Whole.intCast times).mul (whole index reach)
    rw [Tableau.along, mul_assoc]
    exact before.add moved
  · rw [builds.objectiveValue_firstValues, ← strengthens.costAt_eq] at below ⊢
    rw [ray.cost x _ holds]
    linarith

/-- A ray of the tableau is a direction of the program that lowers the objective. -/
theorem descends (strengthens : Strengthens program form tableau)
    (builds : StandardForm.Builds program form lower) {start direction : Nat → Rat} {slope : Rat}
    (ray : tableau.Ray start direction slope) : program.Descends := by
  let x := firstValues program.columns.length start
  let d := firstValues program.columns.length direction
  have same : d.length = x.length := by rw [length_firstValues, length_firstValues]
  have along : ∀ t, x.zipWith (fun value step => value + t * step) d =
      firstValues program.columns.length (Tableau.along start direction t) := by
    intro t
    simp [x, d, firstValues, Tableau.along, List.zipWith_map]
  refine ⟨d, Program.satisfies_recession_of_line same fun t forward => ?_, ?_⟩
  · rw [along]
    exact builds.satisfies (strengthens.back _ (ray.rows start t ray.held))
      ((strengthens.inBounds_iff _).mp (ray.box start t forward ray.inside))
  · -- the objective at both ends of a step of length one
    have step := Program.dot_move program.objective same 1
    have near := builds.objectiveValue_firstValues start
    have far := builds.objectiveValue_firstValues (Tableau.along start direction 1)
    rw [← strengthens.costAt_eq, Program.objectiveValue] at near far
    rw [ray.cost start 1 ray.held, ← along, step] at far
    have falls := ray.falls
    change dot program.objective x + program.constant = _ at near
    linarith

end Strengthens

end

end MixedInteger.Cut
