import MixedInteger.Proofs.Exact
import MixedInteger.Row

/-! Sums of products over exact numbers. `dot` pairs two lists and `form` evaluates a
list of coefficients at a point given as a function of the column. Every list operation
that the reductions and the tableau make on coefficients has one lemma here that says
what it does to the sum. -/
namespace MixedInteger

private theorem foldl_products (terms : List (Rat × Rat)) (start : Rat) :
    terms.foldl (fun total term => total + term.1 * term.2) start =
      start + terms.foldl (fun total term => total + term.1 * term.2) 0 := by
  induction terms generalizing start with
  | nil => simp
  | cons term terms ih =>
    rw [List.foldl_cons, List.foldl_cons, ih, ih (0 + term.1 * term.2)]
    ring

/-! ### Products of two lists -/

@[simp] theorem dot_nil_left (values : List Rat) : dot [] values = 0 := rfl

@[simp] theorem dot_nil_right (coefs : List Rat) : dot coefs [] = 0 := by
  simp [dot]

@[simp] theorem dot_cons (a x : Rat) (coefs values : List Rat) :
    dot (a :: coefs) (x :: values) = a * x + dot coefs values := by
  have split := foldl_products (coefs.zip values) (0 + a * x)
  simpa [dot] using split

/-- A sum of products on top of a starting value. -/
theorem foldl_dot (coefs values : List Rat) (start : Rat) :
    (coefs.zip values).foldl (fun total term => total + term.1 * term.2) start =
      start + dot coefs values :=
  foldl_products _ _

theorem dot_append {coefs values : List Rat} (same : coefs.length = values.length)
    (more others : List Rat) :
    dot (coefs ++ more) (values ++ others) = dot coefs values + dot more others := by
  induction coefs generalizing values with
  | nil =>
    obtain rfl : values = [] := List.length_eq_zero_iff.mp same.symm
    simp
  | cons a coefs ih =>
    cases values with
    | nil => simp at same
    | cons x values =>
      simp only [List.cons_append, dot_cons, ih (by simpa using same)]
      ring

/-- Putting a value back at the position of a removed coefficient adds its product. -/
theorem dot_insertIdx {coefs values : List Rat} {position : Nat}
    (inside : position < coefs.length) (reach : position ≤ values.length) (value : Rat) :
    dot coefs (values.insertIdx position value) =
      dot (coefs.eraseIdx position) values + coefs.getD position 0 * value := by
  induction position generalizing coefs values with
  | zero =>
    cases coefs with
    | nil => simp at inside
    | cons a coefs => simp [add_comm]
  | succ position ih =>
    cases coefs with
    | nil => simp at inside
    | cons a coefs =>
      cases values with
      | nil => simp at reach
      | cons x values =>
        have inner : position < coefs.length := by simpa using inside
        have step := ih inner (Nat.le_of_succ_le_succ reach)
        simp only [List.insertIdx_succ_cons, dot_cons, step, List.eraseIdx_cons_succ,
          List.getD_cons_succ]
        ring

/-- Changing one coefficient changes the sum by the product of the change. -/
theorem dot_set {coefs : List Rat} {position : Nat} (inside : position < coefs.length)
    (a : Rat) (values : List Rat) :
    dot (coefs.set position a) values =
      dot coefs values + (a - coefs.getD position 0) * values.getD position 0 := by
  induction position generalizing coefs values with
  | zero =>
    cases coefs with
    | nil => simp at inside
    | cons b coefs =>
      cases values with
      | nil => simp
      | cons x values =>
        simp only [List.set_cons_zero, dot_cons, List.getD_cons_zero]
        ring
  | succ position ih =>
    cases coefs with
    | nil => simp at inside
    | cons b coefs =>
      cases values with
      | nil => simp
      | cons x values =>
        have inner : position < coefs.length := by simpa using inside
        simp only [List.set_cons_succ, dot_cons, List.getD_cons_succ, ih inner]
        ring

theorem dot_comm (coefs values : List Rat) : dot coefs values = dot values coefs := by
  induction coefs generalizing values with
  | nil => simp
  | cons a coefs ih =>
    cases values with
    | nil => simp
    | cons x values => rw [dot_cons, dot_cons, ih, mul_comm]

/-- Changing one value changes the sum by its coefficient times the change. -/
theorem dot_set_right (coefs : List Rat) {values : List Rat} {position : Nat}
    (inside : position < values.length) (x : Rat) :
    dot coefs (values.set position x) =
      dot coefs values + coefs.getD position 0 * (x - values.getD position 0) := by
  rw [dot_comm, dot_set inside, dot_comm values, mul_comm]

/-! ### Coefficients at a point -/

/-- The value of a linear form at a point. -/
def form : List Rat → (Nat → Rat) → Rat
  | [], _ => 0
  | a :: coefs, z => a * z 0 + form coefs fun column => z (column + 1)

@[simp] theorem form_nil (z : Nat → Rat) : form [] z = 0 := rfl

theorem form_cons (a : Rat) (coefs : List Rat) (z : Nat → Rat) :
    form (a :: coefs) z = a * z 0 + form coefs fun column => z (column + 1) := rfl

theorem dot_eq_form (coefs values : List Rat) :
    dot coefs values = form coefs fun column => values.getD column 0 := by
  induction coefs generalizing values with
  | nil => rfl
  | cons a coefs ih =>
    cases values with
    | nil =>
      have rest := ih []
      simp only [dot_nil_right, List.getD_nil] at rest
      simp [form, ← rest]
    | cons x values => simp [form, ih]

theorem form_eq_sum (coefs : List Rat) (z : Nat → Rat) :
    form coefs z = ∑ column ∈ Finset.range coefs.length, coefs.getD column 0 * z column := by
  induction coefs generalizing z with
  | nil => rfl
  | cons a coefs ih =>
    rw [form_cons, ih, List.length_cons, Finset.sum_range_succ']
    simp [add_comm]

theorem form_congr {coefs : List Rat} {z w : Nat → Rat}
    (same : ∀ column < coefs.length, coefs.getD column 0 * z column =
      coefs.getD column 0 * w column) : form coefs z = form coefs w := by
  rw [form_eq_sum, form_eq_sum]
  exact Finset.sum_congr rfl fun column member => same column (Finset.mem_range.mp member)

/-- A form with one nonzero product. -/
theorem form_eq_single {coefs : List Rat} {z : Nat → Rat} (only : Nat)
    (rest : ∀ column, column ≠ only → coefs.getD column 0 * z column = 0) :
    form coefs z = coefs.getD only 0 * z only := by
  rw [form_eq_sum]
  refine Finset.sum_eq_single only (fun column _ other => rest column other) fun outside => ?_
  have past : coefs.length ≤ only := by simpa using outside
  simp [past]

/-- The coefficient of a column is the form's value at its unit point. -/
theorem form_unit (coefs : List Rat) (only : Nat) :
    form coefs (fun column => if column = only then 1 else 0) = coefs.getD only 0 := by
  rw [form_eq_single only fun column other => by rw [if_neg other, mul_zero], if_pos rfl, mul_one]

theorem form_eq_zero {coefs : List Rat} {z : Nat → Rat}
    (rest : ∀ column, coefs.getD column 0 * z column = 0) : form coefs z = 0 := by
  rw [form_eq_sum]
  exact Finset.sum_eq_zero fun column _ => rest column

theorem form_nonneg {coefs : List Rat} {z : Nat → Rat}
    (nonneg : ∀ column < coefs.length, 0 ≤ coefs.getD column 0 * z column) :
    0 ≤ form coefs z := by
  rw [form_eq_sum]
  exact Finset.sum_nonneg fun column member => nonneg column (Finset.mem_range.mp member)

theorem form_append (coefs more : List Rat) (z : Nat → Rat) :
    form (coefs ++ more) z =
      form coefs z + form more fun column => z (column + coefs.length) := by
  induction coefs generalizing z with
  | nil => simp
  | cons a coefs ih =>
    simp only [List.cons_append, form_cons, ih, List.length_cons, add_assoc]

theorem form_set {coefs : List Rat} {position : Nat} (inside : position < coefs.length) (a : Rat)
    (z : Nat → Rat) :
    form (coefs.set position a) z = form coefs z + (a - coefs.getD position 0) * z position := by
  induction position generalizing coefs z with
  | zero =>
    cases coefs with
    | nil => simp at inside
    | cons b coefs =>
      simp only [List.set_cons_zero, form_cons, List.getD_cons_zero]
      ring
  | succ position ih =>
    cases coefs with
    | nil => simp at inside
    | cons b coefs =>
      have inner : position < coefs.length := by simpa using inside
      simp only [List.set_cons_succ, form_cons, List.getD_cons_succ, ih inner]
      ring

theorem form_sub (coefs : List Rat) (z w : Nat → Rat) :
    (form coefs fun column => z column - w column) = form coefs z - form coefs w := by
  rw [form_eq_sum, form_eq_sum, form_eq_sum, ← Finset.sum_sub_distrib]
  exact Finset.sum_congr rfl fun column _ => mul_sub _ _ _

theorem form_add_mul (coefs : List Rat) (z w : Nat → Rat) (t : Rat) :
    (form coefs fun column => z column + t * w column) = form coefs z + t * form coefs w := by
  induction coefs generalizing z w with
  | nil => simp
  | cons a coefs ih =>
    simp only [form_cons, ih]
    ring

theorem form_update (coefs : List Rat) (z : Nat → Rat) (position : Nat) (value : Rat) :
    form coefs (Function.update z position value) =
      form coefs z + coefs.getD position 0 * (value - z position) := by
  by_cases inside : position < coefs.length
  · rw [form_eq_sum, form_eq_sum, ← sub_eq_iff_eq_add', ← Finset.sum_sub_distrib]
    rw [Finset.sum_eq_single position]
    · simp [mul_sub]
    · intro column _ other
      simp [Function.update_of_ne other]
    · intro outside
      exact absurd (Finset.mem_range.mpr inside) outside
  · have zero : coefs.getD position 0 = 0 := by simp [not_lt.mp inside]
    rw [zero, zero_mul, add_zero]
    refine form_congr fun column bound => ?_
    have other : column ≠ position := by omega
    rw [Function.update_of_ne other]

theorem form_map_mul (factor : Rat) (coefs : List Rat) (z : Nat → Rat) :
    form (coefs.map (factor * ·)) z = factor * form coefs z := by
  induction coefs generalizing z with
  | nil => simp
  | cons a coefs ih =>
    simp only [List.map_cons, form_cons, ih]
    ring

theorem form_map_div (factor : Rat) (coefs : List Rat) (z : Nat → Rat) :
    form (coefs.map (· / factor)) z = form coefs z / factor := by
  have scaled := form_map_mul factor⁻¹ coefs z
  simp only [div_eq_inv_mul, scaled]

theorem form_map_neg (coefs : List Rat) (z : Nat → Rat) :
    form (coefs.map (- ·)) z = -form coefs z := by
  have scaled := form_map_mul (-1) coefs z
  simpa using scaled

theorem form_replicate_zero (count : Nat) (z : Nat → Rat) :
    form (List.replicate count 0) z = 0 := by
  refine form_eq_zero fun column => ?_
  by_cases inside : column < count <;> simp [inside]

end MixedInteger
