import Mathlib.Algebra.GCDMonoid.Multiset
import Mathlib.Algebra.GCDMonoid.Nat
import Mathlib.Data.Sign.Basic
import Mathlib.RingTheory.Coprime.Lemmas
import MixedInteger.Proofs.Exact

/-! Scaling rationals to integers without a common divisor. The least common denominator clears all
fractions, and the greatest common divisor of the numerators is then divided out; both are positive
where there is anything to scale, so entries keep their signs. Two positive multiples of one vector
that are both integral without a common divisor are equal, and for that reason the result depends on
the ray of the vector alone. -/
namespace MixedInteger

theorem Whole.num_cast {x : Rat} (whole : Whole x) : (x.num : Rat) = x := by
  obtain ⟨z, rfl⟩ := whole
  rw [Rat.num_intCast]

/-! ### The two folds -/

/-- The least common denominator, as scaling accumulates it. -/
def commonDenominator (values : List Rat) : Nat :=
  values.foldl (fun acc v => Nat.lcm acc v.den) 1

/-- The greatest common divisor of the numerators, as scaling accumulates it. -/
def commonFactor (entries : List Rat) : Nat :=
  entries.foldl (fun acc v => Nat.gcd acc v.num.natAbs) 0

theorem foldl_lcm_dvd_iff {values : List Rat} {start multiple : Nat} :
    values.foldl (fun acc v => Nat.lcm acc v.den) start ∣ multiple ↔
      start ∣ multiple ∧ ∀ v ∈ values, v.den ∣ multiple := by
  induction values generalizing start with
  | nil => simp
  | cons value values ih =>
    rw [List.foldl_cons, ih, Nat.lcm_dvd_iff, List.forall_mem_cons, and_assoc]

theorem dvd_foldl_gcd_iff {entries : List Rat} {start divisor : Nat} :
    divisor ∣ entries.foldl (fun acc v => Nat.gcd acc v.num.natAbs) start ↔
      divisor ∣ start ∧ ∀ v ∈ entries, divisor ∣ v.num.natAbs := by
  induction entries generalizing start with
  | nil => simp
  | cons entry entries ih =>
    rw [List.foldl_cons, ih, Nat.dvd_gcd_iff, List.forall_mem_cons, and_assoc]

theorem foldl_lcm_pos {values : List Rat} {start : Nat} (positive : 0 < start) :
    0 < values.foldl (fun acc v => Nat.lcm acc v.den) start := by
  induction values generalizing start with
  | nil => exact positive
  | cons value values ih => exact ih (Nat.lcm_pos positive value.den_pos)

theorem commonDenominator_pos (values : List Rat) : (0 : Rat) < commonDenominator values :=
  Nat.cast_pos.mpr (foldl_lcm_pos Nat.one_pos)

theorem dvd_commonFactor_iff {entries : List Rat} {divisor : Nat} :
    divisor ∣ commonFactor entries ↔ ∀ entry ∈ entries, divisor ∣ entry.num.natAbs := by
  rw [commonFactor, dvd_foldl_gcd_iff, and_iff_right (dvd_zero divisor)]

theorem commonFactor_eq_zero_iff {entries : List Rat} :
    commonFactor entries = 0 ↔ ∀ entry ∈ entries, entry = 0 := by
  rw [← zero_dvd_iff, dvd_commonFactor_iff]
  simp

/-! ### The scaled vector -/

/-- The entries with their fractions cleared. -/
def cleared (values : List Rat) : List Rat :=
  values.map (· * (commonDenominator values : Rat))

theorem whole_of_mem_cleared {values : List Rat} {entry : Rat} (member : entry ∈ cleared values) :
    Whole entry := by
  obtain ⟨value, listed, rfl⟩ := List.mem_map.mp member
  obtain ⟨times, multiple⟩ : value.den ∣ commonDenominator values :=
    (foldl_lcm_dvd_iff.mp dvd_rfl).2 value listed
  refine ⟨value.num * times, ?_⟩
  rw [multiple, Nat.cast_mul, ← mul_assoc, Rat.mul_den_eq_num]
  push_cast
  rfl

/-- The quotient by the common factor is taken in every case: where there is no factor, nothing but
zeros is divided. -/
theorem primitiveMultiple_eq (values : List Rat) :
    primitiveMultiple values =
      (cleared values).map (· / (commonFactor (cleared values) : Rat)) := by
  change (if commonFactor (cleared values) = 0 || commonFactor (cleared values) = 1 then
    cleared values else (cleared values).map (· / (commonFactor (cleared values) : Rat))) = _
  split
  · rename_i undivided
    rcases by simpa using undivided with zero | one
    · refine ((List.map_congr_left fun entry member => ?_).trans (List.map_id _)).symm
      rw [commonFactor_eq_zero_iff.mp zero entry member, zero_div, id]
    · simp [one]
  · rfl

/-- The common factor of integers divides each of them. -/
theorem exists_quotient {entries : List Rat} (whole : ∀ entry ∈ entries, Whole entry) {entry : Rat}
    (member : entry ∈ entries) : ∃ quotient : Int,
      entry / commonFactor entries = quotient ∧ entry.num = commonFactor entries * quotient := by
  obtain ⟨quotient, multiple⟩ : (commonFactor entries : Int) ∣ entry.num :=
    Int.natCast_dvd.mpr (dvd_commonFactor_iff.mp dvd_rfl entry member)
  by_cases zero : commonFactor entries = 0
  · refine ⟨0, ?_, ?_⟩
    · rw [zero, Nat.cast_zero, div_zero, Int.cast_zero]
    · rw [multiple, zero, Nat.cast_zero, zero_mul, zero_mul]
  · refine ⟨quotient, ?_, multiple⟩
    rw [div_eq_iff (Nat.cast_ne_zero.mpr zero), ← (whole entry member).num_cast, multiple]
    push_cast
    ring

/-- Scaling multiplies by one positive factor. -/
theorem exists_primitiveMultiple (values : List Rat) :
    ∃ factor : Rat, 0 < factor ∧ primitiveMultiple values = values.map (factor * ·) := by
  have denominator : (0 : Rat) < (values.foldl (fun acc v => Nat.lcm acc v.den) 1 : Nat) :=
    commonDenominator_pos values
  unfold primitiveMultiple
  dsimp only
  split
  · exact ⟨_, denominator, by simp only [mul_comm]⟩
  · rename_i proper
    simp only [Bool.or_eq_true, decide_eq_true_eq, not_or] at proper
    refine ⟨_, div_pos denominator (Nat.cast_pos.mpr (Nat.pos_of_ne_zero proper.1)), ?_⟩
    rw [List.map_map]
    refine List.map_congr_left fun value _ => ?_
    simp only [Function.comp_apply]
    ring

/-! ### Primitive vectors -/

/-- The greatest common divisor of the nonzero entries of a vector of integers. -/
def content (entries : List Rat) : Int :=
  Multiset.gcd (((entries.filter (· ≠ 0)).map Rat.num : List Int) : Multiset Int)

/-- A vector of integers whose nonzero entries, if there are any, have no common divisor. -/
structure Primitive (entries : List Rat) : Prop where
  whole : ∀ entry ∈ entries, Whole entry
  coprime : (∃ entry ∈ entries, entry ≠ 0) → content entries = 1

/-- Zeros have every divisor, so it does not matter that they are left out. -/
theorem dvd_content_iff {entries : List Rat} {divisor : Int} :
    divisor ∣ content entries ↔ ∀ entry ∈ entries, divisor ∣ entry.num := by
  rw [content, Multiset.dvd_gcd]
  constructor
  · intro all entry member
    by_cases zero : entry = 0
    · simp [zero]
    · exact all entry.num (by simpa using ⟨entry, ⟨member, zero⟩, rfl⟩)
  · intro all numerator listed
    obtain ⟨entry, member, rfl⟩ := List.mem_map.mp (Multiset.mem_coe.mp listed)
    exact all entry (List.mem_of_mem_filter member)

theorem content_eq_one_iff {entries : List Rat} : content entries = 1 ↔
    ∀ divisor : Int, (∀ entry ∈ entries, divisor ∣ entry.num) → IsUnit divisor := by
  constructor
  · intro one divisor all
    exact isUnit_of_dvd_one (one ▸ dvd_content_iff.mpr all)
  · intro units
    rw [content, ← Multiset.normalize_gcd, normalize_eq_one]
    exact units _ (dvd_content_iff.mp dvd_rfl)

theorem Primitive.isUnit {entries : List Rat} (primitive : Primitive entries)
    (nonzero : ∃ entry ∈ entries, entry ≠ 0) {divisor : Int}
    (all : ∀ entry ∈ entries, divisor ∣ entry.num) : IsUnit divisor :=
  content_eq_one_iff.mp (primitive.coprime nonzero) divisor all

theorem primitive_primitiveMultiple (values : List Rat) : Primitive (primitiveMultiple values) := by
  rw [primitiveMultiple_eq]
  constructor
  · intro entry listed
    obtain ⟨old, member, rfl⟩ := List.mem_map.mp listed
    obtain ⟨quotient, same, -⟩ := exists_quotient (fun _ => whole_of_mem_cleared) member
    exact ⟨quotient, same.symm⟩
  · rintro ⟨entry, listed, nonzero⟩
    have proper : 0 < commonFactor (cleared values) := by
      refine Nat.pos_of_ne_zero fun zero => nonzero ?_
      obtain ⟨old, member, rfl⟩ := List.mem_map.mp listed
      rw [zero, Nat.cast_zero, div_zero]
    refine content_eq_one_iff.mpr fun divisor all => ?_
    -- A divisor of all quotients makes the common factor a multiple of itself.
    have larger : divisor.natAbs * commonFactor (cleared values) ∣ commonFactor (cleared values) := by
      refine dvd_commonFactor_iff.mpr fun old member => ?_
      obtain ⟨quotient, same, numerator⟩ := exists_quotient (fun _ => whole_of_mem_cleared) member
      have divides := all _ (List.mem_map_of_mem member)
      rw [same, Rat.num_intCast] at divides
      rw [numerator, Int.natAbs_mul, Int.natAbs_natCast, mul_comm]
      exact Nat.mul_dvd_mul_left _ (Int.natAbs_dvd_natAbs.mpr divides)
    have one : divisor.natAbs ∣ 1 := Nat.dvd_of_mul_dvd_mul_right proper (by rwa [one_mul])
    exact Int.isUnit_iff_natAbs_eq.mpr (Nat.dvd_one.mp one)

/-- An integral multiple of an integer, with the fraction of the factor multiplied out. -/
theorem num_mul_num {factor entry : Rat} (whole : Whole entry) (product : Whole (factor * entry)) :
    factor.num * entry.num = factor.den * (factor * entry).num := by
  have cast : ((factor.num * entry.num : Int) : Rat) =
      ((factor.den * (factor * entry).num : Int) : Rat) := by
    push_cast
    rw [product.num_cast, whole.num_cast, ← mul_assoc, Rat.den_mul_eq_num]
  exact_mod_cast cast

/-- Of the positive multiples of a vector at most one is primitive. -/
theorem Primitive.map_mul_eq {entries : List Rat} (first : Primitive entries) {factor : Rat}
    (positive : 0 < factor) (second : Primitive (entries.map (factor * ·))) :
    entries.map (factor * ·) = entries := by
  by_cases nonzero : ∃ entry ∈ entries, entry ≠ 0
  · have crossed : ∀ entry ∈ entries, factor.num * entry.num = factor.den * (factor * entry).num :=
      fun entry member => num_mul_num (first.whole entry member)
        (second.whole _ (List.mem_map_of_mem member))
    -- In lowest terms, the denominator divides all entries and the numerator all their multiples.
    have denominator : IsUnit (factor.den : Int) := first.isUnit nonzero fun entry member =>
      factor.isCoprime_num_den.symm.dvd_of_dvd_mul_left ⟨_, crossed entry member⟩
    have numerator : IsUnit factor.num := by
      refine second.isUnit ?_ ?_
      · obtain ⟨entry, member, other⟩ := nonzero
        exact ⟨_, List.mem_map_of_mem member, mul_ne_zero positive.ne' other⟩
      · intro product listed
        obtain ⟨entry, member, rfl⟩ := List.mem_map.mp listed
        exact factor.isCoprime_num_den.dvd_of_dvd_mul_left ⟨_, (crossed entry member).symm⟩
    have one : factor = 1 := by
      have above : 0 < factor.num := Rat.num_pos.mpr positive
      rcases Int.isUnit_iff.mp numerator with num | num
      · exact Rat.ext num (by simpa using Int.isUnit_iff_natAbs_eq.mp denominator)
      · omega
    simp [one]
  · have zeros : ∀ entry ∈ entries, factor * entry = entry := by
      intro entry member
      have zero : entry = 0 := by_contra fun other => nonzero ⟨entry, member, other⟩
      rw [zero, mul_zero]
    exact (List.map_congr_left zeros).trans (List.map_id entries)

/-! ### Rays -/

/-- Vectors have the same primitive multiple exactly if they are on one ray. -/
theorem primitiveMultiple_eq_iff {values others : List Rat} :
    primitiveMultiple values = primitiveMultiple others ↔
      ∃ factor : Rat, 0 < factor ∧ others = values.map (factor * ·) := by
  obtain ⟨a, positiveA, scaledA⟩ := exists_primitiveMultiple values
  constructor
  · intro same
    obtain ⟨b, positiveB, scaledB⟩ := exists_primitiveMultiple others
    refine ⟨b⁻¹ * a, mul_pos (inv_pos.mpr positiveB) positiveA, ?_⟩
    calc others
      _ = (others.map (b * ·)).map (b⁻¹ * ·) := by
        rw [List.map_map, comp_mul_left, inv_mul_cancel₀ positiveB.ne']
        simp only [one_mul, List.map_id']
      _ = (values.map (a * ·)).map (b⁻¹ * ·) := by rw [← scaledB, ← same, scaledA]
      _ = values.map (b⁻¹ * a * ·) := by rw [List.map_map, comp_mul_left]
  · rintro ⟨factor, positive, rfl⟩
    obtain ⟨b, positiveB, scaledB⟩ := exists_primitiveMultiple (values.map (factor * ·))
    have multiple : primitiveMultiple (values.map (factor * ·)) =
        (primitiveMultiple values).map (b * factor * a⁻¹ * ·) := by
      rw [scaledA, scaledB, List.map_map, List.map_map, comp_mul_left, comp_mul_left,
        inv_mul_cancel_right₀ positiveA.ne']
    have primitive := primitive_primitiveMultiple (values.map (factor * ·))
    rw [multiple] at primitive ⊢
    refine ((primitive_primitiveMultiple values).map_mul_eq ?_ primitive).symm
    exact mul_pos (mul_pos positiveB positive) (inv_pos.mpr positiveA)

/-- Scaling multiplies a vector by one positive factor and gives the primitive vector of its ray:
integers whose nonzero ones have the greatest common divisor one. Scaling again changes nothing,
signs and zeros stay, and two vectors are scaled to the same one exactly if each is a positive
multiple of the other. -/
theorem primitiveMultiple_of_ray (values : List Rat) :
    (∃ factor : Rat, 0 < factor ∧ primitiveMultiple values = values.map (factor * ·)) ∧
      Primitive (primitiveMultiple values) ∧
      primitiveMultiple (primitiveMultiple values) = primitiveMultiple values ∧
      (primitiveMultiple values).map SignType.sign = values.map SignType.sign ∧
      ∀ others : List Rat, primitiveMultiple values = primitiveMultiple others ↔
        ∃ factor : Rat, 0 < factor ∧ others = values.map (factor * ·) := by
  obtain ⟨factor, positive, scaled⟩ := exists_primitiveMultiple values
  refine ⟨⟨factor, positive, scaled⟩, primitive_primitiveMultiple values, ?_, ?_, ?_⟩
  · exact (primitiveMultiple_eq_iff.mpr ⟨factor, positive, scaled⟩).symm
  · rw [scaled, List.map_map]
    refine List.map_congr_left fun value _ => ?_
    rw [Function.comp_apply, sign_mul, sign_pos positive, one_mul]
  · exact fun others => primitiveMultiple_eq_iff

example : primitiveMultiple [1 / 2, 3 / 4, 0, -3 / 2] = [2, 3, 0, -6] := by decide +kernel

end MixedInteger
