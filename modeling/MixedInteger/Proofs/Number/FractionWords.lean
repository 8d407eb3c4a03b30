import MixedInteger.Proofs.Number.IntegerWords
import Mathlib.Algebra.Order.Floor.Ring
import Mathlib.Data.Rat.Floor
import Mathlib.Tactic.Linarith

/-! The binary64 numbers of proper fractions. Numerator and denominator are converted on their own
and divided. As long as the numerator has a finite number, the quotient is finite and small, and
so is its difference to one half; from `2 ^ 1024 - 2 ^ 970` on, both become infinite and the
quotient is no number at all. -/
namespace MixedInteger.Binary64

open Float.Model (Format UnpackedFloat totalExponent)
open Float.Model.UnpackedFloat

/-! ### Rounding keeps numbers in range -/

/-- A finite number whose last place is not above a bound. -/
def Capped (bound : Int) : UnpackedFloat → Prop
  | .zero _ => True
  | .finite _ _ exponent _ => exponent ≤ bound
  | _ => False

/-- A capped number of 53 bits. -/
def Below (bound : Int) : UnpackedFloat → Prop
  | .zero _ => True
  | .finite _ mantissa exponent _ => mantissa < 2 ^ 53 ∧ exponent ≤ bound
  | _ => False

theorem Capped.mono {bound limit : Int} (le : bound ≤ limit) {value : UnpackedFloat}
    (capped : Capped bound value) : Capped limit value := by
  cases value with
  | infinity sign | notANumber => exact capped.elim
  | zero sign => trivial
  | finite sign mantissa exponent positive => exact capped.trans le

theorem Below.mono {bound limit : Int} (le : bound ≤ limit) {value : UnpackedFloat}
    (below : Below bound value) : Below limit value := by
  cases value with
  | infinity sign | notANumber => exact below.elim
  | zero sign => trivial
  | finite sign mantissa exponent positive => exact ⟨below.1, below.2.trans le⟩

theorem Below.capped {bound : Int} {value : UnpackedFloat} (below : Below bound value) :
    Capped bound value := by
  cases value with
  | infinity sign | notANumber => exact below.elim
  | zero sign => trivial
  | finite sign mantissa exponent positive => exact below.2

theorem Normal.below {place : Int} {value : UnpackedFloat} (normal : Normal place value) :
    Below place value := by
  cases value with
  | infinity sign | notANumber | zero sign => exact normal.elim
  | finite sign mantissa exponent positive => exact ⟨normal.2.1, normal.2.2.le⟩

/-- Every exponent field but the largest makes a finite number. -/
theorem below_unpack {word : BitVec Format.binary64.numBits} {bound : Int} (least : -1074 ≤ bound)
    (field : ((unpackExponent word).toNat : Int) ≤ bound + 1075)
    (finite : (unpackExponent word).toNat < 2047) : Below bound (unpack Format.binary64 word) := by
  rcases Nat.eq_zero_or_pos (unpackExponent word).toNat with zero | positive
  · have exponent : unpackExponent word = 0#_ := BitVec.eq_of_toNat_eq (by simpa using zero)
    have small : (unpackMantissa word).toNat < 2 ^ 52 := (unpackMantissa word).isLt
    unfold unpack
    dsimp only
    rw [exponent, if_neg (by decide), if_pos rfl]
    by_cases empty : unpackMantissa word = 0#52
    · rw [dif_pos empty]
      trivial
    · rw [dif_neg empty]
      refine ⟨by omega, ?_⟩
      change ((0 : Nat) : Int) - 1075 + 1 ≤ bound
      omega
  · exact (normal_unpack positive finite).below.mono (by omega)

theorem unpackExponent_pack_le {value : UnpackedFloat} {bound : Int} (capped : Capped bound value)
    (most : bound ≤ 971) :
    (unpackExponent (pack Format.binary64 value)).toNat ≤ (bound + 1075).toNat := by
  cases value with
  | infinity sign | notANumber => exact capped.elim
  | zero sign =>
    have zero : unpackExponent (pack Format.binary64 (.zero sign)) = 0#_ :=
      unpackExponent_packComponents
    rw [zero]
    exact Nat.zero_le _
  | finite sign mantissa exponent positive =>
    have biased : (exponent + Format.binary64.exponentBias +
        Format.binary64.mantissaBitsWithoutImplicit).toNat = (exponent + 1075).toNat := by
      change (exponent + 1023 + 52).toNat = _
      omega
    have bounded : exponent ≤ bound := capped
    unfold pack
    dsimp only
    rw [biased, if_neg (show ¬ 2 ^ 11 ≤ (exponent + 1075).toNat + 1 by omega)]
    split
    · rw [unpackExponent_packComponents, BitVec.toNat_ofNat]
      exact (Nat.mod_le _ _).trans (by omega)
    · rw [unpackExponent_packComponents]
      exact Nat.zero_le _

/-- What is packed and unpacked again keeps its cap. -/
theorem below_repack {value : UnpackedFloat} {bound : Int} (capped : Capped bound value)
    (least : -1074 ≤ bound) (most : bound ≤ 971) :
    Below bound (unpack Format.binary64 (pack Format.binary64 value)) := by
  have field := unpackExponent_pack_le capped most
  exact below_unpack least (by omega) (by omega)

theorem normal_repack {value : UnpackedFloat} {place : Int} (normal : Normal place value)
    (least : -1074 ≤ place) (most : place ≤ 971) :
    Normal place (unpack Format.binary64 (pack Format.binary64 value)) := by
  cases value with
  | infinity sign | notANumber | zero sign => exact normal.elim
  | finite sign mantissa exponent positive =>
    obtain ⟨low, high, rfl⟩ := normal
    have field := unpackExponent_pack low high most sign positive
    have again : Normal _ (unpack Format.binary64
        (pack Format.binary64 (.finite sign mantissa exponent positive))) :=
      normal_unpack (by omega) (by omega)
    rwa [field, show ((exponent + 1075).toNat : Int) - 1075 = exponent by omega] at again

theorem mantissa_shiftRight (extended : ExtendedMantissa) (places : Nat) :
    (extended >>> places).mantissa = extended.mantissa / 2 ^ places := by
  induction places with
  | zero => simp [HShiftRight.hShiftRight, Nat.repeat]
  | succ places ih =>
    change (extended >>> places).mantissa / 2 = _
    rw [ih, Nat.div_div_eq_div_mul, Nat.pow_succ]

theorem mantissa_ofMantissaAndAccuracy (mantissa : Nat) (accuracy : Accuracy) :
    (ExtendedMantissa.ofMantissaAndAccuracy mantissa accuracy).mantissa = mantissa := by
  cases accuracy with
  | exact => rfl
  | inexact order => cases order <;> rfl

theorem roundedMantissa_le (extended : ExtendedMantissa) :
    extended.roundedMantissa ≤ extended.mantissa + 1 := by
  unfold ExtendedMantissa.roundedMantissa
  cases extended.accuracy with
  | exact => exact Nat.le_succ _
  | inexact order =>
    cases order with
    | lt => exact Nat.le_succ _
    | gt => exact le_rfl
    | eq =>
      change extended.mantissa + extended.mantissa % 2 ≤ _
      omega

/-- Dropping places and rounding leaves at most one bit more than there were left. -/
theorem log2_rounded_le {mantissa rounded places : Nat}
    (le : rounded ≤ mantissa / 2 ^ places + 1) :
    rounded.log2 ≤ mantissa.log2 + 1 - places := by
  have dropped : mantissa / 2 ^ places < 2 ^ (mantissa.log2 + 1 - places) := by
    rw [Nat.div_lt_iff_lt_mul (Nat.two_pow_pos places), ← Nat.pow_add]
    exact Nat.lt_log2_self.trans_le (Nat.pow_le_pow_right (by decide) (by omega))
  have bounded : rounded < 2 ^ (mantissa.log2 + 1 - places + 1) := by
    rw [Nat.pow_succ]
    have := Nat.two_pow_pos (mantissa.log2 + 1 - places)
    omega
  by_cases zero : rounded = 0
  · rw [zero]
    exact Nat.zero_le _
  · have := (Nat.log2_lt zero).mpr bounded
    omega

theorem capped_of_shift {bound : Int} {sign : Sign} {shifted : ExtendedMantissa × Int}
    (le : shifted.2 ≤ bound) :
    Capped bound (if zero : shifted.1.mantissa = 0 then .zero sign
      else .finite sign shifted.1.mantissa shifted.2 (Nat.pos_of_ne_zero zero)) := by
  by_cases empty : shifted.1.mantissa = 0
  · rw [dif_pos empty]
    trivial
  · rw [dif_neg empty]
    exact le

/-- A rounded number has its last place where it was, or where 53 bits are left after a carry. -/
theorem capped_roundWithAccuracy (sign : Sign) (mantissa : Nat) (exponent : Int)
    (accuracy : Accuracy) :
    Capped (max (max exponent (totalExponent mantissa exponent - 52)) (-1074))
      (roundWithAccuracy Format.binary64 sign mantissa exponent accuracy) := by
  let first := shiftToTargetExponent Format.binary64 mantissa exponent accuracy
  have carried : (shiftToTargetExponent Format.binary64 first.1.roundedMantissa first.2 .exact).2 ≤
      max (max exponent (totalExponent mantissa exponent - 52)) (-1074) := by
    have length : first.1.roundedMantissa.log2 ≤ mantissa.log2 + 1 - (Format.binary64.targetExponent
        (totalExponent mantissa exponent) - exponent).toNat := by
      refine log2_rounded_le ((roundedMantissa_le first.1).trans_eq ?_)
      simp only [first, shiftToTargetExponent, shiftToExponent, mantissa_shiftRight,
        mantissa_ofMantissaAndAccuracy]
    have place : first.2 = exponent + (Format.binary64.targetExponent
      (totalExponent mantissa exponent) - exponent).toNat := rfl
    simp only [shiftToTargetExponent, shiftToExponent, targetExponent_eq, totalExponent] at *
    omega
  exact capped_of_shift carried

theorem log2_shiftLeft_le (mantissa places : Nat) :
    (mantissa <<< places).log2 ≤ mantissa.log2 + places := by
  rw [Nat.shiftLeft_eq]
  by_cases zero : mantissa * 2 ^ places = 0
  · rw [zero]
    exact Nat.zero_le _
  · have longer : mantissa * 2 ^ places < 2 ^ (mantissa.log2 + places + 1) := by
      rw [Nat.add_right_comm, Nat.pow_add]
      exact Nat.mul_lt_mul_of_pos_right Nat.lt_log2_self (Nat.two_pow_pos places)
    exact Nat.le_of_lt_succ ((Nat.log2_lt zero).mpr longer)

theorem capped_round (sign : Sign) (mantissa : Nat) (exponent : Int) :
    Capped (max (max exponent (totalExponent mantissa exponent - 52)) (-1074))
      (UnpackedFloat.round Format.binary64 sign mantissa exponent) := by
  unfold UnpackedFloat.round decreaseExponent
  dsimp only
  generalize (exponent - Format.binary64.targetExponent (totalExponent mantissa exponent)).toNat =
    places
  apply (capped_roundWithAccuracy sign _ _ .exact).mono
  have length := log2_shiftLeft_le mantissa places
  simp only [totalExponent]
  omega

theorem capped_normalize (mantissa : Int) (exponent : Int) (sign : Sign) :
    Capped (max (max exponent (totalExponent mantissa.natAbs exponent - 52)) (-1074))
      (UnpackedFloat.normalize Format.binary64 mantissa exponent sign) := by
  unfold UnpackedFloat.normalize
  split
  · rename_i negative
    have below := Int.compare_eq_lt.mp negative
    rw [show (-mantissa).toNat = mantissa.natAbs by omega]
    exact capped_round _ _ _
  · trivial
  · rename_i positive
    have above := Int.compare_eq_gt.mp positive
    rw [show mantissa.toNat = mantissa.natAbs by omega]
    exact capped_round _ _ _

/-! ### Quotients and differences -/

/-- The quotient of two normal numbers is not far above the quotient of their last places. -/
theorem capped_div {left right : UnpackedFloat} {place other : Int} (normal : Normal place left)
    (divisor : Normal other right) :
    Capped (max (place - other) (-1074)) (div Format.binary64 left right) := by
  cases left with
  | infinity sign | notANumber | zero sign => exact normal.elim
  | finite sign mantissa exponent positive =>
    cases right with
    | infinity sign | notANumber | zero sign => exact divisor.elim
    | finite sign' mantissa' exponent' positive' =>
      obtain ⟨low, high, rfl⟩ := normal
      obtain ⟨low', high', rfl⟩ := divisor
      change Capped _ (roundWithAccuracy Format.binary64 (sign / sign')
        (divCore Format.binary64 mantissa exponent mantissa' exponent').1
        (divCore Format.binary64 mantissa exponent mantissa' exponent').2.1
        (divCore Format.binary64 mantissa exponent mantissa' exponent').2.2)
      apply (capped_roundWithAccuracy _ _ _ _).mono
      have target : Format.binary64.targetExponent
          (totalExponent mantissa exponent - totalExponent mantissa' exponent') =
            max (exponent - exponent' - 53) (-1074) := by
        rw [targetExponent_eq, totalExponent, totalExponent, log2_regular low high,
          log2_regular low' high']
        omega
      unfold divCore
      dsimp only
      rw [target]
      generalize places_eq : (exponent - exponent' -
        min (exponent - exponent') (max (exponent - exponent' - 53) (-1074))).toNat = places
      have quotient : mantissa <<< places / mantissa' < 2 ^ (places + 1) := by
        rw [Nat.div_lt_iff_lt_mul positive', Nat.shiftLeft_eq]
        calc mantissa * 2 ^ places < 2 ^ 53 * 2 ^ places :=
              Nat.mul_lt_mul_of_pos_right high (Nat.two_pow_pos places)
          _ = 2 ^ (places + 1) * 2 ^ 52 := by
              rw [← Nat.pow_add, ← Nat.pow_add, show 53 + places = places + 1 + 52 by omega]
          _ ≤ 2 ^ (places + 1) * mantissa' := Nat.mul_le_mul_left _ low'
      have length : (mantissa <<< places / mantissa').log2 ≤ places := by
        by_cases zero : mantissa <<< places / mantissa' = 0
        · rw [zero]
          exact Nat.zero_le _
        · exact Nat.le_of_lt_succ ((Nat.log2_lt zero).mpr quotient)
      rw [totalExponent]
      omega

theorem natAbs_apply (sign : Sign) (n : Nat) : (sign.apply n).natAbs = n := by
  cases sign with
  | negative => simp [Sign.apply]
  | positive => simp [Sign.apply]

/-- The difference of two small numbers is small. -/
theorem capped_sub {left right : UnpackedFloat} {bound : Int} (below : Below bound left)
    (other : Below bound right) (least : -1076 ≤ bound) :
    Capped (bound + 2) (sub Format.binary64 left right) := by
  cases left with
  | infinity sign | notANumber => exact below.elim
  | zero sign =>
    cases right with
    | infinity sign | notANumber => exact other.elim
    | zero sign' =>
      change Capped _ (if _ then _ else _)
      split <;> trivial
    | finite sign' mantissa' exponent' positive' => exact other.2.trans (by omega)
  | finite sign mantissa exponent positive =>
    cases right with
    | infinity sign | notANumber => exact other.elim
    | zero sign' => exact below.2.trans (by omega)
    | finite sign' mantissa' exponent' positive' =>
      obtain ⟨high, most⟩ := below
      obtain ⟨high', most'⟩ := other
      apply (capped_normalize _ _ _).mono
      generalize places_eq : (exponent - min exponent exponent').toNat = places
      generalize places_eq' : (exponent' - min exponent exponent').toNat = places'
      have scaled : ∀ {number shift : Nat}, number < 2 ^ 53 → shift ≤ max places places' →
          number <<< shift < 2 ^ (53 + max places places') := by
        intro number shift small le
        rw [Nat.shiftLeft_eq, Nat.pow_add]
        exact Nat.mul_lt_mul_of_lt_of_le small (Nat.pow_le_pow_right (by decide) le)
          (Nat.two_pow_pos _)
      have size : (sign.apply (mantissa <<< places : Nat) -
          sign'.apply (mantissa' <<< places' : Nat)).natAbs < 2 ^ (54 + max places places') := by
        apply (Int.natAbs_sub_le _ _).trans_lt
        rw [natAbs_apply, natAbs_apply, show 54 + max places places' = 53 + max places places' + 1
          by omega, Nat.pow_succ]
        have first := scaled high (Nat.le_max_left places places')
        have second := scaled high' (Nat.le_max_right places places')
        omega
      generalize difference_eq : (sign.apply (mantissa <<< places : Nat) -
        sign'.apply (mantissa' <<< places' : Nat)).natAbs = difference at size
      have length : difference.log2 ≤ 53 + max places places' := by
        by_cases zero : difference = 0
        · rw [zero]
          exact Nat.zero_le _
        · have := (Nat.log2_lt zero).mpr size
          omega
      rw [totalExponent]
      omega

/-! ### Words and operations -/

theorem isFinite_iff (x : Binary64) : x.isFinite = true ↔ (unpackExponent x.word).toNat < 2047 := by
  have field : (unpackExponent x.word).toNat < 2 ^ 11 := (unpackExponent x.word).isLt
  simp only [isFinite, exponentField_eq, bne_iff_ne, ne_eq]
  omega

theorem not_isNaN_of_isFinite {x : Binary64} (finite : x.isFinite = true) : x.isNaN = false := by
  simp only [isFinite, bne_iff_ne, ne_eq] at finite
  simp [isNaN, finite]

theorem fractionField_eq (x : Binary64) : x.fractionField = (unpackMantissa x.word).toNat := by
  have mantissa : (unpackMantissa x.word).toNat = x.word.toNat % 2 ^ 52 := by
    simp [unpackMantissa]
  rw [mantissa, fractionField, UInt64.toNat_and]
  change x.bits.toNat &&& (2 ^ 52 - 1) = x.bits.toNat % 2 ^ 52
  rw [Nat.and_two_pow_sub_one_eq_mod]

theorem unpack_ofBits_of_isNaN {x : Binary64} (nan : x.isNaN = true) :
    (Float.ofBits x.bits).toModel.unpack = .notANumber := by
  simp only [isNaN, Bool.and_eq_true, beq_iff_eq, bne_iff_ne, ne_eq, exponentField_eq,
    fractionField_eq] at nan
  have exponent : unpackExponent x.word = -1#_ := BitVec.eq_of_toNat_eq nan.1
  have mantissa : unpackMantissa x.word ≠ 0#_ := by
    intro zero
    exact nan.2 (by rw [zero]; rfl)
  have word : unpack Format.binary64 x.word = .notANumber := by
    unfold unpack
    dsimp only
    rw [if_pos exponent, if_neg mantissa]
  change unpack Format.binary64 (pack Format.binary64 (unpack Format.binary64 x.word)) = _
  rw [word]
  rfl

theorem not_lt_of_isNaN {x y : Binary64} (nan : x.isNaN = true) : ¬ x < y := by
  intro less
  have native : Float.ofBits x.bits < Float.ofBits y.bits := of_decide_eq_true less
  have order : (Float.ofBits x.bits).toModel.unpack.compare (Float.ofBits y.bits).toModel.unpack =
    some .lt := beq_iff_eq.mp (of_decide_eq_true native)
  rw [unpack_ofBits_of_isNaN nan] at order
  cases order

theorem not_le_of_isNaN {x y : Binary64} (nan : x.isNaN = true) : ¬ x ≤ y := by
  intro le
  have native : Float.ofBits x.bits ≤ Float.ofBits y.bits := of_decide_eq_true le
  have order : ((Float.ofBits x.bits).toModel.unpack.compare
    (Float.ofBits y.bits).toModel.unpack).any (·.isLE) = true := of_decide_eq_true native
  rw [unpack_ofBits_of_isNaN nan] at order
  cases order

theorem isNaN_abs {x : Binary64} (nan : x.isNaN = true) : x.abs.isNaN = true := by
  obtain ⟨exponent, mantissa⟩ := fields_congr x.getLsbD_abs
  simpa only [isNaN, exponentField_eq, fractionField_eq, exponent, mantissa] using nan

/-- A finite number is below infinity, whatever its sign was. -/
theorem abs_lt_infinity {x : Binary64} (finite : x.isFinite = true) : x.abs < infinity := by
  have field := (isFinite_iff x).mp finite
  rw [← (fields_congr x.getLsbD_abs).1] at field
  have inside : Below 971 (unpack Format.binary64 x.abs.word) :=
    below_unpack (by decide) (by omega) field
  have order : (Float.ofBits x.abs.bits).toModel.unpack.compare
      (Float.ofBits infinity.bits).toModel.unpack = some .lt := by
    have again : Below 971 (Float.ofBits x.abs.bits).toModel.unpack :=
      below_repack inside.capped (by decide) le_rfl
    have top : (Float.ofBits infinity.bits).toModel.unpack = .infinity .positive := rfl
    rw [top]
    cases value : (Float.ofBits x.abs.bits).toModel.unpack with
    | infinity sign | notANumber =>
      rw [value] at again
      exact again.elim
    | zero sign => rfl
    | finite sign mantissa exponent positive => cases sign <;> rfl
  have less : (Float.ofBits x.abs.bits).toModel < (Float.ofBits infinity.bits).toModel :=
    beq_iff_eq.mpr order
  have native : Float.ofBits x.abs.bits < Float.ofBits infinity.bits := decide_eq_true less
  exact decide_eq_true native

theorem below_ofBits {x : Binary64} {bound : Int}
    (below : Below bound (unpack Format.binary64 x.word)) (least : -1074 ≤ bound)
    (most : bound ≤ 971) : Below bound (Float.ofBits x.bits).toModel.unpack :=
  below_repack below.capped least most

theorem isFinite_of_below {x : Binary64} {bound : Int}
    (below : Below bound (unpack Format.binary64 x.word)) : x.isFinite = true := by
  rw [isFinite_iff]
  by_contra infinite
  have field : (unpackExponent x.word).toNat < 2 ^ 11 := (unpackExponent x.word).isLt
  have exponent : unpackExponent x.word = -1#_ :=
    BitVec.eq_of_toNat_eq (show (unpackExponent x.word).toNat = 2047 by omega)
  unfold unpack at below
  dsimp only at below
  rw [if_pos exponent] at below
  split at below <;> exact below.elim

theorem isNaN_combine_left {op : Float → Float → Float} {x : Binary64} (nan : x.isNaN = true)
    (y : Binary64) : (combine op x y).isNaN = true := by
  rw [combine, if_pos nan]
  exact nan

theorem isNaN_combine_right {op : Float → Float → Float} (x : Binary64) {y : Binary64}
    (nan : y.isNaN = true) : (combine op x y).isNaN = true := by
  unfold combine
  split
  · assumption
  · exact nan

/-- An operation on numbers whose result is in range gives the word of the result. -/
theorem below_combine {op : Float → Float → Float} {x y : Binary64} {bound : Int}
    (left : x.isNaN = false) (right : y.isNaN = false)
    (below : Below bound (op (Float.ofBits x.bits) (Float.ofBits y.bits)).toModel.unpack) :
    Below bound (unpack Format.binary64 (combine op x y).word) := by
  have settled : (op (Float.ofBits x.bits) (Float.ofBits y.bits)).isNaN = false := by
    change (op (Float.ofBits x.bits) (Float.ofBits y.bits)).toModel.unpack.isNaN = false
    cases value : (op (Float.ofBits x.bits) (Float.ofBits y.bits)).toModel.unpack with
    | notANumber =>
      rw [value] at below
      exact below.elim
    | infinity sign | zero sign | finite sign mantissa exponent positive => rfl
  rw [combine, left, if_neg Bool.false_ne_true, right, if_neg Bool.false_ne_true]
  simp only [settled, Bool.false_eq_true, ↓reduceIte]
  exact below

/-- Small numbers have a finite difference. -/
theorem isFinite_sub {x y : Binary64} (left : Below 1 (unpack Format.binary64 x.word))
    (right : Below 1 (unpack Format.binary64 y.word)) : (x - y).isFinite = true := by
  have capped := capped_sub (below_ofBits left (by decide) (by decide))
    (below_ofBits right (by decide) (by decide)) (by decide)
  exact isFinite_of_below (below_combine (not_isNaN_of_isFinite (isFinite_of_below left))
    (not_isNaN_of_isFinite (isFinite_of_below right))
    (below_repack capped (by decide) (by decide)))

theorem below_zero_add {x : Binary64} (below : Below 1 (unpack Format.binary64 x.word)) :
    Below 1 (unpack Format.binary64 (Binary64.zero + x).word) := by
  have again := below_ofBits below (by decide) (by decide)
  have capped : Capped 1 (add Format.binary64 (.zero .positive)
      (Float.ofBits x.bits).toModel.unpack) := by
    cases value : (Float.ofBits x.bits).toModel.unpack with
    | infinity sign | notANumber =>
      rw [value] at again
      exact again.elim
    | zero sign => cases sign <;> trivial
    | finite sign mantissa exponent positive =>
      rw [value] at again
      exact again.2
  exact below_combine (by decide) (not_isNaN_of_isFinite (isFinite_of_below below))
    (below_repack capped (by decide) (by decide))

/-! ### Numbers of naturals -/

/-- Half a unit past the largest number of 53 bits with `places + 1` places after them. -/
def lastHalf (places : Nat) : Nat := 2 ^ places * (2 ^ 54 - 1)

/-- The first natural number whose nearest number is infinite, `2 ^ 1024 - 2 ^ 970`. -/
def overflow : Nat := lastHalf 970

theorem lastHalf_pos (places : Nat) : 0 < lastHalf places :=
  Nat.mul_pos (Nat.two_pow_pos places) (by decide)

/-- Rounding a quotient of 53 bits carries from halfway to the next power on. -/
theorem roundedQuotient_lt_iff {n half : Nat} (positive : 0 < half) (small : n < half * 2 ^ 54) :
    roundedQuotient n (2 * half) < 2 ^ 53 ↔ n < half * (2 ^ 54 - 1) := by
  have quotient : n / (2 * half) < 2 ^ 53 := (Nat.div_lt_iff_lt_mul (by omega)).mpr (by omega)
  have split := Nat.div_add_mod n (2 * half)
  have rest := Nat.mod_lt n (show 0 < 2 * half by omega)
  unfold roundedQuotient
  dsimp only
  generalize n / (2 * half) = whole at *
  generalize n % (2 * half) = remainder at *
  by_cases last : whole = 2 ^ 53 - 1
  · subst last
    split_ifs <;> omega
  · have under : 2 * half * whole ≤ 2 * half * (2 ^ 53 - 2) := Nat.mul_le_mul_left _ (by omega)
    split_ifs <;> omega

/-- A number is below the last half unit if it is shorter, or if rounding does not carry. -/
theorem lt_lastHalf_iff {n : Nat} (positive : 0 < n) (places : Nat) :
    n < lastHalf places ↔ n.log2 < places + 53 ∨
      n.log2 = places + 53 ∧ roundedQuotient n (2 ^ (places + 1)) < 2 ^ 53 := by
  have half := Nat.two_pow_pos places
  have least := Nat.log2_self_le positive.ne'
  have most : n < 2 ^ (n.log2 + 1) := Nat.lt_log2_self
  rw [lastHalf]
  rcases Nat.lt_trichotomy n.log2 (places + 53) with short | length | long
  · have below : 2 ^ (n.log2 + 1) ≤ 2 ^ (places + 53) := Nat.pow_le_pow_right (by decide) short
    rw [Nat.pow_add 2 places] at below
    exact ⟨fun _ => .inl short, fun _ => by omega⟩
  · rw [length, Nat.add_assoc, Nat.pow_add] at most
    have double : 2 ^ (places + 1) = 2 * 2 ^ places := Nat.pow_succ'
    rw [double, roundedQuotient_lt_iff half most]
    exact ⟨fun below => .inr ⟨length, below⟩, fun either => (either.resolve_left (by omega)).2⟩
  · have above : 2 ^ (places + 54) ≤ 2 ^ n.log2 := Nat.pow_le_pow_right (by decide) long
    rw [Nat.pow_add 2 places] at above
    exact ⟨fun _ => by omega, fun _ => by omega⟩

theorem magnitude_lt_iff {n significand : Nat} (positive : 0 < n) (low : 2 ^ 52 ≤ significand)
    (high : significand ≤ 2 ^ 53)
    (rounded : 52 ≤ n.log2 → significand = roundedQuotient n (2 ^ (n.log2 - 52))) :
    (n.log2 + 1022) * 2 ^ 52 + significand < 2047 * 2 ^ 52 ↔ n < overflow := by
  rw [overflow, lt_lastHalf_iff positive]
  by_cases length : n.log2 = 970 + 53
  · have quotient := rounded (by omega)
    rw [show n.log2 - 52 = 970 + 1 by omega] at quotient
    rw [← quotient]
    omega
  · omega

theorem ofNat_eq_infinity {n : Nat} (large : overflow ≤ n) : ofNat n = infinity := by
  have positive : 0 < n := (lastHalf_pos 970).trans_le large
  obtain ⟨significand, made, low, high, rounded⟩ := ofFraction_one positive false
  have past := (magnitude_lt_iff positive low high rounded).not.mpr (Nat.not_lt.mpr large)
  rw [ofNat, made]
  unfold ofWord
  dsimp only
  rw [if_neg Bool.false_ne_true, Nat.min_eq_right (by omega)]
  rfl

/-- The exponent of the nearest number to a natural number that has a finite one. -/
theorem unpackExponent_ofNat {n : Nat} (positive : 0 < n) (small : n < overflow) :
    n.log2 + 1023 ≤ (unpackExponent (ofNat n).word).toNat ∧
      (unpackExponent (ofNat n).word).toNat ≤ n.log2 + 1024 ∧
      (unpackExponent (ofNat n).word).toNat < 2047 := by
  obtain ⟨significand, made, low, high, rounded⟩ := ofFraction_one positive false
  have inside := (magnitude_lt_iff positive low high rounded).mpr small
  have word : (ofNat n).word.toNat = (n.log2 + 1022) * 2 ^ 52 + significand := by
    rw [ofNat, made]
    unfold ofWord
    dsimp only
    rw [if_neg Bool.false_ne_true, Nat.min_eq_left (by omega)]
    exact UInt64.toNat_ofNat_of_lt'
      (show (n.log2 + 1022) * 2 ^ 52 + significand < 2 ^ 64 by omega)
  rw [toNat_unpackExponent, word]
  omega

theorem isFinite_ofNat_iff {n : Nat} (positive : 0 < n) :
    (ofNat n).isFinite = true ↔ n < overflow := by
  constructor
  · intro finite
    by_contra large
    rw [ofNat_eq_infinity (Nat.not_lt.mp large)] at finite
    exact absurd finite (by decide)
  · intro small
    exact (isFinite_iff _).mpr (unpackExponent_ofNat positive small).2.2

/-- The nearest number to a natural number is normal, if it is finite. -/
theorem normal_ofNat {n : Nat} (positive : 0 < n) (small : n < overflow) :
    ∃ place : Int, n.log2 - 52 ≤ place ∧ place ≤ n.log2 - 51 ∧
      Normal place (Float.ofBits (ofNat n).bits).toModel.unpack := by
  obtain ⟨low, high, finite⟩ := unpackExponent_ofNat positive small
  have normal := normal_unpack (show 0 < (unpackExponent (ofNat n).word).toNat by omega) finite
  exact ⟨_, by omega, by omega, normal_repack normal (by omega) (by omega)⟩

/-! ### Numbers of proper fractions -/

/-- The quotient of the numbers of a proper fraction, where the numerator has one. -/
theorem below_div_ofNat {n d : Nat} (positive : 0 < n) (proper : n < d) (small : n < overflow) :
    Below 1 (unpack Format.binary64 (ofNat n / ofNat d).word) := by
  obtain ⟨place, -, high, normal⟩ := normal_ofNat positive small
  have number := not_isNaN_of_isFinite ((isFinite_ofNat_iff positive).mpr small)
  by_cases wide : d < overflow
  · obtain ⟨other, low, -, divisor⟩ := normal_ofNat (positive.trans proper) wide
    have length : n.log2 ≤ d.log2 := by
      refine (Nat.le_log2 (by omega)).mpr ((Nat.log2_self_le positive.ne').trans proper.le)
    refine below_combine number
      (not_isNaN_of_isFinite ((isFinite_ofNat_iff (positive.trans proper)).mpr wide)) ?_
    exact below_repack ((capped_div normal divisor).mono (by omega)) (by decide) (by decide)
  · rw [ofNat_eq_infinity (Nat.not_lt.mp wide)]
    have capped : Capped 1 (div Format.binary64 (Float.ofBits (ofNat n).bits).toModel.unpack
        (.infinity .positive)) := by
      cases value : (Float.ofBits (ofNat n).bits).toModel.unpack with
      | infinity sign | notANumber | zero sign =>
        rw [value] at normal
        exact normal.elim
      | finite sign mantissa exponent positive => trivial
    exact below_combine number (by decide) (below_repack capped (by decide) (by decide))

theorem ofInt_eq_ofNat {z : Int} (nonneg : 0 ≤ z) : ofInt z = ofNat z.natAbs := by
  rw [ofInt, decide_eq_false (not_lt.mpr nonneg), ofNat]

theorem natAbs_num_lt_den {q : Rat} (positive : 0 < q) (proper : q < 1) :
    q.num.natAbs < q.den := by
  have above : 0 < q.num := Rat.num_pos.mpr positive
  have below : (q.num : Rat) < q.den := by
    rw [← Rat.num_div_den q, div_lt_one (by exact_mod_cast q.den_pos)] at proper
    exact proper
  have : q.num < q.den := by exact_mod_cast below
  omega

/-- Splitting the whole part off a proper fraction changes nothing but adds a zero. -/
theorem nearestBinary64_proper {q : Rat} (positive : 0 < q) (proper : q < 1) :
    nearestBinary64 q =
      if (ofNat q.num.natAbs).isFinite && (ofNat q.den).isFinite then
        ofNat q.num.natAbs / ofNat q.den
      else Binary64.zero + ofNat q.num.natAbs / ofNat q.den := by
  have above : 0 < q.num := Rat.num_pos.mpr positive
  have below : q.num < q.den := by
    have := natAbs_num_lt_den positive proper
    omega
  have whole : q.num.tdiv q.den = 0 := Int.tdiv_eq_zero_of_lt above.le below
  have rest : mkRat (q.num.tmod q.den) q.den = q := by
    rw [Int.tmod_eq_of_lt above.le below]
    exact Rat.mkRat_self q
  have zero : ofInt 0 = Binary64.zero := congrArg mk (show (ofInt 0).bits = 0 by decide)
  unfold nearestBinary64
  simp only [whole, rest, zero, ofInt_eq_ofNat above.le]

/-- A proper fraction whose numerator is past the finite numbers has no number. -/
theorem isNaN_nearestBinary64 {q : Rat} (positive : 0 < q) (proper : q < 1)
    (large : overflow ≤ q.num.natAbs) : (nearestBinary64 q).isNaN = true := by
  have wide : overflow ≤ q.den := large.trans (natAbs_num_lt_den positive proper).le
  rw [nearestBinary64_proper positive proper, ofNat_eq_infinity large, ofNat_eq_infinity wide,
    if_neg (by decide)]
  exact isNaN_combine_right _ (by decide)

/-- Any other proper fraction has a small number. -/
theorem below_nearestBinary64 {q : Rat} (positive : 0 < q) (proper : q < 1)
    (small : q.num.natAbs < overflow) :
    Below 1 (unpack Format.binary64 (nearestBinary64 q).word) := by
  have above : 0 < q.num.natAbs := by
    have := Rat.num_pos.mpr positive
    omega
  have quotient := below_div_ofNat above (natAbs_num_lt_den positive proper) small
  rw [nearestBinary64_proper positive proper]
  split
  · exact quotient
  · exact below_zero_add quotient

/-- The distance of a proper fraction to one half, as a census measures it: finite while the
numerator has a finite number, and no number otherwise. -/
theorem distance_lt_infinity {q : Rat} (positive : 0 < q) (proper : q < 1)
    (small : q.num.natAbs < overflow) :
    (nearestBinary64 q - ofFraction false 1 2).abs < infinity := by
  have half : Below 1 (unpack Format.binary64 (ofFraction false 1 2).word) := by
    rw [show ofFraction false 1 2 = mk 0x3fe0000000000000 from
      congrArg mk (show (ofFraction false 1 2).bits = 0x3fe0000000000000 by decide)]
    exact below_unpack (by decide) (by decide) (by decide)
  exact abs_lt_infinity (isFinite_sub (below_nearestBinary64 positive proper small) half)

theorem not_distance_lt {q : Rat} (positive : 0 < q) (proper : q < 1)
    (large : overflow ≤ q.num.natAbs) (limit : Binary64) :
    ¬ (nearestBinary64 q - ofFraction false 1 2).abs < limit :=
  not_lt_of_isNaN (isNaN_abs (isNaN_combine_left (isNaN_nearestBinary64 positive proper large) _))

end MixedInteger.Binary64
