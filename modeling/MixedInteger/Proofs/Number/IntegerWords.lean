import MixedInteger.Number.Basic
import MixedInteger.Scalar
import Mathlib.Algebra.Group.Int.Defs
import Mathlib.Algebra.Group.Nat.Defs
import Mathlib.Order.Nat

/-! The binary64 words of 64-bit integers. Such a number has a word of moderate exponent, which
stays moderate when the number is divided by one, as converting a fraction does, and when its
sign changes; moderate numbers are far below the magnitude at which a bound is infinite. -/
namespace MixedInteger.Binary64

open Float.Model (Format UnpackedFloat)
open Float.Model.UnpackedFloat

/-- Zero, or a normal number of a magnitude from one up to the 64-bit integers. -/
def Regular : UnpackedFloat → Prop
  | .zero _ => True
  | .finite _ mantissa exponent _ =>
    2 ^ 52 ≤ mantissa ∧ mantissa < 2 ^ 53 ∧ -52 ≤ exponent ∧ exponent ≤ 11
  | _ => False

/-- The word of a number. -/
def word (x : Binary64) : BitVec Format.binary64.numBits := x.bits.toBitVec

/-- The word of a regular number. -/
def Moderate (word : BitVec Format.binary64.numBits) : Prop :=
  (1023 ≤ (unpackExponent word).toNat ∧ (unpackExponent word).toNat ≤ 1086) ∨
    (unpackExponent word = 0#_ ∧ unpackMantissa word = 0#_)

/-- A normal number with a given exponent of its last place. -/
def Normal (place : Int) : UnpackedFloat → Prop
  | .finite _ mantissa exponent _ => 2 ^ 52 ≤ mantissa ∧ mantissa < 2 ^ 53 ∧ exponent = place
  | _ => False

/-- An exponent field that is neither all zeros nor all ones makes a normal number. -/
theorem normal_unpack {word : BitVec Format.binary64.numBits}
    (low : 0 < (unpackExponent word).toNat) (high : (unpackExponent word).toNat < 2047) :
    Normal ((unpackExponent word).toNat - 1075) (unpack Format.binary64 word) := by
  unfold unpack
  dsimp only
  have finite : unpackExponent word ≠ -1#_ := by
    intro same
    rw [same] at high
    exact absurd high (by decide)
  have normal : unpackExponent word ≠ 0#_ := by
    intro same
    rw [same] at low
    exact absurd low (by decide)
  have hidden : (1#1 ++ unpackMantissa word).toNat = 2 ^ 52 + (unpackMantissa word).toNat := by
    rw [BitVec.toNat_append, ← Nat.shiftLeft_add_eq_or_of_lt (unpackMantissa word).isLt]
    rfl
  have small : (unpackMantissa word).toNat < 2 ^ 52 := (unpackMantissa word).isLt
  rw [if_neg finite, if_neg normal]
  refine ⟨?_, ?_, rfl⟩
  · rw [hidden]
    omega
  · rw [hidden]
    omega

theorem regular_unpack {word : BitVec Format.binary64.numBits} (moderate : Moderate word) :
    Regular (unpack Format.binary64 word) := by
  rcases moderate with ⟨low, high⟩ | ⟨exponent, mantissa⟩
  · have normal := normal_unpack (show 0 < (unpackExponent word).toNat by omega) (by omega)
    cases value : unpack Format.binary64 word with
    | infinity sign | notANumber | zero sign =>
      rw [value] at normal
      exact normal.elim
    | finite sign mantissa exponent positive =>
      rw [value] at normal
      obtain ⟨least, most, rfl⟩ := normal
      exact ⟨least, most, by omega, by omega⟩
  · unfold unpack
    dsimp only
    rw [exponent, if_neg (by decide), if_pos rfl, dif_pos mantissa]
    trivial

theorem log2_regular {mantissa : Nat} (low : 2 ^ 52 ≤ mantissa) (high : mantissa < 2 ^ 53) :
    mantissa.log2 = 52 := by
  have positive : mantissa ≠ 0 := by omega
  have least := (Nat.le_log2 positive).mpr low
  have most := (Nat.log2_lt positive).mpr high
  omega

/-- The exponent field of a normal number in range. -/
theorem unpackExponent_pack {mantissa : Nat} {exponent : Int} (low : 2 ^ 52 ≤ mantissa)
    (high : mantissa < 2 ^ 53) (most : exponent ≤ 971) (sign : Sign) (positive : 0 < mantissa) :
    (unpackExponent (pack Format.binary64 (.finite sign mantissa exponent positive))).toNat =
      (exponent + 1075).toNat := by
  have biased : (exponent + Format.binary64.exponentBias +
      Format.binary64.mantissaBitsWithoutImplicit).toNat = (exponent + 1075).toNat := by
    change (exponent + 1023 + 52).toNat = _
    omega
  unfold pack
  dsimp only
  rw [biased, log2_regular low high, if_neg (show ¬ 2 ^ 11 ≤ (exponent + 1075).toNat + 1 by omega),
    if_pos (show 52 + 1 = Format.binary64.mantissaBits from rfl), unpackExponent_packComponents,
    BitVec.toNat_ofNat, Nat.mod_eq_of_lt (show (exponent + 1075).toNat < 2 ^ 11 by omega)]

theorem moderate_pack {value : UnpackedFloat} (regular : Regular value) :
    Moderate (pack Format.binary64 value) := by
  cases value with
  | infinity sign => exact regular.elim
  | notANumber => exact regular.elim
  | zero sign =>
    refine .inr ⟨?_, ?_⟩
    · exact unpackExponent_packComponents
    · exact unpackMantissa_packComponents
  | finite sign mantissa exponent positive =>
    obtain ⟨low, high, least, most⟩ := regular
    refine .inl ?_
    rw [unpackExponent_pack low high (by omega)]
    omega

theorem targetExponent_eq (total : Int) :
    Format.binary64.targetExponent total = max (total - 53) (-1074) := rfl

/-- The quotient by one has one more bit, and is exact. -/
theorem divCore_one {mantissa : Nat} {exponent : Int} (low : 2 ^ 52 ≤ mantissa)
    (high : mantissa < 2 ^ 53) (least : -52 ≤ exponent) :
    divCore Format.binary64 mantissa exponent (2 ^ 52) (-52) =
      (2 * mantissa, exponent - 1, .exact) := by
  have power : (2 ^ 52 : Nat).log2 = 52 := by decide
  have target : min (exponent - -52) (Format.binary64.targetExponent
      (Float.Model.totalExponent mantissa exponent - Float.Model.totalExponent (2 ^ 52) (-52))) =
        exponent - 1 := by
    rw [targetExponent_eq, Float.Model.totalExponent, Float.Model.totalExponent, power,
      log2_regular low high]
    omega
  have shift : (exponent - -52 - (exponent - 1)).toNat = 53 := by omega
  have product : mantissa <<< 53 = 2 * mantissa * 2 ^ 52 := by
    rw [Nat.shiftLeft_eq]
    omega
  unfold divCore
  dsimp only
  rw [target, shift, product, Nat.mul_div_cancel _ (by decide), Nat.mul_mod_left]
  rfl

/-- A number with one bit too many that is zero is rounded by dropping it. -/
theorem round_double {mantissa : Nat} {exponent : Int} (low : 2 ^ 52 ≤ mantissa)
    (high : mantissa < 2 ^ 53) (least : -52 ≤ exponent) (sign : Sign) (positive : 0 < mantissa) :
    roundWithAccuracy Format.binary64 sign (2 * mantissa) (exponent - 1) .exact =
      .finite sign mantissa exponent positive := by
  have double : (2 * mantissa).log2 = 53 := by
    have nonzero : 2 * mantissa ≠ 0 := by omega
    have bottom := (Nat.le_log2 nonzero).mpr (show 2 ^ 53 ≤ 2 * mantissa by omega)
    have top := (Nat.log2_lt nonzero).mpr (show 2 * mantissa < 2 ^ 54 by omega)
    omega
  have first : shiftToTargetExponent Format.binary64 (2 * mantissa) (exponent - 1) .exact =
      (⟨mantissa, false, false⟩, exponent) := by
    have shift : (Format.binary64.targetExponent
        (Float.Model.totalExponent (2 * mantissa) (exponent - 1)) - (exponent - 1)).toNat = 1 := by
      rw [targetExponent_eq, Float.Model.totalExponent, double]
      omega
    unfold shiftToTargetExponent shiftToExponent
    dsimp only
    rw [shift]
    refine Prod.ext ?_ (by simp)
    change ExtendedMantissa.shiftRightOne ⟨2 * mantissa, false, false⟩ = _
    simp [ExtendedMantissa.shiftRightOne]
  have second : shiftToTargetExponent Format.binary64 mantissa exponent .exact =
      (⟨mantissa, false, false⟩, exponent) := by
    have shift : (Format.binary64.targetExponent
        (Float.Model.totalExponent mantissa exponent) - exponent).toNat = 0 := by
      rw [targetExponent_eq, Float.Model.totalExponent, log2_regular low high]
      omega
    unfold shiftToTargetExponent shiftToExponent
    dsimp only
    rw [shift]
    exact Prod.ext rfl (by simp)
  have exact : (ExtendedMantissa.mk mantissa false false).roundedMantissa = mantissa := rfl
  rw [roundWithAccuracy, first]
  dsimp only
  rw [exact, second]
  exact dif_neg positive.ne'

/-- Dividing by one keeps a regular number. -/
theorem regular_div_one {value : UnpackedFloat} (regular : Regular value) {one : 0 < 2 ^ 52} :
    Regular (div Format.binary64 value (.finite .positive (2 ^ 52) (-52) one)) := by
  cases value with
  | infinity sign => exact regular.elim
  | notANumber => exact regular.elim
  | zero sign => trivial
  | finite sign mantissa exponent positive =>
    obtain ⟨low, high, least, most⟩ := regular
    have quotient : div Format.binary64 (.finite sign mantissa exponent positive)
        (.finite .positive (2 ^ 52) (-52) one) =
          .finite (sign / .positive) mantissa exponent positive := by
      change roundWithAccuracy Format.binary64 (sign / .positive)
        (divCore Format.binary64 mantissa exponent (2 ^ 52) (-52)).1
        (divCore Format.binary64 mantissa exponent (2 ^ 52) (-52)).2.1
        (divCore Format.binary64 mantissa exponent (2 ^ 52) (-52)).2.2 = _
      rw [divCore_one low high least]
      exact round_double low high least _ positive
    rw [quotient]
    exact ⟨low, high, least, most⟩

/-! ### Words of integers -/

theorem toNat_unpackExponent (word : BitVec Format.binary64.numBits) :
    (unpackExponent word).toNat = word.toNat / 2 ^ 52 % 2 ^ 11 := by
  simp [unpackExponent, Nat.shiftRight_eq_div_pow]

/-- The sign bit is no part of the exponent or the mantissa. -/
theorem fields_congr {word other : BitVec Format.binary64.numBits}
    (same : ∀ place < 63, other.getLsbD place = word.getLsbD place) :
    unpackExponent other = unpackExponent word ∧ unpackMantissa other = unpackMantissa word := by
  constructor
  · ext place inside
    have below : 52 + place < 63 := by
      have : place < 11 := inside
      omega
    simp [unpackExponent, same _ below]
  · ext place inside
    have below : place < 63 := by
      have : place < 52 := inside
      omega
    simp [unpackMantissa, same _ below]

theorem moderate_congr {word other : BitVec Format.binary64.numBits}
    (same : ∀ place < 63, other.getLsbD place = word.getLsbD place) (moderate : Moderate word) :
    Moderate other := by
  obtain ⟨exponent, mantissa⟩ := fields_congr same
  rw [Moderate, exponent, mantissa]
  exact moderate

theorem moderate_neg {x : Binary64} (moderate : Moderate x.word) :
    Moderate x.neg.word := by
  have clear : ∀ place < 63, (0x8000000000000000#64).getLsbD place = false := by decide
  refine moderate_congr (fun place below => ?_) moderate
  simp [word, Binary64.neg, clear place below]

theorem getLsbD_abs (x : Binary64) :
    ∀ place < 63, x.abs.word.getLsbD place = x.word.getLsbD place := by
  have kept : ∀ place < 63, (0x7fffffffffffffff#64).getLsbD place = true := by decide
  intro place below
  simp [word, Binary64.abs, kept place below]

theorem moderate_abs {x : Binary64} (moderate : Moderate x.word) :
    Moderate x.abs.word :=
  moderate_congr x.getLsbD_abs moderate

theorem moderate_ofWord {magnitude : Nat} (low : 1023 ≤ magnitude / 2 ^ 52)
    (high : magnitude / 2 ^ 52 ≤ 1086) (negative : Bool) :
    Moderate (ofWord negative magnitude).word := by
  have positive : Moderate (mk (UInt64.ofNat (min magnitude 0x7ff0000000000000))).word := by
    refine .inl ?_
    rw [toNat_unpackExponent, Nat.min_eq_left (by omega)]
    have exact : (mk (UInt64.ofNat magnitude)).word.toNat = magnitude :=
      UInt64.toNat_ofNat_of_lt' (show magnitude < 2 ^ 64 by omega)
    rw [exact]
    omega
  cases negative with
  | false => exact positive
  | true => exact moderate_neg positive

theorem roundedQuotient_bounds (n d : Nat) :
    n / d ≤ roundedQuotient n d ∧ roundedQuotient n d ≤ n / d + 1 := by
  unfold roundedQuotient
  dsimp only
  split
  · omega
  · split
    · omega
    · omega

/-- The quotient that is rounded for a natural number has 53 bits. -/
theorem scaled_bounds {n : Nat} (positive : 0 < n) :
    ∃ top bottom, (if 0 ≤ (n.log2 : Int) - 52 then (n, 1 * Nat.pow 2 ((n.log2 : Int) - 52).toNat)
        else (n * Nat.pow 2 (-((n.log2 : Int) - 52)).toNat, 1)) = (top, bottom) ∧
      2 ^ 52 ≤ top / bottom ∧ top / bottom < 2 ^ 53 := by
  have low : 2 ^ n.log2 ≤ n := Nat.log2_self_le positive.ne'
  have high : n < 2 ^ (n.log2 + 1) := Nat.lt_log2_self
  by_cases large : 52 ≤ n.log2
  · obtain ⟨more, length⟩ := Nat.exists_eq_add_of_le large
    rw [length] at low high ⊢
    have shift : (((52 + more : Nat) : Int) - 52).toNat = more := by omega
    rw [if_pos (by omega), shift, Nat.one_mul]
    refine ⟨n, 2 ^ more, rfl, ?_, ?_⟩
    · rw [Nat.le_div_iff_mul_le (Nat.two_pow_pos more), ← Nat.pow_add]
      exact low
    · rw [Nat.div_lt_iff_lt_mul (Nat.two_pow_pos more), ← Nat.pow_add]
      rwa [show 52 + more + 1 = 53 + more by omega] at high
  · obtain ⟨less, length⟩ := Nat.exists_eq_add_of_lt (not_le.mp large)
    have shift : (-((n.log2 : Int) - 52)).toNat = less + 1 := by omega
    rw [if_neg (by omega), shift]
    refine ⟨n * 2 ^ (less + 1), 1, rfl, ?_, ?_⟩
    · rw [Nat.div_one]
      calc 2 ^ 52 = 2 ^ n.log2 * 2 ^ (less + 1) := by rw [← Nat.pow_add, ← Nat.add_assoc, ← length]
        _ ≤ n * 2 ^ (less + 1) := Nat.mul_le_mul_right _ low
    · rw [Nat.div_one]
      calc n * 2 ^ (less + 1) < 2 ^ (n.log2 + 1) * 2 ^ (less + 1) :=
            Nat.mul_lt_mul_of_pos_right high (Nat.two_pow_pos _)
        _ = 2 ^ 53 := by rw [← Nat.pow_add, show n.log2 + 1 + (less + 1) = 53 by omega]

/-- The word of a natural number: its length gives the exponent, up to a carry. -/
theorem ofFraction_one {n : Nat} (positive : 0 < n) (negative : Bool) :
    ∃ significand, ofFraction negative n 1 =
        ofWord negative ((n.log2 + 1022) * 2 ^ 52 + significand) ∧
      2 ^ 52 ≤ significand ∧ significand ≤ 2 ^ 53 ∧
      (52 ≤ n.log2 → significand = roundedQuotient n (2 ^ (n.log2 - 52))) := by
  have one : (1 : Nat).log2 = 0 := by decide
  obtain ⟨top, bottom, ratio, low, high⟩ := scaled_bounds positive
  have rounded := roundedQuotient_bounds top bottom
  have full : ¬ top / bottom < Nat.pow 2 52 := Nat.not_lt.mpr low
  have normal : max ((n.log2 : Int) - 52) (-1074) = (n.log2 : Int) - 52 := by omega
  have field : ((n.log2 : Int) - 52 + 1074).toNat = n.log2 + 1022 := by omega
  refine ⟨roundedQuotient top bottom, ?_, by omega, by omega, fun large => ?_⟩
  · unfold ofFraction
    dsimp only
    simp only [if_neg positive.ne', one, Int.natCast_zero, Int.sub_zero, ratio, full, ↓reduceIte,
      normal, field]
    rfl
  · have shift : ((n.log2 : Int) - 52).toNat = n.log2 - 52 := by omega
    rw [if_pos (by omega), shift, Nat.one_mul] at ratio
    obtain ⟨rfl, rfl⟩ := Prod.mk.inj ratio
    rfl

/-- An integer of 64 bits has a moderate word. -/
theorem moderate_ofInt {z : Int} (small : z.natAbs < 2 ^ 63) : Moderate (ofInt z).word := by
  by_cases zero : z.natAbs = 0
  · rw [Int.natAbs_eq_zero.mp zero]
    exact .inr ⟨by decide, by decide⟩
  · obtain ⟨significand, made, low, high, -⟩ :=
      ofFraction_one (Nat.pos_of_ne_zero zero) (decide (z < 0))
    have length : z.natAbs.log2 < 63 := (Nat.log2_lt zero).mpr small
    rw [ofInt, made]
    exact moderate_ofWord (by omega) (by omega) _

/-! ### The nearest number to an integer -/

theorem exponentField_eq (x : Binary64) : x.exponentField = (unpackExponent x.word).toNat := by
  rw [toNat_unpackExponent, exponentField, UInt64.toNat_and, UInt64.toNat_shiftRight]
  change x.bits.toNat >>> 52 &&& (2 ^ 11 - 1) = x.bits.toNat / 2 ^ 52 % 2 ^ 11
  rw [Nat.and_two_pow_sub_one_eq_mod, Nat.shiftRight_eq_div_pow]

theorem isFinite_of_moderate {x : Binary64} (moderate : Moderate x.word) :
    x.isFinite = true ∧ x.isNaN = false := by
  have field : x.exponentField ≠ 2047 := by
    rw [exponentField_eq]
    rcases moderate with ⟨-, high⟩ | ⟨exponent, -⟩
    · omega
    · rw [exponent]
      decide
  simp [isFinite, isNaN, field]

/-- What is packed and unpacked again stays regular. -/
theorem regular_ofBits {x : Binary64} (moderate : Moderate x.word) :
    Regular (Float.ofBits x.bits).toModel.unpack :=
  regular_unpack (moderate_pack (regular_unpack moderate))

theorem isNaN_of_regular {x : Float} (regular : Regular x.toModel.unpack) : x.isNaN = false := by
  change x.toModel.unpack.isNaN = false
  cases value : x.toModel.unpack with
  | notANumber =>
    rw [value] at regular
    exact regular.elim
  | infinity sign | zero sign | finite sign mantissa exponent positive => rfl

theorem moderate_div_one {x : Binary64} (moderate : Moderate x.word) :
    Moderate (x / ofNat 1).word := by
  have one : ofNat 1 = Binary64.one :=
    congrArg mk (show (ofNat 1).bits = Binary64.one.bits by decide)
  have unit : (Float.ofBits Binary64.one.bits).toModel.unpack =
      .finite .positive (2 ^ 52) (-52) (by decide) := rfl
  have packed : Moderate (mk (Float.ofBits x.bits / Float.ofBits Binary64.one.bits).toBits).word := by
    change Moderate (pack Format.binary64 (div Format.binary64 (Float.ofBits x.bits).toModel.unpack
      (Float.ofBits Binary64.one.bits).toModel.unpack))
    rw [unit]
    exact moderate_pack (regular_div_one (regular_ofBits moderate))
  have settled : (Float.ofBits x.bits / Float.ofBits Binary64.one.bits).isNaN = false :=
    isNaN_of_regular (regular_unpack packed)
  change Moderate (combine (· / ·) x (ofNat 1)).word
  rw [one, combine, (isFinite_of_moderate moderate).2, if_neg Bool.false_ne_true,
    if_neg (show ¬ Binary64.one.isNaN = true by decide)]
  simp only [settled, Bool.false_eq_true, ↓reduceIte]
  exact packed

/-- Integers of 64 bits are far below the largest magnitudes. -/
theorem abs_lt_of_moderate {x : Binary64} (moderate : Moderate x.word) :
    x.abs < ofNat (Nat.pow 10 30) := by
  obtain ⟨mantissa, positive, bound⟩ : ∃ mantissa positive,
      (Float.ofBits (ofNat (Nat.pow 10 30)).bits).toModel.unpack =
        .finite .positive mantissa 47 positive := ⟨_, _, rfl⟩
  have regular := regular_ofBits (moderate_abs moderate)
  have order : (Float.ofBits x.abs.bits).toModel.unpack.compare
      (Float.ofBits (ofNat (Nat.pow 10 30)).bits).toModel.unpack = some .lt := by
    rw [bound]
    cases value : (Float.ofBits x.abs.bits).toModel.unpack with
    | infinity sign | notANumber =>
      rw [value] at regular
      exact regular.elim
    | zero sign => rfl
    | finite sign other exponent nonzero =>
      rw [value] at regular
      cases sign with
      | negative => rfl
      | positive =>
        obtain ⟨-, -, -, most⟩ := regular
        have below : compare exponent 47 = .lt := Int.compare_eq_lt.mpr (by omega)
        change some ((compare exponent 47).then (compare other mantissa)) = _
        rw [below]
        rfl
  have less : (Float.ofBits x.abs.bits).toModel < (Float.ofBits (ofNat (Nat.pow 10 30)).bits).toModel :=
    beq_iff_eq.mpr order
  have native : Float.ofBits x.abs.bits < Float.ofBits (ofNat (Nat.pow 10 30)).bits :=
    decide_eq_true less
  exact decide_eq_true native

/-- The nearest binary64 number to an integer of 64 bits is moderate. -/
theorem moderate_toBinary64 {z : Int} (small : z.natAbs < 2 ^ 63) :
    Moderate (Number.ofInt z).toBinary64.word := by
  have moderate := moderate_ofInt small
  have finite : (ofNat 1).isFinite = true := by decide
  change Moderate (nearestBinary64 z).word
  unfold nearestBinary64
  simp only [Rat.num_intCast, Rat.den_intCast, (isFinite_of_moderate moderate).1, finite, Bool.and_self,
    ↓reduceIte]
  exact moderate_div_one moderate

end MixedInteger.Binary64
