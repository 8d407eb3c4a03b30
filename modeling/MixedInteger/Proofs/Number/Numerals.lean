import MixedInteger.Number.Basic
import MixedInteger.Proofs.Text.Lexing
import Mathlib.Algebra.Group.Int.Defs

/-! Numerals of integers. What is written for an integer is a word, and it is read back as the
same integer; numbered names are words, and different numbers give different names. -/
namespace MixedInteger

theorem digitsValue?_eq {text : List Char} (digits : ∀ c ∈ text, c.isDigit = true) :
    digitsValue? text = some (Nat.ofDigitChars 10 text 0) := by
  have fold : ∀ start : Nat, text.foldl (fun total c => do
      let value ← total
      if c.isDigit then some (10 * value + (c.toNat - 48)) else none) (some start) =
        some (Nat.ofDigitChars 10 text start) := by
    induction text with
    | nil => simp
    | cons c text ih =>
      intro start
      have rest := ih fun d member => digits d (List.mem_cons_of_mem c member)
      rw [List.foldl_cons, Nat.ofDigitChars_cons, ← rest]
      simp [digits c List.mem_cons_self]
  exact fold 0

theorem isDigit_numeral {n : Nat} {c : Char} (member : c ∈ Nat.toDigits 10 n) : c.isDigit = true :=
  Nat.isDigit_of_mem_toDigits (by decide) (by decide) member

theorem digitsValue?_numeral (n : Nat) : digitsValue? (Nat.toDigits 10 n) = some n := by
  rw [digitsValue?_eq fun c => isDigit_numeral, Nat.ofDigitChars_ten_toDigits]

/-- A digit is not a sign. -/
theorem signed_numeral (n : Nat) : signed (Nat.toDigits 10 n) = (false, Nat.toDigits 10 n) := by
  unfold signed
  split
  · rename_i rest spelled
    have digit : '-'.isDigit = true := isDigit_numeral (spelled ▸ List.mem_cons_self)
    exact absurd digit (by decide)
  · rename_i rest spelled
    have digit : '+'.isDigit = true := isDigit_numeral (spelled ▸ List.mem_cons_self)
    exact absurd digit (by decide)
  · rfl

/-- The characters of an integer: its digits, after a minus if it is negative. -/
theorem toList_toString (z : Int) : (toString z).toList =
    if z < 0 then '-' :: Nat.toDigits 10 z.natAbs else Nat.toDigits 10 z.natAbs := by
  rw [Int.toString_eq_repr, Int.repr_eq_if]
  by_cases nonneg : 0 ≤ z
  · have magnitude : z.toNat = z.natAbs := by omega
    rw [if_pos nonneg, if_neg (by omega), Nat.toList_repr, magnitude]
  · have magnitude : (-z).toNat = z.natAbs := by omega
    rw [if_neg nonneg, if_pos (by omega), String.toList_append, Nat.toList_repr, magnitude]
    rfl

/-- An integer is read back from its numeral. -/
theorem readInteger?_toString (z : Int) : readInteger? (toString z) = some z := by
  have some_digit : (Nat.toDigits 10 z.natAbs).isEmpty = false :=
    List.isEmpty_eq_false_iff.mpr Nat.toDigits_ne_nil
  rw [readInteger?, toList_toString]
  by_cases negative : z < 0
  · have value : -(z.natAbs : Int) = z := by omega
    simp only [if_pos negative, signed, some_digit, digitsValue?_numeral, Bool.false_eq_true,
      ↓reduceIte]
    exact congrArg some value
  · have value : (z.natAbs : Int) = z := by omega
    simp only [if_neg negative, signed_numeral, some_digit, digitsValue?_numeral, Bool.false_eq_true,
      ↓reduceIte]
    exact congrArg some value

theorem readInt64?_toString {z : Int} (low : -2 ^ 63 ≤ z) (high : z < 2 ^ 63) :
    readInt64? (toString z) = some z := by
  rw [readInt64?, readInteger?_toString, Option.filter_some, if_pos]
  rw [Bool.and_eq_true]
  exact ⟨decide_eq_true low, decide_eq_true high⟩

/-! ### Words -/

open Text (isGraphic isWord)

theorem isGraphic_of_isDigit {c : Char} (digit : c.isDigit = true) : isGraphic c = true := by
  simp only [Char.isDigit, Bool.and_eq_true, decide_eq_true_eq, ge_iff_le,
    UInt32.le_iff_toNat_le] at digit
  simp only [isGraphic, Bool.and_eq_true, decide_eq_true_eq]
  exact ⟨Nat.le_trans (by decide) digit.1, Nat.le_trans digit.2 (by decide)⟩

/-- The numeral of an integer is a word. -/
theorem isWord_toString (z : Int) : isWord (toString z) = true := by
  have graphic : ∀ c ∈ Nat.toDigits 10 z.natAbs, isGraphic c = true :=
    fun c member => isGraphic_of_isDigit (isDigit_numeral member)
  simp only [isWord, toList_toString, Bool.and_eq_true, Bool.not_eq_true', List.isEmpty_eq_false_iff,
    List.all_eq_true]
  by_cases negative : z < 0
  · rw [if_pos negative]
    refine ⟨List.cons_ne_nil _ _, fun c member => ?_⟩
    rcases List.mem_cons.mp member with rfl | digit
    · decide
    · exact graphic c digit
  · rw [if_neg negative]
    exact ⟨Nat.toDigits_ne_nil, graphic⟩

/-- A name made of a letter and a number is a word. -/
theorem isWord_numbered {stem : String} (word : isWord stem = true) (n : Nat) :
    isWord (stem ++ toString n) = true := by
  simp only [isWord, Bool.and_eq_true, Bool.not_eq_true', List.isEmpty_eq_false_iff,
    List.all_eq_true] at word ⊢
  rw [String.toList_append, Nat.toString_eq_repr, Nat.toList_repr]
  refine ⟨List.append_ne_nil_of_left_ne_nil word.1 _, fun c member => ?_⟩
  rcases List.mem_append.mp member with letter | digit
  · exact word.2 c letter
  · exact isGraphic_of_isDigit (isDigit_numeral digit)

/-- Different numbers give different names. -/
theorem numbered_inj {stem : String} {m n : Nat} :
    stem ++ toString m = stem ++ toString n ↔ m = n := by
  refine ⟨fun same => ?_, fun same => by rw [same]⟩
  have digits : Nat.toDigits 10 m = Nat.toDigits 10 n := by
    have spelled := congrArg String.toList same
    rwa [String.toList_append, String.toList_append, List.append_cancel_left_eq, Nat.toString_eq_repr,
      Nat.toString_eq_repr, Nat.toList_repr, Nat.toList_repr] at spelled
  calc m = Nat.ofDigitChars 10 (Nat.toDigits 10 m) 0 := Nat.ofDigitChars_ten_toDigits.symm
    _ = Nat.ofDigitChars 10 (Nat.toDigits 10 n) 0 := by rw [digits]
    _ = n := Nat.ofDigitChars_ten_toDigits

end MixedInteger
