import MixedInteger.Number.Nearest

/-!
Decimal numerals of binary64 numbers: the fewest digits that read back as the
same number, the exact value rounded to a fixed number of places, and the reading
of a numeral. A style record says how digits become text.
-/
namespace MixedInteger

/-- A decimal significand and exponent: `digits * 10 ^ exponent`. -/
structure Decimal where
  digits : Nat
  exponent : Int

namespace Decimal

/-- The greatest `e` with `10 ^ e ≤ n / d`, for positive `n` and `d`.

The binary lengths give an estimate that is at most two below it. -/
def decade (n d : Nat) : Int :=
  let reaches (e : Int) : Bool :=
    if 0 ≤ e then Nat.pow 10 e.toNat * d ≤ n else d ≤ n * Nat.pow 10 (-e).toNat
  let estimate := ((n.log2 : Int) - d.log2 - 1) * 30103 / 100000
  if reaches (estimate + 2) then estimate + 2
  else if reaches (estimate + 1) then estimate + 1
  else if reaches estimate then estimate
  else estimate - 1

/-- The interval of reals that round to a positive finite number, as numerators
over one denominator: low end, the number itself, high end. -/
def interval (x : Binary64) : Nat × Nat × Nat × Nat :=
  let below := if x.fractionField == 0 && x.exponentField > 1 then 1 else 2
  let (n, d) := x.magnitude
  let unit := if 0 ≤ x.unitExponent then Nat.pow 2 x.unitExponent.toNat else 1
  (4 * n - below * unit, 4 * n, 4 * n + 2 * unit, 4 * d)

/-- Of the two decimals of `count` digits around a positive finite number, the
one that reads back as it; the nearer one if both do, and the greater one if they
are equally near. -/
def candidate (x : Binary64) (count : Nat) : Option Decimal :=
  let (low, value, high, d) := interval x
  let exponent := decade value d + 1 - count
  let scale (n : Nat) : Nat × Nat :=
    if 0 ≤ exponent then (n, d * Nat.pow 10 exponent.toNat)
    else (n * Nat.pow 10 (-exponent).toNat, d)
  let unit := (scale value).2
  let down := (scale value).1 / unit
  let closed := x.significand % 2 == 0
  let inside (digits : Nat) : Bool :=
    let point := digits * unit
    if closed then (scale low).1 ≤ point && point ≤ (scale high).1
    else (scale low).1 < point && point < (scale high).1
  let nearerDown := 2 * (scale value).1 < (2 * down + 1) * unit
  -- Rounding up may reach the next power of ten, which has one digit.
  let up : Decimal :=
    if down + 1 = Nat.pow 10 count then ⟨1, exponent + count⟩ else ⟨down + 1, exponent⟩
  match inside down, inside (down + 1) with
  | true, true => some (if nearerDown then ⟨down, exponent⟩ else up)
  | true, false => some ⟨down, exponent⟩
  | false, true => some up
  | false, false => none

/-- The first candidate from `count` digits upward. -/
def shortestFrom (x : Binary64) (count : Nat) : Nat → Decimal
  | 0 => ⟨0, 0⟩
  | fuel + 1 => (candidate x count).getD (shortestFrom x (count + 1) fuel)

/-- The fewest digits that read back as the magnitude of a finite number.
Seventeen digits always do. -/
def shortest (x : Binary64) : Decimal :=
  if x.significand == 0 then ⟨0, 0⟩ else shortestFrom x.abs 1 17

end Decimal

/-- The decimal digits of a natural number. -/
def numeral (n : Nat) : List Char := Nat.toDigits 10 n

/-- Digits with a point before the last `places` of them. -/
def pointed (digits : Nat) (places : Nat) : String :=
  let text := numeral digits
  let padded := List.replicate (places + 1 - text.length) '0' ++ text
  let whole := padded.take (padded.length - places)
  if places = 0 then String.ofList whole
  else String.ofList (whole ++ '.' :: padded.drop (padded.length - places))

/-- Which magnitudes are written with an exponent, and what an integral number
carries after its digits. -/
structure NumeralStyle where
  /-- Magnitudes of at least `10 ^ upTo` use an exponent. -/
  upTo : Option Int
  /-- Nonzero magnitudes below `10 ^ downTo` use an exponent. -/
  downTo : Option Int
  /-- What follows an integral numeral. -/
  integralTail : String

namespace NumeralStyle

/-- Plain digits, never an exponent and no point on integral numbers. -/
def plain : NumeralStyle := ⟨none, none, ""⟩

/-- Digits that show a floating value: a point on integral numbers, and an
exponent from `10 ^ 16` upward and below `10 ^ -4`. -/
def detailed : NumeralStyle := ⟨some 16, some (-4), ".0"⟩

end NumeralStyle

namespace Binary64

/-- Write the shortest digits in a style; special values have fixed names. -/
def write (style : NumeralStyle) (x : Binary64) : String :=
  if x.isNaN then "NaN"
  else
    let sign := if x.signBit then "-" else ""
    if !x.isFinite then sign ++ "inf"
    else
      let decimal := Decimal.shortest x
      let digits := String.ofList (numeral decimal.digits)
      let order := decimal.exponent + digits.length - 1
      let scientific := decimal.digits != 0 &&
        (style.upTo.any (· ≤ order) || style.downTo.any (order < ·))
      if scientific then
        let tail := digits.drop 1
        let point := if tail.isEmpty then "" else "."
        sign ++ digits.take 1 ++ point ++ tail ++ "e" ++ toString order
      else if 0 ≤ decimal.exponent then
        sign ++ toString (decimal.digits * Nat.pow 10 decimal.exponent.toNat) ++ style.integralTail
      else
        sign ++ pointed decimal.digits (-decimal.exponent).toNat

/-- The exact value rounded to `places` decimals, ties to even. -/
def fixed (places : Nat) (x : Binary64) : String :=
  if x.isNaN then "NaN"
  else
    let sign := if x.signBit then "-" else ""
    if !x.isFinite then sign ++ "inf"
    else
      let (n, d) := x.magnitude
      sign ++ pointed (roundedQuotient (n * Nat.pow 10 places) d) places

end Binary64

/-! ### Reading numerals -/

/-- The value of a digit string, most significant first; `none` unless every
character is a decimal digit. -/
def digitsValue? (text : List Char) : Option Nat :=
  text.foldl (fun total c => do
    let value ← total
    if c.isDigit then some (10 * value + (c.toNat - 48)) else none) (some 0)

/-- Split a leading sign off; the flag says whether it was a minus. -/
def signed : List Char → Bool × List Char
  | '-' :: rest => (true, rest)
  | '+' :: rest => (false, rest)
  | text => (false, text)

/-- A nonempty digit string after an optional sign. -/
def readInteger? (text : String) : Option Int :=
  let (negative, digits) := signed text.toList
  if digits.isEmpty then none
  else (digitsValue? digits).map fun n => if negative then -(n : Int) else (n : Int)

/-- An integer numeral within the 64-bit signed range. -/
def readInt64? (text : String) : Option Int :=
  (readInteger? text).filter fun z => -(Nat.pow 2 63) ≤ z && z < Nat.pow 2 63

/-- A natural numeral below `2 ^ 64`; a plus sign is accepted, a minus is not. -/
def readUInt64? (text : String) : Option Nat :=
  let digits := match text.toList with
    | '+' :: rest => rest
    | plain => plain
  if digits.isEmpty then none else (digitsValue? digits).filter (· < Nat.pow 2 64)

namespace Binary64

/-- The nearest number to `digits * 10 ^ exponent`. Exponents far outside the
range of the format decide the result without being carried out. -/
def ofDecimal (negative : Bool) (digits : Nat) (exponent : Int) : Binary64 :=
  let order := exponent + (numeral digits).length
  if digits = 0 || order < -400 then ofFraction negative 0 1
  else if 400 < order then if negative then infinity.neg else infinity
  else if 0 ≤ exponent then ofFraction negative (digits * Nat.pow 10 exponent.toNat) 1
  else ofFraction negative digits (Nat.pow 10 (-exponent).toNat)

/-- The exponent part of a numeral: nothing, or `e` with a signed digit string. -/
def readExponent? : List Char → Option Int
  | [] => some 0
  | mark :: rest =>
    if mark == 'e' || mark == 'E' then readInteger? (String.ofList rest) else none

/-- Read digits with an optional point and an optional exponent. -/
def readDigits? (negative : Bool) (text : List Char) : Option Binary64 := do
  let whole := text.takeWhile Char.isDigit
  let rest := text.dropWhile Char.isDigit
  let (part, rest) := match rest with
    | '.' :: after => (after.takeWhile Char.isDigit, after.dropWhile Char.isDigit)
    | other => ([], other)
  if whole.isEmpty && part.isEmpty then none
  else
    let exponent ← readExponent? rest
    let digits ← digitsValue? (whole ++ part)
    return ofDecimal negative digits (exponent - part.length)

/-- Read a numeral: a signed decimal, or `inf`, `infinity` or `nan` in any case. -/
def read? (text : String) : Option Binary64 :=
  let (negative, body) := signed text.toList
  let value (x : Binary64) : Option Binary64 := some (if negative then x.neg else x)
  match String.ofList (body.map Char.toLower) with
  | "inf" => value infinity
  | "infinity" => value infinity
  | "nan" => value invalid.neg
  | _ => readDigits? negative body

end Binary64

end MixedInteger
