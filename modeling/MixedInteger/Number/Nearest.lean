import MixedInteger.Number.Binary64

/-!
The binary64 number nearest to an exact value, with ties going to the even
significand and magnitudes past the largest finite number going to infinity.
Everything that enters the floating world (integers, rationals, decimal
numerals) passes through `Binary64.ofFraction`.
-/
namespace MixedInteger

/-- The integer nearest to `n / d`, an even one if two are equally near. -/
def roundedQuotient (n d : Nat) : Nat :=
  let quotient := n / d
  let twice := 2 * (n % d)
  if twice < d then quotient
  else if d < twice then quotient + 1
  else quotient + quotient % 2

namespace Binary64

/-- A word read as a magnitude, with everything from the first infinity upward
taken as infinity. -/
def ofWord (negative : Bool) (word : Nat) : Binary64 :=
  let magnitude : Binary64 := ⟨UInt64.ofNat (min word 0x7ff0000000000000)⟩
  if negative then magnitude.neg else magnitude

/-- The nearest number to `n / d`, negated if asked; `d` is not zero.

The unit exponent is chosen so that the significand has 53 bits, or is the least
one for subnormal results. A significand that rounds up to `2 ^ 53` carries into
the exponent field by itself. -/
def ofFraction (negative : Bool) (n d : Nat) : Binary64 :=
  if n = 0 then ofWord negative 0
  else
    let unit (e : Int) : Nat × Nat :=
      if 0 ≤ e then (n, d * Nat.pow 2 e.toNat) else (n * Nat.pow 2 (-e).toNat, d)
    let guess : Int := (n.log2 : Int) - d.log2 - 52
    let full := (unit guess).1 / (unit guess).2
    let normal := if full < Nat.pow 2 52 then guess - 1 else guess
    let exponent := max normal (-1074)
    let significand := roundedQuotient (unit exponent).1 (unit exponent).2
    let field := (exponent + 1074).toNat
    ofWord negative (field * Nat.pow 2 52 + significand)

/-- The nearest number to an integer. -/
def ofInt (z : Int) : Binary64 := ofFraction (decide (z < 0)) z.natAbs 1

def ofNat (n : Nat) : Binary64 := ofFraction false n 1

/-- Read a finite number as an integer by `toInt`; a zero keeps its sign, and an
infinity or a NaN stays what it is. -/
def mapIntegral (toInt : Rat → Int) (x : Binary64) : Binary64 :=
  match x.toRat? with
  | none => x
  | some value =>
    let z := toInt value
    if z = 0 then zeroLike x else ofInt z

protected def floor : Binary64 → Binary64 := mapIntegral Rat.floor

protected def ceil : Binary64 → Binary64 := mapIntegral Rat.ceil

/-- The nearest integer, halves going away from zero. -/
protected def round : Binary64 → Binary64 :=
  mapIntegral fun q => if q < 0 then -(-q + mkRat 1 2).floor else (q + mkRat 1 2).floor

/-- The natural number below a number, held inside `[0, 2 ^ 64)`; a NaN is zero. -/
def toUInt64Saturating (x : Binary64) : Nat :=
  match x.toRat? with
  | some value => min value.floor.toNat (Nat.pow 2 64 - 1)
  | none => if x.isNaN || x.signBit then 0 else Nat.pow 2 64 - 1

end Binary64

/-- A rational as a binary64 number.

Numerator and denominator are converted on their own and divided. Where one of
them is past the largest finite number, the whole part is split off first and the
remaining proper fraction is converted the same way. -/
def nearestBinary64 (q : Rat) : Binary64 :=
  let numerator := Binary64.ofInt q.num
  let denominator := Binary64.ofNat q.den
  if numerator.isFinite && denominator.isFinite then numerator / denominator
  else
    let whole := Binary64.ofInt (q.num.tdiv q.den)
    let part := mkRat (q.num.tmod q.den) q.den
    whole + Binary64.ofInt part.num / Binary64.ofNat part.den

end MixedInteger
