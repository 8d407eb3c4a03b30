import MixedInteger.Number.Decimal

/-!
Numbers as a model states them: exact rationals and binary64 values side by side.
A number remembers which of the two it is, and the arithmetic of a solve is chosen
from that.
-/
namespace MixedInteger

/-- A value of a model: an exact rational or a binary64 number. -/
inductive Number where
  | exact (value : Rat)
  | float (value : Binary64)

namespace Number

def zero : Number := .exact 0

def ofInt (z : Int) : Number := .exact z

/-- The exact quotient of two integers; there is none by zero. -/
def ratio? (numer denom : Int) : Option Number :=
  if denom = 0 then none else some (.exact (Rat.divInt numer denom))

def isExact : Number → Bool
  | exact _ => true
  | float _ => false

def isFinite : Number → Bool
  | exact _ => true
  | float x => x.isFinite

def isNaN : Number → Bool
  | exact _ => false
  | float x => x.isNaN

def isZero : Number → Bool
  | exact q => q == 0
  | float x => x == .zero

def toBinary64 : Number → Binary64
  | exact q => nearestBinary64 q
  | float x => x

/-- The negated number, of the same kind. -/
def neg : Number → Number
  | exact q => exact (-q)
  | float x => float (-x)

/-- The sum, exact when both summands are. -/
def add : Number → Number → Number
  | exact p, exact q => exact (p + q)
  | p, q => float (p.toBinary64 + q.toBinary64)

/-- The number without its sign; a negative zero stays as it is. -/
def abs (x : Number) : Number := if x.toBinary64.lt .zero then x.neg else x

/-- Equality of value within one kind; numbers of different kinds differ. -/
def same : Number → Number → Bool
  | exact p, exact q => p == q
  | float x, float y => x == y
  | _, _ => false

/-- A rational as `n` or `n/d`. -/
def rationalText (q : Rat) : String :=
  if q.den = 1 then toString q.num else toString q.num ++ "/" ++ toString q.den

/-- The number as a reader would write it. -/
def text : Number → String
  | exact q => rationalText q
  | float x => x.write .plain

/-- The number with its representation showing, for diagnostics. -/
def detail : Number → String
  | exact q =>
    "Ratio \x7b numer: " ++ toString q.num ++ ", denom: " ++ toString q.den ++ " \x7d"
  | float x => x.write .detailed

end Number

/-- Which arithmetic a solve runs in. -/
inductive Precision where
  | exact
  | float
  /-- Exact arithmetic if every number of the model is exact. -/
  | auto
  deriving DecidableEq

/-- Whether a model with these numbers is solved in exact arithmetic. -/
def Precision.usesExact (precision : Precision) (numbers : List Number) : Bool :=
  match precision with
  | .exact => true
  | .float => false
  | .auto => numbers.all Number.isExact

end MixedInteger
