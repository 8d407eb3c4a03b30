/-!
Classes of characters given by spans of code points.
-/
namespace MixedInteger.Text

/-- Whether the code point of a character lies in one of the inclusive spans. -/
def inSpans (spans : List (Nat × Nat)) (c : Char) : Bool :=
  spans.any fun (first, last) => first ≤ c.toNat && c.toNat ≤ last

end MixedInteger.Text
