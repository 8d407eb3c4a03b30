/-!
Lines of a byte stream. A line ends at a newline, which is not part of it, and
neither is a carriage return right before the newline; what follows the last newline
is a line unless it is empty. Lines are decoded one at a time, so that a malformed
line matters only to who reads that far.
-/
namespace MixedInteger.Text

/-- Cut a byte stream after each newline. -/
def pieces : List UInt8 → List (List UInt8)
  | [] => []
  | byte :: rest =>
    if byte = 10 then [byte] :: pieces rest
    else
      match pieces rest with
      | piece :: others => (byte :: piece) :: others
      | [] => [[byte]]

/-- A piece without the newline at its end, and without a carriage return before
that. -/
def stripEnd : List UInt8 → List UInt8
  | [] => []
  | [10] => []
  | [13, 10] => []
  | byte :: rest => byte :: stripEnd rest

/-- The lines of a byte stream; a line that is not valid UTF-8 has no text. -/
def lines (bytes : ByteArray) : List (Option String) :=
  (pieces bytes.toList).map fun piece => String.fromUTF8? ⟨(stripEnd piece).toArray⟩

end MixedInteger.Text
