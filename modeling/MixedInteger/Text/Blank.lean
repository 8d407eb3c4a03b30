import MixedInteger.Text.Spans

/-!
Blanks and words. The blanks are the characters with the Unicode property
`White_Space`; words are the longest runs of other characters.
-/
namespace MixedInteger.Text

/-- The code points with the property `White_Space`, as inclusive spans. -/
def blankSpans : List (Nat × Nat) :=
  [(0x09, 0x0d), (0x20, 0x20), (0x85, 0x85), (0xa0, 0xa0), (0x1680, 0x1680), (0x2000, 0x200a),
    (0x2028, 0x2029), (0x202f, 0x202f), (0x205f, 0x205f), (0x3000, 0x3000)]

def isBlank (c : Char) : Bool := inSpans blankSpans c

/-- The words of a line, in order. -/
def words : List Char → List (List Char)
  | [] => []
  | c :: rest =>
    if isBlank c then words rest
    else if rest.head?.all isBlank then [c] :: words rest
    else
      match words rest with
      | word :: others => (c :: word) :: others
      | [] => [[c]]

end MixedInteger.Text
