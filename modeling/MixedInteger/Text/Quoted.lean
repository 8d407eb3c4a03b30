import MixedInteger.Text.Extender
import MixedInteger.Text.Ignorable
import MixedInteger.Text.Printable

/-!
Quoted text: between double quotes, with a backslash before quotes and backslashes,
names for the common controls, and the code point of every other character that a
reader could not see: one that is not printable, leaves no mark, or is drawn as part
of the one before it.
-/
namespace MixedInteger.Text

/-- A character given by its code point, in hexadecimal. -/
def codePoint (c : Char) : List Char :=
  ['\\', 'u', '\x7b'] ++ Nat.toDigits 16 c.toNat ++ ['\x7d']

/-- Whether a reader sees a character as one of its own. -/
def isSeen (c : Char) : Bool := isPrintable c && !isIgnorable c && !isAttached c

/-- A character as it stands inside of quotes. -/
def escaped (c : Char) : List Char :=
  match c with
  | '"' => ['\\', '"']
  | '\\' => ['\\', '\\']
  | '\n' => ['\\', 'n']
  | '\r' => ['\\', 'r']
  | '\t' => ['\\', 't']
  | '\x00' => ['\\', '0']
  | other => if isSeen other then [other] else codePoint other

/-- The text between quotes. -/
def quoted (text : String) : String :=
  String.ofList ('"' :: text.toList.flatMap escaped ++ ['"'])

end MixedInteger.Text
