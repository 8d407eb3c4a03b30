import MixedInteger.Text.Blank
import MixedInteger.Text.Lines
import Mathlib.Data.List.Basic

/-! Plain text falls apart the way it was put together. Lines of ASCII characters that are
joined with newlines are the lines of the text, and words of visible characters that are joined
with blanks are the words of the line. -/
namespace MixedInteger.Text

/-- A visible ASCII character. -/
def isGraphic (c : Char) : Bool := 33 ≤ c.toNat && c.toNat ≤ 126

/-- A nonempty string of visible characters. -/
def isWord (word : String) : Bool := !word.toList.isEmpty && word.toList.all isGraphic

/-- A line of visible ASCII characters and spaces. -/
def isPlain (line : String) : Bool := line.toList.all fun c => 32 ≤ c.toNat && c.toNat ≤ 126

/-! ### Words -/

theorem isBlank_eq_false {c : Char} (graphic : isGraphic c = true) : isBlank c = false := by
  simp only [isGraphic, Bool.and_eq_true, decide_eq_true_eq] at graphic
  simp only [isBlank, inSpans, blankSpans, List.any_cons, List.any_nil, Bool.or_false,
    Bool.or_eq_false_iff, Bool.and_eq_false_iff, decide_eq_false_iff_not]
  omega

/-- A word that is followed by a blank, or by nothing, is read as a word. -/
theorem words_append {word rest : List Char} (nonempty : word ≠ [])
    (graphic : ∀ c ∈ word, isGraphic c = true) (ends : rest.head?.all isBlank = true) :
    words (word ++ rest) = word :: words rest := by
  induction word with
  | nil => exact absurd rfl nonempty
  | cons c word ih =>
    have visible := isBlank_eq_false (graphic c List.mem_cons_self)
    rw [List.cons_append, words, visible, if_neg Bool.false_ne_true]
    cases word with
    | nil => rw [List.nil_append, if_pos ends]
    | cons d word =>
      have next := isBlank_eq_false (graphic d (by simp))
      rw [ih (List.cons_ne_nil d word) fun e member => graphic e (List.mem_cons_of_mem c member)]
      simp [next]

theorem words_intercalate {parts : List String} (all : ∀ part ∈ parts, isWord part = true) :
    (words (" ".intercalate parts).toList).map String.ofList = parts := by
  induction parts with
  | nil => simp [words]
  | cons part parts ih =>
    have word := all part List.mem_cons_self
    simp only [isWord, Bool.and_eq_true, Bool.not_eq_true', List.isEmpty_eq_false_iff,
      List.all_eq_true] at word
    have rest := ih fun other member => all other (List.mem_cons_of_mem part member)
    cases parts with
    | nil =>
      have alone : words (part.toList ++ []) = part.toList :: words [] :=
        words_append word.1 word.2 rfl
      rw [List.append_nil] at alone
      simp [alone, words]
    | cons next parts =>
      rw [String.intercalate_cons_cons, String.toList_append, String.toList_append, List.append_assoc,
        words_append word.1 word.2 (by simp [isBlank, inSpans, blankSpans]), List.map_cons,
        String.ofList_toList]
      exact congrArg (part :: ·) rest

theorem isPlain_append {first second : String} (left : isPlain first = true)
    (right : isPlain second = true) : isPlain (first ++ second) = true := by
  rw [isPlain, String.toList_append, List.all_append, Bool.and_eq_true]
  exact ⟨left, right⟩

theorem isPlain_of_isWord {word : String} (graphic : isWord word = true) :
    isPlain word = true := by
  rw [isWord, Bool.and_eq_true, List.all_eq_true] at graphic
  refine List.all_eq_true.mpr fun c member => ?_
  have visible := graphic.2 c member
  simp only [isGraphic, Bool.and_eq_true, decide_eq_true_eq] at visible ⊢
  omega

theorem isPlain_intercalate {parts : List String} (all : ∀ part ∈ parts, isWord part = true) :
    isPlain (" ".intercalate parts) = true := by
  induction parts with
  | nil => rfl
  | cons part parts ih =>
    have first := isPlain_of_isWord (all part List.mem_cons_self)
    have rest := ih fun other member => all other (List.mem_cons_of_mem part member)
    cases parts with
    | nil => rwa [String.intercalate_singleton]
    | cons next parts =>
      rw [String.intercalate_cons_cons]
      exact isPlain_append (isPlain_append first (by decide)) rest

/-! ### Lines -/

/-- The bytes of a string. -/
def bytes (text : String) : List UInt8 := text.toByteArray.data.toList

theorem toList_eq_data (array : ByteArray) : array.toList = array.data.toList := by
  have loop : ∀ (start : Nat) (done : List UInt8),
      ByteArray.toList.loop array start done = done.reverse ++ array.data.toList.drop start := by
    intro start done
    fun_induction ByteArray.toList.loop array start done with
    | case1 start done inside ih =>
      have reach : start < array.data.toList.length := by simpa using inside
      rw [ih, List.drop_eq_getElem_cons reach]
      simp [ByteArray.get!, inside]
    | case2 start done outside =>
      rw [List.drop_eq_nil_of_le (by simpa using Nat.le_of_not_lt outside)]
      simp
  rw [ByteArray.toList, loop]
  rfl

theorem bytes_append (first second : String) :
    bytes (first ++ second) = bytes first ++ bytes second := by
  rw [bytes, String.toByteArray_append, ByteArray.toList_data_append]
  rfl

theorem fromUTF8?_bytes (text : String) : String.fromUTF8? ⟨(bytes text).toArray⟩ = some text := by
  rw [bytes, Array.toArray_toList]
  exact dif_pos text.isValidUTF8

/-- A plain line holds no byte of a line end. -/
theorem not_mem_bytes {line : String} (plain : isPlain line = true) :
    (10 : UInt8) ∉ bytes line ∧ (13 : UInt8) ∉ bytes line := by
  have spell : bytes line = line.toList.flatMap String.utf8EncodeChar := by
    rw [bytes, ← String.utf8Encode_toList, List.utf8Encode, List.toList_data_toByteArray]
  have range : ∀ byte ∈ bytes line, 32 ≤ byte.toNat := by
    intro byte member
    rw [spell, List.mem_flatMap] at member
    obtain ⟨c, there, member⟩ := member
    have span := List.all_eq_true.mp plain c there
    simp only [Bool.and_eq_true, decide_eq_true_eq] at span
    have short : c.utf8Size = 1 := by
      rw [Char.utf8Size_eq_one_iff, UInt32.le_iff_toNat_le]
      exact Nat.le_trans span.2 (by decide)
    rw [String.utf8EncodeChar_eq_singleton short, List.mem_singleton] at member
    have value : byte.toNat = c.toNat % 256 := by
      rw [member]
      rfl
    omega
  constructor
  · intro member
    exact absurd (range 10 member) (by decide)
  · intro member
    exact absurd (range 13 member) (by decide)

theorem pieces_line {line : List UInt8} (within : (10 : UInt8) ∉ line) (rest : List UInt8) :
    pieces (line ++ 10 :: rest) = (line ++ [10]) :: pieces rest := by
  induction line with
  | nil => rfl
  | cons byte line ih =>
    obtain ⟨different, within⟩ := List.ne_and_not_mem_of_not_mem_cons within
    rw [List.cons_append, pieces, if_neg (Ne.symm different), ih within]
    rfl

theorem stripEnd_line {line : List UInt8} (newline : (10 : UInt8) ∉ line)
    (carriage : (13 : UInt8) ∉ line) : stripEnd (line ++ [10]) = line := by
  induction line with
  | nil => rfl
  | cons byte line ih =>
    obtain ⟨first, newline⟩ := List.ne_and_not_mem_of_not_mem_cons newline
    obtain ⟨second, carriage⟩ := List.ne_and_not_mem_of_not_mem_cons carriage
    rw [List.cons_append, stripEnd, ih newline carriage]
    · exact fun same _ => first same.symm
    · exact fun same _ => second same.symm

/-- Plain lines, each ended by a newline, are the lines of the text. -/
theorem lines_join {texts : List String} (plain : ∀ text ∈ texts, isPlain text = true) :
    lines (String.join (texts.map (· ++ "\n"))).toUTF8 = texts.map some := by
  have split : pieces (bytes (String.join (texts.map (· ++ "\n")))) =
      texts.map fun text => bytes text ++ [10] := by
    induction texts with
    | nil => rfl
    | cons text texts ih =>
      have clean := not_mem_bytes (plain text List.mem_cons_self)
      have rest := ih fun other member => plain other (List.mem_cons_of_mem text member)
      rw [List.map_cons, String.join_cons, bytes_append, bytes_append, List.append_assoc, List.map_cons,
        ← rest]
      exact pieces_line clean.1 _
  rw [lines, String.toUTF8_eq_toByteArray, toList_eq_data]
  refine (congrArg _ split).trans ?_
  rw [List.map_map]
  refine List.map_congr_left fun text member => ?_
  obtain ⟨newline, carriage⟩ := not_mem_bytes (plain text member)
  rw [Function.comp_apply, stripEnd_line newline carriage, fromUTF8?_bytes]

end MixedInteger.Text
