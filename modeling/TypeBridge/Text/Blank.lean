import TypeBridge.Text.Ranges

/-!
White space: the characters that separate words. They are the white-space characters of Unicode
together with the four information separators U+001C to U+001F. Main statement: `strip` leaves a
contiguous part of the text.
-/

namespace TypeBridge.Text

/-- The blanks, by code point. -/
def blankRanges : Ranges :=
  [(0x0009, 0x000D), (0x001C, 0x0020), (0x0085, 0x0085), (0x00A0, 0x00A0), (0x1680, 0x1680),
   (0x2000, 0x200A), (0x2028, 0x2029), (0x202F, 0x202F), (0x205F, 0x205F), (0x3000, 0x3000)]

/-- Whether a character is white space. -/
def isBlank (c : Char) : Bool := blankRanges.contains c

/-- The text without the blanks at its start. -/
def stripStart (s : Text) : Text := s.dropWhile isBlank

/-- The text without the blanks at its end. -/
def stripEnd (s : Text) : Text := (s.reverse.dropWhile isBlank).reverse

/-- The text without the blanks at its ends. -/
def strip (s : Text) : Text := stripEnd (stripStart s)

/-- Whether a text holds nothing but blanks. -/
def isBlankText (s : Text) : Bool := s.all isBlank

theorem stripStart_suffix (s : Text) : stripStart s <:+ s := List.dropWhile_suffix isBlank

theorem stripEnd_isPrefix (s : Text) : stripEnd s <+: s := by
  have h := List.dropWhile_suffix isBlank (l := s.reverse)
  simpa [stripEnd] using List.reverse_prefix.2 h

theorem strip_isInfix (s : Text) : strip s <:+: s :=
  (stripEnd_isPrefix _).isInfix.trans (stripStart_suffix s).isInfix

theorem length_stripStart_le (s : Text) : (stripStart s).length ≤ s.length :=
  (stripStart_suffix s).length_le

theorem length_strip_le (s : Text) : (strip s).length ≤ s.length :=
  (strip_isInfix s).length_le

/-- The words of a text: its longest stretches without a blank. -/
def words (s : Text) : List Text := (List.splitOnP isBlank s).filter fun piece => !piece.isEmpty

/-- The words of a text with one space between neighbours. -/
def collapse (s : Text) : Text := [' '].intercalate (words s)

end TypeBridge.Text
