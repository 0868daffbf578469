import TypeBridge.Text.Hex
import TypeBridge.Text.Printable

/-!
Quoted text for messages: whatever the text holds, its quoted form is printable and stays on one
line. The quote is `'`, or `"` if the text holds `'` and no `"`; the quote in use and the backslash
are escaped by a backslash, line feed, carriage return and tab have short escapes, and every other
character that is not printable is written by its code point. Main statement: each character of a
quoted text is printable.
-/

namespace TypeBridge.Text

/-- The quote that a text is written in. -/
def quoteFor (s : Text) : Char := if s.contains '\'' && !s.contains '"' then '"' else '\''

/-- A character that is not printable, by its code point: two, four or eight hexadecimal digits. -/
def codePointEscape (c : Char) : Text :=
  if c.toNat < 0x100 then '\\' :: 'x' :: hex 2 c.toNat
  else if c.toNat < 0x10000 then '\\' :: 'u' :: hex 4 c.toNat
  else '\\' :: 'U' :: hex 8 c.toNat

/-- A character as it is written between two quotes `quote`. -/
def quotedChar (quote c : Char) : Text :=
  if c = quote ∨ c = '\\' then ['\\', c]
  else if c = '\n' then ['\\', 'n']
  else if c = '\r' then ['\\', 'r']
  else if c = '\t' then ['\\', 't']
  else if isPrintable c then [c]
  else codePointEscape c

/-- A text between quotes, in printable characters. -/
def quoted (s : Text) : Text :=
  quoteFor s :: s.flatMap (quotedChar (quoteFor s)) ++ [quoteFor s]

theorem isPrintable_hexDigit : ∀ d < 16, isPrintable (hexDigit d) = true := by decide

theorem isPrintable_of_mem_hex {width n : Nat} {c : Char} (h : c ∈ hex width n) :
    isPrintable c = true := by
  obtain ⟨d, hd, rfl⟩ := mem_hex h
  exact isPrintable_hexDigit d hd

theorem isPrintable_of_mem_quotedChar {quote c d : Char} (hq : isPrintable quote = true)
    (h : d ∈ quotedChar quote c) : isPrintable d = true := by
  have hex_ok : ∀ {x : Char} {width n : Nat}, isPrintable x = true →
      d ∈ '\\' :: x :: hex width n → isPrintable d = true := by
    intro x width n hx hd
    rcases List.mem_cons.1 hd with rfl | hd
    · decide
    · rcases List.mem_cons.1 hd with rfl | hd
      · exact hx
      · exact isPrintable_of_mem_hex hd
  have pair_ok : ∀ {x : Char}, isPrintable x = true → d ∈ ['\\', x] → isPrintable d = true := by
    intro x hx hd
    simp only [List.mem_cons, List.not_mem_nil, or_false] at hd
    rcases hd with rfl | rfl
    · decide
    · exact hx
  unfold quotedChar codePointEscape at h
  split at h
  · rename_i hc
    rcases hc with rfl | rfl
    · exact pair_ok hq h
    · exact pair_ok (by decide) h
  split at h
  · exact pair_ok (by decide) h
  split at h
  · exact pair_ok (by decide) h
  split at h
  · exact pair_ok (by decide) h
  split at h
  · rename_i hc
    simp only [List.mem_singleton] at h
    exact h ▸ hc
  split at h
  · exact hex_ok (by decide) h
  split at h
  · exact hex_ok (by decide) h
  · exact hex_ok (by decide) h

theorem isPrintable_quoteFor (s : Text) : isPrintable (quoteFor s) = true := by
  unfold quoteFor
  split <;> decide

theorem isPrintable_of_mem_quoted {s : Text} {c : Char} (h : c ∈ quoted s) :
    isPrintable c = true := by
  simp only [quoted, List.cons_append, List.mem_cons, List.mem_append, List.mem_flatMap,
    List.not_mem_nil, or_false] at h
  rcases h with rfl | ⟨d, _, hd⟩ | rfl
  · exact isPrintable_quoteFor s
  · exact isPrintable_of_mem_quotedChar (isPrintable_quoteFor s) hd
  · exact isPrintable_quoteFor s

end TypeBridge.Text
