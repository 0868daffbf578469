import TypeBridge.Text.Hex

/-!
JSON text in ASCII: strings in which every character outside U+0020 to U+007E is escaped, characters
above U+FFFF as a pair of UTF-16 surrogates, and objects, with one space after each comma and
colon. Main statement: encoded text holds characters from U+0020 to U+007E
only, so it stays on one line.
-/

namespace TypeBridge.Json

/-- The escape of a UTF-16 unit. -/
def unitEscape (unit : Nat) : Text := '\\' :: 'u' :: Text.hex 4 unit

/-- A character as it is written inside a JSON string. -/
def encodeChar (c : Char) : Text :=
  if c = '"' then ['\\', '"']
  else if c = '\\' then ['\\', '\\']
  else if c = '\n' then ['\\', 'n']
  else if c = '\r' then ['\\', 'r']
  else if c = '\t' then ['\\', 't']
  else if c = '\x08' then ['\\', 'b']
  else if c = '\x0c' then ['\\', 'f']
  else if 0x20 ≤ c.toNat ∧ c.toNat ≤ 0x7E then [c]
  else if c.toNat < 0x10000 then unitEscape c.toNat
  else
    unitEscape (0xD800 + (c.toNat - 0x10000) / 0x400)
      ++ unitEscape (0xDC00 + (c.toNat - 0x10000) % 0x400)

/-- A text as a JSON string. -/
def encodeString (s : Text) : Text := '"' :: s.flatMap encodeChar ++ ['"']

/-- The array without elements. -/
def emptyArray : Text := ['[', ']']

/-- A member of an object; its value is JSON text. -/
def encodeMember (key value : Text) : Text := encodeString key ++ ": ".toList ++ value

/-- An object; the values of its members are JSON text. -/
def encodeObject (members : List (Text × Text)) : Text :=
  '\x7b' :: ", ".toList.intercalate (members.map fun m => encodeMember m.1 m.2) ++ ['\x7d']

/-- An object whose members are strings. -/
def encodeStrings (members : List (Text × Text)) : Text :=
  encodeObject (members.map fun m => (m.1, encodeString m.2))

/-! ### The characters of encoded text -/

/-- Whether a character is one of U+0020 to U+007E. -/
def isPlain (c : Char) : Bool := 0x20 ≤ c.toNat && c.toNat ≤ 0x7E

theorem isPlain_hexDigit : ∀ d < 16, isPlain (Text.hexDigit d) = true := by decide

theorem isPlain_of_mem_unitEscape {unit : Nat} {c : Char} (h : c ∈ unitEscape unit) :
    isPlain c = true := by
  simp only [unitEscape, List.mem_cons] at h
  rcases h with rfl | rfl | h
  · decide
  · decide
  · obtain ⟨d, hd, rfl⟩ := Text.mem_hex h
    exact isPlain_hexDigit d hd

theorem isPlain_of_mem_encodeChar {c d : Char} (h : d ∈ encodeChar c) : isPlain d = true := by
  have pair : ∀ {a b : Char}, isPlain a = true → isPlain b = true → d ∈ [a, b] →
      isPlain d = true := by
    intro a b ha hb hd
    simp only [List.mem_cons, List.not_mem_nil, or_false] at hd
    rcases hd with rfl | rfl
    · exact ha
    · exact hb
  unfold encodeChar at h
  iterate 7
    split at h
    · exact pair (by decide) (by decide) h
  split at h
  · rename_i hc
    simp only [List.mem_singleton] at h
    simp [isPlain, h, hc]
  split at h
  · exact isPlain_of_mem_unitEscape h
  · rcases List.mem_append.1 h with h | h <;> exact isPlain_of_mem_unitEscape h

theorem isPlain_of_mem_encodeString {s : Text} {c : Char} (h : c ∈ encodeString s) :
    isPlain c = true := by
  simp only [encodeString, List.cons_append, List.mem_cons, List.mem_append, List.mem_flatMap,
    List.not_mem_nil, or_false] at h
  rcases h with rfl | ⟨d, _, hd⟩ | rfl
  · decide
  · exact isPlain_of_mem_encodeChar hd
  · decide

end TypeBridge.Json
