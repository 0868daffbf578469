import TypeBridge.Text.Basic

/-!
Identifiers: an ASCII letter or underscore, then ASCII letters, digits and underscores. Main
statement: `cutIdent?` takes the longest identifier at the start of a text and loses nothing.
-/

namespace TypeBridge.Text

/-- Whether a character can begin an identifier. -/
def isIdentStart (c : Char) : Bool := c.isAlpha || c == '_'

/-- Whether a character can stand in an identifier after its first. -/
def isIdentChar (c : Char) : Bool := c.isAlphanum || c == '_'

/-- Whether a text is an identifier. -/
def isIdent : Text → Bool
  | [] => false
  | c :: s => isIdentStart c && s.all isIdentChar

/-- The longest identifier at the start of a text, and the text after it. -/
def cutIdent? : Text → Option (Text × Text)
  | [] => none
  | c :: s =>
    if isIdentStart c then some (c :: s.takeWhile isIdentChar, s.dropWhile isIdentChar) else none

theorem cutIdent?_eq_some {s ident rest : Text} (h : cutIdent? s = some (ident, rest)) :
    s = ident ++ rest ∧ isIdent ident = true := by
  cases s with
  | nil => simp [cutIdent?] at h
  | cons c s =>
    by_cases hc : isIdentStart c = true
    · simp only [cutIdent?, hc, if_true, Option.some.injEq, Prod.mk.injEq] at h
      obtain ⟨rfl, rfl⟩ := h
      simp [isIdent, hc]
    · simp [cutIdent?, hc] at h

end TypeBridge.Text
