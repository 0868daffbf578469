import TypeBridge.Text.Basic

/-!
Brackets in type text. Three kinds group: `<>`, `()` and `[]`. The `>` of an arrow `->` closes
nothing, so what a character does depends on the character directly before it, and every scan of
type text carries that character along.
-/

namespace TypeBridge

/-- The kinds of brackets that group type text. -/
inductive Bracket where
  | angle
  | round
  | square
  deriving DecidableEq, Repr

namespace Bracket

/-- The character that opens a group. -/
def opener : Bracket → Char
  | angle => '<'
  | round => '('
  | square => '['

/-- The character that closes a group. -/
def closer : Bracket → Char
  | angle => '>'
  | round => ')'
  | square => ']'

end Bracket

/-- What a character does to the nesting of type text. -/
inductive Mark where
  | opens (bracket : Bracket)
  | closes (bracket : Bracket)
  | neutral
  deriving DecidableEq, Repr

/-- Whether a character is the head of an arrow, given the character directly before it. -/
def isArrowHead (before : Option Char) (c : Char) : Bool := c == '>' && before == some '-'

/-- What a character does, given the character directly before it. -/
def markOf (before : Option Char) (c : Char) : Mark :=
  if c = '<' then .opens .angle
  else if c = '(' then .opens .round
  else if c = '[' then .opens .square
  else if c = '>' then if before = some '-' then .neutral else .closes .angle
  else if c = ')' then .closes .round
  else if c = ']' then .closes .square
  else .neutral

namespace Mark

/-- The change of depth that a mark makes. -/
def delta : Mark → Int
  | opens _ => 1
  | closes _ => -1
  | neutral => 0

end Mark

@[simp] theorem markOf_opener (before : Option Char) : ∀ bracket : Bracket,
    markOf before bracket.opener = .opens bracket
  | .angle => rfl
  | .round => rfl
  | .square => rfl

theorem markOf_closer (before : Option Char) : ∀ bracket : Bracket,
    isArrowHead before bracket.closer = false → markOf before bracket.closer = .closes bracket
  | .angle, h => by
    have h : before ≠ some '-' := by simpa [isArrowHead, Bracket.closer] using h
    simp [markOf, Bracket.closer, h]
  | .round, _ => rfl
  | .square, _ => rfl

theorem markOf_eq_opens_iff {before : Option Char} {c : Char} {bracket : Bracket} :
    markOf before c = .opens bracket ↔ c = bracket.opener := by
  constructor
  · intro h
    unfold markOf at h
    repeat' split at h
    all_goals first
      | contradiction
      | (simp only [Mark.opens.injEq] at h; subst h; assumption)
  · rintro rfl
    exact markOf_opener before bracket

theorem markOf_eq_closes_iff {before : Option Char} {c : Char} {bracket : Bracket} :
    markOf before c = .closes bracket ↔ c = bracket.closer ∧ isArrowHead before c = false := by
  constructor
  · intro h
    unfold markOf at h
    repeat' split at h
    all_goals first
      | contradiction
      | (simp only [Mark.closes.injEq] at h; subst h; subst_vars
         refine ⟨rfl, ?_⟩
         simp_all [isArrowHead])
  · rintro ⟨rfl, h⟩
    exact markOf_closer before bracket h

end TypeBridge
