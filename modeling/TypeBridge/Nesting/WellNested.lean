import TypeBridge.Nesting.Bracket

/-!
Well-nested text: read from left to right, every closer matches the innermost open bracket, and no
bracket stays open. The head of an arrow is no closer. Main statement: the brackets open after two
texts one after the other are those open after the second, if it is read from where the first ends.
-/

namespace TypeBridge

/-- The brackets open after a text, innermost first, if each of its closers matches the innermost
bracket open before it. -/
def openAfter? : Option Char → List Bracket → Text → Option (List Bracket)
  | _, stack, [] => some stack
  | before, stack, c :: s =>
    match markOf before c, stack with
    | .opens bracket, stack => openAfter? (some c) (bracket :: stack) s
    | .closes _, [] => none
    | .closes bracket, top :: stack =>
      if bracket = top then openAfter? (some c) stack s else none
    | .neutral, stack => openAfter? (some c) stack s

/-- Whether the brackets of a text nest properly. -/
def WellNested (s : Text) : Prop := openAfter? none [] s = some []

instance (s : Text) : Decidable (WellNested s) := inferInstanceAs (Decidable (_ = _))

/-- The character directly before what follows `s`, if `before` stood before `s`. -/
def lastOr (before : Option Char) (s : Text) : Option Char := s.getLast?.or before

theorem openAfter?_append : ∀ (before : Option Char) (stack : List Bracket) (s t : Text),
    openAfter? before stack (s ++ t)
      = (openAfter? before stack s).bind fun stack => openAfter? (lastOr before s) stack t
  | _, _, [], _ => by simp [openAfter?, lastOr]
  | before, stack, c :: s, t => by
    have hlast : lastOr (some c) s = lastOr before (c :: s) := by
      cases h : s.getLast? <;> simp [lastOr, List.getLast?_cons, h]
    have step : ∀ stack : List Bracket, openAfter? (some c) stack (s ++ t)
        = (openAfter? (some c) stack s).bind fun stack =>
            openAfter? (lastOr before (c :: s)) stack t := by
      intro stack
      rw [openAfter?_append (some c) stack s t, hlast]
    simp only [List.cons_append, openAfter?]
    split
    · exact step _
    · rfl
    · split
      · exact step _
      · rfl
    · exact step _

end TypeBridge
