import TypeBridge.Nesting.Bracket

/-!
Where an open bracket is closed, counting one kind of bracket alone. Main statement: the text after
the opener is the enclosed text, the closer, and the text after it.
-/

namespace TypeBridge

/-- The text up to the character that closes a bracket which is already open, and the text after
that character; `depth` counts the brackets of the same kind that are open inside it. -/
def enclosedFrom? (opener closer : Char) : Option Char → Nat → Text → Option (Text × Text)
  | _, _, [] => none
  | before, depth, c :: s =>
    if c = opener then
      (enclosedFrom? opener closer (some c) (depth + 1) s).map fun p => (c :: p.1, p.2)
    else if c = closer ∧ isArrowHead before c = false then
      match depth with
      | 0 => some ([], s)
      | depth + 1 => (enclosedFrom? opener closer (some c) depth s).map fun p => (c :: p.1, p.2)
    else (enclosedFrom? opener closer (some c) depth s).map fun p => (c :: p.1, p.2)

/-- The text inside a bracket and the text after it; `s` is what follows the opener. -/
def Bracket.enclosed? (bracket : Bracket) (s : Text) : Option (Text × Text) :=
  enclosedFrom? bracket.opener bracket.closer none 0 s

/-- The position of the character that closes a bracket opened just before position `start`. -/
def closingIndex? (opener closer : Char) (s : Text) (start : Nat) : Option Nat :=
  (enclosedFrom? opener closer (s.take start).getLast? 0 (s.drop start)).map fun p =>
    start + p.1.length

theorem enclosedFrom?_eq_some (opener closer : Char) :
    ∀ {s inside after : Text} {before : Option Char} {depth : Nat},
      enclosedFrom? opener closer before depth s = some (inside, after) →
        s = inside ++ closer :: after
  | [], _, _, _, _, h => by simp [enclosedFrom?] at h
  | c :: s, inside, after, before, depth, h => by
    have step : ∀ {depth : Nat},
        (enclosedFrom? opener closer (some c) depth s).map (fun p => (c :: p.1, p.2))
          = some (inside, after) → c :: s = inside ++ closer :: after := by
      intro depth h
      simp only [Option.map_eq_some_iff, Prod.mk.injEq, Prod.exists] at h
      obtain ⟨i, a, hia, rfl, rfl⟩ := h
      simp [enclosedFrom?_eq_some opener closer hia]
    unfold enclosedFrom? at h
    split at h
    · exact step h
    split at h
    · rename_i hc
      split at h
      · simp only [Option.some.injEq, Prod.mk.injEq] at h
        obtain ⟨rfl, rfl⟩ := h
        simp [hc.1]
      · exact step h
    · exact step h

theorem Bracket.enclosed?_eq_some {bracket : Bracket} {s inside after : Text}
    (h : bracket.enclosed? s = some (inside, after)) : s = inside ++ bracket.closer :: after :=
  enclosedFrom?_eq_some _ _ h

end TypeBridge
