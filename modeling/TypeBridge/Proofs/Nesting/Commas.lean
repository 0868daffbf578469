import TypeBridge.Proofs.Nesting.Scan

/-!
Lists in type text. Commas at depth zero separate, so a list splits into its elements again when no
element has such a comma and every element but the last ends at depth zero. Main statements: the
pieces of a text keep apart and give it back when they are joined by commas, and texts that keep
apart are the pieces of what they are joined to.
-/

namespace TypeBridge

/-- What a character does to the depth of a scan that stops at a separating comma. -/
def commaStep (mark : Mark) (c : Char) (depth : Int) : Option Int :=
  if c = ',' ∧ depth = 0 then none else some (depth + mark.delta)

/-- The depth after a text, if no comma separates in it. -/
def depthAfter? : Option Char → Int → Text → Option Int := scan commaStep

/-- Whether texts keep apart when they are joined by commas and read from `depth`. -/
def SplitsFrom : Option Char → Int → List Text → Prop
  | _, _, [] => False
  | before, depth, [s] => depthAfter? before depth s ≠ none
  | before, depth, s :: t :: rest =>
    depthAfter? before depth s = some 0 ∧ SplitsFrom (some ',') 0 (t :: rest)

@[simp] theorem markOf_comma (before : Option Char) : markOf before ',' = .neutral := rfl

@[simp] theorem markOf_space (before : Option Char) : markOf before ' ' = .neutral := rfl

/-! ### Depths -/

theorem commaStep_of_not {mark : Mark} {c : Char} {depth : Int} (h : ¬ (c = ',' ∧ depth = 0)) :
    commaStep mark c depth = some (depth + mark.delta) := if_neg h

theorem passes_commaStep : Passes commaStep := by
  intro c depth hc
  rw [commaStep_of_not fun h => hc h.1, Mark.delta, Int.add_zero]

theorem commaStep_eq_some {mark : Mark} {c : Char} {depth next : Int} :
    commaStep mark c depth = some next ↔ ¬ (c = ',' ∧ depth = 0) ∧ next = depth + mark.delta := by
  unfold commaStep
  split
  · rename_i h
    simp [h]
  · rename_i h
    simp [h, eq_comm]

theorem depthAfter?_of_ne {before : Option Char} (h : before ≠ some '-') (depth : Int) (s : Text) :
    depthAfter? before depth s = depthAfter? none depth s :=
  scan_of_ne h depth s

theorem stackStep_length {mark : Mark} {c : Char} {stack next : List Bracket}
    (h : stackStep mark c stack = some next) : (next.length : Int) = stack.length + mark.delta := by
  obtain ⟨bracket, rfl, rfl⟩ | ⟨bracket, rfl, rfl⟩ | ⟨rfl, rfl⟩ := stackStep_eq_some h
  · rw [List.length_cons, Mark.delta]
    omega
  · rw [List.length_cons, Mark.delta]
    omega
  · rw [Mark.delta]
    omega

/-! ### Pieces -/

theorem piecesFrom_append : ∀ {before : Option Char} {depth depth' : Int} {s : Text} (t : Text),
    depthAfter? before depth s = some depth' → piecesFrom before depth (s ++ t)
      = (piecesFrom (lastOr before s) depth' t).modifyHead (s ++ ·)
  | before, depth, _, [], t, h => by
    cases h
    show piecesFrom before depth t = (piecesFrom (lastOr before []) depth t).modifyHead id
    rw [lastOr_nil, List.modifyHead_id, id]
  | before, depth, depth', c :: s, t, h => by
    obtain ⟨next, hnext, hs⟩ := scan_cons_eq_some.1 h
    obtain ⟨hc, rfl⟩ := commaStep_eq_some.1 hnext
    have ih := piecesFrom_append t hs
    rw [List.cons_append, piecesFrom, if_neg hc, ih, lastOr_cons, List.modifyHead_modifyHead]
    rfl

theorem piecesFrom_eq_singleton {before : Option Char} {depth : Int} {s : Text}
    (h : depthAfter? before depth s ≠ none) : piecesFrom before depth s = [s] := by
  obtain ⟨depth', hd⟩ := Option.ne_none_iff_exists'.1 h
  simpa [piecesFrom] using piecesFrom_append [] hd

/-- The pieces of a text give it back when they are joined by commas. -/
theorem intercalate_piecesFrom : ∀ (before : Option Char) (depth : Int) (s : Text),
    [','].intercalate (piecesFrom before depth s) = s
  | _, _, [] => rfl
  | before, depth, c :: s => by
    unfold piecesFrom
    split
    · rename_i hc
      rw [List.intercalate_cons_of_ne_nil (piecesFrom_ne_nil _ _ s), intercalate_piecesFrom, hc.1]
      rfl
    · rw [Text.intercalate_modifyHead_cons [','] c (piecesFrom_ne_nil _ _ s),
        intercalate_piecesFrom]

theorem splitsFrom_modifyHead_cons {before : Option Char} {depth : Int} {c : Char}
    {pieces : List Text} (hc : ¬ (c = ',' ∧ depth = 0))
    (h : SplitsFrom (some c) (depth + (markOf before c).delta) pieces) :
    SplitsFrom before depth (pieces.modifyHead (c :: ·)) := by
  have hcons : ∀ s, depthAfter? before depth (c :: s)
      = depthAfter? (some c) (depth + (markOf before c).delta) s := by
    intro s
    rw [depthAfter?, scan_cons, commaStep_of_not hc]
    rfl
  rcases pieces with _ | ⟨piece, _ | ⟨next, rest⟩⟩
  · exact absurd h id
  · show depthAfter? before depth (c :: piece) ≠ none
    rw [hcons]
    exact h
  · exact ⟨(hcons piece).trans h.1, h.2⟩

/-- The pieces of a text keep apart. -/
theorem splitsFrom_piecesFrom : ∀ (before : Option Char) (depth : Int) (s : Text),
    SplitsFrom before depth (piecesFrom before depth s)
  | _, _, [] => by simp [piecesFrom, SplitsFrom, depthAfter?]
  | before, depth, c :: s => by
    unfold piecesFrom
    split
    · rename_i hc
      obtain ⟨rfl, rfl⟩ := hc
      have ih := splitsFrom_piecesFrom (some ',') 0 s
      cases hp : piecesFrom (some ',') 0 s with
      | nil => exact absurd hp (piecesFrom_ne_nil _ _ _)
      | cons piece rest =>
        rw [hp] at ih
        exact ⟨rfl, ih⟩
    · rename_i hc
      exact splitsFrom_modifyHead_cons hc (splitsFrom_piecesFrom _ _ s)

/-- Texts that keep apart are the pieces of what they are joined to. -/
theorem piecesFrom_intercalate : ∀ {before : Option Char} {depth : Int} {pieces : List Text},
    SplitsFrom before depth pieces → piecesFrom before depth ([','].intercalate pieces) = pieces
  | _, _, [], h => absurd h id
  | _, _, [s], h => by
    rw [List.intercalate_singleton]
    exact piecesFrom_eq_singleton h
  | before, depth, s :: t :: rest, ⟨hs, hr⟩ => by
    have ih := piecesFrom_intercalate hr
    rw [List.intercalate_cons_cons, List.append_assoc, piecesFrom_append _ hs,
      List.singleton_append, piecesFrom, if_pos ⟨rfl, rfl⟩, ih, List.modifyHead_cons,
      List.append_nil]

/-! ### Lists -/

theorem splitPieces_intercalate {pieces : List Text} (h : SplitsFrom none 0 pieces) :
    splitPieces ([','].intercalate pieces) = dropEmptyEnd pieces := by
  rw [splitPieces, piecesFrom_intercalate h]

theorem isInfix_of_mem_splitPieces {s piece : Text} (h : piece ∈ splitPieces s) : piece <:+: s := by
  have hjoin := Text.isInfix_intercalate [','] (mem_of_mem_dropEmptyEnd h)
  rwa [intercalate_piecesFrom] at hjoin

theorem dropEmptyEnd_eq_or : ∀ pieces : List Text,
    dropEmptyEnd pieces = pieces ∨ pieces = dropEmptyEnd pieces ++ [[]]
  | [] => .inl rfl
  | [piece] => by
    by_cases hp : piece.isEmpty = true
    · rw [dropEmptyEnd, if_pos hp, List.isEmpty_iff.1 hp]
      exact .inr rfl
    · rw [dropEmptyEnd, if_neg hp]
      exact .inl rfl
  | piece :: next :: rest => by
    rw [dropEmptyEnd]
    rcases dropEmptyEnd_eq_or (next :: rest) with h | h
    · exact .inl (by rw [h])
    · exact .inr (by rw [List.cons_append, ← h])

theorem filterMap_dropEmptyEnd {α : Type} {f : Text → Option α} (hf : f [] = none)
    (pieces : List Text) : (dropEmptyEnd pieces).filterMap f = pieces.filterMap f := by
  rcases dropEmptyEnd_eq_or pieces with h | h
  · rw [h]
  · conv =>
      rhs
      rw [h, List.filterMap_append]
    simp [hf]

theorem filter_dropEmptyEnd {p : Text → Bool} (hp : p [] = false) (pieces : List Text) :
    (dropEmptyEnd pieces).filter p = pieces.filter p := by
  rcases dropEmptyEnd_eq_or pieces with h | h
  · rw [h]
  · conv =>
      rhs
      rw [h, List.filter_append]
    simp [hp]

end TypeBridge
