import Mathlib.Data.List.Forall2
import TypeBridge.Proofs.Nesting.Commas

/-!
Lists with spaces in them. A printed list has a space behind each comma and perhaps one at either
end, so its pieces are the elements with blanks around them. Main statement: brackets hold such
pieces just when they hold the elements.
-/

namespace TypeBridge

/-- Whether a text is another with blanks around it. -/
def Padded (s t : Text) : Prop := ∃ l r, Text.Blank l ∧ Text.Blank r ∧ s = l ++ t ++ r

theorem Padded.strip_eq {s t : Text} (h : Padded s t) : Text.strip s = Text.strip t := by
  obtain ⟨l, r, hl, hr, rfl⟩ := h
  exact Text.strip_append hl hr t

theorem Padded.depthAfter?_eq {s t : Text} (h : Padded s t) {before : Option Char}
    (hb : before ≠ some '-') (depth : Int) :
    depthAfter? before depth s = depthAfter? before depth t := by
  obtain ⟨l, r, hl, hr, rfl⟩ := h
  exact scan_padded passes_commaStep hb depth hl hr t

/-- The pieces of a list that is printed with spaces. -/
theorem exists_padded {front back : Text} {texts : List Text} (hfront : Text.Blank front)
    (hback : Text.Blank back) (hne : texts ≠ []) :
    ∃ pieces, [','].intercalate pieces = front ++ ", ".toList.intercalate texts ++ back ∧
      List.Forall₂ Padded pieces texts := by
  induction texts generalizing front with
  | nil => exact absurd rfl hne
  | cons t rest ih =>
    cases rest with
    | nil =>
      refine ⟨[front ++ t ++ back], ?_, .cons ⟨front, back, hfront, hback, rfl⟩ .nil⟩
      rw [List.intercalate_singleton, List.intercalate_singleton]
    | cons next rest =>
      obtain ⟨pieces, hjoin, hpieces⟩ := ih Text.blank_space (List.cons_ne_nil next rest)
      have hpadded : Padded (front ++ t) t := ⟨front, [], hfront, Text.blank_nil, by simp⟩
      refine ⟨(front ++ t) :: pieces, ?_, .cons hpadded hpieces⟩
      have hne : pieces ≠ [] := by
        rintro rfl
        cases hpieces
      rw [Text.intercalate_cons, if_neg hne, hjoin, List.intercalate_cons_cons]
      simp

/-- Blanks around the elements make no difference to where a list splits. -/
theorem splitsFrom_padded_iff {pieces texts : List Text} (h : List.Forall₂ Padded pieces texts)
    {before : Option Char} (hb : before ≠ some '-') {depth : Int} :
    SplitsFrom before depth pieces ↔ SplitsFrom before depth texts := by
  induction h generalizing before depth with
  | nil => exact Iff.rfl
  | cons hpad hrest ih =>
    have hcomma : some ',' ≠ some '-' := by decide
    cases hrest with
    | nil =>
      show depthAfter? before depth _ ≠ none ↔ depthAfter? before depth _ ≠ none
      rw [hpad.depthAfter?_eq hb]
    | cons hnext hrest =>
      show depthAfter? before depth _ = some 0 ∧ _ ↔ depthAfter? before depth _ = some 0 ∧ _
      rw [hpad.depthAfter?_eq hb, ih hcomma]

/-- Blanks around the elements of a list make no difference to a scan of it. -/
theorem scan_intercalate_padded {σ : Type} {step : Mark → Char → σ → Option σ} (hstep : Passes step)
    {pieces texts : List Text} (h : List.Forall₂ Padded pieces texts) {before : Option Char}
    (hb : before ≠ some '-') (state : σ) :
    scan step before state ([','].intercalate pieces)
      = scan step before state ([','].intercalate texts) := by
  induction h generalizing before state with
  | nil => rfl
  | @cons piece t pieces texts hpad hrest ih =>
    obtain ⟨l, r, hl, hr, rfl⟩ := hpad
    cases hrest with
    | nil =>
      rw [List.intercalate_singleton, List.intercalate_singleton]
      exact scan_padded hstep hb state hl hr t
    | cons hnext hrest =>
      have hcomma : some ',' ≠ some '-' := by decide
      rw [List.intercalate_cons_cons, List.intercalate_cons_cons, List.append_assoc,
        List.append_assoc t, scan_append, scan_append before state t,
        scan_padded hstep hb state hl hr]
      refine congrArg _ (funext fun next => ?_)
      rw [List.singleton_append, List.singleton_append, scan_cons, scan_cons]
      exact congrArg _ (funext fun next => ih hcomma next)

/-! ### Brackets around lists -/

/-- Whether a list between brackets is read as the texts that it was made of: the brackets of that
kind close in it, and it splits between the texts. -/
structure Bracket.Holds (bracket : Bracket) (texts : List Text) : Prop where
  closesIn : bracket.ClosesIn ([','].intercalate texts)
  splitsFrom : SplitsFrom none 0 texts

theorem Bracket.holds_padded_iff {bracket : Bracket} {pieces texts : List Text}
    (h : List.Forall₂ Padded pieces texts) : bracket.Holds pieces ↔ bracket.Holds texts := by
  have hb : none ≠ some '-' := nofun
  have hcloses : bracket.ClosesIn ([','].intercalate pieces) ↔
      bracket.ClosesIn ([','].intercalate texts) := by
    unfold ClosesIn levelAfter?
    rw [scan_intercalate_padded bracket.passes_levelStep h hb]
  constructor
  · rintro ⟨hc, hs⟩
    exact ⟨hcloses.1 hc, (splitsFrom_padded_iff h hb).1 hs⟩
  · rintro ⟨hc, hs⟩
    exact ⟨hcloses.2 hc, (splitsFrom_padded_iff h hb).2 hs⟩

end TypeBridge
