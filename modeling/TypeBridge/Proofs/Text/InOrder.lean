import TypeBridge.Proofs.Text.Strip

/-!
Texts that stand one after the other in a text. Main statements: pieces that are joined stand in
order in the whole, and they still do when each of them is stripped and some are left out.
-/

namespace TypeBridge.Text

/-- Whether texts stand in a text in order, so that no two of them share a character there. -/
def InOrder : List Text → Text → Prop
  | [], _ => True
  | t :: rest, s => ∃ before after, s = before ++ t ++ after ∧ InOrder rest after

namespace InOrder

variable {texts others : List Text} {s t : Text}

theorem append_left (h : InOrder texts s) (start : Text) : InOrder texts (start ++ s) := by
  cases texts with
  | nil => trivial
  | cons t rest =>
    obtain ⟨before, after, rfl, hrest⟩ := h
    exact ⟨start ++ before, after, by simp only [List.append_assoc], hrest⟩

theorem append_right (h : InOrder texts s) (final : Text) : InOrder texts (s ++ final) := by
  induction texts generalizing s with
  | nil => trivial
  | cons t rest ih =>
    obtain ⟨before, after, rfl, hrest⟩ := h
    exact ⟨before, after ++ final, List.append_assoc _ _ _, ih hrest⟩

theorem of_isInfix (h : InOrder texts s) (hs : s <:+: t) : InOrder texts t := by
  obtain ⟨before, after, rfl⟩ := hs
  exact (h.append_left before).append_right after

theorem sublist (h : InOrder texts s) (hl : others.Sublist texts) : InOrder others s := by
  induction hl generalizing s with
  | slnil => trivial
  | cons t _ ih =>
    obtain ⟨before, after, rfl, hrest⟩ := h
    exact (ih hrest).append_left (before ++ t)
  | cons_cons t _ ih =>
    obtain ⟨before, after, rfl, hrest⟩ := h
    exact ⟨before, after, rfl, ih hrest⟩

/-- Blanks at the ends of the texts can be left out. -/
theorem map_strip (h : InOrder texts s) : InOrder (texts.map strip) s := by
  induction texts generalizing s with
  | nil => trivial
  | cons t rest ih =>
    obtain ⟨before, after, rfl, hrest⟩ := h
    obtain ⟨l, r, _, _, ht⟩ := exists_strip t
    refine ⟨before ++ l, r ++ after, ?_, (ih hrest).append_left r⟩
    rw [congrArg (before ++ · ++ after) ht]
    simp only [List.append_assoc]

end InOrder

theorem inOrder_intercalate (separator : Text) : ∀ texts : List Text,
    InOrder texts (separator.intercalate texts)
  | [] => trivial
  | [t] => ⟨[], [], by rw [List.intercalate_singleton, List.nil_append, List.append_nil], trivial⟩
  | t :: u :: rest => by
    have hrest : InOrder (u :: rest) (separator ++ separator.intercalate (u :: rest)) :=
      (inOrder_intercalate separator (u :: rest)).append_left separator
    exact ⟨[], _, by rw [List.intercalate_cons_cons, List.nil_append, List.append_assoc], hrest⟩

end TypeBridge.Text
