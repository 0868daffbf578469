import TypeBridge.Proofs.Text.Dense
import TypeBridge.Proofs.TypeExpr.Peel
import TypeBridge.Proofs.TypeExpr.Print

/-!
Type text without its blanks. Main statements: the marks of a reference, the name of a path and the
self type of a qualified path are printed with all of the characters that they were written with,
blanks apart.
-/

namespace TypeBridge

open Text

/-! ### References -/

theorem dense_mutText (isMutable : Bool) :
    dense (TypeExpr.mutText isMutable) = dense (Layer.mutMark isMutable) := by
  cases isMutable <;> rfl

theorem dense_reference {rest t : Text} {isMutable : Bool} {lifetime : Option Text}
    (h : Layer.ofReference? rest = .ok (.reference t isMutable lifetime)) :
    dense ('&' :: rest) = dense (referenceText isMutable lifetime) ++ dense t := by
  have hand : Text.isBlank '&' = false := by decide
  have hspace : dense [' '] = [] := dense_of_blank blank_space
  have hmarks : dense (referenceText isMutable lifetime)
      = '&' :: (dense (TypeExpr.lifetimeText lifetime) ++ dense (Layer.mutMark isMutable)) := by
    rw [referenceText, dense_append, dense_append, dense_mutText]
    rfl
  obtain ⟨t', isMutable', lifetime', hl, _, hcases⟩ := Layer.ofReference?_eq_ok h
  cases hl
  rw [dense_cons_of_not_blank hand, ← dense_strip, hmarks]
  rcases hcases with ⟨rfl, hs, _⟩ | ⟨name, blanks, rfl, hname, hblanks, hs⟩
  · rw [hs, dense_append]
    rfl
  · have hne : name ≠ [] := by
      rintro rfl
      cases hname
    have hquote : Text.isBlank '\'' = false := by decide
    rw [hs, TypeExpr.lifetimeText_of_ne_nil hne, dense_append ('\'' :: name), hspace,
      dense_cons_of_not_blank hquote, dense_cons_of_not_blank hquote, dense_append, dense_append,
      dense_append, dense_of_blank hblanks]
    simp

/-! ### Tuples -/

theorem dense_list (texts : List Text) :
    dense (", ".toList.intercalate texts) = [','].intercalate (texts.map dense) :=
  dense_intercalate ", ".toList texts

theorem dense_tupleText {texts : List Text} (h : texts.length ≠ 1) :
    dense (TypeExpr.tupleText texts) = '(' :: ([','].intercalate (texts.map dense) ++ [')']) := by
  have hopen : Text.isBlank '(' = false := by decide
  rw [TypeExpr.tupleText_of_ne_one h, dense_cons_of_not_blank hopen, dense_append, dense_list]
  rfl

theorem dense_tupleText_singleton (t : Text) :
    dense (TypeExpr.tupleText [t]) = '(' :: (dense t ++ [','] ++ [')']) := by
  have hopen : Text.isBlank '(' = false := by decide
  rw [TypeExpr.tupleText_singleton, dense_cons_of_not_blank hopen, dense_append, dense_append]
  rfl

/-! ### Paths -/

theorem PathName.SpelledBy.dense_eq {n : PathName} {s : Text} (h : n.SpelledBy s) :
    dense n.text = dense s := by
  obtain ⟨pieces, rfl, hp⟩ := h
  rw [text, ← hp, dense_intercalate, dense_intercalate, List.map_map]
  exact congrArg _ (List.map_congr_left fun piece _ => dense_strip piece)

theorem dense_argsText {texts : List Text} (h : texts ≠ []) :
    dense (TypeExpr.argsText texts) = '<' :: ([','].intercalate (texts.map dense) ++ ['>']) := by
  rw [TypeExpr.argsText_of_ne_nil h, dense_append, dense_append, dense_list]
  rfl

theorem dense_enclosed (inside after : Text) :
    dense ('<' :: (inside ++ '>' :: after)) = '<' :: (dense inside ++ '>' :: dense after) := by
  have hopen : Text.isBlank '<' = false := by decide
  have hclose : Text.isBlank '>' = false := by decide
  rw [dense_cons_of_not_blank hopen, dense_append, dense_cons_of_not_blank hclose]

/-- What a qualified path writes and prints before the path behind its self type. -/
theorem dense_qualified {after tail : Text} (h : Text.strip after = ':' :: ':' :: tail)
    (inside : Text) : dense ('<' :: (inside ++ '>' :: after))
      = '<' :: (dense inside ++ ['>', ':', ':']) ++ dense (Text.strip tail) := by
  have hcolon : Text.isBlank ':' = false := by decide
  rw [dense_enclosed, ← dense_strip after, h, dense_cons_of_not_blank hcolon,
    dense_cons_of_not_blank hcolon, dense_strip]
  simp

theorem dense_headText_append (self name tail : Text) :
    dense (TypeExpr.headText name (some self) ++ tail)
      = '<' :: (dense self ++ ['>', ':', ':']) ++ dense (name ++ tail) := by
  have hspaced : dense (' ' :: (self ++ [' '])) = dense self := by
    have hspace : Text.isBlank ' ' = true := by decide
    rw [dense_cons_of_blank hspace, dense_append, dense_of_blank blank_space, List.append_nil]
  rw [headText_some_append, dense_enclosed, hspaced]
  have hsep : dense (' ' :: ':' :: ':' :: ' ' :: (name ++ tail))
      = ':' :: ':' :: dense (name ++ tail) := rfl
  rw [hsep]
  simp

end TypeBridge
