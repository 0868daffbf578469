import TypeBridge.Proofs.Text.Strip

/-!
Text without its blanks. Main statements: stripping a text makes no difference to it, blanks are
the texts of which nothing is left, and a count of other characters can be made on what is left.
-/

namespace TypeBridge.Text

/-- The text without any of its blanks. -/
def dense (s : Text) : Text := s.filter fun c => !isBlank c

@[simp] theorem dense_append (s t : Text) : dense (s ++ t) = dense s ++ dense t :=
  List.filter_append s t

theorem dense_cons_of_not_blank {c : Char} (h : isBlank c = false) (s : Text) :
    dense (c :: s) = c :: dense s :=
  List.filter_cons_of_pos (by rw [h]; rfl)

theorem dense_cons_of_blank {c : Char} (h : isBlank c = true) (s : Text) :
    dense (c :: s) = dense s :=
  List.filter_cons_of_neg (by rw [h]; decide)

theorem mem_dense_iff {s : Text} {c : Char} (h : isBlank c = false) : c ∈ dense s ↔ c ∈ s :=
  List.mem_filter.trans (and_iff_left (by rw [h]; rfl))

theorem dense_eq_nil_iff {s : Text} : dense s = [] ↔ Blank s := by
  simp [dense, Blank]

theorem dense_of_blank {s : Text} (h : Blank s) : dense s = [] := dense_eq_nil_iff.2 h

@[simp] theorem dense_strip (s : Text) : dense (strip s) = dense s := by
  obtain ⟨l, r, hl, hr, hs⟩ := exists_strip s
  conv =>
    rhs
    rw [hs, dense_append, dense_append, dense_of_blank hl, dense_of_blank hr, List.nil_append,
      List.append_nil]

theorem dense_intercalate (separator : Text) (texts : List Text) :
    dense (separator.intercalate texts) = (dense separator).intercalate (texts.map dense) := by
  induction texts with
  | nil => rfl
  | cons s rest ih =>
    cases rest with
    | nil => rw [List.map_singleton, List.intercalate_singleton, List.intercalate_singleton]
    | cons t rest =>
      rw [List.intercalate_cons_cons, dense_append, dense_append, ih, List.map_cons, List.map_cons,
        List.map_cons, List.intercalate_cons_cons]

/-- What no blank satisfies is counted alike in a text and in what is left of it. -/
theorem countP_dense {q : Char → Bool} (hq : ∀ c, isBlank c = true → q c = false) (s : Text) :
    (dense s).countP q = s.countP q := by
  rw [dense, List.countP_filter]
  refine List.countP_congr fun c _ => ?_
  cases hc : isBlank c with
  | false => simp
  | true => simp [hq c hc]

end TypeBridge.Text
