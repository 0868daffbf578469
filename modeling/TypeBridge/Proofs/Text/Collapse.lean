import TypeBridge.Proofs.Text.Dense
import TypeBridge.Proofs.Text.Ident

/-!
Collapsed text. To collapse a text is to strip it and to leave one space of each stretch of blanks
in it, and that can be done from left to right. Main statements: `collapse` squeezes what stripping
leaves; squeezing goes on independently behind every character that is no blank; a text that is
collapsed already stays as it is; and the blanks of collapsed text are single spaces.
-/

namespace TypeBridge.Text

/-- The text with one space for each stretch of blanks; for none at its start if `behindBlank`. -/
def squeeze : (behindBlank : Bool) → Text → Text
  | _, [] => []
  | behindBlank, c :: s =>
    if isBlank c then if behindBlank then squeeze true s else ' ' :: squeeze true s
    else c :: squeeze false s

theorem dense_squeeze (behindBlank : Bool) (s : Text) :
    dense (squeeze behindBlank s) = dense s := by
  have hspace : isBlank ' ' = true := by decide
  induction s generalizing behindBlank with
  | nil => rfl
  | cons c s ih =>
    rw [squeeze]
    cases hc : isBlank c with
    | true =>
      rw [if_pos rfl, dense_cons_of_blank hc]
      split
      · exact ih true
      · rw [dense_cons_of_blank hspace, ih true]
    | false =>
      rw [if_neg Bool.false_ne_true, dense_cons_of_not_blank hc, dense_cons_of_not_blank hc,
        ih false]

theorem blank_squeeze_iff {behindBlank : Bool} {s : Text} :
    Blank (squeeze behindBlank s) ↔ Blank s := by
  rw [← dense_eq_nil_iff, dense_squeeze, dense_eq_nil_iff]

/-! ### Words -/

theorem words_cons_of_blank {c : Char} (h : isBlank c = true) (s : Text) :
    words (c :: s) = words s := by
  rw [words, List.splitOnP_cons_eq_if_modifyHead, if_pos h]
  rfl

theorem words_of_blank {s : Text} (h : Blank s) : words s = [] := by
  induction s with
  | nil => rfl
  | cons c s ih =>
    obtain ⟨hc, hs⟩ := blank_cons_iff.1 h
    rw [words_cons_of_blank hc, ih hs]

/-- A word ends where a blank or nothing follows. -/
theorem words_cons_of_end {c : Char} {s : Text} (hc : isBlank c = false)
    (hs : ∀ d, s.head? = some d → isBlank d = true) : words (c :: s) = [c] :: words s := by
  have hcb : ¬ isBlank c = true := by
    rw [hc]
    exact Bool.false_ne_true
  cases s with
  | nil =>
    rw [words, List.splitOnP_cons_eq_if_modifyHead, if_neg hcb]
    rfl
  | cons d s =>
    rw [words, List.splitOnP_cons_eq_if_modifyHead, if_neg hcb,
      List.splitOnP_cons_eq_if_modifyHead, if_pos (hs d rfl), words_cons_of_blank (hs d rfl)]
    rfl

/-- A character before a word belongs to it. -/
theorem words_cons_cons {c d : Char} (s : Text) (hc : isBlank c = false) (hd : isBlank d = false) :
    words (c :: d :: s) = (words (d :: s)).modifyHead (c :: ·) := by
  have hcb : ¬ isBlank c = true := by
    rw [hc]
    exact Bool.false_ne_true
  have hdb : ¬ isBlank d = true := by
    rw [hd]
    exact Bool.false_ne_true
  rw [words, words, List.splitOnP_cons_eq_if_modifyHead, if_neg hcb,
    List.splitOnP_cons_eq_if_modifyHead, if_neg hdb]
  cases List.splitOnP isBlank s with
  | nil => rfl
  | cons piece rest => rfl

theorem words_append_of_blank {blanks : Text} (h : Blank blanks) (s : Text) :
    words (s ++ blanks) = words s := by
  induction s with
  | nil => exact words_of_blank h
  | cons c s ih =>
    rw [List.cons_append]
    cases hc : isBlank c with
    | true => rw [words_cons_of_blank hc, words_cons_of_blank hc, ih]
    | false =>
      cases s with
      | nil =>
        have hhead : ∀ d, blanks.head? = some d → isBlank d = true :=
          fun d hd => h d (List.mem_of_mem_head? hd)
        rw [List.nil_append, words_cons_of_end hc hhead, words_of_blank h,
          words_cons_of_end hc (by simp), words_of_blank blank_nil]
      | cons d s =>
        rw [List.cons_append] at ih ⊢
        cases hd : isBlank d with
        | true =>
          have hhead : ∀ t : Text, ∀ e, (d :: t).head? = some e → isBlank e = true := by
            rintro t e he
            cases he
            exact hd
          rw [words_cons_of_end hc (hhead _), words_cons_of_end hc (hhead _), ih]
        | false => rw [words_cons_cons _ hc hd, words_cons_cons _ hc hd, ih]

theorem words_ne_nil {s : Text} (h : ¬ Blank s) : words s ≠ [] := by
  induction s with
  | nil => exact absurd blank_nil h
  | cons c s ih =>
    cases hc : isBlank c with
    | true =>
      rw [words_cons_of_blank hc]
      exact ih fun hs => h (blank_cons_iff.2 ⟨hc, hs⟩)
    | false =>
      cases s with
      | nil =>
        rw [words_cons_of_end hc (by simp)]
        exact List.cons_ne_nil _ _
      | cons d s =>
        cases hd : isBlank d with
        | true =>
          rw [words_cons_of_end hc (by simp [hd])]
          exact List.cons_ne_nil _ _
        | false =>
          rw [words_cons_cons s hc hd]
          have hne : words (d :: s) ≠ [] := ih fun hb =>
            absurd (hd.symm.trans (blank_cons_iff.1 hb).1) Bool.false_ne_true
          exact List.modifyHead_eq_nil_iff.not.2 hne

theorem words_blank_append {blanks : Text} (h : Blank blanks) (s : Text) :
    words (blanks ++ s) = words s := by
  induction blanks with
  | nil => rfl
  | cons c blanks ih =>
    obtain ⟨hc, hb⟩ := blank_cons_iff.1 h
    rw [List.cons_append, words_cons_of_blank hc, ih hb]

theorem collapse_strip (s : Text) : collapse (strip s) = collapse s := by
  obtain ⟨l, r, hl, hr, hs⟩ := exists_strip s
  have hwords : words s = words (strip s) := by
    conv =>
      lhs
      rw [hs, List.append_assoc, words_blank_append hl, words_append_of_blank hr]
  rw [collapse, collapse, hwords]

/-! ### Squeezing -/

theorem squeeze_cons_of_not_blank {c : Char} (h : isBlank c = false) (behindBlank : Bool)
    (s : Text) : squeeze behindBlank (c :: s) = c :: squeeze false s := by
  rw [squeeze, h]
  rfl

theorem squeeze_of_head {s : Text} (h : ∀ c, s.head? = some c → isBlank c = false) :
    squeeze true s = squeeze false s := by
  cases s with
  | nil => rfl
  | cons c s => rw [squeeze_cons_of_not_blank (h c rfl), squeeze_cons_of_not_blank (h c rfl)]

/-- Squeezing starts anew behind every character that is no blank. -/
theorem squeeze_append {c : Char} (hc : isBlank c = false) (behindBlank : Bool) (s t : Text) :
    squeeze behindBlank (s ++ c :: t) = squeeze behindBlank s ++ c :: squeeze false t := by
  induction s generalizing behindBlank with
  | nil => rw [List.nil_append, squeeze_cons_of_not_blank hc]; rfl
  | cons d s ih =>
    rw [List.cons_append, squeeze, squeeze, ih true, ih false]
    split
    · split <;> rfl
    · rfl

theorem squeeze_squeeze (behindBlank : Bool) (s : Text) :
    squeeze behindBlank (squeeze behindBlank s) = squeeze behindBlank s := by
  induction s generalizing behindBlank with
  | nil => rfl
  | cons c s ih =>
    cases hc : isBlank c with
    | true =>
      have hspace : isBlank ' ' = true := by decide
      cases behindBlank with
      | true => rw [squeeze, if_pos hc, if_pos rfl, ih true]
      | false =>
        rw [squeeze, if_pos hc, if_neg Bool.false_ne_true, squeeze, if_pos hspace,
          if_neg Bool.false_ne_true, ih true]
    | false => rw [squeeze_cons_of_not_blank hc, squeeze_cons_of_not_blank hc, ih false]

theorem squeeze_append_of_not_blank {s : Text} (h : ∀ c ∈ s, isBlank c = false) (t : Text) :
    squeeze false (s ++ t) = s ++ squeeze false t := by
  induction s with
  | nil => rfl
  | cons c s ih =>
    obtain ⟨hc, hs⟩ := List.forall_mem_cons.1 h
    rw [List.cons_append, squeeze_cons_of_not_blank hc, ih hs, List.cons_append]

/-- Squeezing leaves a text that is one word between blanks. -/
theorem strip_squeeze {s : Text} (h : ∀ c ∈ strip s, isBlank c = false) (behindBlank : Bool) :
    strip (squeeze behindBlank s) = strip s := by
  obtain ⟨l, r, hl, hr, hs⟩ := exists_strip s
  cases hm : strip s with
  | nil => exact strip_eq_nil_iff.2 (blank_squeeze_iff.2 (strip_eq_nil_iff.1 hm))
  | cons c m =>
    have htrim := trimmed_strip s
    rw [hm] at h hs htrim
    obtain ⟨hc, hmid⟩ := List.forall_mem_cons.1 h
    have hsq : squeeze behindBlank s = squeeze behindBlank l ++ (c :: m) ++ squeeze false r := by
      rw [hs, List.append_assoc, List.cons_append, squeeze_append hc,
        squeeze_append_of_not_blank hmid, List.append_assoc, List.cons_append]
    rw [hsq, strip_append (blank_squeeze_iff.2 hl) (blank_squeeze_iff.2 hr), htrim.strip_eq]

/-! ### Collapsing -/

theorem collapse_eq_squeeze {s : Text} (h : ∀ c, s.getLast? = some c → isBlank c = false) :
    collapse s = squeeze true s := by
  induction s with
  | nil => rfl
  | cons c s ih =>
    cases hc : isBlank c with
    | true =>
      have hne : s ≠ [] := by
        rintro rfl
        rw [h c rfl] at hc
        exact absurd hc (by decide)
      have ih := ih fun d hd => h d (by rwa [List.getLast?_cons_of_ne_nil hne])
      rw [squeeze, if_pos hc, if_pos rfl, ← ih, collapse, words_cons_of_blank hc, ← collapse]
    | false =>
      rw [squeeze_cons_of_not_blank hc]
      cases s with
      | nil =>
        rw [collapse, words_cons_of_end hc (by simp)]
        rfl
      | cons d s =>
        have ih := ih h
        have hwords : words (d :: s) ≠ [] := words_ne_nil fun hb => by
          have hlast := List.getLast?_eq_some_getLast (List.cons_ne_nil d s)
          have hblank := hb _ (List.getLast_mem (List.cons_ne_nil d s))
          rw [h _ hlast] at hblank
          exact absurd hblank (by decide)
        cases hd : isBlank d with
        | true =>
          have hnext : squeeze false (d :: s) = ' ' :: squeeze true (d :: s) := by
            rw [squeeze, squeeze, if_pos hd, if_pos hd]
            rfl
          rw [hnext, ← ih, collapse, words_cons_of_end hc (by simp [hd]), intercalate_cons,
            if_neg hwords]
          rfl
        | false =>
          have hnext : squeeze true (d :: s) = squeeze false (d :: s) :=
            squeeze_of_head (by simp [hd])
          rw [← hnext, ← ih, collapse, words_cons_cons s hc hd,
            intercalate_modifyHead_cons _ _ hwords, collapse]

/-- A text without blanks at its ends is squeezed by collapsing it. -/
theorem Trimmed.collapse_eq {s : Text} (h : Trimmed s) : collapse s = squeeze false s := by
  rw [collapse_eq_squeeze h.2, squeeze_of_head h.1]

theorem Trimmed.head?_collapse {s : Text} (h : Trimmed s) : (collapse s).head? = s.head? := by
  rw [h.collapse_eq]
  cases s with
  | nil => rfl
  | cons c s => rw [squeeze_cons_of_not_blank (h.1 c rfl)]; rfl

theorem Trimmed.getLast?_collapse {s : Text} (h : Trimmed s) :
    (collapse s).getLast? = s.getLast? := by
  rw [h.collapse_eq]
  rcases List.eq_nil_or_concat s with rfl | ⟨init, c, rfl⟩
  · rfl
  · have hc : isBlank c = false := h.2 c (by simp)
    rw [List.concat_eq_append, squeeze_append hc]
    simp [squeeze]

theorem Trimmed.collapse {s : Text} (h : Trimmed s) : Trimmed (collapse s) := by
  refine ⟨?_, ?_⟩
  · rw [h.head?_collapse]
    exact h.1
  · rw [h.getLast?_collapse]
    exact h.2

theorem trimmed_collapse (s : Text) : Trimmed (collapse s) := by
  rw [← collapse_strip]
  exact (trimmed_strip s).collapse

@[simp] theorem dense_collapse (s : Text) : dense (collapse s) = dense s := by
  rw [← collapse_strip, (trimmed_strip s).collapse_eq, dense_squeeze, dense_strip]

theorem collapse_collapse (s : Text) : collapse (collapse s) = collapse s := by
  rw [(trimmed_collapse s).collapse_eq, ← collapse_strip, (trimmed_strip s).collapse_eq,
    squeeze_squeeze]

/-- Spaces around a collapsed text collapse again. -/
theorem collapse_spaced (s : Text) : collapse (' ' :: (collapse s ++ [' '])) = collapse s := by
  have hstrip := strip_append blank_space blank_space (collapse s)
  rw [← collapse_strip]
  show collapse (strip ([' '] ++ collapse s ++ [' '])) = _
  rw [hstrip, collapse_strip, collapse_collapse]

/-! ### Single spaces -/

/-- Whether the only blanks of a text are single spaces with something on either side. -/
structure SingleSpaced (s : Text) : Prop where
  trimmed : Trimmed s
  eq_space : ∀ c ∈ s, isBlank c = true → c = ' '
  not_isInfix : ¬ [' ', ' '] <:+: s

theorem eq_space_of_mem_squeeze {behindBlank : Bool} {s : Text} {c : Char}
    (h : c ∈ squeeze behindBlank s) (hc : isBlank c = true) : c = ' ' := by
  induction s generalizing behindBlank with
  | nil => cases h
  | cons d s ih =>
    cases hd : isBlank d with
    | true =>
      rw [squeeze, if_pos hd] at h
      split at h
      · exact ih h
      · exact (List.mem_cons.1 h).elim id ih
    | false =>
      rw [squeeze_cons_of_not_blank hd] at h
      rcases List.mem_cons.1 h with rfl | h
      · rw [hc] at hd
        cases hd
      · exact ih h

theorem head?_squeeze_true {s : Text} : ∀ c, (squeeze true s).head? = some c →
    isBlank c = false := by
  induction s with
  | nil => exact nofun
  | cons d s ih =>
    cases hd : isBlank d with
    | true =>
      rw [squeeze, if_pos hd, if_pos rfl]
      exact ih
    | false =>
      rw [squeeze_cons_of_not_blank hd]
      rintro c hc
      cases hc
      exact hd

theorem not_isInfix_squeeze (behindBlank : Bool) (s : Text) :
    ¬ [' ', ' '] <:+: squeeze behindBlank s := by
  induction s generalizing behindBlank with
  | nil => exact fun h => by simp [squeeze] at h
  | cons d s ih =>
    cases hd : isBlank d with
    | true =>
      rw [squeeze, if_pos hd]
      split
      · exact ih true
      · intro h
        rcases List.infix_cons_iff.1 h with h | h
        · obtain ⟨rest, hrest⟩ := (List.cons_prefix_cons.1 h).2
          have hspace := head?_squeeze_true (s := s) ' ' (by rw [← hrest]; rfl)
          exact absurd hspace (by decide)
        · exact ih true h
    | false =>
      rw [squeeze_cons_of_not_blank hd]
      intro h
      rcases List.infix_cons_iff.1 h with h | h
      · rw [← (List.cons_prefix_cons.1 h).1] at hd
        exact absurd hd (by decide)
      · exact ih false h

theorem singleSpaced_collapse (s : Text) : SingleSpaced (collapse s) := by
  have hsqueeze : collapse s = squeeze false (strip s) := by
    rw [← collapse_strip, (trimmed_strip s).collapse_eq]
  refine ⟨trimmed_collapse s, fun c hc => ?_, ?_⟩
  · rw [hsqueeze] at hc
    exact eq_space_of_mem_squeeze hc
  · rw [hsqueeze]
    exact not_isInfix_squeeze false (strip s)

theorem mem_collapse_iff {s : Text} {c : Char} (h : isBlank c = false) :
    c ∈ collapse s ↔ c ∈ s := by
  rw [← mem_dense_iff h, dense_collapse, mem_dense_iff h]

end TypeBridge.Text
