import Mathlib.Data.List.DropRight
import TypeBridge.Proofs.Text.Strip
import TypeBridge.Text.Ident
import TypeBridge.Text.Word

/-!
Words and identifiers in text. Main statements: no blank is a word character; every identifier
character is one; the identifier at the start of a text is cut off where its characters end; and
`afterWord?` looks at the first stretch of word characters alone.
-/

namespace TypeBridge.Text

/-! ### Characters -/

theorem isWord_eq_false_of_isBlank {c : Char} (h : isBlank c = true) : isWord c = false := by
  have htable : ∀ range ∈ blankRanges, ∀ k < range.2 + 1 - range.1,
      isWord (Char.ofNat (range.1 + k)) = false := by decide +kernel
  obtain ⟨range, hr, hlow, hhigh⟩ := Ranges.contains_iff.1 h
  have hc := htable range hr (c.toNat - range.1) (by omega)
  rwa [Nat.add_sub_cancel' hlow, Char.ofNat_toNat] at hc

theorem isWord_of_isIdentChar {c : Char} (h : isIdentChar c = true) : isWord c = true := by
  rcases (Bool.or_eq_true _ _).mp h with h | h
  · exact isWord_of_isAlphanum h
  · rw [beq_iff_eq.1 h]
    decide

theorem isIdentChar_of_isIdentStart {c : Char} (h : isIdentStart c = true) :
    isIdentChar c = true := by
  rcases (Bool.or_eq_true _ _).mp h with h | h
  · refine (Bool.or_eq_true _ _).mpr (.inl ?_)
    rw [Char.isAlphanum, h, Bool.true_or]
  · exact (Bool.or_eq_true _ _).mpr (.inr h)

theorem isBlank_eq_false_of_isIdentChar {c : Char} (h : isIdentChar c = true) :
    isBlank c = false := by
  cases hb : isBlank c with
  | false => rfl
  | true =>
    have := isWord_eq_false_of_isBlank hb
    rw [isWord_of_isIdentChar h] at this
    exact this

theorem ne_of_isIdentChar {c d : Char} (h : isIdentChar c = true) (hd : isIdentChar d = false) :
    c ≠ d := by
  rintro rfl
  rw [h] at hd
  exact absurd hd (by decide)

/-! ### Identifiers -/

theorem isIdent_cons_iff {c : Char} {s : Text} :
    isIdent (c :: s) = true ↔ isIdentStart c = true ∧ ∀ d ∈ s, isIdentChar d = true := by
  rw [isIdent, Bool.and_eq_true, List.all_eq_true]

theorem isIdent_ne_nil {s : Text} (h : isIdent s = true) : s ≠ [] := by
  rintro rfl
  cases h

theorem isIdentChar_of_mem_isIdent {s : Text} (h : isIdent s = true) :
    ∀ c ∈ s, isIdentChar c = true := by
  cases s with
  | nil => cases h
  | cons c s =>
    obtain ⟨hc, hs⟩ := isIdent_cons_iff.1 h
    exact List.forall_mem_cons.2 ⟨isIdentChar_of_isIdentStart hc, hs⟩

theorem takeWhile_append_of_head {p : Char → Bool} {s rest : Text} (hs : ∀ c ∈ s, p c = true)
    (hrest : ∀ c, rest.head? = some c → p c = false) : (s ++ rest).takeWhile p = s := by
  rw [List.takeWhile_append_of_pos hs]
  cases rest with
  | nil => simp
  | cons c rest => simp [hrest c rfl]

theorem dropWhile_append_of_head {p : Char → Bool} {s rest : Text} (hs : ∀ c ∈ s, p c = true)
    (hrest : ∀ c, rest.head? = some c → p c = false) : (s ++ rest).dropWhile p = rest := by
  rw [List.dropWhile_append_of_pos hs]
  cases rest with
  | nil => rfl
  | cons c rest => simp [hrest c rfl]

/-- An identifier is cut off where no character of identifiers follows. -/
theorem cutIdent?_append {ident rest : Text} (h : isIdent ident = true)
    (hrest : ∀ c, rest.head? = some c → isIdentChar c = false) :
    cutIdent? (ident ++ rest) = some (ident, rest) := by
  cases ident with
  | nil => cases h
  | cons c s =>
    obtain ⟨hc, hs⟩ := isIdent_cons_iff.1 h
    rw [List.cons_append, cutIdent?, if_pos hc, takeWhile_append_of_head hs hrest,
      dropWhile_append_of_head hs hrest]

theorem cutIdent?_eq_none {s : Text} (h : ∀ c, s.head? = some c → isIdentStart c = false) :
    cutIdent? s = none := by
  cases s with
  | nil => rfl
  | cons c s =>
    rw [cutIdent?, if_neg]
    rw [h c rfl]
    exact Bool.false_ne_true

/-! ### Whole words -/

theorem atWordEnd_iff {s : Text} :
    atWordEnd s = true ↔ ∀ c, s.head? = some c → isWord c = false := by
  cases s <;> simp [atWordEnd]

theorem afterWord?_append {word rest : Text} (h : ∀ c, rest.head? = some c → isWord c = false) :
    afterWord? word (word ++ rest) = some rest := by
  have hword : word.isPrefixOf? (word ++ rest) = some rest :=
    List.isPrefixOf?_eq_some_iff_append_eq.2 rfl
  rw [afterWord?, hword, Option.filter_some, if_pos (atWordEnd_iff.2 h)]

/-- A whole word stands at the start of a text just when it is the first stretch of word
characters. -/
theorem isSome_afterWord?_iff {word s : Text} (hw : ∀ c ∈ word, isWord c = true) :
    (afterWord? word s).isSome = true ↔ s.takeWhile isWord = word := by
  constructor
  · intro h
    obtain ⟨rest, hrest⟩ := Option.isSome_iff_exists.1 h
    obtain ⟨hstart, hend⟩ := Option.filter_eq_some_iff.1 hrest
    rw [← List.append_eq_of_isPrefixOf?_eq_some hstart]
    exact takeWhile_append_of_head hw (atWordEnd_iff.1 hend)
  · intro h
    have hs : s = word ++ s.dropWhile isWord := by
      rw [← h, List.takeWhile_append_dropWhile]
    have hend := List.head?_dropWhile_not isWord s
    rw [hs, afterWord?_append]
    · rfl
    · intro c hc
      rw [hc] at hend
      exact hend

/-- Blanks at the end of a text are not part of the word that it begins with. -/
theorem takeWhile_isWord_strip {s : Text} (h : ∀ c, s.head? = some c → isBlank c = false) :
    (strip s).takeWhile isWord = s.takeWhile isWord := by
  obtain ⟨blanks, hb, hs⟩ := exists_stripEnd s
  have hnone : blanks.takeWhile isWord = [] := by
    cases blanks with
    | nil => rfl
    | cons c blanks =>
      have hc := isWord_eq_false_of_isBlank (hb c List.mem_cons_self)
      rw [List.takeWhile_cons, hc]
      rfl
  rw [strip, stripStart_eq_self h]
  conv =>
    rhs
    rw [hs, List.takeWhile_append, hnone, List.append_nil]
  split
  · rename_i hlen
    exact (List.takeWhile_prefix isWord).eq_of_length hlen
  · rfl

end TypeBridge.Text
