/-!
Text as a list of characters, with what type text needs beside the operations on lists. A `Text` is
a list of Unicode scalar values, so a position counts characters and every operation is a recursion
on the list. Main statements: several texts put one after the other with a separator between them
hold each of them in one piece, and `cutAt?` cuts at the first occurrence.
-/

namespace TypeBridge

/-- Text is the list of its characters. -/
abbrev Text := List Char

/-- What is said of all characters of a text is decided on the text, never over all characters. -/
instance decidableForallMem (s : Text) (p : Char → Prop) [DecidablePred p] :
    Decidable (∀ c ∈ s, p c) :=
  List.decidableBAll p s

namespace Text

/-! ### Starts and ends -/

theorem isPrefixOf_singleton_iff {c : Char} {s : Text} :
    [c].isPrefixOf s = true ↔ s.head? = some c := by
  rw [List.isPrefixOf_iff_prefix, List.cons_prefix_iff, List.head?_eq_some_iff]
  simp

theorem isPrefixOf?_cons_self (c : Char) (start s : Text) :
    (c :: start).isPrefixOf? (c :: s) = start.isPrefixOf? s :=
  if_pos (beq_self_eq_true c)

theorem isPrefixOf?_cons_of_ne {a c : Char} (h : a ≠ c) (start s : Text) :
    (a :: start).isPrefixOf? (c :: s) = none :=
  if_neg fun e => h (beq_iff_eq.1 e)

theorem length_isPrefixOf? : ∀ {start s rest : Text}, start.isPrefixOf? s = some rest →
    s.length = start.length + rest.length
  | [], _, _, h => by
    cases h
    exact (Nat.zero_add _).symm
  | _ :: _, [], _, h => by cases h
  | a :: start, c :: s, rest, h => by
    by_cases hc : a = c
    · rw [hc, isPrefixOf?_cons_self] at h
      rw [List.length_cons, List.length_cons, length_isPrefixOf? h]
      omega
    · rw [isPrefixOf?_cons_of_ne hc] at h
      cases h

theorem length_isSuffixOf? {final s body : Text} (h : final.isSuffixOf? s = some body) :
    s.length = body.length + final.length := by
  obtain ⟨reversed, hr, rfl⟩ := Option.map_eq_some_iff.1 h
  have hlength := length_isPrefixOf? hr
  rw [List.length_reverse, List.length_reverse] at hlength
  rw [List.length_reverse]
  omega

/-! ### Several texts -/

/-- What follows the first of several texts with a separator between them: nothing, or a separator
and the others. -/
theorem intercalate_cons (separator s : Text) (rest : List Text) :
    separator.intercalate (s :: rest)
      = s ++ if rest = [] then [] else separator ++ separator.intercalate rest := by
  cases rest with
  | nil => simp
  | cons t rest => simp

theorem intercalate_append (separator : Text) {texts : List Text} (h : texts ≠ [])
    (others : List Text) : separator.intercalate (texts ++ others)
      = separator.intercalate texts
        ++ if others = [] then [] else separator ++ separator.intercalate others := by
  induction texts with
  | nil => exact absurd rfl h
  | cons s rest ih =>
    cases rest with
    | nil => simpa using intercalate_cons separator s others
    | cons t rest =>
      have ht := ih (List.cons_ne_nil t rest)
      rw [List.cons_append] at ht
      rw [List.cons_append, List.cons_append, List.intercalate_cons_cons, ht,
        List.intercalate_cons_cons, List.append_assoc _ (separator.intercalate (t :: rest))]

theorem intercalate_modifyHead_cons (separator : Text) (c : Char) {texts : List Text}
    (h : texts ≠ []) :
    separator.intercalate (texts.modifyHead (c :: ·)) = c :: separator.intercalate texts := by
  cases texts with
  | nil => exact absurd rfl h
  | cons s rest => exact List.intercalate_cons_cons_left

theorem mem_intercalate {separator : Text} {c : Char} : ∀ {texts : List Text},
    c ∈ separator.intercalate texts → c ∈ separator ∨ ∃ s ∈ texts, c ∈ s
  | [], h => by simp at h
  | s :: rest, h => by
    rw [intercalate_cons, List.mem_append] at h
    rcases h with h | h
    · exact .inr ⟨s, List.mem_cons_self, h⟩
    · split at h
      · cases h
      · rcases List.mem_append.1 h with h | h
        · exact .inl h
        · rcases mem_intercalate h with h | ⟨t, ht, hc⟩
          · exact .inl h
          · exact .inr ⟨t, List.mem_cons_of_mem _ ht, hc⟩

theorem not_mem_intercalate {separator : Text} {c : Char} {texts : List Text} (hs : c ∉ separator)
    (ht : ∀ t ∈ texts, c ∉ t) : c ∉ separator.intercalate texts := by
  intro h
  rcases mem_intercalate h with h | ⟨t, hm, h⟩
  · exact hs h
  · exact ht t hm h

theorem isInfix_intercalate (separator : Text) {t : Text} {texts : List Text} (h : t ∈ texts) :
    t <:+: separator.intercalate texts := by
  induction texts with
  | nil => cases h
  | cons u rest ih =>
    rw [intercalate_cons]
    rcases List.mem_cons.1 h with rfl | h
    · exact (List.prefix_append _ _).isInfix
    · have hrest : t <:+: separator ++ separator.intercalate rest :=
        (ih h).trans (List.suffix_append _ _).isInfix
      rw [if_neg (List.ne_nil_of_mem h)]
      exact hrest.trans (List.suffix_append _ _).isInfix

theorem mem_intercalate_of_mem (separator : Text) {t : Text} {texts : List Text} {c : Char}
    (ht : t ∈ texts) (hc : c ∈ t) : c ∈ separator.intercalate texts :=
  (isInfix_intercalate separator ht).subset hc

theorem length_flatten_le_of_sublist {texts others : List Text} (h : others.Sublist texts) :
    others.flatten.length ≤ texts.flatten.length := by
  induction h with
  | slnil => exact Nat.le_refl 0
  | cons t _ ih =>
    rw [List.flatten_cons, List.length_append]
    omega
  | cons_cons t _ ih =>
    rw [List.flatten_cons, List.flatten_cons, List.length_append, List.length_append]
    omega

/-- Lists made of several texts are together no longer than these, but for what each may have more
than its text. -/
theorem length_flatMap_le {α : Type} {f : Text → List α} (more : Nat) : ∀ {texts : List Text},
    (∀ t ∈ texts, (f t).length ≤ t.length + more) →
      (texts.flatMap f).length ≤ texts.flatten.length + more * texts.length
  | [], _ => Nat.le_refl 0
  | t :: rest, h => by
    obtain ⟨ht, hrest⟩ := List.forall_mem_cons.1 h
    have ih := length_flatMap_le more hrest
    rw [List.flatMap_cons, List.length_append, List.flatten_cons, List.length_append,
      List.length_cons, Nat.mul_succ]
    omega

/-! ### Cuts -/

/-- The text before the first `c` and the text after it. -/
def cutAt? (c : Char) : Text → Option (Text × Text)
  | [] => none
  | d :: s => if d = c then some ([], s) else (cutAt? c s).map fun p => (d :: p.1, p.2)

theorem cutAt?_eq_some (c : Char) : ∀ {s before after : Text},
    cutAt? c s = some (before, after) → s = before ++ c :: after ∧ c ∉ before
  | [], _, _, h => by simp [cutAt?] at h
  | d :: s, before, after, h => by
    by_cases hd : d = c
    · subst hd
      simp only [cutAt?, if_true, Option.some.injEq, Prod.mk.injEq] at h
      obtain ⟨rfl, rfl⟩ := h
      simp
    · simp only [cutAt?, hd, if_false, Option.map_eq_some_iff, Prod.mk.injEq, Prod.exists] at h
      obtain ⟨b, a, hba, rfl, rfl⟩ := h
      obtain ⟨rfl, hb⟩ := cutAt?_eq_some c hba
      exact ⟨by simp, by simp [Ne.symm hd, hb]⟩

theorem cutAt?_append {c : Char} : ∀ {before : Text} (after : Text), c ∉ before →
    cutAt? c (before ++ c :: after) = some (before, after)
  | [], after, _ => by simp [cutAt?]
  | d :: before, after, h => by
    obtain ⟨hd, hb⟩ := not_or.1 fun e => h (List.mem_cons.2 e)
    rw [List.cons_append, cutAt?, if_neg (Ne.symm hd), cutAt?_append after hb]
    rfl

theorem cutAt?_eq_none_iff (c : Char) : ∀ {s : Text}, cutAt? c s = none ↔ c ∉ s
  | [] => by simp [cutAt?]
  | d :: s => by
    by_cases hd : d = c
    · subst hd; simp [cutAt?]
    · simp [cutAt?, hd, Ne.symm hd, cutAt?_eq_none_iff c (s := s)]

end Text

end TypeBridge
