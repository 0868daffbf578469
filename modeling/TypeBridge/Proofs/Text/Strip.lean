import Mathlib.Data.List.DropRight
import TypeBridge.Text.Blank

/-!
Stripping. Main statements: a text is its stripped part with blanks on either side, blanks around a
text do not change what stripping leaves of it, and just the texts without blanks at their ends are
left as they are.
-/

namespace TypeBridge.Text

/-- Whether a text is nothing but blanks. -/
def Blank (s : Text) : Prop := ∀ c ∈ s, isBlank c = true

instance (s : Text) : Decidable (Blank s) := inferInstanceAs (Decidable (∀ c ∈ s, _))

/-- Whether a text has no blank at either end. -/
def Trimmed (s : Text) : Prop :=
  (∀ c, s.head? = some c → isBlank c = false) ∧ ∀ c, s.getLast? = some c → isBlank c = false

theorem isBlankText_iff {s : Text} : isBlankText s = true ↔ Blank s := List.all_eq_true

theorem isBlankText_eq_false_iff {s : Text} : isBlankText s = false ↔ ¬ Blank s := by
  rw [← isBlankText_iff, Bool.not_eq_true]

@[simp] theorem blank_nil : Blank [] := fun _ h => nomatch h

theorem blank_cons_iff {c : Char} {s : Text} : Blank (c :: s) ↔ isBlank c = true ∧ Blank s :=
  List.forall_mem_cons

theorem blank_append_iff {s t : Text} : Blank (s ++ t) ↔ Blank s ∧ Blank t :=
  List.forall_mem_append

@[simp] theorem blank_space : Blank [' '] := by
  intro c hc
  rw [List.mem_singleton.1 hc]
  decide

/-! ### Stripping one end -/

theorem stripStart_append {blanks : Text} (h : Blank blanks) (s : Text) :
    stripStart (blanks ++ s) = stripStart s :=
  List.dropWhile_append_of_pos h

theorem stripStart_eq_nil_iff {s : Text} : stripStart s = [] ↔ Blank s :=
  List.dropWhile_eq_nil_iff

theorem stripStart_eq_self {s : Text} (h : ∀ c, s.head? = some c → isBlank c = false) :
    stripStart s = s := by
  cases s with
  | nil => rfl
  | cons c s =>
    rw [stripStart, List.dropWhile_cons_of_neg]
    rw [h c rfl]
    exact Bool.false_ne_true

theorem head?_stripStart (s : Text) : ∀ c, (stripStart s).head? = some c → isBlank c = false := by
  intro c hc
  have h := List.head?_dropWhile_not isBlank s
  rw [stripStart] at hc
  rw [hc] at h
  exact h

theorem exists_stripStart (s : Text) : ∃ blanks, Blank blanks ∧ s = blanks ++ stripStart s := by
  refine ⟨s.takeWhile isBlank, fun c hc => List.mem_takeWhile_imp hc, ?_⟩
  rw [stripStart, List.takeWhile_append_dropWhile]

theorem reverse_stripEnd (s : Text) : (stripEnd s).reverse = stripStart s.reverse := by
  rw [stripEnd, List.reverse_reverse, stripStart]

theorem stripEnd_append {blanks : Text} (h : Blank blanks) (s : Text) :
    stripEnd (s ++ blanks) = stripEnd s := by
  rw [stripEnd, List.reverse_append, List.dropWhile_append_of_pos, stripEnd]
  intro c hc
  exact h c (List.mem_reverse.1 hc)

theorem stripEnd_eq_self {s : Text} (h : ∀ c, s.getLast? = some c → isBlank c = false) :
    stripEnd s = s := by
  have hr : stripStart s.reverse = s.reverse := by
    refine stripStart_eq_self fun c hc => h c ?_
    rw [← List.head?_reverse]
    exact hc
  rw [← List.reverse_inj, reverse_stripEnd, hr]

theorem getLast?_stripEnd (s : Text) : ∀ c, (stripEnd s).getLast? = some c → isBlank c = false := by
  intro c hc
  refine head?_stripStart s.reverse c ?_
  rw [← reverse_stripEnd, List.head?_reverse]
  exact hc

theorem exists_stripEnd (s : Text) : ∃ blanks, Blank blanks ∧ s = stripEnd s ++ blanks := by
  obtain ⟨blanks, hb, hs⟩ := exists_stripStart s.reverse
  refine ⟨blanks.reverse, fun c hc => hb c (List.mem_reverse.1 hc), ?_⟩
  rw [← List.reverse_inj, List.reverse_append, List.reverse_reverse, reverse_stripEnd]
  exact hs

/-! ### Stripping both ends -/

theorem strip_eq_nil_iff {s : Text} : strip s = [] ↔ Blank s := by
  constructor
  · intro h
    obtain ⟨l, hl, hs⟩ := exists_stripStart s
    obtain ⟨r, hr, hr'⟩ := exists_stripEnd (stripStart s)
    rw [strip] at h
    rw [h, List.nil_append] at hr'
    rw [hs, hr']
    exact blank_append_iff.2 ⟨hl, hr⟩
  · intro h
    rw [strip, stripStart_eq_nil_iff.2 h]
    rfl

theorem isEmpty_strip (s : Text) : (strip s).isEmpty = isBlankText s := by
  rw [Bool.eq_iff_iff, List.isEmpty_iff, strip_eq_nil_iff, isBlankText_iff]

theorem strip_append {l r : Text} (hl : Blank l) (hr : Blank r) (s : Text) :
    strip (l ++ s ++ r) = strip s := by
  rw [strip, List.append_assoc, stripStart_append hl, strip]
  by_cases hs : Blank s
  · rw [stripStart_eq_nil_iff.2 hs, stripStart_eq_nil_iff.2 (blank_append_iff.2 ⟨hs, hr⟩)]
  · have hne : stripStart s ≠ [] := fun h => hs (stripStart_eq_nil_iff.1 h)
    have happ : stripStart (s ++ r) = stripStart s ++ r := by
      rw [stripStart, List.dropWhile_append, if_neg]
      · rfl
      · intro e
        exact hne (List.isEmpty_iff.1 e)
    rw [happ, stripEnd_append hr]

theorem strip_cons_space (s : Text) : strip (' ' :: s) = strip s := by
  simpa using strip_append blank_space blank_nil s

theorem Trimmed.strip_eq {s : Text} (h : Trimmed s) : strip s = s := by
  rw [strip, stripStart_eq_self h.1, stripEnd_eq_self h.2]

theorem trimmed_strip (s : Text) : Trimmed (strip s) := by
  refine ⟨fun c hc => ?_, getLast?_stripEnd _⟩
  obtain ⟨rest, hrest⟩ := stripEnd_isPrefix (stripStart s)
  refine head?_stripStart s c ?_
  rw [← hrest]
  rw [strip] at hc
  cases hs : stripEnd (stripStart s) with
  | nil =>
    rw [hs] at hc
    cases hc
  | cons d t =>
    rw [hs] at hc
    exact hc

theorem trimmed_iff {s : Text} : Trimmed s ↔ strip s = s :=
  ⟨Trimmed.strip_eq, fun h => h ▸ trimmed_strip s⟩

@[simp] theorem strip_strip (s : Text) : strip (strip s) = strip s := (trimmed_strip s).strip_eq

theorem exists_strip (s : Text) : ∃ l r, Blank l ∧ Blank r ∧ s = l ++ strip s ++ r := by
  obtain ⟨l, hl, hs⟩ := exists_stripStart s
  obtain ⟨r, hr, hr'⟩ := exists_stripEnd (stripStart s)
  refine ⟨l, r, hl, hr, ?_⟩
  rw [List.append_assoc, strip, ← hr']
  exact hs

@[simp] theorem trimmed_nil : Trimmed [] := trimmed_iff.2 rfl

theorem Trimmed.not_blank {s : Text} (h : Trimmed s) (hne : s ≠ []) : ¬ Blank s := by
  intro hb
  refine hne ?_
  rw [← h.strip_eq]
  exact strip_eq_nil_iff.2 hb

/-- A text that ends with no blank has no blanks behind it. -/
theorem eq_nil_of_append_blank {s blanks : Text}
    (hs : ∀ c, (s ++ blanks).getLast? = some c → isBlank c = false) (hb : Blank blanks) :
    blanks = [] := by
  by_contra hne
  obtain ⟨c, hc⟩ := Option.ne_none_iff_exists'.1 (mt List.getLast?_eq_none_iff.1 hne)
  have hlast : (s ++ blanks).getLast? = some c := by
    rw [List.getLast?_append, hc]
    rfl
  have hblank := hb c (List.mem_of_getLast? hc)
  rw [hs c hlast] at hblank
  exact Bool.false_ne_true hblank

theorem Trimmed.append {s t : Text} (hs : Trimmed s) (ht : Trimmed t) (hsn : s ≠ [])
    (htn : t ≠ []) (between : Text) : Trimmed (s ++ between ++ t) := by
  constructor
  · intro c hc
    rw [List.append_assoc, List.head?_append_of_ne_nil _ hsn] at hc
    exact hs.1 c hc
  · intro c hc
    rw [List.getLast?_append_of_ne_nil _ htn] at hc
    exact ht.2 c hc

theorem trimmed_intercalate (separator : Text) {texts : List Text}
    (h : ∀ t ∈ texts, Trimmed t ∧ t ≠ []) : Trimmed (separator.intercalate texts) := by
  have hne : ∀ {t : Text} {rest : List Text}, t ≠ [] → separator.intercalate (t :: rest) ≠ [] := by
    intro t rest ht
    rw [intercalate_cons]
    exact List.append_ne_nil_of_left_ne_nil ht _
  induction texts with
  | nil => exact trimmed_nil
  | cons s rest ih =>
    obtain ⟨hs, hrest⟩ := List.forall_mem_cons.1 h
    cases rest with
    | nil =>
      rw [List.intercalate_singleton]
      exact hs.1
    | cons t rest =>
      have ht := (hrest t List.mem_cons_self).2
      rw [List.intercalate_cons_cons]
      exact hs.1.append (ih hrest) hs.2 (hne ht) separator

end TypeBridge.Text
