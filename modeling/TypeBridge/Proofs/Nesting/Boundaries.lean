import Mathlib.Data.List.Forall2
import TypeBridge.Proofs.Nesting.Commas
import TypeBridge.Proofs.Text.Collapse

/-!
Where the elements of a printed list end. A list can be cut at other commas than those it was
printed with, but then some piece would have to stand for more text than it holds. Main statement:
if each kept piece covers the element that it stands for, the pieces are the printed elements.
-/

namespace TypeBridge

namespace Text

/-- The number of characters other than blanks and commas. -/
def core (s : Text) : Nat := s.countP fun c => !isBlank c && c != ','

theorem core_of_blank {c : Char} (h : isBlank c = true) : (!isBlank c && c != ',') = false := by
  rw [h]
  rfl

theorem comma_of_blank {c : Char} (h : isBlank c = true) : (c == ',') = false := by
  rw [beq_eq_false_iff_ne]
  rintro rfl
  exact absurd h (by decide)

@[simp] theorem core_append (s t : Text) : core (s ++ t) = core s + core t := List.countP_append

theorem core_dense (s : Text) : core (dense s) = core s := countP_dense (fun _ => core_of_blank) s

theorem count_comma_dense (s : Text) : (dense s).count ',' = s.count ',' :=
  countP_dense (fun _ => comma_of_blank) s

theorem core_strip (s : Text) : core (strip s) = core s := by
  rw [← core_dense, dense_strip, core_dense]

theorem count_comma_strip (s : Text) : (strip s).count ',' = s.count ',' := by
  rw [← count_comma_dense, dense_strip, count_comma_dense]

theorem core_comma : core [','] = 0 := by decide

theorem core_intercalate_cons {separator : Text} (h : core separator = 0) (s : Text)
    (rest : List Text) :
    core (separator.intercalate (s :: rest)) = core s + core (separator.intercalate rest) := by
  cases rest with
  | nil => simp [core]
  | cons t rest => rw [List.intercalate_cons_cons, core_append, core_append, h, Nat.add_zero]

/-- What separates texts adds nothing to their core. -/
theorem core_intercalate {separator : Text} (h : core separator = 0) (texts : List Text) :
    core (separator.intercalate texts) = core ([','].intercalate texts) := by
  induction texts with
  | nil => rfl
  | cons s rest ih => rw [core_intercalate_cons h, core_intercalate_cons core_comma, ih]

/-- Text without a core ends, but for blanks, with its last comma. -/
theorem exists_last_comma {s : Text} (h : core s = 0) (hc : ',' ∈ s) :
    ∃ init blanks, s = init ++ ',' :: blanks ∧ Blank blanks := by
  induction s with
  | nil => cases hc
  | cons c s ih =>
    obtain ⟨hcs, hs⟩ : core [c] = 0 ∧ core s = 0 := by
      rw [← List.singleton_append, core_append] at h
      omega
    by_cases hm : ',' ∈ s
    · obtain ⟨init, blanks, rfl, hb⟩ := ih hs hm
      exact ⟨c :: init, blanks, rfl, hb⟩
    · have hblank : Blank s := by
        intro d hd
        have hzero := List.countP_eq_zero.1 hs d hd
        have hne : d ≠ ',' := fun e => hm (e ▸ hd)
        simpa [hne] using hzero
      rcases List.mem_cons.1 hc with rfl | hc
      · exact ⟨[], s, rfl, hblank⟩
      · exact absurd hc hm

/-- A character that is no blank ends a stripped text if only blanks follow it. -/
theorem getLast?_strip_append {blanks : Text} {c : Char} (hc : isBlank c = false)
    (hb : Blank blanks) (s : Text) : (strip (s ++ c :: blanks)).getLast? = some c := by
  have htrim : Trimmed [c] := by
    constructor <;> (rintro d hd; cases hd; exact hc)
  by_cases hs : Blank s
  · have hsplit : s ++ c :: blanks = s ++ [c] ++ blanks := by simp
    rw [hsplit, strip_append hs hb, htrim.strip_eq]
    rfl
  · obtain ⟨l, r, hl, hr, hsr⟩ := exists_strip s
    have hne : strip s ≠ [] := fun h => hs (strip_eq_nil_iff.1 h)
    have hsplit : s ++ c :: blanks = l ++ (strip s ++ (r ++ [c])) ++ blanks := by
      conv =>
        lhs
        rw [hsr]
      simp
    have htrimmed : Trimmed (strip s ++ (r ++ [c])) := by
      refine ⟨fun d hd => (trimmed_strip s).1 d ?_, fun d hd => htrim.2 d ?_⟩
      · rwa [List.head?_append_of_ne_nil _ hne] at hd
      · rwa [← List.append_assoc, List.getLast?_append_of_ne_nil _ (List.cons_ne_nil c [])] at hd
    rw [hsplit, strip_append hl hb, htrimmed.strip_eq, ← List.append_assoc, List.getLast?_concat]

end Text

/-! ### Covering -/

/-- Whether a text holds all that another prints, and no comma more or less if either of them ends
with one. -/
structure Covers (s p : Text) : Prop where
  core_le : Text.core p ≤ Text.core s
  count_comma : p.getLast? = some ',' ∨ s.getLast? = some ',' → p.count ',' = s.count ','

/-- Whether a text can be what another is printed as between the commas of a list. -/
def Follows (s : Text) : Prop := s = [] ∨ ∃ rest, s = ',' :: rest

theorem Follows.of_append {s t : Text} (h : Follows (s ++ t)) : Follows s := by
  cases s with
  | nil => exact .inl rfl
  | cons c s =>
    rcases h with h | ⟨rest, h⟩
    · cases h
    · exact .inr ⟨s, by rw [(List.cons.inj h).1]⟩

/-- Two texts that begin a list and have the same core are the same, if one covers the other. -/
theorem eq_of_covers {x t r r' : Text} (h : x ++ r = t ++ r') (hr : Follows r) (hr' : Follows r')
    (hc : Covers (Text.strip x) (Text.strip t)) (hcore : Text.core t = Text.core x) : x = t := by
  -- What is left over of the longer text would begin with a comma and hold nothing else.
  have hend : ∀ {y u : Text}, Follows u → u ≠ [] → Text.core (y ++ u) = Text.core y →
      (Text.strip (y ++ u)).getLast? = some ',' ∧ (y ++ u).count ',' ≠ y.count ',' := by
    intro y u hu hne hcore
    obtain ⟨rest, rfl⟩ := hu.resolve_left hne
    have hzero : Text.core (',' :: rest) = 0 := by
      rw [Text.core_append] at hcore
      omega
    obtain ⟨init, blanks, hsplit, hb⟩ := Text.exists_last_comma hzero List.mem_cons_self
    constructor
    · rw [hsplit, ← List.append_assoc]
      exact Text.getLast?_strip_append (by decide) hb _
    · rw [List.count_append, List.count_cons_self]
      omega
  have hcount := hc.count_comma
  rw [Text.count_comma_strip, Text.count_comma_strip] at hcount
  rcases List.append_eq_append_iff.1 h with ⟨u, rfl, rfl⟩ | ⟨u, rfl, rfl⟩
  · by_cases hu : u = []
    · rw [hu, List.append_nil]
    · obtain ⟨hlast, hne⟩ := hend hr.of_append hu hcore
      exact absurd (hcount (.inl hlast)) hne
  · by_cases hu : u = []
    · rw [hu, List.append_nil]
    · obtain ⟨hlast, hne⟩ := hend hr'.of_append hu hcore.symm
      exact absurd (hcount (.inr hlast)).symm hne

/-! ### Kept pieces -/

section

variable {α : Type} {f : Text → Option α}

theorem core_intercalate_le {pieces texts : List Text}
    (hkeep : List.Forall₂ (fun a t => ∀ piece, f piece = some a →
      Covers (Text.strip piece) (Text.strip t)) (pieces.filterMap f) texts) :
    Text.core ([','].intercalate texts) ≤ Text.core ([','].intercalate pieces) := by
  induction pieces generalizing texts with
  | nil =>
    cases hkeep
    exact Nat.le_refl _
  | cons piece pieces ih =>
    rw [Text.core_intercalate_cons Text.core_comma]
    cases hf : f piece with
    | none =>
      rw [List.filterMap_cons_none hf] at hkeep
      have := ih hkeep
      omega
    | some a =>
      rw [List.filterMap_cons_some hf] at hkeep
      cases hkeep with
      | cons hcover hrest =>
        have hle := (hcover piece hf).core_le
        rw [Text.core_strip, Text.core_strip] at hle
        have := ih hrest
        rw [Text.core_intercalate_cons Text.core_comma]
        omega

/-- No piece before or between the elements is left out: it would be blank, and then an element
would begin with a comma. -/
theorem ne_of_blank {piece t : Text} {pieces rest : List Text} (hb : Text.Blank piece)
    (ht : ¬ Text.Blank t) (hhead : (Text.strip t).head? ≠ some ',') :
    [','].intercalate (piece :: pieces) ≠ [','].intercalate (t :: rest) := by
  intro h
  obtain ⟨l, r, hl, _, hsplit⟩ := Text.exists_strip t
  have htrim := Text.trimmed_strip t
  cases hm : Text.strip t with
  | nil => exact ht (Text.strip_eq_nil_iff.1 hm)
  | cons c m =>
    rw [hm] at hhead hsplit htrim
    have hc : Text.isBlank c = false := htrim.1 c rfl
    have hstart : ∀ {c : Char} {blanks s : Text}, Text.Blank blanks → Text.isBlank c = false →
        Text.stripStart (blanks ++ c :: s) = c :: s := by
      intro c blanks s hb hc
      rw [Text.stripStart_append hb]
      exact Text.stripStart_eq_self (by rintro d hd; cases hd; exact hc)
    rw [Text.intercalate_cons _ t, hsplit, List.append_assoc, List.append_assoc, List.cons_append,
      Text.intercalate_cons] at h
    have hstrip := congrArg Text.stripStart h
    rw [hstart hl hc] at hstrip
    split at hstrip
    · rw [List.append_nil, Text.stripStart_eq_nil_iff.2 hb] at hstrip
      cases hstrip
    · have hcomma : Text.isBlank ',' = false := by decide
      rw [List.singleton_append, hstart hb hcomma] at hstrip
      exact hhead (congrArg some (List.cons.inj hstrip).1.symm)

theorem core_intercalate_append {texts ending : List Text} (hend : ending = [] ∨ ending = [[]]) :
    Text.core ([','].intercalate (texts ++ ending)) = Text.core ([','].intercalate texts) := by
  induction texts with
  | nil => rcases hend with rfl | rfl <;> rfl
  | cons t rest ih =>
    rw [List.cons_append, Text.core_intercalate_cons Text.core_comma, ih,
      Text.core_intercalate_cons Text.core_comma]

/-- The pieces of a printed list are its elements, if each kept piece covers one of them. The list
may end with a comma, which leaves an empty text behind it. -/
theorem eq_of_filterMap {pieces texts ending : List Text} (hend : ending = [] ∨ ending = [[]])
    (hne : texts ++ ending ≠ []) (hpieces : pieces ≠ [])
    (hjoin : [','].intercalate pieces = [','].intercalate (texts ++ ending))
    (hdrop : ∀ piece ∈ pieces, f piece = none → Text.Blank piece ∨ 0 < Text.core piece)
    (hhead : ∀ t ∈ texts, ¬ Text.Blank t ∧ (Text.strip t).head? ≠ some ',')
    (hkeep : List.Forall₂ (fun a t => ∀ piece, f piece = some a →
      Covers (Text.strip piece) (Text.strip t)) (pieces.filterMap f) texts) :
    pieces = texts ++ ending := by
  induction pieces generalizing texts with
  | nil => exact absurd rfl hpieces
  | cons piece pieces ih =>
    obtain ⟨hd, hds⟩ := List.forall_mem_cons.1 hdrop
    have hcore := congrArg Text.core hjoin
    rw [Text.core_intercalate_cons Text.core_comma, core_intercalate_append hend] at hcore
    cases hf : f piece with
    | none =>
      rw [List.filterMap_cons_none hf] at hkeep
      cases texts with
      | nil =>
        obtain rfl : ending = [[]] := hend.resolve_left hne
        have hempty : [','].intercalate (piece :: pieces) = [] := hjoin
        rw [Text.intercalate_cons] at hempty
        obtain ⟨rfl, hnone⟩ := List.append_eq_nil_iff.1 hempty
        split at hnone
        · rename_i hp
          rw [hp]
          rfl
        · cases hnone
      | cons t rest =>
        obtain ⟨ht, _⟩ := List.forall_mem_cons.1 hhead
        rcases hd hf with hb | hpos
        · exact absurd hjoin (ne_of_blank hb ht.1 ht.2)
        · have hle := core_intercalate_le hkeep
          omega
    | some a =>
      rw [List.filterMap_cons_some hf] at hkeep
      cases hkeep with
      | @cons _ t _ rest hcover hrest =>
        have hc := hcover piece hf
        have hle := hc.core_le
        have hles := core_intercalate_le hrest
        rw [Text.core_strip, Text.core_strip] at hle
        rw [Text.core_intercalate_cons Text.core_comma] at hcore
        have hfollows : ∀ others : List Text,
            Follows (if others = [] then [] else [','] ++ [','].intercalate others) := by
          intro others
          split
          · exact .inl rfl
          · exact .inr ⟨_, rfl⟩
        rw [List.cons_append, Text.intercalate_cons, Text.intercalate_cons _ t] at hjoin
        have hpiece : piece = t :=
          eq_of_covers hjoin (hfollows pieces) (hfollows (rest ++ ending)) hc (by omega)
        rw [hpiece] at hjoin ⊢
        have htail := List.append_cancel_left hjoin
        by_cases hr : rest ++ ending = []
        · rw [hr, if_pos rfl] at htail
          split at htail
          · rename_i hp
            rw [hp, List.cons_append, hr]
          · cases htail
        · rw [if_neg hr] at htail
          split at htail
          · cases htail
          · rename_i hp
            have hrestjoin := List.append_cancel_left htail
            rw [ih hr hp hrestjoin hds (List.forall_mem_cons.1 hhead).2 hrest, List.cons_append]

end

end TypeBridge
