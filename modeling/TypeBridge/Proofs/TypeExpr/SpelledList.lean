import Mathlib.Data.List.Forall2
import TypeBridge.Proofs.Nesting.Depth
import TypeBridge.Proofs.TypeExpr.Peel
import TypeBridge.Proofs.TypeExpr.Read
import TypeBridge.Proofs.TypeExpr.Spelling

/-!
Lists in a text that lays out their tokens. Main statements: the text of a list splits into one
piece for each item, and perhaps a blank one at its end; so a list of generic arguments has the
arguments that its types spell, without its lifetimes.
-/

namespace TypeBridge

namespace LaidOut

variable {tokens : List Text} {token s : Text}

theorem lastOr_ne : ∀ {tokens : List Text} {s : Text} {before : Option Char}, LaidOut tokens s →
    (∀ t ∈ tokens, IsToken t) → before ≠ some '-' → lastOr before s ≠ some '-'
  | [], _, _, h, _, hb => lastOr_ne_of_blank h hb
  | token :: tokens, _, before, ⟨gap, rest, hg, hs, hr, _⟩, ht, hb => by
    obtain ⟨htoken, htail⟩ := List.forall_mem_cons.1 ht
    have hgap := lastOr_ne_of_blank hg hb
    rw [hs, lastOr_append, lastOr_append]
    exact lastOr_ne hr htail (lastOr_ne_of_getLast? htoken.not_arrow hgap)

/-- The last token ends a text that has no blank at its end. -/
theorem exists_concat (h : LaidOut (tokens ++ [token]) s)
    (hs : ∀ c ∈ s.getLast?, Text.isBlank c = false) : ∃ a, s = a ++ token ∧ LaidOut tokens a := by
  obtain ⟨a, b, rfl, ha, hb⟩ := h.exists_append_cons
  have hnil : b = [] := by
    rw [← List.append_assoc] at hs
    exact Text.eq_nil_of_append_blank hs hb
  exact ⟨a, by rw [hnil, List.append_nil], ha⟩

theorem stripStart (h : LaidOut (token :: tokens) s) (ht : IsToken token) :
    LaidOut (token :: tokens) (Text.stripStart s) ∧ Text.stripStart s ≠ [] := by
  obtain ⟨gap, rest, hg, rfl, hr, hw⟩ := h
  have hself : Text.stripStart (token ++ rest) = token ++ rest := by
    refine Text.stripStart_eq_self fun c hc => ?_
    rw [List.head?_append_of_ne_nil _ ht.ne_nil] at hc
    exact ht.trimmed.1 c hc
  rw [Text.stripStart_append hg, hself]
  refine ⟨⟨[], rest, Text.blank_nil, rfl, hr, hw⟩, fun e => ht.ne_nil ?_⟩
  exact (List.append_eq_nil_iff.1 e).1

/-- A text that lays out rows with commas between them has a piece for each row. -/
theorem exists_pieces : ∀ {items : List (List Text)} {s : Text}, items ≠ [] →
    LaidOut (separatedTokens items) s →
      ∃ pieces, s = [','].intercalate pieces ∧ List.Forall₂ LaidOut items pieces
  | [], _, hne, _ => absurd rfl hne
  | [tokens], s, _, h => ⟨[s], List.intercalate_singleton.symm, .cons h .nil⟩
  | tokens :: next :: rest, _, _, h => by
    obtain ⟨a, b, rfl, ha, hb⟩ := h.exists_append_cons
    obtain ⟨pieces, rfl, hpieces⟩ := exists_pieces (List.cons_ne_nil _ _) hb
    refine ⟨a :: pieces, ?_, .cons ha hpieces⟩
    cases hpieces
    simp

end LaidOut

/-! ### Lists -/

theorem separatedTokens_concat_nil : ∀ {items : List (List Text)}, items ≠ [] →
    separatedTokens (items ++ [[]]) = separatedTokens items ++ [[',']]
  | [], h => absurd rfl h
  | [_], _ => rfl
  | tokens :: next :: rest, _ => by
    have ih := separatedTokens_concat_nil (List.cons_ne_nil next rest)
    rw [List.cons_append] at ih
    rw [List.cons_append, List.cons_append, separatedTokens, ih, separatedTokens,
      List.append_assoc, List.cons_append]

/-- The rows that a list is made of: its items, and an empty one if a comma ends it or if it has no
items. -/
def listRows (items : List (List Text)) (comma : Bool) : List (List Text) :=
  items ++ if comma || items.isEmpty then [[]] else []

theorem listTokens_eq {items : List (List Text)} {comma : Bool}
    (h : items = [] → comma = false) :
    listTokens items comma = separatedTokens (listRows items comma) := by
  cases items with
  | nil =>
    rw [h rfl]
    rfl
  | cons tokens rest =>
    cases comma with
    | false =>
      show separatedTokens (tokens :: rest) ++ [] = separatedTokens ((tokens :: rest) ++ [])
      rw [List.append_nil, List.append_nil]
    | true => exact (separatedTokens_concat_nil (List.cons_ne_nil tokens rest)).symm

theorem listRows_ne_nil (items : List (List Text)) (comma : Bool) : listRows items comma ≠ [] := by
  cases items with
  | nil =>
    intro h
    rw [listRows, List.isEmpty_nil, Bool.or_true] at h
    cases h
  | cons tokens rest => exact List.cons_ne_nil _ _

/-- The text of a list has a piece for each item, and perhaps a blank one behind them. -/
theorem exists_list_pieces {items : List (List Text)} {comma : Bool} {s : Text}
    (h : LaidOut (listTokens items comma) s) (hcomma : items = [] → comma = false) :
    ∃ pieces ends, s = [','].intercalate (pieces ++ ends) ∧ List.Forall₂ LaidOut items pieces ∧
      (∀ t ∈ ends, Text.Blank t) ∧ pieces ++ ends ≠ [] := by
  rw [listTokens_eq hcomma] at h
  obtain ⟨all, rfl, hall⟩ := LaidOut.exists_pieces (listRows_ne_nil items comma) h
  have hne : all ≠ [] := by
    rintro rfl
    exact listRows_ne_nil items comma (List.forall₂_nil_right_iff.1 hall)
  have htake := List.forall₂_take_append all items _ hall.flip
  have hdrop := List.forall₂_drop_append all items _ hall.flip
  refine ⟨all.take items.length, all.drop items.length, ?_, htake.flip, fun t ht => ?_, ?_⟩
  · rw [List.take_append_drop]
  · split at hdrop
    · rw [List.forall₂_cons_right_iff] at hdrop
      obtain ⟨u, rest, hblank, hnil, hu⟩ := hdrop
      rw [hu, List.forall₂_nil_right_iff.1 hnil, List.mem_singleton] at ht
      rw [ht]
      exact hblank
    · rw [List.forall₂_nil_right_iff.1 hdrop] at ht
      cases ht
  · rwa [List.take_append_drop]

/-! ### Pieces -/

theorem Nests.depthAfter?_eq {tokens : List Text} {s : Text} (h : Nests tokens)
    (hs : LaidOut tokens s) : depthAfter? none 0 s = some 0 := by
  have hscan : depthAfter? none 0 s = scanTokens commaStep 0 tokens :=
    hs.scan_eq passes_commaStep h.isToken (by decide)
  exact hscan.trans (h.depth 0 (by omega))

theorem depthAfter?_of_blank {s : Text} (h : Text.Blank s) : depthAfter? none 0 s = some 0 :=
  scan_quiet passes_commaStep none 0 (quiet_of_blank h)

/-- The pieces of the text of a list: one for each item, and perhaps a blank one behind them. -/
theorem exists_splitPieces {items : List (List Text)} {comma : Bool} {s : Text}
    (h : LaidOut (listTokens items comma) s) (hcomma : items = [] → comma = false)
    (hitems : ∀ tokens ∈ items, Nests tokens) :
    ∃ pieces ends, splitPieces s = dropEmptyEnd (pieces ++ ends) ∧
      List.Forall₂ LaidOut items pieces ∧ ∀ t ∈ ends, Text.Blank t := by
  obtain ⟨pieces, ends, rfl, hpieces, hends, hne⟩ := exists_list_pieces h hcomma
  refine ⟨pieces, ends, splitPieces_intercalate ?_, hpieces, hends⟩
  refine splitsFrom_of_forall (by decide) hne (List.forall_mem_append.2 ⟨?_, ?_⟩)
  · exact forall_mem_of_forall₂ hpieces hitems fun tokens p hn hp => hn.depthAfter?_eq hp
  · exact fun t ht => depthAfter?_of_blank (hends t ht)

/-! ### Generic arguments -/

/-- A text begins like the first of the tokens that it lays out. -/
theorem LaidOut.leads {first s : Text} {tokens : List Text} (h : LaidOut (first :: tokens) s)
    (hs : ∀ c ∈ s.head?, Text.isBlank c = false) (ht : ∀ t ∈ first :: tokens, IsToken t)
    (hl : LeadsType first) : s.head? ≠ some '\'' ∧ s.takeWhile Text.isWord ∉ keywords := by
  obtain ⟨hfirst, htail⟩ := List.forall_mem_cons.1 ht
  obtain ⟨rest, rfl, _, hrest⟩ := h.head_of_isWordToken hs htail
  rw [List.head?_append_of_ne_nil _ hfirst.ne_nil]
  refine ⟨hl.1, ?_⟩
  by_cases hw : isWordToken first = true
  · obtain ⟨hchars, hkeyword⟩ := hl.2 hw
    rwa [Text.takeWhile_append_of_head hchars fun c hc => (hrest hw c hc).1]
  · cases first with
    | nil => exact absurd rfl hfirst.ne_nil
    | cons c first =>
      rw [Bool.not_eq_true, isWordToken_cons_eq_false_iff] at hw
      rw [List.cons_append, List.takeWhile_cons_of_neg (by rw [hw.2]; decide)]
      decide

theorem isBinding_eq_false {s : Text} (h : '=' ∉ s) : Layer.isBinding s = false := by
  unfold Layer.isBinding
  split
  · rfl
  · rename_i rest hcut
    split
    · rfl
    · rename_i value hvalue
      obtain ⟨blanks, _, hb⟩ := Text.exists_stripStart rest
      rw [(Text.cutIdent?_eq_some hcut).1, hb,
        ← List.append_eq_of_isPrefixOf?_eq_some hvalue] at h
      simp at h

theorem argument?_of_type {tokens : List Text} {first piece : Text} {rest : List Text}
    (h : LaidOut tokens piece) (hn : Nests tokens) (hf : tokens = first :: rest)
    (hl : LeadsType first) : Layer.argument? piece = some (.type (Text.strip piece)) := by
  subst hf
  have hlaid := h.strip hn.isToken
  have hblank := h.not_blank (hn.isToken first List.mem_cons_self)
  have hquote := (hlaid.leads (Text.trimmed_strip piece).1 hn.isToken hl).1
  have hne : Text.strip piece ≠ [] := fun e => hblank (Text.strip_eq_nil_iff.1 e)
  have hbinding := isBinding_eq_false (hlaid.binding_not_mem hn.isToken)
  exact Layer.argument?_eq_type_iff.2 ⟨rfl, hne, hquote, hbinding⟩

theorem argument?_of_lifetime {name piece : Text} (h : LaidOut ['\'' :: name] piece)
    (hname : Text.isIdent name = true) : Layer.argument? piece = none := by
  rw [Layer.argument?, h.strip_singleton (isToken_lifetime hname).1.trimmed]
  rfl

theorem argument?_of_blank {piece : Text} (h : Text.Blank piece) :
    Layer.argument? piece = none := by
  rw [Layer.argument?, Text.strip_eq_nil_iff.2 h]
  rfl

end TypeBridge
