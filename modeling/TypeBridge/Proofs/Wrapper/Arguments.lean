import TypeBridge.Proofs.Nesting.Depth
import TypeBridge.Proofs.Text.Strip

/-!
The arguments in captured text. Main statements: an argument that nests properly is cut off exactly
where it ends, whether a comma, the closing bracket of the list or nothing follows it; and what
follows the closing bracket is never looked at.
-/

namespace TypeBridge

/-- Whether a comma stands in a text where no bracket is open. -/
def HasOuterComma (s : Text) : Prop :=
  ∃ i < s.length, s[i]? = some ',' ∧ openAfter? none [] (s.take i) = some []

instance (s : Text) : Decidable (HasOuterComma s) :=
  inferInstanceAs (Decidable (∃ i < s.length, s[i]? = some ',' ∧ _ = some []))

/-- A text that can stand as one argument of a list on one line. -/
structure IsArgument (s : Text) : Prop where
  wellNested : WellNested s
  not_hasOuterComma : ¬ HasOuterComma s
  not_blank : ¬ Text.Blank s
  not_mem_newline : '\n' ∉ s

theorem not_hasOuterComma_of_depthAfter? {s : Text} {depth : Int}
    (h : depthAfter? none 0 s = some depth) : ¬ HasOuterComma s := by
  rintro ⟨i, hi, hc, ho⟩
  have hget : s[i] = ',' := Option.some.inj ((List.getElem?_eq_getElem hi).symm.trans hc)
  have hcomma : s.take i ++ [','] <+: s := by
    rw [← hget, List.take_append_getElem]
    exact List.take_prefix (i + 1) s
  refine (depthAfter?_eq_some_iff.1 h).1 (s.take i) hcomma ?_
  rw [Int.zero_add]
  exact WellNested.netDepth_eq ho

theorem IsArgument.depthAfter?_eq {s : Text} (h : IsArgument s) :
    depthAfter? none 0 s = some 0 := by
  refine depthAfter?_eq_some_iff.2 ⟨?_, by rw [h.wellNested.netDepth_eq]; rfl⟩
  rintro t ⟨after, rfl⟩ hzero
  rw [List.append_assoc] at h
  -- Where a comma separated, no bracket would be open.
  obtain ⟨stack, hstack⟩ := exists_openAfter?_of_prefix h.wellNested (List.prefix_append t _)
  have hlength := netDepth_of_openAfter? hstack
  rw [List.length_nil] at hlength
  obtain rfl : stack = [] := List.eq_nil_of_length_eq_zero (by omega)
  refine h.not_hasOuterComma ⟨t.length, by simp, by simp, ?_⟩
  rwa [List.take_left' rfl]

/-! ### Cutting arguments off -/

/-- Each argument stands in one piece where it is written. -/
theorem isInfix_of_mem_splitArguments {s argument : Text} (h : argument ∈ splitArguments s) :
    argument <:+: s := by
  obtain ⟨piece, hp, rfl⟩ := List.mem_map.1 (List.mem_filter.1 h).1
  have hpiece : piece <:+: balancedStart s := isInfix_of_mem_splitPieces hp
  have hstart : balancedStart s <:+: s := (balancedFrom_isPrefix none 0 s).isInfix
  exact ((Text.strip_isInfix piece).trans hpiece).trans hstart

theorem trimmed_of_mem_splitArguments {s argument : Text} (h : argument ∈ splitArguments s) :
    argument ≠ [] ∧ Text.Trimmed argument := by
  obtain ⟨hmem, hne⟩ := List.mem_filter.1 h
  obtain ⟨piece, _, rfl⟩ := List.mem_map.1 hmem
  exact ⟨by simpa using hne, Text.trimmed_strip piece⟩

/-- The arguments in captured text, of a scan that stands behind `before`. -/
def argumentsFrom (before : Option Char) (s : Text) : List Text :=
  ((piecesFrom before 0 (balancedFrom before 0 s)).map Text.strip).filter fun piece =>
    !piece.isEmpty

theorem filter_strip_dropEmptyEnd (pieces : List Text) :
    ((dropEmptyEnd pieces).map Text.strip).filter (fun piece => !piece.isEmpty)
      = (pieces.map Text.strip).filter fun piece => !piece.isEmpty := by
  rw [List.filter_map, List.filter_map, filter_dropEmptyEnd rfl]

theorem splitArguments_eq (s : Text) : splitArguments s = argumentsFrom none s :=
  filter_strip_dropEmptyEnd _

theorem argumentsFrom_cons {t : Text} (ht : ¬ Text.Blank t) (rest : List Text) :
    ((t :: rest).map Text.strip).filter (fun piece => !piece.isEmpty)
      = Text.strip t :: (rest.map Text.strip).filter fun piece => !piece.isEmpty := by
  rw [List.map_cons, List.filter_cons_of_pos]
  rw [Text.isEmpty_strip, Text.isBlankText_eq_false_iff.2 ht]
  rfl

namespace IsArgument

variable {before : Option Char} {t : Text}

theorem balancedFrom_eq (h : IsArgument t) (hb : before ≠ some '-') (rest : Text) :
    balancedFrom before 0 (t ++ rest) = t ++ balancedFrom (lastOr before t) 0 rest := by
  have ho : openAfter? before [] t = some [] := by
    rw [openAfter?_of_ne hb]
    exact h.wellNested
  exact balancedFrom_append rest ho

theorem piecesFrom_eq (h : IsArgument t) (hb : before ≠ some '-') (rest : Text) :
    piecesFrom before 0 (t ++ rest)
      = (piecesFrom (lastOr before t) 0 rest).modifyHead (t ++ ·) := by
  have hd := h.depthAfter?_eq
  rw [← depthAfter?_of_ne hb] at hd
  rw [piecesFrom_append rest hd]

/-- A comma ends an argument, and the next one begins behind it. -/
theorem argumentsFrom_comma (h : IsArgument t) (hb : before ≠ some '-') (rest : Text) :
    argumentsFrom before (t ++ ',' :: rest) = Text.strip t :: argumentsFrom (some ',') rest := by
  have hbal : balancedFrom (lastOr before t) 0 (',' :: rest)
      = ',' :: balancedFrom (some ',') 0 rest := by
    simp only [balancedFrom, markOf_comma]
  rw [argumentsFrom, h.balancedFrom_eq hb, hbal, h.piecesFrom_eq hb, piecesFrom,
    if_pos ⟨rfl, rfl⟩, List.modifyHead_cons, List.append_nil, argumentsFrom_cons h.not_blank]
  rfl

theorem argumentsFrom_end (h : IsArgument t) (hb : before ≠ some '-') :
    argumentsFrom before t = [Text.strip t] := by
  have hbal : balancedFrom before 0 t = t := by
    simpa [balancedFrom] using h.balancedFrom_eq hb []
  have hp : piecesFrom before 0 t = [t] := by
    simpa [piecesFrom] using h.piecesFrom_eq hb []
  rw [argumentsFrom, hbal, hp, argumentsFrom_cons h.not_blank]
  rfl

/-- The bracket that closes the list ends its last argument, whatever follows the bracket. -/
theorem argumentsFrom_close (h : IsArgument t) (hb : before ≠ some '-') (rest : Text) :
    argumentsFrom before (t ++ ' ' :: '>' :: rest) = [Text.strip t] := by
  have hbal : balancedFrom (lastOr before t) 0 (' ' :: '>' :: rest) = [' '] := by
    have hs : markOf (lastOr before t) ' ' = .neutral := rfl
    have hg : markOf (some ' ') '>' = .closes .angle := rfl
    simp only [balancedFrom, hs, hg]
  have hp : piecesFrom (lastOr before t) 0 [' '] = [[' ']] := rfl
  have hs : Text.strip (t ++ [' ']) = Text.strip t := by
    simpa using Text.strip_append Text.blank_nil Text.blank_space t
  have hn : ¬ Text.Blank (t ++ [' ']) := fun hblank =>
    h.not_blank (Text.blank_append_iff.1 hblank).1
  rw [argumentsFrom, h.balancedFrom_eq hb, hbal, h.piecesFrom_eq hb, hp, List.modifyHead_cons,
    argumentsFrom_cons hn, hs]
  rfl

/-- Text without brackets and commas can stand before an argument, if it is no part of an arrow. -/
theorem quiet_append {q : Text} (hq : Quiet q) (hl : '\n' ∉ q) (hd : lastOr none q ≠ some '-')
    (h : IsArgument t) : IsArgument (q ++ t) where
  wellNested := by
    have hscan := scan_quiet passes_stackStep none [] hq
    rw [← openAfter?_eq_scan] at hscan
    refine WellNested.append hscan ?_
    rw [openAfter?_of_ne hd]
    exact h.wellNested
  not_hasOuterComma := by
    have ht : depthAfter? (lastOr none q) 0 t = some 0 := by
      rw [depthAfter?_of_ne hd]
      exact h.depthAfter?_eq
    exact not_hasOuterComma_of_depthAfter?
      (scan_append_eq_some.2 ⟨0, scan_quiet passes_commaStep none 0 hq, ht⟩)
  not_blank := fun hb => h.not_blank (Text.blank_append_iff.1 hb).2
  not_mem_newline := by
    rw [List.mem_append]
    rintro (hm | hm)
    · exact hl hm
    · exact h.not_mem_newline hm

/-- A space before an argument belongs to it. -/
theorem cons_space (h : IsArgument t) : IsArgument (' ' :: t) :=
  quiet_append (q := [' ']) (quiet_of_blank Text.blank_space) (by decide) (by decide) h

end IsArgument

end TypeBridge
