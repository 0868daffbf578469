import Mathlib.Data.List.Infix
import TypeBridge.Proofs.TypeExpr.Mirror
import TypeBridge.Proofs.TypeExpr.Unread

/-!
What printing leaves out. Main statement: blanks apart, what is printed for well-nested text is part
of the text, in the same order; and it is all of the text, well nested or not, if there are no
commas with nothing beside them, no brackets without arguments, and no lifetimes among arguments.
-/

namespace TypeBridge

open Text

/-! ### Lists of texts -/

theorem sublist_intercalate (separator : Text) {texts others : List Text}
    (h : List.SublistForall₂ List.Sublist texts others) :
    (separator.intercalate texts).Sublist (separator.intercalate others) := by
  induction h with
  | nil => exact List.nil_sublist _
  | @cons t u texts others htu hrest ih =>
    rw [intercalate_cons, intercalate_cons]
    refine htu.append ?_
    split
    · exact List.nil_sublist _
    · rename_i hne
      rw [if_neg]
      · exact (List.Sublist.refl separator).append ih
      · rintro rfl
        cases hrest
        exact hne rfl
  | @cons_right u texts others hrest ih =>
    rw [intercalate_cons]
    refine ih.trans ?_
    split
    · rename_i hnil
      rw [hnil]
      exact List.nil_sublist _
    · rw [← List.append_assoc]
      exact List.sublist_append_right _ _

/-- What stands beside one of several texts between delimiters. -/
theorem exists_neighbours {o c : Char} {texts : List Text} {t : Text} (ht : t ∈ texts) :
    texts = [t] ∨ ∃ pair ∈ [(o, ','), (',', ','), (',', c)],
      pair.1 :: (t ++ [pair.2]) <:+: o :: ([','].intercalate texts ++ [c]) := by
  induction texts generalizing o with
  | nil => cases ht
  | cons u rest ih =>
    cases rest with
    | nil =>
      rw [List.mem_singleton.1 ht]
      exact .inl rfl
    | cons next rest =>
      have hjoin : o :: ([','].intercalate (u :: next :: rest) ++ [c])
          = o :: u ++ ',' :: ([','].intercalate (next :: rest) ++ [c]) := by
        rw [List.intercalate_cons_cons]
        simp
      have htail : ',' :: ([','].intercalate (next :: rest) ++ [c])
          <:+: o :: ([','].intercalate (u :: next :: rest) ++ [c]) := by
        rw [hjoin]
        exact (List.suffix_append _ _).isInfix
      rcases List.mem_cons.1 ht with rfl | ht
      · have hsplit : o :: ([','].intercalate (t :: next :: rest) ++ [c])
            = o :: (t ++ [',']) ++ ([','].intercalate (next :: rest) ++ [c]) := by
          rw [hjoin]
          simp
        refine .inr ⟨(o, ','), List.mem_cons_self, ?_⟩
        rw [hsplit]
        exact (List.prefix_append _ _).isInfix
      · rcases ih ht with hone | ⟨pair, hpair, hinfix⟩
        · obtain ⟨rfl, rfl⟩ := List.cons.inj hone
          rw [List.intercalate_singleton] at htail
          exact .inr ⟨(',', c), by simp, htail⟩
        · refine .inr ⟨pair, ?_, hinfix.trans htail⟩
          simp only [List.mem_cons, List.not_mem_nil, or_false] at hpair ⊢
          tauto

/-! ### Redundant pairs -/

/-- The neighbours, blanks apart, between or beside which something may be left out: brackets
without arguments, commas with nothing on one side, and the quotes of lifetimes among arguments. -/
def redundantPairs : List Text :=
  ["<>".toList, "<,".toList, ",,".toList, ",>".toList, "(,".toList, ",)".toList, "<'".toList,
   ",'".toList]

/-- Whether none of the redundant pairs stands in a text. -/
def Irredundant (s : Text) : Prop := ∀ pair ∈ redundantPairs, ¬ pair <:+: s

instance (s : Text) : Decidable (Irredundant s) := List.decidableBAll _ _

namespace Irredundant

variable {s t rest : Text} {texts : List Text} {a b : Char}

theorem of_infix (h : Irredundant s) (hi : t <:+: s) : Irredundant t := fun pair hm hp =>
  h pair hm (hp.trans hi)

theorem not_mem (h : Irredundant s) (hi : a :: b :: rest <:+: s) : [a, b] ∉ redundantPairs :=
  fun hm => h _ hm ((List.prefix_append [a, b] rest).isInfix.trans hi)

theorem of_mem {o c : Char} (h : Irredundant (o :: ([','].intercalate texts ++ [c])))
    (ht : t ∈ texts) : Irredundant t := by
  have hinside : ∀ a b : Char, t <:+: a :: (t ++ [b]) := fun a b => List.infix_append [a] t [b]
  rcases exists_neighbours ht with rfl | ⟨pair, _, hi⟩
  · rw [List.intercalate_singleton] at h
    exact h.of_infix (hinside o c)
  · exact h.of_infix ((hinside _ _).trans hi)

/-- In parentheses, only a single element can be empty. -/
theorem ne_nil_of_mem (h : Irredundant ('(' :: ([','].intercalate texts ++ [')']))) (ht : t ∈ texts)
    (hone : texts ≠ [t]) : t ≠ [] := by
  have hpairs : ∀ pair ∈ [('(', ','), (',', ','), (',', ')')],
      [pair.1, pair.2] ∈ redundantPairs := by decide
  rintro rfl
  rcases exists_neighbours ht with hsingle | ⟨pair, hpair, hi⟩
  · exact hone hsingle
  · exact h.not_mem hi (hpairs pair hpair)

/-- In generic brackets, no argument is empty or a lifetime. -/
theorem argument (h : Irredundant ('<' :: ([','].intercalate texts ++ ['>']))) (ht : t ∈ texts) :
    t ≠ [] ∧ t.head? ≠ some '\'' := by
  have hpairs : ∀ a ∈ ['<', ','], [a, '\''] ∈ redundantPairs ∧
      ∀ b ∈ [',', '>'], [a, b] ∈ redundantPairs := by decide
  obtain ⟨a, ha, b, hb, hi⟩ : ∃ a ∈ ['<', ','], ∃ b ∈ [',', '>'],
      a :: (t ++ [b]) <:+: '<' :: ([','].intercalate texts ++ ['>']) := by
    rcases exists_neighbours ht with rfl | ⟨pair, hpair, hi⟩
    · rw [List.intercalate_singleton]
      exact ⟨'<', by decide, '>', by decide, List.infix_rfl⟩
    · have hmem : ∀ pair ∈ [('<', ','), (',', ','), (',', '>')],
          pair.1 ∈ ['<', ','] ∧ pair.2 ∈ [',', '>'] := by decide
      exact ⟨pair.1, (hmem pair hpair).1, pair.2, (hmem pair hpair).2, hi⟩
  constructor
  · rintro rfl
    exact h.not_mem hi ((hpairs a ha).2 b hb)
  · intro hquote
    obtain ⟨rest, rfl⟩ := List.head?_eq_some_iff.1 hquote
    exact h.not_mem hi (hpairs a ha).1

end Irredundant

/-! ### Kept text -/

/-- Whether a printed form has, blanks apart, no character that the text does not have, and all of
them if nothing in the text is redundant. -/
structure KeepsText (s p : Text) : Prop where
  sublist : WellNested s → (dense p).Sublist (dense s)
  eq : Irredundant (dense s) → dense p = dense s

section

variable {s p t q m : Text}

theorem KeepsText.of_dense_eq (h : dense p = dense s) : KeepsText s p :=
  ⟨fun _ => h ▸ List.Sublist.refl _, fun _ => h⟩

theorem KeepsText.of_dense_append (h : KeepsText t q) (hs : dense s = m ++ dense t)
    (hp : dense p = m ++ dense q) (hw : WellNested s → WellNested t) : KeepsText s p := by
  rw [← List.append_nil (dense t)] at hs
  constructor
  · intro hnested
    rw [hs, hp, List.append_nil]
    exact (List.Sublist.refl m).append (h.sublist (hw hnested))
  · intro hi
    rw [hs, ← List.append_assoc] at hi
    rw [hs, hp, h.eq (hi.of_infix (List.infix_append m (dense t) [])), List.append_nil]

theorem KeepsText.of_strip (h : KeepsText (Text.strip s) p) : KeepsText s p := by
  obtain ⟨hsub, heq⟩ := h
  rw [wellNested_strip_iff, dense_strip] at hsub
  rw [dense_strip] at heq
  exact ⟨hsub, heq⟩

end

/-! ### Lists -/

section

variable {α : Type} {f : Text → Option α} {es : List TypeExpr}

theorem dense_eq_intercalate_pieces (s : Text) :
    dense s = [','].intercalate ((piecesFrom none 0 s).map dense) := by
  have hdense := dense_intercalate [','] (piecesFrom none 0 s)
  rwa [intercalate_piecesFrom] at hdense

theorem sublistForall₂_of_filterMap {pieces : List Text} (hw : ∀ piece ∈ pieces, WellNested piece)
    (h : List.Forall₂ (fun a e => ∀ piece, f piece = some a → KeepsText piece (TypeExpr.print e))
      (pieces.filterMap f) es) :
    List.SublistForall₂ List.Sublist (es.map fun e => dense e.print) (pieces.map dense) := by
  induction pieces generalizing es with
  | nil =>
    cases h
    exact .nil
  | cons piece pieces ih =>
    obtain ⟨hpiece, hpieces⟩ := List.forall_mem_cons.1 hw
    cases hf : f piece with
    | none =>
      rw [List.filterMap_cons_none hf] at h
      exact .cons_right (ih hpieces h)
    | some a =>
      rw [List.filterMap_cons_some hf] at h
      cases h with
      | cons he hrest => exact .cons ((he piece hf).sublist hpiece) (ih hpieces hrest)

theorem map_dense_of_filterMap {pieces : List Text}
    (hi : ∀ piece ∈ pieces, f piece ≠ none ∧ Irredundant (dense piece))
    (h : List.Forall₂ (fun a e => ∀ piece, f piece = some a → KeepsText piece (TypeExpr.print e))
      (pieces.filterMap f) es) : (es.map fun e => dense e.print) = pieces.map dense := by
  induction pieces generalizing es with
  | nil =>
    cases h
    rfl
  | cons piece pieces ih =>
    obtain ⟨⟨hne, hpiece⟩, hpieces⟩ := List.forall_mem_cons.1 hi
    obtain ⟨a, hf⟩ := Option.ne_none_iff_exists'.1 hne
    rw [List.filterMap_cons_some hf] at h
    cases h with
    | cons he hrest =>
      rw [List.map_cons, List.map_cons, (he piece hf).eq hpiece, ih hpieces hrest]

/-- The items that are printed are part of the list. -/
theorem sublist_items {inside : Text} (hnil : f [] = none) (hs : WellNested inside)
    (h : List.Forall₂ (fun a e => ∀ piece, f piece = some a → KeepsText piece (TypeExpr.print e))
      ((splitPieces inside).filterMap f) es) :
    ([','].intercalate (es.map fun e => dense e.print)).Sublist (dense inside) := by
  rw [splitPieces, filterMap_dropEmptyEnd hnil] at h
  rw [dense_eq_intercalate_pieces]
  exact sublist_intercalate [','] (sublistForall₂_of_filterMap (wellNested_iff_piecesFrom.1 hs) h)

/-- The items that are printed are all of the list if none of its pieces is left out. -/
theorem map_items {inside : Text} (hnil : f [] = none)
    (hi : ∀ piece ∈ piecesFrom none 0 inside, f piece ≠ none ∧ Irredundant (dense piece))
    (h : List.Forall₂ (fun a e => ∀ piece, f piece = some a → KeepsText piece (TypeExpr.print e))
      ((splitPieces inside).filterMap f) es) :
    (es.map fun e => dense e.print) = (piecesFrom none 0 inside).map dense := by
  rw [splitPieces, filterMap_dropEmptyEnd hnil] at h
  exact map_dense_of_filterMap hi h

end

/-! ### Tuples -/

theorem dense_parenthesized (inside : Text) :
    dense ('(' :: (inside ++ [')'])) = '(' :: (dense inside ++ [')']) := by
  have hopen : Text.isBlank '(' = false := by decide
  rw [dense_cons_of_not_blank hopen, dense_append]
  rfl

section

variable {s inside : Text} {elements : List Text} {es : List TypeExpr}

theorem filterMap_eq_of_ofContent {content : Text}
    (h : Layer.ofContent s content = .tuple elements) :
    (splitPieces content).filterMap Layer.element? = elements := by
  rw [Layer.filterMap_element?]
  exact (Layer.ofContent_eq_tuple_iff.1 h).1

theorem keepsText_element {t : Text} {e : TypeExpr} (h : KeepsText t e.print) :
    ∀ piece, Layer.element? piece = some t → KeepsText piece e.print := by
  intro piece hpiece
  rwa [← Layer.element?_eq_some hpiece]

theorem sublist_tupleText {content : Text} (h : Layer.ofContent s content = .tuple elements)
    (hes : List.Forall₂ (fun t e => KeepsText t (TypeExpr.print e)) elements es)
    (hw : WellNested content) :
    (dense (TypeExpr.tupleText (es.map TypeExpr.print))).Sublist
      ('(' :: (dense content ++ [')'])) := by
  have hkept := filterMap_eq_of_ofContent h
  by_cases hone : es.length = 1
  · -- The comma behind a single element ends the list.
    obtain ⟨e, rfl⟩ := List.length_eq_one_iff.1 hone
    have hend := (Layer.ofContent_eq_tuple_iff.1 h).2 (hes.length_eq.trans hone)
    obtain ⟨init, rfl⟩ := List.isSuffixOf_iff_suffix.1 hend
    have hnested := wellNested_concat_comma_iff.1 hw
    have hdepth : 0 + netDepth none init = 0 := (Int.zero_add _).trans hnested.netDepth_eq
    have hitems : (splitPieces init).filterMap Layer.element? = elements := by
      rw [splitPieces, piecesFrom_concat_comma hdepth, filterMap_dropEmptyEnd rfl,
        List.filterMap_append] at hkept
      rw [splitPieces, filterMap_dropEmptyEnd rfl, ← hkept]
      exact (List.append_nil _).symm
    rw [← hitems] at hes
    have hsub := sublist_items rfl hnested (hes.imp fun t e => keepsText_element)
    rw [List.map_singleton, List.intercalate_singleton] at hsub
    rw [List.map_singleton, dense_tupleText_singleton, dense_append]
    exact ((hsub.append (List.Sublist.refl [','])).append (List.Sublist.refl [')'])).cons_cons '('
  · have hmany : (es.map TypeExpr.print).length ≠ 1 := by rwa [List.length_map]
    rw [← hkept] at hes
    have hsub := sublist_items rfl hw (hes.imp fun t e => keepsText_element)
    rw [dense_tupleText hmany, List.map_map]
    exact (hsub.append (List.Sublist.refl [')'])).cons_cons '('

theorem dense_tupleText_eq {content : Text} (h : Layer.ofContent s content = .tuple elements)
    (hes : List.Forall₂ (fun t e => KeepsText t (TypeExpr.print e)) elements es)
    (hi : Irredundant ('(' :: (dense content ++ [')']))) :
    dense (TypeExpr.tupleText (es.map TypeExpr.print)) = '(' :: (dense content ++ [')']) := by
  have hkept := filterMap_eq_of_ofContent h
  have hmany : (es.map TypeExpr.print).length ≠ 1 := by
    rw [List.length_map]
    intro hone
    have hend := (Layer.ofContent_eq_tuple_iff.1 h).2 (hes.length_eq.trans hone)
    obtain ⟨init, rfl⟩ := List.isSuffixOf_iff_suffix.1 hend
    rw [dense_append] at hi
    have hcomma : [',', ')'] <:+: '(' :: (dense init ++ [','] ++ [')']) :=
      ⟨'(' :: dense init, [], by simp⟩
    exact hi _ (by decide) hcomma
  have hdense := dense_eq_intercalate_pieces content
  by_cases hempty : (piecesFrom none 0 content).map dense = [[]]
  · -- Nothing but blanks stands in the parentheses.
    obtain ⟨piece, hpiece, hnil⟩ := List.map_eq_singleton_iff.1 hempty
    have hnone : Layer.element? piece = none := if_pos (isBlankText_iff.2 (dense_eq_nil_iff.1 hnil))
    rw [splitPieces, filterMap_dropEmptyEnd rfl, hpiece, List.filterMap_cons_none hnone] at hkept
    rw [← hkept] at hes
    cases hes
    rw [hdense, hempty]
    rfl
  · rw [← hkept] at hes
    have hpieces : ∀ piece ∈ piecesFrom none 0 content,
        Layer.element? piece ≠ none ∧ Irredundant (dense piece) := by
      intro piece hp
      have hm := List.mem_map_of_mem (f := dense) hp
      rw [hdense] at hi
      refine ⟨fun hnone => ?_, hi.of_mem hm⟩
      have hnil := dense_of_blank (Layer.element?_eq_none hnone)
      refine hi.ne_nil_of_mem hm ?_ hnil
      rwa [hnil]
    have hmap := map_items rfl hpieces (hes.imp fun t e => keepsText_element)
    rw [dense_tupleText hmany, List.map_map, hdense, ← hmap]
    rfl

theorem keepsText_tuple (hc : Bracket.round.ClosesIn inside)
    (h : Layer.ofContent s (Text.strip inside) = .tuple elements)
    (hes : List.Forall₂ (fun t e => KeepsText t (TypeExpr.print e)) elements es) :
    KeepsText ('(' :: (inside ++ [')'])) (TypeExpr.tupleText (es.map TypeExpr.print)) := by
  constructor
  · intro hw
    have hinside : WellNested inside := ((Bracket.wellNested_enclosed_iff hc rfl []).1 hw).1
    have hsub := sublist_tupleText h hes (wellNested_strip_iff.2 hinside)
    rwa [dense_strip, ← dense_parenthesized] at hsub
  · intro hi
    rw [dense_parenthesized, ← dense_strip inside] at hi ⊢
    exact dense_tupleText_eq h hes hi

end

/-! ### Paths -/

section

variable {s name : Text} {args : List Argument} {selfType : Option Text} {es : List TypeExpr}

theorem keepsText_argument {piece : Text} {a : Argument} {e : TypeExpr}
    (hpiece : Layer.argument? piece = some a)
    (h : a.ReadsWith (fun t e => KeepsText t e.print) e) : KeepsText piece e.print := by
  obtain ⟨hread, he⟩ := h
  cases a with
  | binding t =>
    obtain ⟨rfl, _⟩ := Layer.argument?_eq_binding_iff.1 hpiece
    cases hread
    exact .of_dense_eq (dense_strip piece)
  | type t =>
    obtain ⟨rfl, _⟩ := Layer.argument?_eq_type_iff.1 hpiece
    exact (he _ rfl).of_strip

theorem keepsText_arguments {n : PathName} {start inside after : Text} (hn : n.SpelledBy start)
    (hc : Bracket.angle.ClosesIn inside) (ha : isArrowHead (lastOr none inside) '>' = false)
    (hafter : Text.Blank after)
    (hes : List.Forall₂ (Argument.ReadsWith fun t e => KeepsText t e.print)
        ((splitPieces inside).filterMap Layer.argument?) es) :
    KeepsText (start ++ '<' :: (inside ++ '>' :: after))
      (n.text ++ TypeExpr.argsText (es.map TypeExpr.print)) := by
  have hsource : dense (start ++ '<' :: (inside ++ '>' :: after))
      = dense n.text ++ '<' :: (dense inside ++ ['>']) := by
    rw [dense_append, dense_enclosed, dense_of_blank hafter, hn.dense_eq]
  have hitems : List.Forall₂ (fun a e => ∀ piece, Layer.argument? piece = some a →
      KeepsText piece (TypeExpr.print e)) ((splitPieces inside).filterMap Layer.argument?) es :=
    hes.imp fun a e he piece hpiece => keepsText_argument hpiece he
  have hprint : es ≠ [] → dense (n.text ++ TypeExpr.argsText (es.map TypeExpr.print))
      = dense n.text ++ '<' :: ([','].intercalate (es.map fun e => dense e.print) ++ ['>']) := by
    intro hne
    have hprints : es.map TypeExpr.print ≠ [] := fun e => hne (List.map_eq_nil_iff.1 e)
    rw [dense_append, dense_argsText hprints, List.map_map]
    rfl
  constructor
  · intro hw
    rw [hsource]
    by_cases hne : es = []
    · rw [hne, List.map_nil, TypeExpr.argsText, List.append_nil]
      exact List.sublist_append_left _ _
    · obtain ⟨hinside, _⟩ := (Layer.wellNested_angled_iff hn hc ha after).1 hw
      have hsub := sublist_items rfl hinside hitems
      rw [hprint hne]
      exact (List.Sublist.refl _).append ((hsub.append (List.Sublist.refl ['>'])).cons_cons '<')
  · intro hi
    rw [hsource] at hi ⊢
    have hlist : Irredundant ('<' :: (dense inside ++ ['>'])) :=
      hi.of_infix (List.suffix_append _ _).isInfix
    have hdense := dense_eq_intercalate_pieces inside
    have hpieces : ∀ piece ∈ piecesFrom none 0 inside,
        Layer.argument? piece ≠ none ∧ Irredundant (dense piece) := by
      intro piece hp
      have hm := List.mem_map_of_mem (f := dense) hp
      rw [hdense] at hlist
      obtain ⟨hne, hquote⟩ := hlist.argument hm
      refine ⟨fun hnone => ?_, hlist.of_mem hm⟩
      rcases Layer.argument?_eq_none hnone with hnil | hhead
      · exact hne (dense_of_blank (strip_eq_nil_iff.1 hnil))
      · obtain ⟨rest, hrest⟩ := List.head?_eq_some_iff.1 hhead
        rw [← dense_strip, hrest] at hquote
        exact hquote rfl
    have hmap := map_items rfl hpieces hitems
    have hne : es ≠ [] := by
      rintro rfl
      exact piecesFrom_ne_nil none 0 inside (List.map_eq_nil_iff.1 hmap.symm)
    rw [hprint hne, hmap, ← hdense]

theorem keepsText_ofPath? (h : Layer.ofPath? s = .ok (.path name args selfType))
    (hes : List.Forall₂ (Argument.ReadsWith fun t e => KeepsText t e.print) args es) :
    KeepsText s (name ++ TypeExpr.argsText (es.map TypeExpr.print)) := by
  rcases Layer.ofPath?_eq_ok h with ⟨_, hl⟩ | ⟨n, hn, hl⟩ |
    ⟨n, start, inside, after, rfl, hn, hc, ha, hl⟩
  · cases hl
  · cases hl
    cases hes
    rw [List.map_nil, TypeExpr.argsText, List.append_nil]
    exact .of_dense_eq hn.dense_eq
  · unfold Layer.ofArguments at hl
    split at hl
    · rename_i hafter
      cases hl
      exact keepsText_arguments hn hc ha (isBlankText_iff.1 hafter) hes
    · cases hl
      cases hes
      rw [List.map_nil, TypeExpr.argsText, List.append_nil]
      exact .of_dense_eq (dense_collapse _)

theorem keepsText_qualified {rest : Text}
    (h : Layer.ofQualified? s rest = .ok (.path name args selfType))
    (hes : List.Forall₂ (Argument.ReadsWith fun t e => KeepsText t e.print) args es) :
    KeepsText ('<' :: rest) (TypeExpr.headText name selfType
      ++ TypeExpr.argsText (es.map TypeExpr.print)) := by
  obtain ⟨inside, after, tail, _, _, _, rfl, hc, ha, hafter, hpath, hl⟩ :=
    Layer.ofQualified?_eq_ok h
  cases hl
  have hprint := dense_headText_append (Text.collapse inside) name
    (TypeExpr.argsText (es.map TypeExpr.print))
  rw [dense_collapse] at hprint
  refine (keepsText_ofPath? hpath hes).of_dense_append (dense_qualified hafter inside) hprint ?_
  intro hw
  obtain ⟨_, hbehind⟩ := (Bracket.wellNested_enclosed_iff hc ha after).1 hw
  exact (Layer.scansAlike_behind_separator hafter).wellNested_iff.1 hbehind

end

/-! ### Readings -/

theorem keepsText_of_parseType {s : Text} {e : TypeExpr} (h : parseType s = .ok e) :
    KeepsText s e.print := by
  refine parseType_induct (motive := fun s e => KeepsText s e.print)
    ?reference ?group ?tuple ?path ?verbatim h
  case reference =>
    intro s t isMutable lifetime e hpeel _ ih
    obtain ⟨rest, hs, hrest⟩ := Layer.ofStripped?_eq_reference hpeel
    refine .of_strip ?_
    rw [hs]
    exact ih.of_dense_append (dense_reference hrest) (dense_append _ _)
      (Layer.scansAlike_referent hrest).wellNested_iff.1
  case group =>
    intro s whole inner hpeel _
    rw [Layer.ofStripped?_eq_group hpeel]
    exact .of_dense_eq (dense_strip s)
  case tuple =>
    intro s elements es hpeel hes
    obtain ⟨inside, hs, hl⟩ := Layer.ofStripped?_eq_tuple hpeel
    refine .of_strip ?_
    rw [Layer.peel?, hs] at hpeel
    rw [hs, TypeExpr.print, TypeExpr.printAll_eq_map]
    exact keepsText_tuple (Layer.closesIn_of_parenthesized hpeel) hl (hes.imp fun t e he => he.2)
  case path =>
    intro s name args es selfType hpeel hes
    rw [TypeExpr.print, TypeExpr.printAll_eq_map]
    refine .of_strip ?_
    rcases Layer.ofStripped?_eq_path hpeel with ⟨rest, hs, _, hl⟩ | ⟨rfl, _, hl⟩
    · rw [hs]
      exact keepsText_qualified hl hes
    · exact keepsText_ofPath? hl hes
  case verbatim =>
    intro s form text hpeel
    rw [Layer.ofStripped?_eq_verbatim hpeel]
    exact .of_dense_eq (dense_strip s)

/-- Blanks apart, what is printed for well-nested text is part of it, and it is all of a text in
which nothing is redundant. -/
theorem dense_print {s : Text} {e : TypeExpr} (h : parse s = .ok e) :
    (WellNested s → (Text.dense e.print).Sublist (Text.dense s)) ∧
      (Irredundant (Text.dense s) → Text.dense e.print = Text.dense s) := by
  obtain ⟨hsub, heq⟩ := keepsText_of_parseType (parse_eq_ok_iff.1 h)
  exact ⟨hsub, heq⟩

/-- A lifetime among generic arguments and the commas beside it are left out, the rest is kept; and
all is kept of an array in a list with nothing redundant, which has brackets that do not nest. -/
theorem dense_print_lifetime :
    let s := "Cow < 'a , [u8] , >".toList
    let t := "Vec < [ (T] >".toList
    let e := TypeExpr.path "Cow".toList [.verbatim .slice "[u8]".toList] none
    let f := TypeExpr.path "Vec".toList [.verbatim .slice "[ (T]".toList] none
    (parse s = .ok e ∧ WellNested s ∧ (Text.dense e.print).Sublist (Text.dense s)) ∧
      parse t = .ok f ∧ Irredundant (Text.dense t) ∧ Text.dense f.print = Text.dense t := by
  intro s t e f
  have hslice : parseType "[u8]".toList = .ok (.verbatim .slice "[u8]".toList) :=
    parseType_eq_ok_iff.2 ⟨.verbatim .slice _, by decide +kernel, rfl⟩
  have hs : parse s = .ok e :=
    parse_eq_ok_iff.2 (parseType_eq_ok_iff.2 ⟨.path _ [.type "[u8]".toList] none,
      by decide +kernel, Layer.read_path_eq_ok.2 ⟨_, .cons hslice .nil, rfl⟩⟩)
  have hopen : parseType "[ (T]".toList = .ok (.verbatim .slice "[ (T]".toList) :=
    parseType_eq_ok_iff.2 ⟨.verbatim .slice _, by decide +kernel, rfl⟩
  have ht : parse t = .ok f :=
    parse_eq_ok_iff.2 (parseType_eq_ok_iff.2 ⟨.path _ [.type "[ (T]".toList] none,
      by decide +kernel, Layer.read_path_eq_ok.2 ⟨_, .cons hopen .nil, rfl⟩⟩)
  have hw : WellNested s := by decide +kernel
  have hi : Irredundant (Text.dense t) := by decide +kernel
  exact ⟨⟨hs, hw, (dense_print hs).1 hw⟩, ht, hi, (dense_print ht).2 hi⟩

end TypeBridge
