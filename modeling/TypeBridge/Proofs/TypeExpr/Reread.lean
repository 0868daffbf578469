import TypeBridge.Proofs.Nesting.Padded
import TypeBridge.Proofs.TypeExpr.Mirror

/-!
Printed forms read again, one shape at a time. Main statements: a printed list has its elements for
items just when it splits between them and each element is read again as itself; a printed reference
always has its referent, and a printed tuple or path has its parts just when its brackets hold them.
-/

namespace TypeBridge

/-! ### Lists -/

/-- What is known of a text in a printed list: it is the printed form of `e` with blanks around it,
and it is an item, which is read as `e` just when `good` holds of it. -/
structure IsItem {α : Type} (f : Text → Option α) (g : α → Except ParseError TypeExpr)
    (good : TypeExpr → Prop) (t : Text) (e : TypeExpr) : Prop where
  strip_eq : Text.strip t = e.print
  ne_nil : e.print ≠ []
  head?_ne : e.print.head? ≠ some ','
  exists_item : ∃ a, f t = some a ∧ (g a = .ok e ↔ good e)

section

variable {α : Type} {f : Text → Option α} {g : α → Except ParseError TypeExpr}
  {good : TypeExpr → Prop} {texts ending : List Text} {es : List TypeExpr}

theorem forall₂_filterMap_iff (h : List.Forall₂ (IsItem f g good) texts es) :
    List.Forall₂ (fun a e => g a = .ok e) (texts.filterMap f) es ↔ ∀ e ∈ es, good e := by
  induction h with
  | nil => simp
  | cons hitem _ ih =>
    obtain ⟨a, ha, hgood⟩ := hitem.exists_item
    rw [List.filterMap_cons_some ha, List.forall₂_cons, List.forall_mem_cons, hgood, ih]

/-- Items that are read as the printed expressions cover their printed forms. -/
theorem forall₂_covers (h : List.Forall₂ (IsItem f g good) texts es)
    (hcovers : ∀ {piece a e}, f piece = some a → g a = .ok e →
      Covers (Text.strip piece) (Text.strip e.print)) {items : List α}
    (hitems : List.Forall₂ (fun a e => g a = .ok e) items es) :
    List.Forall₂ (fun a t => ∀ piece, f piece = some a →
      Covers (Text.strip piece) (Text.strip t)) items texts := by
  induction h generalizing items with
  | nil =>
    cases hitems
    exact .nil
  | @cons t e _ _ hitem _ ih =>
    cases hitems with
    | cons ha hrest =>
      refine .cons (fun piece hp => ?_) (ih hrest)
      have hc := hcovers hp ha
      rwa [← hitem.strip_eq, Text.strip_strip] at hc

/-- The items of a printed list are its elements just when it splits between them. -/
theorem forall₂_splitPieces_iff (h : List.Forall₂ (IsItem f g good) texts es) (hne : es ≠ [])
    (hend : ending = [] ∨ ending = [[]]) (hnil : f [] = none)
    (hdrop : ∀ piece, f piece = none → Text.Blank piece ∨ 0 < Text.core piece)
    (hcovers : ∀ {piece a e}, f piece = some a → g a = .ok e →
      Covers (Text.strip piece) (Text.strip e.print)) :
    List.Forall₂ (fun a e => g a = .ok e)
        ((splitPieces ([','].intercalate (texts ++ ending))).filterMap f) es ↔
      SplitsFrom none 0 (texts ++ ending) ∧ ∀ e ∈ es, good e := by
  have htexts : texts ++ ending ≠ [] := by
    refine List.append_ne_nil_of_left_ne_nil ?_ ending
    rintro rfl
    cases h
    exact hne rfl
  have hitems : (texts ++ ending).filterMap f = texts.filterMap f := by
    rw [List.filterMap_append]
    rcases hend with rfl | rfl <;> simp [hnil]
  have hhead : ∀ t ∈ texts, ¬ Text.Blank t ∧ (Text.strip t).head? ≠ some ',' := by
    refine forall_right_of_forall₂ h.flip ?_
    intro e t hitem
    rw [← Text.strip_eq_nil_iff, hitem.strip_eq]
    exact ⟨hitem.ne_nil, hitem.head?_ne⟩
  rw [splitPieces, filterMap_dropEmptyEnd hnil]
  constructor
  · intro hread
    have hkeep := forall₂_covers h hcovers hread
    have hpieces := eq_of_filterMap hend htexts (piecesFrom_ne_nil none 0 _)
      (intercalate_piecesFrom none 0 _) (fun piece _ => hdrop piece) hhead hkeep
    have hsplits := splitsFrom_piecesFrom none 0 ([','].intercalate (texts ++ ending))
    rw [hpieces] at hsplits hread
    rw [hitems] at hread
    exact ⟨hsplits, (forall₂_filterMap_iff h).1 hread⟩
  · rintro ⟨hsplits, hgood⟩
    rw [piecesFrom_intercalate hsplits, hitems]
    exact (forall₂_filterMap_iff h).2 hgood

end

/-! ### References -/

theorem trimmed_mutText {s p : Text} (hp : Mirrors s p) (isMutable : Bool) :
    Text.Trimmed (TypeExpr.mutText isMutable ++ p) := by
  cases isMutable with
  | false => exact hp.trimmed
  | true =>
    have hm : Text.isBlank 'm' = false := by decide
    exact hp.trimmed_append hm

/-- The mark of mutability is read again, and nothing else is taken for one. -/
theorem exists_ofReferent_mutText {s p : Text} (hp : Mirrors s p) (lifetime : Option Text)
    {isMutable : Bool} (hword : isMutable = false → s.takeWhile Text.isWord ≠ "mut".toList) :
    ∃ q, Text.strip q = p ∧ Layer.ofReferent lifetime (TypeExpr.mutText isMutable ++ p)
      = .reference q isMutable lifetime := by
  have hstrip : Text.strip p = p := hp.trimmed.strip_eq
  cases isMutable with
  | false =>
    refine ⟨p, hstrip, Layer.ofReferent_of_ne lifetime ?_⟩
    show p.takeWhile Text.isWord ≠ "mut".toList
    rw [hp.takeWhile_eq]
    exact hword rfl
  | true =>
    have hspace : ∀ c, (' ' :: p).head? = some c → Text.isWord c = false := by
      rintro c hc
      cases hc
      decide
    refine ⟨' ' :: p, ?_, Layer.ofReferent_mut lifetime hspace⟩
    rw [Text.strip_cons_space, hstrip]

/-- A printed reference is read with the marks that it was printed with. -/
theorem exists_ofStripped?_reference {rest t p : Text} {isMutable : Bool} {lifetime : Option Text}
    (h : Layer.ofReference? rest = .ok (.reference t isMutable lifetime))
    (hp : Mirrors (Text.strip t) p) :
    ∃ q, Text.strip q = p ∧ Layer.ofStripped? (referenceText isMutable lifetime ++ p)
      = .ok (.reference q isMutable lifetime) := by
  obtain ⟨t', isMutable', lifetime', hlayer, hword, hcases⟩ := Layer.ofReference?_eq_ok h
  cases hlayer
  obtain ⟨q, hq, hreferent⟩ := exists_ofReferent_mutText hp lifetime hword
  refine ⟨q, hq, ?_⟩
  have htrim := trimmed_mutText hp isMutable
  have hand : Layer.ofStripped? (referenceText isMutable lifetime ++ p) = Layer.ofReference?
      (' ' :: (TypeExpr.lifetimeText lifetime ++ (TypeExpr.mutText isMutable ++ p))) := by
    rw [referenceText, List.append_assoc, List.append_assoc]
    rfl
  rw [hand, ← hreferent]
  rcases hcases with ⟨rfl, hs, hquote⟩ | ⟨name, blanks, rfl, hname, _, _⟩
  · have hstrip : Text.strip (' ' :: (TypeExpr.lifetimeText none
        ++ (TypeExpr.mutText isMutable ++ p))) = TypeExpr.mutText isMutable ++ p := by
      rw [Text.strip_cons_space]
      exact htrim.strip_eq
    refine Layer.ofReference?_of_ne hstrip ?_
    cases isMutable with
    | false =>
      have hsame : Text.strip t = Text.strip rest := by
        rw [← Text.strip_strip rest, hs]
        rfl
      rw [← hsame, ← hp.head?_eq] at hquote
      exact hquote
    | true =>
      intro hc
      cases hc
  · have hne : name ≠ [] := by
      rintro rfl
      cases hname
    have hafter : Text.stripStart (' ' :: (TypeExpr.mutText isMutable ++ p))
        = TypeExpr.mutText isMutable ++ p :=
      (Text.stripStart_append Text.blank_space _).trans (Text.stripStart_eq_self htrim.1)
    have hspace : ∀ c, (' ' :: (TypeExpr.mutText isMutable ++ p)).head? = some c →
        Text.isIdentChar c = false := by
      rintro c hc
      cases hc
      decide
    have hstrip : Text.strip (' ' :: (TypeExpr.lifetimeText (some name)
        ++ (TypeExpr.mutText isMutable ++ p)))
          = '\'' :: (name ++ ' ' :: (TypeExpr.mutText isMutable ++ p)) := by
      have hq : Text.isBlank '\'' = false := by decide
      have hall : Text.Trimmed ('\'' :: (name ++ ' ' :: TypeExpr.mutText isMutable) ++ p) :=
        hp.trimmed_append hq
      rw [Text.strip_cons_space, TypeExpr.lifetimeText_of_ne_nil hne]
      simpa using hall.strip_eq
    have hlast : Text.stripStart (' ' :: (TypeExpr.mutText isMutable ++ p)) ≠ [] := by
      rw [hafter]
      exact List.append_ne_nil_of_right_ne_nil _ hp.ne_nil
    rw [Layer.ofReference?_of_lifetime hstrip hname hspace hlast, hafter]

/-! ### Tuples -/

theorem head?_print_ne_comma {s : Text} {e : TypeExpr} (h : parseType s = .ok e) :
    e.print.head? ≠ some ',' := by
  obtain ⟨layer, hpeel, _⟩ := parseType_eq_ok_iff.1 h
  rw [(mirrors_of_parseType h).head?_eq]
  exact Layer.head?_ne_comma hpeel

/-- What stands between parentheses is read as a tuple if its bracket closes behind it and its
pieces are the elements. -/
theorem read_parenthesized_iff {inner : Text} {es : List TypeExpr} (hinner : Text.Trimmed inner)
    (hend : es.length = 1 → [','].isSuffixOf inner = true) :
    (∃ layer, Layer.ofStripped? ('(' :: (inner ++ [')'])) = .ok layer ∧
        layer.read = .ok (.tuple es)) ↔
      Bracket.round.ClosesIn inner ∧ List.Forall₂ (fun t e => parseType t = .ok e)
        ((splitPieces inner).filterMap Layer.element?) es := by
  have hround : Layer.ofStripped? ('(' :: (inner ++ [')']))
      = Layer.ofRound? ('(' :: (inner ++ [')'])) (inner ++ [')']) := rfl
  rw [hround, Layer.filterMap_element?]
  constructor
  · rintro ⟨layer, hl, hread⟩
    obtain ⟨inside, hinside, hc, rfl⟩ := Layer.ofRound?_eq_ok_iff.1 hl
    obtain rfl := List.append_cancel_right hinside
    rw [hinner.strip_eq] at hread
    rcases Layer.ofContent_cases ('(' :: (inner ++ [')'])) inner with
      ⟨elements, htuple⟩ | ⟨t, hgroup⟩
    · rw [htuple] at hread
      obtain ⟨es', hes, he⟩ := Layer.read_tuple_eq_ok.1 hread
      cases he
      rw [(Layer.ofContent_eq_tuple_iff.1 htuple).1]
      exact ⟨hc, hes⟩
    · rw [hgroup] at hread
      obtain ⟨_, he⟩ := Layer.read_group_eq_ok.1 hread
      cases he
  · rintro ⟨hc, hes⟩
    refine ⟨_, Layer.ofRound?_eq_ok_iff.2 ⟨inner, rfl, hc, rfl⟩, ?_⟩
    have htuple : Layer.ofContent ('(' :: (inner ++ [')'])) inner = .tuple _ :=
      Layer.ofContent_eq_tuple_iff.2 ⟨rfl, fun hone => hend (hes.length_eq ▸ hone)⟩
    rw [hinner.strip_eq, htuple]
    exact Layer.read_tuple_eq_ok.2 ⟨es, hes, rfl⟩

theorem isItem_element {s t : Text} {e : TypeExpr} (h : parseType s = .ok e)
    (ht : Padded t e.print) :
    IsItem Layer.element? parseType (fun e => parseType e.print = .ok e) t e := by
  have hm := mirrors_of_parseType h
  have hstrip : Text.strip t = e.print := ht.strip_eq.trans hm.trimmed.strip_eq
  refine ⟨hstrip, hm.ne_nil, head?_print_ne_comma h, t, ?_, ?_⟩
  · rw [Layer.element?, if_neg]
    rw [Text.isBlankText_iff, ← Text.strip_eq_nil_iff, hstrip]
    exact hm.ne_nil
  · rw [parseType_congr ht.strip_eq]

theorem read_parenthesized_items_iff {pieces ending : List Text} {es : List TypeExpr}
    (hp : List.Forall₂ Padded pieces (es.map TypeExpr.print)) (hne : es ≠ [])
    (hes : ∀ e ∈ es, ∃ s, parseType s = .ok e) (hend : ending = [] ∨ ending = [[]])
    (htrim : Text.Trimmed ([','].intercalate (pieces ++ ending)))
    (hone : es.length = 1 → [','].isSuffixOf ([','].intercalate (pieces ++ ending)) = true) :
    (∃ layer,
        Layer.ofStripped? ('(' :: ([','].intercalate (pieces ++ ending) ++ [')'])) = .ok layer ∧
          layer.read = .ok (.tuple es)) ↔
      Bracket.round.Holds (pieces ++ ending) ∧ ∀ e ∈ es, parseType e.print = .ok e := by
  have hitems : List.Forall₂ (IsItem Layer.element? parseType fun e => parseType e.print = .ok e)
      pieces es := by
    have hboth := (List.forall₂_and_left _ _).2 ⟨hes, (List.forall₂_map_right_iff.1 hp).flip⟩
    refine hboth.flip.imp ?_
    rintro t e ⟨⟨s, hs⟩, ht⟩
    exact isItem_element hs ht
  rw [read_parenthesized_iff htrim hone, forall₂_splitPieces_iff hitems hne hend rfl
    (fun piece h => .inl (Layer.element?_eq_none h))
    (fun hf hg => covers_element hf (mirrors_of_parseType hg))]
  constructor
  · rintro ⟨hc, hs, hes⟩
    exact ⟨⟨hc, hs⟩, hes⟩
  · rintro ⟨⟨hc, hs⟩, hes⟩
    exact ⟨hc, hs, hes⟩

/-- A printed tuple is read as itself just when its parentheses hold its elements and each element
is read as itself. -/
theorem read_tupleText_iff {es : List TypeExpr} (hne : es ≠ [])
    (hes : ∀ e ∈ es, ∃ s, parseType s = .ok e) :
    (∃ layer, Layer.ofStripped? (TypeExpr.tupleText (es.map TypeExpr.print)) = .ok layer ∧
        layer.read = .ok (.tuple es)) ↔
      Bracket.round.Holds (TypeExpr.tupleItems (es.map TypeExpr.print)) ∧
        ∀ e ∈ es, parseType e.print = .ok e := by
  have hprints : ∀ t ∈ es.map TypeExpr.print, Text.Trimmed t ∧ t ≠ [] := by
    intro t ht
    obtain ⟨e, he, rfl⟩ := List.mem_map.1 ht
    obtain ⟨s, hs⟩ := hes e he
    have hm := mirrors_of_parseType hs
    exact ⟨hm.trimmed, hm.ne_nil⟩
  by_cases hone : es.length = 1
  · obtain ⟨e, rfl⟩ := List.length_eq_one_iff.1 hone
    obtain ⟨ht, _⟩ := hprints e.print List.mem_cons_self
    have hpadded : List.Forall₂ Padded [e.print] [e.print] :=
      .cons ⟨[], [], Text.blank_nil, Text.blank_nil, (List.append_nil _).symm⟩ .nil
    have hjoin : [','].intercalate ([e.print] ++ [[]]) = e.print ++ [','] := by simp
    have htrim : Text.Trimmed ([','].intercalate ([e.print] ++ [[]])) := by
      have hcomma : Text.isBlank ',' = false := by decide
      rw [hjoin]
      constructor
      · intro c hc
        rw [List.head?_append_of_ne_nil _ (hprints e.print List.mem_cons_self).2] at hc
        exact ht.1 c hc
      · intro c hc
        rw [List.getLast?_concat] at hc
        cases hc
        exact hcomma
    have hends : [','].isSuffixOf ([','].intercalate ([e.print] ++ [[]])) = true := by
      rw [hjoin]
      exact List.isSuffixOf_iff_suffix.2 (List.suffix_append _ _)
    have h := read_parenthesized_items_iff hpadded hne hes (.inr rfl) htrim fun _ => hends
    rw [hjoin] at h
    rw [List.map_singleton, TypeExpr.tupleText_singleton]
    exact h
  · have hmany : (es.map TypeExpr.print).length ≠ 1 := by rwa [List.length_map]
    obtain ⟨pieces, hjoin, hp⟩ := exists_padded Text.blank_nil Text.blank_nil
      fun e => hne (List.map_eq_nil_iff.1 e)
    have htrim : Text.Trimmed ([','].intercalate (pieces ++ [])) := by
      rw [List.append_nil, hjoin, List.nil_append, List.append_nil]
      exact Text.trimmed_intercalate _ hprints
    have h := read_parenthesized_items_iff hp hne hes (.inl rfl) htrim fun e => absurd e hone
    rw [List.append_nil, hjoin, List.nil_append, List.append_nil,
      Bracket.holds_padded_iff hp] at h
    rw [TypeExpr.tupleText_of_ne_one hmany, TypeExpr.tupleItems_of_ne_one hmany]
    exact h

/-! ### Paths -/

/-- What is left out of generic arguments holds nothing, or at least the quote of a lifetime. -/
theorem blank_or_core_of_argument? {piece : Text} (h : Layer.argument? piece = none) :
    Text.Blank piece ∨ 0 < Text.core piece := by
  rcases Layer.argument?_eq_none h with hnil | hquote
  · exact .inl (Text.strip_eq_nil_iff.1 hnil)
  · obtain ⟨rest, hrest⟩ := List.head?_eq_some_iff.1 hquote
    have hcore : Text.core ['\''] = 1 := by decide
    rw [← Text.core_strip, hrest, ← List.singleton_append, Text.core_append, hcore]
    exact .inr (by omega)

namespace Layer

/-- A path is a name that is read as itself, or has generic arguments behind the name. -/
theorem ofPath?_name_or_arguments {s name : Text} {args : List Argument} {selfType : Option Text}
    (hs : Text.Trimmed s) (h : ofPath? s = .ok (path name args selfType)) :
    (args = [] ∧ ofPath? name = .ok (path name [] none)) ∨
      ∃ n : PathName, name = n.text ∧ args ≠ [] ∧
        ∀ a ∈ args, ∃ piece, argument? piece = some a := by
  have hplain : ∀ n : PathName, ofPath? n.text = .ok (path n.text [] none) :=
    fun n => ofPath?_of_name n.spelledBy_text n.trimmed_text.1
  rcases ofPath?_eq_ok h with ⟨_, hl⟩ | ⟨n, hn, hl⟩ |
    ⟨n, start, inside, after, hsplit, hn, hc, ha, hl⟩
  · cases hl
  · cases hl
    exact .inl ⟨rfl, hplain n⟩
  · unfold ofArguments at hl
    split at hl
    · cases hl
      by_cases hargs : (splitPieces inside).filterMap argument? = []
      · rw [hargs]
        exact .inl ⟨rfl, hplain n⟩
      · refine .inr ⟨n, rfl, hargs, fun a hm => ?_⟩
        obtain ⟨piece, _, hpiece⟩ := List.mem_filterMap.1 hm
        exact ⟨piece, hpiece⟩
    · rename_i hafter
      cases hl
      have hblank : ¬ Text.Blank after := by rwa [← Text.isBlankText_iff]
      exact .inl ⟨rfl, ofPath?_collapse hs hsplit hn hc ha hblank⟩

/-- The collapsed text of a self type stays within its brackets, so the path behind it is read as it
is read alone. -/
theorem ofStripped?_headText_iff {s t rest name tail : Text} {args args' : List Argument}
    {selfType : Option Text} (h : ofQualified? s rest = .ok (path name args selfType))
    (hm : Mirrors t (name ++ tail)) :
    ofStripped? (TypeExpr.headText name selfType ++ tail) = .ok (path name args' selfType) ↔
      ofPath? (name ++ tail) = .ok (path name args' none) := by
  obtain ⟨inside, _, _, _, _, _, _, hc, _, _, _, hl⟩ := ofQualified?_eq_ok h
  cases hl
  have harrow : isArrowHead (lastOr none (' ' :: (Text.collapse inside ++ [' ']))) '>' = false := by
    rw [lastOr_cons, lastOr_concat]
    decide
  have hsep : Text.strip (' ' :: ':' :: ':' :: ' ' :: (name ++ tail))
      = ':' :: ':' :: (' ' :: (name ++ tail)) := by
    have hcolon : Text.isBlank ':' = false := by decide
    have htrim : Text.Trimmed (':' :: [':', ' '] ++ (name ++ tail)) := hm.trimmed_append hcolon
    rw [Text.strip_cons_space]
    exact htrim.strip_eq
  rw [headText_some_append]
  show ofQualified? _ _ = _ ↔ _
  rw [ofQualified?_eq_ok_iff _ (Bracket.closesIn_spaced_collapse hc) harrow hsep,
    Text.collapse_spaced, Text.strip_cons_space, hm.trimmed.strip_eq]
  exact and_iff_left rfl

/-- A qualified path is read again just when the path behind its self type is. -/
theorem exists_ofPath?_of_ofQualified? {s rest name : Text} {args : List Argument}
    {selfType : Option Text} {es : List TypeExpr}
    (h : ofQualified? s rest = .ok (path name args selfType))
    (hes : List.Forall₂ (fun (a : Argument) e => a.read = .ok e) args es) :
    ∃ t, Text.Trimmed t ∧ ofPath? t = .ok (path name args none) ∧ ∀ args',
      ofStripped? (TypeExpr.headText name selfType ++ TypeExpr.argsText (es.map TypeExpr.print))
          = .ok (path name args' selfType) ↔
        ofPath? (name ++ TypeExpr.argsText (es.map TypeExpr.print))
          = .ok (path name args' none) := by
  obtain ⟨_, _, tail, _, _, _, _, _, _, _, hpath, hl⟩ := ofQualified?_eq_ok h
  cases hl
  rcases ofPath?_cases hpath with hl | ⟨_, _, hl⟩ <;> cases hl
  have ht := Text.trimmed_strip tail
  have hm := mirrors_ofPath? ht hpath (hes.imp fun a e he => .of_read mirrors_of_parseType he)
  exact ⟨Text.strip tail, ht, hpath, fun args' => ofStripped?_headText_iff h hm⟩

end Layer

section

variable {good : TypeExpr → Prop}

/-- Whether an expression was read from a generic argument. If that is a type, `good` says whether
it is read from its printed form again. -/
def FromArgument (good : TypeExpr → Prop) (e : TypeExpr) : Prop :=
  ∃ piece a, Layer.argument? piece = some a ∧ a.read = .ok e ∧
    ∀ t, a = .type t → (parseType e.print = .ok e ↔ good e)

variable (hbinding : ∀ text, good (.verbatim .binding text))

include hbinding

theorem isItem_argument {e : TypeExpr} {t : Text} (h : FromArgument good e)
    (ht : Padded t e.print) : IsItem Layer.argument? Argument.read good t e := by
  obtain ⟨piece, a, hpiece, hread, htype⟩ := h
  cases a with
  | binding text =>
    obtain ⟨rfl, htext⟩ := Layer.argument?_eq_binding_iff.1 hpiece
    cases hread
    have hstrip : Text.strip t = Text.strip piece := ht.strip_eq.trans (Text.strip_strip piece)
    refine ⟨hstrip, ?_, ?_, .binding (Text.strip t), ?_, ?_⟩
    · intro hnil
      rw [show Text.strip piece = [] from hnil] at htext
      exact absurd htext Bool.false_ne_true
    · intro hcomma
      obtain ⟨rest, hrest⟩ := List.head?_eq_some_iff.1 hcomma
      rw [show Text.strip piece = ',' :: rest from hrest] at htext
      exact absurd htext Bool.false_ne_true
    · rw [Layer.argument?_eq_binding_iff, hstrip]
      exact ⟨rfl, htext⟩
    · rw [hstrip]
      exact ⟨fun _ => hbinding _, fun _ => rfl⟩
  | type text =>
    obtain ⟨rfl, hne, hquote, htext⟩ := Layer.argument?_eq_type_iff.1 hpiece
    have hm := mirrors_of_parseType hread
    have hstrip : Text.strip t = e.print := ht.strip_eq.trans hm.trimmed.strip_eq
    refine ⟨hstrip, hm.ne_nil, head?_print_ne_comma hread, .type (Text.strip t), ?_, ?_⟩
    · rw [Text.strip_strip] at hm
      rw [Layer.argument?_eq_type_iff, hstrip, hm.head?_eq]
      exact ⟨rfl, hm.ne_nil, hquote, hm.isBinding_eq htext⟩
    · rw [← htype _ rfl, hstrip]
      exact Iff.rfl

/-- Printed generic arguments are read as themselves just when their brackets hold them and each of
them is read as itself. -/
theorem read_argsText_iff (n : PathName) {es : List TypeExpr} (hne : es ≠ [])
    (hes : ∀ e ∈ es, FromArgument good e) :
    (∃ args, Layer.ofPath? (n.text ++ TypeExpr.argsText (es.map TypeExpr.print))
        = .ok (.path n.text args none) ∧ List.Forall₂ (fun a e => a.read = .ok e) args es) ↔
      Bracket.angle.Holds (es.map TypeExpr.print) ∧ ∀ e ∈ es, good e := by
  have hprints : es.map TypeExpr.print ≠ [] := fun e => hne (List.map_eq_nil_iff.1 e)
  obtain ⟨pieces, hjoin, hp⟩ := exists_padded Text.blank_space Text.blank_space hprints
  have hitems : List.Forall₂ (IsItem Layer.argument? Argument.read good) pieces es := by
    have hboth := (List.forall₂_and_left _ _).2 ⟨hes, (List.forall₂_map_right_iff.1 hp).flip⟩
    exact hboth.flip.imp fun t e h => isItem_argument hbinding h.1 h.2
  have hcovers : ∀ {piece : Text} {a : Argument} {e : TypeExpr},
      Layer.argument? piece = some a → a.read = .ok e →
        Covers (Text.strip piece) (Text.strip e.print) := by
    intro piece a e hpiece hread
    exact covers_argument hpiece (.of_read mirrors_of_parseType hread)
  have hlist := forall₂_splitPieces_iff hitems hne (.inl rfl) rfl
    (fun piece h => blank_or_core_of_argument? h) hcovers
  rw [List.append_nil] at hlist
  have hprint : n.text ++ TypeExpr.argsText (es.map TypeExpr.print)
      = (n.text ++ [' ']) ++ '<' :: ([','].intercalate pieces ++ ['>']) := by
    rw [TypeExpr.argsText_of_ne_nil hprints, hjoin]
    simp
  have harrow : isArrowHead (lastOr none ([','].intercalate pieces)) '>' = false := by
    rw [hjoin, lastOr_concat]
    decide
  have hname := n.spelledBy_text.append_blank Text.blank_space
  rw [hprint, ← Bracket.holds_padded_iff hp]
  constructor
  · rintro ⟨args, hpath, hread⟩
    have hargs : args ≠ [] := by
      rintro rfl
      cases hread
      exact hne rfl
    obtain ⟨hc, rfl⟩ := (Layer.ofPath?_eq_arguments_iff hname harrow hargs).1 hpath
    obtain ⟨hs, hgood⟩ := hlist.1 hread
    exact ⟨⟨hc, hs⟩, hgood⟩
  · rintro ⟨⟨hc, hs⟩, hgood⟩
    have hread := hlist.2 ⟨hs, hgood⟩
    refine ⟨_, (Layer.ofPath?_eq_arguments_iff hname harrow ?_).2 ⟨hc, rfl⟩, hread⟩
    intro hnil
    rw [hnil] at hread
    cases hread
    exact hne rfl

/-- What a path without a qualifying self type prints is read as the same path, as far as its
generic arguments allow. -/
theorem read_path_iff {s name : Text} {args : List Argument} {selfType : Option Text}
    {es : List TypeExpr} (hs : Text.Trimmed s)
    (h : Layer.ofPath? s = .ok (.path name args selfType))
    (hes : List.Forall₂ (Argument.ReadsWith fun _ e => parseType e.print = .ok e ↔ good e)
      args es) :
    (∃ args', Layer.ofPath? (name ++ TypeExpr.argsText (es.map TypeExpr.print))
        = .ok (.path name args' none) ∧ List.Forall₂ (fun a e => a.read = .ok e) args' es) ↔
      (es ≠ [] → Bracket.angle.Holds (es.map TypeExpr.print)) ∧ ∀ e ∈ es, good e := by
  rcases Layer.ofPath?_name_or_arguments hs h with ⟨rfl, hname⟩ | ⟨n, rfl, hne, hargs⟩
  · -- Without generic arguments, only the name has to be read again.
    cases hes
    refine ⟨fun _ => ⟨fun hne => absurd rfl hne, nofun⟩, fun _ => ⟨[], ?_, .nil⟩⟩
    rw [List.map_nil, TypeExpr.argsText, List.append_nil, hname]
  · have hes' : es ≠ [] := by
      rintro rfl
      cases hes
      exact hne rfl
    have hfrom : ∀ e ∈ es, FromArgument good e := by
      refine forall_mem_of_forall₂ hes hargs ?_
      rintro a e ⟨piece, hpiece⟩ ⟨hread, htype⟩
      exact ⟨piece, a, hpiece, hread, htype⟩
    rw [read_argsText_iff hbinding n hes' hfrom]
    exact and_congr_left' ⟨fun hh _ => hh, fun hh => hh hes'⟩

/-- A qualified path is read as the same path, as far as its generic arguments allow: the collapsed
text of its self type stays within its brackets. -/
theorem read_qualified_iff {s rest name : Text} {args : List Argument} {selfType : Option Text}
    {es : List TypeExpr} (h : Layer.ofQualified? s rest = .ok (.path name args selfType))
    (hes : List.Forall₂ (Argument.ReadsWith fun _ e => parseType e.print = .ok e ↔ good e)
      args es) :
    (∃ args', Layer.ofStripped? (TypeExpr.headText name selfType
          ++ TypeExpr.argsText (es.map TypeExpr.print)) = .ok (.path name args' selfType) ∧
        List.Forall₂ (fun a e => a.read = .ok e) args' es) ↔
      (es ≠ [] → Bracket.angle.Holds (es.map TypeExpr.print)) ∧ ∀ e ∈ es, good e := by
  obtain ⟨t, ht, hpath, hprint⟩ :=
    Layer.exists_ofPath?_of_ofQualified? h (hes.imp fun a e he => he.read_eq)
  rw [← read_path_iff hbinding ht hpath hes]
  simp only [hprint]

end

end TypeBridge
