import TypeBridge.Proofs.Nesting.Bracketed
import TypeBridge.Proofs.TypeExpr.Print
import TypeBridge.Proofs.TypeExpr.Squeezed
import TypeBridge.Proofs.TypeExpr.Unread

/-!
The nesting of printed forms. Main statements: what is read from well-nested text prints as
well-nested text, and what is read from text in one piece prints as text in one piece; so the
printed elements of a tuple and the printed generic arguments of a path are each in one piece.
-/

namespace TypeBridge

/-! ### The pieces that are read -/

namespace Layer

variable {s name : Text} {args : List Argument} {selfType : Option Text}

theorem undivided_of_mem_tuple {elements : List Text} (hs : WellNested s)
    (h : ofStripped? s = .ok (tuple elements)) : ∀ t ∈ elements, Undivided t := by
  obtain ⟨inside, rfl, hl⟩ := ofStripped?_eq_tuple h
  obtain ⟨hkept, _⟩ := ofContent_eq_tuple_iff.1 hl
  have hc := closesIn_of_parenthesized h
  have hinside : WellNested (Text.strip inside) :=
    wellNested_strip_iff.2 ((Bracket.wellNested_enclosed_iff hc rfl []).1 hs).1
  intro t ht
  rw [← hkept] at ht
  exact undivided_of_mem_splitPieces hinside t (List.mem_filter.1 ht).1

/-- A generic argument that stands in a piece of its own. -/
def InPiece (a : Argument) : Prop := ∃ piece, argument? piece = some a ∧ Undivided piece

theorem InPiece.wellNested {t : Text} (h : InPiece (.type t)) : WellNested t := by
  obtain ⟨piece, hpiece, hu⟩ := h
  rw [(argument?_eq_type_iff.1 hpiece).1]
  exact wellNested_strip_iff.2 hu.wellNested

theorem inPiece_of_ofPath? (hs : WellNested s) (h : ofPath? s = .ok (path name args selfType)) :
    ∀ a ∈ args, InPiece a := by
  rcases ofPath?_eq_ok h with ⟨_, hl⟩ | ⟨n, _, hl⟩ |
    ⟨n, start, inside, after, rfl, hn, hc, ha, hl⟩
  · cases hl
  · cases hl
    exact nofun
  · obtain ⟨hinside, _⟩ := (wellNested_angled_iff hn hc ha after).1 hs
    unfold ofArguments at hl
    split at hl
    · cases hl
      intro a hm
      obtain ⟨piece, hp, hpiece⟩ := List.mem_filterMap.1 hm
      exact ⟨piece, hpiece, undivided_of_mem_splitPieces hinside piece hp⟩
    · cases hl
      exact nofun

theorem inPiece_of_ofStripped? (hs : WellNested s)
    (h : ofStripped? s = .ok (path name args selfType)) : ∀ a ∈ args, InPiece a := by
  rcases ofStripped?_eq_path h with ⟨rest, rfl, _, hl⟩ | ⟨rfl, _, hl⟩
  · obtain ⟨inside, after, tail, _, _, _, rfl, hc, ha, hafter, hpath, hl⟩ := ofQualified?_eq_ok hl
    cases hl
    obtain ⟨_, hw⟩ := (Bracket.wellNested_enclosed_iff hc ha after).1 hs
    exact inPiece_of_ofPath? ((scansAlike_behind_separator hafter).wellNested_iff.1 hw) hpath
  · exact inPiece_of_ofPath? hs hl

end Layer

/-! ### Printed forms -/

/-- Whether a printed form nests properly, and stays in one piece, if the text that it was read from
does. -/
structure KeepsNesting (s p : Text) : Prop where
  wellNested : WellNested s → WellNested p
  undivided : Undivided s → Undivided p

variable {s p t : Text}

theorem ScansAlike.keepsNesting (h : ScansAlike s p) : KeepsNesting s p :=
  ⟨h.wellNested_iff.1, h.undivided_iff.1⟩

theorem KeepsNesting.trans (hs : KeepsNesting s t) (hp : KeepsNesting t p) : KeepsNesting s p :=
  ⟨fun h => hp.wellNested (hs.wellNested h), fun h => hp.undivided (hs.undivided h)⟩

/-- What nothing divides nests properly in the first place. -/
theorem KeepsNesting.of_undivided (h : WellNested s → Undivided p) : KeepsNesting s p :=
  ⟨fun hs => (h hs).wellNested, fun hs => h hs.wellNested⟩

theorem undivided_tupleText {texts : List Text} (h : ∀ t ∈ texts, Undivided t) :
    Undivided (TypeExpr.tupleText texts) := by
  have hround : ∀ {inner : Text}, WellNested inner → Undivided ('(' :: (inner ++ [')'])) := by
    intro inner hw
    have harrow : isArrowHead (lastOr none inner) Bracket.round.closer = false := rfl
    exact (Bracket.undivided_enclosed_iff hw harrow []).2 undivided_nil
  by_cases hone : texts.length = 1
  · obtain ⟨t, rfl⟩ := List.length_eq_one_iff.1 hone
    rw [TypeExpr.tupleText_singleton]
    exact hround ((h t List.mem_cons_self).wellNested.append rfl)
  · rw [TypeExpr.tupleText_of_ne_one hone]
    exact hround (wellNested_intercalate fun t ht => (h t ht).wellNested)

theorem undivided_argsText {n : PathName} {texts : List Text} (h : ∀ t ∈ texts, Undivided t) :
    Undivided (n.text ++ TypeExpr.argsText texts) := by
  have hname : Quiet n.text := n.spelledBy_text.quiet
  by_cases hne : texts = []
  · rw [hne, TypeExpr.argsText, List.append_nil]
    exact ⟨wellNested_of_quiet hname, scan_quiet passes_commaStep none 0 hname⟩
  · have hjoin := wellNested_intercalate fun t ht => (h t ht).wellNested
    rw [TypeExpr.argsText_of_ne_nil hne]
    exact ⟨wellNested_angled hname hjoin, depthAfter?_angled hname hjoin⟩

section

variable {name : Text} {args : List Argument} {selfType : Option Text} {es : List TypeExpr}

theorem keepsNesting_reference {rest : Text} {isMutable : Bool} {lifetime : Option Text}
    (h : Layer.ofReference? rest = .ok (.reference t isMutable lifetime))
    (hp : KeepsNesting t p) :
    KeepsNesting ('&' :: rest) (referenceText isMutable lifetime ++ p) := by
  have hlifetime : ∀ name ∈ lifetime, Text.isIdent name = true := by
    obtain ⟨_, _, _, hl, _, hcases⟩ := Layer.ofReference?_eq_ok h
    cases hl
    rcases hcases with ⟨rfl, _⟩ | ⟨name, _, rfl, hname, _⟩
    · exact nofun
    · intro name' hm
      cases hm
      exact hname
  have hmarks := ScansAlike.quiet_append (quiet_referenceText isMutable hlifetime)
    (lastOr_referenceText_ne isMutable lifetime) p
  exact ((Layer.scansAlike_referent h).keepsNesting.trans hp).trans hmarks.symm.keepsNesting

/-- The printed generic arguments of a path are each in one piece if the arguments are. -/
theorem undivided_of_inPiece (hargs : ∀ a ∈ args, Layer.InPiece a)
    (hes : List.Forall₂ (Argument.ReadsWith fun t e => KeepsNesting t e.print) args es) :
    ∀ e ∈ es, Undivided e.print := by
  refine forall_mem_of_forall₂ hes hargs ?_
  rintro a e ⟨piece, hpiece, hu⟩ ⟨hread, htype⟩
  have hstrip : Undivided (Text.strip piece) := (ScansAlike.strip piece).undivided_iff.2 hu
  cases a with
  | binding text =>
    obtain ⟨rfl, _⟩ := Layer.argument?_eq_binding_iff.1 hpiece
    cases hread
    exact hstrip
  | type text =>
    obtain ⟨rfl, _⟩ := Layer.argument?_eq_type_iff.1 hpiece
    exact (htype _ rfl).undivided hstrip

theorem keepsNesting_ofPath? (h : Layer.ofPath? s = .ok (.path name args selfType))
    (hes : List.Forall₂ (Argument.ReadsWith fun t e => KeepsNesting t e.print) args es) :
    KeepsNesting s (name ++ TypeExpr.argsText (es.map TypeExpr.print)) := by
  have hprints : WellNested s → ∀ t ∈ es.map TypeExpr.print, Undivided t := fun hs =>
    List.forall_mem_map.2 (undivided_of_inPiece (Layer.inPiece_of_ofPath? hs h) hes)
  rcases Layer.ofPath?_eq_ok h with ⟨_, hl⟩ | ⟨n, _, hl⟩ | ⟨n, _, inside, after, _, _, _, _, hl⟩
  · cases hl
  · cases hl
    exact .of_undivided fun hs => undivided_argsText (hprints hs)
  · unfold Layer.ofArguments at hl
    split at hl
    · cases hl
      exact .of_undivided fun hs => undivided_argsText (hprints hs)
    · cases hl
      cases hes
      show KeepsNesting s (Text.collapse s ++ [])
      rw [List.append_nil]
      exact (ScansAlike.collapse s).symm.keepsNesting

theorem keepsNesting_qualified {rest : Text}
    (h : Layer.ofQualified? s rest = .ok (.path name args selfType))
    (hes : List.Forall₂ (Argument.ReadsWith fun t e => KeepsNesting t e.print) args es) :
    KeepsNesting ('<' :: rest) (TypeExpr.headText name selfType
      ++ TypeExpr.argsText (es.map TypeExpr.print)) := by
  obtain ⟨inside, after, tail, _, _, _, rfl, hc, ha, hafter, hpath, hl⟩ :=
    Layer.ofQualified?_eq_ok h
  cases hl
  have hp := (Layer.scansAlike_behind_separator hafter).keepsNesting.trans
    (keepsNesting_ofPath? hpath hes)
  have hprint := headText_some_append (Text.collapse inside) name
    (TypeExpr.argsText (es.map TypeExpr.print))
  generalize name ++ TypeExpr.argsText (es.map TypeExpr.print) = q at hp hprint
  rw [hprint]
  have hsep : ScansAlike (' ' :: ':' :: ':' :: ' ' :: q) q :=
    .quiet_append (q := " :: ".toList) (by decide) (by decide) q
  have hself : ScansAlike inside (' ' :: (Text.collapse inside ++ [' '])) := by
    have hspaced := ScansAlike.collapse (' ' :: (Text.collapse inside ++ [' ']))
    rw [Text.collapse_spaced] at hspaced
    exact (ScansAlike.collapse inside).symm.trans hspaced
  have ha : isArrowHead (lastOr none inside) Bracket.angle.closer = false := ha
  have harrow : isArrowHead (lastOr none (' ' :: (Text.collapse inside ++ [' '])))
      Bracket.angle.closer = false := by
    rw [lastOr_cons, lastOr_concat]
    decide
  constructor
  · intro hs
    obtain ⟨hinside, hbehind⟩ := (Bracket.wellNested_enclosed_iff hc ha after).1 hs
    have hw := hself.wellNested_iff.1 hinside
    exact (Bracket.wellNested_enclosed_iff (hw.closesIn .angle) harrow _).2
      ⟨hw, hsep.wellNested_iff.2 (hp.wellNested hbehind)⟩
  · intro hs
    obtain ⟨hinside, _⟩ := (Bracket.wellNested_enclosed_iff hc ha after).1 hs.wellNested
    have hbehind := (Bracket.undivided_enclosed_iff hinside ha after).1 hs
    exact (Bracket.undivided_enclosed_iff (hself.wellNested_iff.1 hinside) harrow _).2
      (hsep.undivided_iff.2 (hp.undivided hbehind))

end

/-- What is read from well-nested text prints as well-nested text, and in one piece if that text
is. -/
theorem keepsNesting_of_parseType {e : TypeExpr} (h : parseType s = .ok e) :
    KeepsNesting s e.print := by
  refine parseType_induct (motive := fun s e => KeepsNesting s e.print)
    ?reference ?group ?tuple ?path ?verbatim h
  case reference =>
    intro s t isMutable lifetime e hpeel _ ih
    obtain ⟨rest, hs, hrest⟩ := Layer.ofStripped?_eq_reference hpeel
    have hp := keepsNesting_reference hrest ih
    rw [← hs] at hp
    exact (ScansAlike.strip s).symm.keepsNesting.trans hp
  case group =>
    intro s whole inner hpeel _
    rw [Layer.ofStripped?_eq_group hpeel]
    exact (ScansAlike.strip s).symm.keepsNesting
  case tuple =>
    intro s elements es hpeel hes
    rw [TypeExpr.print, TypeExpr.printAll_eq_map]
    refine .of_undivided fun hs => undivided_tupleText (List.forall_mem_map.2 ?_)
    have hu := Layer.undivided_of_mem_tuple (wellNested_strip_iff.2 hs) hpeel
    exact forall_mem_of_forall₂ hes hu fun t e ht he => he.2.undivided ht
  case path =>
    intro s name args es selfType hpeel hes
    rw [TypeExpr.print, TypeExpr.printAll_eq_map]
    refine (ScansAlike.strip s).symm.keepsNesting.trans ?_
    rcases Layer.ofStripped?_eq_path hpeel with ⟨rest, hs, _, hl⟩ | ⟨rfl, _, hl⟩
    · rw [hs]
      exact keepsNesting_qualified hl hes
    · exact keepsNesting_ofPath? hl hes
  case verbatim =>
    intro s form text hpeel
    rw [Layer.ofStripped?_eq_verbatim hpeel]
    exact (ScansAlike.strip s).symm.keepsNesting

/-! ### Printed parts -/

theorem undivided_print_of_tuple {elements : List Text} {es : List TypeExpr} (hs : WellNested s)
    (hpeel : Layer.peel? s = .ok (.tuple elements))
    (hes : List.Forall₂ (fun t e => parseType t = .ok e) elements es) :
    ∀ e ∈ es, Undivided e.print := by
  have hu := Layer.undivided_of_mem_tuple (wellNested_strip_iff.2 hs) hpeel
  exact forall_mem_of_forall₂ hes hu fun t e ht he => (keepsNesting_of_parseType he).undivided ht

theorem undivided_print_of_path {name : Text} {args : List Argument} {selfType : Option Text}
    {es : List TypeExpr} (hs : WellNested s)
    (hpeel : Layer.peel? s = .ok (.path name args selfType))
    (hes : List.Forall₂ (fun (a : Argument) e => a.read = .ok e) args es) :
    ∀ e ∈ es, Undivided e.print := by
  have hargs := Layer.inPiece_of_ofStripped? (wellNested_strip_iff.2 hs) hpeel
  exact undivided_of_inPiece hargs (hes.imp fun a e he => .of_read keepsNesting_of_parseType he)

end TypeBridge
