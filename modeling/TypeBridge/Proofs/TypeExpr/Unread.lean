import TypeBridge.Proofs.Nesting.Enclosed
import TypeBridge.Proofs.TypeExpr.Peeled
import TypeBridge.Proofs.TypeExpr.Read

/-!
Where brackets are not checked. A reading looks at the texts inside each layer, but some stretches
of a text it keeps as they are written, or passes over. Main statement: a text that is read nests
properly just when each of these stretches does, so any other fault in its brackets is rejected.
-/

namespace TypeBridge

namespace Layer

/-- Whether a piece of a generic argument list is a type. -/
def isType (piece : Text) : Bool :=
  match argument? piece with
  | some (.type _) => true
  | _ => false

/-- The stretches of a path that are not read: its generic arguments that are no types or, if the
path goes on behind them, all of them and what follows. -/
def unreadOfPath (s : Text) : List Text :=
  match Text.cutAt? '<' s with
  | none => []
  | some (_, rest) =>
    match Bracket.angle.enclosed? rest with
    | none => []
    | some (inside, after) =>
      if Text.isBlankText after then (splitPieces inside).filter fun piece => !isType piece
      else [inside, after]

/-- The stretches of a qualified path that are not read: its self type, and those of the path behind
it. -/
def unreadOfQualified (rest : Text) : List Text :=
  match Bracket.angle.enclosed? rest with
  | none => []
  | some (inside, after) => inside :: unreadOfPath (Text.strip ((Text.strip after).drop 2))

/-- The stretches of a text that are kept or passed over when its layer is peeled off. -/
def unread (s : Text) : Layer → List Text
  | verbatim _ text => [text]
  | path _ _ (some _) => unreadOfQualified s.tail
  | path _ _ none => unreadOfPath s
  | _ => []

variable {s : Text}

/-! ### Parentheses -/

theorem parts_ofContent (s content : Text) :
    (ofContent s content).parts
      = (splitPieces content).filter fun piece => !Text.isBlankText piece := by
  unfold ofContent
  split
  · rename_i inner hkept
    rw [hkept]
    split <;> rfl
  · rfl

theorem wellNested_of_isBlankText {s : Text} (h : Text.isBlankText s = true) : WellNested s :=
  wellNested_of_quiet (quiet_of_blank (Text.isBlankText_iff.1 h))

theorem wellNested_content_iff {inside : Text} (hc : Bracket.round.ClosesIn inside) (s : Text) :
    WellNested ('(' :: (inside ++ [')'])) ↔
      ∀ t ∈ (ofContent s (Text.strip inside)).parts, WellNested t := by
  have henclosed : WellNested ('(' :: (inside ++ [')'])) ↔ WellNested inside ∧ WellNested [] :=
    Bracket.wellNested_enclosed_iff hc rfl []
  rw [henclosed, and_iff_left wellNested_nil, ← wellNested_strip_iff, wellNested_iff_splitPieces,
    parts_ofContent]
  constructor
  · intro h t ht
    exact h t (List.mem_filter.1 ht).1
  · intro h piece hp
    cases hb : Text.isBlankText piece with
    | true => exact wellNested_of_isBlankText hb
    | false => exact h piece (List.mem_filter.2 ⟨hp, by rw [hb]; rfl⟩)

/-! ### Paths -/

theorem isType_eq_true_iff {piece : Text} :
    isType piece = true ↔ argument? piece = some (.type (Text.strip piece)) := by
  unfold isType
  split
  · rename_i t ht
    rw [← (argument?_eq_type_iff.1 ht).1, ht]
    exact iff_of_true rfl rfl
  · rename_i hne
    exact iff_of_false Bool.false_ne_true fun h => hne _ h

theorem mem_parts_path_iff {pieces : List Text} {name t : Text} {selfType : Option Text} :
    t ∈ (path name (pieces.filterMap argument?) selfType).parts ↔
      ∃ piece ∈ pieces, isType piece = true ∧ t = Text.strip piece := by
  simp only [parts, List.mem_filterMap]
  constructor
  · rintro ⟨a, ⟨piece, hp, ha⟩, ht⟩
    cases a with
    | binding text => cases ht
    | type text =>
      cases ht
      have htext := (argument?_eq_type_iff.1 ha).1
      exact ⟨piece, hp, isType_eq_true_iff.2 (htext ▸ ha), htext⟩
  · rintro ⟨piece, hp, htype, rfl⟩
    exact ⟨_, ⟨piece, hp, isType_eq_true_iff.1 htype⟩, rfl⟩

theorem forall_wellNested_pieces_iff (pieces : List Text) (name : Text) (selfType : Option Text) :
    (∀ piece ∈ pieces, WellNested piece) ↔
      (∀ t ∈ (path name (pieces.filterMap argument?) selfType).parts, WellNested t) ∧
        ∀ u ∈ pieces.filter (fun piece => !isType piece), WellNested u := by
  constructor
  · intro h
    refine ⟨fun t ht => ?_, fun u hu => h u (List.mem_filter.1 hu).1⟩
    obtain ⟨piece, hp, _, rfl⟩ := mem_parts_path_iff.1 ht
    exact wellNested_strip_iff.2 (h piece hp)
  · rintro ⟨htypes, hothers⟩ piece hp
    cases htype : isType piece with
    | true => exact wellNested_strip_iff.1 (htypes _ (mem_parts_path_iff.2 ⟨piece, hp, htype, rfl⟩))
    | false => exact hothers piece (List.mem_filter.2 ⟨hp, by rw [htype]; rfl⟩)

theorem wellNested_angled_iff {n : PathName} {start inside : Text} (hn : n.SpelledBy start)
    (hc : Bracket.angle.ClosesIn inside) (ha : isArrowHead (lastOr none inside) '>' = false)
    (after : Text) :
    WellNested (start ++ '<' :: (inside ++ '>' :: after)) ↔
      WellNested inside ∧ WellNested after := by
  rw [(ScansAlike.quiet_append hn.quiet hn.lastOr_ne _).wellNested_iff]
  exact Bracket.wellNested_enclosed_iff hc ha after

theorem wellNested_path_iff {name : Text} {args : List Argument}
    (h : ofPath? s = .ok (path name args none)) (selfType : Option Text) :
    WellNested s ↔ (∀ t ∈ (path name args selfType).parts, WellNested t) ∧
      ∀ u ∈ unreadOfPath s, WellNested u := by
  rcases ofPath?_eq_ok h with ⟨_, hl⟩ | ⟨n, hn, hl⟩ |
    ⟨n, start, inside, after, rfl, hn, hc, ha, hl⟩
  · cases hl
  · cases hl
    have hcut : Text.cutAt? '<' s = none :=
      (Text.cutAt?_eq_none_iff '<').2 (angle_not_mem_of_spelledBy hn)
    have hnone : unreadOfPath s = [] := by simp only [unreadOfPath, hcut]
    rw [hnone]
    exact iff_of_true (wellNested_of_quiet hn.quiet) ⟨List.forall_mem_nil _, List.forall_mem_nil _⟩
  · have hcut := Text.cutAt?_append (inside ++ '>' :: after) (angle_not_mem_of_spelledBy hn)
    have henclosed : Bracket.angle.enclosed? (inside ++ '>' :: after) = some (inside, after) :=
      Bracket.enclosed?_of_closesIn hc ha after
    rw [wellNested_angled_iff hn hc ha]
    simp only [unreadOfPath, hcut, henclosed]
    unfold ofArguments at hl
    cases hb : Text.isBlankText after with
    | true =>
      rw [hb, if_pos rfl] at hl
      cases hl
      rw [if_pos rfl, and_iff_left (wellNested_of_isBlankText hb), wellNested_iff_splitPieces]
      exact forall_wellNested_pieces_iff _ _ _
    | false =>
      rw [hb, if_neg Bool.false_ne_true] at hl
      cases hl
      rw [if_neg Bool.false_ne_true, List.forall_mem_cons, List.forall_mem_singleton]
      exact (and_iff_right (List.forall_mem_nil _)).symm

/-- The separator of a qualified path has no effect on a scan. -/
theorem scansAlike_behind_separator {after tail : Text}
    (h : Text.strip after = ':' :: ':' :: tail) : ScansAlike after (Text.strip tail) := by
  have hcolons : ScansAlike (':' :: ':' :: tail) tail :=
    .quiet_append (q := [':', ':']) (by decide) (by decide) tail
  have hafter : ScansAlike (':' :: ':' :: tail) after := h ▸ ScansAlike.strip after
  exact hafter.symm.trans (hcolons.trans (ScansAlike.strip tail).symm)

theorem wellNested_qualified_iff {s rest name : Text} {args : List Argument}
    {selfType : Option Text} (h : ofQualified? s rest = .ok (path name args selfType)) :
    WellNested ('<' :: rest) ↔ (∀ t ∈ (path name args selfType).parts, WellNested t) ∧
      ∀ u ∈ unreadOfQualified rest, WellNested u := by
  obtain ⟨inside, after, tail, name', args', selfType', rfl, hc, ha, hafter, hpath, hl⟩ :=
    ofQualified?_eq_ok h
  cases hl
  have henclosed : Bracket.angle.enclosed? (inside ++ '>' :: after) = some (inside, after) :=
    Bracket.enclosed?_of_closesIn hc ha after
  have hnested : WellNested ('<' :: (inside ++ '>' :: after)) ↔
      WellNested inside ∧ WellNested after := Bracket.wellNested_enclosed_iff hc ha after
  have hplain : ofPath? (Text.strip tail) = .ok (path name args none) := by
    rcases ofPath?_cases hpath with hl | ⟨_, _, hl⟩ <;> cases hl
    exact hpath
  simp only [unreadOfQualified, henclosed, hafter]
  rw [hnested, (scansAlike_behind_separator hafter).wellNested_iff,
    wellNested_path_iff hplain (some (Text.collapse inside)), List.forall_mem_cons, and_left_comm]
  rfl

/-! ### Layers -/

/-- The marks of a reference have no effect on a scan. -/
theorem scansAlike_referent {rest t : Text} {isMutable : Bool} {lifetime : Option Text}
    (h : ofReference? rest = .ok (reference t isMutable lifetime)) :
    ScansAlike ('&' :: rest) t := by
  obtain ⟨t', isMutable', lifetime', hl, _, hcases⟩ := ofReference?_eq_ok h
  cases hl
  have hand : ScansAlike ('&' :: rest) rest :=
    .quiet_append (q := ['&']) (by decide) (by decide) rest
  have hmut : ScansAlike (mutMark isMutable ++ t) t := by
    cases isMutable with
    | true => exact .quiet_append (by decide) (by decide) t
    | false => exact .quiet_append (q := []) nofun nofun t
  refine hand.trans ((ScansAlike.strip rest).symm.trans ?_)
  rcases hcases with ⟨_, hs, _⟩ | ⟨name, blanks, _, hname, hblanks, hs⟩
  · rw [hs]
    exact hmut
  · have hident := Text.isIdentChar_of_mem_isIdent hname
    have hquiet : Quiet ('\'' :: name) :=
      List.forall_mem_cons.2 ⟨by decide, quiet_of_forall (by decide) hident⟩
    have hdash : lastOr none ('\'' :: name) ≠ some '-' := by
      rw [lastOr_cons]
      refine lastOr_ne_of_getLast? (fun hc => ?_) (by decide)
      exact absurd (hident '-' (List.mem_of_getLast? hc)) (by decide)
    have hlife : ScansAlike (Text.strip rest) (blanks ++ (mutMark isMutable ++ t)) := by
      rw [hs]
      exact .quiet_append (q := '\'' :: name) hquiet hdash _
    have hblank : ScansAlike (blanks ++ (mutMark isMutable ++ t)) (mutMark isMutable ++ t) :=
      .quiet_append (quiet_of_blank hblanks) (lastOr_ne_of_blank hblanks nofun) _
    exact hlife.trans (hblank.trans hmut)

/-- A text nests properly just when the texts inside its layer do, and so do the stretches that are
not read. -/
theorem wellNested_iff {layer : Layer} (h : ofStripped? s = .ok layer) :
    WellNested s ↔ (∀ t ∈ layer.parts, WellNested t) ∧ ∀ u ∈ layer.unread s, WellNested u := by
  have hround : ∀ {rest : Text}, ofStripped? ('(' :: rest) = .ok layer →
      (WellNested ('(' :: rest) ↔ ∀ t ∈ layer.parts, WellNested t) := by
    intro rest hl
    obtain ⟨inside, rfl, hc, rfl⟩ := ofRound?_eq_ok_iff.1 hl
    exact wellNested_content_iff hc _
  cases layer with
  | reference t isMutable lifetime =>
    obtain ⟨rest, rfl, hrest⟩ := ofStripped?_eq_reference h
    rw [(scansAlike_referent hrest).wellNested_iff, parts, List.forall_mem_singleton]
    exact (and_iff_left (List.forall_mem_nil _)).symm
  | group whole inner =>
    obtain ⟨_, rfl⟩ := exists_parenthesized_of_group h
    rw [hround h]
    exact (and_iff_left (List.forall_mem_nil _)).symm
  | tuple elements =>
    obtain ⟨inside, rfl, _⟩ := ofStripped?_eq_tuple h
    rw [hround h]
    exact (and_iff_left (List.forall_mem_nil _)).symm
  | path name args selfType =>
    rcases ofStripped?_eq_path h with ⟨rest, rfl, hself, hl⟩ | ⟨rfl, _, hl⟩
    · obtain ⟨self, rfl⟩ := Option.ne_none_iff_exists'.1 hself
      exact wellNested_qualified_iff hl
    · exact wellNested_path_iff hl none
  | verbatim form text =>
    rw [ofStripped?_eq_verbatim h, unread, List.forall_mem_singleton]
    exact (and_iff_right (List.forall_mem_nil _)).symm

end Layer

/-! ### Readings -/

/-- The stretches of a text that a reading keeps or passes over, in its own layer or further in. -/
inductive Unread : Text → Text → Prop
  | outer {s u : Text} {layer : Layer} : Layer.peel? s = .ok layer →
    u ∈ layer.unread (Text.strip s) → Unread s u
  | inner {s t u : Text} {layer : Layer} : Layer.peel? s = .ok layer → t ∈ layer.parts →
    Unread t u → Unread s u

theorem forall_unread_iff {s : Text} {layer : Layer} (h : Layer.peel? s = .ok layer)
    {P : Text → Prop} : (∀ u, Unread s u → P u) ↔
      (∀ t ∈ layer.parts, ∀ u, Unread t u → P u) ∧ ∀ u ∈ layer.unread (Text.strip s), P u := by
  constructor
  · intro hall
    exact ⟨fun t ht u hu => hall u (.inner h ht hu), fun u hu => hall u (.outer h hu)⟩
  · rintro ⟨hinner, houter⟩ u hu
    cases hu with
    | outer hpeel hm =>
      cases h.symm.trans hpeel
      exact houter u hm
    | inner hpeel ht hu =>
      cases h.symm.trans hpeel
      exact hinner _ ht u hu

/-- Each text inside a layer that is read is read itself. -/
theorem Layer.exists_parseType_of_mem_parts {layer : Layer} {e : TypeExpr}
    (h : layer.read = .ok e) : ∀ t ∈ layer.parts, ∃ e', parseType t = .ok e' := by
  have hmem : ∀ {α : Type} {f : α → Except ParseError TypeExpr} {as : List α} {es : List TypeExpr},
      List.Forall₂ (fun a e => f a = .ok e) as es → ∀ a ∈ as, ∃ e, f a = .ok e := by
    intro α f as es hall
    exact forall_right_of_forall₂ hall.flip fun e a ha => ⟨e, ha⟩
  cases layer with
  | reference t isMutable lifetime =>
    obtain ⟨inner, hi, _⟩ := Layer.read_reference_eq_ok.1 h
    exact List.forall_mem_singleton.2 ⟨inner, hi⟩
  | group whole inner =>
    exact List.forall_mem_singleton.2 (Layer.read_group_eq_ok.1 h).1
  | tuple elements =>
    obtain ⟨es, hes, _⟩ := Layer.read_tuple_eq_ok.1 h
    exact hmem hes
  | path name args selfType =>
    obtain ⟨es, hes, _⟩ := Layer.read_path_eq_ok.1 h
    intro t ht
    obtain ⟨a, ha, hat⟩ := List.mem_filterMap.1 ht
    cases a with
    | binding text => cases hat
    | type text =>
      cases hat
      exact hmem hes _ ha
  | verbatim form text => exact List.forall_mem_nil _

theorem wellNested_iff_unread {s : Text} {e : TypeExpr} (h : parseType s = .ok e) :
    WellNested s ↔ ∀ u, Unread s u → WellNested u := by
  induction hn : s.length using Nat.strong_induction_on generalizing s e with
  | _ n ih =>
    obtain ⟨layer, hpeel, hread⟩ := parseType_eq_ok_iff.1 h
    rw [← wellNested_strip_iff, Layer.wellNested_iff hpeel, forall_unread_iff hpeel]
    refine and_congr_left' (forall₂_congr fun t ht => ?_)
    have hlt := Layer.length_lt_of_mem_parts hpeel t ht
    have hle := Text.length_strip_le s
    obtain ⟨e', he⟩ := Layer.exists_parseType_of_mem_parts hread t ht
    exact ih t.length (by omega) he rfl

/-- A text whose brackets do not nest is rejected, unless they fail to nest in a stretch that is not
read. -/
theorem wellNested_iff_of_parse {s : Text} {e : TypeExpr} (h : parse s = .ok e) :
    WellNested s ↔ ∀ u, Unread s u → WellNested u :=
  wellNested_iff_unread (parse_eq_ok_iff.1 h)

/-- A closer that no bracket opened is kept in the name of a path. -/
theorem wellNested_iff_of_parse_closer :
    let s := "Vec<T>>".toList
    parse s = .ok (.path s [] none) ∧ ¬ WellNested s ∧ ∃ u, Unread s u ∧ ¬ WellNested u := by
  intro s
  have hpeel : Layer.peel? s = .ok (.path s [] none) := by decide +kernel
  have hs : parse s = .ok (.path s [] none) :=
    parse_eq_ok_iff.2 (parseType_eq_ok_iff.2 ⟨_, hpeel, rfl⟩)
  have hn : ¬ WellNested s := by decide
  refine ⟨hs, hn, ?_⟩
  have hunread := mt (wellNested_iff_of_parse hs).2 hn
  push Not at hunread
  exact hunread

end TypeBridge
