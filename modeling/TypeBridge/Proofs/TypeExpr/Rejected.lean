import TypeBridge.Proofs.TypeExpr.Unread

/-!
Rejected texts. An error names the part of a text that was rejected, in which the same fault is
found. Main statement: that part stands in the text in one piece; only blank text is empty; and no
bracket of well-nested text is called unmatched, whatever part it is looked for in.
-/

namespace TypeBridge

/-! ### Unmatched brackets -/

/-- A bracket that opens well-nested text is closed. -/
theorem Bracket.enclosed?_ne_none {bracket : Bracket} {s : Text}
    (h : WellNested (bracket.opener :: s)) : bracket.enclosed? s ≠ none := by
  have hopen : openAfter? (some bracket.opener) ([] ++ bracket :: []) s = some [] := by
    rw [WellNested, openAfter?_eq_scan, scan_cons, markOf_opener] at h
    rw [openAfter?_eq_scan]
    exact h
  obtain ⟨inside, after, rfl, hinside, ha⟩ := exists_closer hopen
  rw [openAfter?_of_ne bracket.opener_ne_dash] at hinside
  rw [isArrowHead_lastOr bracket.opener_ne_dash] at ha
  rw [enclosed?_of_closesIn (WellNested.closesIn hinside bracket) ha]
  exact Option.some_ne_none _

namespace ParseError

variable {e : ParseError} {s t : Text}

/-- Whether an error can be reported of a text: the part that it rejects stands there in one piece,
and where it finds a bracket unmatched, the text does not nest properly. -/
structure FoundIn (e : ParseError) (s : Text) : Prop where
  isInfix : e.rejected <:+: s
  not_wellNested : ∀ bracket, e.fault = .unmatched bracket → ¬ WellNested s
  fault_ne : e.fault ≠ .emptyText

/-- An error in a part is one of the whole text, if the part nests wherever the text does. -/
theorem FoundIn.of_part (h : e.FoundIn t) (hi : t <:+: s) (hw : WellNested s → WellNested t) :
    e.FoundIn s where
  isInfix := h.isInfix.trans hi
  not_wellNested bracket hfault hs := h.not_wellNested bracket hfault (hw hs)
  fault_ne := h.fault_ne

theorem foundIn_of_isInfix {fault : Fault} (hi : t <:+: s)
    (hfault : ∀ bracket, fault ≠ .unmatched bracket) (hempty : fault ≠ .emptyText) :
    FoundIn ⟨t, fault⟩ s :=
  ⟨hi, fun bracket h => absurd h (hfault bracket), hempty⟩

theorem foundIn_unmatched {bracket : Bracket} {rest : Text} (h : bracket.enclosed? rest = none)
    (hw : WellNested s → WellNested (bracket.opener :: rest)) :
    FoundIn ⟨s, .unmatched bracket⟩ s where
  isInfix := List.infix_rfl
  not_wellNested _ _ hs := Bracket.enclosed?_ne_none (hw hs) h
  fault_ne := nofun

/-! ### The words of an error -/

/-- The words tell what was rejected only if that is no path. -/
theorem detail_of_ne (rejected : Text) {fault : Fault} (h : fault ≠ .notAPath) :
    detail ⟨rejected, fault⟩ = detail ⟨[], fault⟩ := by
  cases fault with
  | notAPath => exact absurd rfl h
  | _ => rfl

theorem detail_eq_empty_iff : e.detail = "Empty annotation".toList ↔ e.fault = .emptyText := by
  obtain ⟨rejected, fault⟩ := e
  constructor
  · intro h
    by_cases hpath : fault = .notAPath
    · subst hpath
      cases congrArg List.head? h
    · rw [detail_of_ne rejected hpath] at h
      cases fault with
      | emptyText => rfl
      | unmatched bracket => cases bracket <;> exact absurd h (by decide)
      | _ => exact absurd h (by decide)
  · rintro rfl
    rfl

theorem fault_of_detail_unmatched {bracket : Bracket}
    (h : e.detail = "Unmatched ".toList ++ [bracket.opener]) : e.fault = .unmatched bracket := by
  obtain ⟨rejected, fault⟩ := e
  by_cases hpath : fault = .notAPath
  · subst hpath
    cases congrArg List.head? h
  · rw [detail_of_ne rejected hpath] at h
    cases fault with
    | unmatched other =>
      have hopener : other.opener = bracket.opener :=
        List.singleton_injective (List.append_cancel_left h)
      cases other <;> cases bracket <;> first | rfl | exact absurd hopener (by decide)
    | _ => cases bracket <;> exact absurd h (by decide)

end ParseError

/-! ### One layer -/

namespace Layer

open ParseError

variable {s rest : Text} {e : ParseError}

theorem foundIn_of_ofReference? (h : ofReference? rest = .error e) : e.FoundIn ('&' :: rest) := by
  have hrest : Text.strip rest <:+: '&' :: rest :=
    (Text.strip_isInfix rest).trans (List.suffix_cons '&' rest).isInfix
  unfold ofReference? at h
  dsimp only at h
  split at h
  · cases h
  split at h
  · cases h
    exact foundIn_of_isInfix hrest nofun nofun
  split at h <;> cases h
  exact foundIn_of_isInfix hrest nofun nofun

theorem foundIn_of_ofSquare? (h : ofSquare? ('[' :: rest) rest = .error e) :
    e.FoundIn ('[' :: rest) := by
  unfold ofSquare? at h
  split at h
  · rename_i hopen
    cases h
    exact foundIn_unmatched hopen id
  · cases h

theorem foundIn_of_ofRound? (h : ofRound? ('(' :: rest) rest = .error e) :
    e.FoundIn ('(' :: rest) := by
  unfold ofRound? at h
  split at h
  · rename_i hopen
    cases h
    exact foundIn_unmatched hopen id
  split at h <;> cases h
  exact foundIn_of_isInfix List.infix_rfl nofun nofun

theorem normalizeName_eq_error {name : Text} (h : normalizeName name = .error e) :
    e = ⟨name, .notAPath⟩ := by
  rw [normalizeName_eq] at h
  split at h <;> cases h
  rfl

theorem foundIn_of_ofPath? (h : ofPath? s = .error e) : e.FoundIn s := by
  unfold ofPath? at h
  split at h
  · split at h
    · cases h
    cases hname : normalizeName s with
    | error e' =>
      rw [hname] at h
      cases h
      rw [normalizeName_eq_error hname]
      exact foundIn_of_isInfix List.infix_rfl nofun nofun
    | ok name =>
      rw [hname] at h
      cases h
  · rename_i before rest hcut
    obtain ⟨rfl, _⟩ := Text.cutAt?_eq_some '<' hcut
    split at h
    · rename_i e' hname
      cases h
      rw [normalizeName_eq_error hname]
      exact foundIn_of_isInfix (List.prefix_append before _).isInfix nofun nofun
    · rename_i name hname
      obtain ⟨n, hn, _⟩ := normalizeName_eq_ok_iff.1 hname
      split at h
      · rename_i hopen
        cases h
        have hbehind : ScansAlike (before ++ '<' :: rest) ('<' :: rest) :=
          .quiet_append hn.quiet hn.lastOr_ne _
        exact foundIn_unmatched hopen hbehind.wellNested_iff.1
      · split at h <;> cases h

/-- The text behind the separator of a qualified path stands there in one piece. -/
theorem isInfix_behind_separator {inside after tail : Text}
    (h : Text.strip after = ':' :: ':' :: tail) :
    Text.strip tail <:+: '<' :: (inside ++ '>' :: after) := by
  have htail : tail <:+: Text.strip after := by
    rw [h]
    exact (List.suffix_append [':', ':'] tail).isInfix
  have hafter : after <:+: '<' :: (inside ++ '>' :: after) :=
    ⟨'<' :: (inside ++ ['>']), [], by simp⟩
  exact (Text.strip_isInfix tail).trans (htail.trans ((Text.strip_isInfix after).trans hafter))

theorem foundIn_of_ofQualified? (h : ofQualified? ('<' :: rest) rest = .error e) :
    e.FoundIn ('<' :: rest) := by
  unfold ofQualified? at h
  split at h
  · rename_i hopen
    cases h
    exact foundIn_unmatched hopen id
  rename_i inside after henclosed
  split at h
  · cases h
    exact foundIn_of_isInfix List.infix_rfl nofun nofun
  rename_i tail hsep
  have hafter : Text.strip after = ':' :: ':' :: tail :=
    (List.append_eq_of_isPrefixOf?_eq_some hsep).symm
  split at h
  · rename_i e' hpath
    cases h
    obtain ⟨hc, ha⟩ := Bracket.closesIn_of_enclosed? henclosed
    rw [Bracket.enclosed?_eq_some henclosed]
    refine (foundIn_of_ofPath? hpath).of_part ?_ fun hw => ?_
    · exact isInfix_behind_separator hafter
    · have hbehind := ((Bracket.wellNested_enclosed_iff hc ha after).1 hw).2
      exact (scansAlike_behind_separator hafter).wellNested_iff.1 hbehind
  · cases h
  · cases h
    exact foundIn_of_isInfix List.infix_rfl nofun nofun

theorem foundIn_of_ofStripped? (h : ofStripped? s = .error e) : e.FoundIn s := by
  cases s with
  | nil =>
    cases h
    exact foundIn_of_isInfix List.infix_rfl nofun nofun
  | cons c rest =>
    simp only [ofStripped?] at h
    split at h
    · rename_i hc
      subst hc
      exact foundIn_of_ofReference? h
    split at h
    · cases h
    split at h
    · rename_i hc
      subst hc
      exact foundIn_of_ofSquare? h
    split at h
    · rename_i hc
      subst hc
      exact foundIn_of_ofRound? h
    split at h
    · rename_i hc
      subst hc
      exact foundIn_of_ofQualified? h
    unfold ofWord? at h
    repeat' split at h
    any_goals cases h
    exact foundIn_of_ofPath? h

theorem foundIn_of_peel? (h : peel? s = .error e) : e.FoundIn s :=
  (foundIn_of_ofStripped? h).of_part (Text.strip_isInfix s) wellNested_strip_iff.2

/-! ### The parts of a layer -/

theorem isInfix_of_ofRound? {layer : Layer} (h : ofRound? ('(' :: rest) rest = .ok layer) :
    ∀ t ∈ layer.parts, t <:+: '(' :: rest := by
  obtain ⟨inside, rfl, _, rfl⟩ := ofRound?_eq_ok_iff.1 h
  have hinside : inside <:+: '(' :: (inside ++ [')']) := List.infix_append ['('] inside [')']
  intro t ht
  rw [parts_ofContent] at ht
  have hpiece := isInfix_of_mem_splitPieces (List.mem_filter.1 ht).1
  exact hpiece.trans ((Text.strip_isInfix inside).trans hinside)

theorem isInfix_of_ofReference? {t : Text} {isMutable : Bool} {lifetime : Option Text}
    (h : ofReference? rest = .ok (reference t isMutable lifetime)) : t <:+: '&' :: rest := by
  obtain ⟨t', isMutable', lifetime', hl, _, hcases⟩ := ofReference?_eq_ok h
  cases hl
  have ht : t <:+: Text.strip rest := by
    rcases hcases with ⟨_, hs, _⟩ | ⟨name, blanks, _, _, _, hs⟩
    · rw [hs]
      exact (List.suffix_append _ t).isInfix
    · rw [hs]
      exact ⟨'\'' :: (name ++ (blanks ++ mutMark isMutable)), [], by simp⟩
  exact ht.trans ((Text.strip_isInfix rest).trans (List.suffix_cons '&' rest).isInfix)

theorem isInfix_of_ofPath? {name : Text} {args : List Argument} {selfType : Option Text}
    (h : ofPath? s = .ok (path name args selfType)) (selfType' : Option Text) :
    ∀ t ∈ (path name args selfType').parts, t <:+: s := by
  rcases ofPath?_eq_ok h with ⟨_, hl⟩ | ⟨n, _, hl⟩ | ⟨n, start, inside, after, rfl, _, _, _, hl⟩
  · cases hl
  · cases hl
    exact nofun
  · unfold ofArguments at hl
    split at hl <;> cases hl
    · intro t ht
      obtain ⟨piece, hp, _, rfl⟩ := mem_parts_path_iff.1 ht
      have hinside : inside <:+: start ++ '<' :: (inside ++ '>' :: after) :=
        ⟨start ++ ['<'], '>' :: after, by simp⟩
      exact (Text.strip_isInfix piece).trans ((isInfix_of_mem_splitPieces hp).trans hinside)
    · exact nofun

theorem isInfix_of_mem_parts {layer : Layer} (h : peel? s = .ok layer) :
    ∀ t ∈ layer.parts, t <:+: s := by
  have hstrip : ∀ t ∈ layer.parts, t <:+: Text.strip s := by
    have hround : ∀ {rest : Text}, Text.strip s = '(' :: rest →
        ∀ t ∈ layer.parts, t <:+: Text.strip s := by
      intro rest hs
      rw [peel?, hs] at h
      rw [hs]
      exact isInfix_of_ofRound? h
    cases layer with
    | reference t isMutable lifetime =>
      obtain ⟨rest, hs, hrest⟩ := ofStripped?_eq_reference h
      rw [hs]
      exact List.forall_mem_singleton.2 (isInfix_of_ofReference? hrest)
    | group whole inner =>
      obtain ⟨_, hs⟩ := exists_parenthesized_of_group h
      exact hround hs
    | tuple elements =>
      obtain ⟨_, hs, _⟩ := ofStripped?_eq_tuple h
      exact hround hs
    | path name args selfType =>
      rcases ofStripped?_eq_path h with ⟨rest, hs, _, hl⟩ | ⟨_, _, hl⟩
      · obtain ⟨inside, after, tail, _, _, _, rfl, _, _, hafter, hpath, hl⟩ :=
          ofQualified?_eq_ok hl
        cases hl
        rw [hs]
        intro t ht
        exact (isInfix_of_ofPath? hpath _ t ht).trans (isInfix_behind_separator hafter)
      · exact isInfix_of_ofPath? hl selfType
    | verbatim form text => exact List.forall_mem_nil _
  exact fun t ht => (hstrip t ht).trans (Text.strip_isInfix s)

/-- The parts of well-nested text nest properly. -/
theorem wellNested_of_mem_parts {layer : Layer} (h : peel? s = .ok layer) (hs : WellNested s) :
    ∀ t ∈ layer.parts, WellNested t :=
  ((wellNested_iff h).1 (wellNested_strip_iff.2 hs)).1

end Layer

/-! ### Readings -/

theorem eq_error_of_bind_pure {ε α β : Type} {x : Except ε α} {f : α → β} {e : ε}
    (h : (x >>= fun a => pure (f a)) = .error e) : x = .error e := by
  cases x with
  | error e' =>
    cases h
    rfl
  | ok a => cases h

theorem exists_mem_of_mapM_eq_error {ε α β : Type} {f : α → Except ε β} {e : ε} :
    ∀ {as : List α}, as.mapM f = .error e → ∃ a ∈ as, f a = .error e
  | [], h => by cases h
  | a :: as, h => by
    rw [List.mapM_cons] at h
    cases ha : f a with
    | error e' =>
      rw [ha] at h
      cases h
      exact ⟨a, List.mem_cons_self, ha⟩
    | ok b =>
      rw [ha] at h
      obtain ⟨a', hmem, ha'⟩ := exists_mem_of_mapM_eq_error (eq_error_of_bind_pure h)
      exact ⟨a', List.mem_cons_of_mem a hmem, ha'⟩

/-- A layer is not read just because one of its parts is not. -/
theorem Layer.exists_part_of_read_eq_error {layer : Layer} {e : ParseError}
    (h : layer.read = .error e) : ∃ t ∈ layer.parts, parseType t = .error e := by
  cases layer with
  | reference t isMutable lifetime =>
    rw [read] at h
    exact ⟨t, List.mem_singleton.2 rfl, eq_error_of_bind_pure h⟩
  | group whole inner =>
    rw [read] at h
    exact ⟨inner, List.mem_singleton.2 rfl, eq_error_of_bind_pure h⟩
  | tuple elements =>
    rw [read] at h
    exact exists_mem_of_mapM_eq_error (eq_error_of_bind_pure h)
  | path name args selfType =>
    rw [read] at h
    obtain ⟨a, ha, hread⟩ := exists_mem_of_mapM_eq_error (eq_error_of_bind_pure h)
    cases a with
    | binding text => cases hread
    | type text => exact ⟨text, List.mem_filterMap.2 ⟨_, ha, rfl⟩, hread⟩
  | verbatim form text => cases h

/-- The error of a text is that of its outermost layer, or of a text inside it. -/
theorem foundIn_of_parseType {s : Text} {e : ParseError} (h : parseType s = .error e) :
    e.FoundIn s := by
  induction hn : s.length using Nat.strong_induction_on generalizing s with
  | _ n ih =>
    cases hpeel : Layer.peel? s with
    | error e' =>
      rw [parseType_eq, hpeel] at h
      cases h
      exact Layer.foundIn_of_peel? hpeel
    | ok layer =>
      rw [parseType_eq, hpeel] at h
      obtain ⟨t, ht, hread⟩ := Layer.exists_part_of_read_eq_error h
      have hlt := Layer.length_lt_of_mem_parts hpeel t ht
      have hle := Text.length_strip_le s
      have hfound := ih t.length (by omega) hread rfl
      exact hfound.of_part (Layer.isInfix_of_mem_parts hpeel t ht) fun hs =>
        Layer.wellNested_of_mem_parts hpeel hs t ht

/-- Just blank text is called empty; any other error names a part of the text, and calls no bracket
unmatched if the text nests properly. -/
theorem parse_rejected (s : Text) :
    ((∃ e, parse s = .error e ∧ e.detail = "Empty annotation".toList) ↔ Text.Blank s) ∧
      ∀ e, parse s = .error e → e.rejected <:+: s ∧ ∀ bracket : Bracket,
        e.detail = "Unmatched ".toList ++ [bracket.opener] → ¬ WellNested s := by
  unfold parse
  cases hblank : (Text.strip s).isEmpty with
  | true =>
    have hs : Text.Blank s := Text.strip_eq_nil_iff.1 (List.isEmpty_iff.1 hblank)
    rw [if_pos rfl]
    refine ⟨iff_of_true ⟨_, rfl, rfl⟩ hs, fun e he => ?_⟩
    cases he
    refine ⟨List.nil_infix, fun bracket hdetail => ?_⟩
    cases ParseError.fault_of_detail_unmatched hdetail
  | false =>
    have hs : ¬ Text.Blank s := fun hb => by
      rw [Text.strip_eq_nil_iff.2 hb] at hblank
      cases hblank
    rw [if_neg Bool.false_ne_true]
    refine ⟨iff_of_false ?_ hs, fun e he => ?_⟩
    · rintro ⟨e, he, hdetail⟩
      exact (foundIn_of_parseType he).fault_ne (ParseError.detail_eq_empty_iff.1 hdetail)
    · have hfound := foundIn_of_parseType he
      exact ⟨hfound.isInfix, fun bracket hdetail =>
        hfound.not_wellNested bracket (ParseError.fault_of_detail_unmatched hdetail)⟩

/-- The bracket that is not closed stands inside an argument, in parentheses of its own. -/
theorem parse_rejected_argument :
    let s := " Vec<( [u8; 4 )>".toList
    let e : ParseError := ⟨"[u8; 4".toList, .unmatched .square⟩
    parse s = .error e ∧ e.rejected <:+: s ∧ ¬ WellNested s := by
  intro s e
  have hpath : Layer.peel? s
      = .ok (.path "Vec".toList [.type "( [u8; 4 )".toList] none) := by decide +kernel
  have hgroup : Layer.peel? "( [u8; 4 )".toList
      = .ok (.group "( [u8; 4 )".toList "[u8; 4".toList) := by decide +kernel
  have hsquare : Layer.peel? "[u8; 4".toList = .error e := by decide +kernel
  have harg : parseType "( [u8; 4 )".toList = .error e := by
    rw [parseType_eq, hgroup, Except.bind, Layer.read, parseType_eq, hsquare]
    rfl
  have hs : parse s = .error e := by
    rw [parse, if_neg (by decide), parseType_eq, hpath, Except.bind, Layer.read, List.mapM_cons,
      Argument.read, harg]
    rfl
  obtain ⟨hrejected, hbracket⟩ := (parse_rejected s).2 e hs
  exact ⟨hs, hrejected, hbracket .square rfl⟩

end TypeBridge
