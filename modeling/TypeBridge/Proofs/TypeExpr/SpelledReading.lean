import TypeBridge.Proofs.TypeExpr.Read
import TypeBridge.Proofs.TypeExpr.SpelledList

/-!
Reading spelled expressions. Main statement: whatever blanks, lifetimes and final commas a spelling
of an expression has, the expression is read from it; and the printed form is one of the spellings.
-/

namespace TypeBridge

/-! ### Paths -/

theorem exists_pieces_of_segments : ∀ {rest : List Text} {first s : Text},
    LaidOut (first :: rest.flatMap fun segment => [[':', ':'], segment]) s →
      (∀ segment ∈ first :: rest, Text.Trimmed segment) →
        ∃ pieces, s = [':', ':'].intercalate pieces ∧ pieces.map Text.strip = first :: rest
  | [], _, s, h, ht => by
    refine ⟨[s], List.intercalate_singleton.symm, ?_⟩
    rw [List.map_singleton, h.strip_singleton (ht _ List.mem_cons_self)]
  | segment :: rest, first, _, h, ht => by
    obtain ⟨hfirst, hrest⟩ := List.forall_mem_cons.1 ht
    have hsplit : LaidOut ([first] ++ [':', ':'] ::
        (segment :: rest.flatMap fun segment => [[':', ':'], segment])) _ := h
    obtain ⟨a, b, rfl, ha, hb⟩ := hsplit.exists_append_cons
    obtain ⟨pieces, rfl, hp⟩ := exists_pieces_of_segments hb hrest
    refine ⟨a :: pieces, ?_, ?_⟩
    · rw [Text.intercalate_cons, if_neg]
      rintro rfl
      cases hp
    · rw [List.map_cons, ha.strip_singleton hfirst, hp]

/-- A text that lays out the tokens of a path spells it. -/
theorem PathName.spelledBy_of_laidOut {n : PathName} {s : Text} (h : LaidOut n.tokens s) :
    n.SpelledBy s := by
  have ht : ∀ segment ∈ n.first :: n.rest, Text.Trimmed segment := fun segment hm =>
    (isToken_ident (n.isIdent_of_mem segment hm)).1.trimmed
  unfold tokens at h
  unfold SpelledBy segments
  cases hroot : n.isRooted with
  | false =>
    rw [hroot] at h
    exact exists_pieces_of_segments h ht
  | true =>
    rw [hroot] at h
    have hsplit : LaidOut ([] ++ [':', ':'] ::
        (n.first :: n.rest.flatMap fun segment => [[':', ':'], segment])) s := h
    obtain ⟨a, b, rfl, ha, hb⟩ := hsplit.exists_append_cons
    obtain ⟨pieces, rfl, hp⟩ := exists_pieces_of_segments hb ht
    refine ⟨a :: pieces, ?_, ?_⟩
    · rw [Text.intercalate_cons, if_neg]
      rintro rfl
      cases hp
    · rw [List.map_cons, Text.strip_eq_nil_iff.2 ha, hp]
      rfl

namespace Layer

theorem words_of_not_keyword {s : Text} (h : s.takeWhile Text.isWord ∉ keywords) :
    isFunction s = false ∧ "dyn ".toList.isPrefixOf s = false ∧
      "impl ".toList.isPrefixOf s = false := by
  have hstart : ∀ word : Text, (∀ c ∈ word, Text.isWord c = true) → word ∈ keywords →
      (word ++ [' ']).isPrefixOf s = false := by
    intro word hw hm
    rw [← Bool.not_eq_true]
    intro hs
    rw [takeWhile_of_isPrefixOf hw hs] at h
    exact h hm
  refine ⟨?_, hstart "dyn".toList (by decide) (by decide),
    hstart "impl".toList (by decide) (by decide)⟩
  rw [isFunction_eq_false_iff]
  intro hm
  have hwords : ∀ word ∈ ["unsafe".toList, "extern".toList, "fn".toList], word ∈ keywords := by
    decide
  exact h (hwords _ hm)

/-- A path whose first segment is no keyword is read as a path. -/
theorem ofStripped?_of_free {n : PathName} {name tail : Text} (hn : n.SpelledBy name)
    (hfree : n.Free) (hname : ∀ c ∈ name.head?, Text.isBlank c = false)
    (ht : EndsName tail)
    (hkeyword : (name ++ tail).takeWhile Text.isWord ∉ keywords) :
    ofStripped? (name ++ tail) = ofPath? (name ++ tail) := by
  obtain ⟨hfun, hdyn, himpl⟩ := words_of_not_keyword hkeyword
  refine ofStripped?_eq_ofPath? hn hname ht ⟨?_, hfun, hdyn, himpl⟩
  intro hs
  rcases ht with rfl | ⟨rest, rfl⟩
  · rw [List.append_nil] at hs
    have hok := normalizeName_eq_ok_iff.2 ⟨n, hn, rfl⟩
    rw [hs] at hok
    exact hfree.1 (Except.ok.inj hok).symm
  · have hm : '<' ∈ name ++ '<' :: rest := by simp
    rw [hs] at hm
    exact absurd hm (by decide)

/-! ### Literals -/

theorem isIntegerLiteral_of_literal {s : Text} (h : IntegerLiteral s) :
    Text.isIntegerLiteral s = true := by
  obtain ⟨sign, digit, digits, suffix, rfl, hsign, hdigit, hdigits, hsuffix⟩ := h
  have hchars : ∀ c ∈ digits, (c.isDigit || c == '_') = true := by
    intro c hc
    rcases hdigits c hc with hd | rfl
    · rw [hd, Bool.true_or]
    · rfl
  have hend : ∀ c, suffix.head? = some c → (c.isDigit || c == '_') = false := by
    have hkinds : ∀ kind ∈ ['i', 'u'], (kind.isDigit || kind == '_') = false := by decide
    rcases hsuffix with rfl | ⟨kind, hk, size, hz, rfl⟩
    · exact nofun
    · intro c hc
      rw [← Option.some.inj hc]
      exact hkinds kind hk
  have hmem : (suffix.isEmpty || Text.suffixes.contains suffix) = true := by
    rcases hsuffix with rfl | ⟨kind, hk, size, hz, rfl⟩
    · rfl
    · have hs : kind :: size.toList ∈ Text.suffixes := by
        refine List.mem_flatMap.2 ⟨size, hz, ?_⟩
        simpa using hk
      rw [List.contains_iff_mem.2 hs, Bool.or_true]
  have hunsigned : Text.isUnsignedLiteral (digit :: (digits ++ suffix)) = true := by
    have hdrop := Text.dropWhile_append_of_head hchars hend
    simp only [Text.isUnsignedLiteral, hdrop, hdigit, hmem, Bool.and_self]
  rcases hsign with rfl | rfl
  · have hminus : '-' ≠ digit := by
      rintro rfl
      exact absurd hdigit (by decide)
    rw [List.nil_append, Text.isIntegerLiteral, Text.isPrefixOf?_cons_of_ne hminus]
    exact hunsigned
  · exact hunsigned

/-- An integer literal is kept as it is. -/
theorem ofStripped?_of_literal {s : Text} (h : IntegerLiteral s) :
    ofStripped? s = .ok (verbatim .const s) := by
  obtain ⟨ht, hq⟩ := h.isToken
  have hlaid : LaidOut [s] s := by
    refine ⟨[], [], Text.blank_nil, by simp, Text.blank_nil, fun _ hn => ?_⟩
    obtain ⟨next, hm, _⟩ := hn
    cases hm
  have hkeyword := (hlaid.leads ht.trimmed.1 (List.forall_mem_singleton.2 ht) h.leadsType).2
  obtain ⟨hfun, hdyn, himpl⟩ := words_of_not_keyword hkeyword
  have hlit := isIntegerLiteral_of_literal h
  have hcut : Text.cutAt? '<' s = none := by
    rw [Text.cutAt?_eq_none_iff]
    exact fun hm => hq '<' hm (by decide)
  obtain ⟨c, rest, rfl, hc⟩ : ∃ c rest, s = c :: rest ∧ (c = '-' ∨ c.isDigit = true) := by
    obtain ⟨sign, digit, body, rfl, hsign, hdigit, _⟩ := h.exists_body
    rcases hsign with rfl | rfl
    · exact ⟨digit, body, rfl, .inr hdigit⟩
    · exact ⟨'-', digit :: body, rfl, .inl rfl⟩
  have hne : ∀ d, (d = '-' ∨ d.isDigit = true → False) → c ≠ d := by
    rintro d hd rfl
    exact hd hc
  have hclosure : isClosure (c :: rest) = false := by
    have hhead : ∀ word ∈ ["Fn", "FnMut", "FnOnce"], word.toList.head? = some 'F' := by decide
    rw [isClosure, List.any_eq_false]
    intro word hm
    obtain ⟨t, ht⟩ := List.head?_eq_some_iff.1 (hhead word hm)
    have hnone : word.toList.isPrefixOf? (c :: rest) = none := by
      rw [ht]
      exact Text.isPrefixOf?_cons_of_ne (hne 'F' (by decide)).symm t rest
    simp [hnone]
  rw [ofStripped?, if_neg (hne _ (by decide)), if_neg (hne _ (by decide)),
    if_neg (hne _ (by decide)), if_neg (hne _ (by decide)), if_neg (hne _ (by decide)), ofWord?,
    if_neg fun e => hne '!' (by decide) (List.cons.inj e).1,
    if_neg fun e => hne '_' (by decide) (List.cons.inj e).1, hfun, hdyn, himpl, hclosure]
  simp only [ofPath?, hcut, hlit]
  rfl

end Layer

/-! ### Generic arguments -/

/-- What is known of a spelling once its expression is known to be read from every text that lays it
out. -/
structure ReadsAs (e : TypeExpr) (tokens : List Text) : Prop where
  nests : Nests tokens
  leads : ∃ first rest, tokens = first :: rest ∧ LeadsType first
  parseType_eq : ∀ s, LaidOut tokens s → parseType s = .ok e

/-- The arguments in a list are those that its types spell, in order. -/
theorem forall₂_read_arguments : ∀ {items : List GenericItem} {pieces : List Text},
    List.Forall₂ LaidOut (items.map GenericItem.tokens) pieces →
      (∀ e tokens, GenericItem.type e tokens ∈ items → ReadsAs e tokens) →
      (∀ name, GenericItem.lifetime name ∈ items → Text.isIdent name = true) →
        List.Forall₂ (fun a e => Argument.read a = .ok e) (pieces.filterMap Layer.argument?)
          (items.filterMap GenericItem.expr?)
  | [], _, h, _, _ => by
    cases h
    exact .nil
  | item :: items, _, h, htypes, hlifetimes => by
    rw [List.map_cons] at h
    cases h with
    | cons hpiece hrest =>
      rename_i piece pieces
      have ih := forall₂_read_arguments hrest
        (fun e tokens hm => htypes e tokens (List.mem_cons_of_mem _ hm))
        (fun name hm => hlifetimes name (List.mem_cons_of_mem _ hm))
      cases item with
      | lifetime name =>
        have hnone := argument?_of_lifetime hpiece (hlifetimes name List.mem_cons_self)
        rw [List.filterMap_cons_none hnone, List.filterMap_cons_none rfl]
        exact ih
      | type e tokens =>
        have hreads := htypes e tokens List.mem_cons_self
        obtain ⟨first, rest, hfirst, hleads⟩ := hreads.leads
        have hsome := argument?_of_type hpiece hreads.nests hfirst hleads
        have hexpr : GenericItem.expr? (.type e tokens) = some e := rfl
        rw [List.filterMap_cons_some hsome, List.filterMap_cons_some hexpr]
        refine .cons ?_ ih
        rw [Argument.read, parseType_congr (Text.strip_strip piece)]
        exact hreads.parseType_eq piece hpiece

/-! ### Layers of laid out texts -/

/-- The text of a list in brackets closes within them, and does not end like an arrow. -/
theorem closesIn_of_laidOut {items : List (List Text)} {comma : Bool} {s : Text}
    (h : LaidOut (listTokens items comma) s) (hitems : ∀ tokens ∈ items, Nests tokens)
    (bracket : Bracket) :
    bracket.ClosesIn s ∧ isArrowHead (lastOr none s) bracket.closer = false := by
  have htokens := isToken_listTokens comma hitems
  have hne : (none : Option Char) ≠ some '-' := by decide
  have hcomma : scan stackStep none [] [','] = some [] := rfl
  have hscan : scan stackStep none [] s = scanTokens stackStep [] (listTokens items comma) :=
    h.scan_eq passes_stackStep htokens hne
  rw [scanTokens_listTokens hcomma comma fun tokens hm => (hitems tokens hm).stack []] at hscan
  have hnested : WellNested s := (openAfter?_eq_scan none [] s).trans hscan
  refine ⟨hnested.closesIn bracket, ?_⟩
  have hlast := h.lastOr_ne htokens hne
  rw [isArrowHead, beq_eq_false_iff_ne.2 hlast, Bool.and_false]

theorem peel?_of_name {n : PathName} {s : Text} (h : LaidOut n.tokens s) (hfree : n.Free) :
    Layer.peel? s = .ok (.path n.text [] none) := by
  have htokens := fun t ht => (isToken_of_mem_tokens (n := n) t ht).1
  obtain ⟨first, rest, hfirst, hleads⟩ := PathName.exists_tokens_eq_cons hfree
  rw [hfirst] at h htokens
  have hlaid := h.strip htokens
  have htrim := (Text.trimmed_strip s).1
  have hkeyword := (hlaid.leads htrim htokens hleads).2
  rw [← hfirst] at hlaid
  have hspelled := PathName.spelledBy_of_laidOut hlaid
  have hpath := Layer.ofStripped?_of_free hspelled hfree htrim (.inl rfl)
    (by rwa [List.append_nil])
  rw [List.append_nil] at hpath
  rw [Layer.peel?, hpath, Layer.ofPath?_of_name hspelled htrim]

theorem peel?_of_arguments {n : PathName} {items : List (List Text)} {comma : Bool} {s : Text}
    (h : LaidOut (n.tokens ++ ['<'] :: (listTokens items comma ++ [['>']])) s) (hfree : n.Free)
    (hcomma : items = [] → comma = false) (hitems : ∀ tokens ∈ items, Nests tokens) :
    ∃ pieces, List.Forall₂ LaidOut items pieces ∧
      Layer.peel? s = .ok (.path n.text (pieces.filterMap Layer.argument?) none) := by
  have hnests := (Nests.of_forall (isToken_of_mem_tokens (n := n))).append
    (nests_brackets .angle comma hitems)
  have hlaid := h.strip hnests.isToken
  have htrim := (Text.trimmed_strip s).1
  obtain ⟨first, rest, hfirst, hleads⟩ := PathName.exists_tokens_eq_cons hfree
  have hkeyword : (Text.strip s).takeWhile Text.isWord ∉ keywords := by
    have htokens := hnests.isToken
    rw [hfirst] at hlaid htokens
    exact (hlaid.leads htrim htokens hleads).2
  obtain ⟨name, b, hs, hname, hb⟩ := hlaid.exists_append_cons
  obtain ⟨inside, after, rfl, hinside, hafter⟩ := hb.exists_append_cons
  obtain ⟨hc, ha⟩ := closesIn_of_laidOut hinside hitems .angle
  obtain ⟨pieces, ends, hsplit, hpieces, hends⟩ := exists_splitPieces hinside hcomma hitems
  refine ⟨pieces, hpieces, ?_⟩
  have hspelled := PathName.spelledBy_of_laidOut hname
  have hs' : Text.strip s = name ++ '<' :: (inside ++ '>' :: after) := hs
  rw [hs'] at hkeyword htrim
  have hnamehead : ∀ c ∈ name.head?, Text.isBlank c = false := by
    intro c hc
    refine htrim c ?_
    rw [List.head?_append, Option.mem_def.1 hc]
    rfl
  have hargs : (splitPieces inside).filterMap Layer.argument?
      = pieces.filterMap Layer.argument? := by
    have hnone : ends.filterMap Layer.argument? = [] :=
      List.filterMap_eq_nil_iff.2 fun t ht => argument?_of_blank (hends t ht)
    rw [hsplit, filterMap_dropEmptyEnd rfl, List.filterMap_append, hnone, List.append_nil]
  rw [Layer.peel?, hs', Layer.ofStripped?_of_free hspelled hfree hnamehead (.inr ⟨_, rfl⟩) hkeyword,
    Layer.ofPath?_of_arguments hspelled hc ha after, Layer.ofArguments,
    if_pos (Text.isBlankText_iff.2 hafter), hargs]

theorem peel?_of_tuple {items : List (List Text)} {comma : Bool} {s : Text}
    (h : LaidOut (['('] :: (listTokens items comma ++ [[')']])) s)
    (hempty : items = [] → comma = false) (hone : items.length = 1 → comma = true)
    (hitems : ∀ tokens ∈ items, Nests tokens ∧ tokens ≠ []) :
    ∃ pieces, List.Forall₂ LaidOut items pieces ∧ Layer.peel? s = .ok (.tuple pieces) := by
  have hnests := nests_brackets .round comma fun tokens hm => (hitems tokens hm).1
  have hlist := isToken_listTokens comma fun tokens hm => (hitems tokens hm).1
  have htrim := Text.trimmed_strip s
  have hlaid : LaidOut ((['('] :: listTokens items comma) ++ [[')']]) (Text.strip s) :=
    h.strip hnests.isToken
  obtain ⟨a, hs, ha⟩ := hlaid.exists_concat htrim.2
  obtain ⟨gap, inside, hg, rfl, hinside, _⟩ := ha
  have hgap : gap = [] := by
    cases gap with
    | nil => rfl
    | cons c gap =>
      have hc := htrim.1 c (by rw [hs]; rfl)
      rw [(Text.blank_cons_iff.1 hg).1] at hc
      exact absurd hc (by decide)
  rw [hgap, List.nil_append, List.append_assoc, List.singleton_append] at hs
  obtain ⟨hc, _⟩ := closesIn_of_laidOut hinside (fun tokens hm => (hitems tokens hm).1) .round
  have hcontent := hinside.strip hlist
  obtain ⟨pieces, ends, hsplit, hpieces, hends⟩ :=
    exists_splitPieces hcontent hempty fun tokens hm => (hitems tokens hm).1
  have hfilter : (splitPieces (Text.strip inside)).filter (fun piece => !Text.isBlankText piece)
      = pieces := by
    have hfull : ∀ piece ∈ pieces, (!Text.isBlankText piece) = true := by
      refine forall_mem_of_forall₂ hpieces hitems fun tokens piece ht hp => ?_
      obtain ⟨first, rest, rfl⟩ := List.exists_cons_of_ne_nil ht.2
      have hblank := hp.not_blank (ht.1.isToken first List.mem_cons_self)
      rw [Text.isBlankText_eq_false_iff.2 hblank]
      rfl
    have hblank : ends.filter (fun piece => !Text.isBlankText piece) = [] := by
      refine List.filter_eq_nil_iff.2 fun piece hp => ?_
      rw [Text.isBlankText_iff.2 (hends piece hp)]
      decide
    rw [hsplit, filter_dropEmptyEnd rfl, List.filter_append, List.filter_eq_self.2 hfull, hblank,
      List.append_nil]
  refine ⟨pieces, hpieces, ?_⟩
  rw [Layer.peel?, hs]
  show Layer.ofRound? _ _ = _
  rw [Layer.ofRound?_eq_ok_iff]
  refine ⟨inside, rfl, hc, ?_⟩
  rw [Layer.ofContent, hfilter]
  split
  · rename_i inner
    have hlength := hpieces.length_eq
    rw [List.length_singleton] at hlength
    have hcomma : [','].isSuffixOf (Text.strip inside) = true := by
      rw [hone hlength] at hcontent
      obtain ⟨b, hb, _⟩ := hcontent.exists_concat (Text.trimmed_strip inside).2
      rw [hb]
      exact List.isSuffixOf_iff_suffix.2 (List.suffix_append b [','])
    rw [if_pos hcomma]
  · rfl

theorem exists_ofReferent {isMutable : Bool} {tokens : List Text} {first u : Text}
    {rest : List Text} (lifetime : Option Text) (h : LaidOut (mutTokens isMutable ++ tokens) u)
    (hu : ∀ c ∈ u.head?, Text.isBlank c = false) (hn : Nests tokens)
    (hfirst : tokens = first :: rest) (hleads : LeadsType first) :
    u.head? ≠ some '\'' ∧ ∃ t, Layer.ofReferent lifetime u = .reference t isMutable lifetime ∧
      LaidOut tokens t := by
  cases isMutable with
  | false =>
    have hlaid : LaidOut tokens u := h
    subst hfirst
    obtain ⟨hquote, hkeyword⟩ := hlaid.leads hu hn.isToken hleads
    have hmut : u.takeWhile Text.isWord ≠ "mut".toList := by
      intro hw
      rw [hw] at hkeyword
      exact hkeyword (by decide)
    exact ⟨hquote, u, Layer.ofReferent_of_ne lifetime hmut, hlaid⟩
  | true =>
    have hlaid : LaidOut ("mut".toList :: tokens) u := h
    obtain ⟨t, rfl, ht, hword⟩ := hlaid.head_of_isWordToken hu hn.isToken
    have hend : ∀ c, t.head? = some c → Text.isWord c = false := fun c hc =>
      (hword (by decide) c hc).1
    refine ⟨?_, t, Layer.ofReferent_mut lifetime hend, ht⟩
    rw [List.head?_append_of_ne_nil _ (by decide)]
    decide

theorem peel?_of_reference {isMutable : Bool} {lifetime : Option Text} {tokens : List Text}
    {first s : Text} {rest : List Text}
    (h : LaidOut (['&'] :: (lifetimeTokens lifetime ++ (mutTokens isMutable ++ tokens))) s)
    (hlifetime : ∀ name ∈ lifetime, Text.isIdent name = true) (hn : Nests tokens)
    (hfirst : tokens = first :: rest) (hleads : LeadsType first) :
    ∃ t, Layer.peel? s = .ok (.reference t isMutable lifetime) ∧ LaidOut tokens t := by
  have hmarks := (nests_mutTokens isMutable).append hn
  have hall := (nests_lifetimeTokens hlifetime).append hmarks
  have hand : Nests [['&']] := Nests.of_quiet (isToken_mark (by decide)) (by decide)
  have hlaid := h.strip (hand.cons hall).isToken
  obtain ⟨r, hs, hr, _⟩ := hlaid.head_of_isWordToken (Text.trimmed_strip s).1 hall.isToken
  have hinner := hr.strip hall.isToken
  have htrim := (Text.trimmed_strip r).1
  rw [Layer.peel?, hs]
  show ∃ t, Layer.ofReference? r = _ ∧ _
  cases lifetime with
  | none =>
    obtain ⟨hquote, t, ht, hlaid⟩ := exists_ofReferent none hinner htrim hn hfirst hleads
    exact ⟨t, by rw [Layer.ofReference?_of_ne rfl hquote, ht], hlaid⟩
  | some name =>
    have hident := hlifetime name rfl
    have hname : LaidOut (('\'' :: name) :: (mutTokens isMutable ++ tokens)) (Text.strip r) :=
      hinner
    obtain ⟨after, hr', hafter, hword⟩ := hname.head_of_isWordToken htrim hmarks.isToken
    have hend : ∀ c, after.head? = some c → Text.isIdentChar c = false := by
      intro c hc
      rw [← Bool.not_eq_true]
      intro hchar
      have hw := (hword rfl c hc).1
      rw [Text.isWord_of_isIdentChar hchar] at hw
      exact absurd hw (by decide)
    obtain ⟨mark, marks, hmark⟩ : ∃ mark marks, mutTokens isMutable ++ tokens = mark :: marks := by
      rw [hfirst]
      cases isMutable with
      | false => exact ⟨first, rest, rfl⟩
      | true => exact ⟨"mut".toList, first :: rest, rfl⟩
    rw [hmark] at hafter hmarks
    obtain ⟨hstart, hne⟩ := hafter.stripStart (hmarks.isToken mark List.mem_cons_self)
    rw [← hmark] at hstart
    obtain ⟨_, t, ht, hlaid⟩ :=
      exists_ofReferent (some name) hstart (Text.head?_stripStart after) hn hfirst hleads
    exact ⟨t, by rw [Layer.ofReference?_of_lifetime hr' hident hend hne, ht], hlaid⟩

/-! ### Expressions -/

/-- An expression is read from every text that lays out one of its spellings. -/
theorem Spells.readsAs {e : TypeExpr} {tokens : List Text} (h : Spells e tokens) (he : Plain e) :
    ReadsAs e tokens := by
  obtain ⟨hnests, hleads⟩ := h.nests he
  refine ⟨hnests, hleads, ?_⟩
  clear hnests hleads
  induction h with
  | name n =>
    intro s hs
    obtain ⟨n', hn, hfree, _⟩ := he.path_inv
    rw [← PathName.text_injective hn] at hfree
    exact parseType_eq_ok_iff.2 ⟨_, peel?_of_name hs hfree, Layer.read_path_eq_ok.2 ⟨[], .nil, rfl⟩⟩
  | path n items comma hcomma htypes hlifetimes ih =>
    intro s hs
    obtain ⟨n', hn, hfree, hargs⟩ := he.path_inv
    rw [← PathName.text_injective hn] at hfree
    have hreads : ∀ e tokens, GenericItem.type e tokens ∈ items → ReadsAs e tokens := by
      intro e tokens hm
      have he := hargs e (List.mem_filterMap.2 ⟨_, hm, rfl⟩)
      obtain ⟨hn, hl⟩ := (htypes e tokens hm).nests he
      exact ⟨hn, hl, ih e tokens hm he⟩
    have hitems : ∀ tokens ∈ items.map GenericItem.tokens, Nests tokens := by
      intro tokens hm
      obtain ⟨item, hi, rfl⟩ := List.mem_map.1 hm
      cases item with
      | type e tokens => exact (hreads e tokens hi).nests
      | lifetime name =>
        have hident := isToken_lifetime (hlifetimes name hi)
        exact Nests.of_forall (List.forall_mem_singleton.2 hident)
    have hcomma' : items.map GenericItem.tokens = [] → comma = false := fun h =>
      hcomma (List.map_eq_nil_iff.1 h)
    obtain ⟨pieces, hpieces, hpeel⟩ := peel?_of_arguments hs hfree hcomma' hitems
    refine parseType_eq_ok_iff.2 ⟨_, hpeel, Layer.read_path_eq_ok.2 ⟨_, ?_, rfl⟩⟩
    exact forall₂_read_arguments hpieces hreads hlifetimes
  | reference e isMutable lifetime tokens h ih =>
    intro s hs
    cases he with
    | reference _ _ _ hlifetime he =>
      obtain ⟨hn, first, rest, hfirst, hleads⟩ := h.nests he
      obtain ⟨t, hpeel, ht⟩ := peel?_of_reference hs hlifetime hn hfirst hleads
      exact parseType_eq_ok_iff.2 ⟨_, hpeel, Layer.read_reference_eq_ok.2 ⟨e, ih he t ht, rfl⟩⟩
  | tuple items comma hempty hone hitems ih =>
    intro s hs
    cases he with
    | tuple _ h =>
      have hplain : ∀ item ∈ items, Plain item.1 := fun item hi => h _ (List.mem_map_of_mem hi)
      have hnests : ∀ tokens ∈ items.map Prod.snd, Nests tokens ∧ tokens ≠ [] := by
        intro tokens hm
        obtain ⟨item, hi, rfl⟩ := List.mem_map.1 hm
        obtain ⟨hn, first, rest, hfirst, _⟩ := (hitems item hi).nests (hplain item hi)
        exact ⟨hn, by rw [hfirst]; exact List.cons_ne_nil _ _⟩
      obtain ⟨pieces, hpieces, hpeel⟩ := peel?_of_tuple hs
        (fun h => hempty (List.map_eq_nil_iff.1 h)) (fun h => hone (by rwa [List.length_map] at h))
        hnests
      refine parseType_eq_ok_iff.2 ⟨_, hpeel, Layer.read_tuple_eq_ok.2 ⟨_, ?_, rfl⟩⟩
      have hreads : ∀ item ∈ items, ∀ piece, LaidOut item.2 piece → parseType piece = .ok item.1 :=
        fun item hi => ih item hi (hplain item hi)
      have hboth := (List.forall₂_and_left items pieces).2
        ⟨hreads, List.forall₂_map_left_iff.1 hpieces⟩
      exact List.forall₂_map_right_iff.2 (hboth.imp fun item piece h => h.1 piece h.2).flip
  | const text =>
    intro s hs
    cases he with
    | const _ h =>
      refine parseType_eq_ok_iff.2 ⟨.verbatim .const text, ?_, rfl⟩
      rw [Layer.peel?, hs.strip_singleton h.isToken.1.trimmed, Layer.ofStripped?_of_literal h]

end TypeBridge
