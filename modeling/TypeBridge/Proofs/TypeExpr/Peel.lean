import TypeBridge.Proofs.Nesting.Commas
import TypeBridge.Proofs.TypeExpr.Name
import TypeBridge.TypeExpr.Layer

/-!
What is peeled off a text, by the shape of the text. Main statements: a text in parentheses, and a
path with or without generic arguments, has exactly one layer, which the text between its brackets
decides; a reference has the referent that stands behind its marks; and every layer that is peeled
off comes about in one of these ways or keeps the text as it is.
-/

namespace TypeBridge.Layer

/-! ### Words -/

theorem isFunction_eq_false_iff {s : Text} : isFunction s = false ↔
    s.takeWhile Text.isWord ∉ ["unsafe".toList, "extern".toList, "fn".toList] := by
  have hword : ∀ word ∈ ["unsafe", "extern", "fn"], ∀ c ∈ word.toList, Text.isWord c = true := by
    decide
  have hsome := fun word hm => Text.isSome_afterWord?_iff (s := s) (hword word hm)
  rw [isFunction, ← Bool.not_eq_true, List.any_eq_true]
  refine not_congr ⟨?_, ?_⟩
  · rintro ⟨word, hm, h⟩
    rw [(hsome word hm).1 h]
    exact List.mem_map_of_mem hm
  · intro h
    obtain ⟨word, hm, hw⟩ := List.mem_map.1
      (show s.takeWhile Text.isWord ∈ ["unsafe", "extern", "fn"].map String.toList from h)
    exact ⟨word, hm, (hsome word hm).2 hw.symm⟩

/-- What can stand behind the name of a path: nothing, or generic arguments. -/
def EndsName (tail : Text) : Prop := tail = [] ∨ ∃ rest, tail = '<' :: rest

theorem endsName_nil : EndsName [] := .inl rfl

theorem endsName_angle (rest : Text) : EndsName ('<' :: rest) := .inr ⟨rest, rfl⟩

/-- The first character of a path that cannot stand in its name opens its generic arguments. -/
theorem eq_angle_of_spelledBy {n : PathName} {name tail before after : Text} {c : Char}
    (hn : n.SpelledBy name) (ht : EndsName tail)
    (h : name ++ tail = before ++ c :: after) (hb : ∀ d ∈ before, isNameChar d = true)
    (hc : isNameChar c = false) : c = '<' := by
  have htail : ∀ d, tail.head? = some d → isNameChar d = false := by
    rcases ht with rfl | ⟨rest, rfl⟩
    · exact nofun
    · rintro d hd
      cases hd
      decide
  have hdrop := congrArg (List.dropWhile isNameChar) h
  rw [Text.dropWhile_append_of_head hn.isNameChar_of_mem htail,
    Text.dropWhile_append_of_head hb (by rintro d hd; cases hd; exact hc)] at hdrop
  rcases ht with rfl | ⟨rest, rfl⟩
  · cases hdrop
  · exact (List.cons.inj hdrop).1.symm

theorem isNameChar_of_append_blank {s blanks : Text} (hs : ∀ c ∈ s, isNameChar c = true)
    (hb : Text.Blank blanks) : ∀ c ∈ s ++ blanks, isNameChar c = true := by
  refine List.forall_mem_append.2 ⟨hs, fun c hc => ?_⟩
  rw [isNameChar, hb c hc, Bool.or_true]

theorem isClosure_eq_false {n : PathName} {name tail : Text} (hn : n.SpelledBy name)
    (ht : EndsName tail) : isClosure (name ++ tail) = false := by
  have hword : ∀ word ∈ ["Fn", "FnMut", "FnOnce"], ∀ c ∈ word.toList, isNameChar c = true := by
    decide
  rw [isClosure, List.any_eq_false]
  intro word hm h
  cases hs : word.toList.isPrefixOf? (name ++ tail) with
  | none => simp [hs] at h
  | some rest =>
    simp only [hs] at h
    obtain ⟨more, hmore⟩ := List.isPrefixOf_iff_prefix.1 h
    obtain ⟨blanks, hb, hrest⟩ := Text.exists_stripStart rest
    rw [← hmore] at hrest
    have hsplit : name ++ tail = (word.toList ++ blanks) ++ '(' :: more := by
      rw [← List.append_eq_of_isPrefixOf?_eq_some hs, hrest, List.append_assoc]
      rfl
    have hround := eq_angle_of_spelledBy hn ht hsplit
      (isNameChar_of_append_blank (hword word hm) hb) (by decide)
    exact absurd hround (by decide)

theorem isBinding_eq_false_of_spelledBy {n : PathName} {name tail : Text} (hn : n.SpelledBy name)
    (ht : EndsName tail) : isBinding (name ++ tail) = false := by
  unfold isBinding
  split
  · rfl
  · rename_i ident rest hcut
    split
    · rfl
    · rename_i value hvalue
      obtain ⟨hname, hident⟩ := Text.cutIdent?_eq_some hcut
      obtain ⟨blanks, hb, hrest⟩ := Text.exists_stripStart rest
      rw [← List.append_eq_of_isPrefixOf?_eq_some hvalue] at hrest
      have hchars : ∀ c ∈ ident, isNameChar c = true := by
        intro c hc
        rw [isNameChar, Text.isIdentChar_of_mem_isIdent hident c hc]
        rfl
      have hsplit : name ++ tail = (ident ++ blanks) ++ '=' :: value := by
        rw [hname, hrest, List.append_assoc]
        rfl
      have hequals := eq_angle_of_spelledBy hn ht hsplit
        (isNameChar_of_append_blank hchars hb) (by decide)
      exact absurd hequals (by decide)

theorem takeWhile_of_isPrefixOf {word s : Text} (hw : ∀ c ∈ word, Text.isWord c = true)
    (h : (word ++ [' ']).isPrefixOf s = true) : s.takeWhile Text.isWord = word := by
  obtain ⟨rest, hrest⟩ := List.isPrefixOf_iff_prefix.1 h
  rw [← hrest, List.append_assoc]
  refine Text.takeWhile_append_of_head hw fun c hc => ?_
  rw [← Option.some.inj hc]
  decide

/-- Whether no word at its start keeps a text from being read as a path. -/
structure Unworded (s : Text) : Prop where
  ne_infer : s ≠ ['_']
  isFunction_eq : isFunction s = false
  dyn_eq : "dyn ".toList.isPrefixOf s = false
  impl_eq : "impl ".toList.isPrefixOf s = false

/-- A path is read as one unless it is written like a type that a word begins. -/
theorem ofStripped?_eq_ofPath? {n : PathName} {name tail : Text} (hn : n.SpelledBy name)
    (hname : ∀ c, name.head? = some c → Text.isBlank c = false)
    (ht : EndsName tail) (hu : Unworded (name ++ tail)) :
    ofStripped? (name ++ tail) = ofPath? (name ++ tail) := by
  have hclosure := isClosure_eq_false hn ht
  obtain ⟨hinfer, hfun, hdyn, himpl⟩ := hu
  obtain ⟨c, rest, hs, hc⟩ := hn.exists_cons hname
  rw [hs, List.cons_append] at hclosure hfun hdyn himpl hinfer ⊢
  have hne : ∀ d, PathName.isLeadChar d = false → c ≠ d := by
    rintro d hd rfl
    rw [hc] at hd
    exact absurd hd (by decide)
  rw [ofStripped?, if_neg (hne _ (by decide)), if_neg (hne _ (by decide)),
    if_neg (hne _ (by decide)), if_neg (hne _ (by decide)), if_neg (hne _ (by decide)), ofWord?,
    if_neg fun e => hne '!' (by decide) (List.cons.inj e).1, if_neg hinfer, hfun, hdyn, himpl,
    hclosure]
  rfl

/-! ### Generic arguments -/

theorem argument?_eq_binding_iff {piece t : Text} :
    argument? piece = some (.binding t) ↔ t = Text.strip piece ∧ isBinding t = true := by
  constructor
  · intro h
    simp only [argument?] at h
    repeat' split at h
    · cases h
    · rename_i hbinding
      cases h
      exact ⟨rfl, hbinding⟩
    · cases h
  · rintro ⟨rfl, hbinding⟩
    have hstart : ['\''].isPrefixOf (Text.strip piece) = false := by
      rw [← Bool.not_eq_true]
      intro hs
      obtain ⟨rest, hrest⟩ := List.head?_eq_some_iff.1 (Text.isPrefixOf_singleton_iff.1 hs)
      rw [hrest] at hbinding
      exact absurd hbinding Bool.false_ne_true
    have hempty : (Text.strip piece).isEmpty = false := by
      rw [← Bool.not_eq_true, List.isEmpty_iff]
      intro he
      rw [he] at hbinding
      exact absurd hbinding Bool.false_ne_true
    simp only [argument?, hstart, hempty, hbinding, Bool.or_false, Bool.false_eq_true, if_false,
      if_true]

theorem argument?_eq_type_iff {piece t : Text} :
    argument? piece = some (.type t) ↔
      t = Text.strip piece ∧ t ≠ [] ∧ t.head? ≠ some '\'' ∧ isBinding t = false := by
  constructor
  · intro h
    simp only [argument?] at h
    repeat' split at h
    · cases h
    · cases h
    · rename_i hskip hbinding
      cases h
      rw [Bool.or_eq_true, not_or, List.isEmpty_iff, Text.isPrefixOf_singleton_iff] at hskip
      exact ⟨rfl, hskip.1, hskip.2, Bool.eq_false_iff.2 hbinding⟩
  · rintro ⟨rfl, hne, hquote, hbinding⟩
    have hskip : ¬ ((Text.strip piece).isEmpty || ['\''].isPrefixOf (Text.strip piece)) := by
      rw [Bool.or_eq_true, not_or, List.isEmpty_iff, Text.isPrefixOf_singleton_iff]
      exact ⟨hne, hquote⟩
    simp only [argument?, if_neg hskip, hbinding, Bool.false_eq_true, if_false]

/-- What is left out of generic arguments holds nothing, or a lifetime. -/
theorem argument?_eq_none {piece : Text} (h : argument? piece = none) :
    Text.strip piece = [] ∨ (Text.strip piece).head? = some '\'' := by
  simp only [argument?] at h
  repeat' split at h
  · rename_i hskip
    rwa [Bool.or_eq_true, List.isEmpty_iff, Text.isPrefixOf_singleton_iff] at hskip
  · cases h
  · cases h

/-! ### Paths -/

/-- The layer of a path that writes `inside` between its brackets and `after` behind them. -/
def ofArguments (s name inside after : Text) : Layer :=
  if Text.isBlankText after then path name ((splitPieces inside).filterMap argument?) none
  else path (Text.collapse s) [] none

theorem angle_not_mem_of_spelledBy {n : PathName} {s : Text} (h : n.SpelledBy s) : '<' ∉ s :=
  fun hm => absurd (h.isNameChar_of_mem '<' hm) (by decide)

theorem isIntegerLiteral_eq_false {n : PathName} {s : Text} (h : n.SpelledBy s)
    (hs : ∀ c, s.head? = some c → Text.isBlank c = false) : Text.isIntegerLiteral s = false := by
  obtain ⟨c, rest, rfl, hc⟩ := h.exists_cons hs
  have hminus : '-' ≠ c := by
    rintro rfl
    exact absurd hc (by decide)
  have hdigit : c.isDigit = false := by
    cases hd : c.isDigit with
    | false => rfl
    | true => exact absurd hc (by rw [PathName.isLeadChar_eq_false_of_isDigit hd]; decide)
  rw [Text.isIntegerLiteral, Text.isPrefixOf?_cons_of_ne hminus, Option.getD_none,
    Text.isUnsignedLiteral]
  simp only [hdigit, Bool.false_and]

theorem ofPath?_of_name {n : PathName} {s : Text} (h : n.SpelledBy s)
    (hs : ∀ c, s.head? = some c → Text.isBlank c = false) :
    ofPath? s = .ok (path n.text [] none) := by
  have hcut : Text.cutAt? '<' s = none :=
    (Text.cutAt?_eq_none_iff '<').2 (angle_not_mem_of_spelledBy h)
  have hlit := isIntegerLiteral_eq_false h hs
  simp only [ofPath?, hcut, hlit, normalizeName_eq_ok_iff.2 ⟨n, h, rfl⟩]
  rfl

theorem ofPath?_of_arguments {n : PathName} {name inside : Text} (h : n.SpelledBy name)
    (hc : Bracket.angle.ClosesIn inside)
    (ha : isArrowHead (lastOr none inside) '>' = false) (after : Text) :
    ofPath? (name ++ '<' :: (inside ++ '>' :: after))
      = .ok (ofArguments (name ++ '<' :: (inside ++ '>' :: after)) n.text inside after) := by
  have hcut := Text.cutAt?_append (inside ++ '>' :: after) (angle_not_mem_of_spelledBy h)
  have henclosed : Bracket.angle.enclosed? (inside ++ '>' :: after) = some (inside, after) :=
    Bracket.enclosed?_of_closesIn hc ha after
  simp only [ofPath?, hcut, normalizeName_eq_ok_iff.2 ⟨n, h, rfl⟩, henclosed, ofArguments]
  split <;> rfl

/-- The texts that are read as a path or an integer literal. -/
theorem ofPath?_eq_ok {s : Text} {layer : Layer} (h : ofPath? s = .ok layer) :
    (Text.isIntegerLiteral s = true ∧ layer = verbatim .const s) ∨
    (∃ n : PathName, n.SpelledBy s ∧ layer = path n.text [] none) ∨
    ∃ (n : PathName) (name inside after : Text), s = name ++ '<' :: (inside ++ '>' :: after) ∧
      n.SpelledBy name ∧ Bracket.angle.ClosesIn inside ∧
      isArrowHead (lastOr none inside) '>' = false ∧ layer = ofArguments s n.text inside after := by
  unfold ofPath? at h
  split at h
  · split at h
    · rename_i hlit
      cases h
      exact .inl ⟨hlit, rfl⟩
    · cases hn : normalizeName s with
      | error e =>
        rw [hn] at h
        cases h
      | ok name =>
        rw [hn] at h
        cases h
        obtain ⟨n, hspell, rfl⟩ := normalizeName_eq_ok_iff.1 hn
        exact .inr (.inl ⟨n, hspell, rfl⟩)
  · rename_i name rest hcut
    split at h
    · cases h
    · rename_i hn
      obtain ⟨n, hspell, rfl⟩ := normalizeName_eq_ok_iff.1 hn
      split at h
      · cases h
      · rename_i inside after he
        obtain ⟨hc, ha⟩ := Bracket.closesIn_of_enclosed? he
        refine .inr (.inr ⟨n, name, inside, after, ?_, hspell, hc, ha, ?_⟩)
        · rw [(Text.cutAt?_eq_some '<' hcut).1, Bracket.enclosed?_eq_some he]
          rfl
        · unfold ofArguments
          split at h
          · rename_i hb
            cases h
            rw [if_pos hb]
          · rename_i hb
            cases h
            rw [if_neg hb]

theorem ofPath?_cases {s : Text} {layer : Layer} (h : ofPath? s = .ok layer) :
    layer = verbatim .const s ∨ ∃ name args, layer = path name args none := by
  rcases ofPath?_eq_ok h with ⟨_, rfl⟩ | ⟨n, _, rfl⟩ | ⟨n, _, inside, after, _, _, _, _, rfl⟩
  · exact .inl rfl
  · exact .inr ⟨_, _, rfl⟩
  · unfold ofArguments
    split
    · exact .inr ⟨_, _, rfl⟩
    · exact .inr ⟨_, _, rfl⟩

/-- A path that ends with its generic arguments has any at all just when its bracket closes there,
and then they are what stands between the brackets. -/
theorem ofPath?_eq_arguments_iff {n : PathName} {name inside : Text} {args : List Argument}
    (hn : n.SpelledBy name) (ha : isArrowHead (lastOr none inside) '>' = false)
    (hargs : args ≠ []) :
    ofPath? (name ++ '<' :: (inside ++ ['>'])) = .ok (path n.text args none) ↔
      Bracket.angle.ClosesIn inside ∧ args = (splitPieces inside).filterMap argument? := by
  constructor
  · intro h
    rcases ofPath?_eq_ok h with ⟨_, hl⟩ | ⟨m, _, hl⟩ | ⟨m, name', inside', after, hs, hm, hc, _, hl⟩
    · cases hl
    · exact absurd (path.inj hl).2.1 hargs
    · have hcut := congrArg (Text.cutAt? '<') hs
      rw [Text.cutAt?_append _ (angle_not_mem_of_spelledBy hn),
        Text.cutAt?_append _ (angle_not_mem_of_spelledBy hm)] at hcut
      obtain ⟨rfl, hinside⟩ := Prod.mk.inj (Option.some.inj hcut)
      unfold ofArguments at hl
      split at hl
      · rename_i hafter
        have hsplit : inside ++ ['>'] = (inside' ++ ['>']) ++ after := by
          rw [hinside]
          simp
        have hlast : ∀ c, ((inside' ++ ['>']) ++ after).getLast? = some c →
            Text.isBlank c = false := by
          intro c hc
          rw [← hsplit, List.getLast?_concat] at hc
          cases hc
          decide
        obtain rfl := Text.eq_nil_of_append_blank hlast (Text.isBlankText_iff.1 hafter)
        obtain rfl := List.append_cancel_right hinside
        exact ⟨hc, (path.inj hl).2.1⟩
      · exact absurd (path.inj hl).2.1 hargs
  · rintro ⟨hc, rfl⟩
    rw [ofPath?_of_arguments hn hc ha]
    rfl

/-! ### Qualified paths -/

theorem ofQualified?_eq_ok_iff {inside after tail name : Text} {args : List Argument}
    {selfType : Option Text} (s : Text) (hc : Bracket.angle.ClosesIn inside)
    (ha : isArrowHead (lastOr none inside) '>' = false)
    (hafter : Text.strip after = ':' :: ':' :: tail) :
    ofQualified? s (inside ++ '>' :: after) = .ok (path name args selfType) ↔
      ofPath? (Text.strip tail) = .ok (path name args none) ∧
        selfType = some (Text.collapse inside) := by
  have henclosed : Bracket.angle.enclosed? (inside ++ '>' :: after) = some (inside, after) :=
    Bracket.enclosed?_of_closesIn hc ha after
  have hseparator : [':', ':'].isPrefixOf? (':' :: ':' :: tail) = some tail := rfl
  simp only [ofQualified?, henclosed, hafter, hseparator]
  cases hp : ofPath? (Text.strip tail) with
  | error e =>
    constructor
    · intro h
      cases h
    · rintro ⟨h, _⟩
      cases h
  | ok layer =>
    rcases ofPath?_cases hp with rfl | ⟨name', args', rfl⟩
    · constructor
      · intro h
        cases h
      · rintro ⟨h, _⟩
        cases h
    · simp [eq_comm, and_assoc]

theorem ofQualified?_eq_ok {s rest : Text} {layer : Layer} (h : ofQualified? s rest = .ok layer) :
    ∃ inside after tail name args selfType, rest = inside ++ '>' :: after ∧
      Bracket.angle.ClosesIn inside ∧ isArrowHead (lastOr none inside) '>' = false ∧
      Text.strip after = ':' :: ':' :: tail ∧
      ofPath? (Text.strip tail) = .ok (path name args selfType) ∧
      layer = path name args (some (Text.collapse inside)) := by
  unfold ofQualified? at h
  split at h
  · cases h
  · rename_i inside after he
    obtain ⟨hc, ha⟩ := Bracket.closesIn_of_enclosed? he
    split at h
    · cases h
    · rename_i tail ht
      split at h
      · cases h
      · rename_i name args selfType hp
        cases h
        exact ⟨inside, after, tail, name, args, selfType, Bracket.enclosed?_eq_some he, hc, ha,
          (List.append_eq_of_isPrefixOf?_eq_some ht).symm, hp, rfl⟩
      · cases h

/-! ### Parentheses -/

theorem ofRound?_eq_ok_iff {s rest : Text} {layer : Layer} :
    ofRound? s rest = .ok layer ↔ ∃ inside, rest = inside ++ [')'] ∧
      Bracket.round.ClosesIn inside ∧ layer = ofContent s (Text.strip inside) := by
  constructor
  · intro h
    unfold ofRound? at h
    split at h
    · cases h
    · rename_i inside after he
      split at h
      · rename_i hafter
        cases h
        rw [List.isEmpty_iff.1 hafter] at he
        exact ⟨inside, Bracket.enclosed?_eq_some he, (Bracket.closesIn_of_enclosed? he).1, rfl⟩
      · cases h
  · rintro ⟨inside, rfl, hc, rfl⟩
    have henclosed : Bracket.round.enclosed? (inside ++ [')']) = some (inside, []) :=
      Bracket.enclosed?_of_closesIn hc rfl []
    simp only [ofRound?, henclosed]
    rfl

theorem ofContent_eq_tuple_iff {s content : Text} {elements : List Text} :
    ofContent s content = tuple elements ↔
      (splitPieces content).filter (fun piece => !Text.isBlankText piece) = elements ∧
        (elements.length = 1 → [','].isSuffixOf content = true) := by
  unfold ofContent
  constructor
  · intro h
    split at h
    · rename_i inner hkept
      split at h
      · rename_i hend
        cases h
        exact ⟨hkept, fun _ => hend⟩
      · cases h
    · rename_i hmany
      cases h
      refine ⟨rfl, fun hone => ?_⟩
      obtain ⟨inner, hinner⟩ := List.length_eq_one_iff.1 hone
      exact absurd hinner (hmany inner)
  · rintro ⟨rfl, hone⟩
    split
    · rename_i inner hkept
      rw [if_pos (hone (by rw [hkept]; rfl)), hkept]
    · rfl

theorem ofContent_cases (s content : Text) :
    (∃ elements, ofContent s content = tuple elements) ∨
      ∃ inner, ofContent s content = group s inner := by
  unfold ofContent
  split
  · split
    · exact .inl ⟨_, rfl⟩
    · exact .inr ⟨_, rfl⟩
  · exact .inl ⟨_, rfl⟩

/-! ### References -/

theorem ofReferent_mut (lifetime : Option Text) {t : Text}
    (h : ∀ c, t.head? = some c → Text.isWord c = false) :
    ofReferent lifetime ("mut".toList ++ t) = reference t true lifetime := by
  rw [ofReferent, Text.afterWord?_append h]

theorem isSome_afterWord?_mut_iff {t : Text} :
    (Text.afterWord? "mut".toList t).isSome = true ↔ t.takeWhile Text.isWord = "mut".toList :=
  Text.isSome_afterWord?_iff (by decide)

theorem ofReferent_of_ne (lifetime : Option Text) {t : Text}
    (h : t.takeWhile Text.isWord ≠ "mut".toList) :
    ofReferent lifetime t = reference t false lifetime := by
  have hnone : Text.afterWord? "mut".toList t = none := by
    rw [← Option.not_isSome_iff_eq_none, isSome_afterWord?_mut_iff]
    exact h
  rw [ofReferent, hnone]

theorem ofReference?_of_ne {rest t : Text} (hs : Text.strip rest = t) (ht : t.head? ≠ some '\'') :
    ofReference? rest = .ok (ofReferent none t) := by
  have hquote : ['\''].isPrefixOf? t = none := by
    cases t with
    | nil => rfl
    | cons c t =>
      have hc : '\'' ≠ c := by
        rintro rfl
        exact ht rfl
      exact Text.isPrefixOf?_cons_of_ne hc [] t
  simp only [ofReference?, hs, hquote]

theorem ofReference?_of_lifetime {rest name after : Text}
    (hs : Text.strip rest = '\'' :: (name ++ after)) (hname : Text.isIdent name = true)
    (hafter : ∀ c, after.head? = some c → Text.isIdentChar c = false)
    (hne : Text.stripStart after ≠ []) :
    ofReference? rest = .ok (ofReferent (some name) (Text.stripStart after)) := by
  have hcut := Text.cutIdent?_append hname hafter
  have hempty : (Text.stripStart after).isEmpty = false := by
    rw [← Bool.not_eq_true, List.isEmpty_iff]
    exact hne
  have hquote : ['\''].isPrefixOf? ('\'' :: (name ++ after)) = some (name ++ after) := rfl
  simp only [ofReference?, hs, hquote, hcut, hempty, Bool.false_eq_true, if_false]

/-- The mark of mutability as it must be written. -/
def mutMark (isMutable : Bool) : Text := if isMutable then "mut".toList else []

theorem exists_ofReferent_eq (lifetime : Option Text) (s : Text) :
    ∃ t isMutable, ofReferent lifetime s = reference t isMutable lifetime ∧
      s = mutMark isMutable ++ t ∧
      (isMutable = false → t = s ∧ t.takeWhile Text.isWord ≠ "mut".toList) := by
  cases h : Text.afterWord? "mut".toList s with
  | some t =>
    refine ⟨t, true, by rw [ofReferent, h], ?_, nofun⟩
    exact (List.append_eq_of_isPrefixOf?_eq_some (Option.filter_eq_some_iff.1 h).1).symm
  | none =>
    refine ⟨s, false, by rw [ofReferent, h], rfl, fun _ => ⟨rfl, fun hw => ?_⟩⟩
    rw [← isSome_afterWord?_mut_iff, h] at hw
    exact Bool.false_ne_true hw

/-- The texts that are read as a reference: the lifetime and the mark of mutability that they begin
with are not part of the referent. -/
theorem ofReference?_eq_ok {rest : Text} {layer : Layer} (h : ofReference? rest = .ok layer) :
    ∃ t isMutable lifetime, layer = reference t isMutable lifetime ∧
      (isMutable = false → (Text.strip t).takeWhile Text.isWord ≠ "mut".toList) ∧
      ((lifetime = none ∧ Text.strip rest = mutMark isMutable ++ t ∧
          (Text.strip rest).head? ≠ some '\'') ∨
        ∃ name blanks, lifetime = some name ∧ Text.isIdent name = true ∧ Text.Blank blanks ∧
          Text.strip rest = '\'' :: (name ++ (blanks ++ (mutMark isMutable ++ t)))) := by
  unfold ofReference? at h
  simp only at h
  split at h
  · rename_i hquote
    cases h
    obtain ⟨t, isMutable, ht, hs, hw⟩ := exists_ofReferent_eq none (Text.strip rest)
    have hword : isMutable = false → (Text.strip t).takeWhile Text.isWord ≠ "mut".toList := by
      intro him
      obtain ⟨rfl, hne⟩ := hw him
      rwa [Text.strip_strip]
    refine ⟨t, isMutable, none, ht, hword, .inl ⟨rfl, hs, fun hc => ?_⟩⟩
    obtain ⟨u, hu⟩ := List.head?_eq_some_iff.1 hc
    rw [hu] at hquote
    cases hquote
  · rename_i afterQuote hquote
    split at h
    · cases h
    · rename_i name after hcut
      obtain ⟨hname, hident⟩ := Text.cutIdent?_eq_some hcut
      obtain ⟨blanks, hb, hafter⟩ := Text.exists_stripStart after
      split at h
      · cases h
      · cases h
        obtain ⟨t, isMutable, ht, hs, hw⟩ :=
          exists_ofReferent_eq (some name) (Text.stripStart after)
        have hword : isMutable = false → (Text.strip t).takeWhile Text.isWord ≠ "mut".toList := by
          intro him
          obtain ⟨rfl, hne⟩ := hw him
          rwa [Text.takeWhile_isWord_strip (Text.head?_stripStart after)]
        refine ⟨t, isMutable, some name, ht, hword, .inr ⟨name, blanks, rfl, hident, hb, ?_⟩⟩
        rw [← List.append_eq_of_isPrefixOf?_eq_some hquote, hname, ← hs, ← hafter]
        rfl

end TypeBridge.Layer
