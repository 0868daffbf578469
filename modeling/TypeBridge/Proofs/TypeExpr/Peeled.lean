import TypeBridge.Proofs.TypeExpr.Peel

/-!
The layers that are peeled off. Main statements: every layer comes about in one of six ways, each
with the text that it was peeled off; just the texts that no word begins and that are written like
a path have the layer of a path; and no type begins with a comma.
-/

namespace TypeBridge.Layer

variable {s : Text}

/-- The ways in which a layer is peeled off a text without blanks at its ends. -/
inductive Peels : Text → Layer → Prop
  | verbatim (form : Form) (s : Text) : Peels s (verbatim form s)
  | reference {rest referent : Text} {isMutable : Bool} {lifetime : Option Text} :
    ofReference? rest = .ok (reference referent isMutable lifetime) →
      Peels ('&' :: rest) (reference referent isMutable lifetime)
  | group (inside inner : Text) :
    Peels ('(' :: (inside ++ [')'])) (group ('(' :: (inside ++ [')'])) inner)
  | tuple {inside : Text} {elements : List Text} :
    ofContent ('(' :: (inside ++ [')'])) (Text.strip inside) = tuple elements →
      Peels ('(' :: (inside ++ [')'])) (tuple elements)
  | qualified {rest name : Text} {args : List Argument} {selfType : Text} :
    ofQualified? ('<' :: rest) rest = .ok (path name args (some selfType)) →
      Peels ('<' :: rest) (path name args (some selfType))
  | path {s name : Text} {args : List Argument} :
    Unworded s → ofPath? s = .ok (path name args none) → Peels s (path name args none)

/-- A word begins a shape that is kept as it is, or a path. -/
theorem ofWord?_eq_ok {s : Text} {layer : Layer} (h : ofWord? s = .ok layer) :
    (∃ form, layer = verbatim form s) ∨
    (Unworded s ∧ ofPath? s = .ok layer) := by
  unfold ofWord? at h
  repeat' split at h
  any_goals
    cases h
    exact .inl ⟨_, rfl⟩
  rename_i hinfer hfun hdyn himpl _
  simp only [Bool.not_eq_true] at hfun hdyn himpl
  exact .inr ⟨⟨hinfer, hfun, hdyn, himpl⟩, h⟩

theorem peels_of_ofRound? {rest : Text} {layer : Layer}
    (h : ofRound? ('(' :: rest) rest = .ok layer) : Peels ('(' :: rest) layer := by
  obtain ⟨inside, rfl, _, rfl⟩ := ofRound?_eq_ok_iff.1 h
  rcases ofContent_cases ('(' :: (inside ++ [')'])) (Text.strip inside) with
    ⟨elements, hl⟩ | ⟨inner, hl⟩
  · rw [hl]
    exact .tuple hl
  · rw [hl]
    exact .group _ inner

theorem peels_of_ofWord? {layer : Layer} (h : ofWord? s = .ok layer) : Peels s layer := by
  rcases ofWord?_eq_ok h with ⟨form, rfl⟩ | ⟨hu, hl⟩
  · exact .verbatim form s
  · rcases ofPath?_cases hl with rfl | ⟨name, args, rfl⟩
    · exact .verbatim .const s
    · exact .path hu hl

theorem peels_of_ofStripped? {layer : Layer} (h : ofStripped? s = .ok layer) : Peels s layer := by
  cases s with
  | nil => cases h
  | cons c rest =>
    simp only [ofStripped?] at h
    split at h
    · rename_i hc
      subst hc
      obtain ⟨_, _, _, rfl, _⟩ := ofReference?_eq_ok h
      exact .reference h
    split at h
    · cases h
      exact .verbatim .pointer _
    split at h
    · unfold ofSquare? at h
      split at h <;> cases h
      exact .verbatim _ _
    split at h
    · rename_i hc
      subst hc
      exact peels_of_ofRound? h
    split at h
    · rename_i hc
      subst hc
      obtain ⟨_, _, _, _, _, _, _, _, _, _, _, rfl⟩ := ofQualified?_eq_ok h
      exact .qualified h
    exact peels_of_ofWord? h

/-! ### Layers of each shape -/

theorem ofStripped?_eq_verbatim {form : Form} {text : Text}
    (h : ofStripped? s = .ok (verbatim form text)) : text = s := by
  cases peels_of_ofStripped? h
  rfl

theorem ofStripped?_eq_group {whole inner : Text}
    (h : ofStripped? s = .ok (group whole inner)) : whole = s := by
  cases peels_of_ofStripped? h
  rfl

theorem exists_parenthesized_of_group {whole inner : Text}
    (h : ofStripped? s = .ok (group whole inner)) : ∃ inside, s = '(' :: (inside ++ [')']) := by
  cases peels_of_ofStripped? h with
  | group inside => exact ⟨inside, rfl⟩

theorem ofStripped?_eq_reference {referent : Text} {isMutable : Bool} {lifetime : Option Text}
    (h : ofStripped? s = .ok (reference referent isMutable lifetime)) :
    ∃ rest, s = '&' :: rest ∧ ofReference? rest = .ok (reference referent isMutable lifetime) := by
  cases peels_of_ofStripped? h with
  | reference hl => exact ⟨_, rfl, hl⟩

theorem ofStripped?_eq_tuple {elements : List Text} (h : ofStripped? s = .ok (tuple elements)) :
    ∃ inside, s = '(' :: (inside ++ [')']) ∧ ofContent s (Text.strip inside) = tuple elements := by
  cases peels_of_ofStripped? h with
  | tuple hl => exact ⟨_, rfl, hl⟩

theorem closesIn_of_parenthesized {inside : Text} {layer : Layer}
    (h : ofStripped? ('(' :: (inside ++ [')'])) = .ok layer) : Bracket.round.ClosesIn inside := by
  obtain ⟨inside', hinside, hc, _⟩ := ofRound?_eq_ok_iff.1 h
  rwa [List.append_cancel_right hinside]

theorem ofStripped?_eq_path {name : Text} {args : List Argument} {selfType : Option Text}
    (h : ofStripped? s = .ok (path name args selfType)) :
    (∃ rest, s = '<' :: rest ∧ selfType ≠ none ∧
        ofQualified? s rest = .ok (path name args selfType)) ∨
      (selfType = none ∧ Unworded s ∧ ofPath? s = .ok (path name args none)) := by
  cases peels_of_ofStripped? h with
  | qualified hl => exact .inl ⟨_, rfl, Option.some_ne_none _, hl⟩
  | path hu hl => exact .inr ⟨rfl, hu, hl⟩

/-- The texts without a qualifying self type that are read as a path. -/
theorem ofStripped?_eq_path_iff {name : Text} {args : List Argument} (hs : Text.Trimmed s) :
    ofStripped? s = .ok (path name args none) ↔
      Unworded s ∧ ofPath? s = .ok (path name args none) := by
  constructor
  · intro h
    cases peels_of_ofStripped? h with
    | path hu hl => exact ⟨hu, hl⟩
  · rintro ⟨hu, hpath⟩
    have hsplit : ∃ (n : PathName) (start tail : Text), s = start ++ tail ∧ n.SpelledBy start ∧
        EndsName tail := by
      rcases ofPath?_eq_ok hpath with ⟨_, hl⟩ | ⟨n, hn, _⟩ | ⟨n, start, inside, after, hs, hn, _⟩
      · cases hl
      · exact ⟨n, s, [], (List.append_nil s).symm, hn, endsName_nil⟩
      · exact ⟨n, start, _, hs, hn, endsName_angle _⟩
    obtain ⟨n, start, tail, rfl, hn, ht⟩ := hsplit
    rw [ofStripped?_eq_ofPath? hn (hn.head?_not_blank hs) ht hu, hpath]

/-- No type begins with a comma. -/
theorem head?_ne_comma {layer : Layer} (h : ofStripped? s = .ok layer) :
    s.head? ≠ some ',' := by
  intro hhead
  obtain ⟨rest, rfl⟩ := List.head?_eq_some_iff.1 hhead
  have hpath : ofPath? (',' :: rest) = .ok layer := h
  have hspell : ∀ {n : PathName} {name tail : Text}, n.SpelledBy name →
      name ++ tail = ',' :: rest → EndsName tail → False := by
    intro n name tail hn hsplit ht
    have hstart : name ++ tail = [] ++ ',' :: rest := hsplit
    exact absurd (eq_angle_of_spelledBy hn ht hstart nofun (by decide)) (by decide)
  rcases ofPath?_eq_ok hpath with ⟨hlit, _⟩ | ⟨n, hn, _⟩ | ⟨n, name, inside, after, hsplit, hn, _⟩
  · have hfalse : Text.isIntegerLiteral (',' :: rest) = false := rfl
    rw [hfalse] at hlit
    exact Bool.false_ne_true hlit
  · exact hspell hn (List.append_nil _) endsName_nil
  · exact hspell hn hsplit.symm (endsName_angle _)

end TypeBridge.Layer
