import TypeBridge.Proofs.Nesting.Boundaries
import TypeBridge.Proofs.TypeExpr.Dense
import TypeBridge.Proofs.TypeExpr.Peeled
import TypeBridge.Proofs.TypeExpr.Read
import TypeBridge.Proofs.TypeExpr.Squeezed

/-!
What the printed form of an expression keeps of the text that it was read from. Main statement: it
begins with the same character and the same word, binds a name only if the text does, and the text
holds all that is printed.
-/

namespace TypeBridge

/-- What a printed form keeps of the stripped text that its expression was read from. -/
structure Mirrors (s p : Text) : Prop where
  trimmed : Text.Trimmed p
  ne_nil : p ≠ []
  head?_eq : p.head? = s.head?
  takeWhile_eq : p.takeWhile Text.isWord = s.takeWhile Text.isWord
  isBinding_eq : Layer.isBinding s = false → Layer.isBinding p = false
  covers : Covers s p

theorem Covers.refl (s : Text) : Covers s s := ⟨Nat.le_refl _, fun _ => rfl⟩

/-- What a text covers, it covers behind the same characters. -/
theorem Covers.of_dense_append {s p t q m : Text} (h : Covers t q)
    (hs : Text.dense s = m ++ Text.dense t) (hp : Text.dense p = m ++ Text.dense q)
    (hslast : s.getLast? = t.getLast?) (hplast : p.getLast? = q.getLast?) : Covers s p := by
  have hcore := h.core_le
  have hcomma := h.count_comma
  rw [← Text.core_dense, ← Text.core_dense t] at hcore
  rw [← hslast, ← hplast, ← Text.count_comma_dense, ← Text.count_comma_dense t] at hcomma
  constructor
  · rw [← Text.core_dense, hp, ← Text.core_dense s, hs, Text.core_append, Text.core_append]
    omega
  · intro hend
    rw [← Text.count_comma_dense, hp, ← Text.count_comma_dense s, hs, List.count_append,
      List.count_append, hcomma hend]

theorem Text.core_eq_of_dense {s t : Text} (h : dense s = dense t) : core s = core t := by
  rw [← core_dense, h, core_dense]

theorem Text.count_comma_of_dense {s t : Text} (h : dense s = dense t) :
    s.count ',' = t.count ',' := by
  rw [← count_comma_dense, h, count_comma_dense]

theorem Mirrors.refl {s : Text} (hs : Text.Trimmed s) (hne : s ≠ []) : Mirrors s s :=
  ⟨hs, hne, rfl, rfl, id, .refl s⟩

/-- A text that begins with a mark begins no word and binds no name. -/
theorem mirrors_of_mark {c : Char} {s p : Text} (hc : Text.isWord c = false)
    (hp : Text.Trimmed (c :: p)) (hcovers : Covers (c :: s) (c :: p)) :
    Mirrors (c :: s) (c :: p) where
  trimmed := hp
  ne_nil := List.cons_ne_nil c p
  head?_eq := rfl
  takeWhile_eq := by
    have hneg : ¬ Text.isWord c = true := by
      rw [hc]
      exact Bool.false_ne_true
    rw [List.takeWhile_cons_of_neg hneg, List.takeWhile_cons_of_neg hneg]
  isBinding_eq := by
    intro _
    have hstart : Text.isIdentStart c = false := by
      rw [← Bool.not_eq_true]
      intro hs
      rw [Text.isWord_of_isIdentChar (Text.isIdentChar_of_isIdentStart hs)] at hc
      exact absurd hc (by decide)
    have hcut : Text.cutIdent? (c :: p) = none :=
      Text.cutIdent?_eq_none (by rintro d hd; cases hd; exact hstart)
    rw [Layer.isBinding, hcut]
  covers := hcovers

theorem ne_nil_of_ofStripped? {s : Text} {layer : Layer} (h : Layer.ofStripped? s = .ok layer) :
    s ≠ [] := by
  rintro rfl
  cases h

/-! ### References -/

/-- A part of a text that only blanks follow is stripped to where the text ends. -/
theorem Text.getLast?_strip_of_append {s before t after : Text} (hs : Trimmed s)
    (h : s = before ++ t ++ after) (hafter : Blank after) (ht : ¬ Blank t) :
    (strip t).getLast? = s.getLast? := by
  obtain ⟨l, r, _, hr, hsplit⟩ := exists_strip t
  have hne : strip t ≠ [] := fun e => ht (strip_eq_nil_iff.1 e)
  have hblank : Blank (r ++ after) := blank_append_iff.2 ⟨hr, hafter⟩
  have hall : s = before ++ l ++ strip t ++ (r ++ after) := by
    rw [h]
    conv =>
      lhs
      rw [hsplit]
    simp
  have hnil : r ++ after = [] := by
    rw [hall] at hs
    exact eq_nil_of_append_blank hs.2 hblank
  rw [hall, hnil, List.append_nil, List.getLast?_append_of_ne_nil _ hne]

theorem Mirrors.not_blank {s p : Text} (h : Mirrors (Text.strip s) p) : ¬ Text.Blank s := by
  intro hb
  have hhead := h.head?_eq
  rw [Text.strip_eq_nil_iff.2 hb] at hhead
  exact h.ne_nil (List.head?_eq_none_iff.1 hhead)

/-- The last character of a text without blanks at its ends, from that of its last part. -/
theorem Mirrors.trimmed_append {s p : Text} {c : Char} {before : Text} (h : Mirrors s p)
    (hc : Text.isBlank c = false) : Text.Trimmed (c :: before ++ p) := by
  constructor
  · rintro d hd
    cases hd
    exact hc
  · intro d hd
    rw [List.getLast?_append_of_ne_nil _ h.ne_nil] at hd
    exact h.trimmed.2 d hd

theorem mirrors_reference {rest t p : Text} {isMutable : Bool} {lifetime : Option Text}
    (h : Layer.ofReference? rest = .ok (.reference t isMutable lifetime))
    (hs : Text.Trimmed ('&' :: rest)) (hp : Mirrors (Text.strip t) p) :
    Mirrors ('&' :: rest) (referenceText isMutable lifetime ++ p) := by
  have hlast : (Text.strip t).getLast? = ('&' :: rest).getLast? := by
    obtain ⟨l, r, _, hr, hsplit⟩ := Text.exists_strip rest
    obtain ⟨before, hbefore⟩ : ∃ before, Text.strip rest = before ++ t := by
      obtain ⟨t', isMutable', lifetime', hlayer, _, hcases⟩ := Layer.ofReference?_eq_ok h
      cases hlayer
      rcases hcases with ⟨_, hs, _⟩ | ⟨name, blanks, _, _, _, hs⟩
      · exact ⟨_, hs⟩
      · refine ⟨'\'' :: (name ++ (blanks ++ Layer.mutMark isMutable)), ?_⟩
        rw [hs]
        simp
    have hall : '&' :: rest = '&' :: (l ++ before) ++ t ++ r := by
      rw [hbefore] at hsplit
      rw [hsplit]
      simp
    exact Text.getLast?_strip_of_append hs hall hr hp.not_blank
  have hcovers : Covers ('&' :: rest) (referenceText isMutable lifetime ++ p) := by
    have hdense := dense_reference h
    rw [← Text.dense_strip t] at hdense
    exact hp.covers.of_dense_append hdense (Text.dense_append _ _) hlast.symm
      (List.getLast?_append_of_ne_nil _ hp.ne_nil)
  obtain ⟨marks, hmarks⟩ := exists_referenceText_eq isMutable lifetime
  rw [hmarks, List.append_assoc, List.cons_append] at hcovers ⊢
  refine mirrors_of_mark (by decide) ?_ hcovers
  have htrim : Text.Trimmed ('&' :: (marks ++ [' ']) ++ p) := hp.trimmed_append (by decide)
  rwa [List.cons_append, List.append_assoc] at htrim

/-! ### Lists -/

namespace Layer

/-- A piece of a tuple; blank pieces are no elements. -/
def element? (piece : Text) : Option Text :=
  if Text.isBlankText piece then none else some piece

theorem filterMap_element? (pieces : List Text) :
    pieces.filterMap element? = pieces.filter fun piece => !Text.isBlankText piece := by
  induction pieces with
  | nil => rfl
  | cons piece pieces ih =>
    cases hb : Text.isBlankText piece with
    | true =>
      have hnone : element? piece = none := by rw [element?, if_pos hb]
      rw [List.filterMap_cons_none hnone, ih, List.filter_cons_of_neg (by simp [hb])]
    | false =>
      have hsome : element? piece = some piece := by
        rw [element?, hb]
        rfl
      rw [List.filterMap_cons_some hsome, ih, List.filter_cons_of_pos (by simp [hb])]

theorem element?_eq_some {piece t : Text} (h : element? piece = some t) : t = piece := by
  unfold element? at h
  split at h
  · cases h
  · exact (Option.some.inj h).symm

theorem element?_eq_none {piece : Text} (h : element? piece = none) : Text.Blank piece := by
  unfold element? at h
  split at h
  · rename_i hb
    exact Text.isBlankText_iff.1 hb
  · cases h

end Layer

/-- What is known of the elements of a tuple and of the texts they are read from. -/
theorem covers_element {piece t : Text} {e : TypeExpr} (h : Layer.element? piece = some t)
    (he : Mirrors (Text.strip t) e.print) : Covers (Text.strip piece) (Text.strip e.print) := by
  rw [← Layer.element?_eq_some h, he.trimmed.strip_eq]
  exact he.covers

/-- A generic argument covers what is printed for it. -/
theorem covers_argument {piece : Text} {a : Argument} {e : TypeExpr}
    (h : Layer.argument? piece = some a)
    (he : a.ReadsWith (fun t e => Mirrors (Text.strip t) e.print) e) :
    Covers (Text.strip piece) (Text.strip e.print) := by
  obtain ⟨hread, htype⟩ := he
  cases a with
  | binding t =>
    obtain ⟨rfl, _⟩ := Layer.argument?_eq_binding_iff.1 h
    cases hread
    show Covers (Text.strip piece) (Text.strip (Text.strip piece))
    rw [Text.strip_strip]
    exact .refl _
  | type t =>
    obtain ⟨rfl, _⟩ := Layer.argument?_eq_type_iff.1 h
    have hm := htype _ rfl
    rw [Text.strip_strip] at hm
    rw [hm.trimmed.strip_eq]
    exact hm.covers

theorem core_elements_le {s content : Text} {elements : List Text} {es : List TypeExpr}
    (h : Layer.ofContent s content = .tuple elements)
    (hes : List.Forall₂ (fun t e => Mirrors (Text.strip t) (TypeExpr.print e)) elements es) :
    Text.core ([','].intercalate (es.map TypeExpr.print)) ≤ Text.core content := by
  obtain ⟨hkept, _⟩ := Layer.ofContent_eq_tuple_iff.1 h
  have hnil : (!Text.isBlankText []) = false := rfl
  rw [splitPieces, filter_dropEmptyEnd hnil, ← Layer.filterMap_element?] at hkept
  rw [← hkept] at hes
  have hle := core_intercalate_le (List.forall₂_map_right_iff.2
    (hes.imp fun t e he piece hp => covers_element hp he))
  rwa [intercalate_piecesFrom] at hle

theorem core_arguments_le {inside : Text} {es : List TypeExpr}
    (hes : List.Forall₂ (Argument.ReadsWith fun t e => Mirrors (Text.strip t) e.print)
        ((splitPieces inside).filterMap Layer.argument?) es) :
    Text.core ([','].intercalate (es.map TypeExpr.print)) ≤ Text.core inside := by
  have hnil : Layer.argument? [] = none := rfl
  rw [splitPieces, filterMap_dropEmptyEnd hnil] at hes
  have hle := core_intercalate_le (List.forall₂_map_right_iff.2
    (hes.imp fun a e he piece hp => covers_argument hp he))
  rwa [intercalate_piecesFrom] at hle

/-! ### Tuples -/

theorem exists_tupleText_eq (texts : List Text) : ∃ inner,
    TypeExpr.tupleText texts = '(' :: (inner ++ [')']) ∧
      Text.core inner = Text.core ([','].intercalate texts) := by
  by_cases h : texts.length = 1
  · obtain ⟨t, rfl⟩ := List.length_eq_one_iff.1 h
    refine ⟨t ++ [','], TypeExpr.tupleText_singleton t, ?_⟩
    rw [Text.core_append, Text.core_comma, List.intercalate_singleton]
    rfl
  · exact ⟨_, TypeExpr.tupleText_of_ne_one h, Text.core_intercalate (by decide) texts⟩

theorem mirrors_tuple {s inside : Text} {elements : List Text} {es : List TypeExpr}
    (h : Layer.ofContent s (Text.strip inside) = .tuple elements)
    (hes : List.Forall₂ (fun t e => Mirrors (Text.strip t) (TypeExpr.print e)) elements es) :
    Mirrors ('(' :: (inside ++ [')'])) (TypeExpr.tupleText (es.map TypeExpr.print)) := by
  obtain ⟨inner, hprint, hcore⟩ := exists_tupleText_eq (es.map TypeExpr.print)
  have hle := core_elements_le h hes
  rw [← hcore, Text.core_strip] at hle
  have hends : ∀ t : Text, ('(' :: (t ++ [')'])).getLast? = some ')' := by
    intro t
    rw [← List.cons_append, List.getLast?_concat]
  have hopen : Text.isBlank '(' = false := by decide
  have hclose : Text.isBlank ')' = false := by decide
  rw [hprint]
  refine mirrors_of_mark (by decide) ⟨?_, ?_⟩ ⟨?_, ?_⟩
  · rintro c hc
    cases hc
    exact hopen
  · intro c hc
    rw [hends] at hc
    cases hc
    exact hclose
  · have hmarks : ∀ t : Text, Text.core ('(' :: (t ++ [')'])) = Text.core t + 2 := by
      intro t
      rw [← List.singleton_append, Text.core_append, Text.core_append, Nat.add_comm, Nat.add_assoc]
      rfl
    rw [hmarks, hmarks]
    omega
  · rw [hends, hends]
    rintro (hc | hc) <;> cases hc

/-! ### Paths -/

namespace PathName

variable {n : PathName} {s : Text}

theorem SpelledBy.core_eq (h : n.SpelledBy s) : Text.core n.text = Text.core s :=
  Text.core_eq_of_dense h.dense_eq

theorem SpelledBy.getLast?_ne_comma (h : n.SpelledBy s) : s.getLast? ≠ some ',' := fun hc =>
  absurd (h.isNameChar_of_mem ',' (List.mem_of_getLast? hc)) (by decide)

end PathName

/-- Two writings of one path begin alike. -/
theorem mirrors_of_spelledBy {n : PathName} {name name' tail tail' : Text}
    (hn : n.SpelledBy name) (hn' : n.SpelledBy name') (hs : Text.Trimmed (name ++ tail))
    (hp : Text.Trimmed (name' ++ tail')) (ht : Layer.EndsName tail) (ht' : Layer.EndsName tail')
    (hcovers : Covers (name ++ tail) (name' ++ tail')) :
    Mirrors (name ++ tail) (name' ++ tail') := by
  have hword : ∀ {tail : Text}, Layer.EndsName tail →
      ∀ c, tail.head? = some c → Text.isWord c = false := by
    rintro tail (rfl | ⟨rest, rfl⟩) c hc
    · cases hc
    · cases hc
      decide
  refine ⟨hp, List.append_ne_nil_of_left_ne_nil hn'.ne_nil _, ?_, ?_, fun _ => ?_, hcovers⟩
  · rw [List.head?_append_of_ne_nil _ hn.ne_nil, List.head?_append_of_ne_nil _ hn'.ne_nil,
      hn.head?_eq (hn.head?_not_blank hs), hn'.head?_eq (hn'.head?_not_blank hp)]
  · rw [hn.takeWhile_isWord (hn.head?_not_blank hs) (hword ht),
      hn'.takeWhile_isWord (hn'.head?_not_blank hp) (hword ht')]
  · exact Layer.isBinding_eq_false_of_spelledBy hn' ht'

theorem mirrors_name {n : PathName} {s : Text} (hn : n.SpelledBy s) (hs : Text.Trimmed s) :
    Mirrors s n.text := by
  have hcovers : Covers (s ++ []) (n.text ++ []) := by
    rw [List.append_nil, List.append_nil]
    refine ⟨Nat.le_of_eq hn.core_eq, ?_⟩
    rintro (h | h)
    · exact absurd h n.spelledBy_text.getLast?_ne_comma
    · exact absurd h hn.getLast?_ne_comma
  have hs' : Text.Trimmed (s ++ []) := by rwa [List.append_nil]
  have hp' : Text.Trimmed (n.text ++ []) := by
    rw [List.append_nil]
    exact n.trimmed_text
  have h := mirrors_of_spelledBy hn n.spelledBy_text hs' hp' Layer.endsName_nil Layer.endsName_nil
    hcovers
  rwa [List.append_nil, List.append_nil] at h

/-- A path that goes on behind its generic arguments is mirrored by its collapsed text. -/
theorem mirrors_collapse {n : PathName} {s name tail : Text} (hs : Text.Trimmed s)
    (hsplit : s = name ++ '<' :: tail) (hn : n.SpelledBy name) : Mirrors s (Text.collapse s) := by
  have hp := hs.collapse
  have hcovers : Covers s (Text.collapse s) :=
    ⟨Nat.le_of_eq (Text.core_eq_of_dense (Text.dense_collapse s)),
      fun _ => Text.count_comma_of_dense (Text.dense_collapse s)⟩
  have hsq : Text.collapse s = Text.squeeze false name ++ '<' :: Text.squeeze false tail := by
    rw [hs.collapse_eq, hsplit, Text.squeeze_append (by decide)]
  rw [hsq] at hp hcovers ⊢
  rw [hsplit] at hs hcovers ⊢
  exact mirrors_of_spelledBy hn (hn.squeeze false) hs hp (Layer.endsName_angle _)
    (Layer.endsName_angle _) hcovers

theorem mirrors_arguments {n : PathName} {name inside : Text} {es : List TypeExpr}
    (hs : Text.Trimmed (name ++ '<' :: (inside ++ ['>']))) (hn : n.SpelledBy name)
    (hcore : Text.core ([','].intercalate (es.map TypeExpr.print)) ≤ Text.core inside) :
    Mirrors (name ++ '<' :: (inside ++ ['>']))
      (n.text ++ TypeExpr.argsText (es.map TypeExpr.print)) := by
  have hlast : ∀ t u : Text, (t ++ '<' :: (u ++ ['>'])).getLast? = some '>' := by
    intro t u
    rw [← List.cons_append, ← List.append_assoc, List.getLast?_concat]
  have hmarks : ∀ t u : Text, Text.core (t ++ '<' :: (u ++ ['>']))
      = Text.core t + Text.core u + 2 := by
    intro t u
    rw [← List.singleton_append, Text.core_append, Text.core_append, Text.core_append]
    show Text.core t + (1 + (Text.core u + 1)) = _
    omega
  by_cases hes : es = []
  · have hnone : n.text ++ TypeExpr.argsText (es.map TypeExpr.print) = n.text ++ [] := by
      rw [hes]
      rfl
    rw [hnone]
    refine mirrors_of_spelledBy hn n.spelledBy_text hs ?_ (Layer.endsName_angle _)
      Layer.endsName_nil ⟨?_, ?_⟩
    · rw [List.append_nil]
      exact n.trimmed_text
    · rw [List.append_nil, hmarks, hn.core_eq]
      omega
    · rw [hlast, List.append_nil]
      rintro (h | h)
      · exact absurd h n.spelledBy_text.getLast?_ne_comma
      · cases h
  · have hprints : es.map TypeExpr.print ≠ [] := fun e => hes (List.map_eq_nil_iff.1 e)
    have hsome : n.text ++ TypeExpr.argsText (es.map TypeExpr.print) = (n.text ++ [' '])
        ++ '<' :: (' ' :: (", ".toList.intercalate (es.map TypeExpr.print) ++ [' ']) ++ ['>']) := by
      rw [TypeExpr.argsText_of_ne_nil hprints]
      simp
    rw [hsome]
    refine mirrors_of_spelledBy hn (n.spelledBy_text.append_blank Text.blank_space) hs ⟨?_, ?_⟩
      (Layer.endsName_angle _) (Layer.endsName_angle _) ⟨?_, ?_⟩
    · intro c hc
      rw [List.append_assoc, List.head?_append_of_ne_nil _ n.text_ne_nil] at hc
      exact n.trimmed_text.1 c hc
    · intro c hc
      rw [hlast] at hc
      cases hc
      decide
    · have hspace : Text.core [' '] = 0 := by decide
      have hinner : Text.core (' ' :: (", ".toList.intercalate (es.map TypeExpr.print) ++ [' ']))
          = Text.core ([','].intercalate (es.map TypeExpr.print)) := by
        show Text.core ([' '] ++ (", ".toList.intercalate (es.map TypeExpr.print) ++ [' '])) = _
        rw [Text.core_append, Text.core_append, hspace, Text.core_intercalate (by decide)]
        omega
      rw [hmarks, hmarks, hinner, ← hn.core_eq, Text.core_append, hspace]
      omega
    · rw [hlast, hlast]
      rintro (h | h) <;> cases h

theorem mirrors_ofPath? {s name : Text} {args : List Argument} {selfType : Option Text}
    {es : List TypeExpr} (hs : Text.Trimmed s)
    (h : Layer.ofPath? s = .ok (.path name args selfType))
    (hes : List.Forall₂ (Argument.ReadsWith fun t e => Mirrors (Text.strip t) e.print) args es) :
    Mirrors s (name ++ TypeExpr.argsText (es.map TypeExpr.print)) := by
  rcases Layer.ofPath?_eq_ok h with ⟨_, hl⟩ | ⟨n, hn, hl⟩ |
    ⟨n, nameText, inside, after, hsplit, hn, _, _, hl⟩
  · cases hl
  · cases hl
    cases hes
    show Mirrors s (n.text ++ [])
    rw [List.append_nil]
    exact mirrors_name hn hs
  · unfold Layer.ofArguments at hl
    split at hl
    · rename_i hafter
      cases hl
      have hend : s = (nameText ++ '<' :: (inside ++ ['>'])) ++ after := by
        rw [hsplit]
        simp
      have hnil : after = [] := by
        rw [hend] at hs
        exact Text.eq_nil_of_append_blank hs.2 (Text.isBlankText_iff.1 hafter)
      rw [hnil, List.append_nil] at hend
      rw [hend] at hs ⊢
      exact mirrors_arguments hs hn (core_arguments_le hes)
    · cases hl
      cases hes
      show Mirrors s (Text.collapse s ++ [])
      rw [List.append_nil]
      exact mirrors_collapse hs hsplit hn

theorem mirrors_qualified {s rest name : Text} {args : List Argument} {selfType : Option Text}
    {es : List TypeExpr} (hs : Text.Trimmed ('<' :: rest))
    (h : Layer.ofQualified? s rest = .ok (.path name args selfType))
    (hes : List.Forall₂ (Argument.ReadsWith fun t e => Mirrors (Text.strip t) e.print) args es) :
    Mirrors ('<' :: rest) (TypeExpr.headText name selfType
      ++ TypeExpr.argsText (es.map TypeExpr.print)) := by
  obtain ⟨inside, after, tail, _, _, _, rfl, _, _, hafter, hpath, hl⟩ := Layer.ofQualified?_eq_ok h
  cases hl
  have hp := mirrors_ofPath? (Text.trimmed_strip tail) hpath hes
  have hdense := dense_headText_append (Text.collapse inside) name
    (TypeExpr.argsText (es.map TypeExpr.print))
  have hprint := headText_some_append (Text.collapse inside) name
    (TypeExpr.argsText (es.map TypeExpr.print))
  generalize name ++ TypeExpr.argsText (es.map TypeExpr.print) = q at hp hdense hprint
  rw [Text.dense_collapse] at hdense
  have hparts : '<' :: (' ' :: (Text.collapse inside ++ [' '])
        ++ '>' :: (' ' :: ':' :: ':' :: ' ' :: q))
      = '<' :: (' ' :: (Text.collapse inside ++ " > :: ".toList) ++ q) := by simp
  rw [hprint, hparts] at hdense ⊢
  have hlast : (Text.strip tail).getLast? = ('<' :: (inside ++ '>' :: after)).getLast? := by
    obtain ⟨l, r, _, hr, hsplit⟩ := Text.exists_strip after
    have hall : '<' :: (inside ++ '>' :: after)
        = '<' :: (inside ++ '>' :: (l ++ [':', ':'])) ++ tail ++ r := by
      rw [hafter] at hsplit
      rw [hsplit]
      simp
    exact Text.getLast?_strip_of_append hs hall hr hp.not_blank
  have hplast : ('<' :: ' ' :: (Text.collapse inside ++ " > :: ".toList) ++ q).getLast?
      = q.getLast? := List.getLast?_append_of_ne_nil _ hp.ne_nil
  refine mirrors_of_mark (by decide) (hp.trimmed_append (by decide)) ?_
  exact hp.covers.of_dense_append (dense_qualified hafter inside) hdense hlast.symm hplast

/-- The printed form of an expression mirrors the text that it was read from. -/
theorem mirrors_of_parseType {s : Text} {e : TypeExpr} (h : parseType s = .ok e) :
    Mirrors (Text.strip s) e.print := by
  refine parseType_induct (motive := fun s e => Mirrors (Text.strip s) e.print)
    ?reference ?group ?tuple ?path ?verbatim h
  case reference =>
    intro s t isMutable lifetime e hpeel _ ih
    obtain ⟨rest, hs, hrest⟩ := Layer.ofStripped?_eq_reference hpeel
    have htrim := Text.trimmed_strip s
    rw [hs] at htrim ⊢
    exact mirrors_reference hrest htrim ih
  case group =>
    intro s whole inner hpeel _
    rw [Layer.ofStripped?_eq_group hpeel]
    exact .refl (Text.trimmed_strip s) (ne_nil_of_ofStripped? hpeel)
  case tuple =>
    intro s elements es hpeel hes
    obtain ⟨inside, hs, hl⟩ := Layer.ofStripped?_eq_tuple hpeel
    rw [hs, TypeExpr.print, TypeExpr.printAll_eq_map]
    exact mirrors_tuple hl (hes.imp fun t e he => he.2)
  case path =>
    intro s name args es selfType hpeel hes
    have htrim := Text.trimmed_strip s
    rw [TypeExpr.print, TypeExpr.printAll_eq_map]
    rcases Layer.ofStripped?_eq_path hpeel with ⟨rest, hs, _, hl⟩ | ⟨rfl, _, hl⟩
    · rw [hs] at htrim ⊢
      exact mirrors_qualified htrim hl hes
    · exact mirrors_ofPath? htrim hl hes
  case verbatim =>
    intro s form text hpeel
    rw [Layer.ofStripped?_eq_verbatim hpeel]
    exact .refl (Text.trimmed_strip s) (ne_nil_of_ofStripped? hpeel)

end TypeBridge
