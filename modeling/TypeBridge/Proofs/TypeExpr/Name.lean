import TypeBridge.Proofs.Nesting.Scan
import TypeBridge.Proofs.Text.Ident
import TypeBridge.Proofs.Text.Strip
import TypeBridge.TypeExpr.Path

/-!
The names of paths. A `PathName` is a row of identifiers, perhaps begun by `::`; it is spelled by
every text that puts `::` between its segments, with any blanks around them. Main statement:
`normalizeName` accepts exactly the spellings of path names and gives back the name itself.
-/

namespace TypeBridge

namespace Text

/-! ### Segments -/

theorem segments_cons {c : Char} (hc : c ≠ ':') (s : Text) :
    segments (c :: s) = (segments s).modifyHead (c :: ·) := by
  cases s with
  | nil => rfl
  | cons d s => rw [segments, if_neg fun h => hc h.1]

theorem segments_append : ∀ {piece : Text} (s : Text), ':' ∉ piece →
    segments (piece ++ ':' :: ':' :: s) = piece :: segments s
  | [], _, _ => rfl
  | c :: piece, s, h => by
    obtain ⟨hc, hp⟩ := not_or.1 (fun e => h (List.mem_cons.2 e))
    rw [List.cons_append, segments_cons (Ne.symm hc), segments_append s hp,
      List.modifyHead_cons]

theorem segments_of_not_mem : ∀ {s : Text}, ':' ∉ s → segments s = [s]
  | [], _ => rfl
  | c :: s, h => by
    obtain ⟨hc, hs⟩ := not_or.1 (fun e => h (List.mem_cons.2 e))
    rw [segments_cons (Ne.symm hc), segments_of_not_mem hs, List.modifyHead_cons]

theorem intercalate_colons_cons (piece next : Text) (rest : List Text) :
    [':', ':'].intercalate (piece :: next :: rest)
      = piece ++ ':' :: ':' :: [':', ':'].intercalate (next :: rest) := by
  rw [List.intercalate_cons_cons, List.append_assoc]
  rfl

theorem segments_intercalate : ∀ {pieces : List Text}, pieces ≠ [] →
    (∀ piece ∈ pieces, ':' ∉ piece) → segments ([':', ':'].intercalate pieces) = pieces
  | [], h, _ => absurd rfl h
  | [piece], _, h => by
    rw [List.intercalate_singleton, segments_of_not_mem (h piece (List.mem_singleton.2 rfl))]
  | piece :: next :: rest, _, h => by
    obtain ⟨hp, hr⟩ := List.forall_mem_cons.1 h
    rw [intercalate_colons_cons, segments_append _ hp,
      segments_intercalate (List.cons_ne_nil _ _) hr]

theorem segments_ne_nil : ∀ s : Text, segments s ≠ []
  | [] => List.cons_ne_nil _ _
  | [_] => List.cons_ne_nil _ _
  | c :: d :: s => by
    rw [segments]
    split
    · exact List.cons_ne_nil _ _
    · exact List.modifyHead_eq_nil_iff.not.2 (segments_ne_nil (d :: s))

theorem intercalate_segments : ∀ s : Text, [':', ':'].intercalate (segments s) = s
  | [] => rfl
  | [_] => rfl
  | c :: d :: s => by
    rw [segments]
    split
    · rename_i h
      rw [List.intercalate_cons_of_ne_nil (segments_ne_nil s), intercalate_segments s, h.1, h.2]
      rfl
    · rw [intercalate_modifyHead_cons _ _ (segments_ne_nil _), intercalate_segments (d :: s)]

/-- A text without colons behind another belongs to its last segment. -/
theorem exists_segments_append {r : Text} (hr : ':' ∉ r) : ∀ s : Text,
    ∃ init last, segments s = init ++ [last] ∧ segments (s ++ r) = init ++ [last ++ r]
  | [] => ⟨[], [], rfl, segments_of_not_mem hr⟩
  | [c] => by
    refine ⟨[], [c], rfl, ?_⟩
    cases r with
    | nil => rfl
    | cons d r =>
      have hd : ':' ≠ d := fun e => hr (List.mem_cons.2 (.inl e))
      have hcd : ¬ (c = ':' ∧ d = ':') := fun e => hd e.2.symm
      rw [List.singleton_append, segments, if_neg hcd, segments_of_not_mem hr]
      rfl
  | c :: d :: s => by
    by_cases h : c = ':' ∧ d = ':'
    · obtain ⟨init, last, hs, hsr⟩ := exists_segments_append hr s
      refine ⟨[] :: init, last, ?_, ?_⟩
      · rw [segments, if_pos h, hs, List.cons_append]
      · rw [List.cons_append, List.cons_append, segments, if_pos h, hsr, List.cons_append]
    · obtain ⟨init, last, hs, hsr⟩ := exists_segments_append hr (d :: s)
      rw [List.cons_append] at hsr
      rw [List.cons_append, List.cons_append, segments, segments, if_neg h, if_neg h, hs, hsr]
      cases init with
      | nil => exact ⟨[], c :: last, rfl, rfl⟩
      | cons piece init => exact ⟨(c :: piece) :: init, last, rfl, rfl⟩

theorem colon_not_mem_of_blank {s : Text} (h : Blank s) : ':' ∉ s := fun hc =>
  absurd (h ':' hc) (by decide)

theorem map_strip_segments_blank_append : ∀ {blanks : Text} (s : Text), Blank blanks →
    (segments (blanks ++ s)).map strip = (segments s).map strip
  | [], _, _ => rfl
  | c :: blanks, s, h => by
    have ih := map_strip_segments_blank_append s (blank_cons_iff.1 h).2
    have hc : c ≠ ':' := fun e => colon_not_mem_of_blank h (List.mem_cons.2 (.inl e.symm))
    have hb : Blank [c] := blank_cons_iff.2 ⟨(blank_cons_iff.1 h).1, blank_nil⟩
    rw [List.cons_append, segments_cons hc, ← ih]
    cases hs : segments (blanks ++ s) with
    | nil => exact absurd hs (segments_ne_nil _)
    | cons piece rest =>
      have hp : strip (c :: piece) = strip piece := by
        simpa using strip_append hb blank_nil piece
      rw [List.modifyHead_cons, List.map_cons, List.map_cons, hp]

theorem map_strip_segments_append_blank {blanks : Text} (s : Text) (h : Blank blanks) :
    (segments (s ++ blanks)).map strip = (segments s).map strip := by
  obtain ⟨init, last, hs, hsb⟩ := exists_segments_append (colon_not_mem_of_blank h) s
  have hl : strip (last ++ blanks) = strip last := by
    simpa using strip_append blank_nil h last
  rw [hs, hsb, List.map_append, List.map_append, List.map_singleton, List.map_singleton, hl]

theorem map_strip_segments_strip (s : Text) :
    (segments (strip s)).map strip = (segments s).map strip := by
  obtain ⟨l, r, hl, hr, hs⟩ := exists_strip s
  rw [hs, map_strip_segments_append_blank _ hr, map_strip_segments_blank_append _ hl, ← hs]

end Text

/-- A character that can stand in a path, or between its segments. -/
def isNameChar (c : Char) : Bool := Text.isIdentChar c || c == ':' || Text.isBlank c

/-! ### Path names -/

/-- A path as its identifiers, with a flag for `::` in front. -/
structure PathName where
  isRooted : Bool
  first : Text
  rest : List Text
  isIdent_of_mem : ∀ segment ∈ first :: rest, Text.isIdent segment = true

namespace PathName

/-- The texts between the `::` of a path; that of a rooted path begins with an empty one. -/
def segments (n : PathName) : List Text :=
  if n.isRooted then [] :: n.first :: n.rest else n.first :: n.rest

/-- The path in writing. -/
def text (n : PathName) : Text := [':', ':'].intercalate n.segments

/-- What the path begins with in writing: its `::`, or its first segment. -/
def lead (n : PathName) : Text := if n.isRooted then [':', ':'] else n.first

/-- Whether a character can be the first of a path in writing. -/
def isLeadChar (c : Char) : Bool := Text.isIdentStart c || c == ':'

/-- Whether a text is the path with blanks around its segments. -/
def SpelledBy (n : PathName) (s : Text) : Prop :=
  ∃ pieces, s = [':', ':'].intercalate pieces ∧ pieces.map Text.strip = n.segments

theorem segments_ne_nil (n : PathName) : n.segments ≠ [] := by
  unfold segments
  split <;> exact List.cons_ne_nil _ _

theorem eq_nil_or_isIdent_of_mem {n : PathName} {segment : Text} (h : segment ∈ n.segments) :
    segment = [] ∨ Text.isIdent segment = true := by
  unfold segments at h
  split at h
  · rcases List.mem_cons.1 h with rfl | h
    · exact .inl rfl
    · exact .inr (n.isIdent_of_mem segment h)
  · exact .inr (n.isIdent_of_mem segment h)

theorem isName_segments (n : PathName) : Text.isName n.segments = true := by
  have hall : (n.first :: n.rest).all Text.isIdent = true :=
    List.all_eq_true.2 n.isIdent_of_mem
  unfold segments
  split
  · exact hall
  · cases hf : n.first with
    | nil => exact absurd hf (Text.isIdent_ne_nil (n.isIdent_of_mem _ (by simp)))
    | cons c s =>
      rw [hf] at hall
      exact hall

theorem exists_of_isName {names : List Text} (hne : names ≠ []) (h : Text.isName names = true) :
    ∃ n : PathName, n.segments = names := by
  rcases names with _ | ⟨first, rest⟩
  · exact absurd rfl hne
  cases first with
  | nil =>
    cases rest with
    | nil => cases h
    | cons segment rest => exact ⟨⟨true, segment, rest, List.all_eq_true.1 h⟩, rfl⟩
  | cons c s => exact ⟨⟨false, c :: s, rest, List.all_eq_true.1 h⟩, rfl⟩

theorem trimmed_of_mem {n : PathName} {segment : Text} (h : segment ∈ n.segments) :
    Text.Trimmed segment := by
  rcases eq_nil_or_isIdent_of_mem h with rfl | h
  · exact Text.trimmed_nil
  · have hblank := fun c hc =>
      Text.isBlank_eq_false_of_isIdentChar (Text.isIdentChar_of_mem_isIdent h c hc)
    exact ⟨fun c hc => hblank c (List.mem_of_mem_head? hc),
      fun c hc => hblank c (List.mem_of_getLast? hc)⟩

theorem colon_not_mem_of_mem {n : PathName} {segment : Text} (h : segment ∈ n.segments) :
    ':' ∉ segment := by
  rcases eq_nil_or_isIdent_of_mem h with rfl | h
  · exact List.not_mem_nil
  · exact fun hc => absurd (Text.isIdentChar_of_mem_isIdent h ':' hc) (by decide)

theorem segments_injective {n m : PathName} (h : n.segments = m.segments) : n = m := by
  obtain ⟨r, first, rest, hn⟩ := n
  obtain ⟨r', first', rest', hm⟩ := m
  have hne := Text.isIdent_ne_nil (hn first List.mem_cons_self)
  have hne' := Text.isIdent_ne_nil (hm first' List.mem_cons_self)
  cases r <;> cases r' <;> simp_all [segments]

/-- A path can be read off its text. -/
theorem text_injective {n m : PathName} (h : n.text = m.text) : n = m := by
  refine segments_injective ?_
  have hn := Text.segments_intercalate n.segments_ne_nil fun _ => colon_not_mem_of_mem
  have hm := Text.segments_intercalate m.segments_ne_nil fun _ => colon_not_mem_of_mem
  rw [← hn, ← hm]
  exact congrArg Text.segments h

/-- A path is a spelling of itself. -/
theorem spelledBy_text (n : PathName) : n.SpelledBy n.text := by
  refine ⟨n.segments, rfl, ?_⟩
  have h := List.map_congr_left fun segment hs => (trimmed_of_mem (n := n) hs).strip_eq
  rw [h, List.map_id']

theorem SpelledBy.colon_not_mem {n : PathName} {pieces : List Text}
    (h : pieces.map Text.strip = n.segments) : ∀ piece ∈ pieces, ':' ∉ piece := by
  intro piece hp hc
  have hm : Text.strip piece ∈ n.segments := h ▸ List.mem_map_of_mem hp
  have hstrip : ':' ∈ Text.strip piece := by
    obtain ⟨l, r, hl, hr, hs⟩ := Text.exists_strip piece
    rw [hs, List.mem_append, List.mem_append] at hc
    rcases hc with (hc | hc) | hc
    · exact absurd hc (Text.colon_not_mem_of_blank hl)
    · exact hc
    · exact absurd hc (Text.colon_not_mem_of_blank hr)
  rcases eq_nil_or_isIdent_of_mem hm with hnil | hident
  · rw [hnil] at hstrip
    cases hstrip
  · exact absurd (Text.isIdentChar_of_mem_isIdent hident ':' hstrip) (by decide)

theorem spelledBy_iff {n : PathName} {s : Text} :
    n.SpelledBy s ↔ (Text.segments s).map Text.strip = n.segments := by
  constructor
  · rintro ⟨pieces, rfl, hp⟩
    have hne : pieces ≠ [] := by
      rintro rfl
      exact n.segments_ne_nil hp.symm
    rw [Text.segments_intercalate hne (SpelledBy.colon_not_mem hp), hp]
  · intro h
    exact ⟨Text.segments s, (Text.intercalate_segments s).symm, h⟩

theorem SpelledBy.append_blank {n : PathName} {s blanks : Text} (h : n.SpelledBy s)
    (hb : Text.Blank blanks) : n.SpelledBy (s ++ blanks) := by
  rw [spelledBy_iff] at h ⊢
  rw [Text.map_strip_segments_append_blank s hb, h]

theorem isIdentChar_or_eq_of_mem_text {n : PathName} {c : Char} (h : c ∈ n.text) :
    Text.isIdentChar c = true ∨ c = ':' := by
  rcases Text.mem_intercalate h with hc | ⟨segment, hs, hc⟩
  · exact .inr (by simpa using hc)
  · rcases eq_nil_or_isIdent_of_mem hs with rfl | hident
    · cases hc
    · exact .inl (Text.isIdentChar_of_mem_isIdent hident c hc)

theorem not_mem_text {n : PathName} {c : Char} (hc : Text.isIdentChar c = false)
    (hcolon : c ≠ ':') : c ∉ n.text := by
  intro h
  rcases isIdentChar_or_eq_of_mem_text h with h | h
  · rw [h] at hc
    exact absurd hc (by decide)
  · exact hcolon h

theorem trimmed_text (n : PathName) : Text.Trimmed n.text := by
  have hblank : ∀ c ∈ n.text, Text.isBlank c = false := by
    intro c hc
    rcases isIdentChar_or_eq_of_mem_text hc with h | rfl
    · exact Text.isBlank_eq_false_of_isIdentChar h
    · decide
  exact ⟨fun c hc => hblank c (List.mem_of_mem_head? hc),
    fun c hc => hblank c (List.mem_of_getLast? hc)⟩

theorem SpelledBy.isNameChar_of_mem {n : PathName} {s : Text} (h : n.SpelledBy s) :
    ∀ c ∈ s, isNameChar c = true := by
  obtain ⟨pieces, rfl, hp⟩ := h
  intro c hc
  have hblank : ∀ blanks, Text.Blank blanks → c ∈ blanks → isNameChar c = true := by
    intro blanks hb hcb
    rw [isNameChar, hb c hcb, Bool.or_true]
  rcases Text.mem_intercalate hc with hc | ⟨piece, hpiece, hc⟩
  · have hcolon : c = ':' := by simpa using hc
    rw [hcolon]
    decide
  · obtain ⟨l, r, hl, hr, hs⟩ := Text.exists_strip piece
    have hm : Text.strip piece ∈ n.segments := hp ▸ List.mem_map_of_mem hpiece
    rw [hs, List.mem_append, List.mem_append] at hc
    rcases hc with (hc | hc) | hc
    · exact hblank l hl hc
    · rcases eq_nil_or_isIdent_of_mem hm with hnil | hident
      · rw [hnil] at hc
        cases hc
      · rw [isNameChar, Text.isIdentChar_of_mem_isIdent hident c hc]
        rfl
    · exact hblank r hr hc

theorem SpelledBy.quiet {n : PathName} {s : Text} (h : n.SpelledBy s) : Quiet s :=
  quiet_of_forall (by decide) h.isNameChar_of_mem

theorem SpelledBy.lastOr_ne {n : PathName} {s : Text} (h : n.SpelledBy s) :
    lastOr none s ≠ some '-' := by
  refine lastOr_ne_of_getLast? (fun hl => ?_) nofun
  exact absurd (h.isNameChar_of_mem '-' (List.mem_of_getLast? hl)) (by decide)

/-- A spelling without blanks in front begins like the path itself. -/
theorem SpelledBy.exists_rest {n : PathName} {s : Text} (h : n.SpelledBy s)
    (hs : ∀ c, s.head? = some c → Text.isBlank c = false) :
    ∃ rest, s = n.lead ++ rest ∧
      (n.isRooted = false → ∀ c, rest.head? = some c → Text.isBlank c = true ∨ c = ':') := by
  have hnil : ∀ {blanks t : Text}, Text.Blank blanks → s = blanks ++ t → blanks = [] := by
    rintro (_ | ⟨c, blanks⟩) t hb rfl
    · rfl
    · have hc := hs c rfl
      rw [(Text.blank_cons_iff.1 hb).1] at hc
      exact absurd hc (by decide)
  obtain ⟨pieces, hj, hp⟩ := h
  rcases pieces with _ | ⟨piece, pieces⟩
  · exact absurd hp.symm n.segments_ne_nil
  obtain ⟨l, r, hl, hr, hpiece⟩ := Text.exists_strip piece
  rw [Text.intercalate_cons, hpiece, List.append_assoc, List.append_assoc] at hj
  rw [hnil hl hj, List.nil_append] at hj
  rw [List.map_cons] at hp
  unfold segments at hp
  unfold lead
  cases hroot : n.isRooted with
  | true =>
    rw [hroot, if_pos rfl] at hp
    obtain ⟨hfirst, htail⟩ := List.cons.inj hp
    have hne : pieces ≠ [] := by
      rintro rfl
      cases htail
    rw [hfirst, List.nil_append] at hj
    rw [hnil hr hj, List.nil_append, if_neg hne] at hj
    exact ⟨_, hj, nofun⟩
  | false =>
    rw [hroot, if_neg Bool.false_ne_true] at hp
    rw [(List.cons.inj hp).1] at hj
    refine ⟨_, hj, fun _ c hc => ?_⟩
    cases r with
    | cons d r =>
      cases hc
      exact .inl (Text.blank_cons_iff.1 hr).1
    | nil =>
      split at hc <;> cases hc
      exact .inr rfl

theorem exists_lead_eq_cons (n : PathName) :
    ∃ c rest, n.lead = c :: rest ∧ isLeadChar c = true := by
  unfold lead
  split
  · exact ⟨':', [':'], rfl, rfl⟩
  · have hident := n.isIdent_of_mem n.first List.mem_cons_self
    cases hf : n.first with
    | nil => exact absurd hf (Text.isIdent_ne_nil hident)
    | cons c s =>
      rw [hf] at hident
      exact ⟨c, s, rfl, by rw [isLeadChar, (Text.isIdent_cons_iff.1 hident).1, Bool.true_or]⟩

theorem isLeadChar_eq_false_of_isDigit {c : Char} (h : c.isDigit = true) :
    isLeadChar c = false := by
  have hd : (decide (c.val ≥ '0'.val) && decide (c.val ≤ '9'.val)) = true := h
  simp only [Bool.and_eq_true, decide_eq_true_eq] at hd
  have hlow : 48 ≤ c.toNat := UInt32.le_iff_toNat_le.1 hd.1
  have hhigh : c.toNat ≤ 57 := UInt32.le_iff_toNat_le.1 hd.2
  have hdigits : ∀ k < 10, isLeadChar (Char.ofNat (48 + k)) = false := by decide
  have hc := hdigits (c.toNat - 48) (by omega)
  rwa [Nat.add_sub_cancel' hlow, Char.ofNat_toNat] at hc

theorem SpelledBy.exists_cons {n : PathName} {s : Text} (h : n.SpelledBy s)
    (hs : ∀ c, s.head? = some c → Text.isBlank c = false) :
    ∃ c rest, s = c :: rest ∧ isLeadChar c = true := by
  obtain ⟨rest, hrest, _⟩ := h.exists_rest hs
  obtain ⟨c, lead, hl, hc⟩ := n.exists_lead_eq_cons
  exact ⟨c, lead ++ rest, by rw [hrest, hl, List.cons_append], hc⟩

theorem SpelledBy.ne_nil {n : PathName} {s : Text} (h : n.SpelledBy s) : s ≠ [] := by
  rintro rfl
  obtain ⟨c, rest, hs, _⟩ := h.exists_cons nofun
  cases hs

/-- A name that begins a text without blanks at its ends does not begin with one. -/
theorem SpelledBy.head?_not_blank {n : PathName} {name tail : Text} (h : n.SpelledBy name)
    (ht : Text.Trimmed (name ++ tail)) : ∀ c, name.head? = some c → Text.isBlank c = false := by
  intro c hc
  refine ht.1 c ?_
  rwa [List.head?_append_of_ne_nil _ h.ne_nil]

theorem text_ne_nil (n : PathName) : n.text ≠ [] := by
  obtain ⟨c, rest, h, _⟩ := n.spelledBy_text.exists_cons n.trimmed_text.1
  rw [h]
  exact List.cons_ne_nil c rest

theorem lead_ne_nil (n : PathName) : n.lead ≠ [] := by
  obtain ⟨c, rest, h, _⟩ := n.exists_lead_eq_cons
  rw [h]
  exact List.cons_ne_nil c rest

/-- All spellings of a path begin with the same character. -/
theorem SpelledBy.head?_eq {n : PathName} {s : Text} (h : n.SpelledBy s)
    (hs : ∀ c, s.head? = some c → Text.isBlank c = false) : s.head? = n.lead.head? := by
  obtain ⟨rest, hrest, _⟩ := h.exists_rest hs
  rw [hrest, List.head?_append_of_ne_nil _ n.lead_ne_nil]

/-- All spellings of a path, whatever follows them, begin with the same word. -/
theorem SpelledBy.takeWhile_isWord {n : PathName} {s tail : Text} (h : n.SpelledBy s)
    (hs : ∀ c, s.head? = some c → Text.isBlank c = false)
    (ht : ∀ c, tail.head? = some c → Text.isWord c = false) :
    (s ++ tail).takeWhile Text.isWord = n.lead.takeWhile Text.isWord := by
  obtain ⟨rest, rfl, hrest⟩ := h.exists_rest hs
  rw [List.append_assoc]
  unfold lead
  split
  · rfl
  · rename_i hroot
    rw [Bool.not_eq_true] at hroot
    have hfirst : ∀ c ∈ n.first, Text.isWord c = true := fun c hc =>
      Text.isWord_of_isIdentChar
        (Text.isIdentChar_of_mem_isIdent (n.isIdent_of_mem _ List.mem_cons_self) c hc)
    have hnext : ∀ c, (rest ++ tail).head? = some c → Text.isWord c = false := by
      intro c hc
      cases rest with
      | nil => exact ht c hc
      | cons d rest =>
        cases hc
        rcases hrest hroot c rfl with hb | rfl
        · exact Text.isWord_eq_false_of_isBlank hb
        · decide
    have hself : n.first.takeWhile Text.isWord = n.first :=
      List.takeWhile_eq_self_iff.2 hfirst
    rw [Text.takeWhile_append_of_head hfirst hnext, hself]

end PathName

theorem normalizeName_eq (s : Text) :
    normalizeName s = if Text.isName ((Text.segments s).map Text.strip)
      then .ok ([':', ':'].intercalate ((Text.segments s).map Text.strip))
      else .error ⟨s, .notAPath⟩ := by
  rw [normalizeName, Text.map_strip_segments_strip]

/-- The texts that are names are the spellings of the path names. -/
theorem normalizeName_eq_ok_iff {s name : Text} :
    normalizeName s = .ok name ↔ ∃ n : PathName, n.SpelledBy s ∧ name = n.text := by
  rw [normalizeName_eq]
  constructor
  · intro h
    split at h
    · rename_i hn
      cases h
      have hne : (Text.segments s).map Text.strip ≠ [] := by
        rw [Ne, List.map_eq_nil_iff]
        exact Text.segments_ne_nil s
      obtain ⟨n, hsegments⟩ := PathName.exists_of_isName hne hn
      refine ⟨n, PathName.spelledBy_iff.2 hsegments.symm, ?_⟩
      rw [PathName.text, hsegments]
    · cases h
  · rintro ⟨n, hn, rfl⟩
    rw [PathName.spelledBy_iff.1 hn, if_pos n.isName_segments]
    rfl

end TypeBridge
