import Mathlib.Data.List.Chain
import TypeBridge.Proofs.Nesting.Enclosed
import TypeBridge.Proofs.Wrapper.Captured

/-!
Canonical text: well-nested text on one line, spaced as printed text is. A wrapper in it closes with
a ` >` of its own, so its capture holds all of its list, and the balanced start of the capture ends
just where the list does. Main statement: the arguments of a wrapper that is recognized in canonical
text are canonical.
-/

namespace TypeBridge

/-! ### Spacing -/

/-- Whether `b` can stand directly behind `a`: a closing `>` has a space before it, and a dash has
neither a blank nor a comma behind it. -/
def SpacedPair (a b : Char) : Prop :=
  (b = '>' → a = ' ' ∨ a = '-') ∧ (a = '-' → Text.isBlank b = false ∧ b ≠ ',')

instance (a b : Char) : Decidable (SpacedPair a b) := inferInstanceAs (Decidable (_ ∧ _))

/-- Whether each `>` of a text has a space before it, unless it ends an arrow, and each dash has
something behind it that is neither a blank nor a comma. -/
structure Spaced (s : Text) : Prop where
  isChain : s.IsChain SpacedPair
  getLast?_ne : s.getLast? ≠ some '-'

instance (s : Text) : Decidable (Spaced s) :=
  decidable_of_iff (s.IsChain SpacedPair ∧ s.getLast? ≠ some '-')
    ⟨fun h => ⟨h.1, h.2⟩, fun h => ⟨h.isChain, h.getLast?_ne⟩⟩

theorem spaced_nil : Spaced [] := ⟨.nil, nofun⟩

/-- A part of spaced text is spaced if a blank or a comma follows it. -/
theorem Spaced.of_append {pre s post : Text} (h : Spaced (pre ++ s ++ post))
    (hpost : ∀ c ∈ post.head?, Text.isBlank c = true ∨ c = ',') : Spaced s := by
  have hs : (s ++ post).IsChain SpacedPair :=
    h.isChain.suffix ⟨pre, (List.append_assoc pre s post).symm⟩
  obtain ⟨hchain, _, hpair⟩ := List.isChain_append.1 hs
  refine ⟨hchain, fun hlast => ?_⟩
  cases post with
  | nil =>
    have hne : s ≠ [] := by
      rintro rfl
      cases hlast
    apply h.getLast?_ne
    rw [List.append_nil, List.getLast?_append_of_ne_nil _ hne, hlast]
  | cons c post =>
    obtain ⟨hblank, hcomma⟩ := (hpair '-' hlast c rfl).2 rfl
    rcases hpost c rfl with hc | hc
    · rw [hblank] at hc
      cases hc
    · exact hcomma hc

theorem Spaced.concat_space {s : Text} (h : Spaced s) : Spaced (s ++ [' ']) := by
  refine ⟨List.isChain_append.2 ⟨h.isChain, .singleton _, ?_⟩, by simp⟩
  rintro a ha b hb
  cases hb
  refine ⟨nofun, ?_⟩
  rintro rfl
  exact absurd ha h.getLast?_ne

/-- What stands before a closer of spaced text ends with a space. -/
theorem Spaced.exists_eq_concat {pre inside post : Text} {before : Option Char}
    (h : Spaced (pre ++ inside ++ '>' :: post)) (hne : inside ≠ [])
    (ha : isArrowHead (lastOr before inside) '>' = false) :
    ∃ content, inside = content ++ [' '] := by
  obtain ⟨content, c, rfl⟩ := (List.eq_nil_or_concat' inside).resolve_left hne
  have hlast : (pre ++ (content ++ [c])).getLast? = some c := by
    rw [← List.append_assoc, List.getLast?_concat]
  have hpair : SpacedPair c '>' := (List.isChain_append.1 h.isChain).2.2 c hlast '>' rfl
  rcases hpair.1 rfl with rfl | rfl
  · exact ⟨content, rfl⟩
  · rw [lastOr_concat] at ha
    cases ha

/-! ### Canonical text -/

/-- Whether a text nests properly, stands on one line and is spaced as printed text is. It cannot
begin with `>`, since no opener stands before that. -/
structure Canonical (s : Text) : Prop where
  wellNested : WellNested s
  newline_not_mem : '\n' ∉ s
  spaced : Spaced s

instance (s : Text) : Decidable (Canonical s) :=
  decidable_of_iff (WellNested s ∧ '\n' ∉ s ∧ Spaced s)
    ⟨fun h => ⟨h.1, h.2.1, h.2.2⟩, fun h => ⟨h.wellNested, h.newline_not_mem, h.spaced⟩⟩

namespace Canonical

theorem nil : Canonical [] := ⟨wellNested_nil, List.not_mem_nil, spaced_nil⟩

/-- A well-nested part of canonical text is canonical if a blank or a comma follows it. -/
theorem of_append {pre s post : Text} (h : Canonical (pre ++ s ++ post)) (hs : WellNested s)
    (hpost : ∀ c ∈ post.head?, Text.isBlank c = true ∨ c = ',') : Canonical s := by
  refine ⟨hs, fun hn => h.newline_not_mem ?_, h.spaced.of_append hpost⟩
  exact List.mem_append_left post (List.mem_append_right pre hn)

theorem concat_space {s : Text} (h : Canonical s) : Canonical (s ++ [' ']) := by
  refine ⟨h.wellNested.append rfl, ?_, h.spaced.concat_space⟩
  simpa using h.newline_not_mem

theorem strip {s : Text} (h : Canonical s) : Canonical (Text.strip s) := by
  obtain ⟨l, r, _, hr, hs⟩ := Text.exists_strip s
  rw [hs] at h
  exact h.of_append (wellNested_strip_iff.2 (hs ▸ h.wellNested)) fun c hc =>
    .inl (hr c (List.mem_of_mem_head? hc))

end Canonical

/-! ### Lists -/

theorem Text.exists_intercalate_eq (separator : Text) {t : Text} {texts : List Text}
    (h : t ∈ texts) :
    ∃ pre post, separator.intercalate texts = pre ++ t ++ post ∧
      (post = [] ∨ ∃ rest, post = separator ++ rest) := by
  induction texts with
  | nil => cases h
  | cons s texts ih =>
    rw [intercalate_cons]
    rcases List.mem_cons.1 h with rfl | h
    · refine ⟨[], _, rfl, ?_⟩
      split
      · exact .inl rfl
      · exact .inr ⟨_, rfl⟩
    · obtain ⟨pre, post, hjoin, hpost⟩ := ih h
      refine ⟨s ++ separator ++ pre, post, ?_, hpost⟩
      rw [if_neg (List.ne_nil_of_mem h), hjoin]
      simp

theorem Canonical.of_mem_splitPieces {s piece : Text} (h : Canonical s)
    (hp : piece ∈ splitPieces s) : Canonical piece := by
  obtain ⟨pre, post, hjoin, hpost⟩ := Text.exists_intercalate_eq [','] (mem_of_mem_dropEmptyEnd hp)
  rw [intercalate_piecesFrom] at hjoin
  have hnested : WellNested piece := wellNested_iff_splitPieces.1 h.wellNested piece hp
  rw [hjoin] at h
  refine h.of_append hnested fun c hc => ?_
  rcases hpost with rfl | ⟨rest, rfl⟩
  · cases hc
  · cases hc
    exact .inr rfl

theorem canonical_of_mem_splitArguments {s argument : Text} (h : Canonical (balancedStart s))
    (ha : argument ∈ splitArguments s) : Canonical argument := by
  obtain ⟨piece, hp, rfl⟩ := List.mem_map.1 (List.mem_filter.1 ha).1
  exact (h.of_mem_splitPieces hp).strip

/-! ### Captures -/

theorem Wrapper.openAfter?_opening (wrapper : Wrapper) (before : Option Char)
    (stack : List Bracket) : openAfter? before stack wrapper.opening = some (.angle :: stack) := by
  cases wrapper <;> rfl

theorem Wrapper.lastOr_opening (wrapper : Wrapper) (before : Option Char) :
    lastOr before wrapper.opening = some ' ' := by
  cases wrapper <;> rfl

/-- Of two texts before a closing bracket, the longer one goes on with the bracket behind the
other. -/
theorem exists_behind {captured content post after : Text}
    (h : captured ++ ' ' :: '>' :: post = content ++ ' ' :: '>' :: after)
    (hle : content.length ≤ captured.length) :
    ∃ behind, captured = content ++ behind ∧ ClosesList behind := by
  rcases List.append_eq_append_iff.1 h with ⟨behind, rfl, hbehind⟩ | ⟨behind, rfl, hbehind⟩
  · obtain rfl : behind = [] := by
      rw [List.length_append] at hle
      exact List.eq_nil_of_length_eq_zero (by omega)
    exact ⟨[], by rw [List.append_nil, List.append_nil], .inl rfl⟩
  · refine ⟨behind, rfl, ?_⟩
    match behind, hbehind with
    | [], _ => exact .inl rfl
    | [_], hb =>
      obtain ⟨_, hb⟩ := List.cons.inj hb
      cases hb
    | c :: d :: rest, hb =>
      obtain ⟨hc, hb⟩ := List.cons.inj hb
      obtain ⟨hd, _⟩ := List.cons.inj hb
      exact .inr ⟨rest, by rw [← hc, ← hd]⟩

namespace Wrapper

variable {wrapper : Wrapper} {pre captured post text : Text}

/-- The bracket that a wrapper opens in well-nested text is closed in what follows it. -/
theorem Surrounds.exists_closer (hs : wrapper.Surrounds pre captured post text)
    (ht : WellNested text) :
    ∃ inside after, captured ++ ' ' :: '>' :: post = inside ++ '>' :: after ∧
      openAfter? (some ' ') [] inside = some [] ∧
        isArrowHead (lastOr (some ' ') inside) '>' = false := by
  have hnested : openAfter? none [] text = some [] := ht
  rw [hs.text_eq, openAfter?_append] at hnested
  obtain ⟨stack, _, hnested⟩ := Option.bind_eq_some_iff.1 hnested
  rw [openAfter?_append, wrapper.openAfter?_opening, wrapper.lastOr_opening] at hnested
  have hopen : openAfter? (some ' ') ([] ++ .angle :: stack) (captured ++ ' ' :: '>' :: post)
      = some [] := hnested
  exact Bracket.exists_closer hopen

/-- In canonical text, the bracket that a wrapper opens is closed at once, or by a ` >` behind
canonical text. -/
theorem Surrounds.closed_or_exists_content (hs : wrapper.Surrounds pre captured post text)
    (ht : Canonical text) : (∃ after, captured ++ ' ' :: '>' :: post = '>' :: after) ∨
      ∃ content after, captured ++ ' ' :: '>' :: post = content ++ ' ' :: '>' :: after ∧
        Canonical content := by
  obtain ⟨inside, after, hinside, hopen, harrow⟩ := hs.exists_closer ht.wellNested
  by_cases hne : inside = []
  · exact .inl ⟨after, by rw [hinside, hne, List.nil_append]⟩
  have htext : text = pre ++ wrapper.opening ++ inside ++ '>' :: after := by
    rw [hs.text_eq, hinside, List.append_assoc, List.append_assoc]
  rw [htext] at ht
  obtain ⟨content, rfl⟩ := ht.spaced.exists_eq_concat hne harrow
  have hcontent : WellNested content := by
    rw [openAfter?_of_ne (by decide)] at hopen
    exact wellNested_concat_space_iff.1 hopen
  rw [← List.append_assoc, List.append_assoc, List.singleton_append] at ht
  refine .inr ⟨content, after, by rw [hinside]; simp, ht.of_append hcontent fun c hc => ?_⟩
  cases hc
  exact .inl (by decide)

/-- What is taken of a capture in canonical text is canonical. -/
theorem Captures.canonical (h : wrapper.Captures text captured) (ht : Canonical text) :
    Canonical (balancedStart captured) := by
  obtain ⟨pre, post, hs, _, _, hmax⟩ := h.exists_surrounds
  rcases hs.closed_or_exists_content ht with ⟨after, hclosed⟩ | ⟨content, after, hcontent, hc⟩
  · cases captured with
    | nil => cases hclosed
    | cons c captured =>
      obtain ⟨rfl, _⟩ := List.cons.inj hclosed
      exact .nil
  · -- The capture is the longest, so it holds all of the list, and its balanced start no more.
    have hle : content.length ≤ captured.length :=
      hmax content after ⟨by rw [hs.text_eq, hcontent], hc.newline_not_mem⟩
    obtain ⟨behind, rfl, hbehind⟩ := exists_behind hcontent hle
    have hstart : balancedStart (content ++ behind)
        = content ++ balancedFrom (lastOr none content) 0 behind :=
      balancedFrom_append behind hc.wellNested
    rw [hstart]
    rcases hbehind with rfl | ⟨rest, rfl⟩
    · rw [balancedFrom, List.append_nil]
      exact hc
    · exact hc.concat_space

end Wrapper

/-- The arguments of a wrapper in canonical text are canonical. -/
theorem canonical_of_mem_args {text argument : Text} {w : Wrapped Text} (ht : Canonical text)
    (h : (recognize text).value = some w) (ha : argument ∈ w.args) : Canonical argument := by
  obtain ⟨captured, hcapture, _, hargs⟩ := fits_of_recognize h
  rw [hargs] at ha
  exact canonical_of_mem_splitArguments (hcapture.canonical ht) (List.mem_of_mem_take ha)

end TypeBridge
