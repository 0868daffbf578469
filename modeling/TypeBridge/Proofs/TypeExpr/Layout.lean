import TypeBridge.Proofs.Nesting.Scan
import TypeBridge.Proofs.Text.Ident

/-!
Tokens with blanks between them. A text lays out a row of tokens if it writes them in order with any
blanks before, between and behind them, and some blank between two words. Main statements: a text
that lays out two rows one after the other is a text of the one before a text of the other; and a
scan that passes over blanks does to the text what it does to the tokens.
-/

namespace TypeBridge

/-- Whether a token is a word: a lifetime, a keyword, an identifier or a number. -/
def isWordToken : Text → Bool
  | [] => false
  | c :: _ => c == '\'' || Text.isWord c

theorem isWordToken_cons_eq_false_iff {c : Char} {s : Text} :
    isWordToken (c :: s) = false ↔ c ≠ '\'' ∧ Text.isWord c = false := by
  rw [isWordToken, Bool.or_eq_false_iff, beq_eq_false_iff_ne]

/-- Whether a text writes tokens in order, with blanks wherever two words meet and perhaps
elsewhere. -/
def LaidOut : List Text → Text → Prop
  | [], s => Text.Blank s
  | token :: tokens, s => ∃ gap rest, Text.Blank gap ∧ s = gap ++ (token ++ rest) ∧
      LaidOut tokens rest ∧
      (isWordToken token = true → (∃ next ∈ tokens.head?, isWordToken next = true) →
        ∃ c ∈ rest.head?, Text.isBlank c = true)

/-- The shape of every token of a type: it holds no blank and no `=`, and does not end like the tail
of an arrow. -/
structure IsToken (token : Text) : Prop where
  ne_nil : token ≠ []
  not_blank : ∀ c ∈ token, Text.isBlank c = false
  not_binding : '=' ∉ token
  not_arrow : token.getLast? ≠ some '-'

theorem IsToken.trimmed {token : Text} (h : IsToken token) : Text.Trimmed token :=
  ⟨fun c hc => h.not_blank c (List.mem_of_mem_head? hc),
    fun c hc => h.not_blank c (List.mem_of_getLast? hc)⟩

namespace LaidOut

variable {tokens others : List Text} {token s t : Text}

theorem blank_append {blanks : Text} (hb : Text.Blank blanks) (h : LaidOut tokens s) :
    LaidOut tokens (blanks ++ s) := by
  cases tokens with
  | nil => exact Text.blank_append_iff.2 ⟨hb, h⟩
  | cons token tokens =>
    obtain ⟨gap, rest, hg, rfl, hr, hw⟩ := h
    refine ⟨blanks ++ gap, rest, Text.blank_append_iff.2 ⟨hb, hg⟩, ?_, hr, hw⟩
    rw [List.append_assoc]

/-- Tokens behind which no word follows directly can be put before others. -/
theorem append : ∀ {tokens : List Text} {s : Text}, LaidOut tokens s → LaidOut others t →
    (∀ next ∈ others.head?, isWordToken next = false) → LaidOut (tokens ++ others) (s ++ t)
  | [], _, hs, ht, _ => ht.blank_append hs
  | token :: tokens, _, ⟨gap, rest, hg, hs, hr, hw⟩, ht, hnext => by
    refine ⟨gap, rest ++ t, hg, by rw [hs]; simp, append hr ht hnext, fun hword hn => ?_⟩
    cases tokens with
    | nil =>
      obtain ⟨next, hm, hn⟩ := hn
      rw [hnext next hm] at hn
      exact absurd hn (by decide)
    | cons next tokens =>
      obtain ⟨c, hc, hblank⟩ := hw hword hn
      exact ⟨c, by rw [List.head?_append, Option.mem_def.1 hc]; rfl, hblank⟩

theorem append_blank {blanks : Text} (h : LaidOut tokens s) (hb : Text.Blank blanks) :
    LaidOut tokens (s ++ blanks) := by
  have happ : LaidOut (tokens ++ []) (s ++ blanks) := append h hb nofun
  rwa [List.append_nil] at happ

theorem exists_append : ∀ {tokens : List Text} {s : Text}, LaidOut (tokens ++ others) s →
    ∃ a b, s = a ++ b ∧ LaidOut tokens a ∧ LaidOut others b
  | [], s, h => ⟨[], s, rfl, Text.blank_nil, h⟩
  | token :: tokens, s, ⟨gap, rest, hg, hs, hr, hw⟩ => by
    obtain ⟨a, b, rfl, ha, hb⟩ := exists_append hr
    refine ⟨gap ++ (token ++ a), b, by rw [hs]; simp, ⟨gap, a, hg, rfl, ha, fun hword hn => ?_⟩, hb⟩
    obtain ⟨next, hm, hnext⟩ := hn
    have hm' : next ∈ (tokens ++ others).head? := by
      rw [List.head?_append, Option.mem_def.1 hm]
      rfl
    obtain ⟨c, hc, hblank⟩ := hw hword ⟨next, hm', hnext⟩
    cases a with
    | cons d a => exact ⟨c, hc, hblank⟩
    | nil =>
      -- a row that begins with a word is not laid out by the empty text
      cases tokens with
      | nil => cases hm
      | cons next' tokens =>
        cases hm
        obtain ⟨gap', rest', _, hnil, _⟩ := ha
        rw [(List.append_eq_nil_iff.1 (List.append_eq_nil_iff.1 hnil.symm).2).1] at hnext
        cases hnext

/-- A token inside a row divides the text. -/
theorem exists_append_cons (h : LaidOut (tokens ++ token :: others) s) :
    ∃ a b, s = a ++ (token ++ b) ∧ LaidOut tokens a ∧ LaidOut others b := by
  obtain ⟨a, b, rfl, ha, hb⟩ := exists_append h
  obtain ⟨gap, rest, hg, rfl, hr, _⟩ := hb
  exact ⟨a ++ gap, rest, by rw [List.append_assoc], ha.append_blank hg, hr⟩

/-- Behind a word stands no word character and no quote. -/
theorem head_of_isWordToken (h : LaidOut (token :: tokens) s)
    (hs : ∀ c ∈ s.head?, Text.isBlank c = false) (ht : ∀ t ∈ tokens, IsToken t) :
    ∃ rest, s = token ++ rest ∧ LaidOut tokens rest ∧
      (isWordToken token = true → ∀ c ∈ rest.head?, Text.isWord c = false ∧ c ≠ '\'') := by
  obtain ⟨gap, rest, hg, rfl, hr, hw⟩ := h
  cases gap with
  | cons c gap =>
    have hc := hs c rfl
    rw [(Text.blank_cons_iff.1 hg).1] at hc
    exact absurd hc (by decide)
  | nil =>
    refine ⟨rest, rfl, hr, fun hword c hc => ?_⟩
    have hblank : Text.isBlank c = true → Text.isWord c = false ∧ c ≠ '\'' := by
      refine fun hb => ⟨Text.isWord_eq_false_of_isBlank hb, ?_⟩
      rintro rfl
      exact absurd hb (by decide)
    cases tokens with
    | nil => exact hblank (hr c (List.mem_of_mem_head? hc))
    | cons next tokens =>
      by_cases hnext : isWordToken next = true
      · obtain ⟨d, hd, hb⟩ := hw hword ⟨next, rfl, hnext⟩
        rw [Option.mem_def.1 hc] at hd
        cases hd
        exact hblank hb
      · obtain ⟨gap, more, hg, rfl, _⟩ := hr
        cases gap with
        | cons d gap =>
          cases hc
          exact hblank (Text.blank_cons_iff.1 hg).1
        | nil =>
          have hne := (ht next List.mem_cons_self).ne_nil
          rcases next with _ | ⟨d, next⟩
          · exact absurd rfl hne
          · cases hc
            rw [Bool.not_eq_true, isWordToken_cons_eq_false_iff] at hnext
            exact hnext.symm

theorem strip_singleton (h : LaidOut [token] s) (ht : Text.Trimmed token) :
    Text.strip s = token := by
  obtain ⟨gap, rest, hg, rfl, hr, _⟩ := h
  rw [← List.append_assoc, Text.strip_append hg hr, ht.strip_eq]

/-- The blanks at the ends of a text do not belong to the row that it lays out. -/
theorem exists_trimmed : ∀ {tokens : List Text} {s : Text}, LaidOut tokens s → tokens ≠ [] →
    (∀ t ∈ tokens, IsToken t) → ∃ l r u, Text.Blank l ∧ Text.Blank r ∧ s = l ++ u ++ r ∧
      Text.Trimmed u ∧ u ≠ [] ∧ LaidOut tokens u
  | [], _, _, hne, _ => absurd rfl hne
  | [token], _, ⟨gap, rest, hg, hs, hr, _⟩, _, ht => by
    have htoken := ht token List.mem_cons_self
    refine ⟨gap, rest, token, hg, hr, by rw [hs]; simp, htoken.trimmed, htoken.ne_nil, ?_⟩
    refine ⟨[], [], Text.blank_nil, by simp, Text.blank_nil, fun _ hn => ?_⟩
    obtain ⟨next, hm, _⟩ := hn
    cases hm
  | token :: next :: tokens, _, ⟨gap, rest, hg, hs, hr, hw⟩, _, ht => by
    obtain ⟨htoken, htail⟩ := List.forall_mem_cons.1 ht
    obtain ⟨l, r, u, hl, hrb, rfl, hu, hne, hlaid⟩ :=
      exists_trimmed hr (List.cons_ne_nil _ _) htail
    have hlu : l ++ u ≠ [] := fun e => hne (List.append_eq_nil_iff.1 e).2
    refine ⟨gap, r, token ++ (l ++ u), hg, hrb, by rw [hs]; simp, ?_, ?_, ?_⟩
    · refine ⟨fun c hc => htoken.trimmed.1 c ?_, fun c hc => hu.2 c ?_⟩
      · rwa [List.head?_append_of_ne_nil _ htoken.ne_nil] at hc
      · rwa [List.getLast?_append_of_ne_nil _ hlu, List.getLast?_append_of_ne_nil _ hne] at hc
    · exact fun e => htoken.ne_nil (List.append_eq_nil_iff.1 e).1
    · refine ⟨[], l ++ u, Text.blank_nil, rfl, hlaid.blank_append hl, fun hword hn => ?_⟩
      obtain ⟨c, hc, hb⟩ := hw hword hn
      rw [List.head?_append_of_ne_nil _ hlu] at hc
      exact ⟨c, hc, hb⟩

theorem strip (h : LaidOut tokens s) (ht : ∀ t ∈ tokens, IsToken t) :
    LaidOut tokens (Text.strip s) := by
  cases tokens with
  | nil =>
    rw [Text.strip_eq_nil_iff.2 h]
    exact Text.blank_nil
  | cons token tokens =>
    obtain ⟨l, r, u, hl, hr, rfl, hu, _, hlaid⟩ := h.exists_trimmed (List.cons_ne_nil _ _) ht
    rwa [Text.strip_append hl hr, hu.strip_eq]

theorem not_blank (h : LaidOut (token :: tokens) s) (ht : IsToken token) : ¬ Text.Blank s := by
  obtain ⟨gap, rest, _, rfl, _⟩ := h
  intro hb
  have htoken := (Text.blank_append_iff.1 (Text.blank_append_iff.1 hb).2).1
  exact ht.trimmed.not_blank ht.ne_nil htoken

theorem binding_not_mem : ∀ {tokens : List Text} {s : Text}, LaidOut tokens s →
    (∀ t ∈ tokens, IsToken t) → '=' ∉ s
  | [], _, h, _ => fun hm => absurd (h '=' hm) (by decide)
  | token :: tokens, _, ⟨gap, rest, hg, hs, hr, _⟩, ht => by
    obtain ⟨htoken, htail⟩ := List.forall_mem_cons.1 ht
    rw [hs, List.mem_append, List.mem_append, not_or, not_or]
    exact ⟨fun hm => absurd (hg '=' hm) (by decide), htoken.not_binding, binding_not_mem hr htail⟩

end LaidOut

/-! ### Scans -/

section

variable {σ : Type} {step : Mark → Char → σ → Option σ}

/-- The state after a row of tokens, each read for itself. -/
def scanTokens (step : Mark → Char → σ → Option σ) (state : σ) : List Text → Option σ
  | [] => some state
  | token :: tokens => (scan step none state token).bind fun next => scanTokens step next tokens

theorem scanTokens_append (state : σ) : ∀ tokens others : List Text,
    scanTokens step state (tokens ++ others)
      = (scanTokens step state tokens).bind fun next => scanTokens step next others
  | [], _ => rfl
  | token :: tokens, others => by
    rw [List.cons_append, scanTokens, scanTokens, Option.bind_assoc]
    exact congrArg _ (funext fun next => scanTokens_append next tokens others)

/-- A scan that passes over blanks does to a text what it does to the tokens that it lays out. -/
theorem LaidOut.scan_eq (hstep : Passes step) :
    ∀ {tokens : List Text} {s : Text} {before : Option Char} {state : σ}, LaidOut tokens s →
      (∀ t ∈ tokens, IsToken t) → before ≠ some '-' →
        scan step before state s = scanTokens step state tokens
  | [], _, before, state, h, _, _ => scan_quiet hstep before state (quiet_of_blank h)
  | token :: tokens, _, before, state, ⟨gap, rest, hg, hs, hr, _⟩, ht, hb => by
    obtain ⟨htoken, htail⟩ := List.forall_mem_cons.1 ht
    have hgap := lastOr_ne_of_blank hg hb
    have hlast := lastOr_ne_of_getLast? htoken.not_arrow hgap
    rw [hs, scan_append, scan_quiet hstep before state (quiet_of_blank hg), Option.bind_some,
      scan_append, scan_of_ne hgap, scanTokens]
    refine congrArg _ (funext fun next => ?_)
    exact LaidOut.scan_eq hstep hr htail hlast

end

end TypeBridge
