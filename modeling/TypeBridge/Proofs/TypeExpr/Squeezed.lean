import TypeBridge.Proofs.Text.Collapse
import TypeBridge.Proofs.TypeExpr.Peel

/-!
Squeezed type text. Main statements: a scan that passes over blanks comes to the same state in a
text and in the squeezed text; a squeezed spelling of a path still spells it; and a path that goes
on behind its generic arguments is read from its collapsed text as the same path.
-/

namespace TypeBridge

/-! ### Scans -/

section

variable {σ : Type} {step : Mark → Char → σ → Option σ}

theorem step_of_blank (hstep : Passes step) {c : Char} (hc : Text.isBlank c = true)
    (before : Option Char) (state : σ) : step (markOf before c) c state = some state := by
  have hb : Text.Blank [c] := Text.blank_cons_iff.2 ⟨hc, Text.blank_nil⟩
  have h := scan_quiet hstep before state (quiet_of_blank hb)
  rwa [scan_singleton] at h

theorem ne_dash_of_blank {c : Char} (hc : Text.isBlank c = true) : some c ≠ some '-' := by
  intro h
  rw [Option.some.inj h] at hc
  exact absurd hc (by decide)

/-- A stretch of blanks may become shorter, but what stands behind it never joins the text before
it, so the same arrows are seen. -/
theorem scan_squeeze (hstep : Passes step) {behindBlank : Bool} {before : Option Char}
    (hb : behindBlank = true → before ≠ some '-') (state : σ) (s : Text) :
    scan step before state (Text.squeeze behindBlank s) = scan step before state s := by
  induction s generalizing behindBlank before state with
  | nil => rfl
  | cons c s ih =>
    cases hc : Text.isBlank c with
    | false =>
      rw [Text.squeeze_cons_of_not_blank hc, scan_cons, scan_cons]
      refine congrArg _ (funext fun next => ?_)
      have hfalse : false = true → some c ≠ some '-' := nofun
      exact ih hfalse next
    | true =>
      have hdash := ne_dash_of_blank hc
      have hstay := step_of_blank hstep hc before state
      rw [Text.squeeze, if_pos hc]
      cases behindBlank with
      | true =>
        rw [if_pos rfl, ih hb state, scan_cons, hstay, Option.bind_some, scan_of_ne (hb rfl),
          scan_of_ne hdash]
      | false =>
        have hspace : Text.isBlank ' ' = true := by decide
        have hns := ne_dash_of_blank hspace
        rw [if_neg Bool.false_ne_true, scan_cons, step_of_blank hstep hspace, Option.bind_some,
          ih (fun _ => hns) state, scan_cons, hstay, Option.bind_some, scan_of_ne hns,
          scan_of_ne hdash]

/-- Blanks around a text are passed over too. -/
theorem scan_collapse (hstep : Passes step) {before : Option Char} (hb : before ≠ some '-')
    (state : σ) (s : Text) :
    scan step before state (Text.collapse s) = scan step before state s := by
  have hfalse : false = true → before ≠ some '-' := nofun
  rw [← scan_strip hstep hb state s, ← Text.collapse_strip, (Text.trimmed_strip s).collapse_eq,
    scan_squeeze hstep hfalse]

end

theorem ScansAlike.collapse (s : Text) : ScansAlike (Text.collapse s) s := by
  have hne : none ≠ some '-' := nofun
  exact ⟨fun hstep state => scan_collapse hstep hne state s⟩

theorem lastOr_squeeze {behindBlank : Bool} {before : Option Char}
    (hb : behindBlank = true → before ≠ some '-') {s : Text}
    (h : lastOr before (Text.squeeze behindBlank s) = some '-') :
    lastOr before s = some '-' := by
  have hlast : ∀ {before' : Option Char} {t : Text}, before' ≠ some '-' →
      lastOr before' t = some '-' → ∀ before, lastOr before t = some '-' := by
    intro before' t hne ht before
    rcases Option.or_eq_some_iff.1 ht with ht | ⟨_, ht⟩
    · exact Option.or_eq_some_iff.2 (.inl ht)
    · exact absurd ht hne
  induction s generalizing behindBlank before with
  | nil => exact h
  | cons c s ih =>
    rw [lastOr_cons]
    cases hc : Text.isBlank c with
    | false =>
      rw [Text.squeeze_cons_of_not_blank hc, lastOr_cons] at h
      have hfalse : false = true → some c ≠ some '-' := nofun
      exact ih hfalse h
    | true =>
      rw [Text.squeeze, if_pos hc] at h
      cases behindBlank with
      | true => exact hlast (hb rfl) (ih hb h) (some c)
      | false =>
        have hns : some ' ' ≠ some '-' := by decide
        rw [if_neg Bool.false_ne_true, lastOr_cons] at h
        exact hlast hns (ih (fun _ => hns) h) (some c)

/-! ### Brackets -/

namespace Bracket

theorem closesIn_squeeze_iff {bracket : Bracket} {s : Text} :
    bracket.ClosesIn (Text.squeeze false s) ↔ bracket.ClosesIn s := by
  have hfalse : false = true → none ≠ some '-' := nofun
  unfold ClosesIn
  rw [levelAfter?, scan_squeeze bracket.passes_levelStep hfalse]

/-- Spaces around a collapsed text make no difference to its brackets. -/
theorem closesIn_spaced_collapse {bracket : Bracket} {s : Text} (h : bracket.ClosesIn s) :
    bracket.ClosesIn (' ' :: (Text.collapse s ++ [' '])) := by
  have hne : none ≠ some '-' := nofun
  show scan bracket.levelStep none 0 ([' '] ++ Text.collapse s ++ [' ']) = some 0
  rw [scan_padded bracket.passes_levelStep hne 0 Text.blank_space Text.blank_space,
    scan_collapse bracket.passes_levelStep hne]
  exact h

end Bracket

/-! ### Paths -/

theorem Text.squeeze_intercalate (behindBlank : Bool) (piece : Text) (rest : List Text) :
    squeeze behindBlank ([':', ':'].intercalate (piece :: rest))
      = [':', ':'].intercalate (squeeze behindBlank piece :: rest.map (squeeze false)) := by
  have hcolon : isBlank ':' = false := by decide
  induction rest generalizing behindBlank piece with
  | nil => rw [List.map_nil, List.intercalate_singleton, List.intercalate_singleton]
  | cons next rest ih =>
    rw [intercalate_colons_cons, squeeze_append hcolon, squeeze_cons_of_not_blank hcolon, ih,
      List.map_cons, intercalate_colons_cons]

/-- Blanks within a spelling stand around the segments, where one is as good as many. -/
theorem PathName.SpelledBy.squeeze {n : PathName} {s : Text} (h : n.SpelledBy s)
    (behindBlank : Bool) : n.SpelledBy (Text.squeeze behindBlank s) := by
  obtain ⟨pieces, rfl, hp⟩ := h
  cases pieces with
  | nil => exact absurd hp.symm n.segments_ne_nil
  | cons piece rest =>
    have hstrip : ∀ p ∈ piece :: rest, ∀ behindBlank,
        Text.strip (Text.squeeze behindBlank p) = Text.strip p := by
      intro p hm behindBlank
      have hsegment : Text.strip p ∈ n.segments := hp ▸ List.mem_map_of_mem hm
      refine Text.strip_squeeze (fun c hc => ?_) behindBlank
      rcases eq_nil_or_isIdent_of_mem hsegment with hnil | hident
      · rw [hnil] at hc
        cases hc
      · exact Text.isBlank_eq_false_of_isIdentChar (Text.isIdentChar_of_mem_isIdent hident c hc)
    obtain ⟨hpiece, hrest⟩ := List.forall_mem_cons.1 hstrip
    refine ⟨_, Text.squeeze_intercalate behindBlank piece rest, ?_⟩
    rw [← hp, List.map_cons, List.map_cons, List.map_map, hpiece]
    exact congrArg _ (List.map_congr_left fun p hm => hrest p hm false)

namespace Layer

theorem isArrowHead_angle_iff {before : Option Char} :
    isArrowHead before '>' = false ↔ before ≠ some '-' := by
  simp [isArrowHead]

/-- A path that goes on behind its generic arguments does so in its collapsed text. -/
theorem ofPath?_collapse {n : PathName} {s name inside after : Text} (hs : Text.Trimmed s)
    (hsplit : s = name ++ '<' :: (inside ++ '>' :: after)) (hn : n.SpelledBy name)
    (hc : Bracket.angle.ClosesIn inside) (ha : isArrowHead (lastOr none inside) '>' = false)
    (hafter : ¬ Text.Blank after) :
    ofPath? (Text.collapse s) = .ok (path (Text.collapse s) [] none) := by
  have hsq : Text.collapse s = Text.squeeze false name
      ++ '<' :: (Text.squeeze false inside ++ '>' :: Text.squeeze false after) := by
    rw [hs.collapse_eq, hsplit, Text.squeeze_append (by decide), Text.squeeze_append (by decide)]
  have harrow : isArrowHead (lastOr none (Text.squeeze false inside)) '>' = false := by
    have hfalse : false = true → none ≠ some '-' := nofun
    exact isArrowHead_angle_iff.2 fun h => isArrowHead_angle_iff.1 ha (lastOr_squeeze hfalse h)
  have hpath := ofPath?_of_arguments (hn.squeeze false) (Bracket.closesIn_squeeze_iff.2 hc) harrow
    (Text.squeeze false after)
  rw [← hsq, ofArguments, if_neg, Text.collapse_collapse] at hpath
  · exact hpath
  · rw [Text.isBlankText_iff, Text.blank_squeeze_iff]
    exact hafter

end Layer

end TypeBridge
