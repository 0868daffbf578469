import TypeBridge.Nesting.Closing
import TypeBridge.Nesting.Pieces
import TypeBridge.Nesting.WellNested
import TypeBridge.Proofs.Text.Strip

/-!
The scans of type text as one scan with different steps. A step says what a character does to the
state and whether the scan goes on; the stack of open brackets, the count of one kind of bracket and
the depth at which commas separate are the states. Main statements: a scan goes on behind a text
from the state that the text leaves; one step that follows another makes one scan follow the other;
and a bracket encloses just the text in which its own kind closes.
-/

namespace TypeBridge

/-! ### The character before a text -/

theorem markOf_of_ne {before : Option Char} (h : before ≠ some '-') (c : Char) :
    markOf before c = markOf none c := by
  unfold markOf
  simp [h]

@[simp] theorem lastOr_nil (before : Option Char) : lastOr before [] = before := by simp [lastOr]

@[simp] theorem lastOr_cons (before : Option Char) (c : Char) (s : Text) :
    lastOr before (c :: s) = lastOr (some c) s := by
  cases h : s.getLast? <;> simp [lastOr, List.getLast?_cons, h]

theorem lastOr_append : ∀ (before : Option Char) (s t : Text),
    lastOr before (s ++ t) = lastOr (lastOr before s) t
  | _, [], _ => by simp
  | before, c :: s, t => by
    rw [List.cons_append, lastOr_cons, lastOr_cons, lastOr_append (some c) s t]

@[simp] theorem lastOr_concat (before : Option Char) (s : Text) (c : Char) :
    lastOr before (s ++ [c]) = some c := by
  rw [lastOr_append, lastOr_cons, lastOr_nil]

theorem lastOr_ne_of_getLast? {before : Option Char} {s : Text} (hs : s.getLast? ≠ some '-')
    (hb : before ≠ some '-') : lastOr before s ≠ some '-' := by
  intro h
  rcases Option.or_eq_some_iff.1 h with h | ⟨_, h⟩
  · exact hs h
  · exact hb h

theorem lastOr_ne_of_blank {before : Option Char} {s : Text} (hs : Text.Blank s)
    (hb : before ≠ some '-') : lastOr before s ≠ some '-' :=
  lastOr_ne_of_getLast? (fun hl => absurd (hs '-' (List.mem_of_getLast? hl)) (by decide)) hb

/-! ### Characters without effect -/

/-- Whether no character of a text groups or separates. -/
def Quiet (s : Text) : Prop := ∀ c ∈ s, c ∉ [',', '<', '(', '[', '>', ')', ']']

instance (s : Text) : Decidable (Quiet s) := inferInstanceAs (Decidable (∀ c ∈ s, _))

theorem markOf_of_quiet {s : Text} (h : Quiet s) {c : Char} (hc : c ∈ s) (before : Option Char) :
    markOf before c = .neutral := by
  have hne := h c hc
  simp only [List.mem_cons, not_or] at hne
  simp only [markOf, hne, if_false]

/-- Characters of a kind that the marks are not of are quiet. -/
theorem quiet_of_forall {p : Char → Bool} {s : Text}
    (hmarks : ∀ c ∈ [',', '<', '(', '[', '>', ')', ']'], p c = false)
    (hs : ∀ c ∈ s, p c = true) : Quiet s := by
  intro c hc hm
  have hp := hs c hc
  rw [hmarks c hm] at hp
  exact Bool.false_ne_true hp

theorem quiet_of_blank {s : Text} (h : Text.Blank s) : Quiet s := quiet_of_forall (by decide) h

/-! ### Scans -/

section

variable {σ τ : Type} {step : Mark → Char → σ → Option σ}

/-- The state after a text, if the scan comes to its end. -/
def scan (step : Mark → Char → σ → Option σ) : Option Char → σ → Text → Option σ
  | _, state, [] => some state
  | before, state, c :: s =>
    (step (markOf before c) c state).bind fun next => scan step (some c) next s

@[simp] theorem scan_nil (before : Option Char) (state : σ) :
    scan step before state [] = some state := rfl

theorem scan_cons (before : Option Char) (state : σ) (c : Char) (s : Text) :
    scan step before state (c :: s)
      = (step (markOf before c) c state).bind fun next => scan step (some c) next s := rfl

theorem scan_singleton (before : Option Char) (state : σ) (c : Char) :
    scan step before state [c] = step (markOf before c) c state := by
  rw [scan_cons]
  cases step (markOf before c) c state <;> rfl

theorem scan_cons_eq_some {before : Option Char} {state final : σ} {c : Char} {s : Text} :
    scan step before state (c :: s) = some final ↔
      ∃ next, step (markOf before c) c state = some next ∧ scan step (some c) next s = some final :=
  Option.bind_eq_some_iff

theorem scan_append : ∀ (before : Option Char) (state : σ) (s t : Text),
    scan step before state (s ++ t)
      = (scan step before state s).bind fun next => scan step (lastOr before s) next t
  | _, _, [], _ => by simp
  | before, state, c :: s, t => by
    rw [List.cons_append, scan_cons, scan_cons, Option.bind_assoc]
    refine congrArg _ (funext fun next => ?_)
    rw [scan_append (some c) next s t, lastOr_cons]

theorem scan_append_eq_some {before : Option Char} {state final : σ} {s t : Text} :
    scan step before state (s ++ t) = some final ↔
      ∃ next, scan step before state s = some next ∧
        scan step (lastOr before s) next t = some final := by
  rw [scan_append, Option.bind_eq_some_iff]

theorem scan_of_ne {before : Option Char} (h : before ≠ some '-') (state : σ) (s : Text) :
    scan step before state s = scan step none state s := by
  cases s with
  | nil => rfl
  | cons c s => rw [scan_cons, markOf_of_ne h, scan_cons]

/-- A scan follows another if each of its steps follows one of the other. -/
theorem scan_follows (step' : Mark → Char → τ → Option τ) (R : σ → τ → Prop)
    (hstep : ∀ {mark c state state' next}, R state state' → step mark c state = some next →
      ∃ next', step' mark c state' = some next' ∧ R next next') :
    ∀ {before : Option Char} {state final : σ} {state' : τ} {s : Text}, R state state' →
      scan step before state s = some final →
        ∃ final', scan step' before state' s = some final' ∧ R final final'
  | _, _, _, state', [], hr, h => by
    cases h
    exact ⟨state', rfl, hr⟩
  | before, state, final, state', c :: s, hr, h => by
    obtain ⟨next, hnext, hs⟩ := scan_cons_eq_some.1 h
    obtain ⟨next', hnext', hr'⟩ := hstep hr hnext
    obtain ⟨final', hfinal, hrf⟩ := scan_follows step' R hstep hr' hs
    exact ⟨final', scan_cons_eq_some.2 ⟨next', hnext', hfinal⟩, hrf⟩

/-- A text whose characters leave a state as it is. -/
theorem scan_of_forall {state : σ} : ∀ {before : Option Char} {s : Text},
    (∀ c ∈ s, ∀ before, step (markOf before c) c state = some state) →
      scan step before state s = some state
  | _, [], _ => rfl
  | before, c :: s, h => by
    obtain ⟨hc, hs⟩ := List.forall_mem_cons.1 h
    exact scan_cons_eq_some.2 ⟨state, hc before, scan_of_forall hs⟩

/-- Whether a step leaves the state at every neutral character other than a comma. -/
def Passes (step : Mark → Char → σ → Option σ) : Prop :=
  ∀ c state, c ≠ ',' → step .neutral c state = some state

theorem scan_quiet (hstep : Passes step) (before : Option Char) (state : σ) {s : Text}
    (h : Quiet s) : scan step before state s = some state :=
  scan_of_forall fun c hc before => by
    rw [markOf_of_quiet h hc before]
    refine hstep c state ?_
    rintro rfl
    exact h ',' hc List.mem_cons_self

/-- Blanks around a text are passed over. -/
theorem scan_padded (hstep : Passes step) {before : Option Char} (hb : before ≠ some '-')
    (state : σ) {l r : Text} (hl : Text.Blank l) (hr : Text.Blank r) (s : Text) :
    scan step before state (l ++ s ++ r) = scan step before state s := by
  have hquiet : ∀ {blanks : Text}, Text.Blank blanks → ∀ before state,
      scan step before state blanks = some state :=
    fun h before state => scan_quiet hstep before state (quiet_of_blank h)
  rw [List.append_assoc, scan_append, hquiet hl, Option.bind_some,
    scan_of_ne (lastOr_ne_of_blank hl hb), ← scan_of_ne hb, scan_append]
  cases hstate : scan step before state s with
  | none => rfl
  | some next => exact hquiet hr _ next

theorem scan_strip (hstep : Passes step) {before : Option Char} (hb : before ≠ some '-')
    (state : σ) (s : Text) :
    scan step before state (Text.strip s) = scan step before state s := by
  obtain ⟨l, r, hl, hr, hs⟩ := Text.exists_strip s
  conv =>
    rhs
    rw [hs]
  exact (scan_padded hstep hb state hl hr (Text.strip s)).symm

/-- Text that neither groups nor separates is passed over, if it ends with no dash. -/
theorem scan_quiet_append (hstep : Passes step) {before : Option Char} (state : σ) {q : Text}
    (hq : Quiet q) (hlast : lastOr before q ≠ some '-') (s : Text) :
    scan step before state (q ++ s) = scan step none state s := by
  rw [scan_append, scan_quiet hstep before state hq, Option.bind_some, scan_of_ne hlast]

end

/-- No scan that passes over text without effect tells the two texts apart. -/
structure ScansAlike (s t : Text) : Prop where
  scan_eq : ∀ {σ : Type} {step : Mark → Char → σ → Option σ}, Passes step → ∀ state,
    scan step none state s = scan step none state t

namespace ScansAlike

variable {s t u : Text}

theorem symm (h : ScansAlike s t) : ScansAlike t s :=
  ⟨fun hstep state => (h.scan_eq hstep state).symm⟩

theorem trans (hs : ScansAlike s t) (ht : ScansAlike t u) : ScansAlike s u :=
  ⟨fun hstep state => (hs.scan_eq hstep state).trans (ht.scan_eq hstep state)⟩

theorem strip (s : Text) : ScansAlike (Text.strip s) s := by
  have hne : none ≠ some '-' := nofun
  exact ⟨fun hstep state => scan_strip hstep hne state s⟩

theorem quiet_append {q : Text} (hq : Quiet q) (hlast : lastOr none q ≠ some '-') (s : Text) :
    ScansAlike (q ++ s) s :=
  ⟨fun hstep state => scan_quiet_append hstep state hq hlast s⟩

end ScansAlike

/-! ### The stack of open brackets -/

/-- What a character does to the stack of open brackets. -/
def stackStep : Mark → Char → List Bracket → Option (List Bracket)
  | .opens bracket, _, stack => some (bracket :: stack)
  | .closes _, _, [] => none
  | .closes bracket, _, top :: stack => if bracket = top then some stack else none
  | .neutral, _, stack => some stack

theorem openAfter?_eq_scan : ∀ (before : Option Char) (stack : List Bracket) (s : Text),
    openAfter? before stack s = scan stackStep before stack s
  | _, _, [] => rfl
  | before, stack, c :: s => by
    have ih := fun stack => openAfter?_eq_scan (some c) stack s
    rw [scan_cons]
    cases hm : markOf before c with
    | opens bracket => simp only [openAfter?, hm, ih, stackStep, Option.bind_some]
    | neutral => simp only [openAfter?, hm, ih, stackStep, Option.bind_some]
    | closes bracket =>
      cases stack with
      | nil => simp only [openAfter?, hm, stackStep, Option.bind_none]
      | cons top rest =>
        simp only [openAfter?, hm, ih, stackStep]
        split <;> rfl

theorem openAfter?_of_ne {before : Option Char} (h : before ≠ some '-') (stack : List Bracket)
    (s : Text) : openAfter? before stack s = openAfter? none stack s := by
  rw [openAfter?_eq_scan, scan_of_ne h, openAfter?_eq_scan]

theorem passes_stackStep : Passes stackStep := fun _ _ _ => rfl

/-- The ways in which a step of the stack succeeds. -/
theorem stackStep_eq_some {mark : Mark} {c : Char} {stack next : List Bracket}
    (h : stackStep mark c stack = some next) :
    (∃ bracket, mark = .opens bracket ∧ next = bracket :: stack) ∨
      (∃ bracket, mark = .closes bracket ∧ stack = bracket :: next) ∨
      (mark = .neutral ∧ next = stack) := by
  cases mark with
  | opens bracket =>
    cases h
    exact .inl ⟨bracket, rfl, rfl⟩
  | neutral =>
    cases h
    exact .inr (.inr ⟨rfl, rfl⟩)
  | closes bracket =>
    cases stack with
    | nil => cases h
    | cons top rest =>
      simp only [stackStep] at h
      split at h
      · rename_i ht
        cases h
        exact .inr (.inl ⟨bracket, rfl, by rw [ht]⟩)
      · cases h

theorem openAfter?_add {before : Option Char} {stack stack' : List Bracket} {s : Text}
    (more : List Bracket) (h : openAfter? before stack s = some stack') :
    openAfter? before (stack ++ more) s = some (stack' ++ more) := by
  rw [openAfter?_eq_scan] at h ⊢
  obtain ⟨final, hf, rfl⟩ := scan_follows stackStep
    (fun stack stack' => stack' = stack ++ more) (by
      rintro mark c stack _ next rfl hnext
      obtain ⟨bracket, rfl, rfl⟩ | ⟨bracket, rfl, rfl⟩ | ⟨rfl, rfl⟩ := stackStep_eq_some hnext
      · exact ⟨_, rfl, rfl⟩
      · exact ⟨_, if_pos rfl, rfl⟩
      · exact ⟨_, rfl, rfl⟩) rfl h
  exact hf

theorem balancedFrom_append : ∀ {before : Option Char} {stack stack' : List Bracket} {s : Text}
    (t : Text), openAfter? before stack s = some stack' →
      balancedFrom before stack.length (s ++ t)
        = s ++ balancedFrom (lastOr before s) stack'.length t
  | _, _, _, [], _, h => by
    cases h
    simp
  | before, stack, stack', c :: s, t, h => by
    rw [openAfter?_eq_scan] at h
    obtain ⟨next, hnext, hs⟩ := scan_cons_eq_some.1 h
    rw [← openAfter?_eq_scan] at hs
    have ih := balancedFrom_append t hs
    obtain ⟨top, hm, rfl⟩ | ⟨top, hm, rfl⟩ | ⟨hm, rfl⟩ := stackStep_eq_some hnext
    · simpa only [List.cons_append, balancedFrom, hm, lastOr_cons, List.cons.injEq, true_and,
        List.length_cons] using ih
    · simpa only [List.cons_append, balancedFrom, hm, lastOr_cons, List.cons.injEq, true_and,
        List.length_cons] using ih
    · simpa only [List.cons_append, balancedFrom, hm, lastOr_cons, List.cons.injEq, true_and]
        using ih

/-! ### Counting one kind of bracket -/

namespace Bracket

/-- What a character does to the number of open brackets of one kind. -/
def levelStep (bracket : Bracket) : Mark → Char → Nat → Option Nat
  | .opens other, _, level => some (if other = bracket then level + 1 else level)
  | .closes other, _, level =>
    if other = bracket then if level = 0 then none else some (level - 1) else some level
  | .neutral, _, level => some level

/-- The brackets of one kind open after a text that begins with `level` of them open, if none of
its closers of that kind comes too early. -/
def levelAfter? (bracket : Bracket) : Option Char → Nat → Text → Option Nat :=
  scan bracket.levelStep

/-- Whether the brackets of one kind close within a text, whatever the other kinds do. -/
def ClosesIn (bracket : Bracket) (s : Text) : Prop := bracket.levelAfter? none 0 s = some 0

instance (bracket : Bracket) (s : Text) : Decidable (bracket.ClosesIn s) :=
  inferInstanceAs (Decidable (_ = _))

theorem passes_levelStep (bracket : Bracket) : Passes bracket.levelStep := fun _ _ _ => rfl

theorem levelStep_eq_none {bracket : Bracket} {mark : Mark} {c : Char} {level : Nat}
    (h : bracket.levelStep mark c level = none) : mark = .closes bracket ∧ level = 0 := by
  cases mark with
  | opens other => cases h
  | neutral => cases h
  | closes other =>
    simp only [levelStep] at h
    split at h
    · rename_i ho
      split at h
      · rename_i hl
        exact ⟨by rw [ho], hl⟩
      · cases h
    · cases h

/-- The search for a closer steps like the count, and ends where the count fails. -/
theorem enclosedFrom?_cons (bracket : Bracket) (before : Option Char) (level : Nat) (c : Char)
    (s : Text) :
    enclosedFrom? bracket.opener bracket.closer before level (c :: s) =
      match bracket.levelStep (markOf before c) c level with
      | none => some ([], s)
      | some next => (enclosedFrom? bracket.opener bracket.closer (some c) next s).map fun p =>
          (c :: p.1, p.2) := by
  have hopen : markOf before c = .opens bracket ↔ _ := markOf_eq_opens_iff
  have hclose : markOf before c = .closes bracket ↔ _ := markOf_eq_closes_iff
  conv =>
    lhs
    unfold enclosedFrom?
  by_cases ho : c = bracket.opener
  · rw [if_pos ho, hopen.2 ho]
    simp [levelStep]
  rw [if_neg ho]
  by_cases hc : c = bracket.closer ∧ isArrowHead before c = false
  · rw [if_pos hc, hclose.2 hc]
    cases level <;> simp [levelStep]
  rw [if_neg hc]
  have hsame : bracket.levelStep (markOf before c) c level = some level := by
    cases hm : markOf before c with
    | opens other =>
      have hne : other ≠ bracket := fun e => ho (hopen.1 (e ▸ hm))
      simp [levelStep, hne]
    | closes other =>
      have hne : other ≠ bracket := fun e => hc (hclose.1 (e ▸ hm))
      simp [levelStep, hne]
    | neutral => rfl
  rw [hsame]

/-- The search for a closer passes over a text that leaves its bracket open. -/
theorem enclosedFrom?_append (bracket : Bracket) : ∀ {before : Option Char} {level level' : Nat}
    {s : Text} (t : Text), bracket.levelAfter? before level s = some level' →
      enclosedFrom? bracket.opener bracket.closer before level (s ++ t)
        = (enclosedFrom? bracket.opener bracket.closer (lastOr before s) level' t).map
            fun p => (s ++ p.1, p.2)
  | _, _, _, [], t, h => by
    cases h
    simp
  | before, level, level', c :: s, t, h => by
    obtain ⟨next, hnext, hs⟩ := scan_cons_eq_some.1 h
    rw [List.cons_append, enclosedFrom?_cons, hnext, lastOr_cons]
    simp only
    rw [enclosedFrom?_append bracket t hs, Option.map_map]
    rfl

theorem levelAfter?_of_enclosedFrom? (bracket : Bracket) : ∀ {before : Option Char} {level : Nat}
    {s inside after : Text},
      enclosedFrom? bracket.opener bracket.closer before level s = some (inside, after) →
        bracket.levelAfter? before level inside = some 0 ∧
          isArrowHead (lastOr before inside) bracket.closer = false
  | _, _, [], _, _, h => by simp [enclosedFrom?] at h
  | before, level, c :: s, inside, after, h => by
    rw [enclosedFrom?_cons] at h
    split at h
    · rename_i hnone
      obtain ⟨hm, rfl⟩ := levelStep_eq_none hnone
      obtain ⟨rfl, ha⟩ := markOf_eq_closes_iff.1 hm
      cases h
      exact ⟨rfl, by rwa [lastOr_nil]⟩
    · rename_i next hnext
      simp only [Option.map_eq_some_iff, Prod.mk.injEq, Prod.exists] at h
      obtain ⟨i, a, hia, rfl, rfl⟩ := h
      obtain ⟨hl, ha⟩ := levelAfter?_of_enclosedFrom? bracket hia
      exact ⟨scan_cons_eq_some.2 ⟨next, hnext, hl⟩, by rwa [lastOr_cons]⟩

theorem enclosed?_of_closesIn {bracket : Bracket} {s : Text} (h : bracket.ClosesIn s)
    (ha : isArrowHead (lastOr none s) bracket.closer = false) (t : Text) :
    bracket.enclosed? (s ++ bracket.closer :: t) = some (s, t) := by
  have hm : markOf (lastOr none s) bracket.closer = .closes bracket := markOf_closer _ bracket ha
  rw [enclosed?, enclosedFrom?_append bracket _ h, enclosedFrom?_cons, hm]
  simp [levelStep]

theorem closesIn_of_enclosed? {bracket : Bracket} {s inside after : Text}
    (h : bracket.enclosed? s = some (inside, after)) :
    bracket.ClosesIn inside ∧ isArrowHead (lastOr none inside) bracket.closer = false :=
  levelAfter?_of_enclosedFrom? bracket h

/-- A step of the stack counts each kind of bracket. -/
theorem levelStep_of_stackStep (bracket : Bracket) {mark : Mark} {c : Char}
    {stack next : List Bracket} (h : stackStep mark c stack = some next) :
    bracket.levelStep mark c (stack.count bracket) = some (next.count bracket) := by
  obtain ⟨top, rfl, rfl⟩ | ⟨top, rfl, rfl⟩ | ⟨rfl, rfl⟩ := stackStep_eq_some h
  · by_cases ht : top = bracket <;> simp [levelStep, ht]
  · by_cases ht : top = bracket <;> simp [levelStep, ht]
  · rfl

theorem levelAfter?_of_openAfter? (bracket : Bracket) {before : Option Char}
    {stack stack' : List Bracket} {s : Text} (h : openAfter? before stack s = some stack') :
    bracket.levelAfter? before (stack.count bracket) s = some (stack'.count bracket) := by
  rw [openAfter?_eq_scan] at h
  obtain ⟨final, hf, rfl⟩ := scan_follows bracket.levelStep
    (fun stack level => level = stack.count bracket) (by
      rintro mark c stack _ next rfl hnext
      exact ⟨_, bracket.levelStep_of_stackStep hnext, rfl⟩) rfl h
  exact hf

end Bracket

theorem WellNested.closesIn {s : Text} (h : WellNested s) (bracket : Bracket) :
    bracket.ClosesIn s :=
  bracket.levelAfter?_of_openAfter? h

theorem WellNested.append {s t : Text} (hs : WellNested s)
    (ht : openAfter? (lastOr none s) [] t = some []) : WellNested (s ++ t) := by
  unfold WellNested at *
  rw [openAfter?_append, hs]
  exact ht

end TypeBridge
