import TypeBridge.Proofs.Nesting.Depth
import TypeBridge.Proofs.Nesting.Padded

/-!
Well-nested text taken apart. Main statements: brackets that close by counting their own kind alone
nest properly just when what stands inside them and what stands behind them does; and a list nests
properly just when each of its pieces does.
-/

namespace TypeBridge

/-! ### Text without effect -/

@[simp] theorem wellNested_nil : WellNested [] := rfl

theorem wellNested_of_quiet {s : Text} (h : Quiet s) : WellNested s := by
  unfold WellNested
  rw [openAfter?_eq_scan]
  exact scan_quiet passes_stackStep none [] h

theorem ScansAlike.wellNested_iff {s t : Text} (h : ScansAlike s t) :
    WellNested s ↔ WellNested t := by
  unfold WellNested
  rw [openAfter?_eq_scan, openAfter?_eq_scan, h.scan_eq passes_stackStep]

theorem wellNested_concat_iff {s : Text} {c : Char} (hc : ∀ before, markOf before c = .neutral) :
    WellNested (s ++ [c]) ↔ WellNested s := by
  have hlast : (fun stack => openAfter? (lastOr none s) stack [c]) = some := by
    funext stack
    rw [openAfter?_eq_scan, scan_cons, hc]
    rfl
  unfold WellNested
  rw [openAfter?_append, hlast, Option.bind_fun_some]

theorem wellNested_concat_comma_iff {s : Text} : WellNested (s ++ [',']) ↔ WellNested s :=
  wellNested_concat_iff markOf_comma

theorem wellNested_concat_space_iff {s : Text} : WellNested (s ++ [' ']) ↔ WellNested s :=
  wellNested_concat_iff markOf_space

theorem wellNested_strip_iff {s : Text} : WellNested (Text.strip s) ↔ WellNested s :=
  (ScansAlike.strip s).wellNested_iff

/-! ### Brackets -/

theorem isArrowHead_lastOr {before : Option Char} (hb : before ≠ some '-') (s : Text) (c : Char) :
    isArrowHead (lastOr before s) c = isArrowHead (lastOr none s) c := by
  cases s with
  | nil =>
    have hbefore : (before == some '-') = false := beq_eq_false_iff_ne.2 hb
    rw [lastOr_nil, lastOr_nil, isArrowHead, isArrowHead, hbefore]
    rfl
  | cons d s => rw [lastOr_cons, lastOr_cons]

namespace Bracket

variable {bracket : Bracket}

theorem opener_ne_dash (bracket : Bracket) : some bracket.opener ≠ some '-' := by
  cases bracket <;> decide

theorem closer_ne_dash (bracket : Bracket) : some bracket.closer ≠ some '-' := by
  cases bracket <;> decide

/-- A step either closes a bracket at the bottom of the stack or works above it. -/
theorem stackStep_above {mark : Mark} {c : Char} {stack base next : List Bracket}
    (h : stackStep mark c (stack ++ bracket :: base) = some next) :
    (stack = [] ∧ mark = .closes bracket ∧ next = base) ∨
      ∃ above, stackStep mark c stack = some above ∧ next = above ++ bracket :: base := by
  obtain ⟨top, rfl, rfl⟩ | ⟨top, rfl, htop⟩ | ⟨rfl, rfl⟩ := stackStep_eq_some h
  · exact .inr ⟨top :: stack, rfl, rfl⟩
  · cases stack with
    | nil =>
      obtain ⟨rfl, rfl⟩ := List.cons.inj htop
      exact .inl ⟨rfl, rfl, rfl⟩
    | cons d stack =>
      obtain ⟨rfl, rfl⟩ := List.cons.inj htop
      exact .inr ⟨stack, if_pos rfl, rfl⟩
  · exact .inr ⟨stack, rfl, rfl⟩

/-- A bracket at the bottom of the stack stays there as long as its own kind closes no more often
than it opens. -/
theorem openAfter?_above : ∀ {before : Option Char} {stack base stack' : List Bracket} {level : Nat}
    {s : Text}, openAfter? before (stack ++ bracket :: base) s = some stack' →
      bracket.levelAfter? before (stack.count bracket) s = some level →
        ∃ final, openAfter? before stack s = some final ∧ stack' = final ++ bracket :: base
  | _, stack, _, _, _, [], h, _ => by
    cases h
    exact ⟨stack, rfl, rfl⟩
  | before, stack, base, stack', level, c :: s, h, hl => by
    rw [openAfter?_eq_scan] at h
    obtain ⟨next, hnext, hs⟩ := scan_cons_eq_some.1 h
    obtain ⟨lnext, hlnext, hls⟩ := scan_cons_eq_some.1 hl
    rw [← openAfter?_eq_scan] at hs
    obtain ⟨rfl, hm, _⟩ | ⟨stack₁, hstep, rfl⟩ := stackStep_above hnext
    · -- The bottom cannot be closed: the count of its kind is zero there.
      rw [hm] at hlnext
      simp [levelStep] at hlnext
    obtain rfl : stack₁.count bracket = lnext :=
      Option.some.inj ((bracket.levelStep_of_stackStep hstep).symm.trans hlnext)
    obtain ⟨final, hfinal, hstack⟩ := openAfter?_above hs hls
    refine ⟨final, ?_, hstack⟩
    rw [openAfter?_eq_scan] at hfinal ⊢
    exact scan_cons_eq_some.2 ⟨stack₁, hstep, hfinal⟩

/-- A bracket on the stack is closed in a text that leaves none open, and what stands before its
closer leaves none open above it. -/
theorem exists_closer {base : List Bracket} : ∀ {before : Option Char} {stack : List Bracket}
    {s : Text}, openAfter? before (stack ++ bracket :: base) s = some [] →
      ∃ inside after, s = inside ++ bracket.closer :: after ∧
        openAfter? before stack inside = some [] ∧
          isArrowHead (lastOr before inside) bracket.closer = false
  | _, stack, [], h => by
    cases stack <;> cases h
  | before, stack, c :: s, h => by
    rw [openAfter?_eq_scan] at h
    obtain ⟨next, hnext, hs⟩ := scan_cons_eq_some.1 h
    rw [← openAfter?_eq_scan] at hs
    obtain ⟨rfl, hm, _⟩ | ⟨stack₁, hstep, rfl⟩ := stackStep_above hnext
    · obtain ⟨rfl, ha⟩ := markOf_eq_closes_iff.1 hm
      exact ⟨[], s, rfl, rfl, by rwa [lastOr_nil]⟩
    · obtain ⟨inside, after, rfl, hinside, ha⟩ := exists_closer hs
      refine ⟨c :: inside, after, rfl, ?_, by rwa [lastOr_cons]⟩
      rw [openAfter?_eq_scan] at hinside ⊢
      exact scan_cons_eq_some.2 ⟨stack₁, hstep, hinside⟩

/-- Brackets that close by counting their own kind nest properly just when what stands inside them
and what stands behind them does. -/
theorem wellNested_enclosed_iff {inside : Text} (hc : bracket.ClosesIn inside)
    (ha : isArrowHead (lastOr none inside) bracket.closer = false) (after : Text) :
    WellNested (bracket.opener :: (inside ++ bracket.closer :: after)) ↔
      WellNested inside ∧ WellNested after := by
  have hopen := bracket.opener_ne_dash
  have harrow : isArrowHead (lastOr (some bracket.opener) inside) bracket.closer = false := by
    rwa [isArrowHead_lastOr hopen]
  have hclose : ∀ stack, openAfter? (lastOr (some bracket.opener) inside) stack
      (bracket.closer :: after)
        = (stackStep (.closes bracket) bracket.closer stack).bind fun next =>
            openAfter? none next after := by
    intro stack
    rw [openAfter?_eq_scan, scan_cons, markOf_closer _ bracket harrow]
    refine congrArg _ (funext fun next => ?_)
    rw [scan_of_ne bracket.closer_ne_dash, openAfter?_eq_scan]
  have hall : openAfter? none [] (bracket.opener :: (inside ++ bracket.closer :: after))
      = (openAfter? none [bracket] inside).bind fun stack =>
          (stackStep (.closes bracket) bracket.closer stack).bind fun next =>
            openAfter? none next after := by
    rw [openAfter?_eq_scan, scan_cons, markOf_opener]
    show scan stackStep (some bracket.opener) [bracket] (inside ++ bracket.closer :: after) = _
    rw [← openAfter?_eq_scan, openAfter?_append, openAfter?_of_ne hopen]
    exact congrArg _ (funext hclose)
  constructor
  · intro h
    have hs : openAfter? none [] (bracket.opener :: (inside ++ bracket.closer :: after))
        = some [] := h
    rw [hall] at hs
    obtain ⟨stack, hstack, hs⟩ := Option.bind_eq_some_iff.1 hs
    obtain ⟨next, hnext, hafter⟩ := Option.bind_eq_some_iff.1 hs
    have hbottom : openAfter? none ([] ++ bracket :: []) inside = some stack := hstack
    obtain ⟨final, hfinal, rfl⟩ := openAfter?_above hbottom hc
    have hcount : final.count bracket = 0 := by
      have hlevel := bracket.levelAfter?_of_openAfter? hfinal
      exact Option.some.inj (hlevel.symm.trans hc)
    -- The closer meets the bracket itself, since no other of its kind is open.
    obtain ⟨other, hm, _⟩ | ⟨other, hm, htop⟩ | ⟨hm, _⟩ := stackStep_eq_some hnext
    · cases hm
    · cases hm
      cases final with
      | nil =>
        cases htop
        exact ⟨hfinal, hafter⟩
      | cons d final =>
        obtain ⟨rfl, _⟩ := List.cons.inj htop
        rw [List.count_cons_self] at hcount
        omega
    · cases hm
  · rintro ⟨hinside, hafter⟩
    have hstack : openAfter? none [bracket] inside = some [bracket] :=
      openAfter?_add [bracket] hinside
    unfold WellNested
    rw [hall, hstack, Option.bind_some, stackStep, if_pos rfl]
    exact hafter

end Bracket

/-! ### Text in one piece -/

/-- Whether a text nests properly and holds no comma outside its brackets, so that it stays in one
piece. -/
structure Undivided (s : Text) : Prop where
  wellNested : WellNested s
  depthAfter?_eq : depthAfter? none 0 s = some 0

@[simp] theorem undivided_nil : Undivided [] := ⟨rfl, rfl⟩

theorem undivided_of_depthAfter? {s : Text} (hs : WellNested s)
    (hd : depthAfter? none 0 s ≠ none) : Undivided s := by
  obtain ⟨depth, hdepth⟩ := Option.ne_none_iff_exists'.1 hd
  obtain rfl : depth = 0 := eq_of_depthAfter?_of_openAfter? hs hdepth
  exact ⟨hs, hdepth⟩

theorem ScansAlike.undivided_iff {s t : Text} (h : ScansAlike s t) :
    Undivided s ↔ Undivided t := by
  have hdepth : depthAfter? none 0 s = depthAfter? none 0 t := h.scan_eq passes_commaStep 0
  constructor
  · rintro ⟨hw, hd⟩
    exact ⟨h.wellNested_iff.1 hw, hdepth ▸ hd⟩
  · rintro ⟨hw, hd⟩
    exact ⟨h.wellNested_iff.2 hw, hdepth.symm ▸ hd⟩

/-- What stands in brackets cannot divide the text that holds them. -/
theorem Bracket.undivided_enclosed_iff {bracket : Bracket} {inside : Text} (hw : WellNested inside)
    (ha : isArrowHead (lastOr none inside) bracket.closer = false) (after : Text) :
    Undivided (bracket.opener :: (inside ++ bracket.closer :: after)) ↔ Undivided after := by
  have hopen := bracket.opener_ne_dash
  have hone : (0 : Int) < 1 := by decide
  have hinside : depthAfter? none 1 inside = some 1 := depthAfter?_of_openAfter? hone hw
  have hopens : bracket.opener ≠ ',' := by cases bracket <;> decide
  have hcloses : bracket.closer ≠ ',' := by cases bracket <;> decide
  have harrow : isArrowHead (lastOr (some bracket.opener) inside) bracket.closer = false := by
    rwa [isArrowHead_lastOr hopen]
  have hdepth : depthAfter? none 0 (bracket.opener :: (inside ++ bracket.closer :: after))
      = depthAfter? none 0 after := by
    rw [depthAfter?, scan_cons, markOf_opener, commaStep_of_not fun e => hopens e.1,
      Option.bind_some, scan_append, scan_of_ne hopen]
    show (depthAfter? none 1 inside).bind _ = _
    rw [hinside, Option.bind_some, scan_cons, markOf_closer _ bracket harrow,
      commaStep_of_not fun e => hcloses e.1, Option.bind_some, scan_of_ne bracket.closer_ne_dash]
    rfl
  have hnested := wellNested_enclosed_iff (hw.closesIn bracket) ha after
  constructor
  · rintro ⟨h, hd⟩
    exact ⟨(hnested.1 h).2, hdepth ▸ hd⟩
  · rintro ⟨h, hd⟩
    exact ⟨hnested.2 ⟨hw, h⟩, hdepth.symm ▸ hd⟩

/-! ### Lists -/

/-- A list of texts that keep apart nests properly just when each of them does. -/
theorem openAfter?_intercalate_iff {before : Option Char} (hb : before ≠ some '-')
    {pieces : List Text} (hs : SplitsFrom before 0 pieces) :
    openAfter? before [] ([','].intercalate pieces) = some [] ↔
      ∀ piece ∈ pieces, WellNested piece := by
  induction pieces generalizing before with
  | nil => exact absurd hs id
  | cons piece rest ih =>
    cases rest with
    | nil =>
      rw [List.intercalate_singleton, openAfter?_of_ne hb, List.forall_mem_singleton]
      exact Iff.rfl
    | cons next rest =>
      obtain ⟨hpiece, hrest⟩ := hs
      have hcomma : some ',' ≠ some '-' := by decide
      have hjoin : openAfter? before [] ([','].intercalate (piece :: next :: rest))
          = (openAfter? none [] piece).bind fun stack =>
              openAfter? (some ',') stack ([','].intercalate (next :: rest)) := by
        rw [List.intercalate_cons_cons, List.append_assoc, openAfter?_append, openAfter?_of_ne hb]
        refine congrArg _ (funext fun stack => ?_)
        rw [List.singleton_append, openAfter?_eq_scan, scan_cons, markOf_comma, openAfter?_eq_scan]
        rfl
      rw [depthAfter?_of_ne hb] at hpiece
      rw [hjoin, List.forall_mem_cons, ← ih hcomma hrest]
      constructor
      · intro h
        obtain ⟨stack, hstack, htail⟩ := Option.bind_eq_some_iff.1 h
        have hzero : (0 : Int) = stack.length := eq_of_depthAfter?_of_openAfter? hstack hpiece
        have hnil : stack = [] := List.eq_nil_of_length_eq_zero (by omega)
        rw [hnil] at hstack htail
        exact ⟨hstack, htail⟩
      · rintro ⟨hw, htail⟩
        have hstack : openAfter? none [] piece = some [] := hw
        rw [hstack]
        exact htail

theorem forall_mem_dropEmptyEnd_iff {P : Text → Prop} (hnil : P []) (pieces : List Text) :
    (∀ piece ∈ dropEmptyEnd pieces, P piece) ↔ ∀ piece ∈ pieces, P piece := by
  rcases dropEmptyEnd_eq_or pieces with h | h
  · rw [h]
  · conv =>
      rhs
      rw [h, List.forall_mem_append, List.forall_mem_singleton]
    exact (and_iff_left hnil).symm

theorem wellNested_iff_piecesFrom {s : Text} :
    WellNested s ↔ ∀ piece ∈ piecesFrom none 0 s, WellNested piece := by
  have hne : none ≠ some '-' := nofun
  rw [← openAfter?_intercalate_iff hne (splitsFrom_piecesFrom none 0 s), intercalate_piecesFrom]
  exact Iff.rfl

/-- A text nests properly just when its pieces do. -/
theorem wellNested_iff_splitPieces {s : Text} :
    WellNested s ↔ ∀ piece ∈ splitPieces s, WellNested piece := by
  rw [splitPieces, forall_mem_dropEmptyEnd_iff wellNested_nil, wellNested_iff_piecesFrom]

theorem undivided_of_mem_piecesFrom {s : Text} (hs : WellNested s) :
    ∀ piece ∈ piecesFrom none 0 s, Undivided piece := by
  have hne : none ≠ some '-' := nofun
  intro piece hp
  obtain ⟨_, hunsplit, _⟩ := (splitsFrom_iff hne).1 (splitsFrom_piecesFrom none 0 s)
  have hd := depthAfter?_ne_none_iff.2 (hunsplit piece hp)
  exact undivided_of_depthAfter? (wellNested_iff_piecesFrom.1 hs piece hp) hd

theorem undivided_of_mem_splitPieces {s : Text} (hs : WellNested s) :
    ∀ piece ∈ splitPieces s, Undivided piece := fun piece hp =>
  undivided_of_mem_piecesFrom hs piece (mem_of_mem_dropEmptyEnd hp)

end TypeBridge
