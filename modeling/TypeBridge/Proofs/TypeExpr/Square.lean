import TypeBridge.Proofs.Nesting.Closing
import TypeBridge.Proofs.TypeExpr.Read

/-!
Arrays and slices. A type in square brackets is read as an array if it holds a semicolon anywhere,
and as a slice otherwise. Main statement: so it is read as what it is unless its only semicolons
stand in brackets inside it, as in a slice of arrays, which is read as an array.
-/

namespace TypeBridge

/-- Whether a semicolon stands in a text where no bracket is open. -/
def HasOuterSemicolon (s : Text) : Prop :=
  ∃ i < s.length, s[i]? = some ';' ∧ openAfter? none [] (s.take i) = some []

instance (s : Text) : Decidable (HasOuterSemicolon s) :=
  inferInstanceAs (Decidable (∃ i < s.length, s[i]? = some ';' ∧ _ = some []))

theorem hasOuterSemicolon_of_append {outer : Text} (h : WellNested outer) (after : Text) :
    HasOuterSemicolon (outer ++ ';' :: after) := by
  refine ⟨outer.length, by simp, ?_, ?_⟩
  · rw [List.getElem?_append_right (Nat.le_refl _), Nat.sub_self]
    rfl
  · rw [List.take_left]
    exact h

theorem HasOuterSemicolon.mem {s : Text} (h : HasOuterSemicolon s) : ';' ∈ s := by
  obtain ⟨i, _, hi, _⟩ := h
  exact List.mem_of_getElem? hi

/-! ### Groups -/

theorem openAfter?_cons (before : Option Char) (stack : List Bracket) (c : Char) (s : Text) :
    openAfter? before stack (c :: s)
      = (stackStep (markOf before c) c stack).bind fun stack => openAfter? (some c) stack s := by
  simp only [openAfter?_eq_scan, scan_cons]

/-- A pair of brackets around text that leaves none open has no effect on the brackets open
before it. -/
theorem Bracket.openAfter?_group {bracket : Bracket} {inside : Text}
    (h : openAfter? (some bracket.opener) [] inside = some [])
    (ha : isArrowHead (lastOr (some bracket.opener) inside) bracket.closer = false)
    (before : Option Char) (stack : List Bracket) (after : Text) :
    openAfter? before stack (bracket.opener :: (inside ++ bracket.closer :: after))
      = openAfter? (some bracket.closer) stack after := by
  have hinside : openAfter? (some bracket.opener) (bracket :: stack) inside
      = some (bracket :: stack) := openAfter?_add (bracket :: stack) h
  have hopen : openAfter? before stack (bracket.opener :: (inside ++ bracket.closer :: after))
      = openAfter? (some bracket.opener) (bracket :: stack)
          (inside ++ bracket.closer :: after) := by
    rw [openAfter?_cons, markOf_opener]
    rfl
  have hclose : stackStep (.closes bracket) bracket.closer (bracket :: stack) = some stack :=
    if_pos rfl
  rw [hopen, openAfter?_append, hinside, Option.bind_some, openAfter?_cons,
    markOf_closer _ bracket ha, hclose, Option.bind_some]

/-- A character without effect on brackets stands outside all of them, or in a pair of brackets that
stands in no other. -/
theorem exists_outside_or_group {c : Char} (hc : ∀ before, markOf before c = .neutral)
    {before : Option Char} {s : Text} (h : openAfter? before [] s = some []) (hm : c ∈ s) :
    (∃ outer after, s = outer ++ c :: after ∧ openAfter? before [] outer = some []) ∨
      ∃ (bracket : Bracket) (outer inside after : Text),
        s = outer ++ bracket.opener :: (inside ++ bracket.closer :: after) ∧
          openAfter? before [] outer = some [] ∧ WellNested inside ∧ c ∈ inside := by
  match s, hm with
  | d :: s, hm =>
    obtain ⟨next, hnext, hs⟩ := Option.bind_eq_some_iff.1 ((openAfter?_cons _ _ _ _).symm.trans h)
    obtain ⟨bracket, hmark, rfl⟩ | ⟨bracket, _, hnil⟩ | ⟨hmark, rfl⟩ := stackStep_eq_some hnext
    · -- A group begins: `c` stands in it, or behind it.
      obtain rfl := markOf_eq_opens_iff.1 hmark
      have hopen : openAfter? (some bracket.opener) ([] ++ bracket :: []) s = some [] := hs
      obtain ⟨inside, after, rfl, hinside, ha⟩ := Bracket.exists_closer hopen
      have hafter : openAfter? (some bracket.closer) [] after = some [] := by
        rw [← Bracket.openAfter?_group hinside ha before]
        exact h
      by_cases hci : c ∈ inside
      · have hnested : WellNested inside := by
          rwa [openAfter?_of_ne bracket.opener_ne_dash] at hinside
        exact .inr ⟨bracket, [], inside, after, rfl, rfl, hnested, hci⟩
      · have hca : c ∈ after := by
          have hopener : c ≠ bracket.opener := by
            rintro rfl
            exact absurd ((hc none).symm.trans (markOf_opener none bracket)) nofun
          have hcloser : c ≠ bracket.closer := by
            rintro rfl
            have hspace : isArrowHead (some ' ') bracket.closer = false := by
              cases bracket <;> rfl
            exact absurd ((hc _).symm.trans (markOf_closer _ bracket hspace)) nofun
          simpa [hopener, hcloser, hci] using hm
        rcases exists_outside_or_group hc hafter hca with
          ⟨outer, after', rfl, houter⟩ | ⟨other, outer, inside', after', rfl, houter, hin⟩
        · refine .inl ⟨bracket.opener :: (inside ++ bracket.closer :: outer), after', by simp, ?_⟩
          rw [Bracket.openAfter?_group hinside ha]
          exact houter
        · refine .inr ⟨other, bracket.opener :: (inside ++ bracket.closer :: outer), inside',
            after', by simp, ?_, hin⟩
          rw [Bracket.openAfter?_group hinside ha]
          exact houter
    · cases hnil
    · have hcons : ∀ outer, openAfter? before [] (d :: outer) = openAfter? (some d) [] outer := by
        intro outer
        rw [openAfter?_cons, hmark]
        rfl
      rcases List.mem_cons.1 hm with rfl | hm
      · exact .inl ⟨[], s, rfl, rfl⟩
      rcases exists_outside_or_group hc hs hm with
        ⟨outer, after, rfl, houter⟩ | ⟨bracket, outer, inside, after, rfl, houter, hin⟩
      · exact .inl ⟨d :: outer, after, rfl, (hcons outer).trans houter⟩
      · exact .inr ⟨bracket, d :: outer, inside, after, rfl, (hcons outer).trans houter, hin⟩
termination_by s.length

/-! ### Types in square brackets -/

/-- Well-nested text in square brackets is read as an array just when it holds a semicolon. -/
theorem parse_squared {t : Text} (ht : WellNested t) :
    parse ('[' :: (t ++ [']']))
      = .ok (.verbatim (if ';' ∈ t then .array else .slice) ('[' :: (t ++ [']']))) := by
  have htrimmed : Text.Trimmed ('[' :: (t ++ [']'])) := by
    refine ⟨fun c hc => ?_, fun c hc => ?_⟩
    · cases hc
      decide
    · rw [← List.cons_append, List.getLast?_concat, Option.some.injEq] at hc
      subst hc
      decide
  have henclosed : Bracket.square.enclosed? (t ++ [']']) = some (t, []) :=
    Bracket.enclosed?_of_closesIn (ht.closesIn .square) rfl []
  have hsquare : Layer.ofStripped? ('[' :: (t ++ [']']))
      = Layer.ofSquare? ('[' :: (t ++ [']'])) (t ++ [']']) := rfl
  have hcontains : ('[' :: (t ++ [']'])).contains ';' = true ↔ ';' ∈ t := by
    simp
  rw [parse_eq_ok_iff, parseType_eq_ok_iff]
  refine ⟨.verbatim (if ';' ∈ t then .array else .slice) ('[' :: (t ++ [']'])), ?_, rfl⟩
  rw [Layer.peel?, htrimmed.strip_eq, hsquare, Layer.ofSquare?, henclosed]
  simp only [hcontains]

/-- In text that stands in square brackets itself, every semicolon does. -/
theorem not_hasOuterSemicolon_squared {u : Text} (hu : WellNested u) :
    ¬ HasOuterSemicolon ('[' :: (u ++ [']'])) := by
  rintro ⟨i, hi, hsemicolon, houter⟩
  cases i with
  | zero => cases hsemicolon
  | succ i =>
    have hlength : i < u.length + 1 := by simpa using hi
    have hi : i ≤ u.length := Nat.le_of_lt_succ hlength
    have hopen : openAfter? (some '[') ([] ++ .square :: []) (u.take i) = some [] := by
      rwa [List.take_succ_cons, List.take_append_of_le_length hi] at houter
    -- The first bracket is closed before the semicolon, so `u` closes a bracket it does not open.
    obtain ⟨inside, after, htake, hinside, ha⟩ := Bracket.exists_closer hopen
    have hne : some '[' ≠ some '-' := by decide
    rw [openAfter?_of_ne hne] at hinside
    rw [isArrowHead_lastOr hne] at ha
    have hclosed : u = inside ++ Bracket.square.closer :: (after ++ u.drop i) := by
      rw [← List.cons_append, ← List.append_assoc, ← htake, List.take_append_drop]
    rw [hclosed] at hu
    exact Bracket.square.not_wellNested_of_closer hinside ha _ hu

/-- What is read of well-nested text in square brackets. Its form is the right one, an array just
when a semicolon stands outside all brackets of the text, unless the only semicolons stand inside
them; then a slice is read as an array, and so is every slice of arrays, however deep. -/
theorem parse_squared_iff {t : Text} (ht : WellNested t) :
    let s := '[' :: (t ++ [']'])
    let right : Form := if HasOuterSemicolon t then .array else .slice
    ∃ form, parse s = .ok (.verbatim form s) ∧
      (form = .array ∧ ';' ∈ t ∨ form = .slice ∧ ';' ∉ t) ∧
      (form = right ↔ (';' ∈ t → HasOuterSemicolon t)) ∧
      (form ≠ right → form = .array ∧ right = .slice ∧
        ∃ (bracket : Bracket) (outer inside after : Text),
          t = outer ++ bracket.opener :: (inside ++ bracket.closer :: after) ∧
            WellNested outer ∧ WellNested inside ∧ ';' ∈ inside) ∧
      ∀ u, WellNested u → ';' ∈ u → t = '[' :: (u ++ [']']) → form = .array ∧ right = .slice := by
  intro s right
  have hslice : ¬ HasOuterSemicolon t → right = .slice := fun h => if_neg h
  refine ⟨if ';' ∈ t then .array else .slice, parse_squared ht, ?_⟩
  by_cases hmem : ';' ∈ t
  · rw [if_pos hmem]
    have hiff : Form.array = right ↔ HasOuterSemicolon t := by
      by_cases h : HasOuterSemicolon t
      · exact iff_of_true (if_pos h).symm h
      · rw [hslice h]
        exact iff_of_false nofun h
    refine ⟨.inl ⟨rfl, hmem⟩, hiff.trans ⟨fun h _ => h, fun h => h hmem⟩, fun hne => ?_,
      fun u hu _ htu => ⟨rfl, hslice (htu ▸ not_hasOuterSemicolon_squared hu)⟩⟩
    have hnone : ¬ HasOuterSemicolon t := fun h => hne (hiff.2 h)
    refine ⟨rfl, hslice hnone, ?_⟩
    rcases exists_outside_or_group (fun _ => rfl) ht hmem with
      ⟨outer, after, rfl, houter⟩ | hgroup
    · exact absurd (hasOuterSemicolon_of_append houter after) hnone
    · exact hgroup
  · rw [if_neg hmem]
    have hright : right = .slice := hslice fun h => hmem h.mem
    refine ⟨.inr ⟨rfl, hmem⟩, iff_of_true hright.symm fun h => absurd h hmem,
      fun hne => absurd hright.symm hne, fun u _ hsemicolon htu => ?_⟩
    rw [htu] at hmem
    exact absurd (List.mem_cons_of_mem _ (List.mem_append_left _ hsemicolon)) hmem

/-- A slice of arrays is read as an array. -/
theorem parse_squared_iff_slice_of_arrays :
    let t := "[u8; 4]".toList
    WellNested t ∧ ¬ HasOuterSemicolon t ∧
      parse "[[u8; 4]]".toList = .ok (.verbatim .array "[[u8; 4]]".toList) := by
  intro t
  have ht : WellNested t := by decide
  have hinside : WellNested "u8; 4".toList := by decide
  obtain ⟨form, hparse, _, _, _, hsquared⟩ := parse_squared_iff ht
  obtain ⟨rfl, _⟩ := hsquared "u8; 4".toList hinside (by decide) rfl
  exact ⟨ht, not_hasOuterSemicolon_squared hinside, hparse⟩

end TypeBridge
