import TypeBridge.Nesting.Position
import TypeBridge.Proofs.Nesting.Enclosed

/-!
Closers behind well-nested text. A bracket around text in which its own kind closes is closed
directly behind that text, and a closer that no bracket was opened for ends the balanced start of a
text. Main statement: around well-nested text, counting one kind of bracket from inside the whole
text and counting all three from the start of what the bracket holds find the same closer.
-/

namespace TypeBridge.Bracket

variable {bracket : Bracket} {inside : Text}

theorem enclosedFrom?_of_ne {before : Option Char} (hb : before ≠ some '-') (level : Nat)
    (s : Text) : enclosedFrom? bracket.opener bracket.closer before level s
      = enclosedFrom? bracket.opener bracket.closer none level s := by
  cases s with
  | nil => rfl
  | cons c s => rw [enclosedFrom?_cons, enclosedFrom?_cons, markOf_of_ne hb]

theorem closingIndex?_of_closesIn (h : bracket.ClosesIn inside)
    (ha : isArrowHead (lastOr none inside) bracket.closer = false) (pre after : Text) :
    closingIndex? bracket.opener bracket.closer
        (pre ++ bracket.opener :: (inside ++ bracket.closer :: after)) (pre.length + 1)
      = some (pre.length + 1 + inside.length) := by
  have hlength : (pre ++ [bracket.opener]).length = pre.length + 1 := by simp
  have htext : pre ++ bracket.opener :: (inside ++ bracket.closer :: after)
      = (pre ++ [bracket.opener]) ++ (inside ++ bracket.closer :: after) := by simp
  have henclosed := enclosed?_of_closesIn h ha after
  rw [enclosed?] at henclosed
  rw [htext, closingIndex?, List.take_left' hlength, List.drop_left' hlength, List.getLast?_concat,
    enclosedFrom?_of_ne bracket.opener_ne_dash, henclosed, Option.map_some]

/-- A closer that no bracket was opened for ends the balanced start. -/
theorem balancedStart_of_closer (bracket : Bracket) (h : WellNested inside)
    (ha : isArrowHead (lastOr none inside) bracket.closer = false) (after : Text) :
    balancedStart (inside ++ bracket.closer :: after) = inside := by
  have hbalanced : balancedStart (inside ++ bracket.closer :: after)
      = inside ++ balancedFrom (lastOr none inside) 0 (bracket.closer :: after) :=
    balancedFrom_append _ h
  rw [hbalanced]
  simp only [balancedFrom, markOf_closer _ bracket ha, List.append_nil]

/-- What stands behind a closer that no bracket was opened for is no part of the arguments. -/
theorem splitArguments_of_closer (bracket : Bracket) (h : WellNested inside)
    (ha : isArrowHead (lastOr none inside) bracket.closer = false) (after : Text) :
    splitArguments (inside ++ bracket.closer :: after) = splitArguments inside := by
  have hinside : balancedStart (inside ++ []) = inside ++ balancedFrom (lastOr none inside) 0 [] :=
    balancedFrom_append [] h
  rw [balancedFrom, List.append_nil] at hinside
  rw [splitArguments, splitArguments, bracket.balancedStart_of_closer h ha, hinside]

theorem not_wellNested_of_closer (bracket : Bracket) (h : WellNested inside)
    (ha : isArrowHead (lastOr none inside) bracket.closer = false) (after : Text) :
    ¬ WellNested (inside ++ bracket.closer :: after) := by
  have hinside : openAfter? none [] inside = some [] := h
  have hnone : openAfter? none [] (inside ++ bracket.closer :: after) = none := by
    rw [openAfter?_append, hinside, Option.bind_some, openAfter?_eq_scan, scan_cons,
      markOf_closer _ bracket ha]
    rfl
  intro hall
  exact absurd (hnone.symm.trans hall) nofun

theorem isArrowHead_closer_eq_false (h : bracket = .angle → inside.getLast? ≠ some '-') :
    isArrowHead (lastOr none inside) bracket.closer = false := by
  cases bracket with
  | angle =>
    have hlast : lastOr none inside ≠ some '-' := lastOr_ne_of_getLast? (h rfl) nofun
    simpa [isArrowHead, closer] using hlast
  | round => rfl
  | square => rfl

/-- The closer behind well-nested text is found by each of the scans: as a position in a whole text
that holds more on both sides, as the end of what the bracket encloses, and as the end of the
balanced start of what follows the opener. -/
theorem closer_found (h : WellNested inside) (ha : bracket = .angle → inside.getLast? ≠ some '-')
    (pre after : Text) :
    closingPosition? bracket.opener bracket.closer
        (pre ++ bracket.opener :: (inside ++ bracket.closer :: after)) (Int.ofNat (pre.length + 1))
      = .ok (some (Int.ofNat (pre.length + 1 + inside.length))) ∧
    bracket.enclosed? (inside ++ bracket.closer :: after) = some (inside, after) ∧
    balancedStart (inside ++ bracket.closer :: after) = inside := by
  have harrow := isArrowHead_closer_eq_false ha
  have hcloses := h.closesIn bracket
  refine ⟨?_, enclosed?_of_closesIn hcloses harrow after,
    balancedStart_of_closer bracket h harrow after⟩
  rw [closingPosition?_ofNat, closingIndex?_of_closesIn hcloses harrow, Option.map_some]

/-- Brackets of the other kinds and an arrow inside, a dash before the opener, closers behind. -/
theorem closer_found_arrow :
    let inside := "fn([u8], <T>) -> (K, V)".toList
    WellNested inside ∧ inside.getLast? ≠ some '-' ∧
      closingPosition? '<' '>' ("-".toList ++ '<' :: (inside ++ '>' :: ">]".toList)) 2
        = .ok (some 25) ∧
      Bracket.angle.enclosed? (inside ++ '>' :: ">]".toList) = some (inside, ">]".toList) ∧
      balancedStart (inside ++ '>' :: ">]".toList) = inside := by
  intro inside
  have h : WellNested inside := by decide
  have ha : inside.getLast? ≠ some '-' := by decide
  exact ⟨h, ha, Bracket.angle.closer_found h (fun _ => ha) "-".toList ">]".toList⟩

end TypeBridge.Bracket
