import TypeBridge.Proofs.Nesting.Commas

/-!
The depth at which a list is read: each opener counts one up and each closer one down, all kinds
together, and a comma separates where the count is zero. Main statement: the pieces of any text,
well nested or not, give it back when they are joined by commas, but for a separating comma at its
very end; and no piece holds a comma that would split it again.
-/

namespace TypeBridge

/-- The openers of a text less its closers, all kinds of brackets counted together. -/
def netDepth : Option Char → Text → Int
  | _, [] => 0
  | before, c :: s => (markOf before c).delta + netDepth (some c) s

@[simp] theorem netDepth_nil (before : Option Char) : netDepth before [] = 0 := rfl

theorem netDepth_cons (before : Option Char) (c : Char) (s : Text) :
    netDepth before (c :: s) = (markOf before c).delta + netDepth (some c) s := rfl

theorem netDepth_append : ∀ (before : Option Char) (s t : Text),
    netDepth before (s ++ t) = netDepth before s + netDepth (lastOr before s) t
  | _, [], _ => by simp
  | before, c :: s, t => by
    rw [List.cons_append, netDepth_cons, netDepth_cons, netDepth_append (some c) s t, lastOr_cons]
    omega

theorem netDepth_of_ne {before : Option Char} (h : before ≠ some '-') (s : Text) :
    netDepth before s = netDepth none s := by
  cases s with
  | nil => rfl
  | cons c s => rw [netDepth_cons, markOf_of_ne h, netDepth_cons]

/-- Behind a comma the count goes on as if the text began there. -/
theorem netDepth_append_comma (before : Option Char) (s t : Text) :
    netDepth before (s ++ ',' :: t) = netDepth before s + netDepth none t := by
  have hcomma : some ',' ≠ some '-' := by decide
  rw [netDepth_append, netDepth_cons, markOf_comma, netDepth_of_ne hcomma, Mark.delta]
  omega

/-! ### Commas that separate -/

/-- Whether no comma of a text that is read from `depth` is met at depth zero. -/
def Unsplit (before : Option Char) (depth : Int) (s : Text) : Prop :=
  ∀ t, t ++ [','] <+: s → depth + netDepth before t ≠ 0

theorem unsplit_cons_iff {before : Option Char} {depth : Int} {c : Char} {s : Text} :
    Unsplit before depth (c :: s) ↔
      ¬ (c = ',' ∧ depth = 0) ∧ Unsplit (some c) (depth + (markOf before c).delta) s := by
  constructor
  · intro h
    refine ⟨fun ⟨hc, hd⟩ => h [] ⟨s, by rw [hc]; rfl⟩ (by rw [hd]; rfl), fun t ht => ?_⟩
    have hcons := h (c :: t) (List.cons_prefix_cons.2 ⟨rfl, ht⟩)
    rwa [netDepth_cons, ← Int.add_assoc] at hcons
  · rintro ⟨hc, hs⟩ t ht
    cases t with
    | nil =>
      obtain ⟨rfl, _⟩ := List.cons_prefix_cons.1 ht
      rw [netDepth_nil, Int.add_zero]
      exact fun hd => hc ⟨rfl, hd⟩
    | cons d t =>
      obtain ⟨rfl, htail⟩ := List.cons_prefix_cons.1 ht
      rw [netDepth_cons, ← Int.add_assoc]
      exact hs t htail

/-- The depth that a list is read to is the count, unless a comma separates before. -/
theorem depthAfter?_eq_some_iff {before : Option Char} {depth next : Int} {s : Text} :
    depthAfter? before depth s = some next ↔
      Unsplit before depth s ∧ next = depth + netDepth before s := by
  induction s generalizing before depth with
  | nil =>
    have hunsplit : Unsplit before depth [] := fun t ht => by simp at ht
    rw [netDepth_nil, Int.add_zero, and_iff_right hunsplit, eq_comm (a := next)]
    exact Option.some_inj
  | cons c s ih =>
    rw [depthAfter?, scan_cons_eq_some, unsplit_cons_iff, netDepth_cons, ← Int.add_assoc]
    constructor
    · rintro ⟨d, hd, hs⟩
      obtain ⟨hc, rfl⟩ := commaStep_eq_some.1 hd
      obtain ⟨hu, hn⟩ := ih.1 hs
      exact ⟨⟨hc, hu⟩, hn⟩
    · rintro ⟨⟨hc, hu⟩, hn⟩
      exact ⟨_, commaStep_of_not hc, ih.2 ⟨hu, hn⟩⟩

theorem netDepth_eq_zero_of_depthAfter? {before : Option Char} {s : Text}
    (h : depthAfter? before 0 s = some 0) : netDepth before s = 0 := by
  have hn := (depthAfter?_eq_some_iff.1 h).2
  omega

theorem depthAfter?_ne_none_iff {before : Option Char} {depth : Int} {s : Text} :
    depthAfter? before depth s ≠ none ↔ Unsplit before depth s := by
  rw [Option.ne_none_iff_exists']
  constructor
  · rintro ⟨next, h⟩
    exact (depthAfter?_eq_some_iff.1 h).1
  · intro h
    exact ⟨_, depthAfter?_eq_some_iff.2 ⟨h, rfl⟩⟩

/-! ### Open brackets -/

section

variable {before : Option Char} {stack stack' : List Bracket} {s : Text}

/-- What is counted is the brackets that are open. -/
theorem netDepth_of_openAfter? (h : openAfter? before stack s = some stack') :
    (stack'.length : Int) = stack.length + netDepth before s := by
  induction s generalizing before stack with
  | nil =>
    cases h
    rw [netDepth_nil, Int.add_zero]
  | cons c s ih =>
    rw [openAfter?_eq_scan] at h
    obtain ⟨next, hnext, hs⟩ := scan_cons_eq_some.1 h
    rw [← openAfter?_eq_scan] at hs
    rw [ih hs, stackStep_length hnext, netDepth_cons]
    omega

theorem WellNested.netDepth_eq (h : WellNested s) : netDepth none s = 0 := by
  have hd := netDepth_of_openAfter? h
  simpa using hd.symm

theorem exists_openAfter?_of_prefix {t : Text} (h : openAfter? before stack s = some stack')
    (ht : t <+: s) : ∃ between, openAfter? before stack t = some between := by
  obtain ⟨after, rfl⟩ := ht
  rw [openAfter?_append] at h
  obtain ⟨between, hbetween, _⟩ := Option.bind_eq_some_iff.1 h
  exact ⟨between, hbetween⟩

/-- Below an open bracket, no comma separates. -/
theorem depthAfter?_of_openAfter? {base : Int} (hbase : 0 < base)
    (h : openAfter? before stack s = some stack') :
    depthAfter? before (stack.length + base) s = some (stack'.length + base) := by
  refine depthAfter?_eq_some_iff.2 ⟨fun t ht hzero => ?_, ?_⟩
  · obtain ⟨between, hbetween⟩ := exists_openAfter?_of_prefix h ((List.prefix_append t _).trans ht)
    have hd := netDepth_of_openAfter? hbetween
    omega
  · have hd := netDepth_of_openAfter? h
    omega

/-- The depth after a text counts the brackets that it leaves open. -/
theorem eq_of_depthAfter?_of_openAfter? {depth : Int} (h : openAfter? before stack s = some stack')
    (hd : depthAfter? before stack.length s = some depth) : depth = stack'.length := by
  rw [netDepth_of_openAfter? h]
  exact (depthAfter?_eq_some_iff.1 hd).2

end

/-! ### Texts that keep apart -/

theorem forall_mem_dropLast_iff_pairwise {α : Type} {P : α → Prop} {l : List α} :
    (∀ a ∈ l.dropLast, P a) ↔ l.Pairwise fun a _ => P a := by
  induction l with
  | nil => simp
  | cons a rest ih =>
    cases rest with
    | nil => simp
    | cons b rest =>
      rw [List.dropLast_cons_cons, List.forall_mem_cons, ih, List.pairwise_cons (a := a)]
      exact and_congr_left fun _ => ⟨fun h _ _ => h, fun h => h b List.mem_cons_self⟩

/-- Texts keep apart when they are joined by commas just when none of them holds a comma that
separates and each but the last ends at depth zero. -/
theorem splitsFrom_iff {before : Option Char} (hb : before ≠ some '-') {pieces : List Text} :
    SplitsFrom before 0 pieces ↔ pieces ≠ [] ∧ (∀ piece ∈ pieces, Unsplit none 0 piece) ∧
      ∀ piece ∈ pieces.dropLast, netDepth none piece = 0 := by
  induction pieces generalizing before with
  | nil => exact ⟨fun h => absurd h id, fun h => absurd rfl h.1⟩
  | cons piece rest ih =>
    cases rest with
    | nil =>
      show depthAfter? before 0 piece ≠ none ↔ _
      rw [depthAfter?_of_ne hb, depthAfter?_ne_none_iff]
      simp
    | cons next rest =>
      have hcomma : some ',' ≠ some '-' := by decide
      show depthAfter? before 0 piece = some 0 ∧ SplitsFrom (some ',') 0 (next :: rest) ↔ _
      rw [depthAfter?_of_ne hb, depthAfter?_eq_some_iff, ih hcomma, Int.zero_add,
        List.dropLast_cons_cons]
      constructor
      · rintro ⟨⟨hu, hd⟩, _, hus, hds⟩
        exact ⟨List.cons_ne_nil _ _, List.forall_mem_cons.2 ⟨hu, hus⟩,
          List.forall_mem_cons.2 ⟨hd.symm, hds⟩⟩
      · rintro ⟨_, hus, hds⟩
        obtain ⟨hu, hus⟩ := List.forall_mem_cons.1 hus
        obtain ⟨hd, hds⟩ := List.forall_mem_cons.1 hds
        exact ⟨⟨hu, hd.symm⟩, List.cons_ne_nil _ _, hus, hds⟩

/-- Texts keep apart that have no comma which separates and end at depth zero. -/
theorem splitsFrom_of_forall {before : Option Char} (hb : before ≠ some '-') {pieces : List Text}
    (hne : pieces ≠ []) (h : ∀ piece ∈ pieces, depthAfter? none 0 piece = some 0) :
    SplitsFrom before 0 pieces := by
  refine (splitsFrom_iff hb).2 ⟨hne, fun piece hp => (depthAfter?_eq_some_iff.1 (h piece hp)).1, ?_⟩
  exact fun piece hp => netDepth_eq_zero_of_depthAfter? (h piece (List.dropLast_subset pieces hp))

/-- Some of several texts that keep apart do so by themselves. -/
theorem SplitsFrom.sublist {pieces others : List Text} (h : SplitsFrom none 0 pieces)
    (hs : others.Sublist pieces) (hne : others ≠ []) : SplitsFrom none 0 others := by
  have hnone : none ≠ some '-' := nofun
  obtain ⟨_, hu, hd⟩ := (splitsFrom_iff hnone).1 h
  refine (splitsFrom_iff hnone).2 ⟨hne, fun piece hp => hu piece (hs.subset hp), ?_⟩
  exact forall_mem_dropLast_iff_pairwise.2 ((forall_mem_dropLast_iff_pairwise.1 hd).sublist hs)

/-! ### Losslessness -/

theorem modifyHead_append (c : Char) {pieces : List Text} (h : pieces ≠ []) (others : List Text) :
    (pieces ++ others).modifyHead (c :: ·) = pieces.modifyHead (c :: ·) ++ others := by
  cases pieces with
  | nil => exact absurd rfl h
  | cons piece pieces => rfl

/-- Behind a comma that separates at the end of a text stands an empty piece. -/
theorem piecesFrom_concat_comma : ∀ {before : Option Char} {depth : Int} {s : Text},
    depth + netDepth before s = 0 →
      piecesFrom before depth (s ++ [',']) = piecesFrom before depth s ++ [[]]
  | before, depth, [], h => by
    obtain rfl : depth = 0 := by simpa using h
    rfl
  | before, depth, c :: s, h => by
    rw [netDepth_cons, ← Int.add_assoc] at h
    rw [List.cons_append, piecesFrom, piecesFrom]
    split
    · rename_i hc
      obtain ⟨rfl, rfl⟩ := hc
      exact congrArg ([] :: ·) (piecesFrom_concat_comma h)
    · rw [piecesFrom_concat_comma h, modifyHead_append c (piecesFrom_ne_nil _ _ s)]

/-- Where an empty piece ends a list, the text before it ends at depth zero. -/
theorem netDepth_intercalate {before : Option Char} {depth : Int} {pieces others : List Text}
    (hne : pieces ≠ []) (ho : others ≠ []) (h : SplitsFrom before depth (pieces ++ others)) :
    depth + netDepth before ([','].intercalate pieces) = 0 := by
  induction pieces generalizing before depth with
  | nil => exact absurd rfl hne
  | cons piece rest ih =>
    cases rest with
    | nil =>
      obtain ⟨other, others, rfl⟩ := List.exists_cons_of_ne_nil ho
      rw [List.intercalate_singleton]
      exact (depthAfter?_eq_some_iff.1 h.1).2.symm
    | cons next rest =>
      obtain ⟨hpiece, hrest⟩ := h
      have hcomma : some ',' ≠ some '-' := by decide
      have hd := (depthAfter?_eq_some_iff.1 hpiece).2
      have htail := ih (List.cons_ne_nil next rest) hrest
      rw [netDepth_of_ne hcomma] at htail
      rw [List.intercalate_cons_cons, List.append_assoc, List.singleton_append,
        netDepth_append_comma]
      omega

theorem dropEmptyEnd_concat_nil : ∀ pieces : List Text, dropEmptyEnd (pieces ++ [[]]) = pieces
  | [] => rfl
  | [_] => rfl
  | piece :: next :: rest => by
    have ih := dropEmptyEnd_concat_nil (next :: rest)
    rw [List.cons_append] at ih
    rw [List.cons_append, List.cons_append, dropEmptyEnd, ih]

theorem splitPieces_eq_singleton {piece : Text} (hne : piece ≠ []) (h : Unsplit none 0 piece) :
    splitPieces piece = [piece] := by
  rw [splitPieces, piecesFrom_eq_singleton (depthAfter?_ne_none_iff.2 h), dropEmptyEnd, if_neg]
  rwa [List.isEmpty_iff]

/-- Nothing is dropped of a text at whose end no comma separates. -/
theorem intercalate_splitPieces_of_not {s : Text}
    (h : ¬ ∃ t, s = t ++ [','] ∧ netDepth none t = 0) :
    [','].intercalate (splitPieces s) = s := by
  have hjoin := intercalate_piecesFrom none 0 s
  have hsplits := splitsFrom_piecesFrom none 0 s
  rw [splitPieces]
  rcases dropEmptyEnd_eq_or (piecesFrom none 0 s) with hall | hdropped
  · rw [hall, hjoin]
  · by_cases hnil : dropEmptyEnd (piecesFrom none 0 s) = []
    · rw [hnil, List.nil_append] at hdropped
      rw [hnil, ← hjoin, hdropped]
      rfl
    · -- An empty piece behind others would stand behind a comma that separates.
      rw [hdropped] at hsplits hjoin
      rw [Text.intercalate_append [','] hnil, if_neg (List.cons_ne_nil _ _)] at hjoin
      have hd := netDepth_intercalate hnil (List.cons_ne_nil _ _) hsplits
      rw [Int.zero_add] at hd
      exact absurd ⟨_, hjoin.symm, hd⟩ h

/-- The pieces of a text are all of it but for the commas between them and one that separates at its
very end, if it has one; and none of them holds a comma that separates, so it stays in one piece. -/
theorem intercalate_splitPieces (s : Text) :
    let separatedEnd := ∃ t, s = t ++ [','] ∧ netDepth none t = 0
    (s = [','].intercalate (splitPieces s) ∧ ¬ separatedEnd ∨
      s = [','].intercalate (splitPieces s) ++ [','] ∧ separatedEnd) ∧
    ∀ piece ∈ splitPieces s, (∀ t, t ++ [','] <+: piece → netDepth none t ≠ 0) ∧
      (piece ≠ [] → splitPieces piece = [piece]) := by
  intro separatedEnd
  have hnone : none ≠ some '-' := nofun
  constructor
  · by_cases hend : separatedEnd
    · refine .inr ⟨?_, hend⟩
      obtain ⟨t, rfl, ht⟩ := hend
      rw [splitPieces, piecesFrom_concat_comma ((Int.zero_add _).trans ht),
        dropEmptyEnd_concat_nil, intercalate_piecesFrom]
    · exact .inl ⟨(intercalate_splitPieces_of_not hend).symm, hend⟩
  · obtain ⟨_, hunsplit, _⟩ := (splitsFrom_iff hnone).1 (splitsFrom_piecesFrom none 0 s)
    intro piece hp
    have hu := hunsplit piece (mem_of_mem_dropEmptyEnd hp)
    refine ⟨fun t ht => ?_, fun hne => splitPieces_eq_singleton hne hu⟩
    rw [← Int.zero_add (netDepth none t)]
    exact hu t ht

/-- A list with an arrow, with a closer that nothing opens and with two commas at its end. -/
theorem intercalate_splitPieces_arrow :
    let s := "Fn(a, b) -> <c, d>,e>,f<,-,,".toList
    let piece := "Fn(a, b) -> <c, d>".toList
    splitPieces s = [piece, "e>,f<".toList, "-".toList, []] ∧
    s = [','].intercalate (splitPieces s) ++ [','] ∧ piece ≠ [] ∧ splitPieces piece = [piece] := by
  intro s piece
  have hpieces : splitPieces s = [piece, "e>,f<".toList, "-".toList, []] := by decide
  have hne : piece ≠ [] := by decide
  obtain ⟨hjoin, hall⟩ := intercalate_splitPieces s
  have hmem : piece ∈ splitPieces s := hpieces ▸ List.mem_cons_self
  refine ⟨hpieces, ?_, hne, (hall piece hmem).2 hne⟩
  rcases hjoin with ⟨_, hnot⟩ | ⟨h, _⟩
  · exact absurd ⟨"Fn(a, b) -> <c, d>,e>,f<,-,".toList, rfl, by decide⟩ hnot
  · exact h

end TypeBridge
