import TypeBridge.Proofs.Nesting.Depth
import TypeBridge.Proofs.Nesting.Padded
import TypeBridge.Proofs.Wrapper.Arguments

/-!
Argument lists in normal form: no argument is blank at either end or closes a bracket that it did
not open, and only the last may leave one open. Main statement: the arguments of any text are in
normal form, and a list in normal form is found again when it is written with a comma and a space
between neighbours.
-/

namespace TypeBridge

theorem netDepth_of_quiet : ∀ {before : Option Char} {s : Text}, Quiet s → netDepth before s = 0
  | _, [], _ => rfl
  | before, c :: s, h => by
    have htail : Quiet s := fun d hd => h d (List.mem_cons_of_mem c hd)
    rw [netDepth_cons, markOf_of_quiet h List.mem_cons_self before, netDepth_of_quiet htail]
    rfl

/-! ### Texts that close no bracket too early -/

/-- Whether a text that is read from `depth` never goes below depth zero. -/
def NeverBelow (before : Option Char) (depth : Int) (s : Text) : Prop :=
  ∀ t, t <+: s → 0 ≤ depth + netDepth before t

section

variable {before : Option Char} {depth : Int} {s t : Text}

theorem neverBelow_nil_iff : NeverBelow before depth [] ↔ 0 ≤ depth := by
  simp [NeverBelow]

theorem neverBelow_cons_iff {c : Char} : NeverBelow before depth (c :: s) ↔
    0 ≤ depth ∧ NeverBelow (some c) (depth + (markOf before c).delta) s := by
  constructor
  · intro h
    refine ⟨by simpa using h [] List.nil_prefix, fun t ht => ?_⟩
    have hcons := h (c :: t) (List.cons_prefix_cons.2 ⟨rfl, ht⟩)
    rwa [netDepth_cons, ← Int.add_assoc] at hcons
  · rintro ⟨hd, hs⟩ t ht
    rcases List.prefix_cons_iff.1 ht with rfl | ⟨t, rfl, htail⟩
    · simpa using hd
    · rw [netDepth_cons, ← Int.add_assoc]
      exact hs t htail

theorem neverBelow_append_iff : NeverBelow before depth (s ++ t) ↔
    NeverBelow before depth s ∧ NeverBelow (lastOr before s) (depth + netDepth before s) t := by
  induction s generalizing before depth with
  | nil =>
    rw [List.nil_append, lastOr_nil, netDepth_nil, Int.add_zero, neverBelow_nil_iff,
      iff_and_self]
    intro h
    simpa using h [] List.nil_prefix
  | cons c s ih =>
    rw [List.cons_append, neverBelow_cons_iff, ih, neverBelow_cons_iff, lastOr_cons, netDepth_cons,
      and_assoc, Int.add_assoc]

theorem neverBelow_of_ne (hb : before ≠ some '-') :
    NeverBelow before depth s ↔ NeverBelow none depth s := by
  simp only [NeverBelow, netDepth_of_ne hb]

theorem neverBelow_of_quiet (hs : Quiet s) (hd : 0 ≤ depth) : NeverBelow before depth s := by
  intro t ht
  rw [netDepth_of_quiet fun c hc => hs c (ht.subset hc), Int.add_zero]
  exact hd

theorem neverBelow_padded_iff (h : Padded s t) : NeverBelow none 0 s ↔ NeverBelow none 0 t := by
  obtain ⟨l, r, hl, hr, rfl⟩ := h
  have hlast : lastOr none l ≠ some '-' := lastOr_ne_of_blank hl nofun
  have hquiet : Quiet l := quiet_of_blank hl
  have hstart : NeverBelow none 0 l := neverBelow_of_quiet hquiet (Int.le_refl 0)
  rw [List.append_assoc, neverBelow_append_iff, netDepth_of_quiet hquiet, neverBelow_of_ne hlast,
    neverBelow_append_iff, and_iff_right hstart, Int.add_zero, and_iff_left_iff_imp]
  exact fun ht => neverBelow_of_quiet (quiet_of_blank hr) (ht t (List.prefix_refl t))

/-- A list that splits between its texts never goes below zero just when none of them does. -/
theorem neverBelow_intercalate_iff {pieces : List Text} (hb : before ≠ some '-')
    (h : SplitsFrom before 0 pieces) : NeverBelow before 0 ([','].intercalate pieces) ↔
      ∀ piece ∈ pieces, NeverBelow none 0 piece := by
  induction pieces generalizing before with
  | nil => exact absurd h id
  | cons piece rest ih =>
    cases rest with
    | nil => rw [List.intercalate_singleton, neverBelow_of_ne hb, List.forall_mem_singleton]
    | cons next rest =>
      obtain ⟨hpiece, hrest⟩ := h
      have hcomma : some ',' ≠ some '-' := by decide
      have hd := netDepth_eq_zero_of_depthAfter? hpiece
      rw [List.intercalate_cons_cons, List.append_assoc, neverBelow_append_iff,
        neverBelow_of_ne hb, hd, List.singleton_append, neverBelow_cons_iff, markOf_comma,
        List.forall_mem_cons, ← ih hcomma hrest]
      simp [Mark.delta]

end

/-! ### The balanced start -/

/-- The balanced start goes on behind a character unless that closes more than is open. -/
theorem balancedFrom_cons (before : Option Char) (depth : Nat) (c : Char) (s : Text) :
    (∃ next : Nat, (next : Int) = depth + (markOf before c).delta ∧
        balancedFrom before depth (c :: s) = c :: balancedFrom (some c) next s) ∨
      ((depth : Int) + (markOf before c).delta < 0 ∧ balancedFrom before depth (c :: s) = []) := by
  cases hm : markOf before c with
  | opens bracket =>
    simp only [balancedFrom, hm]
    exact .inl ⟨depth + 1, rfl, rfl⟩
  | neutral =>
    simp only [balancedFrom, hm]
    exact .inl ⟨depth, (Int.add_zero _).symm, rfl⟩
  | closes bracket =>
    cases depth with
    | zero =>
      simp only [balancedFrom, hm]
      exact .inr ⟨by rw [Mark.delta]; omega, trivial⟩
    | succ depth =>
      simp only [balancedFrom, hm]
      exact .inl ⟨depth, by rw [Mark.delta]; omega, rfl⟩

theorem neverBelow_balancedFrom : ∀ (before : Option Char) (depth : Nat) (s : Text),
    NeverBelow before depth (balancedFrom before depth s)
  | _, depth, [] => neverBelow_nil_iff.2 (Int.natCast_nonneg depth)
  | before, depth, c :: s => by
    have hdepth : (0 : Int) ≤ depth := Int.natCast_nonneg depth
    rcases balancedFrom_cons before depth c s with ⟨next, hnext, hcons⟩ | ⟨_, hnil⟩
    · have ih := neverBelow_balancedFrom (some c) next s
      rw [hnext] at ih
      rw [hcons]
      exact neverBelow_cons_iff.2 ⟨hdepth, ih⟩
    · rw [hnil]
      exact neverBelow_nil_iff.2 hdepth

theorem balancedFrom_eq_self : ∀ {before : Option Char} {depth : Nat} {s : Text},
    NeverBelow before depth s → balancedFrom before depth s = s
  | _, _, [], _ => rfl
  | before, depth, c :: s, h => by
    obtain ⟨_, hs⟩ := neverBelow_cons_iff.1 h
    rcases balancedFrom_cons before depth c s with ⟨next, hnext, hcons⟩ | ⟨hbelow, _⟩
    · rw [← hnext] at hs
      rw [hcons, balancedFrom_eq_self hs]
    · have hzero := hs [] List.nil_prefix
      rw [netDepth_nil] at hzero
      omega

/-! ### Normal form -/

/-- Whether a list of arguments is in normal form. -/
structure NormalArguments (args : List Text) : Prop where
  /-- Every argument is written, and has no blank at either end. -/
  written : ∀ a ∈ args, a ≠ [] ∧ Text.Trimmed a
  /-- No argument closes a bracket that it did not open. -/
  neverBelow : ∀ a ∈ args, ∀ t, t <+: a → 0 ≤ netDepth none t
  /-- No argument holds a comma outside its brackets. -/
  unsplit : ∀ a ∈ args, ∀ t, t ++ [','] <+: a → netDepth none t ≠ 0
  /-- Every argument but the last closes the brackets that it opens. -/
  closed : ∀ a ∈ args.dropLast, netDepth none a = 0

theorem unsplit_none_iff {s : Text} :
    Unsplit none 0 s ↔ ∀ t, t ++ [','] <+: s → netDepth none t ≠ 0 := by
  simp only [Unsplit, Int.zero_add]

theorem neverBelow_none_iff {s : Text} :
    NeverBelow none 0 s ↔ ∀ t, t <+: s → 0 ≤ netDepth none t := by
  simp only [NeverBelow, Int.zero_add]

theorem NormalArguments.splitsFrom {args : List Text} (h : NormalArguments args) (hne : args ≠ []) :
    SplitsFrom none 0 args := by
  have hnone : none ≠ some '-' := nofun
  exact (splitsFrom_iff hnone).2 ⟨hne, fun a ha => unsplit_none_iff.2 (h.unsplit a ha), h.closed⟩

theorem padded_strip (s : Text) : Padded s (Text.strip s) := Text.exists_strip s

theorem map_strip_of_padded {pieces texts : List Text} (h : List.Forall₂ Padded pieces texts) :
    pieces.map Text.strip = texts.map Text.strip := by
  induction h with
  | nil => rfl
  | cons hpadded _ ih => rw [List.map_cons, List.map_cons, hpadded.strip_eq, ih]

/-- The arguments of any text are in normal form. -/
theorem normalArguments_splitArguments (s : Text) : NormalArguments (splitArguments s) := by
  have hnone : none ≠ some '-' := nofun
  by_cases hne : splitArguments s = []
  · rw [hne]
    exact ⟨nofun, nofun, nofun, nofun⟩
  let pieces := piecesFrom none 0 (balancedFrom none 0 s)
  have hargs : splitArguments s = (pieces.map Text.strip).filter fun piece => !piece.isEmpty :=
    splitArguments_eq s
  have hsplits : SplitsFrom none 0 pieces := splitsFrom_piecesFrom none 0 _
  have hbelow : ∀ piece ∈ pieces, NeverBelow none 0 piece := by
    rw [← neverBelow_intercalate_iff hnone hsplits, intercalate_piecesFrom]
    exact neverBelow_balancedFrom none 0 s
  have hstripped : SplitsFrom none 0 (pieces.map Text.strip) := by
    refine (splitsFrom_padded_iff ?_ hnone).1 hsplits
    exact List.forall₂_map_right_iff.2 (List.forall₂_same.2 fun piece _ => padded_strip piece)
  have hsome : SplitsFrom none 0 (splitArguments s) :=
    hstripped.sublist (hargs ▸ List.filter_sublist) hne
  obtain ⟨_, hunsplit, hclosed⟩ := (splitsFrom_iff hnone).1 hsome
  refine ⟨fun a ha => trimmed_of_mem_splitArguments ha, fun a ha => ?_,
    fun a ha => unsplit_none_iff.1 (hunsplit a ha), hclosed⟩
  rw [hargs] at ha
  obtain ⟨piece, hp, rfl⟩ := List.mem_map.1 (List.mem_filter.1 ha).1
  exact neverBelow_none_iff.1 ((neverBelow_padded_iff (padded_strip piece)).1 (hbelow piece hp))

/-- A list in normal form is found again when it is written with a comma and a space between
neighbours. -/
theorem NormalArguments.splitArguments_intercalate {args : List Text} (h : NormalArguments args) :
    splitArguments (", ".toList.intercalate args) = args := by
  have hnone : none ≠ some '-' := nofun
  by_cases hne : args = []
  · rw [hne]
    rfl
  obtain ⟨pieces, hjoin, hpadded⟩ := exists_padded Text.blank_nil Text.blank_nil hne
  rw [List.nil_append, List.append_nil] at hjoin
  have hsplits : SplitsFrom none 0 pieces :=
    (splitsFrom_padded_iff hpadded hnone).2 (h.splitsFrom hne)
  have hstrip : pieces.map Text.strip = args := by
    rw [map_strip_of_padded hpadded]
    exact (List.map_congr_left fun a ha => (h.written a ha).2.strip_eq).trans (List.map_id' args)
  have hbelow : NeverBelow none 0 ([','].intercalate pieces) := by
    refine (neverBelow_intercalate_iff hnone hsplits).2 fun piece hp => ?_
    have hmem : Text.strip piece ∈ args := hstrip ▸ List.mem_map_of_mem hp
    exact (neverBelow_padded_iff (padded_strip piece)).2
      (neverBelow_none_iff.2 (h.neverBelow _ hmem))
  rw [splitArguments_eq, argumentsFrom, ← hjoin, balancedFrom_eq_self hbelow,
    piecesFrom_intercalate hsplits, hstrip, List.filter_eq_self]
  intro a ha
  simpa using (h.written a ha).1

/-- The arguments of any text are in normal form, and writing them with a comma and a space between
neighbours gives them again, as it does for every list in normal form. -/
theorem splitArguments_normal (s : Text) :
    (∀ a ∈ splitArguments s, a ≠ [] ∧ Text.Trimmed a ∧ ∀ t, t <+: a → 0 ≤ netDepth none t) ∧
    (∀ a ∈ (splitArguments s).dropLast, netDepth none a = 0) ∧
    splitArguments (", ".toList.intercalate (splitArguments s)) = splitArguments s ∧
    ∀ args, NormalArguments args → splitArguments (", ".toList.intercalate args) = args := by
  have hnormal := normalArguments_splitArguments s
  exact ⟨fun a ha => ⟨(hnormal.written a ha).1, (hnormal.written a ha).2, hnormal.neverBelow a ha⟩,
    hnormal.closed, hnormal.splitArguments_intercalate, fun args h => h.splitArguments_intercalate⟩

/-- Blanks, a piece that is blank, an arrow, and a last argument that leaves two brackets open. -/
theorem splitArguments_normal_unclosed :
    let s := " K ,\t, (u8 -> u16), [V < T, W ".toList
    let args := ["K".toList, "(u8 -> u16)".toList, "[V < T, W".toList]
    splitArguments s = args ∧ NormalArguments args ∧ Text.Trimmed "[V < T, W".toList ∧
      netDepth none "(u8 -> u16)".toList = 0 ∧
      splitArguments (", ".toList.intercalate args) = args := by
  intro s args
  have hargs : splitArguments s = args := by decide
  have hnormal : NormalArguments args := hargs ▸ normalArguments_splitArguments s
  obtain ⟨hwritten, hclosed, _, hjoin⟩ := splitArguments_normal s
  rw [hargs] at hwritten hclosed
  exact ⟨hargs, hnormal, (hwritten _ (by decide)).2.1, hclosed _ (by decide), hjoin args hnormal⟩

end TypeBridge
