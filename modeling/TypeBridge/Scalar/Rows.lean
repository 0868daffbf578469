import TypeBridge.Text.Basic

/-!
Extra rows of the scalar table: a finite map from scalar tokens to TypeScript names, held sorted by
token. Main statements: a look-up after an insertion sees the new row and every other old one, and
two maps with the same look-ups are equal, in whatever order their rows were written.
-/

namespace TypeBridge

/-- Rows sorted by token, one for each token. -/
structure Rows where
  entries : List (Text × Text)
  sorted : entries.Pairwise fun a b => a.1 < b.1
  deriving DecidableEq

namespace Rows

/-- No rows. -/
def empty : Rows := ⟨[], List.Pairwise.nil⟩

/-- Sorted rows with one row more, or with a new name for a token. -/
def insertEntry (token name : Text) : List (Text × Text) → List (Text × Text)
  | [] => [(token, name)]
  | row :: rest =>
    if token < row.1 then (token, name) :: row :: rest
    else if token = row.1 then (token, name) :: rest
    else row :: insertEntry token name rest

/-! ### The order of tokens -/

theorem forall_lt_insertEntry {low token name : Text} (hl : low < token) :
    ∀ {rows : List (Text × Text)}, (∀ row ∈ rows, low < row.1) →
      ∀ row ∈ insertEntry token name rows, low < row.1
  | [], _, row, hr => by
    simp only [insertEntry, List.mem_singleton] at hr
    exact hr ▸ hl
  | first :: rest, h, row, hr => by
    have hrest : ∀ row ∈ rest, low < row.1 := fun row hr => h row (List.mem_cons_of_mem _ hr)
    unfold insertEntry at hr
    split at hr
    · rcases List.mem_cons.1 hr with rfl | hr
      · exact hl
      · exact h row hr
    split at hr
    · rcases List.mem_cons.1 hr with rfl | hr
      · exact hl
      · exact hrest row hr
    · rcases List.mem_cons.1 hr with rfl | hr
      · exact h _ (by simp)
      · exact forall_lt_insertEntry hl hrest row hr

theorem sorted_insertEntry (token name : Text) : ∀ {rows : List (Text × Text)},
    (rows.Pairwise fun a b => a.1 < b.1) →
      (insertEntry token name rows).Pairwise fun a b => a.1 < b.1
  | [], _ => by simp [insertEntry]
  | first :: rest, h => by
    obtain ⟨hf, hr⟩ := List.pairwise_cons.1 h
    unfold insertEntry
    split
    · rename_i hlt
      refine List.pairwise_cons.2 ⟨?_, h⟩
      intro row hrow
      rcases List.mem_cons.1 hrow with rfl | hrow
      · exact hlt
      · exact List.lt_trans hlt (hf row hrow)
    split
    · rename_i heq
      exact List.pairwise_cons.2 ⟨fun row hrow => heq ▸ hf row hrow, hr⟩
    · rename_i hlt hne
      have hlt := ((Std.lt_trichotomy token first.1).resolve_left hlt).resolve_left hne
      exact List.pairwise_cons.2
        ⟨forall_lt_insertEntry hlt hf, sorted_insertEntry token name hr⟩

/-! ### Look-ups -/

theorem lookup_cons_eq_ite (row : Text × Text) (rest : List (Text × Text)) (token : Text) :
    (row :: rest).lookup token = if row.1 = token then some row.2 else rest.lookup token := by
  by_cases h : row.1 = token
  · rw [if_pos h, ← h]
    exact List.lookup_cons_self
  · rw [if_neg h, List.lookup_cons, beq_eq_false_iff_ne.2 (Ne.symm h)]

theorem lookup_eq_none {token : Text} {rows : List (Text × Text)}
    (h : ∀ row ∈ rows, row.1 ≠ token) : rows.lookup token = none :=
  List.lookup_eq_none_iff.2 fun row hrow => bne_iff_ne.2 (h row hrow).symm

theorem lookup_insertEntry (token name key : Text) : ∀ (rows : List (Text × Text)),
    (insertEntry token name rows).lookup key
      = if token = key then some name else rows.lookup key
  | [] => lookup_cons_eq_ite (token, name) [] key
  | first :: rest => by
    unfold insertEntry
    split
    · simp [lookup_cons_eq_ite]
    split
    · rename_i heq
      subst heq
      by_cases hk : first.1 = key <;> simp [lookup_cons_eq_ite, hk]
    · rename_i hne
      simp only [lookup_cons_eq_ite, lookup_insertEntry token name key rest]
      by_cases hk : first.1 = key
      · have : token ≠ key := fun h => hne (h.trans hk.symm)
        simp [hk, this]
      · simp [hk]

theorem lookup_eq_none_of_lt {token : Text} {rows : List (Text × Text)}
    (h : ∀ row ∈ rows, token < row.1) : rows.lookup token = none :=
  lookup_eq_none fun row hrow he => List.lt_irrefl token (he ▸ h row hrow)

theorem entries_ext : ∀ {rows rows' : List (Text × Text)},
    (rows.Pairwise fun a b => a.1 < b.1) → (rows'.Pairwise fun a b => a.1 < b.1) →
      (∀ token, rows.lookup token = rows'.lookup token) → rows = rows'
  | [], [], _, _, _ => rfl
  | [], first :: _, _, _, h => by simpa [lookup_cons_eq_ite] using h first.1
  | first :: _, [], _, _, h => by simpa [lookup_cons_eq_ite] using h first.1
  | (k, v) :: rest, (k', v') :: rest', hs, hs', h => by
    obtain ⟨hf, hr⟩ := List.pairwise_cons.1 hs
    obtain ⟨hf', hr'⟩ := List.pairwise_cons.1 hs'
    have below : ∀ {k k' v v' : Text} {rest rest' : List (Text × Text)},
        (∀ row ∈ rest', k' < row.1) → k < k' →
        ((k, v) :: rest).lookup k ≠ ((k', v') :: rest').lookup k := by
      intro k k' v v' rest rest' hf' hlt he
      have hn : ((k', v') :: rest').lookup k = none :=
        lookup_eq_none_of_lt fun row hrow => by
          rcases List.mem_cons.1 hrow with rfl | hrow
          · exact hlt
          · exact List.lt_trans hlt (hf' row hrow)
      rw [hn] at he
      simp at he
    have hk : k = k' := by
      rcases Std.lt_trichotomy k k' with hlt | he | hlt
      · exact absurd (h k) (below hf' hlt)
      · exact he
      · exact absurd (h k').symm (below hf hlt)
    subst hk
    have hv : v = v' := by simpa [lookup_cons_eq_ite] using h k
    subst hv
    have hrest : rest = rest' := entries_ext hr hr' fun token => by
      by_cases ht : k = token
      · subst ht
        rw [lookup_eq_none_of_lt hf, lookup_eq_none_of_lt hf']
      · simpa [lookup_cons_eq_ite, ht] using h token
    rw [hrest]

/-! ### The map -/

/-- The rows with one row more; an older row of the same token gives way. -/
def insert (rows : Rows) (token name : Text) : Rows :=
  ⟨insertEntry token name rows.entries, sorted_insertEntry token name rows.sorted⟩

/-- The name in the row of a token. -/
def get? (rows : Rows) (token : Text) : Option Text := rows.entries.lookup token

/-- The rows with several rows more, the later of two for one token counting. -/
def insertAll (rows : Rows) (added : List (Text × Text)) : Rows :=
  added.foldl (fun rows row => rows.insert row.1 row.2) rows

/-- The rows of a list, the later of two for one token counting. -/
def ofList (added : List (Text × Text)) : Rows := empty.insertAll added

@[simp] theorem get?_empty (token : Text) : empty.get? token = none := rfl

@[simp] theorem get?_insert (rows : Rows) (token name key : Text) :
    (rows.insert token name).get? key = if token = key then some name else rows.get? key :=
  lookup_insertEntry token name key rows.entries

theorem ext_get? {rows rows' : Rows} (h : ∀ token, rows.get? token = rows'.get? token) :
    rows = rows' := by
  obtain ⟨entries, sorted⟩ := rows
  obtain ⟨entries', sorted'⟩ := rows'
  have := entries_ext sorted sorted' h
  subst this
  rfl

end Rows

end TypeBridge
