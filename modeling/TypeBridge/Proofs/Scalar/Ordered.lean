import Mathlib.Data.List.Nodup
import TypeBridge.Scalar.Rows

/-!
Rows in the order in which their tokens were first written. A new name for a token takes the place
of the old one, and the order has no influence on what is looked up. Main statements: the rows as a
map do not depend on the order, and sorting the rows always gives the entries of that map.
-/

namespace TypeBridge

namespace Rows

/-! ### Look-ups in lists of rows -/

variable {rows rows' : List (Text × Text)}

theorem lookup_eq_some_iff_mem {token name : Text} (h : (rows.map Prod.fst).Nodup) :
    rows.lookup token = some name ↔ (token, name) ∈ rows := by
  induction rows with
  | nil => exact iff_of_false nofun List.not_mem_nil
  | cons row rest ih =>
    rw [List.map_cons, List.nodup_cons] at h
    rw [lookup_cons_eq_ite, List.mem_cons, ← ih h.2]
    by_cases hrow : row.1 = token
    · have hrest : rest.lookup token ≠ some name := fun hname =>
        h.1 (List.mem_map.2 ⟨_, (ih h.2).1 hname, hrow.symm⟩)
      simp [Prod.ext_iff, hrow, hrest, eq_comm]
    · simp [Prod.ext_iff, hrow, Ne.symm hrow]

/-- With one row for each token, the order of the rows has no influence. -/
theorem lookup_of_perm (h : rows'.Perm rows) (hn : (rows.map Prod.fst).Nodup) (token : Text) :
    rows'.lookup token = rows.lookup token := by
  have hn' : (rows'.map Prod.fst).Nodup := (h.map Prod.fst).nodup_iff.2 hn
  refine Option.ext fun name => ?_
  rw [lookup_eq_some_iff_mem hn, lookup_eq_some_iff_mem hn', h.mem_iff]

theorem get?_insertAll (added : List (Text × Text)) (rows : Rows) (token : Text) :
    (rows.insertAll added).get? token
      = (added.reverse.lookup token).or (rows.get? token) := by
  induction added generalizing rows with
  | nil => rfl
  | cons row rest ih =>
    have hrow : (rows.insert row.1 row.2).get? token
        = ([row].lookup token).or (rows.get? token) := by
      rw [get?_insert, lookup_cons_eq_ite]
      split <;> rfl
    rw [insertAll, List.foldl_cons, ← insertAll, ih, hrow, List.reverse_cons, List.lookup_append,
      Option.or_assoc]

/-! ### Sorting -/

/-- Whether one row stands before another or is the same: by token, then by name. -/
def rowLe (a b : Text × Text) : Bool :=
  decide (a.1 < b.1 ∨ a.1 = b.1 ∧ (a.2 < b.2 ∨ a.2 = b.2))

theorem rowLe_trans {a b c : Text × Text} (hab : rowLe a b = true) (hbc : rowLe b c = true) :
    rowLe a c = true := by
  rw [rowLe, decide_eq_true_eq] at hab hbc ⊢
  rcases hab with hab | ⟨hab, hnames⟩
  · rcases hbc with hbc | ⟨hbc, _⟩
    · exact .inl (List.lt_trans hab hbc)
    · exact .inl (hbc ▸ hab)
  · rcases hbc with hbc | ⟨hbc, hnames'⟩
    · exact .inl (hab ▸ hbc)
    refine .inr ⟨hab.trans hbc, ?_⟩
    rcases hnames with hlt | heq
    · rcases hnames' with hlt' | heq'
      · exact .inl (List.lt_trans hlt hlt')
      · exact .inl (heq' ▸ hlt)
    · rwa [heq]

theorem rowLe_total (a b : Text × Text) : (rowLe a b || rowLe b a) = true := by
  rw [rowLe, rowLe, Bool.or_eq_true, decide_eq_true_eq, decide_eq_true_eq]
  rcases Std.lt_trichotomy a.1 b.1 with hlt | heq | hlt
  · exact .inl (.inl hlt)
  · rcases Std.lt_trichotomy a.2 b.2 with hnames | hnames | hnames
    · exact .inl (.inr ⟨heq, .inl hnames⟩)
    · exact .inl (.inr ⟨heq, .inr hnames⟩)
    · exact .inr (.inr ⟨heq.symm, .inl hnames⟩)
  · exact .inr (.inl hlt)

/-- With one row for each token, sorted rows stand in the strict order of their tokens. -/
theorem sorted_mergeSort (h : (rows.map Prod.fst).Nodup) :
    (rows.mergeSort rowLe).Pairwise fun a b => a.1 < b.1 := by
  have hle : (rows.mergeSort rowLe).Pairwise fun a b => rowLe a b = true :=
    @List.pairwise_mergeSort _ rowLe (fun _ _ _ => rowLe_trans) rowLe_total rows
  have hne : (rows.mergeSort rowLe).Pairwise fun a b => a.1 ≠ b.1 :=
    List.pairwise_map.1 (((List.mergeSort_perm rows rowLe).map Prod.fst).nodup_iff.2 h)
  refine (hle.and hne).imp fun {a b} hab => ?_
  rw [rowLe, decide_eq_true_eq] at hab
  exact hab.1.resolve_right fun heq => hab.2 heq.1

end Rows

/-- Rows in the order in which their tokens were first written, one for each token. -/
structure OrderedRows where
  items : List (Text × Text)
  nodup : (items.map Prod.fst).Nodup

namespace OrderedRows

/-- The name in the row of a token. -/
def get? (rows : OrderedRows) (token : Text) : Option Text := rows.items.lookup token

/-- A list of rows with a new name in the row of a token, or with a row more at its end. -/
def setIn (token name : Text) : List (Text × Text) → List (Text × Text)
  | [] => [(token, name)]
  | row :: rest => if row.1 = token then (token, name) :: rest else row :: setIn token name rest

theorem mem_map_setIn (token name : Text) : ∀ {rows : List (Text × Text)} {key : Text},
    key ∈ (setIn token name rows).map Prod.fst → key = token ∨ key ∈ rows.map Prod.fst
  | [], _, h => .inl (List.mem_singleton.1 h)
  | row :: rest, key, h => by
    rw [setIn] at h
    split at h
    · exact (List.mem_cons.1 h).imp_right (List.mem_cons_of_mem _)
    · rcases List.mem_cons.1 h with rfl | h
      · exact .inr List.mem_cons_self
      · exact (mem_map_setIn token name h).imp_right (List.mem_cons_of_mem _)

theorem nodup_setIn (token name : Text) : ∀ {rows : List (Text × Text)},
    (rows.map Prod.fst).Nodup → ((setIn token name rows).map Prod.fst).Nodup
  | [], _ => List.nodup_singleton _
  | row :: rest, h => by
    obtain ⟨hrow, hrest⟩ := List.nodup_cons.1 h
    rw [setIn]
    split
    · rename_i heq
      exact List.nodup_cons.2 ⟨heq ▸ hrow, hrest⟩
    · rename_i hne
      refine List.nodup_cons.2 ⟨fun hm => ?_, nodup_setIn token name hrest⟩
      exact (mem_map_setIn token name hm).elim hne hrow

theorem lookup_setIn (token name key : Text) : ∀ rows : List (Text × Text),
    (setIn token name rows).lookup key = if token = key then some name else rows.lookup key
  | [] => Rows.lookup_cons_eq_ite _ _ key
  | row :: rest => by
    rw [setIn]
    split
    · rename_i heq
      rw [Rows.lookup_cons_eq_ite, Rows.lookup_cons_eq_ite, heq]
      split <;> rfl
    · rename_i hne
      rw [Rows.lookup_cons_eq_ite, Rows.lookup_cons_eq_ite, lookup_setIn token name key rest]
      by_cases hkey : row.1 = key
      · rw [if_pos hkey, if_pos hkey, if_neg fun h => hne (hkey.trans h.symm)]
      · rw [if_neg hkey, if_neg hkey]

/-- The rows after a token was written with a name. -/
def set (rows : OrderedRows) (token name : Text) : OrderedRows :=
  ⟨setIn token name rows.items, nodup_setIn token name rows.nodup⟩

/-- The rows after several were written one after the other. -/
def update (rows : OrderedRows) (added : List (Text × Text)) : OrderedRows :=
  added.foldl (fun rows row => rows.set row.1 row.2) rows

theorem update_append (rows : OrderedRows) (added later : List (Text × Text)) :
    rows.update (added ++ later) = (rows.update added).update later :=
  List.foldl_append

/-- The rows as a map. -/
def value (rows : OrderedRows) : Rows := Rows.ofList rows.items

@[simp] theorem get?_value (rows : OrderedRows) (token : Text) :
    rows.value.get? token = rows.get? token := by
  rw [value, Rows.ofList, Rows.get?_insertAll, Rows.get?_empty, Option.or_none, get?]
  exact Rows.lookup_of_perm rows.items.reverse_perm rows.nodup token

theorem value_eq_iff {rows rows' : OrderedRows} :
    rows.value = rows'.value ↔ ∀ token, rows.get? token = rows'.get? token := by
  constructor
  · intro h token
    rw [← get?_value, h, get?_value]
  · intro h
    refine Rows.ext_get? fun token => ?_
    rw [get?_value, get?_value, h]

/-- Every map is that of rows in some order. -/
theorem exists_value_eq (rows : Rows) : ∃ ordered : OrderedRows, ordered.value = rows := by
  have hne : rows.entries.Pairwise fun a b => a.1 ≠ b.1 := rows.sorted.imp fun {a b} hlt heq => by
    rw [heq] at hlt
    exact List.lt_irrefl b.1 hlt
  refine ⟨⟨rows.entries, List.pairwise_map.2 hne⟩, Rows.ext_get? fun token => ?_⟩
  rw [get?_value]
  rfl

theorem value_set (rows : OrderedRows) (token name : Text) :
    (rows.set token name).value = rows.value.insert token name := by
  refine Rows.ext_get? fun key => ?_
  rw [get?_value, Rows.get?_insert, get?_value]
  exact lookup_setIn token name key rows.items

theorem value_update (rows : OrderedRows) (added : List (Text × Text)) :
    (rows.update added).value = rows.value.insertAll added := by
  induction added generalizing rows with
  | nil => rfl
  | cons row rest ih =>
    rw [update, List.foldl_cons, ← update, ih, value_set]
    rfl

/-- Written rows count before the old ones. -/
theorem get?_update (rows added : OrderedRows) (token : Text) :
    (rows.update added.items).get? token = (added.get? token).or (rows.get? token) := by
  rw [← get?_value, value_update, Rows.get?_insertAll, get?_value, get?,
    Rows.lookup_of_perm added.items.reverse_perm added.nodup, get?]

/-- The rows sorted by token. -/
def sorted (rows : OrderedRows) : List (Text × Text) := rows.items.mergeSort Rows.rowLe

/-- Sorting gives the entries of the map, whatever the order was. -/
theorem sorted_eq_entries (rows : OrderedRows) : rows.sorted = rows.value.entries := by
  have hperm : rows.sorted.Perm rows.items := List.mergeSort_perm rows.items Rows.rowLe
  refine Rows.entries_ext (Rows.sorted_mergeSort rows.nodup) rows.value.sorted fun token => ?_
  have hget : rows.value.get? token = rows.get? token := rows.get?_value token
  exact (Rows.lookup_of_perm hperm rows.nodup token).trans hget.symm

end OrderedRows

end TypeBridge
