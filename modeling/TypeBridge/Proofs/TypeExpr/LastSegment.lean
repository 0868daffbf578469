import TypeBridge.Proofs.TypeExpr.Name
import TypeBridge.TypeExpr.Basic

/-!
The last segment of a path. Main statements: `lastSegment` reads the last identifier off a path in
writing, and the path ends with it.
-/

namespace TypeBridge

namespace TypeExpr

theorem afterSeparator?_of_not_mem {s : Text} (h : ':' ∉ s) :
    afterSeparator? s = none := by
  induction s with
  | nil => rfl
  | cons c s ih =>
    obtain ⟨hc, hs⟩ := not_or.1 (fun e => h (List.mem_cons.2 e))
    rw [afterSeparator?, ih hs]
    exact Text.isPrefixOf?_cons_of_ne hc [':'] s

theorem afterSeparator?_append {s : Text} (hs : s.head? ≠ some ':') (piece : Text) :
    afterSeparator? (piece ++ ':' :: ':' :: s) = some (lastSegment s) := by
  induction piece with
  | nil =>
    have hcolon : [':', ':'].isPrefixOf? (':' :: s) = none := by
      cases s with
      | nil => rfl
      | cons c s =>
        have hc : ':' ≠ c := fun e => hs (congrArg some e.symm)
        rw [Text.isPrefixOf?_cons_self, Text.isPrefixOf?_cons_of_ne hc]
    rw [List.nil_append, afterSeparator?, afterSeparator?, lastSegment]
    cases afterSeparator? s with
    | some name => rfl
    | none =>
      rw [hcolon]
      rfl
  | cons c piece ih => rw [List.cons_append, afterSeparator?, ih]

theorem lastSegment_intercalate {first : Text} {rest : List Text} (hf : ':' ∉ first)
    (hr : ∀ segment ∈ rest, Text.isIdent segment = true) :
    lastSegment ([':', ':'].intercalate (first :: rest))
      = (first :: rest).getLast (List.cons_ne_nil _ _) := by
  induction rest generalizing first with
  | nil =>
    rw [List.intercalate_singleton, lastSegment, afterSeparator?_of_not_mem hf]
    rfl
  | cons next rest ih =>
    obtain ⟨hn, hr⟩ := List.forall_mem_cons.1 hr
    have hcolon : ':' ∉ next := fun hc =>
      absurd (Text.isIdentChar_of_mem_isIdent hn ':' hc) (by decide)
    have hhead : ([':', ':'].intercalate (next :: rest)).head? ≠ some ':' := by
      cases next with
      | nil => exact absurd hn (by decide)
      | cons c next =>
        rw [Text.intercalate_cons]
        intro h
        cases h
        exact hcolon List.mem_cons_self
    have happ := afterSeparator?_append hhead first
    rw [Text.intercalate_colons_cons, lastSegment, happ, Option.getD_some, ih hcolon hr,
      List.getLast_cons_cons]

end TypeExpr

namespace PathName

/-- The last segment of a path. -/
def last (n : PathName) : Text := (n.first :: n.rest).getLast (List.cons_ne_nil _ _)

theorem lastSegment_text (n : PathName) : TypeExpr.lastSegment n.text = n.last := by
  have hmem := n.isIdent_of_mem
  unfold text segments last
  split
  · rw [TypeExpr.lastSegment_intercalate List.not_mem_nil hmem, List.getLast_cons_cons]
  · obtain ⟨hf, hr⟩ := List.forall_mem_cons.1 hmem
    exact TypeExpr.lastSegment_intercalate
      (fun hc => absurd (Text.isIdentChar_of_mem_isIdent hf ':' hc) (by decide)) hr

/-- A path in writing ends with its last segment. -/
theorem exists_text_eq_append (n : PathName) : ∃ pre, n.text = pre ++ n.last := by
  have hjoin : ∀ (first : Text) (rest : List Text), ∃ pre, [':', ':'].intercalate (first :: rest)
      = pre ++ (first :: rest).getLast (List.cons_ne_nil _ _) := by
    intro first rest
    induction rest generalizing first with
    | nil => exact ⟨[], List.intercalate_singleton⟩
    | cons next rest ih =>
      obtain ⟨pre, hpre⟩ := ih next
      refine ⟨first ++ [':', ':'] ++ pre, ?_⟩
      rw [List.intercalate_cons_cons, hpre, List.getLast_cons_cons, List.append_assoc _ pre]
  unfold text segments last
  split
  · obtain ⟨pre, hpre⟩ := hjoin n.first n.rest
    exact ⟨[':', ':'] ++ pre, by rw [List.intercalate_cons_cons, hpre, List.append_assoc]; rfl⟩
  · exact hjoin n.first n.rest

end PathName

end TypeBridge
