import TypeBridge.Text.Blank

/-!
Scalar rows as they are written: a token, `=`, and a TypeScript name, neither of them blank. Main
statement: a text without `=` writes no row.
-/

namespace TypeBridge.Scalar

/-- The row that a text writes; white space around its two parts does not count. -/
def readRow? (s : Text) : Option (Text × Text) :=
  match Text.cutAt? '=' s with
  | none => none
  | some (token, name) =>
    if Text.isBlankText token || Text.isBlankText name then none
    else some (Text.strip token, Text.strip name)

/-- The rows that texts write, in order, or the first text that writes none. -/
def readRows : List Text → Except Text (List (Text × Text))
  | [] => .ok []
  | s :: rest =>
    match readRow? s with
    | none => .error s
    | some row => (readRows rest).map (row :: ·)

theorem readRow?_of_not_mem {s : Text} (h : '=' ∉ s) : readRow? s = none := by
  simp [readRow?, (Text.cutAt?_eq_none_iff '=').2 h]

end TypeBridge.Scalar
