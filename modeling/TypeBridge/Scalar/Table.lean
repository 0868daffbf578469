import TypeBridge.Scalar.Rows

/-!
Scalar types. A token is looked up in the built-in table, then among extra rows; a token that ends
with ` str` is a borrowed string slice. Main statement: an extra row for a built-in token has no
effect.
-/

namespace TypeBridge.Scalar

/-- The built-in scalar tokens with their TypeScript names. -/
def table : List (Text × Text) :=
  [("()", "undefined"), ("i8", "number"), ("i16", "number"), ("i32", "number"), ("u8", "number"),
   ("u16", "number"), ("u32", "number"), ("i64", "BigInt"), ("u64", "BigInt"), ("i128", "BigInt"),
   ("u128", "BigInt"), ("isize", "BigInt"), ("usize", "BigInt"), ("bool", "boolean"),
   ("String", "string"), ("str", "string"), ("char", "string"), ("Object", "object")].map
    fun row => (row.1.toList, row.2.toList)

/-- The TypeScript name of a built-in scalar token. -/
def builtin? (token : Text) : Option Text := table.lookup token

/-- The TypeScript name of a scalar token. -/
def lookup? (extra : Rows) (token : Text) : Option Text :=
  match builtin? token with
  | some name => some name
  | none =>
    match extra.get? token with
    | some name => some name
    | none => if " str".toList.isSuffixOf token then some "string".toList else none

theorem lookup?_of_builtin? {token name : Text} (h : builtin? token = some name) (extra : Rows) :
    lookup? extra token = some name := by
  simp [lookup?, h]

end TypeBridge.Scalar
