import TypeBridge.Text.Quoted

/-!
The names of the tool, each with what it stands for, and the tool's version. Some names are public;
others are found as well, but are not listed. Main statement: every public name is found.
-/

namespace TypeBridge

/-- What a name stands for. -/
inductive ExportKind where
  | function
  | type
  | value
  deriving DecidableEq, Repr

namespace Catalogue

/-- The version of the tool. -/
def version : Text := "0.1.0".toList

/-- The public names, in order. -/
def exports : List (Text × ExportKind) :=
  [("translate", .function), ("translate_expr", .function), ("translate_str", .function),
   ("OtherExpr", .type), ("PathExpr", .type), ("ReferenceExpr", .type), ("TupleExpr", .type),
   ("UNIT", .value), ("to_token_string", .function), ("RustTypeParser", .type),
   ("TypeParseError", .type), ("parse_type_expression", .function), ("CompoundShape", .type),
   ("ShapeMatch", .type), ("recognize_shape", .function), ("TranslationConfig", .type),
   ("DEFAULT_CONFIG", .value), ("TypeDef", .type), ("ToTypeDef", .type)].map
    fun entry => (entry.1.toList, entry.2)

/-- The parts of the tool, which are found under their own names. -/
def parts : List Text := ["types", "config", "typedef", "cli"].map String.toList

/-- The values that describe the tool. -/
def descriptions : List Text :=
  ["__version__", "__all__", "__annotations__", "__builtins__", "__cached__", "__dict__", "__doc__",
   "__file__", "__loader__", "__name__", "__package__", "__path__", "__spec__"].map String.toList

/-- The functions that act on the tool as an object. -/
def objectFunctions : List Text :=
  ["__getattr__", "__delattr__", "__dir__", "__eq__", "__format__", "__ge__", "__getattribute__",
   "__getstate__", "__gt__", "__hash__", "__init__", "__init_subclass__", "__le__", "__lt__",
   "__ne__", "__new__", "__reduce__", "__reduce_ex__", "__repr__", "__setattr__", "__sizeof__",
   "__str__", "__subclasshook__"].map String.toList

/-- The type of the tool as an object. -/
def objectType : Text := "__class__".toList

/-- The names that are found without being public. -/
def unlisted : List (Text × ExportKind) :=
  (parts ++ descriptions).map (fun name => (name, .value))
    ++ objectFunctions.map (fun name => (name, .function)) ++ [(objectType, .type)]

/-- What a name stands for. -/
def find? (name : Text) : Option ExportKind :=
  ((exports ++ unlisted).find? fun entry => entry.1 == name).map fun entry => entry.2

theorem find?_of_mem_exports : ∀ entry ∈ exports, find? entry.1 = some entry.2 := by
  decide

/-- What is said of a name that is not found. -/
def unknownName (name : Text) : Text :=
  "module 'typegen' has no attribute ".toList ++ Text.quoted name

end Catalogue

end TypeBridge
