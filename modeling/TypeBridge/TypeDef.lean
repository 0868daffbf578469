import TypeBridge.Json.Encode
import TypeBridge.Convert

/-!
Type definitions: a converted type with the kind and the name of its declaration, and its record as
JSON text.
-/

namespace TypeBridge

/-- A named TypeScript type. -/
structure TypeDef where
  kind : Text
  name : Text
  definition : Text
  deriving DecidableEq

namespace TypeDef

/-- The definition of a type by its conversion. -/
def ofSource (kind name : Text) (config : Config) (isReturn : Bool) (source : TypeSource) :
    TypeDef :=
  ⟨kind, name, (convert config isReturn source).value.render⟩

/-- The members of the record of a definition, in order. -/
def members (d : TypeDef) : List (Text × Text) :=
  [("kind".toList, d.kind), ("name".toList, d.name), ("def".toList, d.definition)]

/-- The record of a definition as JSON text. -/
def toJson (d : TypeDef) : Text := Json.encodeStrings d.members

/-- The record of a type that was left without a kind: an empty array stands for it. -/
def jsonWithoutKind (name definition : Text) : Text :=
  Json.encodeObject
    [("kind".toList, Json.emptyArray), ("name".toList, Json.encodeString name),
     ("def".toList, Json.encodeString definition)]

end TypeDef

end TypeBridge
