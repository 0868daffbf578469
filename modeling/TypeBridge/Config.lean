import TypeBridge.Scalar.Rows

/-!
The choices that a conversion leaves open. A configuration is a value: two are equal when their
rows, as a map, and their other three fields are, and none of its fields can be assigned.
-/

namespace TypeBridge

/-- What a conversion is configured with. -/
structure Config where
  /-- Scalar rows besides the built-in ones. -/
  rows : Rows := .empty
  /-- Whether wrappers are recognized from parsed generic arguments rather than printed text. -/
  structural : Bool := false
  /-- The type joined with the success type of a nested `Result`. -/
  errorType : Text := "Error".toList
  /-- The type of whatever has no counterpart. -/
  anyType : Text := "any".toList
  deriving DecidableEq

/-- The fields of a configuration. -/
inductive ConfigField where
  | rows
  | structural
  | errorType
  | anyType
  deriving DecidableEq, Repr

/-- What cannot be done with a configuration. -/
inductive ConfigError where
  /-- A field was assigned. -/
  | frozen (field : ConfigField)
  /-- A structural configuration was asked for, and the choice given once more. -/
  | structuralGiven
  /-- A row was added under the one token that names the configuration itself. -/
  | reservedToken
  deriving DecidableEq

namespace ConfigField

/-- The name that a field has in messages. -/
def name : ConfigField → Text
  | rows => "extra_primitives".toList
  | structural => "structural_generics".toList
  | errorType => "error_type".toList
  | anyType => "any_type".toList

end ConfigField

namespace ConfigError

/-- The error in words. -/
def message : ConfigError → Text
  | frozen field => "cannot assign to field '".toList ++ field.name ++ ['\'']
  | structuralGiven =>
    "typegen.config.TranslationConfig() got multiple values for keyword argument ".toList
      ++ "'structural_generics'".toList
  | reservedToken =>
    "TranslationConfig.with_primitives() got multiple values for argument 'self'".toList

end ConfigError

namespace Config

/-- A configuration with more scalar rows, the later of two for one token counting. -/
def withRows (config : Config) (added : List (Text × Text)) : Config :=
  { config with rows := config.rows.insertAll added }

/-- `withRows`, where the token `self` is reserved. -/
def withRows? (config : Config) (added : List (Text × Text)) : Except ConfigError Config :=
  if added.any fun row => row.1 == "self".toList then .error .reservedToken
  else .ok (config.withRows added)

/-- A configuration that recognizes wrappers from parsed generic arguments, made from one in which
the choice is still open. -/
def structural? (config : Config) (isGiven : Bool) : Except ConfigError Config :=
  if isGiven then .error .structuralGiven else .ok { config with structural := true }

/-- Assigning a field never succeeds. -/
def assign? (_ : Config) (field : ConfigField) : Except ConfigError Config :=
  .error (.frozen field)

end Config

end TypeBridge
