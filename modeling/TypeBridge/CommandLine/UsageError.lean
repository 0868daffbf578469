import TypeBridge.CommandLine.OptionName
import TypeBridge.Text.Quoted

/-!
What is wrong with a command line, before any type is looked at.
-/

namespace TypeBridge

/-- A fault of a command line. -/
inductive UsageError where
  /-- The long name of an option was cut so short that it names several. -/
  | ambiguous (argument : Text) (candidates : List OptionName)
  /-- An option without a value was given one. -/
  | ignoredValue (opt : OptionName) (value : Text)
  /-- An option that needs a value has none. -/
  | missingValue (opt : OptionName)
  /-- No type was given. -/
  | missingTypes
  /-- Unknown options, or types in a second group. -/
  | unrecognized (arguments : List Text)
  deriving DecidableEq

namespace UsageError

/-- A fault in words. -/
def message : UsageError → Text
  | ambiguous argument candidates =>
    "ambiguous option: ".toList ++ argument ++ " could match ".toList
      ++ ", ".toList.intercalate (candidates.map OptionName.long)
  | ignoredValue opt value =>
    "argument ".toList ++ opt.label ++ ": ignored explicit argument ".toList ++ Text.quoted value
  | missingValue opt => "argument ".toList ++ opt.label ++ ": expected one argument".toList
  | missingTypes => "the following arguments are required: TYPE".toList
  | unrecognized arguments => "unrecognized arguments: ".toList ++ [' '].intercalate arguments

end UsageError

end TypeBridge
