import TypeBridge.Text.Basic

/-!
The options of the command line. Every option has a long name after `--`; two have a short one after
`-` as well. Main statement: an option is found by each of its names.
-/

namespace TypeBridge

/-- The options, in the order in which help lists them. -/
inductive OptionName where
  | help
  | topLevel
  | structural
  | raw
  | primitive
  | json
  | kind
  | name
  | verbose
  deriving DecidableEq, Repr

namespace OptionName

/-- All options, in order. -/
def all : List OptionName :=
  [help, topLevel, structural, raw, primitive, json, kind, name, verbose]

/-- The long name, with its dashes. -/
def long : OptionName → Text
  | help => "--help".toList
  | topLevel => "--top-level".toList
  | structural => "--structural".toList
  | raw => "--raw".toList
  | primitive => "--primitive".toList
  | json => "--json".toList
  | kind => "--kind".toList
  | name => "--name".toList
  | verbose => "--verbose".toList

/-- The letter of the short name, if the option has one. -/
def letter? : OptionName → Option Char
  | help => some 'h'
  | verbose => some 'v'
  | _ => none

/-- Whether an option is followed by a value. -/
def takesValue : OptionName → Bool
  | primitive => true
  | kind => true
  | name => true
  | _ => false

/-- How messages name an option: by all its names. -/
def label (option : OptionName) : Text :=
  match option.letter? with
  | some c => ['-', c, '/'] ++ option.long
  | none => option.long

/-- The option with a given letter. -/
def ofLetter? (c : Char) : Option OptionName := all.find? fun option => option.letter? == some c

/-- The option with a given long name. -/
def ofLong? (s : Text) : Option OptionName := all.find? fun option => option.long == s

/-- The options whose long name begins with a text. -/
def candidates (start : Text) : List OptionName :=
  all.filter fun option => start.isPrefixOf option.long

@[simp] theorem ofLong?_long (option : OptionName) : ofLong? option.long = some option := by
  cases option <;> decide

theorem ofLetter?_eq_some_iff {c : Char} {option : OptionName} :
    ofLetter? c = some option ↔ option.letter? = some c := by
  constructor
  · intro h
    simpa using List.find?_some h
  · intro h
    cases option <;> cases h <;> decide

end OptionName

end TypeBridge
