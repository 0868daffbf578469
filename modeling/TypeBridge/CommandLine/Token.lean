import TypeBridge.CommandLine.OptionName
import TypeBridge.CommandLine.UsageError
import TypeBridge.Text.DecimalDigit

/-!
What each argument of a command line is, before any is acted on. An argument that begins with `-` is
an option or an unknown option, except a lone `-`, a negative number, and a text with a space that
names no option. The first `--` separates, and every argument after it is an operand.
-/

namespace TypeBridge

/-- What an argument of the command line is. -/
inductive Token where
  | operand (text : Text)
  /-- An option, with the value written in the same argument if there is one. -/
  | option (opt : OptionName) (isShort : Bool) (value : Option Text)
  | unknown (text : Text)
  | separator
  deriving DecidableEq

namespace Token

/-- Whether a text is `-` and a decimal number, with an optional line feed at the end. -/
def isNegativeNumber (s : Text) : Bool :=
  match ['-'].isPrefixOf? ((['\n'].isSuffixOf? s).getD s) with
  | none => false
  | some number =>
    let fraction := number.dropWhile Text.isDecimalDigit
    if fraction.isEmpty then !number.isEmpty
    else
      match ['.'].isPrefixOf? fraction with
      | none => false
      | some digits => !digits.isEmpty && digits.all Text.isDecimalDigit

/-- The option that an argument names in full, and whether by its letter. -/
def named? (s : Text) : Option (OptionName × Bool) :=
  match OptionName.ofLong? s with
  | some opt => some (opt, false)
  | none =>
    match s with
    | [dash, c] => if dash = '-' then (OptionName.ofLetter? c).map fun opt => (opt, true) else none
    | _ => none

/-- An argument that begins with a dash and names no option. -/
def ofUnknown (s : Text) : Token :=
  if isNegativeNumber s || s.contains ' ' then operand s else unknown s

/-- An argument that begins with `--`; a long name may be cut short if no other begins so. -/
def ofLong? (s : Text) : Except UsageError Token :=
  let (start, value) :=
    match Text.cutAt? '=' s with
    | some (start, value) => (start, some value)
    | none => (s, none)
  match OptionName.candidates start with
  | [] => .ok (ofUnknown s)
  | [opt] => .ok (option opt false value)
  | opts => .error (.ambiguous s opts)

/-- An argument that begins with a single dash; what follows the letter of an option is its
value. -/
def ofShort (s : Text) : Token :=
  match s with
  | _ :: c :: value =>
    match OptionName.ofLetter? c with
    | some opt => option opt true (some value)
    | none => ofUnknown s
  | _ => operand s

/-- An argument that begins with a dash and is not exactly the name of an option. -/
def ofDashed? (s : Text) : Except UsageError Token :=
  match (Text.cutAt? '=' s).bind fun p => (named? p.1).map fun e => (e, p.2) with
  | some ((opt, isShort), value) => .ok (option opt isShort (some value))
  | none => if ['-', '-'].isPrefixOf s then ofLong? s else .ok (ofShort s)

/-- What an argument is. -/
def ofArgument? (s : Text) : Except UsageError Token :=
  if !(['-'].isPrefixOf s) then .ok (operand s)
  else
    match named? s with
    | some (opt, isShort) => .ok (option opt isShort none)
    | none => if s = ['-'] then .ok (operand s) else ofDashed? s

/-- What the arguments of a command line are, in order. -/
def ofArguments? : List Text → Except UsageError (List Token)
  | [] => .ok []
  | s :: rest =>
    if s = ['-', '-'] then .ok (separator :: rest.map operand)
    else do
      let token ← ofArgument? s
      let tokens ← ofArguments? rest
      return token :: tokens

end Token

end TypeBridge
