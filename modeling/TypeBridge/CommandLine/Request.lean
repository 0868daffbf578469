import TypeBridge.CommandLine.Token
import TypeBridge.Scalar.Written

/-!
A command line read into a request: the types to convert and how. Options and types may be mixed,
but the types stand in one group. Faults are found from left to right; a missing type is found
after them, then arguments that found no use, and last a scalar row without text. Asking for help
ends the reading at once. Main statement: keeping only the scalar rows that are looked at changes
nothing of what is read from them.
-/

namespace TypeBridge

/-- How the types of a command line are converted and printed. -/
structure Settings where
  /-- Whether each type is a whole return type. -/
  topLevel : Bool := false
  /-- Whether wrappers are recognized from parsed generic arguments. -/
  structural : Bool := false
  /-- Whether types are taken as printed text, without parsing them. -/
  raw : Bool := false
  /-- The extra scalar rows, as they are written. -/
  primitives : List Text := []
  /-- Whether JSON records are printed. -/
  json : Bool := false
  /-- The kind in a JSON record; if there is none, the record has an empty array for it. -/
  kind : Option Text := some "type".toList
  /-- The name in a JSON record; if there is none, or an empty one, the type's own text. -/
  name : Option Text := none
  /-- Whether events are reported. -/
  verbose : Bool := false
  deriving DecidableEq

/-- A command line that was read. -/
structure Request where
  types : List Text
  settings : Settings
  deriving DecidableEq

/-- A breakdown: the command line is well formed, and yet no run of it can begin. -/
inductive Breakdown where
  /-- A scalar row that is looked at has no text. -/
  | rowWithoutText
  deriving DecidableEq, Repr

/-- A breakdown in words. -/
def Breakdown.message : Breakdown → Text
  | rowWithoutText => "'list' object has no attribute 'partition'".toList

/-- Why reading a command line ends without a request. -/
inductive Stop where
  | help
  | usage (error : UsageError)
  | breakdown (breakdown : Breakdown)
  deriving DecidableEq

namespace Settings

/-- The settings after an option without a value. -/
def withFlag (settings : Settings) : OptionName → Settings
  | .topLevel => { settings with topLevel := true }
  | .structural => { settings with structural := true }
  | .raw => { settings with raw := true }
  | .json => { settings with json := true }
  | .verbose => { settings with verbose := true }
  | _ => settings

/-- The settings after an option that is given a value, or is left without one. -/
def withValue (settings : Settings) (value : Option Text) : OptionName → Settings
  | .kind => { settings with kind := value }
  | .name => { settings with name := value }
  | _ => settings

end Settings

/-- Where the group of types stands. -/
inductive Group where
  | ahead
  | current
  | behind
  deriving DecidableEq, Repr

/-- What has been read of a command line. -/
structure Reading where
  settings : Settings := {}
  /-- The extra scalar rows; one that was left without its text is `none`. -/
  rows : List (Option Text) := []
  group : Group := .ahead
  types : List Text := []
  /-- The arguments that found no use. -/
  unused : List Text := []
  deriving DecidableEq

namespace Reading

/-- An operand is a type if the group of types has not ended. -/
def addOperand (r : Reading) (s : Text) : Reading :=
  match r.group with
  | .behind => { r with unused := r.unused ++ [s] }
  | _ => { r with group := .current, types := r.types ++ [s] }

/-- The separator vanishes unless the group of types has ended. -/
def addSeparator (r : Reading) : Reading :=
  match r.group with
  | .behind => { r with unused := r.unused ++ [['-', '-']] }
  | _ => r

/-- An option ends the group of types if it has begun. -/
def endGroup (r : Reading) : Reading :=
  match r.group with
  | .current => { r with group := .behind }
  | _ => r

/-- An unknown option. -/
def addUnknown (r : Reading) (s : Text) : Reading :=
  { r.endGroup with unused := r.unused ++ [s] }

/-- An option that is given a value, or is left without one. -/
def addValue (r : Reading) (opt : OptionName) (value : Option Text) : Reading :=
  match opt with
  | .primitive => { r.endGroup with rows := r.rows ++ [value] }
  | _ => { r.endGroup with settings := r.settings.withValue value opt }

/-- The value in a text attached to an option: `--` separates there too, and leaves no value. This
follows the `argparse` of the first 3.11 releases; that of 3.11.10 keeps `--` as the value. -/
def attachedValue (s : Text) : Option Text := if s = ['-', '-'] then none else some s

/-- Options without values, in order. -/
def addFlags (r : Reading) (opts : List OptionName) : Except Stop Reading :=
  if opts.contains .help then .error .help
  else .ok { r.endGroup with settings := opts.foldl Settings.withFlag r.settings }

/-- The options whose letters follow the letter of an option in the same argument. -/
def furtherLetters? (opt : OptionName) : Text → Except UsageError (List OptionName)
  | [] => .ok []
  | c :: s =>
    match OptionName.ofLetter? c with
    | none => .error (.ignoredValue opt (c :: s))
    | some next => (furtherLetters? next s).map (next :: ·)

/-- An option with a text attached to it in the same argument. -/
def addAttached (r : Reading) (opt : OptionName) (isShort : Bool) (value : Text) :
    Except Stop Reading :=
  if opt.takesValue then .ok (r.addValue opt (attachedValue value))
  else if isShort && !value.isEmpty then
    match furtherLetters? opt value with
    | .error e => .error (.usage e)
    | .ok opts => r.addFlags (opt :: opts)
  else .error (.usage (.ignoredValue opt value))

/-- Reads the arguments that are left. -/
def ofTokens : List Token → Reading → Except Stop Reading
  | [], r => .ok r
  | .operand s :: rest, r => ofTokens rest (r.addOperand s)
  | .separator :: rest, r => ofTokens rest r.addSeparator
  | .unknown s :: rest, r => ofTokens rest (r.addUnknown s)
  | .option opt isShort (some value) :: rest, r => do
    ofTokens rest (← r.addAttached opt isShort value)
  | .option opt _ none :: rest, r =>
    if opt.takesValue then
      match rest with
      | .operand s :: rest => ofTokens rest (r.addValue opt (some s))
      | _ => .error (.usage (.missingValue opt))
    else do
      ofTokens rest (← r.addFlags [opt])

/-- The texts of the scalar rows that are looked at: all of them, or those up to the first that
writes no row. -/
def rowTexts : List (Option Text) → Except Breakdown (List Text)
  | [] => .ok []
  | none :: _ => .error .rowWithoutText
  | some s :: rest =>
    match Scalar.readRow? s with
    | none => .ok [s]
    | some _ => (rowTexts rest).map (s :: ·)

/-- The request that was read, if it names a type, every argument found its use, and the scalar rows
that are looked at have their texts. -/
def finish (r : Reading) : Except Stop Request :=
  if r.types.isEmpty then .error (.usage .missingTypes)
  else if !r.unused.isEmpty then .error (.usage (.unrecognized r.unused))
  else
    match rowTexts r.rows with
    | .error breakdown => .error (.breakdown breakdown)
    | .ok texts => .ok ⟨r.types, { r.settings with primitives := texts }⟩

/-- What is read from the rows of a request is what is read from all texts that were given. -/
theorem readRows_of_rowTexts : ∀ {given texts : List Text},
    rowTexts (given.map some) = .ok texts → Scalar.readRows texts = Scalar.readRows given
  | [], texts, h => by
    cases h
    rfl
  | s :: rest, texts, h => by
    cases hs : Scalar.readRow? s with
    | none =>
      simp only [List.map_cons, rowTexts, hs, Except.ok.injEq] at h
      subst h
      simp [Scalar.readRows, hs]
    | some row =>
      cases hr : rowTexts (rest.map some) with
      | error e => simp [rowTexts, hs, hr, Except.map] at h
      | ok read =>
        simp only [List.map_cons, rowTexts, hs, hr, Except.map, Except.ok.injEq] at h
        subst h
        simp [Scalar.readRows, hs, readRows_of_rowTexts hr]

end Reading

/-- The request that a command line makes. -/
def Request.ofArguments (arguments : List Text) : Except Stop Request :=
  match Token.ofArguments? arguments with
  | .error e => .error (.usage e)
  | .ok tokens => do
    let reading ← Reading.ofTokens tokens {}
    reading.finish

end TypeBridge
