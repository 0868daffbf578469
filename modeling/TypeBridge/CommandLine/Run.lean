import TypeBridge.CommandLine.Request
import TypeBridge.CommandLine.Usage
import TypeBridge.TypeDef
import TypeBridge.TypeExpr.Parse

/-!
Running a request: each type is converted and printed on a line of its own, until one of them
cannot be read. Extra scalar rows are checked before any type is looked at. Main statement: the
first type decides whether anything follows, and what is printed for it does not depend on the
others.
-/

namespace TypeBridge

/-- What a run leaves behind: its exit code and what it wrote to the two output streams. -/
structure Outcome where
  exitCode : Nat
  out : Text
  err : Text
  deriving DecidableEq

namespace Outcome

/-- The outcome of a run that fails with one line of explanation. -/
def failure (explanation : Text) : Outcome :=
  ⟨2, [], "error: ".toList ++ explanation ++ ['\n']⟩

/-- An outcome after more was written before it. -/
def after (out err : Text) (later : Outcome) : Outcome :=
  ⟨later.exitCode, out ++ later.out, err ++ later.err⟩

end Outcome

namespace Settings

/-- What is said of a text that is no extra scalar row. -/
def invalidRow (pair : Text) : Text :=
  "Invalid --primitive '".toList ++ pair ++ "', expected RUST=TS".toList

/-- The configuration of a run with some extra scalar rows. -/
def config (settings : Settings) (rows : List (Text × Text)) : Config :=
  { rows := Rows.ofList rows, structural := settings.structural }

/-- What the conversion of a type starts from. -/
def source (settings : Settings) (s : Text) : Except ParseError TypeSource :=
  if settings.raw then .ok (.text s) else (parse s).map .expr

/-- The name in the record of a type. -/
def nameFor (settings : Settings) (s : Text) : Text :=
  if (settings.name.getD []).isEmpty then s else settings.name.getD []

/-- What is printed for a type, given its conversion. -/
def output (settings : Settings) (s : Text) (converted : Text) : Text :=
  if settings.json then
    match settings.kind with
    | some kind => TypeDef.toJson ⟨kind, settings.nameFor s, converted⟩
    | none => TypeDef.jsonWithoutKind (settings.nameFor s) converted
  else converted

/-- The lines that report the events of a type, if events are reported. -/
def report (settings : Settings) (s : Text) (log : List Event) : Text :=
  if settings.verbose then unlines ((log ++ [Event.converted s]).map Event.line) else []

/-- The outcome for several types under a configuration. -/
def runTypes (settings : Settings) (config : Config) : List Text → Outcome
  | [] => ⟨0, [], []⟩
  | s :: rest =>
    match settings.source s with
    | .error e => Outcome.failure e.message
    | .ok source =>
      let converted := convert config settings.topLevel source
      Outcome.after (settings.output s converted.value.render ++ ['\n'])
        (settings.report s converted.log) (runTypes settings config rest)

end Settings

/-- The outcome of a request. -/
def Request.run (request : Request) : Outcome :=
  match Scalar.readRows request.settings.primitives with
  | .error pair => Outcome.failure (Settings.invalidRow pair)
  | .ok rows => request.settings.runTypes (request.settings.config rows) request.types

/-- The outcome of a command line, unless it breaks down. -/
def runArguments (arguments : List Text) : Except Breakdown Outcome :=
  match Request.ofArguments arguments with
  | .error .help => .ok ⟨0, helpText, []⟩
  | .error (.usage e) =>
    .ok ⟨2, [], usageText ++ "typegen: error: ".toList ++ e.message ++ ['\n']⟩
  | .error (.breakdown e) => .error e
  | .ok request => .ok request.run

theorem runTypes_cons_of_error (settings : Settings) (config : Config) {s : Text} {e : ParseError}
    (h : settings.source s = .error e) (rest : List Text) :
    settings.runTypes config (s :: rest) = Outcome.failure e.message := by
  simp [Settings.runTypes, h]

theorem runTypes_cons_of_ok (settings : Settings) (config : Config) {s : Text} {source : TypeSource}
    (h : settings.source s = .ok source) (rest : List Text) :
    settings.runTypes config (s :: rest) =
      Outcome.after
        (settings.output s (convert config settings.topLevel source).value.render ++ ['\n'])
        (settings.report s (convert config settings.topLevel source).log)
        (settings.runTypes config rest) := by
  simp [Settings.runTypes, h]

end TypeBridge
