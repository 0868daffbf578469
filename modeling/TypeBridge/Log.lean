import TypeBridge.Text.Quoted
import TypeBridge.TypeExpr.Printed
import TypeBridge.Wrapper.Basic

/-!
What a conversion reports while it runs: an event for each type that it could not convert, or not
in full, and for each finished type. A computation that reports carries its events in order. Main
statement: two computations one after the other report first the events of the one, then those of
the other.
-/

namespace TypeBridge

/-- A report of a conversion. -/
inductive Event where
  /-- A wrapper was found around fewer arguments than it renders. -/
  | tooFewArguments (wrapper : Wrapper) (text : Text) (captured : Nat)
  /-- An expression has no counterpart and was replaced by `fallback`. -/
  | noMapping (expr : TypeExpr) (fallback : Text)
  /-- A generic type that is no wrapper was left as it is. -/
  | passedThrough (text : Text)
  /-- A type of the command line was converted. -/
  | converted (text : Text)
  deriving DecidableEq

namespace Event

/-- The name under which an event is reported. -/
def logger : Event → Text
  | tooFewArguments _ _ _ => "typegen.types.shapes".toList
  | noMapping _ _ => "typegen.types.translator".toList
  | passedThrough _ => "typegen.types.translator".toList
  | converted _ => "typegen.cli".toList

/-- The level at which every event is reported. -/
def level : Text := "DEBUG".toList

/-- The word for the shape of an expression. -/
def shapeWord : TypeExpr → Text
  | .reference _ _ _ => "ReferenceExpr".toList
  | .tuple _ => "TupleExpr".toList
  | .path _ _ _ => "PathExpr".toList
  | .verbatim _ _ => "OtherExpr".toList

/-- An event in words; every text that it names is quoted. -/
def message : Event → Text
  | tooFewArguments wrapper text captured =>
    wrapper.name ++ " pattern matched ".toList ++ Text.quoted text ++ " but captured ".toList
      ++ Nat.toDigits 10 captured ++ " argument(s), expected ".toList
      ++ Nat.toDigits 10 wrapper.arity
  | noMapping expr fallback =>
    "No TypeScript mapping for ".toList ++ shapeWord expr ++ [' '] ++ Text.quoted expr.print
      ++ ", using ".toList ++ Text.quoted fallback
  | passedThrough text =>
    "Passing through unrecognized generic type ".toList ++ Text.quoted text
  | converted text => "Translated ".toList ++ Text.quoted text

/-- An event as a line, without the line feed. -/
def line (e : Event) : Text := level ++ [' '] ++ e.logger ++ ": ".toList ++ e.message

end Event

/-- A value with the events reported on the way to it. -/
structure Logged (α : Type) where
  value : α
  log : List Event

namespace Logged

/-- A value reached without a report. -/
protected def pure {α : Type} (a : α) : Logged α := ⟨a, []⟩

/-- One computation after the other. -/
protected def bind {α β : Type} (x : Logged α) (f : α → Logged β) : Logged β :=
  let y := f x.value
  ⟨y.value, x.log ++ y.log⟩

instance : Monad Logged where
  pure := Logged.pure
  bind := Logged.bind

/-- The report of one event. -/
def emit (e : Event) : Logged Unit := ⟨(), [e]⟩

/-- Several computations in order. -/
def all {α : Type} (xs : List (Logged α)) : Logged (List α) :=
  ⟨xs.map value, xs.flatMap log⟩

variable {α β : Type}

@[simp] theorem value_pure (a : α) : (pure a : Logged α).value = a := rfl

@[simp] theorem log_pure (a : α) : (pure a : Logged α).log = [] := rfl

@[simp] theorem value_bind (x : Logged α) (f : α → Logged β) :
    (x >>= f).value = (f x.value).value := rfl

@[simp] theorem log_bind (x : Logged α) (f : α → Logged β) :
    (x >>= f).log = x.log ++ (f x.value).log := rfl

@[simp] theorem value_map (f : α → β) (x : Logged α) : (f <$> x).value = f x.value := rfl

@[simp] theorem log_map (f : α → β) (x : Logged α) : (f <$> x).log = x.log :=
  List.append_nil x.log

@[simp] theorem log_emit (e : Event) : (emit e).log = [e] := rfl

@[simp] theorem value_all (xs : List (Logged α)) : (all xs).value = xs.map value := rfl

@[simp] theorem log_all (xs : List (Logged α)) : (all xs).log = xs.flatMap log := rfl

instance : LawfulMonad Logged := LawfulMonad.mk' Logged
  (fun x => congrArg (Logged.mk x.value) (List.append_nil x.log))
  (fun _ _ => rfl)
  (fun _ _ _ => congrArg (Logged.mk _) (List.append_assoc _ _ _))

end Logged

end TypeBridge
