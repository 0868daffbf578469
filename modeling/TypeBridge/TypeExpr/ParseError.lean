import TypeBridge.Nesting.Bracket
import TypeBridge.Text.Blank

/-!
Why a text is no type expression: the part of it that was rejected and the fault found there.
-/

namespace TypeBridge

/-- What is wrong with a rejected text. -/
inductive Fault where
  /-- Nothing but blanks was given. -/
  | emptyText
  /-- Nothing but blanks stands where a type is needed. -/
  | expectedType
  /-- The bracket that opens the text, or its generic arguments, is never closed. -/
  | unmatched (bracket : Bracket)
  /-- A reference has no name, or no type, after the quote of its lifetime. -/
  | expectedReferent
  /-- A tuple is closed before the text ends. -/
  | textAfterTuple
  /-- A qualifying self type is not followed by `::`. -/
  | expectedSeparator
  /-- What follows the `::` of a qualifying self type is a number. -/
  | expectedPath
  /-- The text is no path of identifiers. -/
  | notAPath
  deriving DecidableEq

/-- A rejected text and its fault. -/
structure ParseError where
  rejected : Text
  fault : Fault
  deriving DecidableEq

namespace ParseError

/-- The fault in words. -/
def detail (e : ParseError) : Text :=
  match e.fault with
  | .emptyText => "Empty annotation".toList
  | .expectedType => "Expected a type".toList
  | .unmatched bracket => "Unmatched ".toList ++ [bracket.opener]
  | .expectedReferent => "Expected type after lifetime".toList
  | .textAfterTuple => "Unexpected text after ')'".toList
  | .expectedSeparator => "Expected '::' after qualified self type".toList
  | .expectedPath => "Expected a path after '::'".toList
  | .notAPath => "Cannot parse type: ".toList ++ Text.strip e.rejected

/-- The whole message: the rejected text as it is, and the fault. -/
def message (e : ParseError) : Text :=
  "Failed to parse type '".toList ++ e.rejected ++ "': ".toList ++ e.detail

end ParseError

end TypeBridge
