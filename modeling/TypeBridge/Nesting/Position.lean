import TypeBridge.Nesting.Closing

/-!
Positions as integers. A position below zero counts from the end of the text, so a scan that begins
there reads the end of the text, in which no arrow is seen, and then the whole text. Main statement:
from zero on, the positions are those of `closingIndex?`.
-/

namespace TypeBridge

/-- A position that lies before the text even when it is counted from the end. -/
inductive PositionError where
  | outside
  deriving DecidableEq, Repr

/-- The error in words. -/
def PositionError.message : PositionError → Text
  | outside => "string index out of range".toList

/-- The number of characters before the one that closes an open bracket, in text without arrows; if
there is none, the number of brackets left open inside it. -/
def plainClosing (opener closer : Char) : Nat → Text → Except Nat Nat
  | depth, [] => .error depth
  | depth, c :: s =>
    if c = opener then (plainClosing opener closer (depth + 1) s).map (· + 1)
    else if c = closer then
      match depth with
      | 0 => .ok 0
      | depth + 1 => (plainClosing opener closer depth s).map (· + 1)
    else (plainClosing opener closer depth s).map (· + 1)

/-- The position of the character that closes a bracket opened just before position `start`. -/
def closingPosition? (opener closer : Char) (s : Text) :
    (start : Int) → Except PositionError (Option Int)
  | .ofNat start => .ok ((closingIndex? opener closer s start).map Int.ofNat)
  | .negSucc n =>
    if s.length < n + 1 then .error .outside
    else
      match plainClosing opener closer 0 (s.drop (s.length - (n + 1))) with
      | .ok length => .ok (some (Int.negSucc n + Int.ofNat length))
      | .error depth =>
        .ok ((enclosedFrom? opener closer none depth s).map fun p => Int.ofNat p.1.length)

theorem closingPosition?_ofNat (opener closer : Char) (s : Text) (start : Nat) :
    closingPosition? opener closer s (Int.ofNat start)
      = .ok ((closingIndex? opener closer s start).map Int.ofNat) := rfl

end TypeBridge
