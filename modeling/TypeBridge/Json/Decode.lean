import TypeBridge.Json.Encode
import TypeBridge.Text.Blank

/-!
Reading JSON text whose value is an object with string members. Strings may hold any escape of the
JSON grammar; a high surrogate followed by a low one is one character, and a surrogate alone is
refused. White space may stand between tokens.
-/

namespace TypeBridge.Json

/-- Whether a character is white space between tokens. -/
def isSpace (c : Char) : Bool := c == ' ' || c == '\t' || c == '\n' || c == '\r'

/-- A text without the white space at its start. -/
def skipSpace (s : Text) : Text := s.dropWhile isSpace

/-- The character of a code point that is no surrogate. -/
def charOf? (n : Nat) : Option Char := if h : n.isValidChar then some (Char.ofNatAux n h) else none

/-- The character that a one-letter escape stands for. -/
def shortEscape? (c : Char) : Option Char :=
  if c = '"' ∨ c = '\\' ∨ c = '/' then some c
  else if c = 'n' then some '\n'
  else if c = 'r' then some '\r'
  else if c = 't' then some '\t'
  else if c = 'b' then some '\x08'
  else if c = 'f' then some '\x0c'
  else none

/-- The UTF-16 unit written by four hexadecimal digits at the start of a text. -/
def unit? (s : Text) : Option Nat := if 4 ≤ s.length then Text.ofHex? (s.take 4) else none

/-- The first character written in the inside of a JSON string, and the number of characters that
write it. -/
def decodeChar? : Text → Option (Char × Nat)
  | [] => none
  | [c] => if c ≠ '\\' ∧ c ≠ '"' ∧ 0x20 ≤ c.toNat then some (c, 1) else none
  | c :: d :: s =>
    if c ≠ '\\' then if c ≠ '"' ∧ 0x20 ≤ c.toNat then some (c, 1) else none
    else if d ≠ 'u' then (shortEscape? d).map fun e => (e, 2)
    else
      match unit? s with
      | none => none
      | some high =>
        if 0xD800 ≤ high ∧ high ≤ 0xDBFF then
          match ['\\', 'u'].isPrefixOf? (s.drop 4) with
          | none => none
          | some t =>
            match unit? t with
            | none => none
            | some low =>
              if 0xDC00 ≤ low ∧ low ≤ 0xDFFF then
                (charOf? (0x10000 + (high - 0xD800) * 0x400 + (low - 0xDC00))).map fun e => (e, 12)
              else none
        else (charOf? high).map fun e => (e, 6)

/-- The text written before the closing quote of a JSON string, and what follows the quote; `fuel`
bounds the number of characters written. -/
def decodeInside? : Nat → Text → Option (Text × Text)
  | 0, _ => none
  | fuel + 1, s =>
    match ['"'].isPrefixOf? s with
    | some rest => some ([], rest)
    | none =>
      match decodeChar? s with
      | none => none
      | some (c, n) => (decodeInside? fuel (s.drop n)).map fun p => (c :: p.1, p.2)

/-- The JSON string at the start of a text, and what follows it. -/
def decodeString? (s : Text) : Option (Text × Text) :=
  (['"'].isPrefixOf? s).bind fun rest => decodeInside? (rest.length + 1) rest

/-- The member at the start of a text, and what follows it. -/
def decodeMember? (s : Text) : Option ((Text × Text) × Text) :=
  match decodeString? (skipSpace s) with
  | none => none
  | some (key, s) =>
    match [':'].isPrefixOf? (skipSpace s) with
    | none => none
    | some s => (decodeString? (skipSpace s)).map fun p => ((key, p.1), p.2)

/-- The members up to the closing brace of an object, and what follows the brace; `fuel` bounds the
number of members. -/
def decodeMembers? : Nat → Text → Option (List (Text × Text) × Text)
  | 0, _ => none
  | fuel + 1, s =>
    match decodeMember? s with
    | none => none
    | some (member, s) =>
      match skipSpace s with
      | [] => none
      | c :: s =>
        if c = '\x7d' then some ([member], s)
        else if c = ',' then (decodeMembers? fuel s).map fun p => (member :: p.1, p.2)
        else none

/-- The members of the object that a whole text writes. -/
def decodeObject? (s : Text) : Option (List (Text × Text)) :=
  match ['\x7b'].isPrefixOf? (skipSpace s) with
  | none => none
  | some s =>
    let members :=
      match ['\x7d'].isPrefixOf? (skipSpace s) with
      | some rest => some ([], rest)
      | none => decodeMembers? s.length s
    members.bind fun p => if (skipSpace p.2).isEmpty then some p.1 else none

end TypeBridge.Json
