import TypeBridge.Nesting.Closing
import TypeBridge.Nesting.Pieces
import TypeBridge.Text.Word
import TypeBridge.TypeExpr.Basic
import TypeBridge.TypeExpr.Path

/-!
One layer of type text: its outermost shape, with the texts of the types inside it. Compact text
such as `Vec<&'a str>` and printed text such as `Vec < & 'a str >` have the same layers.
-/

namespace TypeBridge

/-- A generic argument: the binding of an associated type, or a type. -/
inductive Argument where
  | binding (text : Text)
  | type (text : Text)
  deriving DecidableEq

/-- The outermost shape of a type text. -/
inductive Layer where
  | reference (referent : Text) (isMutable : Bool) (lifetime : Option Text)
  /-- One type in parentheses, kept as it is written if the type inside is one. -/
  | group (whole inner : Text)
  | tuple (elements : List Text)
  | path (fullName : Text) (args : List Argument) (selfType : Option Text)
  | verbatim (form : Form) (text : Text)
  deriving DecidableEq

namespace Layer

/-- The texts of the types inside a layer, in order. -/
def parts : Layer → List Text
  | reference referent _ _ => [referent]
  | group _ inner => [inner]
  | tuple elements => elements
  | path _ args _ => args.filterMap fun
    | .type text => some text
    | .binding _ => none
  | verbatim _ _ => []

/-! ### References -/

/-- The layer of a reference whose lifetime, if any, has been read. -/
def ofReferent (lifetime : Option Text) (s : Text) : Layer :=
  match Text.afterWord? "mut".toList s with
  | some referent => reference referent true lifetime
  | none => reference s false lifetime

/-- The layer of a reference; `rest` is what follows its `&`. -/
def ofReference? (rest : Text) : Except ParseError Layer :=
  let s := Text.strip rest
  match ['\''].isPrefixOf? s with
  | none => .ok (ofReferent none s)
  | some afterQuote =>
    match Text.cutIdent? afterQuote with
    | none => .error ⟨s, .expectedReferent⟩
    | some (name, after) =>
      let referent := Text.stripStart after
      if referent.isEmpty then .error ⟨s, .expectedReferent⟩
      else .ok (ofReferent (some name) referent)

/-! ### Brackets -/

/-- The layer of `s`, which begins with `[`; `rest` is what follows that bracket. A semicolon
anywhere makes it an array. -/
def ofSquare? (s rest : Text) : Except ParseError Layer :=
  match Bracket.square.enclosed? rest with
  | none => .error ⟨s, .unmatched .square⟩
  | some _ => .ok (verbatim (if s.contains ';' then .array else .slice) s)

/-- The layer of the text between the parentheses of `s`. -/
def ofContent (s content : Text) : Layer :=
  match (splitPieces content).filter fun piece => !Text.isBlankText piece with
  | [inner] => if [','].isSuffixOf content then tuple [inner] else group s inner
  | elements => tuple elements

/-- The layer of `s`, which begins with `(`; `rest` is what follows that bracket. -/
def ofRound? (s rest : Text) : Except ParseError Layer :=
  match Bracket.round.enclosed? rest with
  | none => .error ⟨s, .unmatched .round⟩
  | some (inside, after) =>
    if after.isEmpty then .ok (ofContent s (Text.strip inside)) else .error ⟨s, .textAfterTuple⟩

/-! ### Paths -/

/-- Whether a generic argument is the binding of an associated type: a name, `=`, and something. -/
def isBinding (s : Text) : Bool :=
  match Text.cutIdent? s with
  | none => false
  | some (_, rest) =>
    match ['='].isPrefixOf? (Text.stripStart rest) with
    | none => false
    | some value => !Text.isBlankText value

/-- A piece of a generic argument list; lifetimes and blank pieces are no arguments. -/
def argument? (piece : Text) : Option Argument :=
  let s := Text.strip piece
  if s.isEmpty || ['\''].isPrefixOf s then none
  else if isBinding s then some (.binding s)
  else some (.type s)

/-- The layer of a path, with or without generic arguments. A path that goes on after its generic
arguments is kept as one name. -/
def ofPath? (s : Text) : Except ParseError Layer :=
  match Text.cutAt? '<' s with
  | none =>
    if Text.isIntegerLiteral s then .ok (verbatim .const s)
    else (normalizeName s).map fun name => path name [] none
  | some (before, rest) =>
    match normalizeName before with
    | .error e => .error e
    | .ok name =>
      match Bracket.angle.enclosed? rest with
      | none => .error ⟨s, .unmatched .angle⟩
      | some (inside, after) =>
        if Text.isBlankText after then
          .ok (path name ((splitPieces inside).filterMap argument?) none)
        else .ok (path (Text.collapse s) [] none)

/-- The layer of `s`, which begins with `<`; `rest` is what follows that bracket. -/
def ofQualified? (s rest : Text) : Except ParseError Layer :=
  match Bracket.angle.enclosed? rest with
  | none => .error ⟨s, .unmatched .angle⟩
  | some (inside, after) =>
    match [':', ':'].isPrefixOf? (Text.strip after) with
    | none => .error ⟨s, .expectedSeparator⟩
    | some tail =>
      match ofPath? (Text.strip tail) with
      | .error e => .error e
      | .ok (path name args _) => .ok (path name args (some (Text.collapse inside)))
      | .ok _ => .error ⟨s, .expectedPath⟩

/-- Whether a text begins with one of the words of a function type. -/
def isFunction (s : Text) : Bool :=
  ["unsafe", "extern", "fn"].any fun word => (Text.afterWord? word.toList s).isSome

/-- Whether a text begins with a closure trait and its argument list. -/
def isClosure (s : Text) : Bool :=
  ["Fn", "FnMut", "FnOnce"].any fun name =>
    match name.toList.isPrefixOf? s with
    | none => false
    | some rest => ['('].isPrefixOf (Text.stripStart rest)

/-- The layer of a text without blanks at its ends that begins with none of the characters
`&`, `*`, `[`, `(` and `<`. -/
def ofWord? (s : Text) : Except ParseError Layer :=
  if s = ['!'] then .ok (verbatim .never s)
  else if s = ['_'] then .ok (verbatim .infer s)
  else if isFunction s then .ok (verbatim .function s)
  else if "dyn ".toList.isPrefixOf s then .ok (verbatim .dynTrait s)
  else if "impl ".toList.isPrefixOf s then .ok (verbatim .implTrait s)
  else if isClosure s then .ok (verbatim .traitObject s)
  else ofPath? s

/-- The outermost layer of a text without blanks at its ends. -/
def ofStripped? : Text → Except ParseError Layer
  | [] => .error ⟨[], .expectedType⟩
  | c :: rest =>
    if c = '&' then ofReference? rest
    else if c = '*' then .ok (verbatim .pointer (c :: rest))
    else if c = '[' then ofSquare? (c :: rest) rest
    else if c = '(' then ofRound? (c :: rest) rest
    else if c = '<' then ofQualified? (c :: rest) rest
    else ofWord? (c :: rest)

/-- The outermost layer of a text. -/
def peel? (s : Text) : Except ParseError Layer := ofStripped? (Text.strip s)

end Layer

end TypeBridge
