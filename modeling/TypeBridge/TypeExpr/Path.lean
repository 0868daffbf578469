import TypeBridge.Text.Blank
import TypeBridge.Text.Ident
import TypeBridge.TypeExpr.ParseError

/-!
Names: identifiers joined by `::`, perhaps with `::` in front, and integer literals, which stand in
generic arguments where a name could.
-/

namespace TypeBridge

namespace Text

/-- The segments of a text between its `::`, read from the left. -/
def segments : Text → List Text
  | [] => [[]]
  | [c] => [[c]]
  | c :: d :: s =>
    if c = ':' ∧ d = ':' then [] :: segments s else (segments (d :: s)).modifyHead (c :: ·)

/-- Whether segments are identifiers, the first of several perhaps empty. -/
def isName : List Text → Bool
  | [] :: segment :: rest => (segment :: rest).all isIdent
  | names => names.all isIdent

/-- The sizes that an integer suffix can have. -/
def suffixes : List Text :=
  ["8", "16", "32", "64", "128", "size"].flatMap fun size =>
    ['i' :: size.toList, 'u' :: size.toList]

/-- Whether a text is a row of digits and underscores that begins with a digit, perhaps with an
integer suffix. -/
def isUnsignedLiteral : Text → Bool
  | [] => false
  | c :: s =>
    let suffix := s.dropWhile fun d => d.isDigit || d == '_'
    c.isDigit && (suffix.isEmpty || suffixes.contains suffix)

/-- Whether a text is an integer literal. -/
def isIntegerLiteral (s : Text) : Bool := isUnsignedLiteral ((['-'].isPrefixOf? s).getD s)

end Text

/-- A name without the blanks around it and around its `::`. -/
def normalizeName (s : Text) : Except ParseError Text :=
  let names := (Text.segments (Text.strip s)).map Text.strip
  if Text.isName names then .ok ([':', ':'].intercalate names) else .error ⟨s, .notAPath⟩

end TypeBridge
