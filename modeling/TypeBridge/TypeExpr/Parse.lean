import TypeBridge.TypeExpr.Shrink

/-!
Reading type text: each layer is peeled off, and the texts inside it are read in order. Reading ends
because the texts inside a layer are shorter. Main statement: `parseType_eq` says how a text is read
from its outermost layer.
-/

namespace TypeBridge

/-- The expression written in a text, which may stand inside another type. -/
def parseType (s : Text) : Except ParseError TypeExpr :=
  match _h : Layer.peel? s with
  | .error e => .error e
  | .ok (.reference referent isMutable lifetime) => do
    return .reference (← parseType referent) isMutable lifetime
  | .ok (.group whole inner) => do
    let _ ← parseType inner
    return .verbatim .paren whole
  | .ok (.tuple elements) => do
    return .tuple (← elements.attach.mapM fun ⟨element, _⟩ => parseType element)
  | .ok (.path name args selfType) => do
    return .path name (← args.attach.mapM fun
      | ⟨.binding text, _⟩ => pure (.verbatim .binding text)
      | ⟨.type text, _⟩ => parseType text) selfType
  | .ok (.verbatim form text) => .ok (.verbatim form text)
termination_by s.length
decreasing_by
  all_goals
    refine Nat.lt_of_lt_of_le (Layer.length_lt_of_mem_parts _h _ ?_) (Text.length_strip_le s)
    simp [Layer.parts]
  · assumption
  · exact ⟨_, ‹_›, rfl⟩

/-- The expression of a generic argument. -/
def Argument.read : Argument → Except ParseError TypeExpr
  | .binding text => .ok (.verbatim .binding text)
  | .type text => parseType text

/-- The expression of a layer, whose parts are read in order. -/
def Layer.read : Layer → Except ParseError TypeExpr
  | reference referent isMutable lifetime => do
    return .reference (← parseType referent) isMutable lifetime
  | group whole inner => do
    let _ ← parseType inner
    return .verbatim .paren whole
  | tuple elements => do
    return .tuple (← elements.mapM parseType)
  | path name args selfType => do
    return .path name (← args.mapM Argument.read) selfType
  | verbatim form text => .ok (.verbatim form text)

theorem parseType_eq (s : Text) : parseType s = (Layer.peel? s).bind Layer.read := by
  rw [parseType]
  split <;> rename_i h <;> rw [h]
  · rfl
  · rfl
  · rfl
  · rename_i elements
    have := List.mapM_subtype (l := elements.attach) (f := fun e => parseType e.1) (g := parseType)
      fun _ _ => rfl
    simp only [Layer.read, Except.bind]
    rw [this, List.unattach_attach]
  · rename_i name args selfType
    simp only [Layer.read, Except.bind]
    rw [List.mapM_subtype (g := Argument.read) ?_, List.unattach_attach]
    rintro (_ | _) _ <;> rfl
  · rfl

/-- The expression written in a text. -/
def parse (s : Text) : Except ParseError TypeExpr :=
  if (Text.strip s).isEmpty then .error ⟨[], .emptyText⟩ else parseType s

end TypeBridge
