import TypeBridge.Text.Basic

/-!
Type expressions: references, tuples, named paths with generic arguments, and every other shape as
the text it was written in. Main statements: an induction principle over expressions and their
lists of parts, and equality of expressions is decidable.
-/

namespace TypeBridge

/-- The shapes whose text is kept as it is, each with its tag. -/
inductive Form where
  | pointer
  | array
  | slice
  | never
  | infer
  | function
  | dynTrait
  | implTrait
  | traitObject
  | paren
  | const
  | binding
  | other (tag : Text)
  deriving DecidableEq

namespace Form

/-- The tag of a form. -/
def tag : Form → Text
  | pointer => "pointer".toList
  | array => "array".toList
  | slice => "slice".toList
  | never => "never".toList
  | infer => "infer".toList
  | function => "fn".toList
  | dynTrait => "dyn".toList
  | implTrait => "impl".toList
  | traitObject => "trait_object".toList
  | paren => "paren".toList
  | const => "const".toList
  | binding => "binding".toList
  | other tag => tag

/-- The forms that have a tag of their own. -/
def known : List Form :=
  [pointer, array, slice, never, infer, function, dynTrait, implTrait, traitObject, paren, const,
   binding]

/-- The form with a given tag. -/
def ofTag (tag : Text) : Form :=
  (known.find? fun form => form.tag == tag).getD (other tag)

@[simp] theorem tag_ofTag (tag : Text) : (ofTag tag).tag = tag := by
  unfold ofTag
  cases h : known.find? fun form => form.tag == tag with
  | none => rfl
  | some form => simpa using List.find?_some h

end Form

/-- A type expression. -/
inductive TypeExpr where
  /-- A borrowed type, with the name of its lifetime if one is written. -/
  | reference (referent : TypeExpr) (isMutable : Bool) (lifetime : Option Text)
  /-- A tuple; without elements it is the unit type. -/
  | tuple (elements : List TypeExpr)
  /-- A named path with generic arguments. A qualified path has the text of its self type. -/
  | path (fullName : Text) (args : List TypeExpr) (selfType : Option Text)
  /-- Any other shape, as it is written. -/
  | verbatim (form : Form) (text : Text)

namespace TypeExpr

/-- The unit type. -/
def unit : TypeExpr := tuple []

/-- Whether an expression is the unit type. -/
def isUnit : TypeExpr → Bool
  | tuple [] => true
  | _ => false

/-- What follows the last `::` of a text, if it has one. -/
def afterSeparator? : Text → Option Text
  | [] => none
  | c :: s =>
    match afterSeparator? s with
    | some name => some name
    | none => [':', ':'].isPrefixOf? (c :: s)

/-- The last segment of a path: what follows its last `::`, or all of it. -/
def lastSegment (fullName : Text) : Text := (afterSeparator? fullName).getD fullName

/-- To prove something of every expression, prove it of each shape from its parts. -/
theorem induct {motive : TypeExpr → Prop}
    (reference : ∀ referent isMutable lifetime, motive referent →
      motive (reference referent isMutable lifetime))
    (tuple : ∀ elements, (∀ e ∈ elements, motive e) → motive (tuple elements))
    (path : ∀ fullName args selfType, (∀ e ∈ args, motive e) → motive (path fullName args selfType))
    (verbatim : ∀ form text, motive (verbatim form text)) : ∀ e, motive e
  | .reference referent isMutable lifetime =>
    reference referent isMutable lifetime (induct reference tuple path verbatim referent)
  | .tuple elements =>
    tuple elements fun e _ => induct reference tuple path verbatim e
  | .path fullName args selfType =>
    path fullName args selfType fun e _ => induct reference tuple path verbatim e
  | .verbatim form text => verbatim form text

/-! ### Equality -/

mutual

/-- Whether two expressions are equal, part by part. -/
def same : TypeExpr → TypeExpr → Bool
  | .reference t m l, .reference t' m' l' => same t t' && m == m' && l == l'
  | .tuple es, .tuple es' => sameAll es es'
  | .path p args q, .path p' args' q' => p == p' && sameAll args args' && q == q'
  | .verbatim f s, .verbatim f' s' => f == f' && s == s'
  | _, _ => false

/-- Whether two lists of expressions are equal, part by part. -/
def sameAll : List TypeExpr → List TypeExpr → Bool
  | [], [] => true
  | e :: es, e' :: es' => same e e' && sameAll es es'
  | _, _ => false

end

mutual

theorem same_iff : ∀ e e' : TypeExpr, same e e' = true ↔ e = e'
  | .reference t m l, .reference t' m' l' => by
    simp [same, same_iff t t', and_assoc]
  | .tuple es, .tuple es' => by simp [same, sameAll_iff es es']
  | .path p args q, .path p' args' q' => by simp [same, sameAll_iff args args', and_assoc]
  | .verbatim f s, .verbatim f' s' => by simp [same]
  | .reference _ _ _, .tuple _ | .reference _ _ _, .path _ _ _ | .reference _ _ _, .verbatim _ _
  | .tuple _, .reference _ _ _ | .tuple _, .path _ _ _ | .tuple _, .verbatim _ _
  | .path _ _ _, .reference _ _ _ | .path _ _ _, .tuple _ | .path _ _ _, .verbatim _ _
  | .verbatim _ _, .reference _ _ _ | .verbatim _ _, .tuple _ | .verbatim _ _, .path _ _ _ => by
    simp [same]

theorem sameAll_iff : ∀ es es' : List TypeExpr, sameAll es es' = true ↔ es = es'
  | [], [] => by simp [sameAll]
  | e :: es, e' :: es' => by simp [sameAll, same_iff e e', sameAll_iff es es']
  | [], _ :: _ | _ :: _, [] => by simp [sameAll]

end

instance : DecidableEq TypeExpr := fun e e' => decidable_of_iff _ (same_iff e e')

end TypeExpr

end TypeBridge
