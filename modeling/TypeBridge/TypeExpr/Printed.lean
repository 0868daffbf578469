import TypeBridge.TypeExpr.Basic

/-!
The printed form of a type expression: one space on each side of a generic bracket, one space after
a comma, and one space after each part of a reference. The lifetime of a reference is printed unless
its name is empty. Main statement: the parts of a list are printed each for itself.
-/

namespace TypeBridge.TypeExpr

/-- The name of a lifetime as it is printed before the referent. -/
def lifetimeText : Option Text → Text
  | none | some [] => []
  | some name => '\'' :: name ++ [' ']

/-- The mark of a mutable reference as it is printed before the referent. -/
def mutText (isMutable : Bool) : Text := if isMutable then "mut ".toList else []

/-- Printed elements as a tuple; a single element keeps a comma. -/
def tupleText : List Text → Text
  | [] => "()".toList
  | [element] => "(".toList ++ element ++ ",)".toList
  | elements => "(".toList ++ ", ".toList.intercalate elements ++ ")".toList

/-- A path with its qualifying self type. -/
def headText (fullName : Text) : Option Text → Text
  | none => fullName
  | some selfType => "< ".toList ++ selfType ++ " > :: ".toList ++ fullName

/-- Printed generic arguments in their brackets; nothing if there are none. -/
def argsText : List Text → Text
  | [] => []
  | args => " < ".toList ++ ", ".toList.intercalate args ++ " >".toList

mutual

/-- The printed form of a type expression. -/
def print : TypeExpr → Text
  | .reference referent isMutable lifetime =>
    "& ".toList ++ lifetimeText lifetime ++ mutText isMutable ++ print referent
  | .tuple elements => tupleText (printAll elements)
  | .path fullName args selfType => headText fullName selfType ++ argsText (printAll args)
  | .verbatim _ text => text

/-- The printed forms of several type expressions. -/
def printAll : List TypeExpr → List Text
  | [] => []
  | e :: es => print e :: printAll es

end

theorem printAll_eq_map : ∀ es : List TypeExpr, printAll es = es.map print
  | [] => rfl
  | e :: es => by rw [printAll, printAll_eq_map es, List.map_cons]

end TypeBridge.TypeExpr
