import TypeBridge.Config
import TypeBridge.Scalar.Table
import TypeBridge.TsType
import TypeBridge.Wrapper.Recognize

/-!
Conversion of type expressions, and of printed type text, into TypeScript types. A conversion
always succeeds: unknown names stay as they are, and shapes without a counterpart become the
configuration's any-type. A flag says whether the type is the whole return type of a signature: then
an outermost `Result` is its success type alone. Main statement: `convertText_eq` says how a text
is converted from the wrapper that it is written with.
-/

namespace TypeBridge

/-- What a conversion starts from: a parsed expression, or printed text. -/
inductive TypeSource where
  | expr (expr : TypeExpr)
  | text (text : Text)

/-- The type of a wrapper whose arguments are converted. -/
def TsType.ofWrapped (config : Config) (isReturn : Bool) : Wrapped TsType → TsType
  | .vec element => .array element
  | .option present => .union present .null
  | .result success => if isReturn then success else .union (.name config.errorType) success
  | .hashMap key value => .record key value

/-- The arguments of a wrapper converted in order. -/
def Wrapped.sequence {α : Type} : Wrapped (Logged α) → Logged (Wrapped α)
  | .vec element => .vec <$> element
  | .option present => .option <$> present
  | .result success => .result <$> success
  | .hashMap key value => do
    let key ← key
    let value ← value
    return .hashMap key value

/-- The type of a wrapper, once its arguments are converted in order. -/
def renderWrapped (config : Config) (isReturn : Bool) (w : Wrapped (Logged TsType)) :
    Logged TsType :=
  TsType.ofWrapped config isReturn <$> w.sequence

/-- A text that no rule converts stays as it is, and is reported if it is generic. -/
def passThrough (text : Text) : Logged TsType :=
  ⟨.name text, if text.contains '<' then [.passedThrough text] else []⟩

/-- The conversion of printed type text. Arguments of a wrapper are no return types. -/
def convertText (config : Config) (isReturn : Bool) (text : Text) : Logged TsType :=
  match Scalar.lookup? config.rows text with
  | some name => pure (.name name)
  | none =>
    match _h : recognize text with
    | ⟨none, log⟩ => ⟨(passThrough text).value, log ++ (passThrough text).log⟩
    | ⟨some w, log⟩ =>
      let rendered :=
        match w with
        | .vec t => renderWrapped config isReturn (.vec (convertText config false t))
        | .option t => renderWrapped config isReturn (.option (convertText config false t))
        | .result t => renderWrapped config isReturn (.result (convertText config false t))
        | .hashMap k v =>
          renderWrapped config isReturn
            (.hashMap (convertText config false k) (convertText config false v))
      ⟨rendered.value, log ++ rendered.log⟩
termination_by text.length
decreasing_by
  all_goals
    refine length_lt_of_mem_args_recognize (congrArg Logged.value _h) ?_
    simp [Wrapped.args]

theorem convertText_eq (config : Config) (isReturn : Bool) (text : Text) :
    convertText config isReturn text =
      match Scalar.lookup? config.rows text with
      | some name => pure (.name name)
      | none => recognize text >>= fun
        | none => passThrough text
        | some w => renderWrapped config isReturn (w.map (convertText config false)) := by
  rw [convertText]
  split
  · rfl
  · split
    · rename_i log h
      rw [h]
      rfl
    · rename_i w log h
      cases w <;> simp only [h] <;> rfl

/-- The wrapper that a path names, if the configuration takes parsed paths apart. -/
def Config.wrapper? (config : Config) (fullName : Text) : Option Wrapper :=
  if config.structural then Wrapper.ofName? (TypeExpr.lastSegment fullName) else none

/-- The report of an expression that has no counterpart. -/
def noMapping (config : Config) (expr : TypeExpr) : Logged TsType :=
  ⟨.name config.anyType, [.noMapping expr config.anyType]⟩

mutual

/-- The conversion of an expression. A reference is converted as what it refers to; a path as its
printed text, unless it is taken apart. -/
def convertExpr (config : Config) (isReturn : Bool) : TypeExpr → Logged TsType
  | .reference referent _ _ => convertExpr config isReturn referent
  | .tuple elements =>
    if elements.isEmpty then convertText config isReturn (TypeExpr.unit).print
    else .tuple <$> Logged.all (convertEach config elements)
  | .path fullName args none =>
    match config.wrapper? fullName with
    | none => convertText config isReturn (TypeExpr.path fullName args none).print
    | some wrapper =>
      match wrapper.wrap? (convertEach config args) with
      | none => convertText config isReturn (TypeExpr.path fullName args none).print
      | some w => renderWrapped config isReturn w
  | .path fullName args (some selfType) => noMapping config (.path fullName args (some selfType))
  | .verbatim form text => noMapping config (.verbatim form text)

/-- The conversions of several expressions, none of them a return type. -/
def convertEach (config : Config) : List TypeExpr → List (Logged TsType)
  | [] => []
  | e :: es => convertExpr config false e :: convertEach config es

end

theorem convertEach_eq_map (config : Config) : ∀ es : List TypeExpr,
    convertEach config es = es.map (convertExpr config false)
  | [] => rfl
  | e :: es => by rw [convertEach, convertEach_eq_map config es, List.map_cons]

/-- The conversion of an expression or of printed text. -/
def convert (config : Config) (isReturn : Bool) : TypeSource → Logged TsType
  | .expr e => convertExpr config isReturn e
  | .text s => convertText config isReturn s

end TypeBridge
