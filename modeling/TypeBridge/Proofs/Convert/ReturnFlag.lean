import TypeBridge.Proofs.Wrapper.Compositional

/-!
What the flag of a return type does. It passes through references and ends at the first wrapper or
tuple behind them, so it can only reach a `Result` that no other type is put around. Main statement:
such a `Result` is its success type where the flag is set, and the union of the configured error
type with the same success type where it is not; every other type is converted alike with and
without the flag.
-/

namespace TypeBridge

/-- What stands behind the outer references of an expression. -/
def TypeExpr.behindReferences : TypeExpr → TypeExpr
  | .reference referent _ _ => referent.behindReferences
  | e => e

/-- What stands behind the outer references. Text has none that count. -/
def TypeSource.behindReferences : TypeSource → TypeSource
  | .expr e => .expr e.behindReferences
  | .text s => .text s

/-- Whether a source without outer references is converted as a `Result`, and what its success type
is converted from. -/
inductive SucceedsWith (config : Config) : TypeSource → TypeSource → Prop
  /-- A text that is no scalar and is recognized as a `Result`. -/
  | text {s success : Text} (hscalar : Scalar.lookup? config.rows s = none)
      (hresult : (recognize s).value = some (.result success)) :
      SucceedsWith config (.text s) (.text success)
  /-- A path that is taken apart as a `Result`. -/
  | parsed {fullName : Text} {args : List TypeExpr} {success : TypeExpr}
      (hresult : config.parts? fullName args = some (.result success)) :
      SucceedsWith config (.expr (.path fullName args none)) (.expr success)
  /-- A path that is not taken apart, with the printed form of a `Result`. -/
  | printed {fullName : Text} {args : List TypeExpr} {success : TypeSource}
      (hparts : config.parts? fullName args = none)
      (hresult : SucceedsWith config (.text (TypeExpr.path fullName args none).print) success) :
      SucceedsWith config (.expr (.path fullName args none)) success

variable {config : Config}

/-! ### One wrapper -/

theorem renderWrapped_eq_of_ne_result {α : Type} (f : α → Logged TsType) {w : Wrapped α}
    (h : ∀ success, w ≠ .result success) :
    renderWrapped config false (w.map f) = renderWrapped config true (w.map f) := by
  cases w with
  | vec element => rfl
  | option present => rfl
  | result success => exact absurd rfl (h success)
  | hashMap key value => rfl

theorem value_convertText_of_result {s success : Text} (isReturn : Bool)
    (hscalar : Scalar.lookup? config.rows s = none)
    (hresult : (recognize s).value = some (.result success)) :
    (convertText config isReturn s).value
      = TsType.ofWrapped config isReturn (.result (convertText config false success).value) := by
  rw [value_convertText, hscalar, hresult]
  rfl

/-- A text that is not converted as a `Result` is converted alike with and without the flag. -/
theorem convertText_of_not_succeedsWith {s : Text}
    (h : ∀ success, ¬ SucceedsWith config (.text s) success) :
    convertText config false s = convertText config true s := by
  rw [convertText_eq, convertText_eq]
  cases hscalar : Scalar.lookup? config.rows s with
  | some name => rfl
  | none =>
    refine Logged.bind_congr ?_
    cases hw : (recognize s).value with
    | none => rfl
    | some w =>
      refine renderWrapped_eq_of_ne_result _ fun success hsuccess => ?_
      rw [hsuccess] at hw
      exact h _ (.text hscalar hw)

/-! ### References and paths -/

theorem convertExpr_behindReferences (isReturn : Bool) : ∀ e : TypeExpr,
    convertExpr config isReturn e.behindReferences = convertExpr config isReturn e
  | .reference referent _ _ => by
    rw [TypeExpr.behindReferences, convertExpr]
    exact convertExpr_behindReferences isReturn referent
  | .tuple _ => rfl
  | .path _ _ _ => rfl
  | .verbatim _ _ => rfl

theorem convert_behindReferences (isReturn : Bool) (source : TypeSource) :
    convert config isReturn source.behindReferences = convert config isReturn source := by
  cases source with
  | text s => rfl
  | expr e => exact convertExpr_behindReferences isReturn e

/-- A `Result` is rendered around its success type, which is converted without the flag. -/
theorem SucceedsWith.value_convert {source success : TypeSource}
    (h : SucceedsWith config source success) (isReturn : Bool) :
    (convert config isReturn source).value
      = TsType.ofWrapped config isReturn (.result (convert config false success).value) := by
  induction h with
  | text hscalar hresult => exact value_convertText_of_result isReturn hscalar hresult
  | parsed hresult =>
    rw [convert, convertExpr_path, hresult]
    rfl
  | printed hparts _ ih =>
    rw [convert, convertExpr_path, hparts]
    exact ih

theorem convertExpr_of_not_succeedsWith : ∀ {e : TypeExpr},
    (∀ success, ¬ SucceedsWith config (.expr e.behindReferences) success) →
      convertExpr config false e = convertExpr config true e
  | .reference _ _ _, h => by
    rw [convertExpr, convertExpr]
    exact convertExpr_of_not_succeedsWith h
  | .tuple elements, _ => by rw [convertExpr_tuple, convertExpr_tuple]
  | .path fullName args none, h => by
    rw [convertExpr_path, convertExpr_path]
    cases hparts : config.parts? fullName args with
    | none => exact convertText_of_not_succeedsWith fun success hs => h success (.printed hparts hs)
    | some w =>
      refine renderWrapped_eq_of_ne_result _ fun success hsuccess => ?_
      rw [hsuccess] at hparts
      exact h _ (.parsed hparts)
  | .path _ _ (some _), _ => rfl
  | .verbatim _ _, _ => rfl

/-! ### The flag -/

/-- The flag takes the error type off an outermost `Result`, below which it has no effect, and has
none on any other type. -/
theorem convert_isReturn (config : Config) (source : TypeSource) :
    (∀ success, SucceedsWith config source.behindReferences success →
      (convert config true source).value = (convert config false success).value ∧
        (convert config false source).value.render
          = config.errorType ++ " | ".toList ++ (convert config true source).value.render) ∧
    ((∀ success, ¬ SucceedsWith config source.behindReferences success) →
      convert config false source = convert config true source) := by
  refine ⟨fun success h => ?_, fun h => ?_⟩
  · have hvalue : ∀ isReturn, (convert config isReturn source).value
        = TsType.ofWrapped config isReturn (.result (convert config false success).value) := by
      intro isReturn
      rw [← convert_behindReferences]
      exact h.value_convert isReturn
    refine ⟨hvalue true, ?_⟩
    rw [hvalue true, hvalue false]
    exact TsType.render_union _ _
  · cases source with
    | text s => exact convertText_of_not_succeedsWith h
    | expr e => exact convertExpr_of_not_succeedsWith h

/-- Behind a reference, the outermost `Result` of a path reacts to the flag and the one below it
does not; neither does a `Result` in a text of another wrapper. -/
theorem convert_isReturn_nested :
    let config : Config := { structural := true, errorType := "ApiError".toList }
    let error := TypeExpr.path "io::Error".toList [] none
    let count := TypeExpr.path "Result".toList [.path "u8".toList [] none, error] none
    let counts := TypeExpr.path "Vec".toList [count] none
    let result := TypeExpr.path "std::result::Result".toList [counts, error] none
    let source := TypeSource.expr (.reference result true (some "a".toList))
    let option := TypeSource.text "Option < Result < u8, E > >".toList
    (SucceedsWith config source.behindReferences (.expr counts) ∧
        (convert config true source).value.render = "Array<ApiError | number>".toList ∧
        (convert config false source).value.render
          = "ApiError | Array<ApiError | number>".toList) ∧
      (∀ success, ¬ SucceedsWith config option.behindReferences success) ∧
        convert config false option = convert config true option := by
  intro config error count counts result source option
  have hsucceeds : SucceedsWith config source.behindReferences (.expr counts) := .parsed rfl
  have hrender : (convert config true source).value.render = "Array<ApiError | number>".toList := by
    decide +kernel
  have hfails : ∀ success, ¬ SucceedsWith config option.behindReferences success := by
    have hrecognized : (recognize "Option < Result < u8, E > >".toList).value
        = some (.option "Result < u8, E >".toList) := by decide +kernel
    rintro _ (⟨_, hresult⟩ | _ | _)
    rw [hrecognized] at hresult
    cases hresult
  refine ⟨⟨hsucceeds, hrender, ?_⟩, hfails, (convert_isReturn config option).2 hfails⟩
  rw [((convert_isReturn config source).1 _ hsucceeds).2, hrender]
  rfl

end TypeBridge
