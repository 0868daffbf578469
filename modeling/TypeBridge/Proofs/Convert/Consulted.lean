import TypeBridge.Proofs.Convert.Dispatch
import TypeBridge.Proofs.TypeExpr.Print
import TypeBridge.Proofs.Wrapper.Captured

/-!
What a conversion consults of its configuration. Every token that is looked up stands in one piece
in the text, or in the printed form of the expression, and a built-in token is never looked up among
the rows. Main statement: two configurations that agree on the type of errors and on the rows of the
other tokens in a text convert it alike, and an expression too, if they also agree on the type of
what has no counterpart and on which paths are taken apart.
-/

namespace TypeBridge

/-- Whether two configurations agree on what the conversion of a text consults: the type of errors,
and the row, or that there is none, of each token in the text that is not built in. -/
structure Config.AgreesOn (config config' : Config) (text : Text) : Prop where
  errorType_eq : config.errorType = config'.errorType
  get?_eq : ∀ token, token <:+: text → Scalar.builtin? token = none →
    config.rows.get? token = config'.rows.get? token

variable {config config' : Config}

namespace Config.AgreesOn

variable {part text : Text}

theorem of_isInfix (h : config.AgreesOn config' text) (hp : part <:+: text) :
    config.AgreesOn config' part :=
  ⟨h.errorType_eq, fun token ht => h.get?_eq token (ht.trans hp)⟩

theorem lookup?_eq (h : config.AgreesOn config' text) :
    Scalar.lookup? config.rows text = Scalar.lookup? config'.rows text := by
  unfold Scalar.lookup?
  cases hbuiltin : Scalar.builtin? text with
  | some name => rfl
  | none => rw [h.get?_eq text List.infix_rfl hbuiltin]

end Config.AgreesOn

/-- A row for a built-in token is never consulted. -/
theorem Config.agreesOn_insert {token : Text} (h : Scalar.builtin? token ≠ none) (config : Config)
    (name text : Text) :
    Config.AgreesOn { config with rows := config.rows.insert token name } config text := by
  refine ⟨rfl, fun other _ hother => ?_⟩
  have hne : token ≠ other := by
    rintro rfl
    exact h hother
  rw [Rows.get?_insert, if_neg hne]

/-! ### Printed text -/

theorem renderWrapped_map_congr {α : Type} {f g : α → Logged TsType} {w : Wrapped α}
    (herror : config.errorType = config'.errorType) (isReturn : Bool)
    (hargs : ∀ a ∈ w.args, f a = g a) :
    renderWrapped config isReturn (w.map f) = renderWrapped config' isReturn (w.map g) := by
  have hof : TsType.ofWrapped config isReturn = TsType.ofWrapped config' isReturn := by
    funext w
    cases w with
    | result success => rw [TsType.ofWrapped, TsType.ofWrapped, herror]
    | _ => rfl
  rw [renderWrapped, renderWrapped, Wrapped.map_congr hargs, hof]

/-- Printed text is converted alike under configurations that agree on it. -/
theorem Config.AgreesOn.convertText_congr {text : Text} (h : config.AgreesOn config' text)
    (isReturn : Bool) : convertText config isReturn text = convertText config' isReturn text := by
  rw [convertText_eq, convertText_eq, h.lookup?_eq]
  cases Scalar.lookup? config'.rows text with
  | some name => rfl
  | none =>
    refine Logged.bind_congr ?_
    cases hw : (recognize text).value with
    | none => rfl
    | some w =>
      have hargs : ∀ t ∈ w.args, convertText config false t = convertText config' false t := by
        intro t ht
        have hlt := length_lt_of_mem_args_recognize hw ht
        exact (h.of_isInfix (isInfix_of_mem_args hw ht)).convertText_congr false
      exact renderWrapped_map_congr h.errorType_eq isReturn hargs
termination_by text.length

/-! ### Expressions -/

theorem Config.parts?_of_structural_eq (h : config.structural = config'.structural)
    (fullName : Text) (args : List TypeExpr) :
    config.parts? fullName args = config'.parts? fullName args := by
  rw [Config.parts?, Config.parts?, Config.wrapper?, Config.wrapper?, h]

theorem Config.mem_of_mem_args_parts? {fullName : Text} {args : List TypeExpr}
    {w : Wrapped TypeExpr} {e : TypeExpr} (h : config.parts? fullName args = some w)
    (he : e ∈ w.args) : e ∈ args := by
  obtain ⟨wrapper, _, hw⟩ := Option.bind_eq_some_iff.1 h
  rw [(Wrapper.wrap?_eq_some_iff.1 hw).2.2] at he
  exact List.mem_of_mem_take he

theorem noMapping_of_anyType_eq (h : config.anyType = config'.anyType) (e : TypeExpr) :
    noMapping config e = noMapping config' e := by
  rw [noMapping, noMapping, h]

/-- An expression is converted alike under configurations that agree on its printed form and on what
printed text does not need. -/
theorem Config.AgreesOn.convertExpr_congr {e : TypeExpr} (h : config.AgreesOn config' e.print)
    (hs : config.structural = config'.structural) (hany : config.anyType = config'.anyType)
    (isReturn : Bool) : convertExpr config isReturn e = convertExpr config' isReturn e := by
  induction e using TypeExpr.induct generalizing isReturn with
  | reference referent isMutable lifetime ih =>
    rw [convertExpr, convertExpr]
    exact ih (h.of_isInfix (TypeExpr.print_isInfix_reference referent isMutable lifetime)) isReturn
  | tuple elements ih =>
    have hall :
        elements.map (convertExpr config false) = elements.map (convertExpr config' false) :=
      List.map_congr_left fun e he => ih e he (h.of_isInfix (TypeExpr.print_isInfix_tuple he)) false
    rw [convertExpr_tuple, convertExpr_tuple, hall]
  | path fullName args selfType ih =>
    cases selfType with
    | some selfType => exact noMapping_of_anyType_eq hany _
    | none =>
      rw [convertExpr_path, convertExpr_path, Config.parts?_of_structural_eq hs]
      cases hparts : config'.parts? fullName args with
      | none => exact h.convertText_congr isReturn
      | some w =>
        have hargs : ∀ e ∈ w.args, convertExpr config false e = convertExpr config' false e := by
          intro e he
          have hmem := Config.mem_of_mem_args_parts? hparts he
          exact ih e hmem (h.of_isInfix (TypeExpr.print_isInfix_path fullName none hmem)) false
        exact renderWrapped_map_congr h.errorType_eq isReturn hargs
  | verbatim form text => exact noMapping_of_anyType_eq hany _

/-! ### Noninterference -/

/-- A conversion depends on its configuration only through what it consults. In particular, a row
for a built-in token has no effect. -/
theorem convert_eq_of_agreesOn (config config' : Config) (isReturn : Bool) :
    (∀ text, config.AgreesOn config' text →
      convert config isReturn (.text text) = convert config' isReturn (.text text)) ∧
    (∀ e, config.AgreesOn config' e.print → config.structural = config'.structural →
      config.anyType = config'.anyType →
        convert config isReturn (.expr e) = convert config' isReturn (.expr e)) ∧
    ∀ token name source, Scalar.builtin? token ≠ none →
      convert { config with rows := config.rows.insert token name } isReturn source
        = convert config isReturn source := by
  refine ⟨fun text h => h.convertText_congr isReturn, fun e h hs hany => ?_, ?_⟩
  · exact h.convertExpr_congr hs hany isReturn
  · intro token name source htoken
    have hagrees := Config.agreesOn_insert htoken config name
    cases source with
    | text s => exact (hagrees s).convertText_congr isReturn
    | expr e => exact (hagrees e.print).convertExpr_congr rfl rfl isReturn

/-- A row for a token that does not occur has no effect, and neither has one for a built-in token.
What is taken apart, and the type of what has no counterpart, is left open for text. -/
theorem convert_eq_of_agreesOn_rows :
    let config : Config := { rows := .ofList [("f64".toList, "number".toList)] }
    let rows := (config.rows.insert "Uuid".toList "string".toList).insert "u8".toList "Byte".toList
    let wider : Config := { config with rows := rows }
    let other : Config := { wider with structural := true, anyType := "unknown".toList }
    let text := "Result < Vec < f64 >, E >".toList
    let e := TypeExpr.tuple [.path "Vec".toList [.path "u8".toList [] none] none,
      .verbatim .array "[f64; 4]".toList]
    config.AgreesOn other text ∧ config.AgreesOn wider e.print ∧
      convert config true (.text text) = convert other true (.text text) ∧
      convert config true (.expr e) = convert wider true (.expr e) ∧
      convert { config with rows := config.rows.insert "u8".toList "Byte".toList } true (.expr e)
        = convert config true (.expr e) := by
  intro config rows wider other text e
  have hbuiltin : Scalar.builtin? "u8".toList ≠ none := by decide
  have hrows : ∀ {s : Text}, ¬ "Uuid".toList <:+: s → ∀ token, token <:+: s →
      Scalar.builtin? token = none → config.rows.get? token = rows.get? token := by
    intro s habsent token htoken hnone
    have hu8 : "u8".toList ≠ token := by
      rintro rfl
      exact hbuiltin hnone
    have huuid : "Uuid".toList ≠ token := by
      rintro rfl
      exact habsent htoken
    rw [Rows.get?_insert, if_neg hu8, Rows.get?_insert, if_neg huuid]
  have htext : config.AgreesOn other text := ⟨rfl, hrows (by decide +kernel)⟩
  have hexpr : config.AgreesOn wider e.print := ⟨rfl, hrows (by decide +kernel)⟩
  exact ⟨htext, hexpr, (convert_eq_of_agreesOn config other true).1 text htext,
    (convert_eq_of_agreesOn config wider true).2.1 e hexpr rfl rfl,
    (convert_eq_of_agreesOn config config true).2.2 _ _ _ hbuiltin⟩

end TypeBridge
