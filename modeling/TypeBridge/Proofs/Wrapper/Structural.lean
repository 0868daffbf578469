import TypeBridge.Proofs.Convert.Consulted
import TypeBridge.Proofs.Wrapper.Compositional
import TypeBridge.Proofs.Wrapper.Rendered

/-!
Conversion from the parts of an expression and from its printed form. Main statements: whether
wrappers are taken from parsed arguments makes no difference to printed text; and an expression
whose printed form holds its wrappers is converted alike from both.
-/

namespace TypeBridge

/-! ### The choice of a configuration -/

/-- Printed text is converted alike whether or not parsed arguments are used elsewhere. -/
theorem convertText_structural (config : Config) (isStructural isReturn : Bool) (text : Text) :
    convertText { config with structural := isStructural } isReturn text
      = convertText config isReturn text := by
  have hagrees : Config.AgreesOn { config with structural := isStructural } config text :=
    ⟨rfl, fun _ _ _ => rfl⟩
  exact hagrees.convertText_congr isReturn

/-! ### The two conversions -/

section

variable {config : Config} {isReturn : Bool}

theorem StrReference.value_convertExpr {e : TypeExpr} (he : StrReference e) :
    (convertExpr config isReturn e).value = .name "string".toList := by
  induction he with
  | slice isMutable lifetime _ =>
    have htextual : ∀ wrapper ∈ config.wrapper? "str".toList,
        ([] : List TypeExpr).length < wrapper.arity := by
      intro wrapper _
      cases wrapper <;> decide
    have hbuiltin : Scalar.builtin? "str".toList = some "string".toList := by decide
    have hprint : (TypeExpr.path "str".toList [] none).print = "str".toList := rfl
    rw [convertExpr, convertExpr_path_of_textual htextual, hprint, convertText_eq,
      Scalar.lookup?_of_builtin? hbuiltin]
    rfl
  | reference referent isMutable lifetime _ _ ih =>
    rw [convertExpr]
    exact ih

theorem Rows.get?_eq_none_of_mem_space {rows : Rows} (hrows : ∀ row ∈ rows.entries, ' ' ∉ row.1)
    {token : Text} (h : ' ' ∈ token) : rows.get? token = none := by
  refine lookup_eq_none fun row hrow he => ?_
  rw [← he] at h
  exact hrows row hrow h

theorem StrReference.value_convertText {e : TypeExpr} (he : StrReference e)
    (hrows : ∀ row ∈ config.rows.entries, ' ' ∉ row.1) :
    (convertText config isReturn e.print).value = .name "string".toList := by
  obtain ⟨inner, hprint⟩ := he.exists_print
  have hspace : ' ' ∈ e.print := by
    rw [hprint]
    exact List.mem_append_right _ (by decide)
  have hend : " str".toList.isSuffixOf e.print = true := by
    rw [hprint]
    exact List.isSuffixOf_iff_suffix.2 (List.suffix_append _ _)
  have hlookup : Scalar.lookup? config.rows e.print = some "string".toList := by
    rw [Scalar.lookup?, Scalar.builtin?_eq_none_of_mem_space hspace,
      Rows.get?_eq_none_of_mem_space hrows hspace, hend]
    rfl
  rw [convertText_eq, hlookup]
  rfl

theorem Wrapper.ofName?_eq_some_iff {s : Text} {wrapper : Wrapper} :
    ofName? s = some wrapper ↔ s = wrapper.name := by
  constructor
  · intro h
    exact (name_of_ofName? h).symm
  · rintro rfl
    exact ofName?_name wrapper

theorem Config.wrapper?_text_eq_some_iff {n : PathName} {wrapper : Wrapper} :
    config.wrapper? n.text = some wrapper ↔ config.structural = true ∧ n.last = wrapper.name := by
  rw [Config.wrapper?, n.lastSegment_text]
  cases config.structural with
  | false => simp
  | true => simp [Wrapper.ofName?_eq_some_iff]

theorem isSuffixOf_str_of_close (s : Text) :
    " str".toList.isSuffixOf (s ++ [' ', '>']) = false := by
  rw [List.isSuffixOf, List.reverse_append]
  rfl

theorem unlisted_of_close (hrows : ∀ row ∈ config.rows.entries, ' ' ∉ row.1) (s : Text) :
    Unlisted config (s ++ [' ', '>']) := by
  refine ⟨Rows.get?_eq_none_of_mem_space hrows ?_, isSuffixOf_str_of_close s⟩
  exact List.mem_append_right s List.mem_cons_self

/-- The printed form of a wrapper, as the capture of its arguments reads it. -/
theorem exists_print_wrapped (n : PathName) {wrapper : Wrapper} {rendered more : List TypeExpr}
    (hwrapper : n.last = wrapper.name) (hlength : rendered.length = wrapper.arity)
    (hmore : ∀ e ∈ more, Tame e) : ∃ pre further, n.text = pre ++ wrapper.name ∧
      FurtherArguments further ∧ (TypeExpr.path n.text (rendered ++ more) none).print
        = pre ++ (wrapper.opening ++ (", ".toList.intercalate (rendered.map TypeExpr.print)
            ++ further ++ ' ' :: '>' :: [])) := by
  obtain ⟨pre, hpre⟩ := n.exists_text_eq_append
  rw [hwrapper] at hpre
  have hne : rendered ≠ [] := by
    rintro rfl
    cases wrapper <;> cases hlength
  refine ⟨pre, if more.map TypeExpr.print = [] then [] else
    ", ".toList ++ ", ".toList.intercalate (more.map TypeExpr.print), hpre, ?_, ?_⟩
  · split
    · exact .inl rfl
    · exact .inr ⟨_, wellNested_intercalate_print hmore, newline_not_mem_intercalate_print hmore,
        rfl⟩
  · rw [print_path_append n.text hne, hpre, Wrapper.opening]
    simp only [List.append_assoc]
    rfl

/-- The conversion of a printed wrapper, from those of the arguments that it renders. -/
theorem value_convertText_wrapped (hrows : ∀ row ∈ config.rows.entries, ' ' ∉ row.1) (n : PathName)
    {wrapper : Wrapper} {rendered more : List TypeExpr} {w : Wrapped TypeExpr}
    (hwrapper : n.last = wrapper.name) (hname : wrapper ≠ .hashMap → n.text = wrapper.name)
    (hlength : rendered.length = wrapper.arity) (hrendered : ∀ e ∈ rendered, Rendered e)
    (hmore : ∀ e ∈ more, Tame e) (hw : wrapper.wrap? rendered = some w) :
    (convertText config isReturn (TypeExpr.path n.text (rendered ++ more) none).print).value
      = TsType.ofWrapped config isReturn
          (w.map fun e => (convertText config false e.print).value) := by
  obtain ⟨pre, further, htext, hfurther, hprint⟩ :=
    exists_print_wrapped n hwrapper hlength hmore
  have hpre : ' ' ∉ pre := by
    intro h
    have hspace : ' ' ∈ n.text := by
      rw [htext]
      exact List.mem_append_left _ h
    exact PathName.not_mem_text (by decide) (by decide) hspace
  have hstart : wrapper ≠ .hashMap → pre = [] := by
    intro h
    have hself := (hname h).symm.trans htext
    simpa using hself
  have hargs : ∀ s ∈ rendered.map TypeExpr.print, IsArgument s := by
    intro s hs
    obtain ⟨e, he, rfl⟩ := List.mem_map.1 hs
    exact (hrendered e he).isArgument
  have hstrip : (rendered.map TypeExpr.print).map Text.strip = rendered.map TypeExpr.print := by
    rw [List.map_map]
    exact List.map_congr_left fun e he => (hrendered e he).trimmed.strip_eq
  have hprints : wrapper.wrap? ((rendered.map TypeExpr.print).map Text.strip)
      = some (w.map TypeExpr.print) := by
    rw [hstrip, Wrapper.wrap?_map, hw]
    rfl
  have hclose : pre ++ (wrapper.opening ++ (", ".toList.intercalate (rendered.map TypeExpr.print)
      ++ further ++ ' ' :: '>' :: [])) = pre ++ (wrapper.opening
        ++ (", ".toList.intercalate (rendered.map TypeExpr.print) ++ further)) ++ [' ', '>'] := by
    simp only [List.append_assoc]
  rw [hprint, value_convertText_wrapper isReturn hargs hprints hfurther hpre hstart (fun _ => rfl)
    (hclose ▸ unlisted_of_close hrows _), Wrapped.map_map]

/-- An expression whose printed form holds its wrappers is converted alike from both. -/
theorem Rendered.value_convertExpr {e : TypeExpr} (he : Rendered e)
    (hrows : ∀ row ∈ config.rows.entries, ' ' ∉ row.1) :
    (convertExpr config isReturn e).value = (convertText config isReturn e.print).value := by
  induction he generalizing isReturn with
  | borrowed e he => rw [he.value_convertExpr, he.value_convertText hrows]
  | textual n args hwrapper _ =>
    rw [convertExpr_path_of_textual]
    intro wrapper h
    exact hwrapper wrapper (Config.wrapper?_text_eq_some_iff.1 h).2
  | wrapped n wrapper rendered more hwrapper hname hlength hrendered hmore ih =>
    cases hs : config.structural with
    | false =>
      rw [convertExpr_path_of_textual]
      intro other h
      have htrue := (Config.wrapper?_text_eq_some_iff.1 h).1
      rw [hs] at htrue
      exact absurd htrue (by decide)
    | true =>
      have hsome : config.wrapper? n.text = some wrapper :=
        Config.wrapper?_text_eq_some_iff.2 ⟨hs, hwrapper⟩
      cases hw : wrapper.wrap? rendered with
      | none =>
        have hfew := Wrapper.wrap?_eq_none_iff.1 hw
        exact absurd hlength (Nat.ne_of_lt hfew)
      | some w =>
        have hargs : ∀ e ∈ w.args, (convertExpr config false e).value
            = (convertText config false e.print).value := by
          intro e hm
          rw [(Wrapper.wrap?_eq_some_iff.1 hw).2.2] at hm
          exact ih e (List.mem_of_mem_take hm)
        rw [convertExpr_path_of_wrap? hsome (Wrapper.wrap?_append hw more), value_renderWrapped,
          Wrapped.map_map, Wrapped.map_congr hargs,
          value_convertText_wrapped hrows n hwrapper hname hlength hrendered hmore hw]

end

/-- Whether wrappers are taken from parsed arguments or from printed text, an expression whose
printed form holds its wrappers has the type of that form. -/
theorem convert_structural {e : TypeExpr} (he : Rendered e) (config : Config) (isReturn : Bool)
    (hrows : ∀ row ∈ config.rows.entries, ' ' ∉ row.1) :
    let typeOf := fun isStructural =>
      (convert { config with structural := isStructural } isReturn (.expr e)).value
    typeOf true = typeOf false ∧
      ∀ isStructural, typeOf isStructural = (convert config isReturn (.text e.print)).value := by
  intro typeOf
  have htext : ∀ isStructural,
      typeOf isStructural = (convert config isReturn (.text e.print)).value := by
    intro isStructural
    let chosen : Config := { config with structural := isStructural }
    have hchosen : ∀ row ∈ chosen.rows.entries, ' ' ∉ row.1 := hrows
    show (convertExpr chosen isReturn e).value = (convertText config isReturn e.print).value
    rw [he.value_convertExpr hchosen, convertText_structural]
  exact ⟨(htext true).trans (htext false).symm, htext⟩

/-- A qualified map from borrowed text, with an arrow among the arguments that are not converted. -/
theorem convert_structural_hashMap :
    let str := TypeExpr.reference (.path "str".toList [] none) true (some "a".toList)
    let arrow := TypeExpr.verbatim .function "fn ( u8 ) -> u8".toList
    let result := TypeExpr.path "Result".toList [str, arrow] none
    let e := TypeExpr.path "std::HashMap".toList [str, result, arrow] none
    let config : Config := { rows := .ofList [("Id".toList, "number".toList)] }
    Rendered e ∧ (∀ row ∈ config.rows.entries, ' ' ∉ row.1) ∧
      (convert { config with structural := true } true (.expr e)).value
        = (convert config true (.text e.print)).value := by
  intro str arrow result e config
  let std : PathName := ⟨false, "std".toList, ["HashMap".toList], by decide⟩
  let fallible : PathName := ⟨false, "Result".toList, [], by decide⟩
  have hname : ∀ name ∈ some "a".toList, Text.isIdent name = true := by
    intro name hm
    cases hm
    rfl
  have hstr : Rendered str := .borrowed str (.slice true _ hname)
  have harrow : ∀ e ∈ [arrow], Tame e :=
    List.forall_mem_singleton.2 ⟨by decide +kernel, by decide +kernel⟩
  have hresult : Rendered result :=
    .wrapped fallible .result [str] [arrow] rfl (fun _ => rfl) rfl
      (List.forall_mem_singleton.2 hstr) harrow
  have he : Rendered e :=
    .wrapped std .hashMap [str, result] [arrow] rfl nofun rfl
      (List.forall_mem_cons.2 ⟨hstr, List.forall_mem_singleton.2 hresult⟩) harrow
  have hrows : ∀ row ∈ config.rows.entries, ' ' ∉ row.1 := by decide
  exact ⟨he, hrows, (convert_structural he config true hrows).2 true⟩

end TypeBridge
