import TypeBridge.Proofs.Convert.Dispatch
import TypeBridge.Proofs.Wrapper.Recognition

/-!
Conversion of wrappers in printed text. Main statement: the type of a wrapper is made from the types
of the arguments that it renders, each converted for itself; further arguments and the text behind
the closing bracket have no influence.
-/

namespace TypeBridge

theorem Scalar.builtin?_eq_none_of_mem_space {token : Text} (h : ' ' ∈ token) :
    builtin? token = none := by
  have htable : ∀ row ∈ table, ' ' ∉ row.1 := by decide
  refine Rows.lookup_eq_none fun row hrow he => ?_
  rw [← he] at h
  exact htable row hrow h

/-- Whether a configuration has no row for a text, and the text is no borrowed string slice. -/
def Unlisted (config : Config) (text : Text) : Prop :=
  config.rows.get? text = none ∧ " str".toList.isSuffixOf text = false

theorem Unlisted.lookup?_eq_none {config : Config} {text : Text} (h : Unlisted config text)
    (hs : ' ' ∈ text) : Scalar.lookup? config.rows text = none := by
  rw [Scalar.lookup?, Scalar.builtin?_eq_none_of_mem_space hs, h.1, h.2]
  rfl

theorem value_renderWrapped (config : Config) (isReturn : Bool) (w : Wrapped (Logged TsType)) :
    (renderWrapped config isReturn w).value
      = TsType.ofWrapped config isReturn (w.map Logged.value) := by
  cases w <;> rfl

/-- The type of printed text, whatever is reported on the way. -/
theorem value_convertText (config : Config) (isReturn : Bool) (text : Text) :
    (convertText config isReturn text).value =
      match Scalar.lookup? config.rows text with
      | some name => .name name
      | none => match (recognize text).value with
        | none => .name text
        | some w =>
          TsType.ofWrapped config isReturn (w.map fun t => (convertText config false t).value) := by
  rw [convertText_eq]
  cases Scalar.lookup? config.rows text with
  | some name => rfl
  | none =>
    simp only [Logged.value_bind]
    cases (recognize text).value with
    | none => rfl
    | some w => exact (value_renderWrapped _ _ _).trans (congrArg _ (w.map_map _ _))

theorem Wrapper.wrap?_append {α : Type} {wrapper : Wrapper} {args : List α} {w : Wrapped α}
    (h : wrapper.wrap? args = some w) (rest : List α) : wrapper.wrap? (args ++ rest) = some w := by
  obtain ⟨hwrapper, hlength, hargs⟩ := wrap?_eq_some_iff.1 h
  refine wrap?_eq_some_iff.2 ⟨hwrapper, ?_, ?_⟩
  · rw [List.length_append]
    omega
  · rw [hargs, List.take_append_of_le_length hlength]

/-- The type of a wrapper in printed text, from the arguments that it renders. -/
theorem value_convertText_wrapper {config : Config} (isReturn : Bool) {wrapper : Wrapper}
    {w : Wrapped Text} {texts : List Text} {pre more post : Text} (ht : ∀ t ∈ texts, IsArgument t)
    (hw : wrapper.wrap? (texts.map Text.strip) = some w) (hm : FurtherArguments more)
    (hpre : ' ' ∉ pre) (hstart : wrapper ≠ .hashMap → pre = []) (hpost : wrapper = .vec → post = [])
    (hu : Unlisted config (pre ++ (wrapper.opening
      ++ (", ".toList.intercalate texts ++ more ++ ' ' :: '>' :: post)))) :
    (convertText config isReturn (pre ++ (wrapper.opening
        ++ (", ".toList.intercalate texts ++ more ++ ' ' :: '>' :: post)))).value
      = TsType.ofWrapped config isReturn (w.map fun t => (convertText config false t).value) := by
  have hne : texts ≠ [] := by
    rintro rfl
    cases wrapper <;> cases hw
  have hline : '\n' ∉ ", ".toList.intercalate texts ++ more := by
    intro hn
    rcases List.mem_append.1 hn with hn | hn
    · exact Text.not_mem_intercalate (by decide) (fun t htm => (ht t htm).not_mem_newline) hn
    · exact hm.not_mem_newline hn
  obtain ⟨behind, hcapture, hclose⟩ := wrapper.exists_capture hline hpre hstart hpost
  obtain ⟨rest, hrest⟩ := exists_splitArguments hne ht (hm.endsArguments hclose)
  rw [← List.append_assoc] at hrest
  have hargs : wrapper.wrap? (splitArguments (", ".toList.intercalate texts ++ more ++ behind))
      = some w := by
    rw [hrest]
    exact Wrapper.wrap?_append hw rest
  have hmem : ' ' ∈ pre ++ (wrapper.opening
      ++ (", ".toList.intercalate texts ++ more ++ ' ' :: '>' :: post)) := by simp
  rw [value_convertText, hu.lookup?_eq_none hmem, recognize_opening hpre hcapture hargs]
  rfl

/-- A wrapper is converted from the arguments that it renders alone: `more` arguments and the text
`post` behind the brackets have no influence. -/
theorem convertText_of_arguments (config : Config) (isReturn : Bool) {t k v more : Text}
    (post : Text) (ht : IsArgument t) (hk : IsArgument k) (hv : IsArgument v)
    (hm : FurtherArguments more) :
    let typeOf := fun s => (convertText config false (Text.strip s)).value.render
    let result := fun s => (convertText config isReturn s).value.render
    let vec := "Vec < ".toList ++ t ++ more ++ " >".toList
    let option := "Option < ".toList ++ t ++ more ++ " >".toList ++ post
    let fallible := "Result < ".toList ++ t ++ more ++ " >".toList ++ post
    let hashMap := "HashMap < ".toList ++ k ++ ", ".toList ++ v ++ more ++ " >".toList ++ post
    (Unlisted config vec → result vec = "Array<".toList ++ typeOf t ++ ">".toList) ∧
    (Unlisted config option → result option = typeOf t ++ " | null".toList) ∧
    (Unlisted config fallible → result fallible =
      if isReturn then typeOf t else config.errorType ++ " | ".toList ++ typeOf t) ∧
    (Unlisted config hashMap →
      result hashMap = "Record<".toList ++ typeOf k ++ ", ".toList ++ typeOf v ++ ">".toList) := by
  have hvec : "Vec < ".toList ++ t ++ more ++ " >".toList
      = Wrapper.vec.opening ++ (", ".toList.intercalate [t] ++ more ++ ' ' :: '>' :: []) := by
    simp only [Wrapper.opening_vec, List.intercalate_singleton, List.append_assoc]
    rfl
  have hoption : "Option < ".toList ++ t ++ more ++ " >".toList ++ post
      = Wrapper.option.opening ++ (", ".toList.intercalate [t] ++ more ++ ' ' :: '>' :: post) := by
    simp only [Wrapper.opening_option, List.intercalate_singleton, List.append_assoc]
    rfl
  have hfallible : "Result < ".toList ++ t ++ more ++ " >".toList ++ post
      = Wrapper.result.opening ++ (", ".toList.intercalate [t] ++ more ++ ' ' :: '>' :: post) := by
    simp only [Wrapper.opening_result, List.intercalate_singleton, List.append_assoc]
    rfl
  have hhashMap : "HashMap < ".toList ++ k ++ ", ".toList ++ v ++ more ++ " >".toList ++ post
      = Wrapper.hashMap.opening
        ++ (", ".toList.intercalate [k, v] ++ more ++ ' ' :: '>' :: post) := by
    simp only [Wrapper.opening_hashMap, List.intercalate_cons_cons, List.intercalate_singleton,
      List.append_assoc]
    rfl
  have hvalue : ∀ (wrapper : Wrapper) {w : Wrapped Text} {texts : List Text} {post : Text},
      (∀ s ∈ texts, IsArgument s) → wrapper.wrap? (texts.map Text.strip) = some w →
        (wrapper = .vec → post = []) →
          Unlisted config (wrapper.opening
            ++ (", ".toList.intercalate texts ++ more ++ ' ' :: '>' :: post)) →
              (convertText config isReturn (wrapper.opening
                ++ (", ".toList.intercalate texts ++ more ++ ' ' :: '>' :: post))).value
                  = TsType.ofWrapped config isReturn
                      (w.map fun t => (convertText config false t).value) :=
    fun wrapper _ _ _ harguments hw hpost hu =>
      value_convertText_wrapper isReturn harguments hw hm List.not_mem_nil (fun _ => rfl) hpost hu
  have hone : ∀ s ∈ [t], IsArgument s := List.forall_mem_singleton.2 ht
  have htwo : ∀ s ∈ [k, v], IsArgument s :=
    List.forall_mem_cons.2 ⟨hk, List.forall_mem_singleton.2 hv⟩
  dsimp only
  rw [hvec, hoption, hfallible, hhashMap]
  refine ⟨fun hu => ?_, fun hu => ?_, fun hu => ?_, fun hu => ?_⟩
  · rw [hvalue .vec hone rfl (fun _ => rfl) hu]
    exact TsType.render_array _
  · rw [hvalue .option hone rfl nofun hu]
    exact (TsType.render_union _ _).trans (List.append_assoc _ _ _)
  · rw [hvalue .result hone rfl nofun hu]
    cases isReturn
    · exact TsType.render_union _ _
    · rfl
  · rw [hvalue .hashMap htwo rfl nofun hu]
    exact TsType.render_record _ _

/-- An arrow, a comma in brackets, a further argument and brackets behind the list. -/
theorem convertText_of_arguments_functionType :
    let t := "fn ( u8 ) -> Box < ( i8, i8 ) >".toList
    let more := ", io::Error".toList
    let option := "Option < ".toList ++ t ++ more ++ " >".toList ++ " > ] -> x".toList
    IsArgument t ∧ FurtherArguments more ∧ Unlisted {} option ∧
      (convertText {} true option).value.render
        = (convertText {} false (Text.strip t)).value.render ++ " | null".toList := by
  intro t more option
  have ht : IsArgument t :=
    ⟨by decide +kernel, by decide +kernel, by decide +kernel, by decide +kernel⟩
  have hm : FurtherArguments more := .inr ⟨"io::Error".toList, by decide, by decide, rfl⟩
  have hu : Unlisted {} option := ⟨rfl, by decide +kernel⟩
  exact ⟨ht, hm, hu, (convertText_of_arguments {} true " > ] -> x".toList ht ht ht hm).2.1 hu⟩

end TypeBridge
