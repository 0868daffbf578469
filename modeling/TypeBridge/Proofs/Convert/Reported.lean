import TypeBridge.Proofs.Convert.Nested
import TypeBridge.Proofs.Convert.Consulted

/-!
What a conversion reports. The events of a conversion are those of finding its wrapper, and then
those of the arguments that are rendered. Main statement: just the conversions that depend on the
type of what has no counterpart report so; and if none reports a generic type that is left as it
is, every generic type in the result is an array or a record.
-/

namespace TypeBridge

/-! ### Events -/

namespace Event

variable {event : Event}

theorem begins_noMapping_iff : "No TypeScript mapping".toList <+: event.message ↔
    ∃ e fallback, event = .noMapping e fallback := by
  constructor
  · rintro ⟨rest, h⟩
    have hhead := congrArg List.head? h
    cases event with
    | tooFewArguments wrapper text captured => cases wrapper <;> cases hhead
    | noMapping e fallback => exact ⟨e, fallback, rfl⟩
    | passedThrough text => cases hhead
    | converted text => cases hhead
  · rintro ⟨e, fallback, rfl⟩
    have hwords : "No TypeScript mapping".toList <+: "No TypeScript mapping for ".toList := by
      decide
    unfold message
    iterate 5 refine List.prefix_append_of_prefix ?_
    exact hwords

theorem begins_passedThrough_iff :
    "Passing through unrecognized generic type".toList <+: event.message ↔
      ∃ text, event = .passedThrough text := by
  constructor
  · rintro ⟨rest, h⟩
    have hhead := congrArg List.head? h
    cases event with
    | tooFewArguments wrapper text captured => cases wrapper <;> cases hhead
    | noMapping e fallback => cases hhead
    | passedThrough text => exact ⟨text, rfl⟩
    | converted text => cases hhead
  · rintro ⟨text, rfl⟩
    have hwords : "Passing through unrecognized generic type".toList
        <+: "Passing through unrecognized generic type ".toList := by decide
    exact List.prefix_append_of_prefix hwords

end Event

/-! ### What is reported -/

theorem mem_log_recognizeAmong {text : Text} {event : Event} : ∀ {wrappers : List Wrapper},
    event ∈ (recognizeAmong text wrappers).log →
      ∃ wrapper captured, event = .tooFewArguments wrapper text captured
  | [], h => by cases h
  | wrapper :: rest, h => by
    rw [recognizeAmong] at h
    split at h
    · exact mem_log_recognizeAmong h
    · dsimp only at h
      split at h
      · cases h
      · rw [Logged.log_bind, Logged.log_emit] at h
        rcases List.mem_cons.1 h with rfl | h
        · exact ⟨wrapper, _, rfl⟩
        · exact mem_log_recognizeAmong h

theorem log_renderWrapped (config : Config) (isReturn : Bool) (w : Wrapped (Logged TsType)) :
    (renderWrapped config isReturn w).log = w.args.flatMap Logged.log := by
  rw [renderWrapped, Logged.log_map]
  cases w <;> simp [Wrapped.sequence, Wrapped.args]

theorem log_passThrough_of_mem {text : Text} (h : '<' ∈ text) :
    (passThrough text).log = [.passedThrough text] := by
  rw [passThrough, if_pos (List.contains_iff_mem.2 h)]

theorem log_convertText (config : Config) (isReturn : Bool) (text : Text) :
    (convertText config isReturn text).log =
      match Scalar.lookup? config.rows text with
      | some _ => []
      | none => (recognize text).log ++
        match (recognize text).value with
        | none => (passThrough text).log
        | some w => w.args.flatMap fun t => (convertText config false t).log := by
  rw [convertText_eq]
  cases Scalar.lookup? config.rows text with
  | some name => rfl
  | none =>
    rw [Logged.log_bind]
    cases (recognize text).value with
    | none => rfl
    | some w =>
      simp only [log_renderWrapped, Wrapped.args_map, List.flatMap_map]

theorem log_convertExpr_tuple (config : Config) (isReturn : Bool) (elements : List TypeExpr) :
    (convertExpr config isReturn (.tuple elements)).log
      = elements.flatMap fun e => (convertExpr config false e).log := by
  rw [convertExpr_tuple]
  cases elements with
  | nil => rfl
  | cons e es =>
    rw [List.isEmpty_cons, if_neg Bool.false_ne_true, Logged.log_map, Logged.log_all,
      List.flatMap_map]

theorem log_convertExpr_path (config : Config) (isReturn : Bool) (fullName : Text)
    (args : List TypeExpr) :
    (convertExpr config isReturn (.path fullName args none)).log =
      match config.parts? fullName args with
      | some w => w.args.flatMap fun e => (convertExpr config false e).log
      | none => (convertText config isReturn (TypeExpr.path fullName args none).print).log := by
  rw [convertExpr_path]
  cases config.parts? fullName args with
  | none => rfl
  | some w => simp only [log_renderWrapped, Wrapped.args_map, List.flatMap_map]

/-! ### Types without a counterpart -/

variable {config : Config}

theorem noMapping_not_mem_log_convertText (isReturn : Bool) (text : Text) (e : TypeExpr)
    (fallback : Text) : .noMapping e fallback ∉ (convertText config isReturn text).log := by
  intro h
  rw [log_convertText] at h
  cases hlookup : Scalar.lookup? config.rows text with
  | some name =>
    rw [hlookup] at h
    cases h
  | none =>
    rw [hlookup] at h
    rcases List.mem_append.1 h with h | h
    · obtain ⟨_, _, hevent⟩ := mem_log_recognizeAmong h
      cases hevent
    · cases hw : (recognize text).value with
      | none =>
        rw [hw] at h
        dsimp only [passThrough] at h
        split at h <;> simp at h
      | some w =>
        rw [hw] at h
        obtain ⟨t, ht, h⟩ := List.mem_flatMap.1 h
        have hlt := length_lt_of_mem_args_recognize hw ht
        exact noMapping_not_mem_log_convertText false t e fallback h
termination_by text.length

/-- What is reported to be used instead is the configured type. -/
theorem fallback_eq_of_mem_log {e e' : TypeExpr} {fallback : Text} {isReturn : Bool}
    (h : .noMapping e' fallback ∈ (convertExpr config isReturn e).log) :
    fallback = config.anyType := by
  induction e using TypeExpr.induct generalizing isReturn with
  | reference referent isMutable lifetime ih =>
    rw [convertExpr] at h
    exact ih h
  | tuple elements ih =>
    rw [log_convertExpr_tuple] at h
    obtain ⟨e, he, h⟩ := List.mem_flatMap.1 h
    exact ih e he h
  | path fullName args selfType ih =>
    cases selfType with
    | some selfType =>
      cases List.mem_singleton.1 h
      rfl
    | none =>
      rw [log_convertExpr_path] at h
      cases hparts : config.parts? fullName args with
      | none =>
        rw [hparts] at h
        exact absurd h (noMapping_not_mem_log_convertText isReturn _ e' fallback)
      | some w =>
        rw [hparts] at h
        obtain ⟨e, he, h⟩ := List.mem_flatMap.1 h
        exact ih e (Config.mem_of_mem_args_parts? hparts he) h
  | verbatim form text =>
    cases List.mem_singleton.1 h
    rfl

/-- Printed text is converted alike whatever the type of what has no counterpart. -/
theorem convertText_anyType (anyType : Text) (isReturn : Bool) (text : Text) :
    convertText { config with anyType := anyType } isReturn text
      = convertText config isReturn text :=
  have hagrees : Config.AgreesOn { config with anyType := anyType } config text :=
    ⟨rfl, fun _ _ _ => rfl⟩
  hagrees.convertText_congr isReturn

theorem convertExpr_anyType (anyType : Text) {isReturn : Bool} {e : TypeExpr}
    (h : ∀ e' fallback, .noMapping e' fallback ∉ (convertExpr config isReturn e).log) :
    convertExpr { config with anyType := anyType } isReturn e = convertExpr config isReturn e := by
  induction e using TypeExpr.induct generalizing isReturn with
  | reference referent isMutable lifetime ih =>
    rw [convertExpr] at h ⊢
    rw [ih h, convertExpr]
  | tuple elements ih =>
    have hall : elements.map (convertExpr { config with anyType := anyType } false)
        = elements.map (convertExpr config false) := by
      refine List.map_congr_left fun e he => ih e he fun e' fallback hmem => ?_
      rw [log_convertExpr_tuple] at h
      exact h e' fallback (List.mem_flatMap.2 ⟨e, he, hmem⟩)
    rw [convertExpr_tuple, convertExpr_tuple, hall]
  | path fullName args selfType ih =>
    cases selfType with
    | some selfType => exact absurd (List.mem_singleton.2 rfl) (h _ config.anyType)
    | none =>
      have hparts : Config.parts? { config with anyType := anyType } fullName args
          = config.parts? fullName args := Config.parts?_of_structural_eq rfl fullName args
      rw [log_convertExpr_path] at h
      rw [convertExpr_path, convertExpr_path, hparts]
      cases hw : config.parts? fullName args with
      | none => exact convertText_anyType anyType isReturn _
      | some w =>
        rw [hw] at h
        refine renderWrapped_map_congr rfl isReturn fun e he => ?_
        refine ih e (Config.mem_of_mem_args_parts? hw he) fun e' fallback hmem => ?_
        exact h e' fallback (List.mem_flatMap.2 ⟨e, he, hmem⟩)
  | verbatim form text => exact absurd (List.mem_singleton.2 rfl) (h _ config.anyType)

/-! ### Generic types that are left as they are -/

/-- Whether every generic type in a text is an array or a record. -/
def GenericsConverted (s : Text) : Prop :=
  ∀ before after, s = before ++ '<' :: after →
    "Array".toList <:+ before ∨ "Record".toList <:+ before

namespace GenericsConverted

variable {s t : Text}

theorem of_not_mem (h : '<' ∉ s) : GenericsConverted s := by
  rintro before after rfl
  exact absurd (List.mem_append_right _ List.mem_cons_self) h

theorem append (hs : GenericsConverted s) (ht : GenericsConverted t) :
    GenericsConverted (s ++ t) := by
  intro before after h
  rcases List.append_eq_append_iff.1 h with ⟨middle, rfl, hmiddle⟩ | ⟨middle, rfl, hmiddle⟩
  · exact (ht middle after hmiddle).imp (fun hend => hend.trans (List.suffix_append s middle))
      fun hend => hend.trans (List.suffix_append s middle)
  · cases middle with
    | nil =>
      -- No text begins with the bracket of an array or a record.
      have hnil := ht [] after hmiddle.symm
      simp at hnil
    | cons c middle =>
      cases hmiddle
      exact hs before middle rfl

theorem of_name {name : Text} (hname : name = "Array".toList ∨ name = "Record".toList) :
    GenericsConverted (name ++ ['<']) := by
  have hangle : '<' ∉ name := by
    rcases hname with rfl | rfl <;> decide
  have hself : "Array".toList <:+ name ∨ "Record".toList <:+ name := by
    rcases hname with rfl | rfl
    · exact .inl List.suffix_rfl
    · exact .inr List.suffix_rfl
  intro before after h
  rcases List.append_eq_append_iff.1 h with ⟨middle, rfl, hmiddle⟩ | ⟨middle, rfl, hmiddle⟩
  · cases middle with
    | nil => rwa [List.append_nil]
    | cons c middle => simp at hmiddle
  · cases middle with
    | nil => rwa [List.append_nil] at hself
    | cons c middle =>
      cases hmiddle
      exact absurd (List.mem_append_right _ List.mem_cons_self) hangle

theorem intercalate {separator : Text} (hseparator : '<' ∉ separator) {texts : List Text}
    (h : ∀ t ∈ texts, GenericsConverted t) : GenericsConverted (separator.intercalate texts) := by
  induction texts with
  | nil => exact of_not_mem List.not_mem_nil
  | cons t rest ih =>
    obtain ⟨ht, hrest⟩ := List.forall_mem_cons.1 h
    rw [Text.intercalate_cons]
    refine ht.append ?_
    split
    · exact of_not_mem List.not_mem_nil
    · exact (of_not_mem hseparator).append (ih hrest)

theorem render_tuple {elements : List TsType}
    (h : ∀ t ∈ elements, GenericsConverted t.render) :
    GenericsConverted (TsType.tuple elements).render := by
  have hjoin : GenericsConverted (", ".toList.intercalate (elements.map TsType.render)) :=
    intercalate (by decide) (List.forall_mem_map.2 h)
  have hopen : GenericsConverted ['['] := of_not_mem (by decide)
  have hclose : GenericsConverted [']'] := of_not_mem (by decide)
  rw [TsType.render_tuple, TsType.renderAll_eq_map]
  exact (hopen.append hjoin).append hclose

end GenericsConverted

/-- The names that a configuration brings in hold no generic type. -/
structure Config.Plain (config : Config) : Prop where
  errorType : '<' ∉ config.errorType
  anyType : '<' ∉ config.anyType
  rows : ∀ row ∈ config.rows.entries, '<' ∉ row.2

theorem genericsConverted_ofWrapped (hc : config.Plain) (isReturn : Bool) {w : Wrapped TsType}
    (h : ∀ t ∈ w.args, GenericsConverted t.render) :
    GenericsConverted (TsType.ofWrapped config isReturn w).render := by
  have hclose : GenericsConverted ['>'] := .of_not_mem (by decide)
  have hbar : GenericsConverted " | ".toList := .of_not_mem (by decide)
  cases w with
  | vec element =>
    have harray : GenericsConverted "Array<".toList := .of_name (.inl rfl)
    have helement := List.forall_mem_singleton.1 h
    exact (harray.append helement).append hclose
  | option present =>
    have hnull : GenericsConverted TsType.null.render := .of_not_mem (by decide)
    have hpresent := List.forall_mem_singleton.1 h
    exact (hpresent.append hbar).append hnull
  | result success =>
    have hsuccess := List.forall_mem_singleton.1 h
    cases isReturn with
    | true => exact hsuccess
    | false => exact ((GenericsConverted.of_not_mem hc.errorType).append hbar).append hsuccess
  | hashMap key value =>
    obtain ⟨hkey, h⟩ := List.forall_mem_cons.1 h
    have hvalue := List.forall_mem_singleton.1 h
    have hrecord : GenericsConverted "Record<".toList := .of_name (.inr rfl)
    have hcomma : GenericsConverted ", ".toList := .of_not_mem (by decide)
    exact (((hrecord.append hkey).append hcomma).append hvalue).append hclose

theorem angle_not_mem_of_lookup? (hc : config.Plain) {token name : Text}
    (h : Scalar.lookup? config.rows token = some name) : '<' ∉ name :=
  Scalar.of_lookup? (P := fun name => '<' ∉ name) (by decide) hc.rows h

theorem genericsConverted_convertText (hc : config.Plain) {isReturn : Bool} {text : Text}
    (h : ∀ s, .passedThrough s ∉ (convertText config isReturn text).log) :
    GenericsConverted (convertText config isReturn text).value.render := by
  rw [log_convertText] at h
  rw [value_convertText]
  cases hlookup : Scalar.lookup? config.rows text with
  | some name => exact .of_not_mem (angle_not_mem_of_lookup? hc hlookup)
  | none =>
    simp only [hlookup] at h
    cases hw : (recognize text).value with
    | none =>
      have hangle : '<' ∉ text := by
        intro hangle
        refine h text (List.mem_append_right _ ?_)
        simp only [hw, log_passThrough_of_mem hangle, List.mem_singleton]
      exact .of_not_mem hangle
    | some w =>
      refine genericsConverted_ofWrapped hc isReturn fun t hm => ?_
      rw [Wrapped.args_map] at hm
      obtain ⟨argument, ha, rfl⟩ := List.mem_map.1 hm
      have hlt := length_lt_of_mem_args_recognize hw ha
      refine genericsConverted_convertText hc fun s hs => h s (List.mem_append_right _ ?_)
      simp only [hw]
      exact List.mem_flatMap.2 ⟨argument, ha, hs⟩
termination_by text.length

theorem genericsConverted_convertExpr (hc : config.Plain) {isReturn : Bool} {e : TypeExpr}
    (h : ∀ s, .passedThrough s ∉ (convertExpr config isReturn e).log) :
    GenericsConverted (convertExpr config isReturn e).value.render := by
  induction e using TypeExpr.induct generalizing isReturn with
  | reference referent isMutable lifetime ih =>
    rw [convertExpr] at h ⊢
    exact ih h
  | tuple elements ih =>
    rw [log_convertExpr_tuple] at h
    rw [convertExpr_tuple]
    split
    · exact .of_not_mem (by decide)
    · refine GenericsConverted.render_tuple fun t ht => ?_
      rw [Logged.value_all, List.map_map] at ht
      obtain ⟨e, he, rfl⟩ := List.mem_map.1 ht
      exact ih e he fun s hs => h s (List.mem_flatMap.2 ⟨e, he, hs⟩)
  | path fullName args selfType ih =>
    cases selfType with
    | some selfType => exact .of_not_mem hc.anyType
    | none =>
      rw [log_convertExpr_path] at h
      rw [convertExpr_path]
      cases hparts : config.parts? fullName args with
      | none =>
        rw [hparts] at h
        exact genericsConverted_convertText hc h
      | some w =>
        rw [hparts] at h
        dsimp only
        rw [value_renderWrapped]
        refine genericsConverted_ofWrapped hc isReturn fun t hm => ?_
        rw [Wrapped.args_map, Wrapped.args_map, List.map_map] at hm
        obtain ⟨e, he, rfl⟩ := List.mem_map.1 hm
        exact ih e (Config.mem_of_mem_args_parts? hparts he) fun s hs =>
          h s (List.mem_flatMap.2 ⟨e, he, hs⟩)
  | verbatim form text => exact .of_not_mem hc.anyType

/-! ### Degradation is reported -/

/-- Just the conversions that depend on the type of what has no counterpart report so, and one that
reports no generic type left as it is leaves none. -/
theorem convert_unreported (config : Config) (isReturn : Bool) (source : TypeSource) :
    let log := (convert config isReturn source).log
    ((∀ event ∈ log, ¬ "No TypeScript mapping".toList <+: event.message) ↔
      ∀ anyType, convert { config with anyType := anyType } isReturn source
        = convert config isReturn source) ∧
    (config.Plain →
      (∀ event ∈ log, ¬ "Passing through unrecognized generic type".toList <+: event.message) →
        GenericsConverted (convert config isReturn source).value.render) := by
  intro log
  simp only [Event.begins_noMapping_iff, Event.begins_passedThrough_iff]
  refine ⟨⟨fun h anyType => ?_, ?_⟩, fun hc h => ?_⟩
  · cases source with
    | text s => exact convertText_anyType anyType isReturn s
    | expr e =>
      exact convertExpr_anyType anyType fun e' fallback hmem => h _ hmem ⟨e', fallback, rfl⟩
  · rintro hsame _ hmem ⟨e', fallback, rfl⟩
    cases source with
    | text s => exact noMapping_not_mem_log_convertText isReturn s e' fallback hmem
    | expr e =>
      have hother := hsame ('x' :: config.anyType)
      have hlonger : fallback = 'x' :: config.anyType := by
        have hmem : .noMapping e' fallback ∈ (convert config isReturn (.expr e)).log := hmem
        rw [← hother] at hmem
        exact fallback_eq_of_mem_log hmem
      exact List.cons_ne_self _ _ (hlonger.symm.trans (fallback_eq_of_mem_log hmem))
  · have hpassed : ∀ s, .passedThrough s ∉ log := fun s hmem => h _ hmem ⟨s, rfl⟩
    cases source with
    | text s => exact genericsConverted_convertText hc hpassed
    | expr e => exact genericsConverted_convertExpr hc hpassed

/-- Arrays that are not rendered go unreported, but an array by itself depends on the type of what
has no counterpart. -/
theorem convert_unreported_nested :
    let config : Config := { structural := true, errorType := "ApiError".toList }
    let name := fun s : String => TypeExpr.path s.toList [] none
    let array := TypeExpr.verbatim .array "[u8; 4]".toList
    let result := TypeExpr.path "Result".toList
      [.path "Vec".toList [.reference (name "str") false none, array] none, array] none
    let map := TypeExpr.path "HashMap".toList [name "K", .tuple []] none
    let source := TypeSource.expr (.tuple [result, map])
    let log := (convert config true source).log
    (∀ event ∈ log, ¬ "No TypeScript mapping".toList <+: event.message) ∧
      (∀ event ∈ log, ¬ "Passing through unrecognized generic type".toList <+: event.message) ∧
      (∀ anyType, convert { config with anyType := anyType } true source
        = convert config true source) ∧
      config.Plain ∧ (convert config true source).value.render
        = "[ApiError | Array<string>, Record<K, undefined>]".toList ∧
      GenericsConverted (convert config true source).value.render ∧
      ¬ ∀ anyType, convert { config with anyType := anyType } true (.expr array)
        = convert config true (.expr array) := by
  intro config name array result map source log
  have hlog : log = [] := by decide +kernel
  have hc : config.Plain := ⟨by decide, by decide, by decide⟩
  have hsilent : ∀ words : Text, ∀ event ∈ log, ¬ words <+: event.message := by
    intro words
    rw [hlog]
    exact nofun
  have hrender : (convert config true source).value.render
      = "[ApiError | Array<string>, Record<K, undefined>]".toList := by decide +kernel
  obtain ⟨hmapping, hgenerics⟩ := convert_unreported config true source
  refine ⟨hsilent _, hsilent _, hmapping.1 (hsilent _), hc, hrender, hgenerics hc (hsilent _),
    fun harray => ?_⟩
  exact (convert_unreported config true (.expr array)).1.2 harray _ (List.mem_singleton.2 rfl)
    ⟨_, rfl⟩

end TypeBridge
