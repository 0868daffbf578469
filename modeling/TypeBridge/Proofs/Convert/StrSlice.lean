import TypeBridge.Proofs.TypeExpr.WellFormed
import TypeBridge.Proofs.Wrapper.Compositional
import TypeBridge.Proofs.Wrapper.Rendered

/-!
The ending of a borrowed string slice. A token that has no row and ends with ` str` is taken for a
slice. Main statement: the printed forms that end so are those of borrowed slices and those of
expressions that keep the ending from their source, such as a raw pointer to `str`; where no row
counts, these alone are converted into `string`, apart from the word `string` itself.
-/

namespace TypeBridge

/-! ### Endings -/

namespace Text

/-- What ends with a word behind a space does so in its last part, or that part is the word. -/
theorem spaced_suffix_iff {word : Text} (hword : ' ' ∉ word) (before p : Text) :
    ' ' :: word <:+ before ++ ' ' :: p ↔ ' ' :: word <:+ p ∨ p = word := by
  have hlast : ' ' :: p <:+ before ++ ' ' :: p := List.suffix_append before (' ' :: p)
  constructor
  · intro h
    rcases List.suffix_or_suffix_of_suffix h hlast with h | h
    · rcases List.suffix_cons_iff.1 h with h | h
      · exact .inr (List.cons.inj h).2.symm
      · exact .inl h
    · rcases List.suffix_cons_iff.1 h with h | h
      · exact .inr (List.cons.inj h).2
      · exact absurd (h.subset List.mem_cons_self) hword
  · rintro (h | rfl)
    · exact (h.trans (List.suffix_cons ' ' p)).trans hlast
    · exact hlast

theorem getLast?_of_suffix {final s : Text} (h : final <:+ s) (hne : final ≠ []) :
    s.getLast? = final.getLast? := by
  obtain ⟨before, rfl⟩ := h
  exact List.getLast?_append_of_ne_nil before hne

end Text

/-! ### String slices -/

namespace TypeExpr

/-- Whether an expression, perhaps behind references, keeps the ending ` str` from its source: in
verbatim text, in the collapsed text of a path, or as a path `str` behind a self type. -/
def KeepsStr : TypeExpr → Prop
  | reference referent _ _ => KeepsStr referent
  | path fullName [] none => '<' ∈ fullName ∧ " str".toList <:+ fullName
  | path fullName [] (some _) =>
    fullName = "str".toList ∨ ('<' ∈ fullName ∧ " str".toList <:+ fullName)
  | verbatim _ text => " str".toList <:+ text
  | _ => False

variable {e : TypeExpr}

theorem strReference_reference_iff (isMutable : Bool) {lifetime : Option Text}
    (h : ∀ name ∈ lifetime, Text.isIdent name = true) :
    StrReference (reference e isMutable lifetime) ↔
      e = path "str".toList [] none ∨ StrReference e := by
  constructor
  · intro hstr
    cases hstr with
    | slice => exact .inl rfl
    | reference _ _ _ _ hreferent => exact .inr hreferent
  · rintro (rfl | hreferent)
    · exact .slice isMutable lifetime h
    · exact .reference e isMutable lifetime h hreferent

/-- The name of a path ends with a word behind a space only if it is no row of identifiers. -/
theorem angle_mem_of_suffix {fullName : Text} {args : List TypeExpr} {selfType : Option Text}
    (h : (path fullName args selfType).WellFormed) (hsuffix : " str".toList <:+ fullName) :
    '<' ∈ fullName := by
  cases h with
  | path hname _ =>
    rcases hname with ⟨n, rfl⟩ | ⟨_, hangle, _⟩
    · have hspace : ' ' ∈ n.text := hsuffix.subset (by decide)
      exact absurd hspace (PathName.not_mem_text (by decide) (by decide))
    · exact hangle

/-- Only the path `str` prints as `str`. -/
theorem Readable.print_eq_str_iff (h : Readable e) (hb : ¬ e.IsBinding) :
    e.print = "str".toList ↔ e = path "str".toList [] none := by
  refine ⟨fun hprint => ?_, fun he => he ▸ by decide⟩
  have hlast : e.print.getLast? = some 'r' := by
    rw [hprint]
    decide
  cases e with
  | reference referent isMutable lifetime =>
    obtain ⟨marks, hmarks⟩ := exists_print_reference referent isMutable lifetime
    cases congrArg List.head? (hmarks.symm.trans hprint)
  | tuple elements => cases (getLast?_print_tuple elements).symm.trans hlast
  | path fullName args selfType =>
    by_cases hargs : args = []
    · subst hargs
      rw [print_path_unapplied] at hprint
      cases selfType with
      | none => exact congrArg (path · [] none) hprint
      | some self =>
        rw [headText_some_eq] at hprint
        cases congrArg List.head? hprint
    · cases (getLast?_print_path fullName hargs selfType).symm.trans hlast
  | verbatim form text =>
    cases h.wellFormed with
    | verbatim _ _ hread =>
      have hpeel : Layer.peel? "str".toList = .ok (.path "str".toList [] none) := by decide +kernel
      have hstr : parse "str".toList = .ok (path "str".toList [] none) :=
        parse_eq_ok_iff.2 (parseType_eq_ok_iff.2 ⟨_, hpeel, rfl⟩)
      have hself := hread hb
      rw [show text = "str".toList from hprint, hstr] at hself
      cases hself

theorem not_suffix_of_getLast? {s : Text} {c : Char} (h : s.getLast? = some c) (hc : c ≠ 'r') :
    ¬ " str".toList <:+ s := by
  intro hsuffix
  rw [Text.getLast?_of_suffix hsuffix (by decide)] at h
  exact hc (Option.some.inj h).symm

theorem suffix_print_path_iff {fullName : Text} {args : List TypeExpr} {selfType : Option Text}
    (h : (path fullName args selfType).WellFormed) :
    " str".toList <:+ (path fullName args selfType).print ↔
      (path fullName args selfType).KeepsStr := by
  cases args with
  | cons e es =>
    have hlast := getLast?_print_path fullName (List.cons_ne_nil e es) selfType
    exact iff_of_false (not_suffix_of_getLast? hlast (by decide)) (by simp [KeepsStr])
  | nil =>
    have hangle : '<' ∈ fullName ∧ " str".toList <:+ fullName ↔ " str".toList <:+ fullName :=
      and_iff_right_of_imp (angle_mem_of_suffix h)
    rw [print_path_unapplied]
    cases selfType with
    | none => exact hangle.symm
    | some self =>
      rw [headText_some_eq, KeepsStr, hangle, or_comm]
      exact Text.spaced_suffix_iff (by decide) _ fullName

/-- The printed forms that end like a borrowed string slice. -/
theorem Readable.suffix_print_iff (h : Readable e) :
    " str".toList <:+ e.print ↔ StrReference e ∨ e.KeepsStr := by
  induction e using TypeExpr.induct with
  | reference referent isMutable lifetime ih =>
    obtain ⟨marks, hmarks⟩ := exists_print_reference referent isMutable lifetime
    have hreferent : Readable referent := h.of_mem_parts List.mem_cons_self
    have hword : ' ' ∉ "str".toList := by decide
    cases h.wellFormed with
    | reference _ hbinding hlifetime =>
      rw [hmarks, strReference_reference_iff isMutable hlifetime, KeepsStr]
      refine (Text.spaced_suffix_iff hword ('&' :: marks) referent.print).trans ?_
      rw [hreferent.print_eq_str_iff hbinding, or_comm, or_assoc, ← ih hreferent]
      rfl
  | tuple elements =>
    have hlast := getLast?_print_tuple elements
    refine iff_of_false (not_suffix_of_getLast? hlast (by decide)) ?_
    rintro (h | h) <;> cases h
  | path fullName args selfType =>
    refine (suffix_print_path_iff h.wellFormed).trans (or_iff_right ?_).symm
    intro h
    cases h
  | verbatim form text =>
    refine (or_iff_right ?_).symm
    intro h
    cases h

end TypeExpr

/-! ### Conversion -/

/-- What is built around an argument is never `string`. -/
theorem render_ofWrapped_ne_string (config : Config) (w : Wrapped TsType) :
    (TsType.ofWrapped config false w).render ≠ "string".toList := by
  have hunion : ∀ left right : TsType, (TsType.union left right).render ≠ "string".toList := by
    intro left right h
    have hbar : '|' ∈ (TsType.union left right).render := by simp
    rw [h] at hbar
    exact absurd hbar (by decide)
  cases w with
  | vec element =>
    intro h
    cases congrArg List.head? h
  | option present => exact hunion present .null
  | result success => exact hunion (.name config.errorType) success
  | hashMap key value =>
    intro h
    cases congrArg List.head? h

/-- A text without a row is converted into `string` just when it is that word, or ends like a
borrowed string slice. -/
theorem render_convertText_eq_string_iff {config : Config} {text : Text}
    (hbuiltin : Scalar.builtin? text = none) (hrow : config.rows.get? text = none) :
    (convertText config false text).value.render = "string".toList ↔
      text = "string".toList ∨ " str".toList.isSuffixOf text = true := by
  have hlookup : Scalar.lookup? config.rows text
      = if " str".toList.isSuffixOf text then some "string".toList else none := by
    rw [Scalar.lookup?, hbuiltin, hrow]
  rw [value_convertText, hlookup]
  cases hend : " str".toList.isSuffixOf text with
  | true => exact iff_of_true rfl (.inr rfl)
  | false =>
    rw [if_neg Bool.false_ne_true]
    cases hw : (recognize text).value with
    | none => exact (or_iff_left Bool.false_ne_true).symm
    | some w =>
      refine iff_of_false (render_ofWrapped_ne_string config _) ?_
      rintro (rfl | h)
      · have hnone : (recognize "string".toList).value = none := by decide
        cases hnone.symm.trans hw
      · cases h

/-- What ends like a borrowed string slice is one or keeps the ending from its source, and among
texts without a row these are converted into `string`, apart from that word itself. -/
theorem str_suffix_iff {s : Text} {whole e : TypeExpr} (h : parse s = .ok whole)
    (he : e.Within whole) :
    (" str".toList.isSuffixOf e.print = true ↔ StrReference e ∨ e.KeepsStr) ∧
      ∀ config : Config, Scalar.builtin? e.print = none → config.rows.get? e.print = none →
        ((convertText config false e.print).value.render = "string".toList ↔
          e.print = "string".toList ∨ StrReference e ∨ e.KeepsStr) := by
  have hread : e.Readable := (TypeExpr.Readable.read (parse_eq_ok_iff.1 h)).of_within he
  have hends : " str".toList.isSuffixOf e.print = true ↔ StrReference e ∨ e.KeepsStr :=
    List.isSuffixOf_iff_suffix.trans hread.suffix_print_iff
  refine ⟨hends, fun config hbuiltin hrow => ?_⟩
  rw [render_convertText_eq_string_iff hbuiltin hrow, hends]

/-- A raw pointer to `str` keeps its ending, so an array of such pointers is one of strings. -/
theorem str_suffix_iff_pointer :
    let s := "Vec<*const str>".toList
    let pointer := TypeExpr.verbatim .pointer "*const str".toList
    let whole := TypeExpr.path "Vec".toList [pointer] none
    WellNested s ∧ parse s = .ok whole ∧ pointer.Within whole ∧
      Scalar.builtin? pointer.print = none ∧ Rows.empty.get? pointer.print = none ∧
      " str".toList.isSuffixOf pointer.print = true ∧ ¬ StrReference pointer ∧
      (convertText {} false pointer.print).value.render = "string".toList ∧
      (convert {} false (.expr whole)).value.render = "Array<string>".toList := by
  intro s pointer whole
  have hpath : Layer.peel? s = .ok (.path "Vec".toList [.type "*const str".toList] none) := by
    decide +kernel
  have hpointer : Layer.peel? "*const str".toList
      = .ok (.verbatim .pointer "*const str".toList) := by decide +kernel
  have hs : parse s = .ok whole :=
    parse_eq_ok_iff.2 (parseType_eq_ok_iff.2 ⟨_, hpath, Layer.read_path_eq_ok.2
      ⟨_, .cons (parseType_eq_ok_iff.2 ⟨_, hpointer, rfl⟩) .nil, rfl⟩⟩)
  have hwithin : pointer.Within whole := .part List.mem_cons_self .refl
  have hkeeps : pointer.KeepsStr := ⟨"*const".toList, by decide⟩
  have hbuiltin : Scalar.builtin? pointer.print = none := by decide
  obtain ⟨hends, hstring⟩ := str_suffix_iff hs hwithin
  have hslice : ¬ StrReference (.verbatim .pointer "*const str".toList) := by
    intro h
    cases h
  exact ⟨by decide +kernel, hs, hwithin, hbuiltin, rfl, hends.2 (.inr hkeeps), hslice,
    (hstring {} hbuiltin rfl).2 (.inr (.inr hkeeps)), by decide +kernel⟩

end TypeBridge
