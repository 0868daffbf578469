import TypeBridge.Proofs.Nesting.Bracketed
import TypeBridge.Proofs.TypeExpr.LastSegment
import TypeBridge.Proofs.TypeExpr.Print
import TypeBridge.Proofs.Wrapper.Arguments
import TypeBridge.Wrapper.Basic

/-!
Expressions whose printed form holds their wrappers. Every argument that conversion renders is again
such an expression; the other arguments need only nest properly on one line. Main statement: the
printed form of such an expression can stand as one argument of a list.
-/

namespace TypeBridge

/-- An expression whose printed form nests properly and stays on one line. -/
def Tame (e : TypeExpr) : Prop := WellNested e.print ∧ '\n' ∉ e.print

/-- References, one or more of them, to the type of string slices. -/
inductive StrReference : TypeExpr → Prop where
  | slice (isMutable : Bool) (lifetime : Option Text)
    (hlifetime : ∀ name ∈ lifetime, Text.isIdent name = true) :
    StrReference (.reference (.path "str".toList [] none) isMutable lifetime)
  | reference (referent : TypeExpr) (isMutable : Bool) (lifetime : Option Text)
    (hlifetime : ∀ name ∈ lifetime, Text.isIdent name = true) (hreferent : StrReference referent) :
    StrReference (.reference referent isMutable lifetime)

/-- Expressions that are converted alike from their parts and from their printed form. -/
inductive Rendered : TypeExpr → Prop where
  | borrowed (e : TypeExpr) (he : StrReference e) : Rendered e
  | wrapped (n : PathName) (wrapper : Wrapper) (rendered more : List TypeExpr)
    (hwrapper : n.last = wrapper.name) (hname : wrapper ≠ .hashMap → n.text = wrapper.name)
    (hlength : rendered.length = wrapper.arity) (hrendered : ∀ e ∈ rendered, Rendered e)
    (hmore : ∀ e ∈ more, Tame e) : Rendered (.path n.text (rendered ++ more) none)
  | textual (n : PathName) (args : List TypeExpr)
    (hwrapper : ∀ wrapper : Wrapper, n.last = wrapper.name → args.length < wrapper.arity)
    (hargs : ∀ e ∈ args, Tame e) : Rendered (.path n.text args none)

/-! ### Names in print -/

namespace PathName

variable (n : PathName)

theorem quiet_text : Quiet n.text := n.spelledBy_text.quiet

theorem isArgument_text : IsArgument n.text where
  wellNested := by
    have h := scan_quiet passes_stackStep none [] n.quiet_text
    rwa [← openAfter?_eq_scan] at h
  not_hasOuterComma :=
    not_hasOuterComma_of_depthAfter? (scan_quiet passes_commaStep none 0 n.quiet_text)
  not_blank := n.trimmed_text.not_blank n.text_ne_nil
  not_mem_newline := not_mem_text (by decide) (by decide)

end PathName

/-! ### Rendered expressions in print -/

theorem StrReference.exists_print {e : TypeExpr} (he : StrReference e) :
    ∃ inner, e.print = '&' :: inner ++ " str".toList := by
  induction he with
  | slice isMutable lifetime hlifetime =>
    obtain ⟨marks, hmarks⟩ :=
      TypeExpr.exists_print_reference (.path "str".toList [] none) isMutable lifetime
    exact ⟨marks, hmarks⟩
  | reference referent isMutable lifetime hlifetime _ ih =>
    obtain ⟨marks, hmarks⟩ := TypeExpr.exists_print_reference referent isMutable lifetime
    obtain ⟨inner, hinner⟩ := ih
    refine ⟨marks ++ ' ' :: '&' :: inner, ?_⟩
    rw [hmarks, hinner]
    simp

theorem StrReference.trimmed {e : TypeExpr} (he : StrReference e) : Text.Trimmed e.print := by
  obtain ⟨inner, hprint⟩ := he.exists_print
  rw [hprint]
  have hand : Text.isBlank '&' = false := by decide
  have hr : Text.isBlank 'r' = false := by decide
  constructor
  · intro c hc
    cases hc
    exact hand
  · intro c hc
    have hlast : ('&' :: inner ++ " str".toList).getLast? = some 'r' := by
      rw [List.getLast?_append_of_ne_nil _ (by decide)]
      rfl
    rw [hlast] at hc
    cases hc
    exact hr

theorem isArgument_reference {e : TypeExpr} {isMutable : Bool} {lifetime : Option Text}
    (hlifetime : ∀ name ∈ lifetime, Text.isIdent name = true) (he : IsArgument e.print) :
    IsArgument (TypeExpr.reference e isMutable lifetime).print := by
  have hline : '\n' ∉ referenceText isMutable lifetime := by
    intro hn
    rcases mem_referenceText hlifetime hn with h | h
    · exact absurd h (by decide)
    · exact absurd h (by decide)
  exact IsArgument.quiet_append (quiet_referenceText isMutable hlifetime) hline
    (lastOr_referenceText_ne isMutable lifetime) he

theorem StrReference.isArgument {e : TypeExpr} (he : StrReference e) : IsArgument e.print := by
  have hstr : IsArgument "str".toList :=
    PathName.isArgument_text ⟨false, "str".toList, [], by decide⟩
  induction he with
  | slice isMutable lifetime hlifetime => exact isArgument_reference hlifetime hstr
  | reference referent isMutable lifetime hlifetime _ ih =>
    exact isArgument_reference hlifetime ih

theorem wellNested_intercalate_print {args : List TypeExpr} (hargs : ∀ e ∈ args, Tame e) :
    WellNested (", ".toList.intercalate (args.map TypeExpr.print)) := by
  refine wellNested_intercalate fun s hs => ?_
  obtain ⟨e, he, rfl⟩ := List.mem_map.1 hs
  exact (hargs e he).1

theorem newline_not_mem_intercalate_print {args : List TypeExpr} (hargs : ∀ e ∈ args, Tame e) :
    '\n' ∉ ", ".toList.intercalate (args.map TypeExpr.print) := by
  exact Text.not_mem_intercalate (by decide) (List.forall_mem_map.2 fun e he => (hargs e he).2)

theorem isArgument_path (n : PathName) {args : List TypeExpr} (hargs : ∀ e ∈ args, Tame e) :
    IsArgument (TypeExpr.path n.text args none).print := by
  by_cases hnil : args = []
  · rw [hnil, print_path_nil]
    exact n.isArgument_text
  · rw [print_path_of_ne_nil n hnil]
    have hjoin := wellNested_intercalate_print hargs
    refine ⟨wellNested_angled n.quiet_text hjoin,
      not_hasOuterComma_of_depthAfter? (depthAfter?_angled n.quiet_text hjoin), fun hb => ?_, ?_⟩
    · exact n.isArgument_text.not_blank (Text.blank_append_iff.1 hb).1
    · intro hn
      rw [List.mem_append, List.mem_append, List.mem_append] at hn
      rcases hn with hn | (hn | hn) | hn
      · exact n.isArgument_text.not_mem_newline hn
      · exact absurd hn (by decide)
      · exact newline_not_mem_intercalate_print hargs hn
      · exact absurd hn (by decide)

theorem trimmed_path (n : PathName) (args : List TypeExpr) :
    Text.Trimmed (TypeExpr.path n.text args none).print := by
  by_cases hnil : args = []
  · rw [hnil, print_path_nil]
    exact n.trimmed_text
  · rw [print_path_of_ne_nil n hnil]
    refine ⟨fun c hc => n.trimmed_text.1 c ?_, fun c hc => ?_⟩
    · rwa [List.head?_append_of_ne_nil _ n.text_ne_nil] at hc
    · rw [← List.append_assoc, List.getLast?_append_of_ne_nil _ (by decide)] at hc
      cases hc
      decide

theorem Rendered.isArgument {e : TypeExpr} (he : Rendered e) : IsArgument e.print := by
  induction he with
  | borrowed e he => exact he.isArgument
  | textual n args _ hargs => exact isArgument_path n hargs
  | wrapped n wrapper rendered more _ _ _ _ hmore ih =>
    refine isArgument_path n fun e hm => ?_
    rcases List.mem_append.1 hm with hm | hm
    · exact ⟨(ih e hm).wellNested, (ih e hm).not_mem_newline⟩
    · exact hmore e hm

theorem Rendered.trimmed {e : TypeExpr} (he : Rendered e) : Text.Trimmed e.print := by
  cases he with
  | borrowed _ he => exact he.trimmed
  | textual n args _ _ => exact trimmed_path n args
  | wrapped n _ rendered more _ _ _ _ _ => exact trimmed_path n (rendered ++ more)

end TypeBridge
